import Mathlib.Data.List.TakeWhile
import StopWait.Proofs.Cycles
import StopWait.Proofs.Upkeep

/-!
# Uploads

A transfer in which one application writes all of its bytes at once and closes. The session reads
them in full segments and what is left over, so its transfer log can be told beforehand, and the
other application hears all of them before it hears of the end.

* `Draws`: the requests that wait and those that are still to come.
* `Hears`: **what an application has heard.**
* `Uploads`: **the invariant of an upload.**
* `Uploads.turn`: every turn of a task keeps it.
-/

namespace StopWait.Link

open Session (Stage Response Party staged carry)

/-- The step of a script that makes a request. -/
def Request.step (r : Request) : AppStep := .call r.call

/-- **The requests of one write and a close**: those that wait at an endpoint and those that are
left in the script. Once bytes are buffered, the close alone is left. -/
structure Draws (payload : List UInt8) (e : Endpoint) (script : List AppStep) : Prop where
  asks : e.requests.map Request.step ++ script <:+ writing [payload] []
  buffered : e.buffer ≠ [] → e.requests.map Request.step ++ script <:+ [.call .close]

variable {payload : List UInt8} {e e' f : Endpoint} {script rest : List AppStep}

/-- What is left of a write and a close. -/
theorem suffix_writing (h : script <:+ writing [payload] []) :
    script = (Request.write payload).step :: [.call .close] ∨ script <:+ [.call .close] :=
  List.suffix_cons_iff.1 h

theorem suffix_close (h : script <:+ [.call .close]) : script = [Request.close.step] ∨ script = [] :=
  (List.suffix_cons_iff.1 h).imp_right List.suffix_nil.1

/-- A script that is left has a request next. -/
theorem Draws.next (h : Draws payload e script) :
    script = [] ∨ ∃ (r : Request) (rest : List AppStep), script = r.step :: rest := by
  obtain hs | hs := suffix_writing ((List.suffix_append _ _).trans h.asks)
  · exact .inr ⟨_, _, hs⟩
  · exact (suffix_close hs).symm.imp_right fun hs => ⟨_, _, hs⟩

/-- There is room for every request. -/
theorem Draws.room (h : Draws payload e script) : e.requests.length < requestCapacity := by
  have hlen := h.asks.length_le
  have hcapacity : requestCapacity = 8 := rfl
  simp only [List.length_append, List.length_map, writing, List.map_cons, List.map_nil,
    List.length_cons, List.length_nil] at hlen
  omega

/-- A request goes from the script to the endpoint. -/
theorem Draws.request {r : Request} (h : Draws payload e (r.step :: rest)) :
    Draws payload { e with requests := e.requests ++ [r] } rest := by
  have hmap : (e.requests ++ [r]).map Request.step ++ rest =
      e.requests.map Request.step ++ r.step :: rest := by simp
  refine ⟨?_, ?_⟩
  · rw [hmap]
    exact h.asks
  · rw [hmap]
    exact h.buffered

/-- Requests that have been taken in are not left. -/
theorem Draws.drains (h : Draws payload e script) (hd : e.Drains f) : Draws payload f script := by
  obtain ⟨taken, hr, hb⟩ := hd
  have hall := h.asks
  rw [hr, List.map_append, List.append_assoc] at hall
  refine ⟨(List.suffix_append _ _).trans hall, fun hne => ?_⟩
  by_cases hbuffer : e.buffer = []
  · -- something has been taken in
    cases taken with
    | nil =>
      rw [hbuffer] at hb
      exact absurd (List.suffix_nil.1 hb) hne
    | cons r taken =>
      rw [List.map_cons, List.cons_append] at hall
      have htail : taken.map Request.step ++ (f.requests.map Request.step ++ script) <:+
          [.call .close] := by
        obtain hs | hs := suffix_writing hall
        · exact (List.cons.inj hs).2 ▸ List.suffix_refl _
        · exact (List.suffix_cons _ _).trans hs
      exact (List.suffix_append _ _).trans htail
  · have hleft := h.buffered hbuffer
    rw [hr, List.map_append, List.append_assoc] at hleft
    exact (List.suffix_append _ _).trans hleft

/-- Where bytes are buffered, they are all that is left. -/
theorem Draws.unread (h : Draws payload e script) (hb : e.buffer ≠ []) : e.unread = e.buffer := by
  have hleft := suffix_close (h.buffered hb)
  cases hr : e.requests with
  | nil => rw [Endpoint.unread, hr, List.flatMap_nil, List.append_nil]
  | cons r rs =>
    rw [hr, List.map_cons, List.cons_append] at hleft
    obtain hleft | hleft := hleft
    · -- the one request is a close
      obtain ⟨hstep, htail⟩ := List.cons.inj hleft
      have hrs : rs = [] := List.map_eq_nil_iff.1 (List.append_eq_nil_iff.1 htail).1
      cases r with
      | write bytes => cases hstep
      | close =>
        rw [Endpoint.unread, hr, hrs, List.flatMap_cons, List.flatMap_nil]
        exact List.append_nil _
    · cases hleft

/-- The bytes of an application's events up to the end of the peer. -/
theorem flatten_gather (events : List Notice) :
    (AppCall.gather [] events).reverse.flatten =
      (events.takeWhile (· ≠ .peerFin)).flatMap Notice.bytes := by
  simp only [AppCall.gather, List.foldl_flip_cons_eq_append, List.append_nil, List.reverse_reverse,
    List.flatMap_def]

/-- **What an application has heard**: the bytes that were delivered to it, and nothing after the end
of the peer. -/
structure Hears (e : Endpoint) (c : Connection) (delivered : List UInt8) : Prop where
  bytes : (AppCall.gather [] e.events).reverse.flatten = delivered
  fin : .peerFin ∈ e.events → c.state = .lastAck ∨ c.state = .closed

variable {c c₀ d : Connection} {delivered : List UInt8} {notice : Notice} {p p' : Party}
  {o : Option (Call × Response)} {sent : List Segment}

theorem Hears.congr (h : Hears e c delivered) (he : e'.events = e.events) (hd : d.state = c.state) :
    Hears e' d delivered := ⟨he ▸ h.bytes, he ▸ hd ▸ h.fin⟩

/-- A notice before the end of the peer adds its bytes. -/
theorem Hears.tell (h : Hears e c delivered) (hopen : c.state ≠ .lastAck ∧ c.state ≠ .closed)
    (he : e'.events = e.events ++ [notice]) (hfin : notice = .peerFin → d.state = .lastAck) :
    Hears e' d (delivered ++ notice.bytes) := by
  have hnone : .peerFin ∉ e.events := fun hm => (h.fin hm).elim hopen.1 hopen.2
  have hpos : ∀ n ∈ e.events, decide (n ≠ Notice.peerFin) = true := fun n hn =>
    decide_eq_true fun hp => hnone (hp ▸ hn)
  constructor
  · rw [← h.bytes, flatten_gather, flatten_gather, he, List.takeWhile_append_of_pos hpos,
      List.takeWhile_eq_self_iff.2 hpos, List.flatMap_append]
    congr 1
    cases notice <;> simp [Notice.bytes]
  · intro hm
    rw [he, List.mem_append, List.mem_singleton] at hm
    exact .inl (hfin (hm.resolve_left hnone).symm)

/-- **A move of a session tells its application what it delivers.** -/
theorem Hears.acts (h₀ : c₀.Free .listen) (h : Hears e p.connection delivered)
    (ha : Acts c₀ p o p' sent) (hsound : ∀ e, o ≠ none → p'.stage ≠ .failed e)
    (he : e'.events = e.events ++ toldIn o) :
    Hears e' p'.connection (delivered ++ deliveredIn o) := by
  have hfollows := ha.follows h₀
  -- where nothing is told, the state only goes on
  have hquiet : toldIn o = [] → deliveredIn o = [] →
      Hears e' p'.connection (delivered ++ deliveredIn o) := by
    intro ht hd
    rw [ht, List.append_nil] at he
    rw [hd, List.append_nil]
    refine ⟨he ▸ h.bytes, fun hm => ?_⟩
    obtain hst | hst := h.fin (he ▸ hm) <;> rw [hst] at hfollows
    · generalize p'.connection.state = st at hfollows
      cases hfollows with
      | stays => exact .inl rfl
      | endsLast => exact .inr rfl
    · exact .inr hfollows.of_closed
  obtain ⟨c, x, mail⟩ := p
  cases ha with
  | stays | begins | retires => exact hquiet rfl rfl
  | answers hg hfits hfits' =>
    cases hg with
    | fails => exact absurd rfl (hsound _ nofun)
    | hands =>
      have hstate : c.state = .established := hfits.1.state
      exact h.tell (by rw [hstate]; exact ⟨nofun, nofun⟩) he nofun
    | signals =>
      have hstate : c.state = .closeWait := hfits.1.state
      exact h.tell (by rw [hstate]; exact ⟨nofun, nofun⟩) he fun _ => hfits'.1.state
    | opens =>
      have hstate : c.state = .established := hfits.1.state
      exact h.tell (by rw [hstate]; exact ⟨nofun, nofun⟩) he nofun
    | _ => exact hquiet rfl rfl

variable {losable : Prop} {side : Side} {t t' : StackTask} {f' : Endpoint} {deed : Option Deed}
  {left : Nat} {results : List (Except Session.Error Unit)} {moved : Bool} {lens : List Nat}

/-- A session that fetches reads a full segment, or all that is buffered. -/
theorem Station.readIn (hst : Station c₀ t e p)
    (h : Serves losable c₀ p.connection p.stage side t left results e f deed t' e' f' moved)
    (hd : deed = o.map fun y => .stack side y.1 y.2) :
    readIn o = [] ∨ p.stage = .fetching ∧ readIn o = e.buffer.take mss.toNat := by
  cases o with
  | none => exact .inl rfl
  | some y =>
    obtain ⟨call, r⟩ := y
    cases h with
    | answers hp hr =>
      simp only [Option.map_some, Option.some.injEq, Deed.stack.injEq, true_and] at hd
      obtain ⟨rfl, rfl⟩ := hd
      by_cases hx : p.stage = .fetching
      · right
        refine ⟨hx, ?_⟩
        have hfits := hst.fits (hst.running (Stage.rests_of_suspended hp)).1
        rw [hx] at hp hfits
        have hfree : p.connection.Free .established := hfits.1.free rfl
        rw [← hfree.balanced.budget_eq hfree.flight]
        cases hp
        rw [hr.of_read]
        rfl
      · exact .inl (Session.readBytes_of_ne_fetching hp hx)
    | _ => cases hd

/-- **What a session reads goes to its transfer log**, one piece at a time. -/
theorem Serving.logged (hs : Serving c₀ side t t' e e' f f' deed p p' o sent moved)
    (h : p.connection.Logged lens) (hdone : p.stage = .ended → p.connection.done = true)
    (hlen : (readIn o).length ≤ mss.toNat) :
    p'.connection.Logged (lens ++ if readIn o = [] then [] else [(readIn o).length]) := by
  have hacts := hs.effect.acts
  have hadvances := hs.advances
  have hquiet : readIn o = [] → p'.connection.Logged lens →
      p'.connection.Logged (lens ++ if readIn o = [] then [] else [(readIn o).length]) := by
    intro hr h'
    rwa [if_pos hr, List.append_nil]
  generalize t.finished = before, t'.finished = after at hadvances
  cases hadvances with
  | stays => exact hquiet rfl h
  | retires hf hx dropped =>
    refine hquiet rfl ?_
    unfold retired
    split
    · exact h.drop (hdone hx)
    · exact h
  | @begins c' x' hx hfree hc =>
    have hne : ∀ e, x' ≠ .failed e := by
      have hopening := Session.carry_opening hfree
      rw [hc] at hopening
      obtain ⟨-, rfl⟩ | ⟨-, rfl⟩ := hopening <;> nofun
    have h' := (Session.Logged.carry h hc hne).1
    rw [Session.dataLengths_opening, List.append_nil] at h'
    exact hquiet rfl h'
  | steps hsteps =>
    cases hacts with
    | answers hg hfits hfits' hclean hreg hcarry =>
      have h' := (Session.Logged.carry h hcarry hsteps.sound).1
      by_cases hx : p.stage = .fetching
      · obtain ⟨c, x, mail⟩ := p
        obtain rfl : x = .fetching := hx
        cases hg with
        | fails => exact absurd rfl (hsteps.sound _)
        | @writes _ n bytes hne =>
          have hread : readIn (some (.appRecv n, .bytes bytes)) = bytes := rfl
          rw [hread] at hlen ⊢
          rw [if_neg hne]
          rw [Session.dataLengths_fetch hne, List.take_of_length_le hlen] at h'
          exact h'
      · rw [Session.dataLengths_turn hx, List.append_nil] at h'
        exact hquiet (hg.readBytes_eq_nil hx) h'

/-- The stages before the end of a run that goes well. -/
theorem stages_before_ended {x : Stage} {call : Call} {r : Response} {mail mail' : List Segment}
    (hg : Session.Goes c x mail call r .ended mail' sent) :
    (∃ bytes, x = .sending .closeAck bytes) ∨ x = .receiving .lastFin := by
  generalize hx : Stage.ended = x' at hg
  cases hg with
  | @posts _ _ m bytes =>
    cases m <;> first | exact .inl ⟨_, rfl⟩ | cases hx
  | @accepts _ w s =>
    cases w with
    | lastFin => exact .inr rfl
    | peerFin =>
      simp only [Session.Wait.after, Session.Arrival.begin] at hx
      split at hx <;> cases hx
    | _ => cases hx
  | _ => cases hx

/-- Nothing is in flight when a session has ended. -/
theorem Serving.landed (hs : Serving c₀ side t t' e e' f f' deed p p' o sent moved)
    (h : p.connection.Logged lens) (hlanded : p.stage = .ended → p.connection.inFlight = none)
    (hx' : p'.stage = .ended) : p'.connection.inFlight = none := by
  have hacts := hs.effect.acts
  have hadvances := hs.advances
  generalize t.finished = before, t'.finished = after at hadvances
  cases hadvances with
  | stays => exact hlanded hx'
  | retires hf hx dropped =>
    unfold retired
    split
    · exact hlanded hx
    · exact hlanded hx
  | begins hx hfree hc =>
    have hopening := Session.carry_opening hfree
    rw [hc] at hopening
    subst hx'
    obtain ⟨-, hx'⟩ | ⟨-, hx'⟩ := hopening <;> cases hx'
  | steps hsteps =>
    cases hacts with
    | answers hg hfits hfits' hclean hreg hcarry =>
      subst hx'
      obtain ⟨-, hlands⟩ := Session.Logged.carry h hcarry hsteps.sound
      -- the last segment is not about data
      obtain ⟨hfetch, hflight⟩ : p.stage ≠ .fetching ∧ p.connection.inFlight.isSome = false := by
        obtain ⟨bytes, hx⟩ | hx := stages_before_ended hg <;> rw [hx] at hfits ⊢ <;>
          exact ⟨nofun, hfits.1.flight⟩
      exact hlands (Option.isNone_iff_eq_none.1 (by simpa using hflight))
        (Session.dataLengths_turn hfetch _)

/-- **The invariant of an upload** of a payload, with the connections at first, the parties now and
the rank of their phase. -/
structure Uploads (c₀ : Side → Connection) (writer : Side) (payload : List UInt8) (h : Chronicle)
    (p : Both Party) (n : Nat) : Prop where
  transfers : Transfers c₀ writer payload h p n
  draws : Draws payload (h.world.link.ends.get writer) (h.world.apps.get writer).script
  silent : (h.world.apps.get writer.other).script = []
  apps : ∀ s, (h.world.apps.get s).timer = none ∧
    ∀ reply ∈ (h.world.apps.get s).answered, reply = .done
  hosts : ∀ s due, (h.world.hosts.get s).timer = some due →
    (h.world.hosts.get s).finished = false ∧ ∃ m bytes, (p.get s).stage = .sending m bytes
  logged : ∀ s, (p.get s).connection.Logged (pieceLengths (h.read s).length)
  landed : ∀ s, (p.get s).stage = .ended → (p.get s).connection.inFlight = none
  whole : (h.read writer).length % mss.toNat = 0 ∨ h.read writer = payload
  hears : ∀ s, Hears (h.world.link.ends.get s) (p.get s).connection (h.delivered s)

section uploads

variable {c₀ : Side → Connection} {writer : Side} {h : Chronicle} {p : Both Party} {n : Nat}
  {w : World} {p' : Party}

/-- Nothing is read at the other end. -/
theorem Transfers.read_other (hT : Transfers c₀ writer payload h p n) : h.read writer.other = [] := by
  have hsub := (hT.holds.books writer.other).sub
  rw [hT.silent.2.1] at hsub
  exact List.prefix_nil.1 hsub

/-- All has been written when the close is all that is left. -/
theorem Pens.written_of_close {written : List UInt8} {closing : Option (List UInt8)}
    (hp : Pens payload script written closing) (hs : script <:+ [.call .close]) :
    written = payload := by
  cases hp with
  | closed => rfl
  | @writes chunks rest _ hrest hw =>
    have hlen := hs.length_le
    simp only [writing, List.length_append, List.length_map, List.length_cons, List.length_nil]
      at hlen
    obtain rfl : chunks = [] := List.length_eq_zero_iff.1 (by omega)
    rwa [List.flatten_nil, List.append_nil] at hw

/-- Nothing has been closed while a request is left. -/
theorem Pens.closing_of_request {written : List UInt8} {closing : Option (List UInt8)} {r : Request}
    (hp : Pens payload script written closing) (hs : script = r.step :: rest) : closing = none := by
  cases hp with
  | writes => rfl
  | closed hrest =>
    have hquiet := hrest r.step (hs ▸ List.mem_cons_self)
    cases r <;> cases hquiet

/-- All has been written, and closed, when nothing is left. -/
theorem Pens.closing_of_nil {written : List UInt8} {closing : Option (List UInt8)}
    (hp : Pens payload script written closing) (hs : script = []) : closing = some payload := by
  cases hp with
  | closed => rfl
  | writes => simp [writing] at hs

/-- Time and another lossless network are nothing to an upload. -/
theorem Uploads.still (hU : Uploads c₀ writer payload h p n)
    (hends : w.link.ends = h.world.link.ends) (hhosts : w.hosts = h.world.hosts)
    (happs : w.apps = h.world.apps) (hnetwork : w.link.network.Lossless) :
    Uploads c₀ writer payload (h.next w none) p n := by
  have hcarries : ∀ s, (h.next w none).read s = h.read s ∧
      (h.next w none).delivered s = h.delivered s :=
    (@Heeds.hears .near h.world.link.ends.near none [] (.inl rfl)).carries
  exact {
    transfers := (hU.transfers.still hends hhosts happs hnetwork).1
    draws := by
      rw [Chronicle.next_world, hends, happs]
      exact hU.draws
    silent := by
      rw [Chronicle.next_world, happs]
      exact hU.silent
    apps := by
      rw [Chronicle.next_world, happs]
      exact hU.apps
    hosts := by
      rw [Chronicle.next_world, hhosts]
      exact hU.hosts
    logged := fun s => by
      rw [(hcarries s).1]
      exact hU.logged s
    landed := hU.landed
    whole := by
      rw [(hcarries writer).1]
      exact hU.whole
    hears := fun s => by
      rw [(hcarries s).2, Chronicle.next_world, hends]
      exact hU.hears s }

/-- **What an application can do**: nothing, or the next request of the writer. -/
theorem Uploads.app_cases (hU : Uploads c₀ writer payload h p n) (side : Side) :
    ((h.world.apps.get side).script = [] ∧ h.world.actApp side = (h.world, false)) ∨
    ∃ (r : Request) (rest : List AppStep), side = writer ∧
      (h.world.apps.get side).script = r.step :: rest ∧
      h.world.actApp side =
        (World.replyApp
          { h.world with
            link := h.world.link.setEnd side { h.world.link.ends.get side with
              requests := (h.world.link.ends.get side).requests ++ [r] } }
          side rest .done, true) := by
  have hnil : (h.world.apps.get side).script = [] → h.world.actApp side = (h.world, false) := by
    intro hs
    simp only [World.actApp, hs]
  rcases Side.eq_or_eq_other side writer with rfl | rfl
  · obtain hs | ⟨r, rest, hs⟩ := hU.draws.next
    · exact .inl ⟨hs, hnil hs⟩
    · have hT := hU.transfers
      -- a script that has a request is not closed, so the session is there
      have hclosing : h.closing side = none := hT.pens.closing_of_request hs
      have hthere := hT.there (hT.ne_ended_of_closing hclosing side)
      exact .inr ⟨r, rest, rfl, hs, actApp_of_room hs (hT.steady side).app hthere hU.draws.room⟩
  · exact .inl ⟨hU.silent, hnil hU.silent⟩

/-- **A turn of an application** keeps the invariant. -/
theorem Uploads.app (hU : Uploads c₀ writer payload h p n) (side : Side) :
    Uploads c₀ writer payload (h.move (.turn (.app side))) p n := by
  have hT := (hU.transfers.app side).1
  obtain ⟨hd, -, -⟩ := heeds_actApp h.world side
  rw [Chronicle.move_app] at hT ⊢
  obtain ⟨hs, hact⟩ | ⟨r, rest, rfl, hs, hact⟩ := hU.app_cases side
  · have hdeed : h.world.appDeed? side = none := by simp only [World.appDeed?, hs]
    rw [hact, hdeed]
    exact hU.still rfl rfl rfl hU.transfers.lossless
  · have hdraws := hU.draws
    rw [hs] at hdraws
    rw [hact] at hT ⊢
    have hends : ∀ s, ((h.world.link.ends.set side { h.world.link.ends.get side with
        requests := (h.world.link.ends.get side).requests ++ [r] }).get s).events =
          (h.world.link.ends.get s).events := by
      intro s
      rcases Side.eq_or_eq_other s side with rfl | rfl
      · rw [Both.get_set_self]
      · rw [Both.get_set_other]
    exact {
      transfers := hT
      draws := by
        simp only [Chronicle.next_world, World.replyApp, World.setApp, setEnd, Both.get_set_self]
        exact hdraws.request
      silent := by
        simp only [Chronicle.next_world, World.replyApp, World.setApp, Both.get_set_other]
        exact hU.silent
      apps := fun s => by
        simp only [Chronicle.next_world, World.replyApp, World.setApp]
        rcases Side.eq_or_eq_other s side with rfl | rfl
        · rw [Both.get_set_self]
          exact ⟨rfl, fun reply hm => (List.mem_cons.1 hm).elim id ((hU.apps s).2 reply)⟩
        · rw [Both.get_set_other]
          exact hU.apps side.other
      hosts := hU.hosts
      logged := fun s => by
        rw [(hd.carries s).1]
        exact hU.logged s
      landed := hU.landed
      whole := by
        rw [(hd.carries side).1]
        exact hU.whole
      hears := fun s => by
        rw [(hd.carries s).2]
        exact (hU.hears s).congr (hends s) rfl }

section stack

variable (h₀ : ∀ s, (c₀ s).Free .listen) (hU : Uploads c₀ writer payload h p n)
  (hs : h.Turned c₀ side (p.get side) p' o sent)

include h₀ hU hs

/-- **What the writer reads**: a full segment, after full segments, or all that is left. -/
theorem Uploads.reads (hne : readIn o ≠ []) :
    side = writer ∧ (h.read writer).length % mss.toNat = 0 ∧ (readIn o).length ≤ mss.toNat ∧
      ((readIn o).length = mss.toNat ∨ h.read writer ++ readIn o = payload) := by
  obtain ⟨m, hT', -⟩ := hU.transfers.served h₀ hs
  have hT := hU.transfers
  rw [Chronicle.move_stack] at hT'
  rcases Side.eq_or_eq_other side writer with rfl | rfl
  · obtain hnil | ⟨hx, hread⟩ := (hT.holds.station side).readIn (hT.serves h₀ side).1 hs.effect.deed
    · exact absurd hnil hne
    have hbuffer : (h.world.link.ends.get side).buffer ≠ [] := by
      intro hb
      rw [hread, hb] at hne
      exact hne List.take_nil
    have hthere := hT.there (s := side) (by rw [hx]; nofun)
    -- what has been read and what is buffered are all that there is
    have hwritten := hT.pens.written_of_close
      ((List.suffix_append _ _).trans (hU.draws.buffered hbuffer))
    have htotal := (hT.holds.books side).total hthere
    rw [hwritten, hU.draws.unread hbuffer] at htotal
    refine ⟨rfl, ?_, ?_, ?_⟩
    · refine hU.whole.resolve_right fun hall => hbuffer ?_
      exact (List.append_right_eq_self.1 (htotal.symm.trans hall.symm))
    · rw [hread]
      exact List.length_take_le _ _
    · by_cases hfull : mss.toNat ≤ (h.world.link.ends.get side).buffer.length
      · left
        rw [hread, List.length_take, Nat.min_eq_left hfull]
      · right
        rw [hread, List.take_of_length_le (Nat.le_of_not_le hfull)]
        exact htotal.symm
  · -- the other end reads nothing
    have hnone := hT'.read_other
    rw [read_self hs.effect.deed] at hnone
    exact absurd (List.append_eq_nil_iff.1 hnone).2 hne

/-- The transfer logs after a turn of a session. -/
theorem Uploads.logged_stack (s : Side) :
    ((p.parties side p' sent).get s).connection.Logged
      (pieceLengths ((h.move (.turn (.stack side))).read s).length) := by
  rw [Chronicle.move_stack]
  rcases Side.eq_or_eq_other s side with rfl | rfl
  · rw [Both.parties_get, read_self hs.effect.deed, List.length_append]
    have hlen : (readIn o).length ≤ mss.toNat := by
      by_cases hr : readIn o = []
      · rw [hr]
        exact Nat.zero_le _
      · exact (hU.reads h₀ hs hr).2.2.1
    have hlogged := hs.logged (hU.logged s) hU.transfers.done_of_ended hlen
    by_cases hr : readIn o = []
    · rw [if_pos hr, List.append_nil] at hlogged
      rwa [hr, List.length_nil, Nat.add_zero]
    · obtain ⟨rfl, hwhole, -, -⟩ := hU.reads h₀ hs hr
      rw [if_neg hr] at hlogged
      rwa [pieceLengths_add hwhole (List.length_pos_iff.2 hr) hlen]
  · rw [Both.parties_get_other, read_other hs.effect.deed]
    exact hU.logged side.other

/-- The writer has read full segments, or everything. -/
theorem Uploads.whole_stack :
    ((h.move (.turn (.stack side))).read writer).length % mss.toNat = 0 ∨
      (h.move (.turn (.stack side))).read writer = payload := by
  rw [Chronicle.move_stack]
  rcases Side.eq_or_eq_other writer side with rfl | rfl
  · rw [read_self hs.effect.deed]
    by_cases hr : readIn o = []
    · rw [hr, List.append_nil]
      exact hU.whole
    · obtain ⟨-, hwhole, -, hfull | hall⟩ := hU.reads h₀ hs hr
      · left
        rw [List.length_append, hfull, Nat.add_mod_right]
        exact hwhole
      · exact .inr hall
  · rw [read_other hs.effect.deed]
    exact hU.whole

/-- A session has a timer while it sends. -/
theorem Uploads.hosts_stack (s : Side) (due : Nat)
    (ht : ((h.world.actStack side).1.hosts.get s).timer = some due) :
    ((h.world.actStack side).1.hosts.get s).finished = false ∧
      ∃ m bytes, ((p.parties side p' sent).get s).stage = .sending m bytes := by
  have hsteady := hU.transfers.steady side
  rcases Side.eq_or_eq_other s side with rfl | rfl
  · rw [Both.parties_get]
    by_cases hf : (h.world.hosts.get s).finished = true
    · -- a task that has finished has no timer
      rw [World.actStack, if_pos hf] at ht
      cases hf.symm.trans (hU.hosts s due ht).1
    · rw [Bool.not_eq_true] at hf
      obtain ⟨hmade, hx⟩ := timer_actStack hsteady.driver hf hsteady.patient ht
      obtain ⟨-, rfl, hafter, -⟩ := Advances.of_unmade (hmade ▸ hs.advances)
      exact ⟨hafter.trans hf, hx⟩
  · have hhost := (hU.transfers.serves h₀ side).2
    rw [hhost] at ht ⊢
    rw [Both.parties_get_other]
    exact hU.hosts side.other due ht

/-- What the applications have heard after a turn of a session. -/
theorem Uploads.hears_stack (s : Side) :
    Hears ((h.world.actStack side).1.link.ends.get s) ((p.parties side p' sent).get s).connection
      ((h.move (.turn (.stack side))).delivered s) := by
  rw [Chronicle.move_stack]
  rcases Side.eq_or_eq_other s side with rfl | rfl
  · rw [Both.parties_get, delivered_self hs.effect.deed]
    exact (hU.hears s).acts (h₀ s) hs.effect.acts (fun e ho => hs.advances.sound ho e)
      ((hU.transfers.serves h₀ s).1.events hs.effect.deed)
  · obtain ⟨inbox, hpeer⟩ := hs.alters.peer
    rw [Both.parties_get_other, delivered_other hs.effect.deed]
    exact (hU.hears side.other).congr (by rw [hpeer]) rfl

/-- **A turn of a session** keeps the invariant. -/
theorem Uploads.served :
    ∃ m, Uploads c₀ writer payload (h.move (.turn (.stack side))) (p.parties side p' sent) m ∧
      pending writer payload (h.move (.turn (.stack side))) m + (h.world.actStack side).2.toNat ≤
        pending writer payload h n := by
  obtain ⟨m, hT', hle⟩ := hU.transfers.served h₀ hs
  have hdriver := (hU.transfers.steady side).driver
  have happs : (h.move (.turn (.stack side))).world.apps = h.world.apps :=
    (actStack_leaves hdriver hU.transfers.lossless).1
  refine ⟨m, ?_, hle⟩
  exact {
    transfers := hT'
    draws := by
      rw [happs]
      rcases Side.eq_or_eq_other writer side with rfl | rfl
      · exact hU.draws.drains (drains_actStack hdriver)
      · obtain ⟨inbox, hpeer⟩ := hs.alters.peer
        refine hU.draws.drains ?_
        show (h.world.link.ends.get side.other).Drains
          ((h.world.actStack side).1.link.ends.get side.other)
        rw [hpeer]
        exact Endpoint.drains_of_eq rfl rfl
    silent := by
      rw [happs]
      exact hU.silent
    apps := by
      rw [happs]
      exact hU.apps
    hosts := hU.hosts_stack h₀ hs
    logged := hU.logged_stack h₀ hs
    landed := fun s hx => by
      rcases Side.eq_or_eq_other s side with rfl | rfl
      · rw [Both.parties_get] at hx ⊢
        exact hs.landed (hU.logged s) (hU.landed s) hx
      · rw [Both.parties_get_other] at hx ⊢
        exact hU.landed side.other hx
    whole := hU.whole_stack h₀ hs
    hears := hU.hears_stack h₀ hs }

end stack

/-- **Every turn** keeps the invariant, and leaves less to do if a move is made. -/
theorem Uploads.turn (h₀ : ∀ s, (c₀ s).Free .listen) (hU : Uploads c₀ writer payload h p n)
    (task : Task) : ∃ q m, Uploads c₀ writer payload (h.move (.turn task)) q m ∧
      pending writer payload (h.move (.turn task)) m + (h.world.act task).2.toNat ≤
        pending writer payload h n := by
  cases task with
  | app side => exact ⟨p, n, hU.app side, (hU.transfers.app side).2⟩
  | stack side =>
    obtain ⟨p', o, sent, hs⟩ := hU.transfers.serving h₀ side
    exact ⟨_, hU.served h₀ hs⟩

theorem Both.parties_self (p : Both Party) (side : Side) :
    p.parties side (p.get side) [] = p := by
  unfold Both.parties
  rw [Party.receive_nil]
  cases side <;> rfl

/-- A turn of a session in which it cannot move leaves the parties. -/
theorem Uploads.lull (h₀ : ∀ s, (c₀ s).Free .listen) (hU : Uploads c₀ writer payload h p n)
    {side : Side} (hmade : (h.world.actStack side).2 = false) :
    ∃ m, Uploads c₀ writer payload (h.move (.turn (.stack side))) p m := by
  obtain ⟨p', o, sent, hs⟩ := hU.transfers.serving h₀ side
  obtain ⟨m, hU', -⟩ := hU.served h₀ hs
  obtain ⟨-, rfl, -, rfl⟩ := Advances.of_unmade (hmade ▸ hs.advances)
  rw [Both.parties_self] at hU'
  exact ⟨m, hU'⟩

end uploads

end StopWait.Link
