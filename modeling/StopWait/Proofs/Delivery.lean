import StopWait.Proofs.Books
import StopWait.Proofs.Handover

/-!
# Delivery

Two sessions and their applications on a network that may lose any datagram, whatever they do and
in whatever order: what is handed over at one end is a prefix of what was written at the other, and
a run that ends well at either end has delivered all that was written before the close.

* `Acts`: what a move of a session makes of its party.
* `Station`: a task and an endpoint that belong to a party.
* `Holds`: **the invariant of a chronicle**: stations, flows and books.
* `delivery_safe`: what it comes to.
-/

namespace StopWait.Link

open Session (Stage Response Begins Flow Goes Party response staged carry)

/-- **What a move of a session makes of its party**: the answered call, the party after, and the
segments for the peer. -/
inductive Acts (c₀ : Connection) (p : Party) :
    Option (Call × Response) → Party → List Segment → Prop where
  | stays : Acts c₀ p none p []
  | begins {y : Connection × Stage} (hx : p.stage.rests = true)
    (hfits : p.stage.Fits c₀ p.connection) (hy : Begins c₀ p.connection y)
    (hfits' : y.2.Fits c₀ y.1) : Acts c₀ p none ⟨y.1, y.2, p.mail⟩ []
  | retires (hx : p.stage.rests = true) :
    Acts c₀ p none ⟨p.connection.drop, p.stage, []⟩ []
  | answers {call : Call} {r : Response} {c' : Connection} {x' : Stage}
    {mail' sent : List Segment}
    (hg : Goes p.connection p.stage p.mail call r x' mail' sent)
    (hfits : p.stage.Fits c₀ p.connection) (hfits' : x'.Fits c₀ c')
    (hclean : p.stage.Clean) (hreg : ∀ s ∈ p.mail, s.Regular)
    (hcarry : carry p.connection (p.stage.turn r) = (c', x'))
    (hkept : ∀ e, x' = .failed e → c'.state = p.connection.state ∧ c'.done = p.connection.done) :
    Acts c₀ p (some (call, r)) ⟨c', x', mail'⟩ sent

/-- A task and an endpoint that belong to a party. -/
structure Station (c₀ : Connection) (t : StackTask) (e : Endpoint) (p : Party) : Prop where
  driver : ∃ left results, t.driver = .session (staged (p.connection, p.stage)) left results ∧
    (.ok () ∈ results → p.connection.done = true)
  queue : e.queue = p.mail.map Segment.serialize
  regular : ∀ s ∈ p.mail, s.Regular
  clean : p.stage.Clean
  fits : t.finished = false → p.stage.Fits c₀ p.connection
  rests : t.finished = true → p.stage.rests = true
  closed : p.connection.done = true → p.connection.state = .closed
  stack : e.stackGone = true → t.finished = true

variable {c₀ c c' : Connection} {x : Stage} {p p' a b : Party} {sent : List Segment}
  {o : Option (Call × Response)} {read handed delivered : List UInt8}

/-- The bytes that a move reads, if it answers a call. -/
def readIn (o : Option (Call × Response)) : List UInt8 := o.elim [] fun d => readBytes d.1 d.2

/-- The bytes that a move hands to the application. -/
def handedIn (o : Option (Call × Response)) : List UInt8 := o.elim [] fun d => handedBytes d.1

/-- The bytes that the application takes in a move. -/
def deliveredIn (o : Option (Call × Response)) : List UInt8 :=
  o.elim [] fun d => deliveredBytes d.1 d.2

/-- **A move of the party that reads keeps the flow.** -/
theorem Acts.asker (h₀ : c₀.Free .listen) (ha : Acts c₀ a o p' sent)
    (h : Flow a b read handed delivered) :
    Flow p' (b.receive sent) (read ++ readIn o) handed delivered := by
  have hno : ∀ l : List UInt8, l ++ [] = l := List.append_nil
  cases ha with
  | stays => simpa only [readIn, Option.elim, Party.receive_nil, hno] using h
  | begins hx hfits hy hfits' =>
    simpa only [readIn, Option.elim, Party.receive_nil, hno] using
      Flow.asker_begins hy h hx hfits h₀ hfits'
  | retires hx =>
    have hrest : Flow ⟨a.connection.drop, a.stage, []⟩ b read handed delivered :=
      h.asker_rests hx hx (List.nil_sublist _) rfl rfl
    simpa only [readIn, Option.elim, Party.receive_nil, hno] using hrest
  | answers hg hfits hfits' hclean hreg hcarry hkept => exact Flow.asker hg hfits hfits' hkept h

/-- **A move of the party that hands over keeps the flow.** -/
theorem Acts.taker (h₀ : c₀.Free .listen) (ha : Acts c₀ b o p' sent)
    (h : Flow a b read handed delivered) :
    Flow (a.receive sent) p' read (handed ++ handedIn o) (delivered ++ deliveredIn o) := by
  have hno : ∀ l : List UInt8, l ++ [] = l := List.append_nil
  cases ha with
  | stays => simpa only [handedIn, deliveredIn, Option.elim, Party.receive_nil, hno] using h
  | begins hx hfits hy hfits' =>
    simpa only [handedIn, deliveredIn, Option.elim, Party.receive_nil, hno] using
      Flow.taker_begins hy h hx hfits h₀ hfits'
  | retires hx =>
    have hrest : Flow a ⟨b.connection.drop, b.stage, []⟩ read handed delivered :=
      h.taker_rests hx (List.nil_sublist _) rfl rfl
    simpa only [handedIn, deliveredIn, Option.elim, Party.receive_nil, hno] using hrest
  | answers hg hfits hfits' hclean hreg hcarry hkept =>
    exact Flow.taker hg hfits hfits' hclean hreg hkept h

/-- **A move leads to a state that follows.** -/
theorem Acts.follows (h₀ : c₀.Free .listen) (ha : Acts c₀ p o p' sent) :
    State.Follows p.connection.state p'.connection.state := by
  cases ha with
  | stays | retires => exact .stays
  | answers hg hfits hfits' hclean hreg hcarry hkept =>
    exact hg.follows hfits hfits' fun e he => (hkept e he).1
  | begins hx hfits hy hfits' =>
    cases hy with
    | again => exact .stays
    | opens first =>
      rw [first, h₀.state]
      rcases hc : carry c₀ (Session.opening c₀.role) with ⟨d, x'⟩
      rw [hc] at hfits'
      obtain ⟨-, hx'⟩ | ⟨-, hx'⟩ := Session.carry_opening h₀ <;> rw [hc] at hx' <;> subst hx'
      · have hst : d.state = .synSent := hfits'.1.state
        exact hst ▸ .calls
      · have hst : d.state = .listen := hfits'.1.state
        exact hst ▸ .stays

/-- A connection that comes to FIN-WAIT-1 was asked to close. -/
theorem Acts.close_of_finWait1 (h₀ : c₀.Free .listen) (ha : Acts c₀ p o p' sent)
    (hne : p.connection.state ≠ .finWait1) (hst : p'.connection.state = .finWait1) :
    o = some (.wait .any, .event .appCloseRequested) := by
  have hfollows := ha.follows h₀
  cases ha with
  | stays | retires => exact absurd hst hne
  | answers hg hfits hfits' hclean hreg hcarry hkept =>
    obtain ⟨rfl, rfl⟩ := hg.close_of_finWait1 hfits hfits' (fun e he => (hkept e he).1) hne hst
    rfl
  | begins hx hfits hy hfits' =>
    -- a run begins in LISTEN, or nowhere
    cases hy with
    | again => exact absurd hst hne
    | opens first =>
      rw [hst, first, h₀.state] at hfollows
      cases hfollows

/-- An end that has sent its FIN reads nothing more. -/
theorem Acts.readIn_of_isShut (ha : Acts c₀ p o p' sent)
    (hshut : p.connection.state.isShut = true) : readIn o = [] := by
  obtain ⟨c, x, mail⟩ := p
  cases ha with
  | answers hg hfits =>
    refine hg.readBytes_eq_nil ?_
    rintro rfl
    rw [hfits.1.state] at hshut
    cases hshut
  | _ => rfl

/-- **What a move of a session comes to**, for its party and its books. -/
structure Effect (c₀ : Connection) (side : Side) (t' : StackTask) (e e' f f' : Endpoint)
    (d : Option Deed) (p p' : Party) (o : Option (Call × Response)) (sent : List Segment) :
    Prop where
  deed : d = o.map fun x => .stack side x.1 x.2
  acts : Acts c₀ p o p' sent
  station : Station c₀ t' e' p'
  queue : f'.queue = f.queue ++ sent.map Segment.serialize
  regular : ∀ s ∈ sent, s.Regular
  peer : f'.unread = f.unread ∧ f'.pledged = f.pledged ∧ f'.stackGone = f.stackGone
  books : ∀ {wrote read : List UInt8} {closing : Option (List UInt8)},
    Books e wrote read closing → Books e' wrote (read ++ readIn o) closing
  closes : o = some (.wait .any, .event .appCloseRequested) →
    e'.pledged = some [] ∧ e'.stackGone = false

variable {side : Side} {t t' : StackTask} {e e' f f' : Endpoint} {d : Option Deed} {left : Nat}
  {results : List (Except Session.Error Unit)} {losable : Prop}

/-- A driver reaches a stage with the results that it had, and another one if the run ends. -/
theorem exists_reach (c : Connection) (x : Stage) (left : Nat)
    (results : List (Except Session.Error Unit)) :
    ∃ results', Driver.reach (staged (c, x)) left results = .session (staged (c, x)) left results' ∧
      (.ok () ∈ results' → .ok () ∈ results ∨ x = .ended) := by
  cases x with
  | ended => exact ⟨.ok () :: results, rfl, fun _ => .inr rfl⟩
  | failed e =>
    refine ⟨.error e :: results, rfl, fun h => .inl ?_⟩
    rcases List.mem_cons.1 h with h | h
    · cases h
    · exact h
  | _ => exact ⟨results, rfl, .inl⟩

/-- A close that is reported is a pledge of nothing more. -/
theorem Exchange.pledged_of_close {call : Call} {r : Response} {mask : Interest}
    (h : Exchange losable e f call r e' f') (hc : call = .wait mask)
    (hr : r = .event .appCloseRequested) : e'.pledged = some [] := by
  cases h with
  | event heard ready =>
    cases hr
    obtain ⟨he, -⟩ | ⟨he, -⟩ | ⟨-, hp⟩ := Endpoint.of_available ready
    · cases he
    · cases he
    · exact hp
  | told hn =>
    rw [hc] at hn
    cases hn
  | _ => cases hr

theorem Station.begins (h₀ : c₀.Free .listen) (hst : Station c₀ t e p)
    (hok : .ok () ∈ results → p.connection.done = true) (hf : t.finished = false)
    {y : Connection × Stage} (hy : Begins c₀ p.connection y) :
    Station c₀ { t with driver := .reach (staged y) left results, timer := none } e
      ⟨y.1, y.2, p.mail⟩ := by
  have hfits := hy.fits h₀
  obtain ⟨results', hreach, hended⟩ := exists_reach y.1 y.2 left results
  have hkeep : y.2 ≠ .ended ∧ y.2.Clean ∧ (p.connection.done = true → y.1.done = true) ∧
      (y.1.done = true → y.1.state = .closed) := by
    cases hy with
    | again h => exact ⟨nofun, trivial, id, hst.closed⟩
    | opens first =>
      rcases hc : carry c₀ (Session.opening c₀.role) with ⟨d, x'⟩
      rw [hc] at hfits
      -- the first run begins with a connection that has not ended
      have hundone : p.connection.done = true → d.done = true := by
        intro hd
        rw [first, h₀.undone] at hd
        cases hd
      obtain ⟨-, hx'⟩ | ⟨-, hx'⟩ := Session.carry_opening h₀ <;> rw [hc] at hx' <;> subst hx'
      · refine ⟨nofun, trivial, hundone, fun hd => ?_⟩
        rw [hfits.1.undone] at hd
        cases hd
      · refine ⟨nofun, trivial, hundone, fun hd => ?_⟩
        rw [hfits.1.undone] at hd
        cases hd
  obtain ⟨hne, hclean, hdone, hclosed⟩ := hkeep
  exact {
    driver := ⟨left, results', hreach, fun h =>
      (hended h).elim (fun h => hdone (hok h)) (fun h => absurd h hne)⟩
    queue := hst.queue
    regular := hst.regular
    clean := hclean
    fits := fun _ => hfits
    rests := fun h => absurd (hf.symm.trans h) nofun
    closed := hclosed
    stack := hst.stack }

/-- A session in the middle of a run has a task that is not finished, and a stack. -/
theorem Station.running (hst : Station c₀ t e p) (hx : p.stage.rests = false) :
    t.finished = false ∧ e.stackGone = false := by
  have hf : t.finished = false := by
    rw [← Bool.not_eq_true]
    intro hfin
    cases hx.symm.trans (hst.rests hfin)
  refine ⟨hf, ?_⟩
  rw [← Bool.not_eq_true]
  intro hg
  cases hf.symm.trans (hst.stack hg)

/-- A connection that has ended is closed, if no run that failed ended it. -/
theorem closed_of_done (h₀ : c₀.Free .listen) (hfits : x.Fits c₀ c)
    (hfailed : ∀ e, x = .failed e → c.done = false) (hd : c.done = true) : c.state = .closed := by
  cases x with
  | ready =>
    rw [show c = c₀ from hfits, h₀.undone] at hd
    cases hd
  | failed e =>
    rw [hfailed e rfl] at hd
    cases hd
  | ended => exact hfits.2
  | _ =>
    rw [hfits.1.undone] at hd
    cases hd

/-- **An answered call comes to an effect.** -/
theorem Station.answers {q : Point} {r : Response} (side : Side) (left : Nat)
    (h₀ : c₀.Free .listen) (hst : Station c₀ t e p)
    (hok : .ok () ∈ results → p.connection.done = true)
    (hp : p.stage.status p.connection = .suspended q)
    (hr : Exchange losable e f (q.call p.connection) r e' f') :
    ∃ p' sent, Effect c₀ side
      { t with
        driver := .reach (staged (carry p.connection (p.stage.turn r))) left results
        timer := none }
      e e' f f' (some (.stack side (q.call p.connection) r)) p p' (some (q.call p.connection, r))
      sent := by
  obtain ⟨c, x, mail⟩ := p
  obtain ⟨hf, hthere⟩ := hst.running (Stage.rests_of_suspended hp)
  have hfits : x.Fits c₀ c := hst.fits hf
  have hlive : x.Live c := hfits.live hp
  obtain ⟨a, rfl⟩ := hr.answer
  obtain ⟨mail', sent, hpost, hmail, hsent⟩ := Session.post_of_exchange hr hp hst.queue
  obtain ⟨hgoes, hclean⟩ := Session.goes_of_carry hfits hst.clean hp hst.regular hpost
  have hfits' := (Session.resumeAt_leads hfits hp a).fits
  have hkept := fun e (he : (carry c (x.turn (response _ a))).2 = .failed e) =>
    Session.kept_of_failed hfits hp he
  have hreg : ∀ s ∈ sent, s.Regular := fun s hs =>
    Session.regular_outgoing hlive.sound s (hpost.mem_outgoing s hs)
  obtain ⟨results', hreach, hended⟩ := exists_reach (carry c (x.turn (response _ a))).1
    (carry c (x.turn (response _ a))).2 left results
  generalize hcarry : carry c (x.turn (response _ a)) = y at *
  obtain ⟨c', x'⟩ := y
  -- a run that has ended before leaves nothing to answer
  have hlost : .ok () ∈ results → False := by
    intro h
    have hd : c.done = true := hok h
    rw [hlive.undone] at hd
    cases hd
  refine ⟨⟨c', x', mail'⟩, sent, ?_⟩
  exact {
    deed := rfl
    acts := .answers hgoes hfits hfits' hst.clean hst.regular hcarry hkept
    station := {
      driver := ⟨left, results', hreach, fun h => by
        rcases hended h with h | rfl
        · exact (hlost h).elim
        · exact hfits'.1⟩
      queue := hmail
      regular := fun s hs => hst.regular s (hpost.sublist.subset hs)
      clean := hclean
      fits := fun _ => hfits'
      rests := fun h => absurd (hf.symm.trans h) nofun
      closed := closed_of_done h₀ hfits' fun e he => (hkept e he).2.trans hlive.undone
      stack := fun h => hst.stack (hr.spends.2.2 ▸ h) }
    queue := hsent
    regular := hreg
    peer := hr.spares
    books := fun hb => hb.exchange hr hthere
    closes := fun ho => by
      rw [Option.some.injEq, Prod.mk.injEq] at ho
      exact ⟨hr.pledged_of_close ho.1 ho.2, hr.spends.2.2.trans hthere⟩ }

/-- A move without an answered call leaves the books. -/
theorem Acts.effect (ha : Acts c₀ p none p' []) (hst : Station c₀ t' e' p')
    (hb : ∀ {wrote read : List UInt8} {closing : Option (List UInt8)},
      Books e wrote read closing → Books e' wrote read closing) :
    Effect c₀ side t' e e' f f none p p' none [] where
  deed := rfl
  acts := ha
  station := hst
  queue := (List.append_nil _).symm
  regular := nofun
  peer := ⟨rfl, rfl, rfl⟩
  books := fun h => (List.append_nil _).symm ▸ hb h
  closes := nofun

/-- A session that waits, or has nothing left to do, stays what it is. -/
theorem Station.waits (hst : Station c₀ t e p) (same : e.Same f.stackGone e')
    (timer : Option Nat) : Effect c₀ side { t with timer } e e' f f none p p none [] := by
  have hst' : Station c₀ { t with timer } e' p :=
    { hst with queue := same.queue.trans hst.queue, stack := fun h => hst.stack (same.stack ▸ h) }
  exact Acts.stays.effect hst' fun h => h.congr same.unread same.pledged same.stack

/-- A party whose task ends, and lets go of its session if that is `dropped`. -/
def retired (p : Party) (dropped : Bool) : Party :=
  if dropped then ⟨p.connection.drop, p.stage, []⟩ else p

/-- **The task of a session ends.** -/
theorem Station.ends (hst : Station c₀ t e p) (hx : p.stage.rests = true) :
    Effect c₀ side
      { t with
        driver := if t.dropWhenDone then t.driver.drop else t.driver
        timer := none, finished := true }
      e (if t.dropWhenDone then e.dropStack else e) f f none p (retired p t.dropWhenDone) none [] := by
  obtain ⟨left, results, hd, hok⟩ := hst.driver
  unfold retired
  by_cases hdrop : t.dropWhenDone = true
  · rw [if_pos hdrop, if_pos hdrop, if_pos hdrop]
    -- the session that is let go keeps its stage
    have hstaged : Driver.drop (.session (staged (p.connection, p.stage)) left results) =
        .session (staged (p.connection.drop, p.stage)) left results := by
      obtain ⟨c, x, mail⟩ := p
      cases x <;> rfl
    refine (Acts.retires hx).effect ?_ fun h => h.dropStack
    exact {
      driver := ⟨left, results, by rw [hd]; exact hstaged, hok⟩
      queue := rfl
      regular := nofun
      clean := hst.clean
      fits := nofun
      rests := fun _ => hx
      closed := hst.closed
      stack := fun _ => rfl }
  · rw [if_neg hdrop, if_neg hdrop, if_neg hdrop]
    refine Acts.stays.effect ?_ id
    exact { hst with fits := nofun, rests := fun _ => hx, stack := fun _ => rfl }

/-- **A session begins a run.** -/
theorem Station.begins_effect (side : Side) (f : Endpoint) (left : Nat) (h₀ : c₀.Free .listen)
    (hst : Station c₀ t e p)
    (hok : .ok () ∈ results → p.connection.done = true) (hf : t.finished = false)
    (hx : p.stage.rests = true) {y : Connection × Stage} (hy : Begins c₀ p.connection y) :
    Effect c₀ side { t with driver := .reach (staged y) left results, timer := none } e e f f none p
      ⟨y.1, y.2, p.mail⟩ none [] :=
  (Acts.begins hx (hst.fits hf) hy (hy.fits h₀)).effect (hst.begins h₀ hok hf hy) id

/-- **Every move of a session has an effect.** -/
theorem Station.effect {moved : Bool} (h₀ : c₀.Free .listen) (hst : Station c₀ t e p)
    (hok : .ok () ∈ results → p.connection.done = true)
    (hs : Serves losable c₀ p.connection p.stage side t left results e f d t' e' f' moved) :
    ∃ o p' sent, Effect c₀ side t' e e' f f' d p p' o sent := by
  cases hs with
  | sits => exact ⟨none, p, [], hst.waits (.refl e) t.timer⟩
  | waits hp same => exact ⟨none, p, [], hst.waits same _⟩
  | ends hf hx => exact ⟨none, _, [], hst.ends hx⟩
  | begins hf hx hleft hy => exact ⟨none, _, [], hst.begins_effect side f _ h₀ hok hf hx hy⟩
  | answers hp hr =>
    obtain ⟨p', sent, he⟩ := hst.answers side _ h₀ hok hp hr
    exact ⟨_, p', sent, he⟩

/-- The peer's task when segments come in. -/
theorem Station.receive (hst : Station c₀ t f p)
    (hq : f'.queue = f.queue ++ sent.map Segment.serialize) (hreg : ∀ s ∈ sent, s.Regular)
    (hs : f'.stackGone = f.stackGone) : Station c₀ t f' (p.receive sent) where
  driver := hst.driver
  queue := by rw [hq, hst.queue, ← List.map_append]; rfl
  regular := fun s hm => (List.mem_append.1 hm).elim (hst.regular s) (hreg s)
  clean := hst.clean
  fits := hst.fits
  rests := hst.rests
  closed := hst.closed
  stack := fun h => hst.stack (hs ▸ h)

theorem Side.eq_or_eq_other (s side : Side) : s = side ∨ s = side.other := by
  cases s <;> cases side <;> simp [Side.other]

theorem Side.other_ne (side : Side) : side.other ≠ side := by cases side <;> nofun

/-- **The invariant of a chronicle**, with the connections at first and the parties now. -/
structure Holds (c₀ : Side → Connection) (h : Chronicle) (p : Both Party) : Prop where
  station : ∀ s, Station (c₀ s) (h.world.hosts.get s) (h.world.link.ends.get s) (p.get s)
  flow : ∀ s, Flow (p.get s) (p.get s.other) (h.read s) (h.handed s.other) (h.delivered s.other)
  books : ∀ s, Books (h.world.link.ends.get s) (h.written s) (h.read s) (h.closing s)
  current : ∀ s, h.visits s (p.get s).connection.state
  initiated : ∀ s, h.visits s .finWait1 →
    h.closing s = some (h.read s) ∧ (p.get s).connection.state.isShut = true
  someone : ∀ s, ((p.get s).connection.state.isShut = true ∨
    (p.get s).connection.state.hasHeardFin = true) → ∃ i, h.visits i .finWait1

/-- The chronicle after something was done. -/
def Chronicle.next (h : Chronicle) (w : World) (d : Option Deed) : Chronicle :=
  ⟨w, h.deeds ++ d.toList, h.states ++ w.states⟩

variable {h : Chronicle} {w : World} {s : Side}

@[simp] theorem Chronicle.next_world : (h.next w d).world = w := rfl

/-- What the turn of a session adds to a chronicle. -/
theorem Chronicle.move_stack (h : Chronicle) (side : Side) :
    h.move (.turn (.stack side)) = h.next (h.world.actStack side).1 (h.world.stackDeed? side) := rfl

/-- What the turn of an application adds to a chronicle. -/
theorem Chronicle.move_app (h : Chronicle) (side : Side) :
    h.move (.turn (.app side)) = h.next (h.world.actApp side).1 (h.world.appDeed? side) := rfl

theorem written_next (s : Side) :
    (h.next w d).written s = h.written s ++ d.toList.flatMap (Deed.written s) :=
  List.flatMap_append

theorem read_next (s : Side) :
    (h.next w d).read s = h.read s ++ d.toList.flatMap (Deed.read s) :=
  List.flatMap_append

theorem handed_next (s : Side) :
    (h.next w d).handed s = h.handed s ++ d.toList.flatMap (Deed.handed s) :=
  List.flatMap_append

theorem delivered_next (s : Side) :
    (h.next w d).delivered s = h.delivered s ++ d.toList.flatMap (Deed.delivered s) :=
  List.flatMap_append

theorem closing_next (s : Side) :
    (h.next w d).closing s =
      (h.closing s).or ((writtenUptoClose s d.toList).map (h.written s ++ ·)) :=
  writtenUptoClose_append _ _

theorem Station.connection_eq (hst : Station c₀ (w.hosts.get s) (w.link.ends.get s) p) :
    w.connection? s = some p.connection := by
  obtain ⟨left, results, hd, -⟩ := hst.driver
  simp [World.connection?, hd, Driver.session?, staged]

/-- The states that have been visited, with those of the parties now. -/
theorem visits_next {st : State}
    (hst : Station c₀ (w.hosts.get s) (w.link.ends.get s) p) :
    (h.next w d).visits s st ↔ h.visits s st ∨ p.connection.state = st := by
  have hc := hst.connection_eq
  have hmem : (s, st) ∈ w.states ↔ p.connection.state = st := by
    simp only [World.states, List.mem_filterMap, Option.map_eq_some_iff, Prod.mk.injEq]
    constructor
    · rintro ⟨s', -, c, hc', rfl, rfl⟩
      rw [hc] at hc'
      rw [Option.some.inj hc']
    · intro hst
      exact ⟨s, by cases s <;> simp, p.connection, hc, rfl, hst⟩
  rw [← hmem]
  exact List.mem_append

section tally

variable {side : Side} (hd : d = o.map fun x => .stack side x.1 x.2)

include hd

theorem written_stack (s : Side) : (h.next w d).written s = h.written s := by
  rw [written_next, hd]
  cases o <;> exact List.append_nil _

theorem closing_stack (s : Side) : (h.next w d).closing s = h.closing s := by
  rw [closing_next, hd]
  cases o <;> exact Option.or_none

theorem read_self : (h.next w d).read side = h.read side ++ readIn o := by
  rw [read_next, hd]
  cases o <;> simp [Deed.read, readIn]

theorem read_other : (h.next w d).read side.other = h.read side.other := by
  rw [read_next, hd]
  cases o <;> simp [Deed.read, (Side.other_ne side).symm]

theorem handed_self : (h.next w d).handed side = h.handed side ++ handedIn o := by
  rw [handed_next, hd]
  cases o <;> simp [Deed.handed, handedIn]

theorem handed_other : (h.next w d).handed side.other = h.handed side.other := by
  rw [handed_next, hd]
  cases o <;> simp [Deed.handed, (Side.other_ne side).symm]

theorem delivered_self : (h.next w d).delivered side = h.delivered side ++ deliveredIn o := by
  rw [delivered_next, hd]
  cases o <;> simp [Deed.delivered, deliveredIn]

theorem delivered_other : (h.next w d).delivered side.other = h.delivered side.other := by
  rw [delivered_next, hd]
  cases o <;> simp [Deed.delivered, (Side.other_ne side).symm]

end tally

/-- **A connection that sends its FIN first** has read all that was written before the close. -/
theorem Effect.initiated (h₀ : c₀.Free .listen) (he : Effect c₀ side t' e e' f f' d p p' o sent)
    {wrote read : List UInt8} {closing : Option (List UInt8)} (hb : Books e wrote read closing)
    (hne : p.connection.state ≠ .finWait1) (hst : p'.connection.state = .finWait1) :
    closing = some (read ++ readIn o) := by
  obtain ⟨hpledged, hthere⟩ := he.closes (he.acts.close_of_finWait1 h₀ hne hst)
  have hpledge := (he.books hb).pledge hthere
  rw [hpledged, Option.map_some, List.append_nil] at hpledge
  exact hpledge

section stack

variable {c₀ : Side → Connection} {p q : Both Party} (h₀ : ∀ s, (c₀ s).Free .listen)
  (hh : Holds c₀ h p)
  (he : Effect (c₀ side) side (w.hosts.get side) (h.world.link.ends.get side)
    (w.link.ends.get side) (h.world.link.ends.get side.other) (w.link.ends.get side.other) d
    (p.get side) p' o sent)

include h₀ hh he

/-- A move of a session keeps the flows from either end. -/
theorem Holds.flow_stack (hself : q.get side = p')
    (hother : q.get side.other = (p.get side.other).receive sent) (s : Side) :
    Flow (q.get s) (q.get s.other) ((h.next w d).read s) ((h.next w d).handed s.other)
      ((h.next w d).delivered s.other) := by
  rcases Side.eq_or_eq_other s side with rfl | rfl
  · rw [hself, hother, read_self he.deed, handed_other he.deed, delivered_other he.deed]
    exact he.acts.asker (h₀ s) (hh.flow s)
  · have hback := hh.flow side.other
    rw [Side.other_other] at hback
    rw [Side.other_other, hself, hother, read_other he.deed, handed_self he.deed,
      delivered_self he.deed]
    exact he.acts.taker (h₀ side) hback

/-- An end that sends its FIN first has read all that was written before the close, and reads
nothing more. -/
theorem Holds.initiated_stack
    (hv : h.visits side .finWait1 ∨ p'.connection.state = .finWait1) :
    h.closing side = some (h.read side ++ readIn o) ∧ p'.connection.state.isShut = true := by
  by_cases hold : h.visits side .finWait1
  · -- the FIN has been sent before
    obtain ⟨hclosing, hshut⟩ := hh.initiated side hold
    rw [he.acts.readIn_of_isShut hshut, List.append_nil]
    exact ⟨hclosing, (he.acts.follows (h₀ side)).isShut hshut⟩
  · -- the FIN is sent now
    have hst : p'.connection.state = .finWait1 := hv.resolve_left hold
    have hne : (p.get side).connection.state ≠ .finWait1 := by
      intro heq
      exact hold (heq ▸ hh.current side)
    exact ⟨he.initiated (h₀ side) (hh.books side) hne hst, by rw [hst]; rfl⟩

/-- An end that closes, or hears of a close, is the first to close or has a peer that closed
before. -/
theorem Holds.someone_stack {read handed delivered : List UInt8}
    (hback : Flow ((p.get side.other).receive sent) p' read handed delivered)
    (hs : p'.connection.state.isShut = true ∨ p'.connection.state.hasHeardFin = true) :
    (∃ i, h.visits i .finWait1) ∨ p'.connection.state = .finWait1 := by
  rcases (he.acts.follows (h₀ side)).enters hs with hs | hst | hst
  · exact .inl (hh.someone side hs)
  · exact .inr hst
  · -- the FIN that came in is the peer's
    have hshut : (p.get side.other).connection.state.isShut = true :=
      (hback.heard (by rw [hst]; rfl)).1
    exact .inl (hh.someone _ (.inl hshut))

/-- **A move of a session keeps the invariant.** -/
theorem Holds.stack (hhost : w.hosts.get side.other = h.world.hosts.get side.other) :
    Holds c₀ (h.next w d)
      ((p.set side p').set side.other ((p.get side.other).receive sent)) := by
  generalize hq : (p.set side p').set side.other ((p.get side.other).receive sent) = q
  have hself : q.get side = p' := by rw [← hq, Both.get_set_of_other, Both.get_set_self]
  have hother : q.get side.other = (p.get side.other).receive sent := by rw [← hq, Both.get_set_self]
  have hstation : ∀ s, Station (c₀ s) (w.hosts.get s) (w.link.ends.get s) (q.get s) := by
    intro s
    rcases Side.eq_or_eq_other s side with rfl | rfl
    · rw [hself]
      exact he.station
    · rw [hother, hhost]
      exact (hh.station _).receive he.queue he.regular he.peer.2.2
  have hflow := hh.flow_stack h₀ he hself hother
  have hvisits : ∀ s st, (h.next w d).visits s st ↔
      h.visits s st ∨ (q.get s).connection.state = st := fun s st => visits_next (hstation s)
  have hstate : (q.get side.other).connection.state = (p.get side.other).connection.state := by
    rw [hother]
    rfl
  refine ⟨hstation, hflow, ?_, fun s => (hvisits s _).2 (.inr rfl), ?_, ?_⟩
  · intro s
    rw [written_stack he.deed, closing_stack he.deed]
    rcases Side.eq_or_eq_other s side with rfl | rfl
    · rw [read_self he.deed]
      exact he.books (hh.books s)
    · rw [read_other he.deed]
      exact (hh.books _).congr he.peer.1 he.peer.2.1 he.peer.2.2
  · intro s hv
    rw [closing_stack he.deed]
    rcases Side.eq_or_eq_other s side with rfl | rfl
    · rw [read_self he.deed, hself]
      exact hh.initiated_stack h₀ he (hself ▸ (hvisits s _).1 hv)
    · rw [read_other he.deed, hstate]
      refine hh.initiated _ (((hvisits _ _).1 hv).elim id fun heq => ?_)
      rw [← heq, hstate]
      exact hh.current _
  · intro s hs
    have hold : (∃ i, h.visits i .finWait1) → ∃ i, (h.next w d).visits i .finWait1 :=
      fun ⟨i, hi⟩ => ⟨i, (hvisits i _).2 (.inl hi)⟩
    rcases Side.eq_or_eq_other s side with rfl | rfl
    · have hback := hflow s.other
      rw [Side.other_other, hself, hother] at hback
      rw [hself] at hs
      obtain hs | hst := hh.someone_stack h₀ he hback hs
      · exact hold hs
      · exact ⟨s, (hvisits s _).2 (.inr (by rw [hself, hst]))⟩
    · rw [hstate] at hs
      exact hold (hh.someone _ hs)

end stack

/-- What an application does is booked at its own end only. -/
theorem Heeds.elsewhere (hd : Heeds side e d e') (s : Side) :
    d.toList.flatMap (Deed.read s) = [] ∧ d.toList.flatMap (Deed.handed s) = [] ∧
      d.toList.flatMap (Deed.delivered s) = [] ∧
      (s ≠ side → d.toList.flatMap (Deed.written s) = [] ∧
        writtenUptoClose s d.toList = none) := by
  cases hd with
  | @asks r =>
    refine ⟨rfl, rfl, rfl, fun hs => ?_⟩
    cases r <;> simp [Request.call, Deed.written, Deed.closes, writtenUptoClose, hs.symm]
  | @refused r =>
    refine ⟨rfl, rfl, rfl, fun _ => ?_⟩
    cases r <;> simp [Request.call, Deed.written, Deed.closes, writtenUptoClose]
  | drops =>
    refine ⟨rfl, rfl, rfl, fun hs => ?_⟩
    simp [Deed.written, Deed.closes, writtenUptoClose, hs.symm]
  | hears hd =>
    rcases hd with rfl | ⟨c, reply, rfl, hc⟩
    · exact ⟨rfl, rfl, rfl, fun _ => ⟨rfl, rfl⟩⟩
    · refine ⟨rfl, rfl, rfl, fun _ => ?_⟩
      cases c with
      | write | close => cases hc
      | _ => exact ⟨rfl, rfl⟩

theorem Heeds.queue (hd : Heeds side e d e') :
    e'.queue = e.queue ∧ e'.stackGone = e.stackGone := by
  cases hd <;> exact ⟨rfl, rfl⟩

/-- **A move of an application keeps the invariant.** -/
theorem Holds.app {c₀ : Side → Connection} {p : Both Party} (hh : Holds c₀ h p) (side : Side)
    (hd : Heeds side (h.world.link.ends.get side) d (w.link.ends.get side))
    (hend : w.link.ends.get side.other = h.world.link.ends.get side.other)
    (hhosts : w.hosts = h.world.hosts) : Holds c₀ (h.next w d) p := by
  have hstation : ∀ s, Station (c₀ s) (w.hosts.get s) (w.link.ends.get s) (p.get s) := by
    intro s
    rw [hhosts]
    rcases Side.eq_or_eq_other s side with rfl | rfl
    · have hst := hh.station s
      exact { hst with
        queue := hd.queue.1.trans hst.queue
        stack := fun hg => hst.stack (hd.queue.2 ▸ hg) }
    · rw [hend]
      exact hh.station _
  have hvisits : ∀ s st, (h.next w d).visits s st ↔
      h.visits s st ∨ (p.get s).connection.state = st := fun s st => visits_next (hstation s)
  have hread : ∀ s, (h.next w d).read s = h.read s := by
    intro s
    rw [read_next, (hd.elsewhere s).1, List.append_nil]
  -- no state is visited anew
  have hold : ∀ s, (h.next w d).visits s .finWait1 → h.visits s .finWait1 := by
    intro s hv
    refine ((hvisits s _).1 hv).elim id fun heq => ?_
    rw [← heq]
    exact hh.current s
  refine ⟨hstation, ?_, ?_, ?_, ?_, ?_⟩
  · intro s
    rw [hread, handed_next, delivered_next, (hd.elsewhere s.other).2.1,
      (hd.elsewhere s.other).2.2.1, List.append_nil, List.append_nil]
    exact hh.flow s
  · intro s
    rw [hread]
    rcases Side.eq_or_eq_other s side with rfl | rfl
    · rw [written_next, closing_next]
      exact (hh.books s).heeds hd
    · obtain ⟨hw, hc⟩ := (hd.elsewhere side.other).2.2.2 (Side.other_ne side)
      rw [written_next, closing_next, hw, hc, List.append_nil, Option.map_none, Option.or_none]
      have hbooks := hh.books side.other
      rw [← hend] at hbooks
      exact hbooks
  · intro s
    exact (hvisits s _).2 (.inr rfl)
  · intro s hv
    obtain ⟨hclosing, hshut⟩ := hh.initiated s (hold s hv)
    rw [closing_next, hread, hclosing]
    exact ⟨rfl, hshut⟩
  · intro s hs
    obtain ⟨i, hi⟩ := hh.someone s hs
    exact ⟨i, (hvisits i _).2 (.inl hi)⟩

/-- Time and the network are nothing to the ends. -/
theorem Holds.still {c₀ : Side → Connection} {p : Both Party} (hh : Holds c₀ h p)
    (hends : w.link.ends = h.world.link.ends) (hhosts : w.hosts = h.world.hosts) :
    Holds c₀ (h.next w none) p := by
  refine hh.app .near ?_ (by rw [hends]) hhosts
  rw [hends]
  exact .hears (.inl rfl)

/-- **Every move keeps the invariant.** -/
theorem Holds.move {c₀ : Side → Connection} {p : Both Party} (h₀ : ∀ s, (c₀ s).Free .listen)
    (hh : Holds c₀ h p) (m : Move) : ∃ q, Holds c₀ (h.move m) q := by
  cases m with
  | clock now => exact ⟨p, hh.still rfl rfl⟩
  | network n => exact ⟨p, hh.still rfl rfl⟩
  | turn task =>
    cases task with
    | app side =>
      obtain ⟨hd, hend, hhosts⟩ := heeds_actApp h.world side
      exact ⟨p, hh.app side hd hend hhosts⟩
    | stack side =>
      have hst := hh.station side
      obtain ⟨left, results, hdriver, hok⟩ := hst.driver
      obtain ⟨hs, hhost⟩ := serves_actStack (h₀ side) h.world side hdriver hst.fits hst.rests
      obtain ⟨o, p', sent, he⟩ := hst.effect (h₀ side) hok hs
      exact ⟨_, hh.stack h₀ he hhost⟩

/-- **What any moves lead to keeps the invariant.** -/
theorem Holds.after {c₀ : Side → Connection} {p : Both Party} (h₀ : ∀ s, (c₀ s).Free .listen)
    (hh : Holds c₀ h p) (moves : List Move) : ∃ q, Holds c₀ (h.after moves) q := by
  induction moves generalizing h p with
  | nil => exact ⟨p, hh⟩
  | cons m ms ih =>
    obtain ⟨q, hq⟩ := hh.move h₀ m
    exact ih hq

variable (network : Network) (opener : Side) (ends : Both Setup)

/-- The connection of an end at first. -/
def firstConnection (s : Side) : Connection := (ends.get s).connection (roleOf opener s)

/-- **The invariant holds at first.** -/
theorem holds_joined :
    Holds (firstConnection opener ends) (World.joined network opener ends).chronicle
      ⟨⟨firstConnection opener ends .near, .ready, []⟩,
        ⟨firstConnection opener ends .far, .ready, []⟩⟩ := by
  have hfree : ∀ s, (firstConnection opener ends s).Free .listen := fun s =>
    Connection.opened_free _ _ _
  have hstates : (World.joined network opener ends).states =
      [(.near, (firstConnection opener ends .near).state),
        (.far, (firstConnection opener ends .far).state)] := rfl
  have hvisits : ∀ s st, (World.joined network opener ends).chronicle.visits s st → st = .listen := by
    intro s st hv
    rw [Chronicle.visits, World.chronicle, hstates, (hfree .near).state, (hfree .far).state] at hv
    simp only [List.mem_cons, Prod.mk.injEq, List.not_mem_nil, or_false] at hv
    exact hv.elim And.right And.right
  refine ⟨?_, ?_, ?_, ?_, ?_, ?_⟩
  · intro s
    have hdone := (hfree s).undone
    cases s <;> exact {
      driver := ⟨_, [], rfl, nofun⟩
      queue := rfl
      regular := nofun
      clean := trivial
      fits := fun _ => rfl
      rests := nofun
      closed := fun hd => absurd (hdone.symm.trans hd) nofun
      stack := nofun }
  · intro s
    have hstate := (hfree s).state
    have hstate' := (hfree s.other).state
    cases s <;> exact {
      count := Nat.le_refl 0
      owed := nofun
      quiet := fun _ => rfl
      whole := fun _ => rfl
      sub := ⟨List.prefix_refl _, List.prefix_refl _⟩
      fin := nofun
      heard := fun hb => by
        simp only [Both.get, Side.other] at hb hstate'
        rw [hstate'] at hb
        cases hb }
  · intro s
    cases s <;> exact ⟨List.prefix_refl _, fun _ => rfl, fun _ => rfl⟩
  · intro s
    rw [Chronicle.visits, World.chronicle, hstates]
    cases s <;> simp [Both.get]
  · intro s hv
    cases hvisits s _ hv
  · intro s hs
    have hstate := (hfree s).state
    cases s <;> simp only [Both.get, hstate] at hs <;> rcases hs with hs | hs <;> cases hs

/-- A session whose connection is done is not in the middle of anything. -/
theorem Station.isQuiet_of_done (hst : Station c₀ t e p) (hd : p.connection.done = true) :
    p.isQuiet = true := by
  have hrests : p.stage.rests = true := by
    cases hf : t.finished with
    | true => exact hst.rests hf
    | false =>
      have hfits := hst.fits hf
      cases hx : p.stage with
      | ready | failed | ended => rfl
      | _ =>
        rw [hx] at hfits
        rw [hfits.1.undone] at hd
        cases hd
  rw [show p = ⟨p.connection, p.stage, p.mail⟩ from rfl, Session.isQuiet_of_rests hrests]
  cases hx : p.stage <;> simp [Party.isLost, hd]

/-- **An end whose connection is done has been closed by some application**, and all that the
application wrote before has been delivered. -/
theorem Holds.delivered_of_done {c₀ : Side → Connection} {p : Both Party} (hh : Holds c₀ h p)
    {side : Side} (hd : (p.get side).connection.done = true) :
    (∃ closer, h.visits closer .finWait1) ∧
      ∀ closer, h.visits closer .finWait1 →
        h.closing closer = some (h.delivered closer.other) := by
  have hst := hh.station side
  have hclosed := hst.closed hd
  refine ⟨hh.someone side (.inl (by rw [hclosed]; rfl)), fun closer hv => ?_⟩
  rw [(hh.initiated closer hv).1]
  congr 1
  rcases Side.eq_or_eq_other side closer with rfl | rfl
  · -- the closer ended, and nothing of it is left to deliver
    exact (hh.flow side).quiet (hst.isQuiet_of_done hd)
  · -- the peer ended, after it heard the FIN
    exact ((hh.flow closer).heard (by rw [hclosed]; rfl)).2

/-- **Delivery is safe.** What a session hands to its application is a prefix of what the other
application wrote. A run that ends well at either end has been closed by some application, and all
that the application wrote before has been delivered. -/
theorem delivery_safe (moves : List Move) :
    let h := (World.joined network opener ends).chronicle.after moves
    (∀ side : Side, h.delivered side.other <+: h.handed side.other ∧
      h.handed side.other <+: h.written side) ∧
    ∀ side, .ok () ∈ h.world.results side →
      (∃ closer, h.visits closer .finWait1) ∧
      ∀ closer, h.visits closer .finWait1 →
        h.closing closer = some (h.delivered closer.other) := by
  intro h
  have h₀ : ∀ s, (firstConnection opener ends s).Free .listen := fun s =>
    Connection.opened_free _ _ _
  obtain ⟨p, hh⟩ : ∃ p, Holds (firstConnection opener ends) h p :=
    (holds_joined network opener ends).after h₀ moves
  refine ⟨fun side => ?_, fun side hok => ?_⟩
  · obtain ⟨hsub, hread⟩ := (hh.flow side).sub
    exact ⟨hsub, hread.trans (hh.books side).sub⟩
  · obtain ⟨left, results, hdriver, hdone⟩ := (hh.station side).driver
    rw [World.results, hdriver] at hok
    exact hh.delivered_of_done (hdone hok)

end StopWait.Link
