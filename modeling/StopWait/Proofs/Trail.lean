import StopWait.Proofs.Codec
import StopWait.Proofs.Passage
import StopWait.Proofs.Run

/-!
# Trails of a session

What a session has gone through, whatever its stack answered and however often it was run: its
steps, the latest first, each with the session that it began from. A call counts as made as soon as
the session waits on it, even if the run is given up then.

* `Trail`: the steps that lead from one session to another.
* `Trail.induct`: **what every step keeps holds along every trail.**
* `calls`, `Transmits`, `Happening.segment?`: what can be seen of a trail from outside.
* `Reaches.hear`, `reaches_rehearse`: the trail that a list of responses leads along.
-/

namespace StopWait.Session

/-- A session that has not been run, with a transfer log if there is a sink for one. -/
def opened (settings : Settings) (role : Role) (sink : Option Log.Sink) : Session :=
  sink.elim (.new settings role) (Session.new settings role).withLog

theorem opened_eq (settings : Settings) (role : Role) (sink : Option Log.Sink) :
    opened settings role sink = staged (Connection.opened settings role sink, .ready) := by
  cases sink <;> rfl

/-- The call that a session waits on. -/
def call? (s : Session) : Option Call := s.point?.map (Point.call s.connection)

/-- The steps of a session, the latest first, each with the session that it began from. -/
abbrev Past : Type := List (Session × Happening)

/-- **The steps that lead from one session to another.** -/
inductive Trail (s : Session) : Past → Session → Prop where
  | nil : Trail s [] s
  | step {past : Past} {t u : Session} {h : Happening} (before : Trail s past t)
    (last : Step t h u) : Trail s ((t, h) :: past) u

/-- The calls that a session has made, in order, with the one that it waits on. -/
def calls : Past → Session → List Call
  | [], t => t.call?.toList
  | (u, _) :: past, t => calls past u ++ t.call?.toList

/-- The session hands a segment to the network. -/
def Transmits (t : Session) (s : Segment) : Prop :=
  ∃ d, t.call? = some (.networkSend d) ∧ Segment.parse d = .ok s

/-- The segment that is received in a step. -/
def Happening.segment? : Happening → Option Segment
  | .answered (.networkRecv n) (.bytes bytes) => (Segment.parse (bytes.take n)).toOption
  | _ => none

variable {c₀ c d : Connection} {x x' : Stage} {y y₀ z : Connection × Stage} {p : Point}
  {r : Response} {s t : Session} {h : Happening} {past : Past}

/-- **A step of a session at a stage**: the connection opens, a run fails at once, or the session
passes on with an answer. -/
inductive Passage (c₀ : Connection) (c : Connection) (x : Stage) :
    Happening → Connection → Stage → Prop where
  | opens {d : Connection} {x' : Stage} (first : c = c₀)
    (hcarry : carry c₀ (opening c₀.role) = (d, x'))
    (hx : x' = .sending .syn [] ∨ x' = .awaiting .syn) : Passage c₀ c x .run d x'
  | again {e : Session.Error} (h : c.state ≠ .listen) : Passage c₀ c x .run c (.failed e)
  | answered {call : Call} {r : Response} {d : Connection} {x' : Stage}
    (hcall : (staged (c, x)).call? = some call) (hcarry : carry c (x.turn r) = (d, x'))
    (hpass : Passes c x call r d x') : Passage c₀ c x (.answered call r) d x'

theorem Stage.Fits.live_of_call (hx : x.Fits c₀ c) {call : Call}
    (h : (staged (c, x)).call? = some call) : x.Live c := by
  cases x with
  | ready | failed | ended => cases h
  | _ => exact hx.1

/-- **A step is a passage**, to a stage that the connection fits. -/
theorem Step.passage (h₀ : c₀.Free .listen) (hx : x.Fits c₀ c) (hstep : Step (staged (c, x)) h t) :
    ∃ d x', t = staged (d, x') ∧ x'.Fits c₀ d ∧ Passage c₀ c x h d x' := by
  rw [staged] at hstep
  generalize hst : x.status c = status at hstep
  cases hstep with
  | run =>
    obtain ⟨⟨d, x'⟩, hbegins, hstart⟩ := begins_start h₀ hx
    rw [staged, hst] at hstart
    refine ⟨d, x', hstart, hbegins.fits h₀, ?_⟩
    generalize hz : (d, x') = z at hbegins
    cases hbegins with
    | again hne => cases hz; exact .again hne
    | opens first =>
      refine .opens first hz.symm ?_
      obtain ⟨-, hx⟩ | ⟨-, hx⟩ := carry_opening h₀ <;> rw [← hz] at hx
      · exact .inl hx
      · exact .inr hx
  | answered _ p a =>
    have hleads := resumeAt_leads hx hst a
    have hcall : (staged (c, x)).call? = some (p.call c) := by
      rw [staged, hst]
      rfl
    exact ⟨_, _, hleads.stop, hleads.fits, .answered hcall rfl (passes_of_answer hx hst a)⟩

/-- **What every step keeps holds along every trail**, and the session is at a stage that its
connection fits. -/
theorem Trail.induct {P : Past → Connection → Stage → Prop}
    (ht : Trail (staged (c, x)) past t) (h₀ : c₀.Free .listen) (hx : x.Fits c₀ c) (nil : P [] c x)
    (step : ∀ {past c x h d x'}, P past c x → x.Fits c₀ c → x'.Fits c₀ d →
      Passage c₀ c x h d x' → P ((staged (c, x), h) :: past) d x') :
    ∃ d x', t = staged (d, x') ∧ x'.Fits c₀ d ∧ P past d x' := by
  induction ht with
  | nil => exact ⟨c, x, rfl, hx, nil⟩
  | step before last ih =>
    obtain ⟨c, x, rfl, hx, hP⟩ := ih
    obtain ⟨d, x', rfl, hx', hpassage⟩ := last.passage h₀ hx
    exact ⟨d, x', rfl, hx', step hP hx hx' hpassage⟩

/-- **What happened along a trail**, in order, is a history. -/
theorem Trail.history (ht : Trail s past t) : History s (past.reverse.map Prod.snd) t := by
  induction ht with
  | nil => exact .nil
  | step before last ih =>
    rw [List.reverse_cons, List.map_append]
    exact ih.snoc last

/-- The call that a session waits on is the last one. -/
theorem getLast?_calls {call : Call} (hcall : t.call? = some call) :
    (calls past t).getLast? = some call := by
  cases past with
  | nil => rw [calls, hcall]; rfl
  | cons q past => rw [calls, hcall]; exact List.getLast?_concat

/-- A segment is received where a datagram is read as one. -/
theorem Happening.of_segment {call : Call} {s : Segment}
    (h : (Happening.answered call r).segment? = some s) :
    ∃ n bytes, call = .networkRecv n ∧ r = .bytes bytes ∧ Segment.parse (bytes.take n) = .ok s := by
  unfold segment? at h
  split at h
  · rename_i n bytes heq
    cases heq
    cases hs : Segment.parse (bytes.take n) with
    | error e => rw [hs] at h; cases h
    | ok s' => rw [hs] at h; cases h; exact ⟨n, bytes, rfl, rfl, hs⟩
  · cases h

theorem Happening.segment_of_parse {bytes : List UInt8} {s : Segment}
    (hs : Segment.parse (bytes.take receiveCapacity) = .ok s) :
    (Happening.answered (.networkRecv receiveCapacity) (.bytes bytes)).segment? = some s := by
  rw [segment?, hs]
  rfl

/-- A segment that is received before a run fails was awaited, and is refused. -/
theorem refused_of_failed (hx : x.Fits c₀ c) {call : Call} {s : Segment} {e : Session.Error}
    (hcall : (Session.staged (c, x)).call? = some call)
    (hs : (Happening.answered call r).segment? = some s)
    (hcarry : carry c (x.turn r) = (d, .failed e)) :
    ∃ w d' e', x = .receiving w ∧ c.accept w.kind s = (d', .error e') ∧ s.seqLenFits = true := by
  have hlive := hx.live_of_call hcall
  obtain ⟨n, bytes, rfl, rfl, hparse⟩ := Happening.of_segment hs
  cases x with
  | ready | failed | ended => cases hcall
  | reading =>
    -- what is read while nothing is awaited is taken in
    cases hcall
    have hsure : Sure c (arrival s) :=
      sure_arrives (seqLenFits_of_receive hparse) (hlive.free rfl)
    have hread : Stage.reading.turn (.bytes bytes) = arrival s := readSegment_of_parse hparse _
    rw [hread, hsure.carry_eq] at hcarry
    exact absurd (congrArg Prod.snd hcarry) (arrives_ne_failed s e)
  | receiving w =>
    cases hcall
    have hread : (Stage.receiving w).turn (.bytes bytes) = w.take s := readSegment_of_parse hparse _
    obtain ⟨d', e', ha, -⟩ | ⟨d', -, -, -, hsure, -⟩ := take_cases hlive s
    · exact ⟨w, d', e', rfl, ha, seqLenFits_of_receive hparse⟩
    · rw [hread, hsure.carry_eq] at hcarry
      exact absurd (congrArg Prod.snd hcarry) (after_ne_failed w e)
  | _ => cases hcall

/-- A step leads from one state to one that follows. -/
theorem Passage.follows (h₀ : c₀.Free .listen) (hx : x.Fits c₀ c) (hx' : x'.Fits c₀ d)
    (hp : Passage c₀ c x h d x') : State.Follows c.state d.state := by
  cases hp with
  | answered _ _ hpass => exact hpass.follows hx hx'
  | again => exact .stays
  | opens first _ hopen =>
    rw [first, h₀.state]
    obtain rfl | rfl := hopen
    · exact hx'.1.state ▸ .calls
    · exact hx'.1.state ▸ .stays

/-- A session hands a segment to the network at the stages that send one. -/
theorem transmits_iff (hx : x.Fits c₀ c) {s : Segment} : (staged (c, x)).Transmits s ↔
    ∃ m bytes, x = .sending m bytes ∧ s = c.reissue m.kind (m.payload bytes) := by
  constructor
  · rintro ⟨d, hd, hs⟩
    cases x with
    | sending m bytes =>
      cases hd
      rw [Segment.parse_serialize rfl] at hs
      cases hs
      exact ⟨m, bytes, rfl, rfl⟩
    | _ => cases hd
  · rintro ⟨m, bytes, rfl, rfl⟩
    exact ⟨_, rfl, Segment.parse_serialize rfl⟩

/-- A session comes along a trail to a stage that its connection fits. -/
structure Reaches (c₀ : Connection) (s : Session) (past : Past) (y : Connection × Stage) :
    Prop where
  trail : Trail s past (staged y)
  fits : y.2.Fits c₀ y.1

theorem reaches_start (h₀ : c₀.Free .listen) :
    Reaches c₀ (staged (c₀, .ready)).start.1 [] (carry c₀ (opening c₀.role)) := by
  have hleads := start_leads (x := .ready) h₀
  exact ⟨hleads.stop ▸ .nil, hleads.fits⟩

theorem reaches_run (h₀ : c₀.Free .listen) :
    Reaches c₀ (staged (c₀, .ready)) [(staged (c₀, .ready), .run)] (carry c₀ (opening c₀.role)) := by
  have hleads := start_leads (x := .ready) h₀
  exact ⟨hleads.stop ▸ .step .nil (.run _), hleads.fits⟩

theorem Reaches.answer (h : Reaches c₀ s past y) (hp : y.2.status y.1 = .suspended p)
    (a : (p.call y.1).Answer) :
    Reaches c₀ s ((staged y, .answered (p.call y.1) (response _ a)) :: past)
      (carry y.1 (y.2.turn (response _ a))) := by
  have hleads := resumeAt_leads h.fits hp a
  have hstep : Step (staged y) (.answered (p.call y.1) (response _ a)) (resumeAt y.1 p a).1 := by
    rw [staged, hp]
    exact .answered y.1 p a
  exact ⟨.step h.trail (hleads.stop ▸ hstep), hleads.fits⟩

/-- Whether a call can be responded to in this way. -/
def Response.suits : Response → Call → Bool
  | .failed _, _ => true
  | .event _, .wait _ => true
  | .sent _, .networkSend _ => true
  | .bytes _, .networkRecv _ | .bytes _, .appRecv _ => true
  | .told, .appSend _ | .told, .finReceived | .told, .unblock => true
  | _, _ => false

theorem Response.exists_answer {call : Call} (h : r.suits call = true) :
    ∃ a, response call a = r := by
  cases r with
  | failed e => exact ⟨.error e, by cases call <;> rfl⟩
  | event e =>
    cases call with
    | wait mask => exact ⟨.ok e, rfl⟩
    | _ => cases h
  | sent n =>
    cases call with
    | networkSend d => exact ⟨.ok n, rfl⟩
    | _ => cases h
  | bytes bytes =>
    cases call with
    | networkRecv n => exact ⟨.ok bytes, rfl⟩
    | appRecv n => exact ⟨.ok bytes, rfl⟩
    | _ => cases h
  | told =>
    cases call with
    | appSend bytes => exact ⟨.ok (), rfl⟩
    | finReceived => exact ⟨.ok (), rfl⟩
    | unblock => exact ⟨.ok (), rfl⟩
    | _ => cases h

theorem reaches_self (hx : x.Fits c₀ c) : Reaches c₀ (staged (c, x)) [] (c, x) := ⟨.nil, hx⟩

/-- The datagram of a segment of a kind whose numbers are all zero. -/
def blank (kind : Kind) (payload : List UInt8) : List UInt8 :=
  [0, 0, 0, 0, 0, 0, 0, 0, 0, 0, 0, 0, 80, kind.control.toByte, 0, 0, 0, 0, 0, 0] ++ payload

/-- What a session at a stage goes through that hears responses, as long as they suit its calls. -/
def hear (past : Past) (y : Connection × Stage) :
    List Response → Option (Past × Connection × Stage)
  | [] => some (past, y)
  | r :: rs =>
    match y.2.status y.1 with
    | .suspended p =>
      if r.suits (p.call y.1) then
        hear ((staged y, .answered (p.call y.1) r) :: past) (carry y.1 (y.2.turn r)) rs
      else none
    | _ => none

/-- **A session goes through what it hears.** -/
theorem Reaches.hear {rs : List Response} {past' : Past} (h : Reaches c₀ s past y)
    (hr : hear past y rs = some (past', z)) : Reaches c₀ s past' z := by
  induction rs generalizing past y with
  | nil =>
    cases hr
    exact h
  | cons r rs ih =>
    rw [Session.hear] at hr
    split at hr
    · rename_i p hp
      split at hr
      · rename_i hsuits
        obtain ⟨a, rfl⟩ := Response.exists_answer hsuits
        exact ih (h.answer hp a) hr
      · cases hr
    · cases hr

/-- What a new session goes through that is run and hears responses. -/
def rehearse (settings : Settings) (role : Role) (sink : Option Log.Sink)
    (responses : List Response) : Option (Past × Connection × Stage) :=
  let c := Connection.opened settings role sink
  hear [(staged (c, .ready), .run)] (carry c (opening c.role)) responses

theorem reaches_rehearse {settings : Settings} {role : Role} {sink : Option Log.Sink}
    {rs : List Response} (hr : rehearse settings role sink rs = some (past, y)) :
    Reaches (Connection.opened settings role sink) (opened settings role sink) past y := by
  rw [opened_eq]
  exact (reaches_run (Connection.opened_free settings role sink)).hear hr

/-- While a session hears responses, no run begins. -/
theorem hear_ne_run {rs : List Response} {past' : Past} (hr : hear past y rs = some (past', z))
    (hpast : ∀ q ∈ past, q.2 ≠ .run) : ∀ q ∈ past', q.2 ≠ .run := by
  induction rs generalizing past y with
  | nil =>
    cases hr
    exact hpast
  | cons r rs ih =>
    rw [hear] at hr
    split at hr
    · split at hr
      · exact ih hr (List.forall_mem_cons.2 ⟨nofun, hpast⟩)
      · cases hr
    · cases hr

end StopWait.Session
