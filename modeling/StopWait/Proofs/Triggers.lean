import StopWait.Proofs.Lifetimes
import StopWait.Proofs.Trail

/-!
# The triggers that a session feeds to its connection

On the way from one call to the next a session may feed triggers to the state machine of its
connection. They are among the operations that the connection goes through, and are read off the
turn that the session takes.

* `Connection.fed`: the triggers among operations, up to the first operation that fails.
* `Session.stage`, `stage_staged`: the stage of a session, read off the session.
* `fedIn`, `triggers`: the triggers that were fed in a step, and in the steps of a past.
* `length_fedIn`: **a step feeds one trigger at most.**
* `final_triggers`: **the state of a session is where its triggers have led from LISTEN**, so that
  none is missing that matters.
-/

namespace StopWait

namespace Connection

/-- The trigger that an operation feeds to the state machine. -/
def Op.trigger? : Op → Option Trigger
  | .apply t => some t
  | _ => none

/-- **The triggers that operations feed to the state machine.** What comes after an operation that
fails is not attempted. -/
def fed (c : Connection) : List Op → List Trigger
  | [] => []
  | op :: ops =>
    op.trigger?.toList ++
      match c.perform op with
      | (d, none) => d.fed ops
      | (_, some _) => []

variable {c d : Connection} {op : Op} {ops : List Op} {t : Trigger}

theorem fed_cons_of_ok (h : c.perform op = (d, none)) :
    c.fed (op :: ops) = op.trigger?.toList ++ d.fed ops := by rw [fed, h]

theorem fed_cons_of_error {e : Connection.Error} (h : c.perform op = (d, some e)) :
    c.fed (op :: ops) = op.trigger?.toList := by rw [fed, h, List.append_nil]

/-- The triggers that are fed are the first of those that are there to be fed. -/
theorem fed_prefix (c : Connection) (ops : List Op) : c.fed ops <+: ops.filterMap Op.trigger? := by
  induction ops generalizing c with
  | nil => exact List.nil_prefix
  | cons op ops ih =>
    have hcons : (op :: ops).filterMap Op.trigger? =
        op.trigger?.toList ++ ops.filterMap Op.trigger? := by
      simp only [List.filterMap_eq_flatMap_toList, List.flatMap_cons]
    rw [hcons]
    rcases hp : c.perform op with ⟨d, _ | e⟩
    · rw [fed_cons_of_ok hp]
      exact (List.prefix_append_right_inj _).2 (ih d)
    · rw [fed_cons_of_error hp]
      exact List.prefix_append _ _

theorem fed_eq_nil (h : ops.filterMap Op.trigger? = []) : c.fed ops = [] :=
  List.prefix_nil.1 (h ▸ fed_prefix c ops)

/-- A trigger is fed whether it is taken or not. -/
theorem fed_apply (h : ops.filterMap Op.trigger? = []) : c.fed (.apply t :: ops) = [t] := by
  rcases hp : c.perform (.apply t) with ⟨d, _ | e⟩
  · rw [fed_cons_of_ok hp, fed_eq_nil h]
    rfl
  · rw [fed_cons_of_error hp]
    rfl

/-- An operation moves the state machine by the trigger that it feeds, if it feeds any. -/
theorem perform_final (hc : c.done = true → c.state = .closed) (op : Op) :
    (c.perform op).1.state = c.state.final op.trigger?.toList := by
  cases op with
  | apply t =>
    simp only [perform, apply]
    by_cases hd : c.done = true
    · -- an ended connection is in CLOSED, which takes nothing
      have herror := State.on_closed t
      rw [← hc hd] at herror
      simp only [hd, if_true]
      exact (State.final_singleton_of_error herror).symm
    · simp only [hd, Bool.false_eq_true, if_false]
      cases hr : c.state.on t with
      | error e => exact (State.final_singleton_of_error hr).symm
      | ok r => exact (State.final_singleton_of_ok hr).symm
  | _ => exact perform_state (by simp)

/-- **Operations move the state machine by the triggers that they feed**, and by nothing else. -/
theorem attempt_final (hc : c.done = true → c.state = .closed) (ops : List Op) :
    (c.attempt ops).1.state = c.state.final (c.fed ops) := by
  induction ops generalizing c with
  | nil => rfl
  | cons op ops ih =>
    have hstate := perform_final hc op
    have hclosed := perform_ended hc op
    rw [attempt]
    rcases hp : c.perform op with ⟨d, _ | e⟩ <;> rw [hp] at hstate hclosed
    · rw [fed_cons_of_ok hp, State.final_append, ← hstate]
      exact ih hclosed
    · rw [fed_cons_of_error hp]
      exact hstate

end Connection

namespace Session

open Connection (Op)

/-! ### The stage of a session -/

/-- What a segment is awaited for in a state. -/
def Wait.ofState : State → Wait
  | .listen => .syn
  | .synSent => .synAck
  | .synReceived => .opening
  | .established => .data
  | .finWait1 => .fin
  | .finWait2 => .peerFin
  | _ => .lastFin

/-- What brought a payload that is handed to the application in a state. -/
def Arrival.ofState : State → Arrival
  | .established => .data
  | .closeWait => .peerFin
  | _ => .lastFin

/-- What a segment is sent for in a state, with the actions that are left. In ESTABLISHED there are
two acknowledgments, and something is left to do after that of the SYN,ACK. -/
def Message.ofState (kind : Kind) (actions : List Action) : State → Message
  | .synSent => .syn
  | .synReceived => .synAck
  | .established => if kind = .data then .data else if actions.isEmpty then .dataAck else .openAck
  | .closeWait => .peerFinAck
  | .finWait1 => .fin
  | .lastAck => .lastFin
  | _ => .closeAck

/-- What a session is in the middle of that waits at a point, with its connection in a state. -/
def stageAt (st : State) : Point → Stage
  | .idle => .idle
  | .reading => .reading
  | .fetching => .fetching
  | .awaiting _ => .awaiting (.ofState st)
  | .receiving _ => .receiving (.ofState st)
  | .sending s todo =>
    let m := Message.ofState s.kind todo.actions st
    .sending m (if m = .data then s.payload else todo.payload)
  | .delivering todo => .delivering (.ofState st) todo.payload
  | .signalling todo => .signalling todo.payload
  | .unblocking todo => .unblocking todo.payload

/-- **What a session is in the middle of.** -/
def stage (t : Session) : Stage :=
  match t.status with
  | .ready => .ready
  | .returned (.error e) => .failed e
  | .returned (.ok ()) => .ended
  | .suspended p => stageAt t.connection.state p

variable {c₀ c d : Connection} {x x' : Stage} {past : Past} {t u : Session} {h : Happening}
  {call : Call} {r : Response} {settings : Settings} {role : Role} {sink : Option Log.Sink}

/-- **A session at a stage is read as being at that stage.** -/
theorem stage_staged (hx : x.Fits c₀ c) : (staged (c, x)).stage = x := by
  cases x with
  | ready | failed | ended | idle | reading | fetching | signalling | unblocking => rfl
  | awaiting w | receiving w =>
    have hstate : c.state = w.state := hx.1.state
    simp only [stage, staged, Stage.status, stageAt, hstate]
    cases w <;> rfl
  | delivering a bytes =>
    have hstate : c.state = a.message.state := hx.1.state
    simp only [stage, staged, Stage.status, stageAt, hstate]
    cases a <;> rfl
  | sending m bytes =>
    have hstate : c.state = m.state := hx.1.state
    simp only [stage, staged, Stage.status, stageAt, hstate]
    cases m <;> rfl

/-! ### Triggers of a past -/

/-- **The triggers that a step feeds**: those among the operations of its turn. -/
def fedIn (u : Session) : Happening → List Trigger
  | .run => u.connection.fed (opening u.connection.role).1
  | .answered _ r => u.connection.fed (u.stage.turn r).1

/-- The triggers that were fed in the steps of a past, in order. -/
def triggers : Past → List Trigger
  | [] => []
  | (u, h) :: past => triggers past ++ fedIn u h

theorem fedIn_answered (hx : x.Fits c₀ c) :
    fedIn (staged (c, x)) (.answered call r) = c.fed (x.turn r).1 := by
  rw [fedIn, stage_staged hx]
  rfl

theorem fedIn_run (u : Session) : fedIn u .run = [.start u.connection.role] := by
  rw [fedIn]
  cases u.connection.role <;> exact Connection.fed_apply rfl

/-! ### One trigger at a time -/

/-- The triggers that a turn has for the state machine, if none of its operations fails. -/
def asked (t : Turn) : List Trigger := t.1.filterMap Op.trigger?

theorem asked_of_begin (a : Arrival) (bytes : List UInt8) : asked (a.begin bytes) = [] := by
  unfold Arrival.begin
  split <;> rfl

theorem asked_taken (w : Wait) (bytes : List UInt8) : asked (w.after bytes) = [] := by
  cases w with
  | peerFin => exact asked_of_begin .lastFin bytes
  | _ => rfl

theorem asked_sent (m : Message) (bytes : List UInt8) : asked (m.after bytes) = [] := by
  cases m <;> rfl

theorem asked_take (w : Wait) (s : Segment) : asked (w.take s) = [.arrived w.kind] :=
  congrArg (List.cons _) (asked_taken w s.payload)

theorem asked_arrived (s : Segment) (kind : Kind) (a : Arrival) :
    asked (prepend [.record s, .apply (.arrived kind)] (a.begin s.payload)) = [.arrived kind] :=
  congrArg (List.cons _) (asked_of_begin a s.payload)

/-- **A turn has one trigger at most.** -/
theorem length_asked (x : Stage) (r : Response) : (asked (x.turn r)).length ≤ 1 := by
  have hread : ∀ {bytes : List UInt8} {take : Segment → Turn},
      (∀ s, (asked (take s)).length ≤ 1) → (asked (readSegment bytes take)).length ≤ 1 := by
    intro bytes take htake
    unfold readSegment
    split
    · exact Nat.zero_le 1
    · exact htake _
  have harrival : ∀ s, (asked (arrival s)).length ≤ 1 := by
    intro s
    cases hf : s.header.control.fin with
    | true =>
      rw [arrival_of_fin hf, asked_arrived]
      exact Nat.le_refl 1
    | false =>
      by_cases hp : s.payload = []
      · rw [arrival_of_nothing hf hp]
        exact Nat.zero_le 1
      · rw [arrival_of_payload hf hp, asked_arrived]
        exact Nat.le_refl 1
  cases r with
  | failed e => cases x <;> exact Nat.zero_le 1
  | event e =>
    cases x with
    | idle => cases e <;> first | exact Nat.zero_le 1 | exact Nat.le_refl 1
    | awaiting w => cases e <;> exact Nat.zero_le 1
    | _ => exact Nat.zero_le 1
  | sent n =>
    cases x with
    | sending m bytes =>
      simp only [Stage.turn]
      split
      · exact Nat.zero_le 1
      · rw [asked_sent]
        exact Nat.zero_le 1
    | _ => exact Nat.zero_le 1
  | bytes bytes =>
    cases x with
    | reading => exact hread harrival
    | receiving w => exact hread fun s => by rw [asked_take]; exact Nat.le_refl 1
    | fetching =>
      simp only [Stage.turn, fetchTurn]
      split
      · exact Nat.zero_le 1
      · exact Nat.le_refl 1
    | _ => exact Nat.zero_le 1
  | told =>
    cases x with
    | signalling bytes => exact Nat.le_refl 1
    | _ => exact Nat.zero_le 1

/-- **A step feeds one trigger at most.** -/
theorem length_fedIn (u : Session) (h : Happening) : (fedIn u h).length ≤ 1 := by
  cases h with
  | run =>
    rw [fedIn_run]
    exact Nat.le_refl 1
  | answered call r =>
    exact Nat.le_trans (Connection.fed_prefix _ _).length_le (length_asked u.stage r)

/-! ### Where triggers lead -/

/-- **A step moves the state machine by the triggers that it feeds**, and by nothing else. -/
theorem Passage.final (h₀ : c₀.Free .listen) (hx : x.Fits c₀ c) (hp : Passage c₀ c x h d x') :
    d.state = c.state.final (fedIn (staged (c, x)) h) := by
  have hcarry : ∀ {e : Connection} {turn : Turn}, e.done = false → carry e turn = (d, x') →
      d.state = e.state.final (e.fed turn.1) := by
    intro e turn he hc
    have hd : d = (e.attempt turn.1).1 := by
      have hfst : (carry e turn).1 = (e.attempt turn.1).1 := by
        rw [carry]
        split <;> rename_i heq <;> rw [heq]
      rw [← hfst, hc]
    rw [hd]
    exact Connection.attempt_final (fun hdone => by cases he.symm.trans hdone) turn.1
  cases hp with
  | opens first hopen =>
    subst first
    exact hcarry h₀.undone hopen
  | again hne =>
    -- a connection that has left LISTEN takes no opening
    rw [fedIn_run]
    exact (State.final_singleton_of_error (State.on_start_of_ne_listen hne c.role)).symm
  | answered hcall hanswer =>
    rw [fedIn_answered hx]
    exact hcarry (hx.live_of_call hcall).undone hanswer

/-- **The state of a session is where its triggers have led from LISTEN**, whatever it has gone
through. -/
theorem final_triggers (ht : Trail (opened settings role sink) past t) :
    t.connection.state = State.listen.final (triggers past) := by
  have h₀ := Connection.opened_free settings role sink
  rw [opened_eq] at ht
  obtain ⟨d, x, rfl, -, hstate⟩ := ht.induct
    (P := fun past c _ => c.state = State.listen.final (triggers past)) h₀ rfl h₀.state
    fun hstate hx _ hp => by
      rw [triggers, State.final_append, ← hstate]
      exact hp.final h₀ hx
  exact hstate

end Session

end StopWait
