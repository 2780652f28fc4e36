import StopWait.Proofs.Triggers

/-!
# Drives

A trigger drives a session. What its transition asks for is performed; then a segment is awaited and
fed in its turn, or a close of our own, until nothing is left to do. Some transitions keep the
state, so that no measure of the state alone bounds this: it is bounded because each trigger has few
that can follow it.

* `lastDrive`: the steps of the drive that a session is in, or was in last.
* `Trigger.sequel`, `Stage.ahead`: **which triggers follow which**, and which are still to come.
* `Stage.callsAhead`: the calls that are still to come before the session waits for anything.
* `Feeds`, `Passes.feeds`, `Passage.begins`: **what a drive has fed** when it has come to a stage.
* `Driving.step`: what every step of a session keeps.
* `drive_bounded`: **how far a drive can go.**
-/

namespace StopWait

/-- The triggers that a drive feeds after the one that it begins with. -/
def Trigger.sequel : Trigger → List Trigger
  | .start .active => [.arrived .synAck]
  | .start .passive => [.arrived .syn, .arrived .ack]
  | .write => [.arrived .ack]
  | .close => [.arrived .ack, .arrived .fin]
  | .arrived .fin => [.close, .arrived .ack]
  | .arrived _ => []

theorem Trigger.length_sequel_le (t : Trigger) : t.sequel.length ≤ 2 := by
  cases t with
  | start role => cases role <;> decide
  | arrived kind => cases kind <;> decide
  | write | close => decide

/-- **What a drive feeds that goes through**: a trigger and those that follow it, or nothing. -/
def IsWhole (ts : List Trigger) : Prop := ts = [] ∨ ∃ first : Trigger, ts = first :: first.sequel

theorem IsWhole.length_le {ts : List Trigger} (h : IsWhole ts) : ts.length ≤ 3 := by
  obtain rfl | ⟨first, rfl⟩ := h
  · exact Nat.zero_le 3
  · exact Nat.succ_le_succ first.length_sequel_le

/-- Whether a trigger is a segment that arrived. -/
def Trigger.isArrival : Trigger → Bool
  | .arrived _ => true
  | _ => false

/-- Whether the call of a point is made by a drive. The event loop itself waits for events, and
reads what they announce. -/
def Point.inDrive : Point → Bool
  | .idle | .reading | .fetching => false
  | _ => true

/-- Whether the call of a point receives a segment that was awaited. -/
def Point.receives : Point → Bool
  | .receiving _ => true
  | _ => false

namespace Session

/-- Whether a step goes on with a drive that began before it. -/
def goesOn : Session × Happening → Bool
  | (_, .run) => false
  | (u, .answered _ _) => u.point?.any Point.inDrive

/-- Whether a step receives a segment that was awaited. -/
def receivesAwaited : Session × Happening → Bool
  | (_, .run) => false
  | (u, .answered _ _) => u.point?.any Point.receives

/-- **The steps of the drive that a session is in**, or was in last, the latest first. The first of
them is the one that began it. -/
def lastDrive : Past → Past
  | [] => []
  | q :: past => if goesOn q then q :: lastDrive past else [q]

/-- The triggers that a drive still feeds from where it awaits a segment. -/
def Wait.ahead : Wait → List Trigger
  | .syn => [.arrived .syn, .arrived .ack]
  | .synAck => [.arrived .synAck]
  | .opening | .data | .lastFin => [.arrived .ack]
  | .fin => [.arrived .ack, .arrived .fin]
  | .peerFin => [.arrived .fin]

/-- The triggers that a drive still feeds from where it sends a segment. -/
def Message.ahead : Message → List Trigger
  | .syn => Wait.synAck.ahead
  | .synAck => Wait.opening.ahead
  | .data => Wait.data.ahead
  | .fin => Wait.fin.ahead
  | .lastFin => Wait.lastFin.ahead
  | .peerFinAck => .close :: Wait.lastFin.ahead
  | .openAck | .dataAck | .closeAck => []

/-- **The triggers that a drive still feeds** from a stage on, unless the run fails. -/
def Stage.ahead : Stage → List Trigger
  | .awaiting w | .receiving w => w.ahead
  | .sending m _ => m.ahead
  | .delivering a _ => a.message.ahead
  | .signalling _ => .close :: Wait.lastFin.ahead
  | .idle | .reading | .fetching | .unblocking _ | .ready | .failed _ | .ended => []

/-- The most calls that a drive makes from where it receives a segment, with the wait for anything
that may follow it. -/
def Wait.callsAhead : Wait → Nat
  | .syn => 6
  | .fin => 5
  | .synAck => 4
  | .opening | .peerFin => 3
  | .data => 2
  | .lastFin => 1

/-- The most calls that a drive makes from where it sends a segment, with the wait for anything that
may follow it. -/
def Message.callsAhead : Message → Nat
  | .fin => 7
  | .syn => 6
  | .synAck | .peerFinAck => 5
  | .data => 4
  | .openAck | .lastFin => 3
  | .dataAck => 2
  | .closeAck => 1

/-- **The most calls that a session makes** from a stage on, with the one that it waits on, until it
waits for anything. -/
def Stage.callsAhead : Stage → Nat
  | .ready | .failed _ | .ended => 0
  | .idle => 1
  | .unblocking _ => 2
  | .signalling _ => 4
  | .fetching => 5
  | .reading => 7
  | .receiving w => w.callsAhead
  | .awaiting w => w.callsAhead + 1
  | .sending m _ => m.callsAhead
  | .delivering a _ => a.message.callsAhead + 1

/-- **What a drive has fed that has come to a stage**: the beginning of what it feeds if it goes
through, and all but what is still to come unless the run has failed. -/
def Feeds (fed : List Trigger) (x : Stage) : Prop :=
  ∃ ts, IsWhole ts ∧ (fed ++ x.ahead = ts ∨ (∃ e, x = .failed e) ∧ fed <+: ts)

variable {c₀ c d : Connection} {x x' : Stage} {h : Happening} {past : Past} {s t : Session}
  {call : Call} {r : Response} {bytes : List UInt8} {w : Wait}

theorem Wait.callsAhead_le (w : Wait) : w.callsAhead ≤ 6 := by cases w <;> decide

theorem Message.callsAhead_le (m : Message) : m.callsAhead ≤ 7 := by cases m <;> decide

theorem Arrival.callsAhead_le (a : Arrival) : a.message.callsAhead ≤ 5 := by cases a <;> decide

theorem Stage.callsAhead_le (x : Stage) : x.callsAhead ≤ 7 := by
  cases x with
  | receiving w => exact Nat.le_succ_of_le w.callsAhead_le
  | awaiting w => exact Nat.succ_le_succ w.callsAhead_le
  | sending m bytes => exact m.callsAhead_le
  | delivering a bytes => exact Nat.le_succ_of_le (Nat.succ_le_succ a.callsAhead_le)
  | _ => simp [callsAhead]

theorem Wait.count_ahead_le (w : Wait) : w.ahead.countP Trigger.isArrival ≤ 2 := by
  cases w <;> decide

theorem Wait.count_ahead_pos (w : Wait) : 0 < w.ahead.countP Trigger.isArrival := by
  cases w <;> decide

theorem Message.count_ahead_le (m : Message) : m.ahead.countP Trigger.isArrival ≤ 2 := by
  cases m <;> decide

theorem Stage.count_ahead_le (x : Stage) : x.ahead.countP Trigger.isArrival ≤ 2 := by
  cases x with
  | receiving w | awaiting w => exact w.count_ahead_le
  | sending m bytes => exact m.count_ahead_le
  | delivering a bytes => exact a.message.count_ahead_le
  | signalling bytes => exact Message.peerFinAck.count_ahead_le
  | _ => exact Nat.zero_le 2

/-- What a payload leads to goes on as its acknowledgment does. -/
theorem ahead_begin (a : Arrival) (bytes : List UInt8) :
    (a.begin bytes).2.ahead = a.message.ahead := by
  obtain ⟨-, hb⟩ | ⟨-, hb⟩ := arrival_begin a bytes <;> rw [hb] <;> rfl

theorem callsAhead_begin_le (a : Arrival) (bytes : List UInt8) :
    (a.begin bytes).2.callsAhead ≤ a.message.callsAhead + 1 := by
  obtain ⟨-, hb⟩ | ⟨-, hb⟩ := arrival_begin a bytes <;> rw [hb]
  · exact Nat.le_refl _
  · exact Nat.le_succ _

theorem Stage.rests_of_call (hcall : (staged (c, x)).call? = some call) : x.rests = false := by
  cases x with
  | ready | failed | ended => cases hcall
  | _ => rfl

theorem Stage.callsAhead_pos (hx : x.rests = false) : 0 < x.callsAhead := by
  cases x with
  | ready | failed | ended => cases hx
  | receiving w => cases w <;> decide
  | sending m bytes => cases m <;> exact Nat.succ_pos _
  | _ => exact Nat.succ_pos _

theorem callsAhead_sent (m : Message) (bytes : List UInt8) :
    (m.after bytes).2.callsAhead + 1 = m.callsAhead := by cases m <;> rfl

theorem callsAhead_taken (w : Wait) (bytes : List UInt8) :
    (w.after bytes).2.callsAhead + 1 ≤ w.callsAhead := by
  cases w with
  | peerFin => exact Nat.succ_le_succ (callsAhead_begin_le .lastFin bytes)
  | _ => exact Nat.le_refl _

/-- **Every answer brings a session nearer to its next wait for anything**, but for the event that
ends such a wait. -/
theorem Passes.callsAhead (hcall : (staged (c, x)).call? = some call)
    (hpass : Passes c x call r d x') :
    x'.callsAhead < x.callsAhead ∨ (x = .idle ∧ ∃ mask e, call = .wait mask ∧ r = .event e) := by
  cases hpass with
  | fails => exact .inl (Stage.callsAhead_pos (Stage.rests_of_call hcall))
  | hears | fetches | closes => exact .inr ⟨rfl, _, _, rfl, rfl⟩
  | drops | takes | writes | signals | opens =>
    simp [Stage.callsAhead, Arrival.message, Message.callsAhead]
  | takesFin => exact .inl (Nat.lt_of_le_of_lt (callsAhead_begin_le .peerFin _) (by decide))
  | awaits | hands => exact .inl (Nat.lt_succ_self _)
  | accepts => exact .inl (callsAhead_taken _ _)
  | posts => exact .inl (Nat.le_of_eq (callsAhead_sent _ _))

/-! ### Which triggers follow which -/

theorem ahead_sent (m : Message) (bytes : List UInt8) : (m.after bytes).2.ahead = m.ahead := by
  cases m <;> rfl

theorem ahead_taken (w : Wait) (bytes : List UInt8) :
    .arrived w.kind :: (w.after bytes).2.ahead = w.ahead := by
  cases w with
  | peerFin => exact congrArg (List.cons _) (ahead_begin .lastFin bytes)
  | _ => rfl

/-- An awaited segment that is taken in is fed to the state machine. -/
theorem fedIn_accepted (hx : (Stage.receiving w).Fits c₀ c) {s : Segment}
    (hs : Segment.parse (bytes.take receiveCapacity) = .ok s)
    (ha : c.accept w.kind s = (d, .ok ())) :
    fedIn (staged (c, .receiving w)) (.answered call (.bytes bytes)) = [.arrived w.kind] := by
  have hturn : (Stage.receiving w).turn (.bytes bytes) = w.take s := readSegment_of_parse hs w.take
  rw [fedIn_answered hx, hturn, Wait.take, prepend, List.cons_append,
    Connection.fed_cons_of_ok (hx.1.of_accept ha).1]
  exact Connection.fed_apply (asked_taken w s.payload)

/-- So is one that arrives while nothing is awaited. -/
theorem fedIn_arrived (hx : Stage.reading.Fits c₀ c) {s : Segment} {kind : Kind} {a : Arrival}
    (hs : Segment.parse (bytes.take receiveCapacity) = .ok s)
    (ha : arrival s = prepend [.record s, .apply (.arrived kind)] (a.begin s.payload)) :
    fedIn (staged (c, .reading)) (.answered call (.bytes bytes)) = [.arrived kind] := by
  have hturn : Stage.reading.turn (.bytes bytes) = arrival s := readSegment_of_parse hs arrival
  rw [fedIn_answered hx, hturn, ha, prepend, List.cons_append,
    Connection.fed_cons_of_ok (perform_record hx.1.undone (seqLenFits_of_receive hs))]
  exact Connection.fed_apply (asked_of_begin a s.payload)

/-- A step whose turn is to feed a trigger first, and has no other, feeds it. -/
theorem fedIn_apply (hx : x.Fits c₀ c) {trigger : Trigger} {t : Turn}
    (hturn : x.turn r = prepend [.apply trigger] t) (h : asked t = []) :
    fedIn (staged (c, x)) (.answered call r) = [trigger] := by
  rw [fedIn_answered hx, hturn]
  exact Connection.fed_apply h

/-- A step whose turn has no trigger feeds none. -/
theorem fedIn_nil (hx : x.Fits c₀ c) (h : asked (x.turn r) = []) :
    fedIn (staged (c, x)) (.answered call r) = [] := by
  rw [fedIn_answered hx]
  exact Connection.fed_eq_nil h

/-- **What is asked of the state machine in a drive** is the next trigger that is to come, if
anything is. -/
theorem asked_ahead (hcall : (staged (c, x)).call? = some call)
    (hon : goesOn (staged (c, x), .answered call r) = true) : asked (x.turn r) <+: x.ahead := by
  cases x with
  | ready | failed | ended => cases hcall
  | idle | reading | fetching => cases hon
  | awaiting w =>
    cases r with
    | event e => cases e <;> exact List.nil_prefix
    | _ => exact List.nil_prefix
  | unblocking bytes => cases r <;> exact List.nil_prefix
  | delivering a bytes => cases r <;> exact List.nil_prefix
  | sending m bytes =>
    cases r with
    | sent n =>
      simp only [Stage.turn]
      split
      · exact List.nil_prefix
      · rw [asked_sent]
        exact List.nil_prefix
    | _ => exact List.nil_prefix
  | signalling bytes =>
    cases r with
    | told => exact ⟨_, rfl⟩
    | _ => exact List.nil_prefix
  | receiving w =>
    cases r with
    | bytes bytes =>
      simp only [Stage.turn, readSegment]
      split
      · exact List.nil_prefix
      · rename_i s _
        rw [asked_take]
        exact ⟨_, ahead_taken w s.payload⟩
    | _ => exact List.nil_prefix

/-- So is what is fed. -/
theorem fedIn_ahead (hx : x.Fits c₀ c) (hcall : (staged (c, x)).call? = some call)
    (hon : goesOn (staged (c, x), .answered call r) = true) :
    fedIn (staged (c, x)) (.answered call r) <+: x.ahead := by
  rw [fedIn_answered hx]
  exact (Connection.fed_prefix c _).trans (asked_ahead hcall hon)

/-- **A step that goes on with a drive** feeds the next triggers that are to come, and leaves the
others, unless the run fails. -/
theorem Passes.feeds (hx : x.Fits c₀ c) (hcall : (staged (c, x)).call? = some call)
    (hpass : Passes c x call r d x') (hon : goesOn (staged (c, x), .answered call r) = true)
    {fed : List Trigger} (hfed : Feeds fed x) :
    Feeds (fed ++ fedIn (staged (c, x)) (.answered call r)) x' := by
  obtain ⟨ts, hts, hall⟩ := hfed
  have hall : fed ++ x.ahead = ts := by
    refine hall.resolve_right ?_
    rintro ⟨⟨e, rfl⟩, -⟩
    cases hcall
  refine ⟨ts, hts, ?_⟩
  subst hall
  rw [List.append_assoc]
  cases hpass with
  | fails => exact .inr ⟨⟨_, rfl⟩, (List.prefix_append_right_inj _).2 (fedIn_ahead hx hcall hon)⟩
  | hears | fetches | closes | drops | takes | takesFin | writes => cases hon
  | accepts hs hk ha =>
    exact .inl (by rw [fedIn_accepted hx hs ha, List.singleton_append, ahead_taken]; rfl)
  | @posts m bytes n _ hn =>
    have hturn : (Stage.sending m bytes).turn (.sent n) = m.after bytes := if_neg hn
    rw [fedIn_nil hx (by rw [hturn, asked_sent]), List.nil_append, ahead_sent]
    exact .inl rfl
  | @signals bytes =>
    rw [fedIn_apply (t := Message.lastFin.begin bytes) hx rfl rfl]
    exact .inl rfl
  | awaits | hands | opens => exact .inl (by rw [fedIn_nil hx rfl]; rfl)

/-- A drive begins with a trigger and has those to come that follow it. -/
theorem feeds_first (first : Trigger) (hx : x.ahead = first.sequel) : Feeds [first] x :=
  ⟨_, .inr ⟨first, rfl⟩, .inl (congrArg (List.cons first) hx)⟩

/-- At most one trigger begins a drive that fails at once. -/
theorem feeds_failed {fed : List Trigger} (h : fed.length ≤ 1) (e : Session.Error) :
    Feeds fed (.failed e) := by
  rcases fed with _ | ⟨t, _ | ⟨u, ts⟩⟩
  · exact ⟨[], .inl rfl, .inr ⟨⟨e, rfl⟩, List.nil_prefix⟩⟩
  · exact ⟨t :: t.sequel, .inr ⟨t, rfl⟩, .inr ⟨⟨e, rfl⟩, _, rfl⟩⟩
  · simp at h

theorem feeds_none (hx : x.ahead = []) : Feeds [] x := ⟨[], .inl rfl, .inl hx⟩

/-- **A step of the event loop** begins a drive with the triggers that are to come, if any. -/
theorem Passes.begins (hx : x.Fits c₀ c) (hcall : (staged (c, x)).call? = some call)
    (hpass : Passes c x call r d x') (hoff : goesOn (staged (c, x), .answered call r) = false) :
    Feeds (fedIn (staged (c, x)) (.answered call r)) x' := by
  cases hpass with
  | fails => exact feeds_failed (length_fedIn _ _) _
  | hears | fetches => rw [fedIn_nil hx rfl]; exact feeds_none rfl
  | closes =>
    rw [fedIn_apply (t := Message.fin.begin []) hx rfl rfl]
    exact feeds_first .close rfl
  | @drops bytes s hs hf hp =>
    have hturn : Stage.reading.turn (.bytes bytes) = ([], .idle) := by
      rw [← arrival_of_nothing hf hp]
      exact readSegment_of_parse hs arrival
    rw [fedIn_nil hx (by rw [hturn]; rfl)]
    exact feeds_none rfl
  | @takes bytes s _ hs hf hp =>
    rw [fedIn_arrived hx hs (arrival_of_payload hf hp)]
    exact feeds_first (.arrived .data) rfl
  | takesFin hs hf =>
    rw [fedIn_arrived hx hs (arrival_of_fin hf)]
    exact feeds_first (.arrived .fin) (ahead_begin .peerFin _)
  | @writes n bytes _ hn hp =>
    subst hn
    have hne : ¬ (bytes.take mss.toNat).isEmpty = true := fun h => hp (List.isEmpty_iff.1 h)
    have hturn : Stage.fetching.turn (.bytes bytes) =
        prepend [.apply .write] (Message.data.begin (bytes.take mss.toNat)) := if_neg hne
    rw [fedIn_apply hx hturn rfl]
    exact feeds_first .write rfl
  | awaits | accepts | posts | hands | signals | opens => cases hoff

/-- **So does the beginning of a run.** -/
theorem Passage.begins (h₀ : c₀.Free .listen) (hx : x.Fits c₀ c) (hp : Passage c₀ c x h d x')
    (hoff : goesOn (staged (c, x), h) = false) : Feeds (fedIn (staged (c, x)) h) x' := by
  cases hp with
  | opens first hcarry hopen =>
    subst first
    rw [fedIn_run]
    show Feeds [.start c.role] x'
    obtain ⟨hrole, hx'⟩ | ⟨hrole, hx'⟩ := carry_opening h₀ <;> rw [hcarry] at hx' <;>
      subst hx' <;> rw [hrole]
    · exact feeds_first (.start .active) rfl
    · exact feeds_first (.start .passive) rfl
  | again => exact feeds_failed (length_fedIn _ _) _
  | answered hcall hcarry hpass => exact hpass.begins hx hcall hoff

/-! ### How far a drive goes -/

/-- **A segment that a drive receives** is one of those that it still had to await. -/
theorem Passes.receives (hcall : (staged (c, x)).call? = some call)
    (hpass : Passes c x call r d x') (hon : goesOn (staged (c, x), .answered call r) = true) :
    x'.ahead.countP Trigger.isArrival +
        (if receivesAwaited (staged (c, x), .answered call r) then 1 else 0) ≤
      x.ahead.countP Trigger.isArrival := by
  cases hpass with
  | hears | fetches | closes | drops | takes | takesFin | writes => cases hon
  | fails =>
    -- a run that fails feeds nothing more
    cases x with
    | ready | failed | ended => cases hcall
    | receiving w => exact w.count_ahead_pos
    | _ => exact Nat.zero_le _
  | @accepts w bytes s =>
    rw [show (Stage.receiving w).ahead = w.ahead from rfl, ← ahead_taken w s.payload,
      List.countP_cons_of_pos rfl]
    exact Nat.le_refl _
  | awaits | hands | signals | opens => exact Nat.le_refl _
  | @posts m bytes =>
    rw [ahead_sent]
    exact Nat.le_refl _

/-- **What every step of a session keeps**: the triggers that its last drive has fed and still feeds
follow from one, at most two of them are segments that were awaited, and at most eight calls are
made until the session waits for anything. -/
structure Driving (past : Past) (x : Stage) : Prop where
  feeds : Feeds (triggers (lastDrive past)) x
  receives : (lastDrive past).countP receivesAwaited + x.ahead.countP Trigger.isArrival ≤ 2
  calls : (lastDrive past).length + x.callsAhead ≤ 8

theorem driving_nil : Driving [] .ready where
  feeds := feeds_none rfl
  receives := Nat.zero_le _
  calls := Nat.zero_le _

/-- A step that goes on with a drive. -/
theorem Driving.goes_on (hD : Driving past x) (hx : x.Fits c₀ c)
    (hcall : (staged (c, x)).call? = some call) (hpass : Passes c x call r d x')
    (hon : goesOn (staged (c, x), .answered call r) = true) :
    Driving ((staged (c, x), .answered call r) :: past) x' := by
  have hlast : lastDrive ((staged (c, x), .answered call r) :: past) =
      (staged (c, x), .answered call r) :: lastDrive past := if_pos hon
  refine ⟨?_, ?_, ?_⟩ <;> rw [hlast]
  · exact hpass.feeds hx hcall hon hD.feeds
  · have hreceives := hpass.receives hcall hon
    have hbound := hD.receives
    rw [List.countP_cons]
    omega
  · have hcalls : x'.callsAhead < x.callsAhead := by
      refine (hpass.callsAhead hcall).resolve_right ?_
      rintro ⟨rfl, -⟩
      cases hon
    have hbound := hD.calls
    rw [List.length_cons]
    omega

/-- A step that begins a drive, or none. -/
theorem driving_begins (h₀ : c₀.Free .listen) (hx : x.Fits c₀ c) (hp : Passage c₀ c x h d x')
    (hoff : goesOn (staged (c, x), h) = false) : Driving ((staged (c, x), h) :: past) x' := by
  have hlast : lastDrive ((staged (c, x), h) :: past) = [(staged (c, x), h)] :=
    if_neg (by rw [hoff]; decide)
  have hnone : receivesAwaited (staged (c, x), h) = false := by
    cases h with
    | run => rfl
    | answered call r => cases x <;> first | rfl | cases hoff
  refine ⟨?_, ?_, ?_⟩ <;> rw [hlast]
  · exact hp.begins h₀ hx hoff
  · rw [List.countP_cons_of_neg (by rw [hnone]; decide), List.countP_nil, Nat.zero_add]
    exact x'.count_ahead_le
  · exact Nat.add_comm _ _ ▸ Nat.succ_le_succ x'.callsAhead_le

/-- **Every step of a session keeps its drive within bounds.** -/
theorem Driving.step (h₀ : c₀.Free .listen) (hD : Driving past x) (hx : x.Fits c₀ c)
    (hp : Passage c₀ c x h d x') : Driving ((staged (c, x), h) :: past) x' := by
  cases hon : goesOn (staged (c, x), h) with
  | false => exact driving_begins h₀ hx hp hon
  | true =>
    cases hp with
    | opens | again => cases hon
    | answered hcall _ hpass => exact hD.goes_on hx hcall hpass hon

/-- A drive is over when the session waits for anything, or its connection has come to its end. -/
theorem ahead_of_over (h : (staged (c, x)).call? = some (.wait .any) ∨
    (staged (c, x)).result? = some (.ok ())) : x.ahead = [] ∧ ∀ e, x ≠ .failed e := by
  cases x with
  | idle | ended => exact ⟨rfl, nofun⟩
  | _ => rcases h with h | h <;> cases h

/-- **How far a drive can go**, whatever the stack answers: it feeds a trigger and those that follow
from it, in order, receives two awaited segments, and makes eight calls. One that goes through feeds
them all. -/
theorem drive_bounded {settings : Settings} {role : Role} {sink : Option Log.Sink}
    (ht : Trail (opened settings role sink) past t) :
    (∃ ts, IsWhole ts ∧ triggers (lastDrive past) <+: ts ∧
      (t.call? = some (.wait .any) ∨ t.result? = some (.ok ()) →
        triggers (lastDrive past) = ts)) ∧
    (lastDrive past).countP receivesAwaited ≤ 2 ∧ (lastDrive past).length ≤ 8 := by
  have h₀ := Connection.opened_free settings role sink
  rw [opened_eq] at ht
  obtain ⟨d, x, rfl, -, hD⟩ := ht.induct (P := fun past _ x => Driving past x) h₀ rfl driving_nil
    fun hD hx _ hp => hD.step h₀ hx hp
  refine ⟨?_, Nat.le_trans (Nat.le_add_right _ _) hD.receives,
    Nat.le_trans (Nat.le_add_right _ _) hD.calls⟩
  obtain ⟨ts, hts, hall⟩ := hD.feeds
  refine ⟨ts, hts, ?_, fun hover => ?_⟩
  · obtain rfl | ⟨-, hbegun⟩ := hall
    · exact List.prefix_append _ _
    · exact hbegun
  · obtain ⟨hnone, hne⟩ := ahead_of_over hover
    obtain rfl | ⟨⟨e, rfl⟩, -⟩ := hall
    · rw [hnone, List.append_nil]
    · exact absurd rfl (hne e)

end Session

end StopWait
