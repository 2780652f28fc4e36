import Mathlib.Computability.RegularExpressions
import StopWait.Proofs.Passage
import StopWait.Proofs.Terminal

/-!
# The language of the state machine

A state is given triggers, and takes some and rejects others. Those that it takes, in order, are a
word, and the words that lead from LISTEN to CLOSED are a regular language. For the words that lead
to CLOSED from any state there is a regular expression, and its derivative by a trigger is that of
the next state, if the state takes the trigger, and matches nothing, if it does not.

* `taken`, `accepted`, `final`, `effects`: what `walk` comes to, and what was accepted on the way.
* `lifetimes`: **the words that lead from LISTEN to CLOSED.**
* `matches_remaining_deriv`: **the derivatives are the transitions.**
* `final_eq_closed_iff`: the walks that end in CLOSED, from any state.
* `effects_induct`: what holds of the effects of a walk, if each transition keeps it.
* `walk_closes_iff`: **the lifetimes of a connection, and what is done in them.**
-/

namespace StopWait.State

open RegularExpression

/-! ### Walks -/

/-- **The triggers that are taken on a walk**, each with its transition. -/
def taken (s : State) (ts : List Trigger) : List (Trigger × Transition) :=
  (ts.zip (s.walk ts)).filterMap fun q => q.2.toOption.map (q.1, ·)

/-- The triggers that are taken on a walk. -/
def accepted (s : State) (ts : List Trigger) : List Trigger := (s.taken ts).map Prod.fst

/-- The state that a walk ends in. -/
def final (s : State) (ts : List Trigger) : State := ((s.taken ts).map (·.2.next)).getLastD s

/-- The actions on a walk, in order. -/
def effects (s : State) (ts : List Trigger) : List Action := (s.taken ts).flatMap (·.2.actions)

variable {s : State} {t : Trigger} {ts : List Trigger} {r : Transition} {e : Refusal}

theorem taken_cons_of_ok (h : s.on t = .ok r) :
    s.taken (t :: ts) = (t, r) :: r.next.taken ts := by
  rw [taken, walk, h]
  rfl

theorem taken_cons_of_error (h : s.on t = .error e) : s.taken (t :: ts) = s.taken ts := by
  rw [taken, walk, h]
  rfl

theorem accepted_cons_of_ok (h : s.on t = .ok r) :
    s.accepted (t :: ts) = t :: r.next.accepted ts := by
  rw [accepted, taken_cons_of_ok h]
  rfl

theorem accepted_cons_of_error (h : s.on t = .error e) :
    s.accepted (t :: ts) = s.accepted ts := by
  rw [accepted, taken_cons_of_error h]
  rfl

theorem final_cons_of_ok (h : s.on t = .ok r) : s.final (t :: ts) = r.next.final ts := by
  rw [final, taken_cons_of_ok h, List.map_cons, List.getLastD_cons]
  rfl

theorem final_cons_of_error (h : s.on t = .error e) : s.final (t :: ts) = s.final ts := by
  rw [final, taken_cons_of_error h]
  rfl

theorem final_singleton_of_ok (h : s.on t = .ok r) : s.final [t] = r.next := final_cons_of_ok h

theorem final_singleton_of_error (h : s.on t = .error e) : s.final [t] = s :=
  final_cons_of_error h

theorem final_append (s : State) (ts us : List Trigger) :
    s.final (ts ++ us) = (s.final ts).final us := by
  induction ts generalizing s with
  | nil => rfl
  | cons t ts ih =>
    rw [List.cons_append]
    cases h : s.on t with
    | ok r => rw [final_cons_of_ok h, final_cons_of_ok h, ih]
    | error e => rw [final_cons_of_error h, final_cons_of_error h, ih]

theorem effects_cons_of_ok (h : s.on t = .ok r) :
    s.effects (t :: ts) = r.actions ++ r.next.effects ts := by
  rw [effects, taken_cons_of_ok h]
  rfl

theorem effects_cons_of_error (h : s.on t = .error e) : s.effects (t :: ts) = s.effects ts := by
  rw [effects, taken_cons_of_error h]
  rfl

/-- CLOSED takes nothing. -/
theorem taken_closed (ts : List Trigger) : State.closed.taken ts = [] := by
  induction ts with
  | nil => rfl
  | cons t ts ih => rw [taken_cons_of_error (on_closed t), ih]

/-! ### The language -/

/-- The handshake, of either role. -/
def handshakes : RegularExpression Trigger :=
  char (.start .active) * char (.arrived .synAck) + char (.arrived .syn) * char (.arrived .ack)

/-- A step of the transfer of data, in either direction. -/
def exchanges : RegularExpression Trigger :=
  char .write + char (.arrived .ack) + char (.arrived .data)

/-- The close, begun by either side. -/
def shutdowns : RegularExpression Trigger :=
  char .close * (char (.arrived .ack) * char (.arrived .fin)) +
    char (.arrived .fin) * (char .close * char (.arrived .ack))

/-- **The words that lead from LISTEN to CLOSED.** -/
def lifetimes : RegularExpression Trigger :=
  (char (.start .passive)).star * (handshakes * (exchanges.star * shutdowns))

/-- The words that lead from a state to CLOSED. -/
def remaining : State → RegularExpression Trigger
  | .listen => lifetimes
  | .synSent => char (.arrived .synAck) * (exchanges.star * shutdowns)
  | .synReceived => char (.arrived .ack) * (exchanges.star * shutdowns)
  | .established => exchanges.star * shutdowns
  | .finWait1 => char (.arrived .ack) * char (.arrived .fin)
  | .finWait2 => char (.arrived .fin)
  | .closeWait => char .close * char (.arrived .ack)
  | .closing => 0
  | .lastAck => char (.arrived .ack)
  | .closed => 1

theorem cons_mem_matches_iff (P : RegularExpression Trigger) (w : List Trigger) :
    t :: w ∈ P.matches' ↔ w ∈ (P.deriv t).matches' := by
  rw [← rmatch_iff_matches', ← rmatch_iff_matches', rmatch]

theorem nil_mem_matches_iff (P : RegularExpression Trigger) :
    [] ∈ P.matches' ↔ P.matchEpsilon = true := by
  rw [← rmatch_iff_matches', rmatch]

/-- **The derivatives are the transitions.** -/
theorem matches_remaining_deriv (s : State) (t : Trigger) :
    (s.remaining.deriv t).matches' =
      match s.on t with
      | .ok r => r.next.remaining.matches'
      | .error _ => 0 := by
  -- an entry of the table at a time: the head of a star or of a sum either takes the trigger or
  -- leaves nothing
  cases s <;> rcases t with (_ | _) | _ | (_ | _ | _ | _ | _ | _) | _ <;>
    simp [on, transition?, remaining, lifetimes, handshakes, exchanges, shutdowns,
      RegularExpression.deriv, matchEpsilon]

/-- **The walks that end in CLOSED** are those of which the accepted triggers are a word that is
left. -/
theorem final_eq_closed_iff (s : State) (ts : List Trigger) :
    s.final ts = .closed ↔ s.accepted ts ∈ s.remaining.matches' := by
  induction ts generalizing s with
  | nil =>
    have hepsilon : s.remaining.matchEpsilon = true ↔ s = .closed := by
      cases s <;> decide
    have hfinal : s.final [] = s := rfl
    have haccepted : s.accepted [] = [] := rfl
    rw [hfinal, haccepted, nil_mem_matches_iff, hepsilon]
  | cons t ts ih =>
    cases h : s.on t with
    | ok r =>
      rw [final_cons_of_ok h, accepted_cons_of_ok h, cons_mem_matches_iff,
        matches_remaining_deriv, h]
      exact ih r.next
    | error e =>
      rw [final_cons_of_error h, accepted_cons_of_error h]
      exact ih s

/-! ### What is done on a walk -/

/-- Whether the handshake is over. -/
def isOpened : State → Bool
  | .listen | .synSent | .synReceived => false
  | _ => true

/-- **What one transition does**: it releases the application where the handshake ends, sends a FIN
where the end of the stream is sent, and signals the peer's at most where that is heard. -/
theorem counts_of_on (h : s.on t = .ok r) :
    s.isOpened.toNat + r.actions.count .unblock = r.next.isOpened.toNat ∧
    s.isShut.toNat + r.actions.count (.send .fin) = r.next.isShut.toNat ∧
    s.hasHeardFin.toNat + r.actions.count .signalPeerFin ≤ r.next.hasHeardFin.toNat ∧
    r.next ≠ .closing := by
  cases s <;> rcases t with (_ | _) | _ | (_ | _ | _ | _ | _ | _) | _ <;> cases h <;> decide

/-- **What each transition keeps, a walk keeps.** -/
theorem effects_induct {P : List Action → State → Prop}
    (hstep : ∀ {done s t r}, s.on t = .ok r → P done s → P (done ++ r.actions) r.next)
    {done : List Action} (h : P done s) (ts : List Trigger) :
    P (done ++ s.effects ts) (s.final ts) := by
  induction ts generalizing done s with
  | nil =>
    rw [show s.effects [] = [] from rfl, List.append_nil]
    exact h
  | cons t ts ih =>
    cases hon : s.on t with
    | ok r =>
      rw [effects_cons_of_ok hon, final_cons_of_ok hon, ← List.append_assoc]
      exact ih (hstep hon h)
    | error e =>
      rw [effects_cons_of_error hon, final_cons_of_error hon]
      exact ih h

/-- **The counts of a walk** are told by the state that it ends in, all but whether a FIN of the
peer was signalled. -/
theorem counts_effects (ts : List Trigger) :
    (State.listen.effects ts).count .unblock = (State.listen.final ts).isOpened.toNat ∧
    (State.listen.effects ts).count (.send .fin) = (State.listen.final ts).isShut.toNat ∧
    (State.listen.effects ts).count .signalPeerFin ≤ (State.listen.final ts).hasHeardFin.toNat := by
  refine @effects_induct .listen (fun done s => done.count .unblock = s.isOpened.toNat ∧
    done.count (.send .fin) = s.isShut.toNat ∧
    done.count .signalPeerFin ≤ s.hasHeardFin.toNat) ?_ [] ⟨rfl, rfl, Nat.le_refl _⟩ ts
  intro done s t r hon ⟨hunblock, hfin, hsignal⟩
  obtain ⟨hunblock', hfin', hsignal', -⟩ := counts_of_on hon
  rw [List.count_append, List.count_append, List.count_append]
  omega

/-- Each transition of a walk is one of the machine. -/
theorem exists_on_of_mem_taken {q : Trigger × Transition} (hq : q ∈ s.taken ts) :
    ∃ s', on s' q.1 = .ok q.2 := by
  induction ts generalizing s with
  | nil => cases hq
  | cons t ts ih =>
    cases h : s.on t with
    | ok r =>
      rw [taken_cons_of_ok h] at hq
      obtain rfl | hq := List.mem_cons.1 hq
      · exact ⟨s, h⟩
      · exact ih hq
    | error e =>
      rw [taken_cons_of_error h] at hq
      exact ih hq

/-- **The lifetimes of a connection.** Given any triggers in LISTEN, of which those that are rejected
leave the state as it was, the machine ends in CLOSED if and only if those that are accepted are, in
order, a lifetime. On the way CLOSING is never entered, and in CLOSED nothing is accepted. No walk
sends two FINs, signals the peer's FIN twice, or releases the application twice, and one that ends in
CLOSED has sent its FIN and released the application. -/
theorem walk_closes_iff (ts : List Trigger) :
    (State.listen.final ts = .closed ↔ State.listen.accepted ts ∈ lifetimes.matches') ∧
    (∀ q ∈ State.listen.taken ts, q.2.next ≠ .closing) ∧
    (∀ more, State.closed.taken more = []) ∧
    let done := State.listen.effects ts
    done.count (.send .fin) ≤ 1 ∧ done.count .signalPeerFin ≤ 1 ∧ done.count .unblock ≤ 1 ∧
    (State.listen.final ts = .closed → done.count (.send .fin) = 1 ∧ done.count .unblock = 1) := by
  obtain ⟨hunblock, hfin, hsignal⟩ := counts_effects ts
  refine ⟨final_eq_closed_iff .listen ts, ?_, taken_closed, ?_, ?_, ?_, ?_⟩
  · intro q hq
    obtain ⟨s, hon⟩ := exists_on_of_mem_taken hq
    exact (counts_of_on hon).2.2.2
  · rw [hfin]
    exact Bool.toNat_le _
  · exact hsignal.trans (Bool.toNat_le _)
  · rw [hunblock]
    exact Bool.toNat_le _
  · intro hclosed
    rw [hunblock, hfin, hclosed]
    exact ⟨rfl, rfl⟩

/-- A passive connection is opened twice, called, and closed by the peer, with triggers that are
rejected before, between and after. -/
theorem walk_closes_iff_passive :
    let triggers : List Trigger := [.write, .start .passive, .start .passive, .arrived .syn, .close,
      .arrived .ack, .arrived .data, .start .active, .arrived .fin, .arrived .data, .close,
      .arrived .ack, .write]
    State.listen.accepted triggers ∈ lifetimes.matches' ∧
    (State.listen.effects triggers).count .unblock = 1 := by
  intro triggers
  obtain ⟨hword, -, -, -, -, -, hdone⟩ := walk_closes_iff triggers
  have hclosed : State.listen.final triggers = .closed := rfl
  exact ⟨hword.1 hclosed, (hdone hclosed).2⟩

end StopWait.State
