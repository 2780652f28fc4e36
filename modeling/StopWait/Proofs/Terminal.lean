import StopWait.Proofs.Ledger

/-!
# The end of a connection

A connection ends when it is finished in CLOSED. Whatever is asked of it from then on is refused,
and leaves nothing behind.

* `endings`: what `finish` answers at each of its calls.
* `perform_state`, `perform_done`: what an operation makes of the state, and whether it is the end.
* `Sealed.performAll`: an ended connection is in CLOSED, and its transfer log is not written to.
* `end_is_final`: **a connection ends at the first `finish` in CLOSED, and for good.**
-/

namespace StopWait

theorem State.on_closed (t : Trigger) : State.closed.on t = .error ⟨.closed, t⟩ := by
  cases t <;> rfl

namespace Connection

/-- What `finish` answers each time that it is called among some operations: whether that was the
call that ended the connection. -/
def endings (c : Connection) : List Op → List Bool
  | [] => []
  | op :: ops => (if op = .finish then [c.finishes] else []) ++ (c.perform op).1.endings ops

variable {c : Connection} {op : Op}

theorem grow_fst (c : Connection) (acked : Acknowledged) :
    ∃ window, (c.grow acked).1 = { c with window } := by
  unfold grow
  split
  · exact ⟨_, rfl⟩
  · exact ⟨c.window, rfl⟩

/-- An acknowledgment moves the window and the transfer log, and takes what is in flight. -/
theorem acknowledge_fst (c : Connection) :
    ∃ window log, c.acknowledge.1 = { c with window, inFlight := none, log } := by
  unfold acknowledge
  split
  · rename_i hf
    obtain ⟨window, hw⟩ := c.grow_fst .control
    refine ⟨window, c.log, hw.trans ?_⟩
    rw [← hf]
  · rename_i len hf
    split
    · rename_i d e heq
      exact ⟨c.window, _, (congrArg Prod.fst heq).symm⟩
    · rename_i d heq
      have hd : d = { c with inFlight := none, log := d.log } := by
        obtain rfl : _ = d := congrArg Prod.fst heq
        rfl
      obtain ⟨window, hw⟩ := d.grow_fst (.data len)
      refine ⟨window, d.log, hw.trans ?_⟩
      rw [hd]

theorem acknowledge_state (c : Connection) :
    c.acknowledge.1.state = c.state ∧ c.acknowledge.1.done = c.done := by
  obtain ⟨window, log, h⟩ := c.acknowledge_fst
  rw [h]
  exact ⟨rfl, rfl⟩

/-- **Building a segment and taking one in** leave the state, and do not end the connection. -/
theorem segment_state (c : Connection) (kind : Kind) (payload : List UInt8) :
    (c.segment kind payload).1.state = c.state ∧ (c.segment kind payload).1.done = c.done := by
  obtain ⟨e, hs, -⟩ | ⟨-, e, -, hs⟩ | ⟨-, -, -, hs⟩ | ⟨-, -, -, -, -, -, hs⟩ :=
    segment_cases c kind payload <;> rw [hs] <;> exact ⟨rfl, rfl⟩

theorem accept_state (c : Connection) (kind : Kind) (s : Segment) :
    (c.accept kind s).1.state = c.state ∧ (c.accept kind s).1.done = c.done := by
  obtain ⟨e, hs, -⟩ | ⟨-, -, -, -, hs⟩ | ⟨-, -, -, -, hs⟩ := accept_cases c kind s <;> rw [hs]
  · exact ⟨rfl, rfl⟩
  · exact ⟨advance_state, advance_done⟩
  · obtain ⟨hstate, hdone⟩ := acknowledge_state ((c.noteReceived s).advance kind s)
    exact ⟨hstate.trans advance_state, hdone.trans advance_done⟩

/-- What an operation comes to that is none of the state machine's. -/
theorem perform_fst_segment (c : Connection) (kind : Kind) (payload : List UInt8) :
    (c.perform (.segment kind payload)).1 = (c.segment kind payload).1 := by
  simp only [perform]
  split <;> rename_i h <;> rw [h]

theorem perform_fst_accept (c : Connection) (kind : Kind) (s : Segment) :
    (c.perform (.accept kind s)).1 = (c.accept kind s).1 := by
  simp only [perform]
  split <;> rename_i h <;> rw [h]

/-- **Only the state machine moves the state.** -/
theorem perform_state (h : ∀ t, op ≠ .apply t) : (c.perform op).1.state = c.state := by
  cases op with
  | apply t => exact absurd rfl (h t)
  | segment kind payload =>
    rw [perform_fst_segment]
    exact (segment_state c kind payload).1
  | accept kind s =>
    rw [perform_fst_accept]
    exact (accept_state c kind s).1
  | record s =>
    obtain ⟨e, hr, -⟩ | hr := c.perform_record_cases s <;> simp [hr, noteReceived]
  | finish =>
    simp only [perform, finish]
    split <;> rfl

theorem finishes_iff : c.finishes = true ↔ c.done = false ∧ c.state = .closed := by
  simp [finishes]

/-- **Only `finish` in CLOSED ends a connection.** -/
theorem perform_done (c : Connection) (op : Op) :
    (c.perform op).1.done = true ↔ c.done = true ∨ (op = .finish ∧ c.finishes = true) := by
  cases op with
  | apply t =>
    simp only [perform, apply]
    cases hd : c.done with
    | true => simp [hd]
    | false => cases c.state.on t <;> simp [hd]
  | segment kind payload =>
    rw [perform_fst_segment, (segment_state c kind payload).2]
    simp
  | accept kind s =>
    rw [perform_fst_accept, (accept_state c kind s).2]
    simp
  | record s =>
    obtain ⟨e, hr, -⟩ | hr := c.perform_record_cases s <;> simp [hr, noteReceived]
  | finish =>
    simp only [perform, finish]
    by_cases hf : c.finishes = true <;> simp [hf]

/-- **No operation leaves CLOSED.** -/
theorem perform_closed (h : c.state = .closed) (op : Op) : (c.perform op).1.state = .closed := by
  cases op with
  | apply t =>
    simp only [perform, apply, h, State.on_closed]
    cases c.done <;> exact h
  | _ => exact (perform_state (by simp)).trans h

/-- So a connection that has ended is in CLOSED after an operation if it was so before. -/
theorem perform_ended (hc : c.done = true → c.state = .closed) (op : Op)
    (hd : (c.perform op).1.done = true) : (c.perform op).1.state = .closed := by
  obtain hdone | ⟨rfl, hf⟩ := (perform_done c op).1 hd
  · exact perform_closed (hc hdone) op
  · exact perform_closed (finishes_iff.1 hf).2 .finish

theorem performAll_closed (h : c.state = .closed) (ops : List Op) :
    (c.performAll ops).state = .closed := by
  induction ops generalizing c with
  | nil => exact h
  | cons op ops ih => exact ih (perform_closed h op)

/-- **A connection that has ended stays as it is**, whatever is asked of it. -/
theorem performAll_of_done (h : c.done = true) (ops : List Op) : c.performAll ops = c := by
  induction ops with
  | nil => rfl
  | cons op ops ih =>
    have hcons : c.performAll (op :: ops) = (c.perform op).1.performAll ops := rfl
    rw [hcons, perform_of_done h op, ih]

theorem refuses_of_done (h : c.done = true) (hop : op ≠ .finish) :
    (c.perform op).2 = some .closed := by
  cases op with
  | apply t => simp [perform, apply, h]
  | segment kind payload => simp [perform, segment, sendFault, h]
  | accept kind s => simp [perform, accept, h]
  | record s => simp [perform, record, h]
  | finish => exact absurd rfl hop

/-- **An ended connection is in CLOSED**, and its transfer log was closed with it. -/
structure Sealed (c : Connection) : Prop where
  state : c.done = true → c.state = .closed
  log : c.done = true → ∀ w, c.log ≠ .writing w

theorem sealed_opened (settings : Settings) (role : Role) (sink : Option Log.Sink) :
    (opened settings role sink).Sealed := by
  have hdone : (opened settings role sink).done = false := by cases sink <;> rfl
  constructor <;>
    · intro h
      rw [hdone] at h
      cases h

theorem Sealed.perform (h : c.Sealed) (op : Op) : (c.perform op).1.Sealed := by
  refine ⟨perform_ended h.state op, fun hd' => ?_⟩
  cases hd : c.done with
  | true =>
    rw [perform_of_done hd]
    exact h.log hd
  | false =>
    -- what has just ended was finished, and let its log go
    obtain hdone | ⟨rfl, hf⟩ := (perform_done c op).1 hd'
    · cases hd.symm.trans hdone
    · simp only [Connection.perform, finish, hf, if_true]
      cases c.log <;> simp [TransferLog.close]

theorem Sealed.performAll (h : c.Sealed) (ops : List Op) : (c.performAll ops).Sealed := by
  induction ops generalizing c with
  | nil => exact h
  | cons op ops ih => exact ih (h.perform op)

/-- Letting go of a connection that has ended writes nothing more. -/
theorem Sealed.drop_log (h : c.Sealed) (hd : c.done = true) : c.drop.log = c.log := by
  have hlog := h.log hd
  simp only [drop]
  cases hl : c.log with
  | writing w => exact absurd hl (hlog w)
  | absent | released => rfl

/-- **Each call of `finish` that answers yes is the end**, and there is none after it. -/
theorem count_endings (c : Connection) (ops : List Op) :
    (c.endings ops).count true + c.done.toNat = (c.performAll ops).done.toNat := by
  induction ops generalizing c with
  | nil => simp [endings, performAll]
  | cons op ops ih =>
    have hcons : c.performAll (op :: ops) = (c.perform op).1.performAll ops := rfl
    -- this operation is counted if and only if it is the one that ends the connection
    have hstep : ((if op = .finish then [c.finishes] else []).count true) + c.done.toNat =
        (c.perform op).1.done.toNat := by
      have hdone := perform_done c op
      by_cases hop : op = .finish
      · subst hop
        cases hd : c.done <;> cases hd' : (c.perform .finish).1.done <;>
          simp_all [finishes]
      · have hsame : (c.perform op).1.done = c.done := by
          rw [Bool.eq_iff_iff, hdone]
          simp [hop]
        simp [hop, hsame]
    rw [hcons, endings, List.count_append, ← ih, ← hstep]
    omega

/-- **A connection has ended if and only if a `finish` ended it.** -/
theorem done_performAll (c : Connection) (ops : List Op) :
    (c.performAll ops).done = true ↔ c.done = true ∨
      ∃ xs ys, ops = xs ++ .finish :: ys ∧ (c.performAll xs).finishes = true := by
  induction ops generalizing c with
  | nil => simp [performAll]
  | cons op ops ih =>
    have hcons : ∀ xs, c.performAll (op :: xs) = (c.perform op).1.performAll xs := fun _ => rfl
    rw [hcons, ih, perform_done]
    constructor
    · rintro ((hd | ⟨rfl, hf⟩) | ⟨xs, ys, rfl, hf⟩)
      · exact .inl hd
      · exact .inr ⟨[], ops, rfl, hf⟩
      · exact .inr ⟨op :: xs, ys, rfl, hf⟩
    · rintro (hd | ⟨xs, ys, hops, hf⟩)
      · exact .inl (.inl hd)
      · cases xs with
        | nil =>
          obtain ⟨rfl, -⟩ := List.cons.inj hops
          exact .inl (.inr ⟨rfl, hf⟩)
        | cons x xs =>
          obtain ⟨rfl, rfl⟩ := List.cons.inj hops
          exact .inr ⟨xs, ys, rfl, hf⟩

/-- After a `finish` in CLOSED a connection has ended. -/
theorem done_of_closed {xs : List Op} (hs : (c.performAll xs).state = .closed) (ys : List Op) :
    (c.performAll (xs ++ .finish :: ys)).done = true := by
  have hsplit : c.performAll (xs ++ .finish :: ys) =
      ((c.performAll xs).perform .finish).1.performAll ys := List.foldl_append
  have hdone : ((c.performAll xs).perform .finish).1.done = true := by
    rw [perform_done, finishes_iff]
    cases (c.performAll xs).done with
    | true => exact .inl rfl
    | false => exact .inr ⟨rfl, rfl, hs⟩
  rw [hsplit, performAll_of_done hdone]
  exact hdone

/-- **The end of a connection is final.** Whatever is done with a connection, in any order: `finish`
answers yes at its first call in CLOSED and at no other; the connection has ended once it has done
so, and not before. Nothing leads out of CLOSED. Of a connection that has ended, `finish` answers
no, everything else is refused because it is closed, nothing changes any more, and no byte reaches
the transfer log, not even when the connection is let go. -/
theorem end_is_final (settings : Settings) (role : Role) (sink : Option Log.Sink)
    (before after : List Op) :
    let c₀ := opened settings role sink
    let c := c₀.performAll before
    let d := c.performAll after
    ((c.finishes = true ↔ c.state = .closed ∧
        ∀ xs ys, before = xs ++ .finish :: ys → (c₀.performAll xs).state ≠ .closed) ∧
      (c₀.endings before).count true ≤ 1) ∧
    (c.done = true ↔ ∃ xs ys, before = xs ++ .finish :: ys ∧ (c₀.performAll xs).finishes = true) ∧
    (c.state = .closed → d.state = .closed ∧ ∀ t, ∃ e, c.apply t = .error e) ∧
    (c.done = true → c.finishes = false ∧ (∀ op, op ≠ .finish → (c.perform op).2 = some .closed) ∧
      d = c ∧ d.drop.log.contents = c.log.contents) := by
  intro c₀ c d
  have hopen : c₀.done = false := by
    simp only [c₀]
    cases sink <;> rfl
  have hsealed : c.Sealed := (sealed_opened settings role sink).performAll before
  have hdone : c.done = true ↔
      ∃ xs ys, before = xs ++ .finish :: ys ∧ (c₀.performAll xs).finishes = true := by
    rw [done_performAll, hopen]
    simp
  refine ⟨⟨?_, ?_⟩, hdone, ?_, ?_⟩
  · rw [finishes_iff, and_comm, ← Bool.not_eq_true]
    refine and_congr_right fun _ => ⟨?_, ?_⟩
    · rintro hd xs ys rfl hs
      exact hd (done_of_closed hs ys)
    · intro hfirst hd
      obtain ⟨xs, ys, hsplit, hf⟩ := hdone.1 hd
      exact hfirst xs ys hsplit (finishes_iff.1 hf).2
  · have hcount := count_endings c₀ before
    have := Bool.toNat_le (c₀.performAll before).done
    omega
  · intro hs
    refine ⟨performAll_closed hs after, fun t => ?_⟩
    simp only [apply, hs, State.on_closed]
    cases c.done <;> exact ⟨_, rfl⟩
  · intro hd
    have hsame : d = c := performAll_of_done hd after
    refine ⟨?_, fun op hop => refuses_of_done hd hop, hsame, ?_⟩
    · simp [finishes, hd]
    · rw [hsame, hsealed.drop_log hd]

/-- The active side of a connection, closed once and for all after the handshake. -/
def brief : List Op :=
  [.apply (.start .active), .apply (.arrived .synAck), .apply .close, .apply (.arrived .ack),
    .apply (.arrived .fin), .finish]

theorem end_is_final_brief :
    let c := (opened {} .active (some {})).performAll brief
    c.done = true ∧ (c.performAll [.finish, .apply .write, .apply .close]) = c ∧
      (c.perform (.apply .close)).2 = some .closed := by
  have hdone : ((opened {} .active (some {})).performAll brief).done = true := by decide
  have hend := (end_is_final {} .active (some {}) brief [.finish, .apply .write, .apply .close]).2.2.2
    hdone
  exact ⟨hdone, hend.2.2.1, hend.2.1 _ (by simp)⟩

end Connection

end StopWait
