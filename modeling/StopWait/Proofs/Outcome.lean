import StopWait.Proofs.Turns

/-!
# How turns can fail

The turns of a session that fits its stage fail in few ways: an awaited segment is refused, or the
transfer log refuses the record of a data segment. Everything else that is asked of the connection
is done.

* `Sure`: no operation of a turn fails.
* `sure_turn`: every turn of a stage that neither receives nor fetches is sure.
* `take_cases`, `fetch_cases`: what an awaited segment and the application's bytes come to.
* `kept_of_failed`: **a turn that fails leaves the state.**
-/

namespace StopWait.Session

open Connection (Op)

variable {c₀ c d : Connection} {bytes : List UInt8} {t : Turn} {x : Stage} {p : Point}

/-- No operation of a turn fails. -/
def Sure (c : Connection) (t : Turn) : Prop := (c.attempt t.1).2 = none

theorem Sure.carry_eq (h : Sure c t) : carry c t = ((c.attempt t.1).1, t.2) := by
  unfold carry
  rcases hc : c.attempt t.1 with ⟨d, e⟩
  rw [Sure, hc] at h
  obtain rfl : e = none := h
  rfl

theorem sure_nil (c : Connection) (x : Stage) : Sure c ([], x) := rfl

theorem sure_prepend {op : Op} {ops : List Op} (h : c.perform op = (d, none))
    (ht : Sure d (prepend ops t)) : Sure c (prepend (op :: ops) t) := by
  rw [Sure, prepend, List.cons_append, Connection.attempt, h]
  exact ht

theorem sure_apply {trigger : Trigger} {r : Transition} (hd : c.done = false)
    (hr : c.state.on trigger = .ok r) (ht : Sure { c with state := r.next } t) :
    Sure c (prepend [.apply trigger] t) :=
  sure_prepend (perform_apply hd hr) ht

theorem sure_begin {m : Message} (h : c.Free m.state) (hm : m ≠ .data) :
    Sure c (m.begin bytes) := by
  have hk : m.kind ≠ .data := by cases m <;> first | exact absurd rfl hm | decide
  have hs := (h.control hk).1
  have hp : m.payload bytes = [] := if_neg hm
  simp only [Sure, Message.begin, hp, Connection.attempt, Connection.perform, hs]

theorem sure_arrival {a : Arrival} (h : c.Free a.message.state) : Sure c (a.begin bytes) := by
  unfold Arrival.begin
  split
  · exact sure_begin h (by cases a <;> nofun)
  · exact sure_nil c _

theorem sure_arrived {w : Wait} (h : c.Free w.state) :
    Sure c (prepend [.apply (.arrived w.kind)] (w.after bytes)) := by
  cases w with
  | syn => exact sure_apply h.undone (by rw [h.state]; rfl) (sure_begin h.move nofun)
  | synAck => exact sure_apply h.undone (by rw [h.state]; rfl) (sure_begin h.move nofun)
  | peerFin => exact sure_apply h.undone (by rw [h.state]; rfl) (sure_arrival h.move)
  | opening | data | fin => exact sure_apply h.undone (by rw [h.state]; rfl) (sure_nil _ _)
  | lastFin => exact sure_apply h.undone (by rw [h.state]; rfl) rfl

theorem sure_arrives {s : Segment} (hfits : s.seqLenFits = true) (h : c.Free .established) :
    Sure c (arrival s) := by
  have hp := perform_record h.undone hfits
  have hfree : (c.noteReceived s).Free .established := h.noteReceived
  unfold arrival
  split
  · exact sure_prepend hp (sure_apply hfree.undone (by rw [hfree.state]; rfl)
      (sure_arrival hfree.move))
  · split
    · exact sure_nil c _
    · exact sure_prepend hp (sure_apply hfree.undone (by rw [hfree.state]; rfl)
        (sure_arrival hfree.move))

/-- **Only a session that receives or fetches can have an operation fail.** -/
theorem sure_turn (h : x.Fits c₀ c) (hp : x.status c = .suspended p)
    (hr : ∀ w, x ≠ .receiving w) (hf : x ≠ .fetching) (r : Response) : Sure c (x.turn r) := by
  cases x with
  | ready | failed | ended => cases hp
  | fetching => exact absurd rfl hf
  | receiving w => exact absurd rfl (hr w)
  | idle =>
    have hfree : c.Free .established := h.1.free rfl
    cases r with
    | event e =>
      cases e with
      | appCloseRequested =>
        -- a close sends the FIN
        exact sure_apply hfree.undone (by rw [hfree.state]; rfl) (sure_begin hfree.move nofun)
      | _ => exact sure_nil c _
    | _ => exact sure_nil c _
  | reading =>
    have hfree : c.Free .established := h.1.free rfl
    cases r with
    | bytes bytes =>
      simp only [Stage.turn, readSegment]
      split
      · exact sure_nil c _
      · exact sure_arrives (seqLenFits_of_receive ‹_›) hfree
    | _ => exact sure_nil c _
  | awaiting w =>
    cases r with
    | event e => cases e <;> exact sure_nil c _
    | _ => exact sure_nil c _
  | sending m bytes =>
    cases r with
    | sent n =>
      simp only [Stage.turn]
      split
      · exact sure_nil c _
      · cases m <;> rfl
    | _ => exact sure_nil c _
  | delivering a bytes =>
    cases r with
    | told => exact sure_begin (h.1.free rfl) (by cases a <;> nofun)
    | _ => exact sure_nil c _
  | signalling bytes =>
    have hfree : c.Free .closeWait := h.1.free rfl
    cases r with
    | told => exact sure_apply hfree.undone (by rw [hfree.state]; rfl) (sure_begin hfree.move nofun)
    | _ => exact sure_nil c _
  | unblocking bytes =>
    cases r <;> exact sure_nil c _

/-- An awaited segment is refused, or taken in with nothing more in the way. -/
theorem take_cases {w : Wait} (h : (Stage.receiving w).Live c) (s : Segment) :
    (∃ d e, c.accept w.kind s = (d, .error e) ∧
      carry c (w.take s) = (d, .failed (.connection e))) ∨
    ∃ d, c.accept w.kind s = (d, .ok ()) ∧ w.kind.accepts s.header.control = true ∧
      d.Free w.state ∧ Sure c (w.take s) ∧
      carry c (w.take s) = carry d (prepend [.apply (.arrived w.kind)] (w.after s.payload)) := by
  rcases hs : c.accept w.kind s with ⟨d, r⟩
  cases r with
  | error e => exact .inl ⟨d, e, rfl, carry_take_of_error hs⟩
  | ok u =>
    obtain ⟨hp, hfree⟩ := h.of_accept hs
    refine .inr ⟨d, rfl, ?_, hfree, sure_prepend hp (sure_arrived hfree), carry_prepend _ hp⟩
    obtain ⟨e, he, -⟩ | ⟨-, hk, -⟩ | ⟨-, hk, -⟩ := Connection.accept_cases c w.kind s
    · rw [hs] at he
      cases he
    · exact hk
    · exact hk

/-- What the bytes that the application had come to: none were there, the transfer log refused the
record of them, or they are sent. -/
theorem fetch_cases (h : c.Free .established) (bytes : List UInt8) :
    (fetchTurn bytes = ([], .failed .emptyWrite) ∧ bytes.take mss.toNat = []) ∨
    (bytes.take mss.toNat ≠ [] ∧ ∃ d e,
      c.segment .data (bytes.take mss.toNat) = (d, .error e) ∧
      carry c (fetchTurn bytes) = (d, .failed (.connection e)) ∧
      d.state = .established ∧ d.done = false) ∨
    (bytes.take mss.toNat ≠ [] ∧ ∃ d s,
      c.segment .data (bytes.take mss.toNat) = (d, .ok s) ∧
      carry c (fetchTurn bytes) = (d, .sending .data (bytes.take mss.toNat))) := by
  by_cases hb : bytes.take mss.toNat = []
  · exact .inl ⟨by simp [fetchTurn, hb], hb⟩
  have hlen : (bytes.take mss.toNat).length ≤ mss.toNat := by
    rw [List.length_take]
    omega
  have hr : c.state.on .write = .ok ⟨.established, [.send .data], .await .ack⟩ := by
    rw [h.state]
    rfl
  -- a write leaves the state machine in ESTABLISHED
  have hsame : { c with state := .established } = c := by rw [← h.state]
  have hp : c.perform (.apply .write) = (c, none) := by
    rw [perform_apply h.undone hr]
    exact congrArg (·, none) hsame
  have hc : carry c (fetchTurn bytes) = carry c (Message.data.begin (bytes.take mss.toNat)) := by
    have hne : ¬ (bytes.take mss.toNat).isEmpty = true := by simpa using hb
    rw [fetchTurn, if_neg hne, carry_prepend [] hp]
    rfl
  right
  obtain ⟨d, e, hs, hst, hd⟩ | ⟨d, s, hs, -⟩ := h.data hb hlen
  · refine .inl ⟨hb, d, e, hs, ?_, hst, hd⟩
    rw [hc]
    simp only [carry, Message.begin, Message.payload, if_true, Connection.attempt,
      Connection.perform, Message.kind, hs]
  · refine .inr ⟨hb, d, s, hs, ?_⟩
    rw [hc]
    simp only [carry, Message.begin, Message.payload, if_true, Connection.attempt,
      Connection.perform, Message.kind, hs]

theorem arrival_ne_failed (a : Arrival) (e : Session.Error) : (a.begin bytes).2 ≠ .failed e := by
  unfold Arrival.begin
  split <;> nofun

theorem after_ne_failed (w : Wait) (e : Session.Error) : (w.after bytes).2 ≠ .failed e := by
  cases w with
  | peerFin => exact arrival_ne_failed .lastFin e
  | _ => nofun

/-- What arrives while nothing is awaited is no failure. -/
theorem arrives_ne_failed (s : Segment) (e : Session.Error) : (arrival s).2 ≠ .failed e := by
  unfold arrival
  split
  · exact arrival_ne_failed .peerFin e
  · split
    · nofun
    · exact arrival_ne_failed .data e

/-- A turn that leads to a failure asks for nothing before. -/
theorem nil_of_failed (hp : x.status c = .suspended p) {r : Response} {e : Session.Error}
    (hf : (x.turn r).2 = .failed e) : (x.turn r).1 = [] := by
  -- what is read fails before anything is asked for, or as what it is taken for
  have hread : ∀ {bytes : List UInt8} {take : Segment → Turn},
      (∀ s, (take s).2 = .failed e → (take s).1 = []) →
      (readSegment bytes take).2 = .failed e → (readSegment bytes take).1 = [] := by
    intro bytes take ht hr
    unfold readSegment at hr ⊢
    cases hs : Segment.parse (bytes.take receiveCapacity) with
    | error e => rfl
    | ok s =>
      rw [hs] at hr
      exact ht s hr
  cases x with
  | ready | failed | ended => cases hp
  | idle =>
    cases r with
    | event ev => cases ev <;> first | rfl | cases hf
    | _ => rfl
  | reading =>
    cases r with
    | bytes bytes => exact hread (fun s hs => absurd hs (arrives_ne_failed s e)) hf
    | _ => rfl
  | fetching =>
    cases r with
    | bytes bytes =>
      simp only [Stage.turn, fetchTurn] at hf ⊢
      split at hf
      · rename_i hb
        rw [if_pos hb]
      · cases hf
    | _ => rfl
  | awaiting w =>
    cases r with
    | event ev => cases ev <;> rfl
    | _ => rfl
  | receiving w =>
    cases r with
    | bytes bytes => exact hread (fun s hs => absurd hs (after_ne_failed w e)) hf
    | _ => rfl
  | sending m bytes =>
    cases r with
    | sent n =>
      simp only [Stage.turn] at hf ⊢
      split at hf
      · rename_i hn
        rw [if_pos hn]
      · cases m <;> cases hf
    | _ => rfl
  | delivering a bytes => cases r <;> first | rfl | cases hf
  | signalling bytes => cases r <;> first | rfl | cases hf
  | unblocking bytes => cases r <;> rfl

/-- **A failure leaves the state of the connection**, and does not end it. -/
theorem kept_of_failed (h : x.Fits c₀ c) (hp : x.status c = .suspended p) {r : Response}
    {e : Session.Error} (hf : (carry c (x.turn r)).2 = .failed e) :
    (carry c (x.turn r)).1.state = c.state ∧ (carry c (x.turn r)).1.done = c.done := by
  have hplain : (x.turn r).2 = .failed e →
      (carry c (x.turn r)).1.state = c.state ∧ (carry c (x.turn r)).1.done = c.done := by
    intro ht
    have hnil := nil_of_failed hp ht
    rw [carry, hnil]
    exact ⟨rfl, rfl⟩
  by_cases hr : ∃ w, x = .receiving w
  · obtain ⟨w, rfl⟩ := hr
    cases r with
    | bytes bytes =>
      simp only [Stage.turn, readSegment] at hf hplain ⊢
      cases hs : Segment.parse (bytes.take receiveCapacity) with
      | error e => exact ⟨rfl, rfl⟩
      | ok s =>
        rw [hs] at hf
        obtain ⟨d, e, hd, hc⟩ | ⟨d, -, -, -, hsure, -⟩ := take_cases h.1 s
        · -- the segment is refused
          obtain ⟨hst, hdone, -⟩ := h.1.balanced.of_accept_error hd
          simp only [hc]
          exact ⟨hst, hdone⟩
        · -- the segment is taken in, and nothing fails after that
          rw [hsure.carry_eq] at hf
          exact absurd hf (after_ne_failed w _)
    | _ => exact hplain hf
  by_cases hx : x = .fetching
  · subst hx
    have hfree : c.Free .established := h.1.free rfl
    cases r with
    | bytes bytes =>
      obtain ⟨ht, -⟩ | ⟨-, d, e, -, hc, hst, hd⟩ | ⟨-, d, s, -, hc⟩ := fetch_cases hfree bytes
      · exact hplain (by simp only [Stage.turn, ht] at hf ⊢; exact hf)
      · -- the transfer log refuses the record
        simp only [Stage.turn, hc]
        exact ⟨hst.trans hfree.state.symm, hd.trans hfree.undone.symm⟩
      · simp only [Stage.turn, hc] at hf
        cases hf
    | _ => exact hplain hf
  · have hsure := sure_turn h hp (fun w hw => hr ⟨w, hw⟩) hx r
    rw [hsure.carry_eq] at hf
    exact hplain hf

end StopWait.Session
