import StopWait.Proofs.Ledger
import StopWait.Proofs.Outcome

/-!
# Sequence numbers, and turns that do not fail

What a turn makes of the sequence numbers of a connection is a matter of its operations alone. And
while the transfer log takes every record, a turn fails only if the response is to blame.

* `Figures.count`, `figures_carry`: **the numbers after a turn, from those before.**
* `TransferLog.Calm`: a transfer log that takes every record.
* `Stage.Welcomes`, `Stage.Welcomes.sure`, `ne_failed_of_welcomes`: **the responses with which a turn
  goes well.**
-/

namespace StopWait

/-- The numbers of a connection: its own initial and next one, those of the segment sent last, and
what is known of the one received last. -/
structure Figures where
  iss : UInt32
  next : UInt32
  sentSeq : UInt32
  sentAck : UInt32
  received : Received
deriving DecidableEq, Repr

namespace Connection

/-- The numbers of a connection. -/
def figures (c : Connection) : Figures := ⟨c.iss, c.nextSeq, c.sent.seq, c.sent.ack, c.received⟩

end Connection

namespace Figures

/-- The sequence number expected of the peer's next segment. -/
def expects (f : Figures) : UInt32 := f.received.seq + f.received.len

/-- The sequence and acknowledgment numbers of the next segment of a kind. -/
def numbers (f : Figures) : Kind → UInt32 × UInt32
  | .syn => (f.iss, 0)
  | .synAck => (f.iss, f.received.seq + 1)
  | .ack => (f.next, f.expects)
  | .data | .fin => (f.next, f.sentAck)
  | .finAck => (f.received.ack, f.received.seq + 1)

/-- The numbers after a segment was taken in. -/
def receive (f : Figures) (s : Segment) : Figures :=
  { f with received := ⟨s.header.seq, s.header.ack, s.seqLen, s.header.window⟩ }

/-- The numbers after an operation. -/
def count (f : Figures) : Connection.Op → Figures
  | .segment k _ => { f with sentSeq := (f.numbers k).1, sentAck := (f.numbers k).2 }
  | .accept k s => { f.receive s with next := if k = .syn then f.iss else s.header.ack }
  | .record s => f.receive s
  | .apply _ | .finish => f

end Figures

namespace Connection

variable {c d : Connection} {op : Op} {ops : List Op} {kind : Kind}

theorem numbers_figures (k : Kind) : c.figures.numbers k = c.numbers k := by cases k <;> rfl

theorem figures_acknowledge : c.acknowledge.1.figures = c.figures := by
  have hgrow : ∀ (c : Connection) (a : Acknowledged), (c.grow a).1.figures = c.figures := by
    intro c a
    unfold grow
    split <;> rfl
  unfold acknowledge
  split
  · exact hgrow _ _
  · split
    · rename_i hlog
      exact (congrArg (figures ∘ Prod.fst) hlog).symm
    · rename_i hlog
      exact (hgrow _ _).trans (congrArg (figures ∘ Prod.fst) hlog).symm

theorem figures_advance (s : Segment) :
    ((c.noteReceived s).advance kind s).figures = c.figures.count (.accept kind s) := by
  unfold advance
  split
  · rename_i hk
    subst hk
    rfl
  · rename_i hk
    simp only [Figures.count, if_neg hk]
    rfl

/-- **An operation that is done counts.** -/
theorem figures_perform (h : c.perform op = (d, none)) : d.figures = c.figures.count op := by
  cases op with
  | apply t =>
    simp only [perform, apply] at h
    cases hd : c.done with
    | true => simp [hd] at h
    | false =>
      rw [hd] at h
      cases hs : c.state.on t <;> simp only [hs, Bool.false_eq_true, if_false] at h <;> cases h
      rfl
  | segment k payload =>
    simp only [perform] at h
    obtain ⟨e, hs, -⟩ | ⟨-, e, -, hs⟩ | ⟨-, -, -, hs⟩ | ⟨hk, -, -, -, -, -, hs⟩ :=
      segment_cases c k payload <;> rw [hs] at h <;> cases h
    · simp only [Figures.count, numbers_figures]
      rfl
    · subst hk
      rfl
  | accept k s =>
    simp only [perform] at h
    obtain ⟨e, hs, -⟩ | ⟨-, -, -, -, hs⟩ | ⟨-, -, -, -, hs⟩ := accept_cases c k s <;> rw [hs] at h
    · cases h
    · cases h
      exact figures_advance s
    · rcases ha : ((c.noteReceived s).advance k s).acknowledge with ⟨d', r⟩
      have hfig := @figures_acknowledge ((c.noteReceived s).advance k s)
      rw [ha] at h hfig
      cases r with
      | error e => cases h
      | ok u =>
        cases h
        exact hfig.trans (figures_advance s)
  | record s =>
    obtain ⟨e, hr, -⟩ | hr := c.perform_record_cases s <;> rw [hr] at h <;> cases h
    rfl
  | finish =>
    simp only [perform, finish] at h
    cases h
    split <;> rfl

theorem figures_attempt (h : c.attempt ops = (d, none)) :
    d.figures = ops.foldl Figures.count c.figures := by
  induction ops generalizing c with
  | nil =>
    cases h
    rfl
  | cons op ops ih =>
    simp only [attempt] at h
    rcases hp : c.perform op with ⟨c', e⟩
    rw [hp] at h
    cases e with
    | some e => cases h
    | none =>
      -- every operation before the last one counted
      rw [List.foldl_cons, ← figures_perform hp]
      exact ih h

end Connection

namespace Session

variable {c₀ c d : Connection} {t : Turn} {x : Stage}

/-- **The numbers after a turn that does not fail.** -/
theorem figures_carry (h : carry c t = (d, x)) (hx : ∀ e, x ≠ .failed e) :
    d.figures = t.1.foldl Figures.count c.figures := by
  rcases ha : c.attempt t.1 with ⟨d', e⟩
  rw [carry, ha] at h
  cases e with
  | some e =>
    cases h
    exact absurd rfl (hx _)
  | none =>
    cases h
    exact Connection.figures_attempt ha

end Session

/-- A transfer log that takes every record: none, or one whose sink refuses nothing. -/
def TransferLog.Calm : TransferLog → Prop
  | .writing w => w.sink.refused = [] ∧ w.pending = [] ∧ w.columns = 0
  | .absent | .released _ => True

/-- A calm transfer log takes a record and stays calm. -/
theorem TransferLog.Calm.record {log : TransferLog} (h : log.Calm) (r : Log.Record) :
    (log.record r).2 = .ok () ∧ (log.record r).1.Calm := by
  cases log with
  | absent => exact ⟨rfl, trivial⟩
  | released => exact ⟨rfl, trivial⟩
  | writing w =>
    obtain ⟨hrefused, hpending, hcolumns⟩ := h
    have hrefuses : w.sink.refuses = false := by simp [Log.Sink.refuses, hrefused]
    -- a line fits the empty buffer
    have hroom : w.pending.length + r.line.length ≤ Log.Writer.capacity := by
      have := Log.Record.length_line_le r
      rw [hpending]
      simp only [List.length_nil, Log.Writer.capacity]
      omega
    have hrec := Log.Writer.record_of_room w r hcolumns hroom
    rw [hrefuses] at hrec
    simp only [TransferLog.record, hrec]
    exact ⟨rfl, hrefused, rfl, hcolumns⟩

namespace Connection

variable {c d : Connection} {kind : Kind} {s : Segment}

/-- A transfer log whose sink refuses nothing is calm at first. -/
theorem calm_opened (settings : Settings) (role : Role) (sink : Option Log.Sink)
    (hs : ∀ log ∈ sink, log.refused = []) : (opened settings role sink).log.Calm := by
  cases sink with
  | none => trivial
  | some log => exact ⟨hs log rfl, rfl, rfl⟩

theorem calm_logData (h : c.log.Calm) (dir : Log.Direction) (len : UInt32) :
    (c.logData dir len).2 = .ok () ∧ (c.logData dir len).1.log.Calm :=
  h.record _

theorem calm_acknowledge (h : c.log.Calm) : c.acknowledge.1.log.Calm := by
  have hgrow : ∀ (c : Connection) (a : Acknowledged), c.log.Calm → (c.grow a).1.log.Calm := by
    intro c a hc
    unfold grow
    split <;> exact hc
  unfold acknowledge
  split
  · exact hgrow _ _ h
  · rename_i len _
    have hlog := calm_logData (c := { c with inFlight := none }) h .recv len
    split
    · rename_i heq
      rw [heq] at hlog
      exact hlog.2
    · rename_i heq
      rw [heq] at hlog
      exact hgrow _ _ hlog.2

/-- **Every operation leaves the transfer log calm.** -/
theorem calm_perform (h : c.log.Calm) (op : Op) : (c.perform op).1.log.Calm := by
  cases op with
  | apply t =>
    simp only [perform, apply]
    cases hd : c.done with
    | true => exact h
    | false => cases hs : c.state.on t <;> exact h
  | segment k payload =>
    simp only [perform]
    obtain ⟨e, hs, -⟩ | ⟨-, e, -, hs⟩ | ⟨-, -, -, hs⟩ | ⟨-, -, -, -, -, -, hs⟩ :=
      segment_cases c k payload <;> rw [hs]
    · exact h
    · exact (calm_logData h _ _).2
    · exact h
    · exact (calm_logData h .send (UInt32.ofNat payload.length)).2
  | accept k s =>
    have hadvance : ((c.noteReceived s).advance k s).log = c.log := advance_log s
    simp only [perform]
    obtain ⟨e, hs, -⟩ | ⟨-, -, -, -, hs⟩ | ⟨-, -, -, -, hs⟩ := accept_cases c k s <;> rw [hs]
    · exact h
    · exact hadvance ▸ h
    · have hcalm := calm_acknowledge (c := (c.noteReceived s).advance k s) (hadvance ▸ h)
      rcases ha : ((c.noteReceived s).advance k s).acknowledge with ⟨d, r⟩
      rw [ha] at hcalm
      cases r <;> exact hcalm
  | record s =>
    obtain ⟨e, hr, -⟩ | hr := c.perform_record_cases s <;> rw [hr] <;> exact h
  | finish =>
    simp only [perform, finish]
    split
    · cases hl : c.log <;> trivial
    · exact h

theorem calm_attempt (h : c.log.Calm) (ops : List Op) : (c.attempt ops).1.log.Calm := by
  induction ops generalizing c with
  | nil => exact h
  | cons op ops ih =>
    have hp := calm_perform h op
    rw [attempt]
    rcases hc : c.perform op with ⟨c', e⟩
    rw [hc] at hp
    cases e with
    | some e => exact hp
    | none => exact ih hp

/-- **A calm connection takes in every segment of the awaited kind** whose sequence space is a
word. -/
theorem accept_of_calm (h : c.log.Calm) (hb : c.Balanced) (hd : c.done = false)
    (hk : kind.accepts s.header.control = true) (hfits : s.seqLenFits = true) :
    ∃ d, c.accept kind s = (d, .ok ()) := by
  have hadvance : ((c.noteReceived s).advance kind s).log = c.log := advance_log s
  rw [accept_eq hd hk hfits]
  split
  · have hb' : ((c.noteReceived s).advance kind s).Balanced := hb.advance s
    obtain ⟨-, ha⟩ | ⟨n, -, ⟨e, he, -⟩ | ⟨-, ha⟩⟩ := hb'.acknowledge_cases
    · exact ⟨_, ha⟩
    · rw [(calm_logData (c := { (c.noteReceived s).advance kind s with inFlight := none })
        (hadvance ▸ h) .recv n).1] at he
      cases he
    · exact ⟨_, ha⟩
  · exact ⟨_, rfl⟩

/-- **A calm connection sends data** when none is on its way. -/
theorem segment_of_calm {st : State} {payload : List UInt8} (h : c.log.Calm) (hf : c.Free st)
    (hp : payload ≠ []) (hlen : payload.length ≤ mss.toNat) :
    ∃ d s, c.segment .data payload = (d, .ok s) := by
  have hs := segment_data hf.undone hf.flight hp hlen
  have hlog := (calm_logData h .send (UInt32.ofNat payload.length)).1
  rcases hl : c.logData .send (UInt32.ofNat payload.length) with ⟨d, r⟩
  rw [hl] at hs hlog
  obtain rfl : r = .ok () := hlog
  exact ⟨_, _, hs⟩

end Connection

namespace Session

variable {c₀ c : Connection} {x : Stage} {p : Point} {r : Response}

theorem calm_carry (h : c.log.Calm) (t : Turn) : (carry c t).1.log.Calm := by
  have ha := Connection.calm_attempt h t.1
  unfold carry
  rcases hc : c.attempt t.1 with ⟨d, e⟩
  rw [hc] at ha
  cases e <;> exact ha

/-- **A response with which a turn goes well.** -/
def Stage.Welcomes : Stage → Response → Prop
  | _, .failed _ => False
  | .idle, .event e => e ≠ .timeout
  | .awaiting _, .event e => e = .networkData
  | .reading, .bytes bytes => ∃ s, Segment.parse (bytes.take receiveCapacity) = .ok s
  | .receiving w, .bytes bytes => ∃ s, Segment.parse (bytes.take receiveCapacity) = .ok s ∧
    w.kind.accepts s.header.control = true
  | .fetching, .bytes bytes => bytes.take mss.toNat ≠ []
  | .sending _ _, .sent n => n ≠ 0
  | _, _ => True

/-- The turn of a welcome response does not break off by itself. -/
theorem Stage.Welcomes.turn_ne_failed (hr : x.Welcomes r) (hp : x.status c = .suspended p)
    (e : Session.Error) : (x.turn r).2 ≠ .failed e := by
  cases r with
  | failed => cases x <;> exact hr.elim
  | event ev =>
    cases x with
    | ready | failed | ended => cases hp
    | idle => cases ev <;> first | exact absurd rfl hr | rintro ⟨⟩
    | awaiting w =>
      obtain rfl : ev = .networkData := hr
      rintro ⟨⟩
    | _ => rintro ⟨⟩
  | bytes bytes =>
    cases x with
    | ready | failed | ended => cases hp
    | reading =>
      obtain ⟨s, hs⟩ := hr
      simp only [turn, readSegment, hs]
      exact arrives_ne_failed s e
    | receiving w =>
      obtain ⟨s, hs, -⟩ := hr
      simp only [turn, readSegment, hs]
      exact after_ne_failed w e
    | fetching =>
      have hne : ¬ (bytes.take mss.toNat).isEmpty = true := by rwa [List.isEmpty_iff]
      rw [turn, fetchTurn, if_neg hne]
      rintro ⟨⟩
    | _ => rintro ⟨⟩
  | sent n =>
    cases x with
    | ready | failed | ended => cases hp
    | sending m bytes =>
      rw [turn, if_neg (show n ≠ 0 from hr)]
      cases m <;> rintro ⟨⟩
    | _ => rintro ⟨⟩
  | told =>
    cases x with
    | ready | failed | ended => cases hp
    | delivering a bytes => cases a <;> rintro ⟨⟩
    | _ => rintro ⟨⟩

/-- A turn in which an operation fails breaks off. -/
theorem sure_of_carry {t : Turn} (h : ∀ e, (carry c t).2 ≠ .failed e) : Sure c t := by
  rcases ha : c.attempt t.1 with ⟨d, e⟩
  cases e with
  | none => exact congrArg Prod.snd ha
  | some e =>
    rw [carry, ha] at h
    exact absurd rfl (h _)

/-- Data that was there is sent, while the transfer log is calm. -/
theorem sure_fetch (h : c.Free .established) (hcalm : c.log.Calm) {bytes : List UInt8}
    (hb : bytes.take mss.toNat ≠ []) : Sure c (fetchTurn bytes) := by
  have hlen : (bytes.take mss.toNat).length ≤ mss.toNat := by
    rw [List.length_take]
    exact Nat.min_le_left _ _
  obtain ⟨-, hnil⟩ | ⟨-, d, e, hs, -⟩ | ⟨-, d, s, -, hc⟩ := fetch_cases h bytes
  · exact absurd hnil hb
  · -- the transfer log would have to refuse the record
    obtain ⟨d', s, hs'⟩ := Connection.segment_of_calm hcalm h hb hlen
    rw [hs] at hs'
    cases hs'
  · refine sure_of_carry fun e he => ?_
    rw [hc] at he
    cases he

/-- A segment of the awaited kind is taken in, while the transfer log is calm. -/
theorem sure_take {w : Wait} (h : (Stage.receiving w).Live c) (hcalm : c.log.Calm) {s : Segment}
    (hk : w.kind.accepts s.header.control = true) (hfits : s.seqLenFits = true) :
    Sure c (w.take s) := by
  obtain ⟨d, hd⟩ := Connection.accept_of_calm hcalm h.balanced h.undone hk hfits
  obtain ⟨d', e', hd', -⟩ | ⟨d', -, -, -, hsure, -⟩ := take_cases h s
  · rw [hd] at hd'
    cases hd'
  · exact hsure

/-- **No operation fails after a welcome response**, while the transfer log is calm. -/
theorem Stage.Welcomes.sure (hr : x.Welcomes r) (h : x.Fits c₀ c) (hp : x.status c = .suspended p)
    (hcalm : c.log.Calm) : Sure c (x.turn r) := by
  cases x with
  | fetching =>
    cases r with
    | failed => exact hr.elim
    | bytes bytes => exact sure_fetch (h.1.free rfl) hcalm hr
    | _ => exact sure_nil c _
  | receiving w =>
    cases r with
    | failed => exact hr.elim
    | bytes bytes =>
      obtain ⟨s, hs, hk⟩ := hr
      simp only [turn, readSegment, hs]
      exact sure_take h.1 hcalm hk (seqLenFits_of_receive hs)
    | _ => exact sure_nil c _
  | _ => exact sure_turn h hp (by simp) (by simp) r

/-- **A turn fails only if the response is to blame**, while the transfer log is calm. -/
theorem ne_failed_of_welcomes (h : x.Fits c₀ c) (hp : x.status c = .suspended p)
    (hcalm : c.log.Calm) (hr : x.Welcomes r) (e : Session.Error) :
    (carry c (x.turn r)).2 ≠ .failed e := by
  rw [(hr.sure h hp hcalm).carry_eq]
  exact hr.turn_ne_failed hp e

end Session

end StopWait
