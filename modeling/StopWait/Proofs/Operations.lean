import StopWait.Connection
import StopWait.Proofs.Drafts
import StopWait.Proofs.SendWindow

/-!
# Operations of a connection

What may be done with a connection, as data, and what each operation comes to.

* `Connection.perform`: one operation, and its error if it fails.
* `Connection.performAll`: operations one after the other, whatever becomes of each.
* `Connection.attempt`: operations up to the first that fails.
* `segment_control`, `segment_data`, `record_eq`, `accept_eq`: what the operations come to when
  nothing stands in their way.
-/

namespace StopWait

/-- Something to do with a connection. -/
inductive Connection.Op where
  /-- Move the state machine. -/
  | apply (t : Trigger)
  /-- Build the next segment of a kind. -/
  | segment (kind : Kind) (payload : List UInt8)
  /-- Take in a segment that was awaited. -/
  | accept (expected : Kind) (s : Segment)
  /-- Take in a segment that arrived unasked. -/
  | record (s : Segment)
  /-- End the connection, if it has reached CLOSED. -/
  | finish
deriving DecidableEq, Repr

namespace Connection

/-- Performs an operation, and tells how it failed if it did. -/
def perform (c : Connection) : Op → Connection × Option Connection.Error
  | .apply t =>
    match c.apply t with
    | .ok (_, d) => (d, none)
    | .error e => (c, some e)
  | .segment kind payload =>
    match c.segment kind payload with
    | (d, .ok _) => (d, none)
    | (d, .error e) => (d, some e)
  | .accept expected s =>
    match c.accept expected s with
    | (d, .ok ()) => (d, none)
    | (d, .error e) => (d, some e)
  | .record s =>
    match c.record s with
    | .ok d => (d, none)
    | .error e => (c, some e)
  | .finish => (c.finish, none)

/-- Performs operations one after the other, whatever becomes of each. -/
def performAll (c : Connection) (ops : List Op) : Connection :=
  ops.foldl (fun c op => (c.perform op).1) c

/-- Performs operations up to the first that fails. -/
def attempt (c : Connection) : List Op → Connection × Option Connection.Error
  | [] => (c, none)
  | op :: ops =>
    match c.perform op with
    | (d, none) => d.attempt ops
    | (d, some e) => (d, some e)

/-- A fresh connection, with a transfer log if there is a sink for one. -/
def opened (settings : Settings) (role : Role) (sink : Option Log.Sink) : Connection :=
  sink.elim (.new settings role) (Connection.new settings role).withLog

/-- The next segment of a kind with a payload. -/
def compose (c : Connection) (kind : Kind) (payload : List UInt8) : Segment where
  header :=
    { srcPort := c.localPort, dstPort := c.remotePort
      seq := (c.numbers kind).1, ack := (c.numbers kind).2
      dataOffset := Header.words, control := kind.control, window := maxWindow.toUInt16
      checksum := 0, urgent := 0 }
  payload := payload

variable {c : Connection} {kind : Kind} {payload : List UInt8}

/-- Data keeps the payload rule with one to `mss` bytes, a control segment with none. -/
theorem payloadFault_eq_none : Segment.payloadFault kind payload = none ↔
    if kind = .data then payload ≠ [] ∧ payload.length ≤ mss.toNat else payload = [] := by
  cases kind <;> simp only [Segment.payloadFault, List.isEmpty_iff, reduceCtorEq, if_true, if_false]
  case data =>
    by_cases hp : payload = []
    · simp [hp]
    · by_cases hl : mss.toNat < payload.length
      · simp [hp, hl]
      · simp [hp, hl, Nat.not_lt.1 hl]
  all_goals by_cases hp : payload = [] <;> simp [hp]

/-- A payload that keeps the rule can be sent. -/
theorem build_draft (h : Segment.payloadFault kind payload = none) :
    Segment.build kind (c.draft kind) payload = .ok (c.compose kind payload) := by
  have hlen : payload.length ≤ mss.toNat := by
    have := payloadFault_eq_none.1 h
    split at this
    · exact this.2
    · simp [this]
  have hm : mss.toNat = 536 := rfl
  have hbuilt : (Segment.mark kind (c.draft kind)).build payload.length =
      .ok (Segment.mark kind (c.draft kind)).header := Draft.build_of_le _ (by omega)
  simp only [Segment.build, h, hbuilt]
  cases kind <;> rfl

/-- **A control segment** without payload is built as long as the connection is not done. -/
theorem segment_control (hd : c.done = false) (hk : kind ≠ .data) :
    c.segment kind [] = (c.noteSent kind (c.compose kind []), .ok (c.compose kind [])) := by
  have hs : c.sendFault kind = none := by
    cases kind <;> simp_all [sendFault]
  have hb : Segment.build kind (c.draft kind) [] = .ok (c.compose kind []) :=
    build_draft (payloadFault_eq_none.2 (by rw [if_neg hk]))
  simp only [segment, hs, hb, if_neg hk]

/-- The connection after `payload` has been sent. -/
def afterData (c : Connection) (payload : List UInt8) : Connection :=
  { c.noteSent .data (c.compose .data payload) with
    window := c.window.spend (UInt32.ofNat payload.length)
    inFlight := some (UInt32.ofNat payload.length) }

/-- **A data segment** is built when none is on its way, as far as the transfer log takes it. -/
theorem segment_data (hd : c.done = false) (hf : c.inFlight = none) (hp : payload ≠ [])
    (hlen : payload.length ≤ mss.toNat) :
    c.segment .data payload =
      match c.logData .send (UInt32.ofNat payload.length) with
      | (d, .error e) => (d, .error (.log e))
      | (d, .ok ()) => (d.afterData payload, .ok (c.compose .data payload)) := by
  have hs : c.sendFault .data = none := by simp [sendFault, hd, hf]
  have hb : Segment.build .data (c.draft .data) payload = .ok (c.compose .data payload) :=
    build_draft (payloadFault_eq_none.2 (by simp [hp, hlen]))
  simp only [segment, hs, hb, if_true]
  rfl

/-- **A segment that arrives is taken in** if its sequence space is a word. -/
theorem record_eq (hd : c.done = false) {s : Segment} (hfits : s.seqLenFits = true) :
    c.record s = .ok (c.noteReceived s) := by
  simp [record, hd, hfits]

/-- What a segment that arrives comes to: it is noted, or leaves no trace. -/
theorem record_cases (c : Connection) (s : Segment) :
    (∃ e, c.record s = .error e ∧ ∀ o, e ≠ .overflow (.window o)) ∨
    (c.done = false ∧ s.seqLenFits = true ∧ c.record s = .ok (c.noteReceived s)) := by
  by_cases hd : c.done = true
  · exact .inl ⟨.closed, by simp [record, hd], by simp⟩
  simp only [Bool.not_eq_true] at hd
  by_cases hfits : s.seqLenFits = true
  · exact .inr ⟨hd, hfits, record_eq hd hfits⟩
  · exact .inl ⟨.overflow .seqLen, by simp [record, hd, hfits], by simp⟩

theorem perform_record_cases (c : Connection) (s : Segment) :
    (∃ e, c.perform (.record s) = (c, some e) ∧ ∀ o, e ≠ .overflow (.window o)) ∨
    c.perform (.record s) = (c.noteReceived s, none) := by
  obtain ⟨e, hr, he⟩ | ⟨-, -, hr⟩ := record_cases c s
  · exact .inl ⟨e, by simp only [perform, hr], he⟩
  · exact .inr (by simp only [perform, hr])

/-- **An awaited segment is taken in** if it has the bits of the awaited kind, and its sequence
space is a word. -/
theorem accept_eq (hd : c.done = false) {s : Segment} (hk : kind.accepts s.header.control = true)
    (hfits : s.seqLenFits = true) :
    c.accept kind s =
      if kind.control.ack then ((c.noteReceived s).advance kind s).acknowledge
      else ((c.noteReceived s).advance kind s, .ok ()) := by
  simp [accept, hd, hk, record_eq hd hfits]

/-- A segment whose sequence space is no word leaves no trace. -/
theorem accept_overflow (hd : c.done = false) {s : Segment}
    (hk : kind.accepts s.header.control = true) (hfits : s.seqLenFits = false) :
    c.accept kind s = (c, .error (.overflow .seqLen)) := by
  simp [accept, record, hd, hk, hfits]

theorem advance_window (s : Segment) : (c.advance kind s).window = c.window := by
  unfold advance; split <;> rfl

theorem advance_inFlight (s : Segment) : (c.advance kind s).inFlight = c.inFlight := by
  unfold advance; split <;> rfl

theorem advance_log (s : Segment) : (c.advance kind s).log = c.log := by
  unfold advance; split <;> rfl

end Connection

end StopWait
