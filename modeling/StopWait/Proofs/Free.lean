import StopWait.Proofs.Conservation

/-!
# Connections with nothing in flight

What sending and taking in a segment make of a connection that has no data on its way.

* `Free`: nothing is in flight, the window is in balance, and the connection has not ended.
* `Free.control`, `Free.data`: a control segment can be sent at any time, data as far as the
  transfer log takes it.
* `Balanced.free_of_accept`: a segment that is taken in leaves a free connection.
-/

namespace StopWait.Connection

/-- The segment that a connection sent last, apart from its kind and payload. -/
def reissue (c : Connection) (kind : Kind) (payload : List UInt8) : Segment where
  header :=
    { srcPort := c.localPort, dstPort := c.remotePort, seq := c.sent.seq, ack := c.sent.ack
      dataOffset := Header.words, control := kind.control, window := maxWindow.toUInt16
      checksum := 0, urgent := 0 }
  payload := payload

variable {c d : Connection} {kind : Kind} {payload : List UInt8} {s : Segment} {st : State}

theorem reissue_of_segment
    (h : c.segment kind payload = (d, .ok s)) : s = d.reissue kind payload := by
  obtain ⟨e, hs, -⟩ | ⟨-, e, -, hs⟩ | ⟨-, -, rfl, hs⟩ | ⟨rfl, -, -, -, -, -, hs⟩ :=
    segment_cases c kind payload <;> rw [h] at hs <;> cases hs <;> rfl

/-- **A connection with nothing in flight** that has not ended. -/
structure Free (c : Connection) (st : State) : Prop where
  state : c.state = st
  undone : c.done = false
  balanced : c.Balanced
  flight : c.inFlight = none

theorem Free.move {a b : State} (h : c.Free a) : { c with state := b }.Free b :=
  ⟨rfl, h.undone, h.balanced.congr rfl rfl, h.flight⟩

theorem Free.noteReceived (h : c.Free st) : (c.noteReceived s).Free st :=
  ⟨h.state, h.undone, h.balanced.congr rfl rfl, h.flight⟩

theorem Free.trans {a b : State} (h : c.Free a) (hab : a = b) : c.Free b := hab ▸ h

theorem opened_free (settings : Settings) (role : Role) (sink : Option Log.Sink) :
    (opened settings role sink).Free .listen := by
  refine ⟨?_, ?_, balanced_opened settings role sink, ?_⟩ <;> cases sink <;> rfl

theorem advance_state : (c.advance kind s).state = c.state := by unfold advance; split <;> rfl

theorem advance_done : (c.advance kind s).done = c.done := by unfold advance; split <;> rfl

/-- An awaited segment that is taken in leaves nothing in flight. -/
theorem Balanced.free_of_accept (h : c.Balanced)
    (hk : kind.control.ack = true ∨ c.inFlight = none)
    (hs : c.accept kind s = (d, .ok ())) : d.Free c.state := by
  obtain ⟨e, he, -⟩ | ⟨hd, -, -, ha, he⟩ | ⟨hd, -, -, -, he⟩ := accept_cases c kind s <;>
    rw [hs] at he
  · cases he
  · cases he
    -- no acknowledgment is awaited, and nothing was in flight
    refine ⟨advance_state, advance_done.trans hd, h.advance s, ?_⟩
    rw [advance_inFlight]
    exact hk.resolve_left (by simp [ha])
  · have hb : ((c.noteReceived s).advance kind s).Balanced := h.advance s
    obtain ⟨hf, ha⟩ | ⟨n, hf, ⟨e, -, ha⟩ | ⟨-, ha⟩⟩ := hb.acknowledge_cases <;> rw [ha] at he <;>
      cases he
    · exact ⟨advance_state, advance_done.trans hd, hb, hf⟩
    · exact ⟨advance_state, advance_done.trans hd,
        ⟨(hb.conserved_of_some hf).acknowledge_data.2, fun m hm => by cases hm⟩, rfl⟩

/-- A refused segment leaves the state, and all of a connection that awaited no acknowledgment. -/
theorem Balanced.of_accept_error (h : c.Balanced) {e : Connection.Error}
    (hs : c.accept kind s = (d, .error e)) :
    d.state = c.state ∧ d.done = c.done ∧ (kind.control.ack = false → d = c) := by
  obtain ⟨e, he, -⟩ | ⟨-, -, -, -, he⟩ | ⟨-, -, -, hk, he⟩ := accept_cases c kind s <;>
    rw [hs] at he
  · cases he
    exact ⟨rfl, rfl, fun _ => rfl⟩
  · cases he
  · have hb : ((c.noteReceived s).advance kind s).Balanced := h.advance s
    obtain ⟨hf, ha⟩ | ⟨n, hf, ⟨e, -, ha⟩ | ⟨-, ha⟩⟩ := hb.acknowledge_cases <;> rw [ha] at he <;>
      cases he
    exact ⟨advance_state, advance_done, fun hn => absurd hk (by simp [hn])⟩

theorem Free.control (h : c.Free st) (hk : kind ≠ .data) :
    c.segment kind [] = (c.noteSent kind (c.compose kind []), .ok (c.compose kind [])) ∧
      (c.noteSent kind (c.compose kind [])).Free st :=
  ⟨segment_control h.undone hk, h.state, h.undone, h.balanced.congr rfl rfl, h.flight⟩

theorem Free.data (h : c.Free st) (hp : payload ≠ []) (hlen : payload.length ≤ mss.toNat) :
    (∃ d e, c.segment .data payload = (d, .error e) ∧ d.state = st ∧ d.done = false) ∨
    ∃ d s, c.segment .data payload = (d, .ok s) ∧ d.state = st ∧ d.done = false ∧ d.Balanced ∧
      d.inFlight = some (UInt32.ofNat payload.length) := by
  have hs := segment_data h.undone h.flight hp hlen
  rcases hlog : c.logData .send (UInt32.ofNat payload.length) with ⟨d, r⟩
  have hd : d = (c.logData .send (UInt32.ofNat payload.length)).1 := by rw [hlog]
  rw [hlog] at hs
  cases r with
  | error e =>
    exact .inl ⟨d, .log e, hs, by rw [hd]; exact h.state, by rw [hd]; exact h.undone⟩
  | ok u =>
    refine .inr ⟨d.afterData payload, _, hs, by rw [hd]; exact h.state,
      by rw [hd]; exact h.undone, ?_, rfl⟩
    have hb : d.Balanced := h.balanced.congr (by rw [hd]; rfl) (by rw [hd]; rfl)
    exact hb.afterData (by rw [hd]; exact h.flight) hp hlen

end StopWait.Connection
