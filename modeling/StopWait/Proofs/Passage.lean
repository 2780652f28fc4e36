import StopWait.Proofs.Outcome

/-!
# Passages of a session

A stack may answer whatever it likes. Here is what each answer makes of a session: the stage that it
comes to, and, where the run fails, what is to blame.

* `Accounts`: **the errors that an answer accounts for.**
* `Passes`: **what an answer makes of a stage**, one case for each way to go on.
* `passes_of_answer`: a session's turn is one of these.
* `Passes.follows`: the states that a connection goes through.
* `Stage.isReleased`, `Passes.released`: an application is released by the call that is meant to.
-/

namespace StopWait

/-- **The states that a connection goes from and to** in a turn. -/
inductive State.Follows : State → State → Prop where
  | stays {st : State} : Follows st st
  | calls : Follows .listen .synSent
  | answers : Follows .listen .synReceived
  | opens : Follows .synSent .established
  | opened : Follows .synReceived .established
  | closes : Follows .established .finWait1
  | halfCloses : Follows .finWait1 .finWait2
  | ends : Follows .finWait2 .closed
  | hears : Follows .established .closeWait
  | replies : Follows .closeWait .lastAck
  | endsLast : Follows .lastAck .closed

namespace State

/-- Whether an end has sent its FIN. -/
def isShut : State → Bool
  | .finWait1 | .finWait2 | .lastAck | .closed => true
  | _ => false

/-- Whether an end has received the peer's FIN. -/
def hasHeardFin : State → Bool
  | .closeWait | .lastAck | .closed => true
  | _ => false

theorem Follows.isShut {a b : State} (h : Follows a b) (ha : a.isShut = true) :
    b.isShut = true := by
  cases h <;> first | exact ha | rfl

theorem Follows.of_closed {b : State} (h : Follows .closed b) : b = .closed := by
  cases h
  rfl

theorem Follows.to_listen {a : State} (h : Follows a .listen) : a = .listen := by
  cases h
  rfl

/-- A connection that closes, or hears of a close, goes through FIN-WAIT-1 or CLOSE-WAIT first. -/
theorem Follows.enters {a b : State} (h : Follows a b)
    (hb : b.isShut = true ∨ b.hasHeardFin = true) :
    (a.isShut = true ∨ a.hasHeardFin = true) ∨ b = .finWait1 ∨ b = .closeWait := by
  cases h with
  | stays => exact .inl hb
  | closes => exact .inr (.inl rfl)
  | hears => exact .inr (.inr rfl)
  | halfCloses | ends => exact .inl (.inl rfl)
  | replies | endsLast => exact .inl (.inr rfl)
  | _ => rcases hb with hb | hb <;> cases hb

end State

/-- A segment that does as an acknowledging kind has the ACK bit. -/
theorem Kind.ack_of_accepts {k : Kind} {c : Control} (h : k.accepts c = true)
    (hk : k.control.ack = true) : c.ack = true := by
  simp only [accepts, Control.contains, hk, Bool.and_eq_true] at h
  simpa using h.1.1

namespace Connection

variable {c d : Connection} {kind : Kind} {s : Segment} {e : Connection.Error} {st : State}

/-- An awaited segment is refused for want of a control bit, or because the transfer log refuses
the record of it. -/
theorem Balanced.accept_error (h : c.Balanced) (hd : c.done = false)
    (hfits : s.seqLenFits = true) (hs : c.accept kind s = (d, .error e)) :
    (e = .unexpectedSegment kind s.kind ∧ kind.accepts s.header.control = false) ∨
      ∃ l, e = .log l := by
  by_cases hk : kind.accepts s.header.control = true
  · right
    rw [accept_eq hd hk hfits] at hs
    split at hs
    · have hb : ((c.noteReceived s).advance kind s).Balanced := h.advance s
      obtain ⟨-, ha⟩ | ⟨n, -, ⟨l, -, ha⟩ | ⟨-, ha⟩⟩ := hb.acknowledge_cases <;> rw [ha] at hs <;>
        cases hs
      exact ⟨l, rfl⟩
    · cases hs
  · left
    have hrefused : c.accept kind s = (c, .error (.unexpectedSegment kind s.kind)) := by
      simp [accept, hd, hk]
    rw [hrefused] at hs
    cases hs
    exact ⟨rfl, by simpa using hk⟩

/-- Only the transfer log stands in the way of data. -/
theorem Free.data_error (h : c.Free st) {payload : List UInt8} (hp : payload ≠ [])
    (hlen : payload.length ≤ mss.toNat) (hs : c.segment .data payload = (d, .error e)) :
    ∃ l, e = .log l := by
  rw [segment_data h.undone h.flight hp hlen] at hs
  rcases hlog : c.logData .send (UInt32.ofNat payload.length) with ⟨d', r⟩
  rw [hlog] at hs
  cases r with
  | ok u => cases hs
  | error l =>
    cases hs
    exact ⟨l, rfl⟩

end Connection

namespace Session

/-- **The errors that an answer accounts for.** The transfer log has its say where a segment is
received, and where data is read that is to be sent. -/
inductive Accounts : Call → Response → Session.Error → Prop where
  | stack {call : Call} {e : Call.Failure} : Accounts call (.failed e) (.stack e)
  | timeout {mask : Interest} :
    Accounts (.wait mask) (.event .timeout) (.unexpectedEvent .timeout)
  | intrusion {e : Event} (h : e ≠ .networkData) :
    Accounts (.wait .networkOnly) (.event e) (.unexpectedEvent e)
  | malformed {n : Nat} {bytes : List UInt8} {e : Header.ParseError}
    (h : Segment.parse (bytes.take n) = .error e) :
    Accounts (.networkRecv n) (.bytes bytes) (.parse e)
  | unexpected {n : Nat} {bytes : List UInt8} {k : Kind} {s : Segment}
    (h : Segment.parse (bytes.take n) = .ok s) (hk : k.accepts s.header.control = false) :
    Accounts (.networkRecv n) (.bytes bytes) (.connection (.unexpectedSegment k s.kind))
  | unlogged {n : Nat} {bytes : List UInt8} {e : Log.Error} :
    Accounts (.networkRecv n) (.bytes bytes) (.connection (.log e))
  | unlogged_data {n : Nat} {bytes : List UInt8} {e : Log.Error} (h : bytes ≠ []) :
    Accounts (.appRecv n) (.bytes bytes) (.connection (.log e))
  | unsent {d : List UInt8} : Accounts (.networkSend d) (.sent 0) .nonPositiveSend
  | empty {n : Nat} : Accounts (.appRecv n) (.bytes []) .emptyWrite

/-- **What an answer makes of a stage**: the stage before, the call and the response, and the
connection and the stage after. -/
inductive Passes (c : Connection) : Stage → Call → Response → Connection → Stage → Prop where
  | fails {x : Stage} {call : Call} {r : Response} {d : Connection} {e : Session.Error}
    (why : Accounts call r e) (hstate : d.state = c.state) (hdone : d.done = c.done) :
    Passes c x call r d (.failed e)
  | hears : Passes c .idle (.wait .any) (.event .networkData) c .reading
  | fetches : Passes c .idle (.wait .any) (.event .appData) c .fetching
  | closes {d : Connection} :
    Passes c .idle (.wait .any) (.event .appCloseRequested) d (.sending .fin [])
  | drops {bytes : List UInt8} {s : Segment}
    (hs : Segment.parse (bytes.take receiveCapacity) = .ok s)
    (hf : s.header.control.fin = false) (hp : s.payload = []) :
    Passes c .reading (.networkRecv receiveCapacity) (.bytes bytes) c .idle
  | takes {bytes : List UInt8} {s : Segment} {d : Connection}
    (hs : Segment.parse (bytes.take receiveCapacity) = .ok s)
    (hf : s.header.control.fin = false) (hp : s.payload ≠ []) :
    Passes c .reading (.networkRecv receiveCapacity) (.bytes bytes) d (.delivering .data s.payload)
  | takesFin {bytes : List UInt8} {s : Segment} {d : Connection}
    (hs : Segment.parse (bytes.take receiveCapacity) = .ok s) (hf : s.header.control.fin = true) :
    Passes c .reading (.networkRecv receiveCapacity) (.bytes bytes) d
      (Arrival.peerFin.begin s.payload).2
  | writes {n : Nat} {bytes : List UInt8} {d : Connection} (hn : n = mss.toNat)
    (hp : bytes.take n ≠ []) (hf : d.inFlight = some (UInt32.ofNat (bytes.take n).length)) :
    Passes c .fetching (.appRecv n) (.bytes bytes) d (.sending .data (bytes.take n))
  | awaits {w : Wait} :
    Passes c (.awaiting w) (.wait .networkOnly) (.event .networkData) c (.receiving w)
  | accepts {w : Wait} {bytes : List UInt8} {s : Segment} {d d' : Connection}
    (hs : Segment.parse (bytes.take receiveCapacity) = .ok s)
    (hk : w.kind.accepts s.header.control = true) (ha : c.accept w.kind s = (d', .ok ())) :
    Passes c (.receiving w) (.networkRecv receiveCapacity) (.bytes bytes) d (w.after s.payload).2
  | posts {m : Message} {bytes : List UInt8} {n : Nat} {d : Connection} (hn : n ≠ 0)
    (hd : m ≠ .closeAck → d = c) :
    Passes c (.sending m bytes)
      (.networkSend (c.reissue m.kind (m.payload bytes)).serialize) (.sent n) d (m.after bytes).2
  | hands {a : Arrival} {bytes : List UInt8} {d : Connection} :
    Passes c (.delivering a bytes) (.appSend bytes) .told d (.sending a.message bytes)
  | signals {bytes : List UInt8} {d : Connection} :
    Passes c (.signalling bytes) .finReceived .told d (.sending .lastFin bytes)
  | opens {bytes : List UInt8} : Passes c (.unblocking bytes) .unblock .told c .idle

variable {c₀ c d : Connection} {x y : Stage} {p : Point} {bytes : List UInt8} {call : Call}
  {r : Response}

/-- A datagram that is read as a segment is taken as one. -/
theorem readSegment_of_parse {s : Segment}
    (hs : Segment.parse (bytes.take receiveCapacity) = .ok s) (take : Segment → Turn) :
    readSegment bytes take = take s := by
  rw [readSegment, hs]

/-- A FIN that is read while nothing is awaited is taken in, with its payload. -/
theorem arrival_of_fin {s : Segment} (hf : s.header.control.fin = true) :
    arrival s = prepend [.record s, .apply (.arrived .fin)] (Arrival.peerFin.begin s.payload) :=
  if_pos hf

/-- So is a payload without a FIN. -/
theorem arrival_of_payload {s : Segment} (hf : s.header.control.fin = false) (hp : s.payload ≠ []) :
    arrival s = prepend [.record s, .apply (.arrived .data)] (Arrival.data.begin s.payload) := by
  have hempty : ¬ s.payload.isEmpty = true := by rwa [List.isEmpty_iff]
  rw [arrival, if_neg (by rw [hf]; decide), if_neg hempty]

/-- What has neither is dropped. -/
theorem arrival_of_nothing {s : Segment} (hf : s.header.control.fin = false)
    (hp : s.payload = []) : arrival s = ([], .idle) := by
  rw [arrival, if_neg (by rw [hf]; decide), hp]
  rfl

/-- What a segment makes of a session that reads it while nothing is awaited. -/
theorem passes_of_arrival (h : Stage.reading.Fits c₀ c) {s : Segment}
    (hs : Segment.parse (bytes.take receiveCapacity) = .ok s) :
    Passes c .reading (.networkRecv receiveCapacity) (.bytes bytes) (carry c (arrival s)).1
      (carry c (arrival s)).2 := by
  have hsure : Sure c (arrival s) := sure_arrives (seqLenFits_of_receive hs) (h.1.free rfl)
  rw [hsure.carry_eq]
  unfold arrival
  by_cases hf : s.header.control.fin = true
  · rw [if_pos hf]
    exact .takesFin hs hf
  · rw [if_neg hf]
    rw [Bool.not_eq_true] at hf
    by_cases hp : s.payload = []
    · rw [hp]
      exact .drops hs hf hp
    · have he : s.payload.isEmpty = false := by simpa using hp
      simp only [he, Bool.false_eq_true, if_false, Arrival.begin, prepend]
      exact .takes hs hf hp

/-- What the bytes that the application had make of a session. -/
theorem passes_of_fetch (h : Stage.fetching.Fits c₀ c) {n : Nat} (hn : n = mss.toNat) :
    Passes c .fetching (.appRecv n) (.bytes bytes) (carry c (fetchTurn bytes)).1
      (carry c (fetchTurn bytes)).2 := by
  subst hn
  have hfree : c.Free .established := h.1.free rfl
  have hlen : (bytes.take mss.toNat).length ≤ mss.toNat := by
    rw [List.length_take]
    exact Nat.min_le_left _ _
  obtain ⟨ht, hnil⟩ | ⟨hne, d, e, hs, hc, hst, hd⟩ | ⟨hne, d, s, hs, hc⟩ :=
    fetch_cases hfree bytes
  · -- a full segment is asked for, so that nothing was there
    have hnone : bytes = [] := by
      rcases List.take_eq_nil_iff.1 hnil with hm | hb
      · exact absurd hm (by decide)
      · exact hb
    rw [ht, hnone]
    exact .fails .empty rfl rfl
  · rw [hc]
    obtain ⟨l, rfl⟩ := hfree.data_error hne hlen hs
    have hbytes : bytes ≠ [] := by
      rintro rfl
      exact hne rfl
    exact .fails (.unlogged_data hbytes) (hst.trans hfree.state.symm) (hd.trans hfree.undone.symm)
  · rw [hc]
    obtain ⟨d', e, hs', -⟩ | ⟨d', s', hs', -, -, -, hf⟩ := hfree.data hne hlen <;>
      rw [hs] at hs' <;> cases hs'
    exact .writes rfl hne hf

/-- What an awaited segment makes of a session. -/
theorem passes_of_take {w : Wait} (h : (Stage.receiving w).Fits c₀ c) {s : Segment}
    (hs : Segment.parse (bytes.take receiveCapacity) = .ok s) :
    Passes c (.receiving w) (.networkRecv receiveCapacity) (.bytes bytes) (carry c (w.take s)).1
      (carry c (w.take s)).2 := by
  obtain ⟨d, e, ha, hc⟩ | ⟨d, ha, hk, -, hsure, -⟩ := take_cases h.1 s
  · rw [hc]
    obtain ⟨hst, hd, -⟩ := h.1.balanced.of_accept_error ha
    -- a control bit is missing, or the transfer log refuses the record
    obtain ⟨rfl, hk⟩ | ⟨l, rfl⟩ :=
      h.1.balanced.accept_error h.1.undone (seqLenFits_of_receive hs) ha
    · exact .fails (.unexpected hs hk) hst hd
    · exact .fails .unlogged hst hd
  · rw [hsure.carry_eq]
    exact .accepts hs hk ha

/-- **A session passes on with every answer**, whatever its stack answers. -/
theorem passes_of_answer (h : x.Fits c₀ c) (hp : x.status c = .suspended p)
    (a : (p.call c).Answer) :
    Passes c x (p.call c) (response _ a) (carry c (x.turn (response _ a))).1
      (carry c (x.turn (response _ a))).2 := by
  -- where nothing is received or fetched, the turn leads where it says
  have hsure : (∀ w, x ≠ .receiving w) → x ≠ .fetching → ∀ r,
      carry c (x.turn r) = ((c.attempt (x.turn r).1).1, (x.turn r).2) :=
    fun hr hf r => (sure_turn h hp hr hf r).carry_eq
  cases x with
  | ready | failed | ended => cases hp
  | idle =>
    cases hp
    cases a with
    | error e => exact .fails .stack rfl rfl
    | ok ev =>
      cases ev with
      | networkData => exact .hears
      | appData => exact .fetches
      | appCloseRequested =>
        rw [hsure (by simp) (by simp)]
        exact .closes
      | timeout => exact .fails .timeout rfl rfl
  | reading =>
    cases hp
    cases a with
    | error e => exact .fails .stack rfl rfl
    | ok bytes =>
      simp only [response, Point.call, Stage.turn, readSegment]
      cases hs : Segment.parse (bytes.take receiveCapacity) with
      | error e => exact .fails (.malformed hs) rfl rfl
      | ok s => exact passes_of_arrival h hs
  | fetching =>
    cases hp
    have hfree : c.Free .established := h.1.free rfl
    cases a with
    | error e => exact .fails .stack rfl rfl
    | ok bytes => exact passes_of_fetch h (hfree.balanced.budget_eq hfree.flight)
  | awaiting w =>
    cases hp
    cases a with
    | error e => exact .fails .stack rfl rfl
    | ok ev =>
      cases ev with
      | networkData => exact .awaits
      | _ => exact .fails (.intrusion (by simp)) rfl rfl
  | receiving w =>
    cases hp
    cases a with
    | error e => exact .fails .stack rfl rfl
    | ok bytes =>
      simp only [response, Point.call, Stage.turn, readSegment]
      cases hs : Segment.parse (bytes.take receiveCapacity) with
      | error e => exact .fails (.malformed hs) rfl rfl
      | ok s => exact passes_of_take h hs
  | sending m bytes =>
    cases hp
    cases a with
    | error e => exact .fails .stack rfl rfl
    | ok count =>
      obtain ⟨n, rfl⟩ : ∃ n : Nat, n = count := ⟨count, rfl⟩
      by_cases hn : n = 0
      · subst hn
        exact .fails .unsent rfl rfl
      · have hturn : (Stage.sending m bytes).turn (.sent n) = m.after bytes := if_neg hn
        rw [hsure (by simp) (by simp)]
        simp only [response, Point.call, hturn]
        refine .posts hn fun hm => ?_
        -- only the last acknowledgment ends the connection
        cases m <;> first | exact absurd rfl hm | rfl
  | delivering a' bytes =>
    cases hp
    cases a with
    | error e => exact .fails .stack rfl rfl
    | ok u =>
      rw [hsure (by simp) (by simp)]
      exact .hands
  | signalling bytes =>
    cases hp
    cases a with
    | error e => exact .fails .stack rfl rfl
    | ok u =>
      rw [hsure (by simp) (by simp)]
      exact .signals
  | unblocking bytes =>
    cases hp
    cases a with
    | error e => exact .fails .stack rfl rfl
    | ok u => exact .opens

theorem begin_of_ne_nil (a : Arrival) (hp : bytes ≠ []) :
    a.begin bytes = ([], .delivering a bytes) := by
  cases bytes with
  | nil => exact absurd rfl hp
  | cons b bytes => rfl

/-- A payload is handed to the application, and what comes without one is acknowledged. -/
theorem arrival_begin (a : Arrival) (bytes : List UInt8) :
    (bytes ≠ [] ∧ a.begin bytes = ([], .delivering a bytes)) ∨
      (bytes = [] ∧ a.begin bytes = a.message.begin []) := by
  by_cases hp : bytes = []
  · subst hp
    exact .inr ⟨rfl, rfl⟩
  · exact .inl ⟨hp, begin_of_ne_nil a hp⟩

/-- A stage that a payload leads to has the state in which the payload is acknowledged. -/
theorem state_of_arrival {a : Arrival} (h : (a.begin bytes).2.Fits c₀ c) :
    c.state = a.message.state := by
  obtain ⟨-, hb⟩ | ⟨-, hb⟩ := arrival_begin a bytes <;> rw [hb] at h
  · exact h.1.state
  · cases a <;> exact h.1.state

/-- **An answer leads to a state that follows.** -/
theorem Passes.follows (h : Passes c x call r d y) (hx : x.Fits c₀ c) (hy : y.Fits c₀ d) :
    State.Follows c.state d.state := by
  have hstay : d.state = c.state → State.Follows c.state d.state := fun h => h ▸ .stays
  cases h with
  | fails why hstate => exact hstay hstate
  | hears | fetches | drops | awaits | opens => exact .stays
  | takes | writes | hands => exact hstay (hy.1.state.trans hx.1.state.symm)
  | closes => rw [hx.1.state, hy.1.state]; exact .closes
  | takesFin =>
    rw [hx.1.state, state_of_arrival (a := .peerFin) hy]
    exact .hears
  | signals => rw [hx.1.state, hy.1.state]; exact .replies
  | @posts m bytes n _ hn hd =>
    cases m with
    | closeAck => exact hstay (hy.2.trans hx.1.state.symm)
    | _ => exact hstay (congrArg Connection.state (hd nofun))
  | @accepts w bytes s _ d' hs hk ha =>
    cases w with
    | syn => rw [hx.1.state, hy.1.state]; exact .answers
    | synAck => rw [hx.1.state, hy.1.state]; exact .opens
    | opening => rw [hx.1.state, hy.1.state]; exact .opened
    | data => exact hstay (hy.1.state.trans hx.1.state.symm)
    | fin => rw [hx.1.state, hy.1.state]; exact .halfCloses
    | peerFin => rw [hx.1.state, state_of_arrival (a := .lastFin) hy]; exact .ends
    | lastFin => rw [hx.1.state, hy.2]; exact .endsLast

/-- Whether a session at a stage of a run has released its application. -/
def Stage.isReleased : Stage → Bool
  | .idle | .reading | .fetching | .delivering _ _ | .signalling _ | .ended => true
  | .awaiting w | .receiving w =>
    match w with
    | .data | .fin | .peerFin | .lastFin => true
    | .syn | .synAck | .opening => false
  | .sending m _ =>
    match m with
    | .data | .dataAck | .peerFinAck | .fin | .lastFin | .closeAck => true
    | .syn | .synAck | .openAck => false
  | .ready | .failed _ | .unblocking _ => false

/-- **An application is released** by the call that is meant to, and by no other. -/
theorem Passes.released (h : Passes c x call r d y) (hy : y.isReleased = true) :
    x.isReleased = true ∨ (call = .unblock ∧ r = .told) := by
  cases h with
  | opens => exact .inr ⟨rfl, rfl⟩
  | @posts m => cases m <;> first | exact .inl rfl | cases hy
  | @awaits w => exact .inl hy
  | @accepts w => cases w <;> first | exact .inl rfl | cases hy
  | fails => cases hy
  | _ => exact .inl rfl

/-- A connection that opens sends its SYN, or waits for one. -/
theorem carry_opening (h : c.Free .listen) :
    (c.role = .active ∧ (carry c (opening c.role)).2 = .sending .syn []) ∨
    (c.role = .passive ∧ (carry c (opening c.role)).2 = .awaiting .syn) := by
  cases hr : c.role with
  | active =>
    have hsure : Sure c (opening .active) :=
      sure_apply h.undone (by rw [h.state]; rfl) (sure_begin h.move nofun)
    exact .inl ⟨rfl, by rw [hsure.carry_eq]; rfl⟩
  | passive =>
    have hsure : Sure c (prepend [.apply (.start .passive)] ([], .awaiting .syn)) :=
      sure_apply h.undone (by rw [h.state]; rfl) (sure_nil _ _)
    exact .inr ⟨rfl, congrArg Prod.snd hsure.carry_eq⟩

end Session

end StopWait
