import StopWait.Proofs.Free
import StopWait.Session

/-!
# Stages of a session

What a session is in the middle of, as data. A stage says which call the session waits on, and each
response of the stack has a turn: the operations that the connection goes through, and the stage
that they lead to.

* `Stage.turn`, `opening`: what a response and the beginning of a run lead to.
* `Stage.status`: what a session at a stage waits on.
* `Stage.Fits`: the connections that a session has at a stage.
-/

namespace StopWait.Session

open Connection (Op)

/-- What a stack has responded to a call. -/
inductive Response where
  | failed (e : Call.Failure)
  | event (e : Event)
  | sent (count : Nat)
  | bytes (bytes : List UInt8)
  | told
deriving DecidableEq, Repr

/-- The response that an answer is. -/
def response : (c : Call) → c.Answer → Response
  | _, .error e => .failed e
  | .wait _, .ok e => .event e
  | .networkSend _, .ok n => .sent n
  | .networkRecv _, .ok bytes => .bytes bytes
  | .appRecv _, .ok bytes => .bytes bytes
  | .appSend _, .ok () => .told
  | .finReceived, .ok () => .told
  | .unblock, .ok () => .told

/-- What a segment is awaited for. -/
inductive Wait where
  | syn
  | synAck
  /-- The acknowledgment of our SYN,ACK. -/
  | opening
  /-- The acknowledgment of our data. -/
  | data
  /-- The acknowledgment of our FIN, which is the first one. -/
  | fin
  /-- The FIN that answers ours. -/
  | peerFin
  /-- The acknowledgment of our FIN, which answers the peer's. -/
  | lastFin
deriving DecidableEq, Repr

/-- The kind of segment awaited. -/
def Wait.kind : Wait → Kind
  | .syn => .syn
  | .synAck => .synAck
  | .peerFin => .fin
  | .opening | .data | .fin | .lastFin => .ack

/-- The state in which a segment is awaited. -/
def Wait.state : Wait → State
  | .syn => .listen
  | .synAck => .synSent
  | .opening => .synReceived
  | .data => .established
  | .fin => .finWait1
  | .peerFin => .finWait2
  | .lastFin => .lastAck

/-- What a segment is sent for. -/
inductive Message where
  | syn
  | synAck
  /-- The acknowledgment of the SYN,ACK. -/
  | openAck
  | data
  /-- The acknowledgment of data. -/
  | dataAck
  /-- The acknowledgment of a FIN that came before ours. -/
  | peerFinAck
  /-- Our FIN, the first one. -/
  | fin
  /-- Our FIN, which answers the peer's. -/
  | lastFin
  /-- The acknowledgment of the FIN that answered ours. -/
  | closeAck
deriving DecidableEq, Repr

namespace Message

/-- The kind of segment sent. -/
def kind : Message → Kind
  | .syn => .syn
  | .synAck => .synAck
  | .data => .data
  | .fin | .lastFin => .fin
  | .openAck | .dataAck | .peerFinAck | .closeAck => .ack

/-- The state in which a segment is sent. -/
def state : Message → State
  | .syn => .synSent
  | .synAck => .synReceived
  | .openAck | .data | .dataAck => .established
  | .peerFinAck => .closeWait
  | .fin => .finWait1
  | .lastFin => .lastAck
  | .closeAck => .closed

/-- What is left to do of the transition that sends a segment. -/
def rest : Message → List Action × FollowUp
  | .syn => ([], .await .synAck)
  | .openAck => ([.unblock], .rest)
  | .peerFinAck => ([.signalPeerFin], .close)
  | .dataAck | .closeAck => ([], .rest)
  | .synAck | .data | .fin | .lastFin => ([], .await .ack)

/-- The payload of the segment sent. Only data takes one along. -/
def payload (m : Message) (bytes : List UInt8) : List UInt8 := if m = .data then bytes else []

/-- What is left to do after the segment was sent. -/
def todo (m : Message) (bytes : List UInt8) : Todo :=
  ⟨if m = .data then [] else bytes, m.rest.1, m.rest.2⟩

end Message

/-- What brought a payload that the application is to be handed. -/
inductive Arrival where
  | data
  /-- A FIN that came before ours. -/
  | peerFin
  /-- The FIN that answered ours. -/
  | lastFin
deriving DecidableEq, Repr

/-- The acknowledgment of what arrived. -/
def Arrival.message : Arrival → Message
  | .data => .dataAck
  | .peerFin => .peerFinAck
  | .lastFin => .closeAck

/-- What a session is in the middle of. -/
inductive Stage where
  /-- It has not been run. -/
  | ready
  /-- Its last run failed. -/
  | failed (e : Session.Error)
  /-- Its last run brought the connection to its end. -/
  | ended
  /-- It waits for anything. -/
  | idle
  /-- It reads the datagram announced while idle. -/
  | reading
  /-- It reads the bytes that the application announced. -/
  | fetching
  | awaiting (w : Wait)
  | receiving (w : Wait)
  | sending (m : Message) (bytes : List UInt8)
  | delivering (a : Arrival) (bytes : List UInt8)
  | signalling (bytes : List UInt8)
  | unblocking (bytes : List UInt8)
deriving DecidableEq, Repr

/-- Operations on the connection and the stage that they lead to. -/
abbrev Turn : Type := List Op × Stage

/-- Puts operations before a turn. -/
def prepend (ops : List Op) (t : Turn) : Turn := (ops ++ t.1, t.2)

/-- Builds a segment and sends it. -/
def Message.begin (m : Message) (bytes : List UInt8) : Turn :=
  ([.segment m.kind (m.payload bytes)], .sending m bytes)

/-- Hands a payload to the application, if there is any, and acknowledges what brought it. -/
def Arrival.begin (a : Arrival) (bytes : List UInt8) : Turn :=
  if bytes.isEmpty then a.message.begin bytes else ([], .delivering a bytes)

/-- What comes after a segment was sent. -/
def Message.after (m : Message) (bytes : List UInt8) : Turn :=
  match m with
  | .syn => ([], .awaiting .synAck)
  | .synAck => ([], .awaiting .opening)
  | .openAck => ([], .unblocking bytes)
  | .data => ([], .awaiting .data)
  | .dataAck => ([], .idle)
  | .peerFinAck => ([], .signalling bytes)
  | .fin => ([], .awaiting .fin)
  | .lastFin => ([], .awaiting .lastFin)
  | .closeAck => ([.finish], .ended)

/-- What comes after an awaited segment was taken in. -/
def Wait.after (w : Wait) (bytes : List UInt8) : Turn :=
  match w with
  | .syn => Message.synAck.begin bytes
  | .synAck => Message.openAck.begin bytes
  | .opening => ([], .unblocking bytes)
  | .data => ([], .idle)
  | .fin => ([], .awaiting .peerFin)
  | .peerFin => Arrival.lastFin.begin bytes
  | .lastFin => ([.finish], .ended)

/-- Takes in a segment that was awaited. -/
def Wait.take (w : Wait) (s : Segment) : Turn :=
  prepend [.accept w.kind s, .apply (.arrived w.kind)] (w.after s.payload)

/-- Takes in a segment that arrived while nothing was awaited. -/
def arrival (s : Segment) : Turn :=
  if s.header.control.fin then
    prepend [.record s, .apply (.arrived .fin)] (Arrival.peerFin.begin s.payload)
  else if s.payload.isEmpty then ([], .idle)
  else prepend [.record s, .apply (.arrived .data)] (Arrival.data.begin s.payload)

/-- Reads a datagram as a segment. -/
def readSegment (bytes : List UInt8) (take : Segment → Turn) : Turn :=
  match Segment.parse (bytes.take receiveCapacity) with
  | .error e => ([], .failed (.parse e))
  | .ok s => take s

/-- What an event while idle leads to. -/
def idleTurn : Event → Turn
  | .networkData => ([], .reading)
  | .appData => ([], .fetching)
  | .appCloseRequested => prepend [.apply .close] (Message.fin.begin [])
  | .timeout => ([], .failed (.unexpectedEvent .timeout))

/-- What the bytes that the application had lead to. -/
def fetchTurn (bytes : List UInt8) : Turn :=
  let payload := bytes.take mss.toNat
  if payload.isEmpty then ([], .failed .emptyWrite)
  else prepend [.apply .write] (Message.data.begin payload)

/-- What an event leads to while a segment is awaited. -/
def Wait.announced (w : Wait) : Event → Turn
  | .networkData => ([], .receiving w)
  | e => ([], .failed (.unexpectedEvent e))

/-- **The turn of a response.** A response that does not fit the call has none. -/
def Stage.turn : Stage → Response → Turn
  | _, .failed e => ([], .failed (.stack e))
  | .idle, .event e => idleTurn e
  | .reading, .bytes bytes => readSegment bytes arrival
  | .fetching, .bytes bytes => fetchTurn bytes
  | .awaiting w, .event e => w.announced e
  | .receiving w, .bytes bytes => readSegment bytes w.take
  | .sending m bytes, .sent n => if n = 0 then ([], .failed .nonPositiveSend) else m.after bytes
  | .delivering a bytes, .told => a.message.begin bytes
  | .signalling bytes, .told => prepend [.apply .close] (Message.lastFin.begin bytes)
  | .unblocking _, .told => ([], .idle)
  | x, _ => ([], x)

/-- The beginning of a run. -/
def opening : Role → Turn
  | .active => prepend [.apply (.start .active)] (Message.syn.begin [])
  | .passive => ([.apply (.start .passive)], .awaiting .syn)

/-- What a turn makes of a connection, and where it ends: where it leads, unless an operation
fails. -/
def carry (c : Connection) (t : Turn) : Connection × Stage :=
  match c.attempt t.1 with
  | (d, none) => (d, t.2)
  | (d, some e) => (d, .failed (.connection e))

/-- The status of a session at a stage, with its connection. -/
def Stage.status (c : Connection) : Stage → Status
  | .ready => .ready
  | .failed e => .returned (.error e)
  | .ended => .returned (.ok ())
  | .idle => .suspended .idle
  | .reading => .suspended .reading
  | .fetching => .suspended .fetching
  | .awaiting w => .suspended (.awaiting w.kind)
  | .receiving w => .suspended (.receiving w.kind)
  | .sending m bytes =>
    .suspended (.sending (c.reissue m.kind (m.payload bytes)) (m.todo bytes))
  | .delivering a bytes =>
    .suspended (.delivering ⟨bytes, .send .ack :: a.message.rest.1, a.message.rest.2⟩)
  | .signalling bytes => .suspended (.signalling ⟨bytes, [], .close⟩)
  | .unblocking bytes => .suspended (.unblocking ⟨bytes, [], .rest⟩)

/-- The session that has a connection and is at a stage. -/
def staged (y : Connection × Stage) : Session := ⟨y.1, y.2.status y.1⟩

/-- Whether a data segment is on its way at a stage. -/
def Stage.flies : Stage → Bool
  | .awaiting .data | .receiving .data | .sending .data _ => true
  | _ => false

/-- Whether a session at a stage is not in the middle of a run. -/
def Stage.rests : Stage → Bool
  | .ready | .failed _ | .ended => true
  | _ => false

theorem Stage.status_of_rests {x : Stage} (h : x.rests = false) (c : Connection) :
    ∃ p, x.status c = .suspended p := by
  cases x <;> first | exact ⟨_, rfl⟩ | cases h

theorem Stage.rests_of_suspended {x : Stage} {c : Connection} {p : Point}
    (hp : x.status c = .suspended p) : x.rests = false := by
  cases x <;> first | rfl | cases hp

/-- The state of a connection at a stage of a run. -/
def Stage.state : Stage → State
  | .awaiting w | .receiving w => w.state
  | .sending m _ => m.state
  | .delivering a _ => a.message.state
  | .signalling _ => .closeWait
  | .idle | .reading | .fetching | .unblocking _ => .established
  | .ready | .failed _ => .listen
  | .ended => .closed

/-- Whether a stage has a payload that it may have. -/
def Stage.Sound : Stage → Prop
  | .sending .data bytes => bytes ≠ [] ∧ bytes.length ≤ mss.toNat
  | .delivering _ bytes => bytes ≠ []
  | _ => True

/-- **The connection of a session in the middle of a run.** -/
structure Stage.Live (x : Stage) (c : Connection) : Prop where
  state : c.state = x.state
  undone : c.done = false
  balanced : c.Balanced
  flight : c.inFlight.isSome = x.flies
  sound : x.Sound

/-- **The connections at a stage**, for a session whose connection was `c₀` at first. In LISTEN it
still is. -/
def Stage.Fits (c₀ : Connection) : Stage → Connection → Prop
  | .ready, c => c = c₀
  | .failed _, c => c = c₀ ∨ c.state ≠ .listen
  | .ended, c => c.done = true ∧ c.state = .closed
  | x, c => x.Live c ∧ (c.state = .listen → c = c₀)

theorem Stage.Fits.live {c₀ c : Connection} {x : Stage} {p : Point} (hx : x.Fits c₀ c)
    (hp : x.status c = .suspended p) : x.Live c := by
  cases x with
  | ready | failed | ended => cases hp
  | _ => exact hx.1

/-- In LISTEN, the connection is the one of the beginning. -/
theorem Stage.Fits.eq_of_listen {c₀ c : Connection} {x : Stage} (hx : x.Fits c₀ c)
    (hl : c.state = .listen) : c = c₀ := by
  cases x with
  | ready => exact hx
  | failed e => exact hx.resolve_right (not_not_intro hl)
  | ended => cases hx.2.symm.trans hl
  | _ => exact hx.2 hl

end StopWait.Session
