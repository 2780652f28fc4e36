import StopWait.Segment

/-!
# The state machine

The states of a connection and the transitions between them: a three-way open, data both ways, and
a close started by either side. There is no simultaneous open or close, no reset, and no waiting
after the close.

A transition names the next state, the actions to perform in order, and what follows them: nothing,
a wait for a segment of some kind, or a close of our own.
-/

namespace StopWait

/-- Which side of a connection opened it. -/
inductive Role where
  /-- Sends the SYN. -/
  | active
  /-- Waits for a SYN. -/
  | passive
deriving DecidableEq, Repr

/-- The name of a role. -/
def Role.name : Role → String
  | .active => "Active"
  | .passive => "Passive"

/-- The states of a connection. No transition enters `closing`. -/
inductive State where
  | listen
  | synSent
  | synReceived
  | established
  | finWait1
  | finWait2
  | closeWait
  | closing
  | lastAck
  | closed
deriving DecidableEq, Repr

/-- The name of a state. -/
def State.name : State → String
  | .listen => "LISTEN"
  | .synSent => "SYN-SENT"
  | .synReceived => "SYN-RECEIVED"
  | .established => "ESTABLISHED"
  | .finWait1 => "FIN-WAIT-1"
  | .finWait2 => "FIN-WAIT-2"
  | .closeWait => "CLOSE-WAIT"
  | .closing => "CLOSING"
  | .lastAck => "LAST-ACK"
  | .closed => "CLOSED"

/-- What moves the state machine. -/
inductive Trigger where
  /-- Begin the opening handshake. -/
  | start (role : Role)
  /-- The application has data to send. -/
  | write
  /-- A segment arrived. For an awaited segment this is the awaited kind. -/
  | arrived (kind : Kind)
  /-- Close our half of the connection. -/
  | close
deriving DecidableEq, Repr

/-- The name of a trigger. -/
def Trigger.name : Trigger → String
  | .start role => s!"Open({role.name})"
  | .write => "Write"
  | .arrived kind => s!"Arrived({kind.name})"
  | .close => "Close"

/-- An effect of a transition. -/
inductive Action where
  /-- Transmit a segment of this kind. -/
  | send (kind : Kind)
  /-- Hand the payload of the segment that arrived to the application. -/
  | deliver
  /-- Tell the application that the peer will send no more. -/
  | signalPeerFin
  /-- Release an application that waits for the connection to open. -/
  | unblock
deriving DecidableEq, Repr

/-- What comes after the actions of a transition. -/
inductive FollowUp where
  /-- Nothing: the transition is complete. -/
  | rest
  /-- Wait for a segment that will do as this kind, then take it as having arrived. -/
  | await (kind : Kind)
  /-- Close our half at once. -/
  | close
deriving DecidableEq, Repr

/-- The outcome of a trigger. -/
structure Transition where
  /-- The state after it. -/
  next : State
  /-- The effects to perform, in order. -/
  actions : List Action
  /-- What to do then. -/
  followUp : FollowUp
deriving DecidableEq, Repr

/-- The name of an action. -/
def Action.name : Action → String
  | .send kind => s!"Send({kind.name})"
  | .deliver => "Deliver"
  | .signalPeerFin => "SignalPeerFin"
  | .unblock => "Unblock"

/-- The name of a follow-up, if there is anything to do. -/
def FollowUp.names : FollowUp → List String
  | .rest => []
  | .await kind => [s!"Await({kind.name})"]
  | .close => ["Close"]

/-- Everything a transition asks for, by name and in order. -/
def Transition.names (t : Transition) : List String :=
  t.actions.map Action.name ++ t.followUp.names

/-- A trigger that the current state does not take. -/
structure Refusal where
  /-- The state. -/
  state : State
  /-- The trigger. -/
  trigger : Trigger
deriving DecidableEq, Repr

namespace Refusal

/-- The wording of the error. -/
def message (e : Refusal) : String :=
  s!"No transition from {e.state.name} on {e.trigger.name}"

/-- Whether our own application is to blame rather than the peer: every trigger but an arriving
segment is its doing. -/
def blamesCaller (e : Refusal) : Bool :=
  match e.trigger with
  | .arrived _ => false
  | _ => true

end Refusal

namespace State

/-- The transition of a state on a trigger, if it has one. -/
def transition? : State → Trigger → Option Transition
  | .listen, .start .active => some ⟨.synSent, [.send .syn], .await .synAck⟩
  | .listen, .start .passive => some ⟨.listen, [], .await .syn⟩
  | .listen, .arrived .syn => some ⟨.synReceived, [.send .synAck], .await .ack⟩
  | .synSent, .arrived .synAck => some ⟨.established, [.send .ack, .unblock], .rest⟩
  | .synReceived, .arrived .ack => some ⟨.established, [.unblock], .rest⟩
  | .established, .write => some ⟨.established, [.send .data], .await .ack⟩
  | .established, .arrived .ack => some ⟨.established, [], .rest⟩
  | .established, .arrived .data => some ⟨.established, [.deliver, .send .ack], .rest⟩
  | .established, .arrived .fin =>
    some ⟨.closeWait, [.deliver, .send .ack, .signalPeerFin], .close⟩
  | .closeWait, .close => some ⟨.lastAck, [.send .fin], .await .ack⟩
  | .lastAck, .arrived .ack => some ⟨.closed, [], .rest⟩
  | .established, .close => some ⟨.finWait1, [.send .fin], .await .ack⟩
  | .finWait1, .arrived .ack => some ⟨.finWait2, [], .await .fin⟩
  | .finWait2, .arrived .fin => some ⟨.closed, [.deliver, .send .ack], .rest⟩
  | _, _ => none

/-- The transition of a state on a trigger, or an error that names both. -/
def on (s : State) (t : Trigger) : Except Refusal Transition :=
  match s.transition? t with
  | some r => .ok r
  | none => .error ⟨s, t⟩

/-- A close never asks for another close. -/
theorem followUp_of_close {s : State} {r : Transition} (h : s.on .close = .ok r) :
    r.followUp ≠ .close := by
  cases s <;> simp [on, transition?] at h <;> subst h <;> simp

/-- The state after each of a list of triggers together with what the trigger did. A rejected
trigger leaves the state as it was. -/
def walk (s : State) : List Trigger → List (Except Refusal Transition)
  | [] => []
  | t :: ts =>
    match s.on t with
    | .ok r => .ok r :: walk r.next ts
    | .error e => .error e :: walk s ts

end State

end StopWait
