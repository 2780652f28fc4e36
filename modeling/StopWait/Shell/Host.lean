import StopWait.Call
import StopWait.Shell.Address

/-!
# A host without interfaces

What becomes of sockets on a host whose only interface is a loopback that is down, and on which any
address of four bytes counts as local. An address of eight groups that begins with the mapping mark
stands for one of four bytes.

* `Host.bindFault`: why an address cannot be bound.
* `Host.sendFault`: why a datagram cannot be sent. One to four zero bytes can, and is lost.
-/

namespace StopWait.Shell.Host

/-- The four bytes that an address is or stands for. -/
def fourBytes? : Address → Option (List Nat)
  | .v4 bytes _ => some bytes
  | .v6 [0, 0, 0, 0, 0, 0xffff, a, b] _ _ => some [a / 256, a % 256, b / 256, b % 256]
  | .v6 _ _ _ => none

/-- Whether every group of an address is zero. -/
def isUnspecified : Address → Bool
  | .v4 bytes _ => bytes.all (· == 0)
  | .v6 groups _ _ => groups.all (· == 0)

/-- Whether an address of eight groups with this first group goes to many hosts. -/
def isMulticast (group : Nat) : Bool := 0xff00 ≤ group

/-- Whether an address of eight groups with this first group means nothing without a scope: it is
local to a link, or goes to many hosts on one link or interface. -/
def needsScope (group : Nat) : Bool :=
  (0xfe80 ≤ group && group < 0xfec0) ||
    (isMulticast group && (group % 16 == 1 || group % 16 == 2))

/-- The number of the loopback. -/
def loopback : Nat := 1

/-- The failure of a send that finds no way. -/
def unreachable : Call.Failure := .io "Network is unreachable (os error 101)"

/-- Why an address cannot be bound, if so. -/
def bindFault (a : Address) : Option Call.Failure :=
  match a with
  | .v4 _ _ => none
  | .v6 groups scope _ =>
    let first := groups.headD 0
    if (fourBytes? a).isSome || isUnspecified a then none
    else if needsScope first && scope == 0 then some (.io "Invalid argument (os error 22)")
    else if needsScope first && scope != loopback then some (.io "No such device (os error 19)")
    else if isMulticast first then none
    else some (.io "Cannot assign requested address (os error 99)")

/-- Whether a socket with this address may send to addresses of four bytes. -/
def reachesFour (bind : Address) : Bool := (fourBytes? bind).isSome || isUnspecified bind

/-- Whether a socket with this address leaves the address it sends from open. One of four bytes
gives it up where the peer's address is zeros. -/
def leavesOpen : Address → Bool
  | .v4 _ _ => true
  | a => isUnspecified a || fourBytes? a == some [0, 0, 0, 0]

/-- Why a datagram cannot be sent from one address to another, if so. -/
def sendFault (bind peer : Address) : Option Call.Failure :=
  match bind, peer with
  | .v4 _ _, .v6 _ _ _ => some (.io "Address family not supported by protocol (os error 97)")
  | _, _ =>
    match fourBytes? peer with
    | some bytes =>
      if !reachesFour bind then some unreachable
      else if peer.port = 0 then some (.io "Invalid argument (os error 22)")
      else if bytes = [0, 0, 0, 0] && leavesOpen bind then none
      else some unreachable
    | none =>
      if peer.port = 0 then some (.io "Invalid argument (os error 22)")
      else if (fourBytes? bind).isSome then some unreachable
      else some (.io "Cannot assign requested address (os error 99)")

end StopWait.Shell.Host
