import StopWait.Lifecycle

/-!
# Settings

The settings of one end of a connection, and where its transfer log is written.
-/

namespace StopWait

/-- The settings of one end of a connection. -/
structure Settings where
  /-- The initial sequence number. -/
  iss : UInt32 := 1
  /-- The source port of every segment. -/
  localPort : UInt16 := 0
  /-- The destination port of every segment. A passive end left at zero takes the source port of
  the SYN that arrives. -/
  remotePort : UInt16 := 0
  /-- Where the transfer log goes, if it is written. -/
  logPath : Option String := none
deriving DecidableEq, Repr

/-- The conventional file name of a side's transfer log. -/
def Role.logName : Role → String
  | .active => "client_log.txt"
  | .passive => "server_log.txt"

/-- Sends the transfer log to the conventional file of the role. -/
def Settings.withDefaultLog (c : Settings) (role : Role) : Settings :=
  { c with logPath := some role.logName }

end StopWait
