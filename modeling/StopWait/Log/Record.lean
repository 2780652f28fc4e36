import StopWait.Text.Numeral

/-!
# Transfer log records

A transfer log has one line for each data segment sent and one for each acknowledged. A line has
four columns, separated by tabs: the direction, the send window, the remainder before the event,
and the number of bytes.
-/

namespace StopWait.Log

/-- What a record is about. -/
inductive Direction where
  /-- A data segment was sent. -/
  | send
  /-- A data segment was acknowledged. -/
  | recv
deriving DecidableEq, Repr

/-- The first column of a line. -/
def Direction.label : Direction → String
  | .send => "Send:"
  | .recv => "Recv:"

/-- The first column of a line, in bytes. -/
def Direction.bytes : Direction → List UInt8
  | .send => [83, 101, 110, 100, 58]
  | .recv => [82, 101, 99, 118, 58]

/-- A line of a transfer log. -/
structure Record where
  /-- What happened. -/
  direction : Direction
  /-- The send window. -/
  swnd : UInt32
  /-- The remainder before the event. -/
  remainder : UInt32
  /-- The bytes sent or acknowledged. -/
  bytes : UInt32
deriving DecidableEq, Repr

/-- The columns of a line. -/
def Record.columns (r : Record) : List (List UInt8) :=
  [r.direction.bytes, Text.decimal r.swnd.toNat, Text.decimal r.remainder.toNat,
    Text.decimal r.bytes.toNat]

/-- The number of columns. -/
def Record.width : Nat := 4

theorem Record.length_columns (r : Record) : r.columns.length = Record.width := rfl

/-- The bytes of a line, its newline included. -/
def Record.line (r : Record) : List UInt8 := List.intercalate [9] r.columns ++ [10]

end StopWait.Log
