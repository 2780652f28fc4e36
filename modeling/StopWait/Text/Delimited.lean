/-!
# Tab-delimited rows

Splits a byte string into rows of fields. Tabs separate fields; LF, CR and CRLF end rows; empty
lines are skipped. A field that begins with a quote runs to the matching quote, and a doubled quote
inside it stands for one; elsewhere a quote is an ordinary byte. A byte order mark at the front is
skipped.

Each row knows the position at which the search for it began: the byte offset and line number just
after the end of the row before it, where only LF counts as a line. The LF of a CRLF belongs to
the search for the next row.
-/

namespace StopWait.Text

/-- A place in a text. -/
structure Position where
  /-- The number of bytes before it. -/
  byte : Nat
  /-- The number of its line, from one. -/
  line : Nat
deriving DecidableEq, Repr

/-- The position after one more byte. -/
def Position.after (p : Position) (b : UInt8) : Position :=
  ⟨p.byte + 1, if b = 10 then p.line + 1 else p.line⟩

/-- A row. -/
structure Row where
  /-- Its fields. -/
  fields : List (List UInt8)
  /-- Where the search for it began. -/
  start : Position
deriving DecidableEq, Repr

/-- Where a scanner stands. -/
inductive ScanMode where
  /-- Before a row. -/
  | betweenRows
  /-- Before a row, right after a CR. -/
  | afterCR
  /-- At the start of a field. -/
  | fieldStart
  /-- Inside a plain field. -/
  | plain
  /-- Inside a quoted field. -/
  | quoted
  /-- After a quote inside a quoted field. -/
  | quoteSeen
deriving DecidableEq, Repr

/-- A scanner between two bytes. Lists are kept latest first. -/
structure Scanner where
  /-- Where it stands. -/
  mode : ScanMode := .betweenRows
  /-- The current field. -/
  field : List UInt8 := []
  /-- The finished fields of the current row. -/
  fields : List (List UInt8) := []
  /-- The finished rows. -/
  rows : List Row := []
  /-- The current position. -/
  position : Position
  /-- Where the search for the current row began. -/
  start : Position
deriving DecidableEq, Repr

namespace Scanner

/-- Adds a byte to the current field. -/
def keep (s : Scanner) (mode : ScanMode) (b : UInt8) : Scanner :=
  { s with mode, field := b :: s.field }

/-- Ends the current field. -/
def endField (s : Scanner) : Scanner :=
  { s with mode := .fieldStart, field := [], fields := s.field.reverse :: s.fields }

/-- Ends the current row. -/
def endRow (s : Scanner) (mode : ScanMode) : Scanner :=
  let s := s.endField
  { s with
    mode, fields := []
    rows := ⟨s.fields.reverse, s.start⟩ :: s.rows
    start := s.position }

/-- Takes a byte outside quotes, inside or right after a field. -/
def takePlain (s : Scanner) (b : UInt8) : Scanner :=
  if b = 9 then s.endField
  else if b = 10 then s.endRow .betweenRows
  else if b = 13 then s.endRow .afterCR
  else s.keep .plain b

/-- Takes a byte at the start of a field. -/
def takeFirst (s : Scanner) (b : UInt8) : Scanner :=
  if b = 34 then { s with mode := .quoted } else s.takePlain b

/-- Takes a byte at the start of a row, where line ends are skipped. -/
def takeRowStart (s : Scanner) (b : UInt8) : Scanner :=
  if b = 10 ∨ b = 13 then { s with mode := .betweenRows } else s.takeFirst b

/-- Takes a byte. -/
def take (s : Scanner) (b : UInt8) : Scanner :=
  let s := { s with position := s.position.after b }
  match s.mode with
  | .betweenRows => s.takeRowStart b
  | .afterCR => if b = 10 then { s with mode := .betweenRows } else s.takeRowStart b
  | .fieldStart => s.takeFirst b
  | .plain => s.takePlain b
  | .quoted => if b = 34 then { s with mode := .quoteSeen } else s.keep .quoted b
  | .quoteSeen => if b = 34 then s.keep .quoted b else s.takePlain b

/-- The rows of a scanner at the end of the text. A row that has begun ends there. -/
def finish (s : Scanner) : List Row :=
  match s.mode with
  | .betweenRows | .afterCR => s.rows.reverse
  | _ => (s.endRow .betweenRows).rows.reverse

end Scanner

/-- The byte order mark. -/
def byteOrderMark : List UInt8 := [0xEF, 0xBB, 0xBF]

/-- The rows of a text. -/
def rows (bytes : List UInt8) : List Row :=
  let origin : Position := ⟨0, 1⟩
  if byteOrderMark.isPrefixOf bytes then
    let s : Scanner := { position := ⟨3, 1⟩, start := origin }
    ((bytes.drop 3).foldl Scanner.take s).finish
  else
    let s : Scanner := { position := origin, start := origin }
    (bytes.foldl Scanner.take s).finish

end StopWait.Text
