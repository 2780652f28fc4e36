import StopWait.Log.Audit
import StopWait.Log.Writer
import StopWait.Text.Blank
import StopWait.Text.Delimited
import StopWait.Text.Numeral
import StopWait.Text.Utf8

/-!
# Reading a transfer log

Reads the rows of a text as records. Every row must have as many fields as the first; the fields
are trimmed, and those after the fourth are not looked at. The first fault ends the reading and is
reported with the index of the record and the position at which the search for its row began.
-/

namespace StopWait.Log

open Text (Row Position NumeralError)

/-- What is wrong with a row. -/
inductive RowFault where
  /-- It has this many fields, and the first row has that many. -/
  | unequalLengths (fields expected : Nat)
  /-- A field is not UTF-8 from this byte on. -/
  | notUtf8 (field validUpTo : Nat)
  /-- Its first field is no direction. -/
  | unknownDirection (label : String)
  /-- It has this many fields, fewer than four. -/
  | missingFields (fields : Nat)
  /-- A field is no 32-bit number. -/
  | badNumber (field : Nat) (e : NumeralError)
deriving DecidableEq, Repr

/-- The wording of a fault in the record with the given index. -/
def RowFault.message (index : Nat) (start : Position) : RowFault → String
  | .unequalLengths n m =>
    s!"CSV error: record {index} (line: {start.line}, byte: {start.byte}): " ++
      s!"found record with {n} fields, but the previous record has {m} fields"
  | .notUtf8 f v =>
    s!"CSV parse error: record {index} (line {start.line}, field: {f}, byte: {start.byte}): " ++
      s!"invalid utf-8: invalid UTF-8 in field {f} near byte index {v}"
  | .unknownDirection label =>
    s!"CSV deserialize error: record {index} (line: {start.line}, byte: {start.byte}): " ++
      "unknown variant \x60" ++ label ++ "\x60, expected \x60Send:\x60 or \x60Recv:\x60"
  | .missingFields n =>
    s!"CSV deserialize error: record {index} (line: {start.line}, byte: {start.byte}): " ++
      s!"invalid length {n}, expected struct LogRecord with 4 elements"
  | .badNumber f e =>
    s!"CSV deserialize error: record {index} (line: {start.line}, byte: {start.byte}): " ++
      s!"field {f}: {e.message}"

/-- The text of a field, without the white space at its ends. -/
def fieldText (index : Nat) (bytes : List UInt8) : Except RowFault (List Char) :=
  match Text.decodeUtf8 (Text.trimBy Text.isAsciiBlank bytes) with
  | .error v => .error (.notUtf8 index v)
  | .ok cs => .ok (Text.trimBy Text.isBlank cs)

/-- The texts of the fields from the field `index` on. -/
def fieldTexts (index : Nat) : List (List UInt8) → Except RowFault (List (List Char))
  | [] => .ok []
  | f :: fs => do
    let t ← fieldText index f
    let ts ← fieldTexts (index + 1) fs
    return t :: ts

/-- The direction that a field names. -/
def readDirection (cs : List Char) : Except RowFault Direction :=
  if cs = Direction.send.label.toList then .ok .send
  else if cs = Direction.recv.label.toList then .ok .recv
  else .error (.unknownDirection (String.ofList cs))

/-- The number in a field of a row. -/
def readNumber (fields : List (List Char)) (index : Nat) : Except RowFault UInt32 :=
  match fields[index]? with
  | none => .error (.missingFields fields.length)
  | some cs =>
    match Text.readWord cs with
    | .ok n => .ok n
    | .error e => .error (.badNumber index e)

/-- The record that a row holds, where the first row has `width` fields. -/
def readRow (width : Nat) (row : Row) : Except RowFault Record :=
  if row.fields.length ≠ width then .error (.unequalLengths row.fields.length width)
  else do
    let fields ← fieldTexts 0 row.fields
    let direction ← readDirection (fields.headD [])
    let swnd ← readNumber fields 1
    let remainder ← readNumber fields 2
    let bytes ← readNumber fields 3
    return ⟨direction, swnd, remainder, bytes⟩

/-- The records of the rows from the record `index` on. -/
def readRows (width index : Nat) : List Row → Except Error (List Record)
  | [] => .ok []
  | row :: rows =>
    match readRow width row with
    | .error e => .error (.malformed (e.message index row.start))
    | .ok r =>
      match readRows width (index + 1) rows with
      | .error e => .error e
      | .ok rs => .ok (r :: rs)

/-- The records of a transfer log. -/
def read (bytes : List UInt8) : Except Error (List Record) :=
  match Text.rows bytes with
  | [] => .ok []
  | row :: rows => readRows row.fields.length 0 (row :: rows)

end StopWait.Log
