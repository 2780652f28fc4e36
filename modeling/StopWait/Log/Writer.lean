import StopWait.Log.Record

/-!
# Writing a transfer log

A writer gathers bytes in a buffer of 8192 and offers all of them to its sink in one write call: at
the end of each line, and in the middle of one when the buffer is full. A sink takes a write call
whole or refuses it. What was refused stays in the buffer and goes out first with the next call;
closing the writer offers it once more. A refusal in the middle of a line leaves the line where it
broke off, and the columns of the next record are added to it.

* `Writer.record` writes a record.
* `offered_put`: what is put reaches the sink or the buffer, and nothing else does.
* `record_of_room`: while the buffer has room, a record is one write call.
-/

namespace StopWait.Log

/-- Where a transfer log is written. -/
structure Sink where
  /-- The numbers of the write calls that are refused, from zero. -/
  refused : List Nat := []
  /-- The number of write calls so far. -/
  calls : Nat := 0
  /-- What was taken, one entry for each write call, the latest first. -/
  taken : List (List UInt8) := []
deriving DecidableEq, Repr

namespace Sink

/-- The bytes that the sink holds. -/
def contents (s : Sink) : List UInt8 := s.taken.reverse.flatten

/-- The number of bytes that the sink holds. -/
def size (s : Sink) : Nat := s.taken.foldr (fun bytes n => bytes.length + n) 0

/-- Whether the next write call is refused. -/
def refuses (s : Sink) : Bool := s.refused.contains s.calls

/-- One write call. -/
def write (s : Sink) (bytes : List UInt8) : Sink :=
  { s with
    calls := s.calls + 1
    taken := if s.refuses then s.taken else bytes :: s.taken }

theorem size_eq_length_contents (s : Sink) : s.size = s.contents.length := by
  unfold size contents
  induction s.taken with
  | nil => rfl
  | cons bytes rest ih =>
    rw [List.foldr_cons, ih, List.reverse_cons, List.flatten_append, List.length_append,
      List.flatten_singleton, Nat.add_comm]

theorem contents_write (s : Sink) (bytes : List UInt8) :
    (s.write bytes).contents = if s.refuses then s.contents else s.contents ++ bytes := by
  by_cases h : s.refuses = true <;> simp [write, contents, h]

end Sink

/-- Why a transfer log could not be written or read. -/
inductive Error where
  /-- The file or sink failed, with this text. -/
  | io (text : String)
  /-- The text is no transfer log, for this reason. -/
  | malformed (text : String)
deriving DecidableEq, Repr

/-- The wording of a log error. -/
def Error.message : Error → String
  | .io text => text
  | .malformed text => s!"Malformed transfer log: {text}"

/-- A transfer log being written. -/
structure Writer where
  /-- The sink. -/
  sink : Sink := {}
  /-- The bytes in the buffer, which the sink has not taken. -/
  pending : List UInt8 := []
  /-- The number of columns on the line that is being written. -/
  columns : Nat := 0
deriving DecidableEq, Repr

namespace Writer

/-- How diagnostics show a writer. -/
def describe : String := "TransferLog \x7b .. \x7d"

/-- The size of the buffer. -/
def capacity : Nat := 8192

/-- What a refusing sink says. -/
def refusal : String := "sink refused"

/-- What is said about a line that has too many columns. -/
def unequal (columns : Nat) : String :=
  s!"CSV error: found record with {columns} fields, but the previous record has " ++
    s!"{Record.width} fields"

/-- Everything that has been put so far. -/
def offered (w : Writer) : List UInt8 := w.sink.contents ++ w.pending

/-- Puts a byte into the buffer. -/
def push (w : Writer) (b : UInt8) : Writer := { w with pending := w.pending ++ [b] }

/-- Offers the buffer to the sink, and tells whether it was taken. -/
def flush (w : Writer) : Writer × Bool :=
  ({ w with sink := w.sink.write w.pending, pending := if w.sink.refuses then w.pending else [] },
    !w.sink.refuses)

/-- Puts bytes into the buffer, which is offered to the sink whenever it is full. The first refusal
stops this, and the bytes that are left are lost. Tells whether there was none. -/
def put (w : Writer) : List UInt8 → Writer × Bool
  | [] => (w, true)
  | b :: bs =>
    if w.pending.length < capacity then put (w.push b) bs
    else if w.flush.2 then put (w.flush.1.push b) bs
    else (w.flush.1, false)

/-- Writes a column, after a tab unless it is the first on its line. -/
def column (w : Writer) (text : List UInt8) : Writer × Bool :=
  match w.put (if w.columns = 0 then text else 9 :: text) with
  | (w, true) => ({ w with columns := w.columns + 1 }, true)
  | (w, false) => (w, false)

/-- Writes columns one after the other, up to a refusal. -/
def columnAll (w : Writer) : List (List UInt8) → Writer × Bool
  | [] => (w, true)
  | text :: rest =>
    match w.column text with
    | (w, true) => columnAll w rest
    | (w, false) => (w, false)

/-- Ends a line, which must have the columns of a record. -/
def endLine (w : Writer) : Writer × Except Error Unit :=
  if w.columns = Record.width then
    match w.put [10] with
    | (w, true) => ({ w with columns := 0 }, .ok ())
    | (w, false) => (w, .error (.malformed refusal))
  else (w, .error (.malformed (unequal w.columns)))

/-- Writes a record and offers the buffer to the sink. -/
def record (w : Writer) (r : Record) : Writer × Except Error Unit :=
  match w.columnAll r.columns with
  | (w, false) => (w, .error (.malformed refusal))
  | (w, true) =>
    match w.endLine with
    | (w, .error e) => (w, .error e)
    | (w, .ok ()) => (w.flush.1, if w.flush.2 then .ok () else .error (.io refusal))

/-- Writes records one after the other, whatever becomes of each, and gives the writer after each
of them. -/
def recordAll (w : Writer) : List Record → List (Writer × Except Error Unit)
  | [] => []
  | r :: rs => w.record r :: recordAll (w.record r).1 rs

/-- Closes the writer. What is in the buffer is offered once more. -/
def close (w : Writer) : Sink :=
  if w.pending.isEmpty then w.sink else w.sink.write w.pending

theorem offered_push (w : Writer) (b : UInt8) : (w.push b).offered = w.offered ++ [b] := by
  simp [offered, push]

theorem offered_flush (w : Writer) : w.flush.1.offered = w.offered := by
  by_cases h : w.sink.refuses = true <;> simp [offered, flush, Sink.contents_write, h]

/-- **What is put reaches the sink or the buffer**, up to where a refusal stops it. -/
theorem offered_put (w : Writer) (bytes : List UInt8) :
    ∃ n, (w.put bytes).1.offered = w.offered ++ bytes.take n ∧
      ((w.put bytes).2 = true → bytes.take n = bytes) := by
  fun_induction put w bytes with
  | case1 w => exact ⟨0, by simp⟩
  | case2 w b bs _ ih =>
    obtain ⟨n, h, hall⟩ := ih
    exact ⟨n + 1, by simp [h, offered_push], fun hp => by simp [hall hp]⟩
  | case3 w b bs _ _ ih =>
    obtain ⟨n, h, hall⟩ := ih
    exact ⟨n + 1, by simp [h, offered_push, offered_flush], fun hp => by simp [hall hp]⟩
  | case4 w b bs => exact ⟨0, by simp [offered_flush]⟩

/-- What fits into the buffer is put there. -/
theorem put_of_room (w : Writer) (bytes : List UInt8)
    (h : w.pending.length + bytes.length ≤ capacity) :
    w.put bytes = ({ w with pending := w.pending ++ bytes }, true) := by
  induction bytes generalizing w with
  | nil => simp [put]
  | cons b bs ih =>
    have hb : w.pending.length < capacity := by simp only [List.length_cons] at h; omega
    rw [put, if_pos hb, ih]
    · simp [push]
    · simp only [push, List.length_append, List.length_cons, List.length_nil] at h ⊢; omega

/-- A column that fits into the buffer is put there. -/
theorem column_of_room (w : Writer) (text : List UInt8)
    (h : w.pending.length + text.length + 1 ≤ capacity) :
    w.column text =
      ({ w with
          pending := w.pending ++ (if w.columns = 0 then text else 9 :: text)
          columns := w.columns + 1 }, true) := by
  rw [column, put_of_room]
  split
  · omega
  · simp only [List.length_cons]; omega

/-- **While the buffer has room, a record is one write call** of its line, after what was refused
before. -/
theorem record_of_room (w : Writer) (r : Record) (hc : w.columns = 0)
    (h : w.pending.length + r.line.length ≤ capacity) :
    w.record r =
      ({ w with
          sink := w.sink.write (w.pending ++ r.line)
          pending := if w.sink.refuses then w.pending ++ r.line else [] },
        if w.sink.refuses then .error (.io refusal) else .ok ()) := by
  obtain ⟨sink, pending, columns⟩ := w
  obtain rfl : columns = 0 := hc
  simp only [Record.line, Record.columns, List.intercalate, List.intersperse,
    List.flatten_cons, List.flatten_nil, List.length_append, List.length_cons, List.length_nil,
    List.append_nil] at h ⊢
  simp only [record, Record.columns, columnAll]
  rw [column_of_room _ _ (by simp; omega)]
  simp only [if_true]
  rw [column_of_room _ _ (by simp; omega)]
  simp only []
  rw [column_of_room _ _ (by simp; omega)]
  simp only []
  rw [column_of_room _ _ (by simp; omega)]
  simp only [endLine, Record.width]
  rw [put_of_room _ _ (by simp; omega)]
  by_cases hr : sink.refuses = true <;> simp [flush, hr]

end Writer

end StopWait.Log
