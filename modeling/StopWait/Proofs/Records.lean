import StopWait.Proofs.Figures

/-!
# What a transfer log keeps

A transfer log on a sink that refuses nothing takes every record, and what it has written is the
text of these records.

* `Writer.after`: a writer after some records.
* `Writer.Holds.after`: **what it has taken in.**
* `records_read_back`: **records read back as they were written**, whatever becomes of the line ends
  and the spaces in the meantime.
-/

namespace StopWait.Log

/-- A writer after some records, whatever became of each. -/
def Writer.after (w : Writer) (records : List Record) : Writer :=
  records.foldl (fun w r => (w.record r).1) w

theorem Writer.after_concat (w : Writer) (records : List Record) (r : Record) :
    w.after (records ++ [r]) = ((w.after records).record r).1 := by
  rw [after, List.foldl_append]
  rfl

variable {w : Writer} {kept : List Record}

/-- A writer whose sink refuses nothing takes a record in, and holds nothing back. -/
theorem Writer.Holds.take (h : w.Holds kept []) (hs : w.sink.refused = []) (r : Record) :
    (w.record r).2 = .ok () ∧ (w.record r).1.Holds (kept ++ [r]) [] ∧
      (w.record r).1.sink.refused = [] := by
  have hcalm : (TransferLog.writing w).Calm := ⟨hs, h.buffer, h.columns⟩
  have hok : (w.record r).2 = .ok () := (hcalm.record r).1
  refine ⟨hok, ?_, (hcalm.record r).2.1⟩
  obtain ⟨v, hv, hholds⟩ | ⟨v, e, hv, -⟩ := h.record r
  · rw [hv]
    exact hholds
  · rw [hv] at hok
    cases hok

/-- **Such a writer takes in record after record.** -/
theorem Writer.Holds.after (h : w.Holds kept []) (hs : w.sink.refused = []) (records : List Record) :
    (w.after records).Holds (kept ++ records) [] ∧ (w.after records).sink.refused = [] := by
  induction records generalizing w kept with
  | nil => exact ⟨by rwa [List.append_nil], hs⟩
  | cons r records ih =>
    obtain ⟨-, hholds, hrefused⟩ := h.take hs r
    have hrest := ih hholds hrefused
    rw [List.append_assoc, List.singleton_append] at hrest
    exact hrest

/-- **Records read back as they were written.** On a sink that refuses nothing every record is
taken, and the sink holds the text of the records, before and after the log is closed. That text
reads back as the records, and so does every other that renders them: with CR or CRLF at the end of
some lines, empty lines among them, or spaces around some fields. -/
theorem records_read_back (sink : Sink) (hs : sink.refused = []) (he : sink.contents = [])
    (records : List Record) :
    let w : Writer := { sink }
    (∀ xs r ys, records = xs ++ r :: ys → ((w.after xs).record r).2 = .ok ()) ∧
    (w.after records).sink.contents = text records ∧
    (w.after records).close.contents = text records ∧
    Renders records (text records) ∧
    ∀ bytes, Renders records bytes → read bytes = .ok records := by
  intro w
  have hfresh : w.Holds [] [] := ⟨rfl, he, rfl⟩
  have hafter := fun rs => hfresh.after hs rs
  simp only [List.nil_append] at hafter
  have hend := (hafter records).1
  refine ⟨?_, hend.sink, ?_, renders_text records, fun bytes h => h.read_eq⟩
  · rintro xs r ys rfl
    exact ((hafter xs).1.take (hafter xs).2 r).1
  · simpa using hend.close

/-- A record after an empty line, with spaces around two of its fields and CRLF at its end. -/
theorem records_read_back_spaced :
    read [10, 32, 83, 101, 110, 100, 58, 9, 55, 9, 56, 32, 32, 9, 57, 13, 10] =
      .ok [⟨.send, 7, 8, 9⟩] := by
  refine (records_read_back {} rfl rfl [⟨.send, 7, 8, 9⟩]).2.2.2.2 _
    ⟨[[[32, 83, 101, 110, 100, 58], [55], [56, 32, 32], [57]]], .cons ?_ .nil,
      .empty .lf (.line _ .crlf .nil)⟩
  have digit : ∀ n, n < 10 → Text.decimal n = [Text.digit n] := by
    intro n hn
    rw [Text.decimal, if_pos hn]
  refine .cons ⟨1, 0, rfl⟩ (.cons ⟨0, 0, ?_⟩ (.cons ⟨0, 2, ?_⟩ (.cons ⟨0, 0, ?_⟩ .nil))) <;>
    rw [digit _ (by decide)] <;> decide

end StopWait.Log
