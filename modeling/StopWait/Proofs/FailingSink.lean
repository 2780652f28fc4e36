import Mathlib.Data.List.Induction
import StopWait.Proofs.Records

/-!
# What a failing sink holds

A sink may refuse write calls, in any pattern. What it refuses stays with the writer and goes out
with the next write call that is taken, so the sink holds the lines of the first records, whole and
in order, however many of them were reported as failed.

* `record_eq_put`: a record is the bytes of its line, offered at its end.
* `offersWhole_iff`: a writer keeps all and offers it in one call while its buffer has room.
* `reached`: how many records the sink holds.
* `Writer.Reaches`: the invariant, a cut between what was taken and what is held back.
* `lines_kept`: **no line is lost, written twice or out of order.**
-/

namespace StopWait.Log

namespace Writer

variable {w : Writer} {r : Record} {bytes : List UInt8}

/-! ## One record -/

theorem put_append (w : Writer) (xs ys : List UInt8) :
    w.put (xs ++ ys) = if (w.put xs).2 then (w.put xs).1.put ys else w.put xs := by
  fun_induction put w xs with
  | case1 w => simp
  | case2 w b bs hb ih => rw [List.cons_append, put, if_pos hb, ih]
  | case3 w b bs hb hf ih => rw [List.cons_append, put, if_neg hb, if_pos hf, ih]
  | case4 w b bs hb hf => rw [List.cons_append, put, if_neg hb, if_neg hf]; rfl

/-- Putting bytes has nothing to do with the columns. -/
theorem put_columns (w : Writer) (n : Nat) (bytes : List UInt8) :
    ({ w with columns := n } : Writer).put bytes =
      ({ (w.put bytes).1 with columns := n }, (w.put bytes).2) := by
  fun_induction put w bytes with
  | case1 w => rfl
  | case2 w b bs hb ih => rw [put, if_pos hb]; exact ih
  | case3 w b bs hb hf ih => rw [put, if_neg hb]; exact (if_pos hf).trans ih
  | case4 w b bs hb hf => rw [put, if_neg hb]; exact if_neg hf

theorem columns_put (w : Writer) (bytes : List UInt8) : (w.put bytes).1.columns = w.columns :=
  congrArg (·.1.columns) (put_columns w w.columns bytes)

/-- Columns that are not the first on their line are put with a tab before each of them. -/
theorem columnAll_eq_put (w : Writer) (hc : w.columns ≠ 0) (texts : List (List UInt8)) :
    ∃ n, w.columnAll texts =
        ({ (w.put (texts.flatMap (9 :: ·))).1 with columns := n },
          (w.put (texts.flatMap (9 :: ·))).2) ∧
      ((w.put (texts.flatMap (9 :: ·))).2 = true → n = w.columns + texts.length) := by
  induction texts generalizing w with
  | nil => exact ⟨w.columns, rfl, fun _ => rfl⟩
  | cons text texts ih =>
    rw [List.flatMap_cons, put_append, columnAll, column, if_neg hc]
    rcases hp : w.put (9 :: text) with ⟨v, ok⟩
    have hv : v.columns = w.columns := by rw [← columns_put w (9 :: text), hp]
    cases ok with
    | false => exact ⟨v.columns, rfl, fun h => by cases h⟩
    | true =>
      obtain ⟨n, hn, hlen⟩ := ih { v with columns := v.columns + 1 } (Nat.succ_ne_zero _)
      rw [put_columns] at hn hlen
      refine ⟨n, hn, fun h => ?_⟩
      have hsum : n = v.columns + 1 + texts.length := hlen h
      rw [List.length_cons]
      omega

/-- The bytes of a line, with a tab before each column but the first. -/
theorem line_eq (r : Record) :
    ∃ text texts, r.columns = text :: texts ∧ texts.length + 1 = Record.width ∧
      r.line = text ++ (texts.flatMap (9 :: ·) ++ [10]) :=
  ⟨_, _, rfl, rfl, by
    simp [Record.line, Record.columns, List.intercalate, List.intersperse]⟩

/-- **A record is the bytes of its line, offered at its end.** A refusal before the end breaks the
line off. -/
theorem record_eq_put (r : Record) (hc : w.columns = 0) :
    ∃ n, w.record r =
      match w.put r.line with
      | (v, true) => (v.flush.1, if v.flush.2 then .ok () else .error (.io refusal))
      | (v, false) => ({ v with columns := n }, .error (.malformed refusal)) := by
  obtain ⟨text, texts, hcols, hwidth, hline⟩ := line_eq r
  rw [hline, put_append, record, hcols, columnAll, column, if_pos hc]
  rcases hp : w.put text with ⟨v, ok⟩
  have hv : v.columns = 0 := by rw [← hc, ← columns_put w text, hp]
  cases ok with
  | false => exact ⟨v.columns, rfl⟩
  | true =>
    -- the other columns, and then the end of the line
    obtain ⟨n, hn, hlen⟩ :=
      columnAll_eq_put { v with columns := v.columns + 1 } (Nat.succ_ne_zero _) texts
    rw [put_columns] at hn hlen
    simp only [if_true, put_append v, hn]
    rcases hq : v.put (texts.flatMap (9 :: ·)) with ⟨u, ok⟩
    have hu : u.columns = 0 := by rw [← hv, ← columns_put v (texts.flatMap (9 :: ·)), hq]
    rw [hq] at hlen
    cases ok with
    | false => exact ⟨n, rfl⟩
    | true =>
      have hend : n = Record.width := by
        have hsum : n = v.columns + 1 + texts.length := hlen rfl
        omega
      simp only [endLine, hend, if_true, put_columns]
      rcases he : u.put [10] with ⟨t, ok⟩
      have ht : t.columns = 0 := by rw [← hu, ← columns_put u [10], he]
      cases ok with
      | false => exact ⟨Record.width, rfl⟩
      | true =>
        refine ⟨0, ?_⟩
        obtain ⟨sink, pending, columns⟩ := t
        obtain rfl : columns = 0 := ht
        rfl

/-! ## Room in the buffer -/

theorem calls_le_put (w : Writer) (bytes : List UInt8) :
    w.sink.calls ≤ (w.put bytes).1.sink.calls := by
  fun_induction put w bytes with
  | case1 w => exact Nat.le_refl _
  | case2 w b bs _ ih => exact ih
  | case3 w b bs _ _ ih => exact Nat.le_trans (Nat.le_succ _) ih
  | case4 w b bs => exact Nat.le_succ _

/-- **A refusal in the middle of a line loses the rest of it.** -/
theorem offered_put_lt (h : (w.put bytes).2 = false) :
    (w.put bytes).1.offered.length < w.offered.length + bytes.length := by
  fun_induction put w bytes with
  | case1 w => cases h
  | case2 w b bs _ ih =>
    have := ih h
    rw [offered_push, List.length_append, List.length_singleton] at this
    rw [List.length_cons]
    omega
  | case3 w b bs _ _ ih =>
    have := ih h
    rw [offered_push, offered_flush, List.length_append, List.length_singleton] at this
    rw [List.length_cons]
    omega
  | case4 w b bs =>
    rw [offered_flush, List.length_cons]
    omega

/-- What was put without a write call had room in the buffer. -/
theorem room_of_calls (hp : w.pending.length ≤ capacity)
    (h : (w.put bytes).1.sink.calls = w.sink.calls) :
    w.pending.length + bytes.length ≤ capacity := by
  fun_induction put w bytes with
  | case1 w => exact hp
  | case2 w b bs hb ih =>
    have hlen : (w.push b).pending.length = w.pending.length + 1 := List.length_append
    have := ih (by omega) h
    rw [List.length_cons]
    omega
  | case3 w b bs =>
    have hle : w.sink.calls + 1 ≤ ((w.flush.1.push b).put bs).1.sink.calls :=
      calls_le_put (w.flush.1.push b) bs
    omega
  | case4 w b bs =>
    have : w.sink.calls + 1 = w.sink.calls := h
    omega

/-- **The writer keeps everything that was not taken, and offers it in one write call** when it
writes the record. -/
structure OffersWhole (w : Writer) (r : Record) : Prop where
  kept : (w.record r).1.offered = w.offered ++ r.line
  once : (w.record r).1.sink.calls = w.sink.calls + 1

/-- **It does so exactly while its buffer has room for the line.** -/
theorem offersWhole_iff (hc : w.columns = 0) (hp : w.pending.length ≤ capacity) :
    w.OffersWhole r ↔ w.pending.length + r.line.length ≤ capacity := by
  constructor
  · rintro ⟨hkept, honce⟩
    obtain ⟨n, hrec⟩ := record_eq_put r hc
    apply room_of_calls hp
    rcases hput : w.put r.line with ⟨v, ok⟩
    rw [hrec, hput] at hkept honce
    cases ok with
    | true =>
      -- the call at the end of the line is the only one
      exact Nat.succ.inj honce
    | false =>
      have hlt : (w.put r.line).1.offered.length < w.offered.length + r.line.length :=
        offered_put_lt (by rw [hput])
      have hlen := congrArg List.length hkept
      rw [hput] at hlt
      rw [List.length_append] at hlen
      exact absurd hlen (Nat.ne_of_lt hlt)
  · intro hroom
    have hrec := record_of_room w r hc hroom
    refine ⟨?_, by rw [hrec]; rfl⟩
    rw [hrec, offered, offered, Sink.contents_write]
    cases w.sink.refuses <;> simp

end Writer

/-! ## Many records -/

/-- How many records are in a sink that refuses the write calls in `refused`, after `n` of them: all
of them if the call of the latest was taken, or else as many as before. -/
def reached (refused : List Nat) : Nat → Nat
  | 0 => 0
  | n + 1 => if n ∈ refused then reached refused n else n + 1

theorem reached_le (refused : List Nat) (n : Nat) : reached refused n ≤ n := by
  induction n with
  | zero => exact Nat.le_refl 0
  | succ n ih =>
    rw [reached]
    split
    · omega
    · exact Nat.le_refl _

theorem reached_mono (refused : List Nat) {m n : Nat} (h : m ≤ n) :
    reached refused m ≤ reached refused n := by
  induction h with
  | refl => exact Nat.le_refl _
  | @step n h ih =>
    have hmn : m ≤ n := h
    have hm := reached_le refused m
    rw [reached]
    split
    · exact ih
    · omega

/-- **A writer after some records**: what its sink has taken of them and what it holds back. -/
structure Writer.Reaches (w : Writer) (refused : List Nat) (records : List Record) : Prop where
  holds : w.Holds (records.take (reached refused records.length))
    (records.drop (reached refused records.length))
  refused : w.sink.refused = refused
  calls : w.sink.calls = records.length
  room : w.pending.length ≤ Writer.capacity

variable {w : Writer} {refused : List Nat} {records : List Record} {r : Record}

/-- Whether the next write call is refused. -/
theorem Writer.Reaches.refuses (h : w.Reaches refused records) :
    w.sink.refuses = decide (records.length ∈ refused) := by
  rw [Sink.refuses, h.refused, h.calls, List.contains_eq_mem]

/-- **One record more**: its write call is the next one, and when it is taken so are all the lines
before it. -/
theorem Writer.Reaches.record (h : w.Reaches refused records) (hw : w.OffersWhole r) :
    (w.record r).1.Reaches refused (records ++ [r]) ∧
      ((w.record r).2 = .ok () ↔ records.length ∉ refused) := by
  have hroom := (Writer.offersWhole_iff h.holds.columns h.room).1 hw
  have hrec := Writer.record_of_room w r h.holds.columns hroom
  have hrefuses := h.refuses
  have hrefused : (w.record r).1.sink.refused = refused := by rw [hrec]; exact h.refused
  have hlen : (records ++ [r]).length = records.length + 1 := List.length_append
  have hcalls : (w.record r).1.sink.calls = (records ++ [r]).length := by rw [hw.once, h.calls, hlen]
  have hle := reached_le refused records.length
  obtain ⟨hno, v, hv, hk⟩ | ⟨hyes, v, hv, hk⟩ := h.holds.offer r hroom
  · have hnot : records.length ∉ refused := by simpa [hno] using hrefuses
    have hreached : reached refused (records ++ [r]).length = (records ++ [r]).length := by
      rw [hlen, reached, if_neg hnot]
    rw [List.take_append_drop] at hk
    rw [hv] at hrefused hcalls ⊢
    refine ⟨⟨?_, hrefused, hcalls, ?_⟩, fun _ => hnot, fun _ => rfl⟩
    · rw [hreached, List.take_length, List.drop_length]
      exact hk
    · rw [hk.buffer]
      exact Nat.zero_le _
  · have hmem : records.length ∈ refused := by simpa [hyes] using hrefuses
    have hreached : reached refused (records ++ [r]).length = reached refused records.length := by
      rw [hlen, reached, if_pos hmem]
    rw [hv] at hrefused hcalls ⊢
    refine ⟨⟨?_, hrefused, hcalls, ?_⟩, fun h => by (cases h), fun h => absurd hmem h⟩
    · rw [hreached, List.take_append_of_le_length hle, List.drop_append_of_le_length hle]
      exact hk
    · rw [hk.buffer, text_append, List.length_append, ← h.holds.buffer]
      exact hroom

/-- A writer on a new sink, which refuses some write calls. -/
theorem reaches_fresh (refused : List Nat) :
    Writer.Reaches { sink := { refused } } refused [] :=
  ⟨⟨rfl, rfl, rfl⟩, rfl, rfl, Nat.zero_le _⟩

/-- **Record after record**, while the writer offers each of them whole. -/
theorem Writer.Reaches.after (h : w.Reaches refused []) (records : List Record)
    (hw : ∀ xs r ys, records = xs ++ r :: ys → (w.after xs).OffersWhole r) :
    (w.after records).Reaches refused records := by
  induction records using List.reverseRecOn with
  | nil => exact h
  | append_singleton records r ih =>
    have hrest := ih fun xs q ys hxs => hw xs q (ys ++ [r]) (by simp [hxs])
    rw [Writer.after_concat]
    exact (hrest.record (hw records r [] rfl)).1

/-- **When the writer is closed**, what it holds back is written if that call is taken. -/
theorem Writer.Reaches.close (h : w.Reaches refused records) :
    w.close.contents =
      text (if records.length ∈ refused then records.take (reached refused records.length)
        else records) := by
  have hrefuses := h.refuses
  have hall : w.sink.contents ++ w.pending = text records := by
    rw [h.holds.sink, h.holds.buffer, text, text, ← List.flatten_append, ← List.map_append,
      List.take_append_drop, text]
  unfold Writer.close
  split
  · -- nothing is held back, so the same lines are all of them
    rename_i hempty
    rw [List.isEmpty_iff.1 hempty, List.append_nil] at hall
    split
    · exact h.holds.sink
    · exact hall
  · rw [Sink.contents_write, hrefuses]
    by_cases hmem : records.length ∈ refused
    · simpa [hmem] using h.holds.sink
    · simpa [hmem] using hall

theorem length_text_le (records : List Record) : (text records).length ≤ 39 * records.length := by
  induction records with
  | nil => exact Nat.le_refl _
  | cons r records ih =>
    have hline := r.length_line_le
    have htext : (text (r :: records)).length = r.line.length + (text records).length :=
      List.length_append
    rw [htext, List.length_cons]
    omega

/-- The buffer has room while fewer than 210 records are held back. -/
theorem Writer.Reaches.offersWhole (h : w.Reaches refused records)
    (hheld : records.length < reached refused records.length + 210) (r : Record) :
    w.OffersWhole r := by
  have htext := length_text_le (records.drop (reached refused records.length))
  have hline := r.length_line_le
  rw [← h.holds.buffer, List.length_drop] at htext
  refine (Writer.offersWhole_iff h.holds.columns h.room).2 ?_
  unfold Writer.capacity
  omega

/-- **A writer offers records whole** while none of them leaves 210 or more held back. -/
theorem offersWhole_of_held (refused : List Nat) (records : List Record)
    (hheld : ∀ n, n < records.length → n < reached refused n + 210) :
    ∀ xs r ys, records = xs ++ r :: ys →
      (Writer.after { sink := { refused } } xs).OffersWhole r := by
  have hreaches : ∀ xs : List Record, xs.length ≤ records.length →
      (Writer.after { sink := { refused } } xs).Reaches refused xs := by
    intro xs
    induction xs using List.reverseRecOn with
    | nil => exact fun _ => reaches_fresh refused
    | append_singleton xs r ih =>
      intro hlen
      rw [List.length_append, List.length_singleton] at hlen
      have hrest := ih (by omega)
      rw [Writer.after_concat]
      exact (hrest.record (hrest.offersWhole (hheld _ (by omega)) r)).1
  rintro xs r ys rfl
  rw [List.length_append, List.length_cons] at hheld hreaches
  exact (hreaches xs (by omega)).offersWhole (hheld _ (by omega)) r

/-- **A failing sink loses no line, and holds none twice or out of order.** Let a sink refuse the
write calls in `refused`, and let the writer keep everything that was not taken and offer it in one
write call. Then each record is one write call, and after each of them the sink holds the lines of
the first records, whole. A record is reported as written exactly when its call is taken; then the
sink holds the lines of all records so far. It never holds fewer than before. When the writer is
closed the sink holds the same lines or, if that call is taken, all of them. -/
theorem lines_kept (refused : List Nat) (records : List Record)
    (hw : ∀ xs r ys, records = xs ++ r :: ys →
      (Writer.after { sink := { refused } } xs).OffersWhole r) :
    let w : Writer := { sink := { refused } }
    (∀ xs ys, records = xs ++ ys →
      (w.after xs).sink.calls = xs.length ∧ reached refused xs.length ≤ xs.length ∧
      (w.after xs).sink.contents = text (records.take (reached refused xs.length))) ∧
    (∀ xs r ys, records = xs ++ r :: ys →
      (((w.after xs).record r).2 = .ok () ↔ xs.length ∉ refused) ∧
      (((w.after xs).record r).2 = .ok () →
        reached refused (xs ++ [r]).length = (xs ++ [r]).length)) ∧
    (∀ m n, m ≤ n → reached refused m ≤ reached refused n) ∧
    (w.after records).close.contents =
      text (if records.length ∈ refused then records.take (reached refused records.length)
        else records) := by
  intro w
  have hreaches : ∀ xs ys, records = xs ++ ys → (w.after xs).Reaches refused xs := by
    rintro xs ys rfl
    exact (reaches_fresh refused).after xs fun us r vs hus =>
      hw us r (vs ++ ys) (by rw [hus, List.append_assoc, List.cons_append])
  refine ⟨?_, ?_, fun m n => reached_mono refused, ?_⟩
  · intro xs ys hxs
    have h := hreaches xs ys hxs
    have hle := reached_le refused xs.length
    refine ⟨h.calls, hle, ?_⟩
    rw [h.holds.sink, hxs, List.take_append_of_le_length hle]
  · intro xs r ys hxs
    have hok := ((hreaches xs (r :: ys) hxs).record (hw xs r ys hxs)).2
    refine ⟨hok, fun h => ?_⟩
    rw [List.length_append, List.length_singleton, reached, if_neg (hok.1 h)]
  · exact (hreaches records [] (List.append_nil records).symm).close

/-- Three records on a sink that refuses the first and the third write call. The second call brings
the first line too, and the third line goes out when the writer is closed. -/
theorem lines_kept_firstAndThird :
    let w : Writer := { sink := { refused := [0, 2] } }
    let records : List Record :=
      [⟨.send, 536, 536, 500⟩, ⟨.recv, 536, 36, 500⟩, ⟨.send, 1036, 1036, 536⟩]
    (∀ xs r ys, records = xs ++ r :: ys → (w.after xs).OffersWhole r) ∧
    (w.after (records.take 1)).sink.contents = text [] ∧
    (w.after (records.take 2)).sink.contents = text (records.take 2) ∧
    (w.after records).sink.contents = text (records.take 2) ∧
    (w.after records).close.contents = text records := by
  intro w records
  have hw := offersWhole_of_held [0, 2] records fun n hn =>
    Nat.lt_of_lt_of_le hn (show 3 ≤ _ by omega)
  obtain ⟨hkept, -, -, hclose⟩ := lines_kept [0, 2] records hw
  exact ⟨hw, (hkept (records.take 1) (records.drop 1) rfl).2.2,
    (hkept (records.take 2) (records.drop 2) rfl).2.2, (hkept records [] rfl).2.2, hclose⟩

end StopWait.Log
