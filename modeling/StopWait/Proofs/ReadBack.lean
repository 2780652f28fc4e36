import Mathlib.Data.List.Forall2
import StopWait.Log.Reader

/-!
# Reading back what was written

The lines of a transfer log read back as the records that they were written for, whatever ends the
lines, with empty lines among them and with spaces around their fields.

* `Text.readWord_decimal`: a 32-bit word reads back from its decimal numeral.
* `Text.Lines`: the texts of some lines, with any line ends and empty lines.
* `Text.fields_rows`: lines of plain fields are read as rows of these fields.
* `Log.Renders`: the texts that say the same as some records.
* `Renders.read_eq`, `read_text`: **they read back as these records**, the text that is written
  among them.
-/

namespace StopWait.Text

/-- The characters of ASCII bytes. -/
def chars (bytes : List UInt8) : List Char := bytes.map fun b => Char.ofNat b.toNat

theorem toNat_digit {d : Nat} (h : d < 10) : (digit d).toNat = 48 + d := by
  simp only [digit, UInt8.toNat_ofNat']
  omega

theorem decimal_ne_nil (n : Nat) : decimal n ≠ [] := by
  rw [decimal]
  split <;> simp

theorem decimal_digits (n : Nat) : ∀ b ∈ decimal n, 48 ≤ b.toNat ∧ b.toNat ≤ 57 := by
  intro b hb
  rw [decimal] at hb
  split at hb
  · rename_i h
    rw [List.mem_singleton] at hb
    rw [hb, toNat_digit h]
    omega
  · rcases List.mem_append.1 hb with hb | hb
    · exact decimal_digits (n / 10) b hb
    · rw [List.mem_singleton] at hb
      rw [hb, toNat_digit (Nat.mod_lt n (by omega))]
      have := Nat.mod_lt n (show 10 > 0 by omega)
      omega
termination_by n

theorem digitValue?_digit {d : Nat} (h : d < 10) :
    digitValue? 10 (Char.ofNat (digit d).toNat) = some d := by
  have : ∀ d, d < 10 → digitValue? 10 (Char.ofNat (digit d).toNat) = some d := by decide
  exact this d h

theorem readDigits_append (base limit acc : Nat) (cs ds : List Char) :
    readDigits base limit acc (cs ++ ds) =
      (readDigits base limit acc cs).bind fun a => readDigits base limit a ds := by
  induction cs generalizing acc with
  | nil => rfl
  | cons c cs ih =>
    simp only [List.cons_append, readDigits]
    cases digitValue? base c with
    | none => rfl
    | some d =>
      simp only
      split
      · exact ih _
      · rfl

theorem readDigits_decimal {limit n : Nat} (h : n < limit) :
    readDigits 10 limit 0 (chars (decimal n)) = .ok n := by
  rw [decimal]
  split
  · rename_i hn
    simp only [chars, List.map_cons, List.map_nil, readDigits, digitValue?_digit hn]
    rw [if_pos (by omega), Nat.zero_mul, Nat.zero_add]
  · have hd := digitValue?_digit (Nat.mod_lt n (show 10 > 0 by omega))
    have hn : n / 10 * 10 + n % 10 = n := by omega
    have ih := readDigits_decimal (show n / 10 < limit by omega)
    rw [chars] at ih ⊢
    rw [List.map_append, readDigits_append, ih, Except.bind, List.map_cons, List.map_nil,
      readDigits, hd]
    simp only [hn, if_pos h, readDigits]
termination_by n

/-- **A word reads back from its decimal numeral.** -/
theorem readWord_decimal (n : UInt32) : readWord (chars (decimal n.toNat)) = .ok n := by
  -- neither a sign nor the mark of another base begins the numeral
  have hdigits : ∀ c ∈ chars (decimal n.toNat), c ≠ 'x' ∧ c ≠ '+' := by
    intro c hc
    obtain ⟨b, hb, rfl⟩ := List.mem_map.1 hc
    have hd := decimal_digits n.toNat b hb
    have : ∀ k, k < 58 → 48 ≤ k → Char.ofNat k ≠ 'x' ∧ Char.ofNat k ≠ '+' := by decide
    exact this b.toNat (by omega) hd.1
  have hne : chars (decimal n.toNat) ≠ [] := by simp [chars, decimal_ne_nil]
  have hread := readDigits_decimal n.toNat_lt
  generalize chars (decimal n.toNat) = cs at hdigits hne hread
  have hnum : readNumeral 10 Word.limit32 cs = .ok n.toNat := by
    unfold readNumeral
    split
    · exact absurd rfl hne
    · exact absurd rfl (hdigits '+' (by simp)).2
    · exact absurd rfl (hdigits '+' (by simp)).2
    · exact hread
  unfold readWord
  split
  · exact absurd rfl (hdigits 'x' (by simp)).1
  · rw [hnum, Except.map, UInt32.ofNat_toNat]

/-- Nothing is trimmed where neither end has anything to trim. -/
theorem trimBy_eq_self {α : Type} {p : α → Bool} {xs : List α} (h : ∀ x ∈ xs, p x = false) :
    trimBy p xs = xs := by
  have drop : ∀ ys : List α, (∀ y ∈ ys, p y = false) → ys.dropWhile p = ys := by
    intro ys hys
    cases ys with
    | nil => rfl
    | cons y ys => rw [List.dropWhile_cons, hys y (by simp)]; rfl
  rw [trimBy, drop xs h, drop _ (fun x hx => h x (List.mem_reverse.1 hx)), List.reverse_reverse]

/-- **What is put around a field to be trimmed** makes no difference. -/
theorem trimBy_padded {α : Type} {p : α → Bool} {a : α} (ha : p a = true) (xs : List α)
    (m n : ℕ) : trimBy p (List.replicate m a ++ xs ++ List.replicate n a) = trimBy p xs := by
  have hall : ∀ k, ∀ x ∈ List.replicate k a, p x = true := by
    intro k x hx
    rw [(List.mem_replicate.1 hx).2, ha]
  rw [trimBy, List.append_assoc, List.dropWhile_append_of_pos (hall m), List.dropWhile_append]
  split
  · rename_i hxs
    rw [trimBy, List.isEmpty_iff.1 hxs]
    simp [ha]
  · rw [List.reverse_append, List.reverse_replicate, List.dropWhile_append_of_pos (hall n)]
    rfl

/-- A byte that shows: ASCII, no blank, and no control character. -/
def Graphic (b : UInt8) : Prop := 33 ≤ b.toNat ∧ b.toNat ≤ 126

theorem decodeUtf8_graphic {bytes : List UInt8} (h : ∀ b ∈ bytes, Graphic b) :
    decodeUtf8 bytes = .ok (chars bytes) := by
  -- the offset is for errors only
  suffices hoff : ∀ offset, decodeFrom offset 0 bytes = .ok (chars bytes) from hoff 0
  induction bytes with
  | nil => intro offset; rfl
  | cons b bs ih =>
    intro offset
    have hb : b.toNat < 0x80 := by have := h b (by simp); unfold Graphic at this; omega
    have hbs := ih (fun c hc => h c (List.mem_cons_of_mem b hc)) (offset + 1)
    simp only [decodeFrom, decodeChar?, if_pos hb, hbs, Nat.sub_self, chars, List.map_cons]

/-- A byte that is kept as it is, wherever it stands in a field. -/
def Plain (b : UInt8) : Prop := b ≠ 9 ∧ b ≠ 10 ∧ b ≠ 13 ∧ b ≠ 34

/-- What may end a line. -/
inductive LineEnd where
  | lf
  | cr
  | crlf

/-- The bytes of a line end. -/
def LineEnd.bytes : LineEnd → List UInt8
  | .lf => [10]
  | .cr => [13]
  | .crlf => [13, 10]

/-- **The texts of some lines**, which are given by their fields. Each line has a line end of its
own, and empty lines may stand anywhere among them. -/
inductive Lines : List (List (List UInt8)) → List UInt8 → Prop where
  | nil : Lines [] []
  | empty {lines : List (List (List UInt8))} {bytes : List UInt8} (e : LineEnd)
    (h : Lines lines bytes) : Lines lines (e.bytes ++ bytes)
  | line {lines : List (List (List UInt8))} {bytes : List UInt8} (fs : List (List UInt8))
    (e : LineEnd) (h : Lines lines bytes) :
    Lines (fs :: lines) (List.intercalate [9] fs ++ e.bytes ++ bytes)

namespace Scanner

variable {s : Scanner}

theorem foldl_take_plain {bs : List UInt8} (h : ∀ b ∈ bs, Plain b) (hm : s.mode = .plain) :
    bs.foldl take s =
      { s with field := bs.reverse ++ s.field, position := bs.foldl .after s.position } := by
  induction bs generalizing s with
  | nil => rfl
  | cons b bs ih =>
    obtain ⟨h9, h10, h13, -⟩ := h b (by simp)
    have hb : s.take b =
        { s with field := b :: s.field, position := s.position.after b } := by
      simp only [take, hm, takePlain, if_neg h9, if_neg h10, if_neg h13, keep]
    rw [List.foldl_cons, hb, ih (fun c hc => h c (List.mem_cons_of_mem b hc)) (by exact hm)]
    simp

/-- Whether a field may begin at a scanner. -/
def BeginsField (s : Scanner) : Prop :=
  s.mode = .fieldStart ∨ s.mode = .betweenRows ∨ s.mode = .afterCR

theorem foldl_take_field {bs : List UInt8} (h : ∀ b ∈ bs, Plain b) (hne : bs ≠ [])
    (hm : s.BeginsField) :
    bs.foldl take s =
      { s with
        mode := .plain, field := bs.reverse ++ s.field
        position := bs.foldl .after s.position } := by
  cases bs with
  | nil => exact absurd rfl hne
  | cons b bs =>
    obtain ⟨h9, h10, h13, h34⟩ := h b (by simp)
    have hb : s.take b =
        { s with mode := .plain, field := b :: s.field, position := s.position.after b } := by
      rcases hm with hm | hm | hm <;>
        simp [take, hm, takeRowStart, takeFirst, takePlain, h9, h10, h13, h34, keep]
    rw [List.foldl_cons, hb, foldl_take_plain (fun c hc => h c (List.mem_cons_of_mem b hc)) rfl]
    simp

/-- **A scanner before a row**, with the fields of the rows so far. -/
structure Between (s : Scanner) (lines : List (List (List UInt8))) : Prop where
  mode : s.mode = .betweenRows ∨ s.mode = .afterCR
  field : s.field = []
  fields : s.fields = []
  rows : s.rows.reverse.map Row.fields = lines

/-- **A scanner at the end of a row**, with its fields and those of the rows before it. -/
structure AtEnd (s : Scanner) (fs : List (List UInt8)) (lines : List (List (List UInt8))) :
    Prop where
  mode : s.mode = .plain
  fields : s.fields.reverse ++ [s.field.reverse] = fs
  rows : s.rows.reverse.map Row.fields = lines

variable {fs : List (List UInt8)} {before lines : List (List (List UInt8))}

/-- **Fields with tabs between them** are the fields of the row, wherever the first one begins. -/
theorem foldl_take_fields (h : ∀ f ∈ fs, f ≠ [] ∧ ∀ b ∈ f, Plain b) (hne : fs ≠ [])
    (hm : s.BeginsField) (hf : s.field = []) (hr : s.rows.reverse.map Row.fields = lines) :
    AtEnd ((List.intercalate [9] fs).foldl take s) (s.fields.reverse ++ fs) lines := by
  induction fs generalizing s with
  | nil => exact absurd rfl hne
  | cons f fs ih =>
    obtain ⟨hfne, hfp⟩ := h f (by simp)
    cases fs with
    | nil =>
      rw [List.intercalate_singleton, foldl_take_field hfp hfne hm, hf]
      exact ⟨rfl, by simp, hr⟩
    | cons g fs =>
      -- the tab after the first field leaves the scanner before a field again
      have htab := ih (s := { s with
          mode := .fieldStart, field := [], fields := f :: s.fields
          position := (f ++ [9]).foldl .after s.position })
        (fun x hx => h x (List.mem_cons_of_mem f hx)) (by simp) (.inl rfl) rfl hr
      rw [List.intercalate_cons_cons, List.append_assoc, List.foldl_append,
        foldl_take_field hfp hfne hm, hf, List.foldl_append]
      simp only [List.foldl_cons, List.foldl_nil, take, takePlain, endField, if_true,
        List.append_nil, List.reverse_reverse]
      simpa using htab

/-- **A line end ends the row.** The LF of a CRLF is skipped before the next one. -/
theorem AtEnd.lineEnd (h : s.AtEnd fs lines) (e : LineEnd) :
    Between (e.bytes.foldl take s) (lines ++ [fs]) := by
  obtain ⟨hm, rfl, rfl⟩ := h
  cases e <;> constructor <;> simp [LineEnd.bytes, take, hm, takePlain, endRow, endField]

/-- **An empty line is no row.** -/
theorem Between.lineEnd (h : s.Between lines) (e : LineEnd) :
    Between (e.bytes.foldl take s) lines := by
  obtain ⟨hm, hf, hfs, rfl⟩ := h
  obtain hm | hm := hm <;> cases e <;> constructor <;>
    simp [LineEnd.bytes, take, hm, takeRowStart, hf, hfs]

/-- **Each line is one row.** -/
theorem Between.text {bytes : List UInt8} (hs : s.Between before) (ht : Lines lines bytes)
    (h : ∀ fs ∈ lines, fs ≠ [] ∧ ∀ f ∈ fs, f ≠ [] ∧ ∀ b ∈ f, Plain b) :
    Between (bytes.foldl take s) (before ++ lines) := by
  induction ht generalizing s before with
  | nil => simpa using hs
  | empty e _ ih =>
    rw [List.foldl_append]
    exact ih (hs.lineEnd e) h
  | line fs e _ ih =>
    obtain ⟨hne, hfields⟩ := h fs (by simp)
    have hend := foldl_take_fields hfields hne (.inr hs.mode) hs.field hs.rows
    rw [hs.fields, List.reverse_nil, List.nil_append] at hend
    have hnext := ih (hend.lineEnd e) fun x hx => h x (List.mem_cons_of_mem fs hx)
    rw [List.foldl_append, List.foldl_append]
    simpa using hnext

end Scanner

/-- **Lines of plain fields are rows of these fields**, in a text without byte order mark. -/
theorem fields_rows {lines : List (List (List UInt8))} {bytes : List UInt8}
    (ht : Lines lines bytes)
    (h : ∀ fs ∈ lines, fs ≠ [] ∧ ∀ f ∈ fs, f ≠ [] ∧ ∀ b ∈ f, Plain b)
    (hmark : byteOrderMark.isPrefixOf bytes = false) :
    (rows bytes).map Row.fields = lines := by
  have hfresh : ({ position := ⟨0, 1⟩, start := ⟨0, 1⟩ } : Scanner).Between [] :=
    ⟨.inl rfl, rfl, rfl, rfl⟩
  have hs := hfresh.text ht h
  simp only [rows, hmark, Bool.false_eq_true, if_false, Scanner.finish]
  obtain hm | hm := hs.mode <;> rw [hm] <;> exact hs.rows

end StopWait.Text

namespace StopWait.Log

open Text (Graphic Plain chars)

variable {r : Record}

/-- The columns of a line hold nothing but ASCII that shows. -/
theorem Record.graphic_columns (r : Record) :
    ∀ f ∈ r.columns, f ≠ [] ∧ ∀ b ∈ f, Graphic b ∧ Plain b := by
  have digits : ∀ n, Text.decimal n ≠ [] ∧ ∀ b ∈ Text.decimal n, Graphic b ∧ Plain b := by
    intro n
    refine ⟨Text.decimal_ne_nil n, fun b hb => ?_⟩
    have hd := Text.decimal_digits n b hb
    refine ⟨⟨by omega, by omega⟩, ?_, ?_, ?_, ?_⟩ <;>
      · rintro rfl
        revert hd
        decide
  intro f hf
  simp only [columns, List.mem_cons, List.not_mem_nil, or_false] at hf
  rcases hf with rfl | rfl | rfl | rfl
  · refine ⟨by cases r.direction <;> simp [Direction.bytes], fun b hb => ?_⟩
    -- the bytes of the two labels
    have hlabel : b ∈ [82, 83, 99, 100, 101, 110, 118, 58] := by
      revert hb
      cases r.direction <;> simp only [Direction.bytes, List.mem_cons, List.not_mem_nil] <;> grind
    simp only [List.mem_cons, List.not_mem_nil, or_false] at hlabel
    unfold Graphic Plain
    rcases hlabel with rfl | rfl | rfl | rfl | rfl | rfl | rfl | rfl <;> decide
  · exact digits _
  · exact digits _
  · exact digits _

/-- A field with spaces on either side. -/
def Padded (f g : List UInt8) : Prop :=
  ∃ m n, g = List.replicate m 32 ++ f ++ List.replicate n 32

theorem padded_self (f : List UInt8) : Padded f f := ⟨0, 0, by simp⟩

theorem Padded.plain {f g : List UInt8} (h : Padded f g) (hf : f ≠ [] ∧ ∀ b ∈ f, Plain b) :
    g ≠ [] ∧ ∀ b ∈ g, Plain b := by
  obtain ⟨m, n, rfl⟩ := h
  refine ⟨by simp [hf.1], fun b hb => ?_⟩
  have hspace : Plain 32 := ⟨by decide, by decide, by decide, by decide⟩
  simp only [List.mem_append, List.mem_replicate] at hb
  obtain (⟨-, rfl⟩ | hb) | ⟨-, rfl⟩ := hb
  · exact hspace
  · exact hf.2 b hb
  · exact hspace

/-- **A field of ASCII that shows is read as it is**, whatever spaces there are around it. -/
theorem Padded.fieldText_eq (index : Nat) {f g : List UInt8} (hp : Padded f g)
    (h : ∀ b ∈ f, Graphic b) : fieldText index g = .ok (chars f) := by
  obtain ⟨m, n, rfl⟩ := hp
  have hb : ∀ b ∈ f, Text.isAsciiBlank b = false := by
    intro b hb
    have hg := h b hb
    unfold Graphic at hg
    simp only [Text.isAsciiBlank, Bool.or_eq_false_iff, beq_eq_false_iff_ne]
    refine ⟨⟨⟨⟨?_, ?_⟩, ?_⟩, ?_⟩, ?_⟩ <;>
      · rintro rfl
        revert hg
        decide
  have hc : ∀ c ∈ chars f, Text.isBlank c = false := by
    intro c hc
    obtain ⟨b, hb, rfl⟩ := List.mem_map.1 hc
    have : ∀ k, k < 127 → 33 ≤ k → Text.isBlank (Char.ofNat k) = false := by decide
    exact this b.toNat (Nat.lt_succ_of_le (h b hb).2) (h b hb).1
  rw [fieldText, Text.trimBy_padded rfl, Text.trimBy_eq_self hb, Text.decodeUtf8_graphic h]
  simp only [Text.trimBy_eq_self hc]

theorem fieldTexts_padded (index : Nat) {columns fields : List (List UInt8)}
    (hp : List.Forall₂ Padded columns fields) (h : ∀ f ∈ columns, ∀ b ∈ f, Graphic b) :
    fieldTexts index fields = .ok (columns.map chars) := by
  induction hp generalizing index with
  | nil => rfl
  | @cons f g fs gs hfg _ ih =>
    rw [fieldTexts, hfg.fieldText_eq index (h f (by simp)),
      ih (index + 1) fun x hx => h x (List.mem_cons_of_mem f hx)]
    rfl

theorem readDirection_bytes (d : Direction) : readDirection (chars d.bytes) = .ok d := by
  -- the label is compared as text
  have h : chars d.bytes = d.label.toList := by cases d <;> decide
  rw [h]
  cases d with
  | send => rw [readDirection, if_pos rfl]
  | recv => rw [readDirection, if_neg (by decide), if_pos rfl]

/-- **A row that holds the columns of a record**, padded or not, is read as that record. -/
theorem readRow_columns {row : Text.Row} (h : List.Forall₂ Padded r.columns row.fields) :
    readRow Record.width row = .ok r := by
  have hw : row.fields.length = Record.width := h.length_eq.symm
  have ht := fieldTexts_padded 0 h fun f hf b hb => ((r.graphic_columns f hf).2 b hb).1
  rw [readRow, if_neg (not_not_intro hw), ht]
  simp only [Record.columns, List.map_cons, List.map_nil, bind, Except.bind, List.headD_cons,
    readDirection_bytes, readNumber, List.getElem?_cons_succ, List.getElem?_cons_zero,
    Text.readWord_decimal, pure, Except.pure]

/-- The fields of a line for each record, padded or not. -/
def Fills (records : List Record) (lines : List (List (List UInt8))) : Prop :=
  List.Forall₂ (fun r fs => List.Forall₂ Padded r.columns fs) records lines

theorem readRows_columns (index : Nat) {rows : List Text.Row} {records : List Record}
    (h : Fills records (rows.map Text.Row.fields)) :
    readRows Record.width index rows = .ok records := by
  induction rows generalizing index records with
  | nil =>
    cases h
    rfl
  | cons row rows ih =>
    obtain _ | ⟨hr, hrs⟩ := h
    simp only [readRows, readRow_columns hr, ih (index + 1) hrs]

theorem exists_of_mem_right {α β : Type} {R : α → β → Prop} {xs : List α} {ys : List β}
    (h : List.Forall₂ R xs ys) {y : β} (hy : y ∈ ys) : ∃ x ∈ xs, R x y := by
  induction h with
  | nil => cases hy
  | @cons x z xs ys hxz _ ih =>
    obtain rfl | hy := List.mem_cons.1 hy
    · exact ⟨x, by simp, hxz⟩
    · obtain ⟨x', hx', h'⟩ := ih hy
      exact ⟨x', List.mem_cons_of_mem x hx', h'⟩

theorem Fills.plain {records : List Record} {lines : List (List (List UInt8))}
    (h : Fills records lines) :
    ∀ fs ∈ lines, fs ≠ [] ∧ ∀ f ∈ fs, f ≠ [] ∧ ∀ b ∈ f, Plain b := by
  intro fs hfs
  obtain ⟨r, -, hr⟩ := exists_of_mem_right h hfs
  refine ⟨?_, fun g hg => ?_⟩
  · rintro rfl
    cases hr
  · obtain ⟨f, hf, hp⟩ := exists_of_mem_right hr hg
    have hcol := r.graphic_columns f hf
    exact hp.plain ⟨hcol.1, fun b hb => (hcol.2 b hb).2⟩

/-- **The texts that say the same as some records**: each record is a line of its columns, which may
have spaces around them; a line may end in LF, CR or CRLF, and there may be empty lines. -/
def Renders (records : List Record) (bytes : List UInt8) : Prop :=
  ∃ lines, Fills records lines ∧ Text.Lines lines bytes

/-- No such text begins with a byte order mark. -/
theorem Renders.mark {records : List Record} {bytes : List UInt8} (h : Renders records bytes) :
    Text.byteOrderMark.isPrefixOf bytes = false := by
  obtain ⟨lines, hfills, ht⟩ := h
  cases ht with
  | nil => rfl
  | empty e _ => cases e <;> rfl
  | line fs e _ =>
    obtain _ | ⟨hr, -⟩ := hfills
    rename_i r _
    obtain _ | ⟨⟨m, n, rfl⟩, _ | ⟨-, -⟩⟩ := hr
    simp only [List.intercalate_cons_cons, List.append_assoc]
    -- the first byte is a space or the first letter of a direction
    cases m with
    | succ m => rfl
    | zero => cases r.direction <;> rfl

/-- **They read back as these records.** -/
theorem Renders.read_eq {records : List Record} {bytes : List UInt8} (h : Renders records bytes) :
    read bytes = .ok records := by
  have hmark := h.mark
  obtain ⟨lines, hfills, ht⟩ := h
  have hrows := Text.fields_rows ht hfills.plain hmark
  rw [read]
  cases hr : Text.rows bytes with
  | nil =>
    rw [hr] at hrows
    obtain rfl : lines = [] := hrows.symm
    cases hfills
    rfl
  | cons row rows =>
    rw [hr] at hrows
    rw [← hrows] at hfills
    -- the width is that of the first row, which is a record
    have hw : row.fields.length = Record.width := by
      obtain _ | ⟨hrow, -⟩ := hfills
      exact hrow.length_eq.symm
    simp only [hw]
    exact readRows_columns 0 hfills

/-- The text of records, one line each. -/
def text (records : List Record) : List UInt8 := (records.map Record.line).flatten

theorem text_append (records : List Record) (r : Record) :
    text (records ++ [r]) = text records ++ r.line := by
  simp [text]

/-- The text that is written is one of them. -/
theorem renders_text (records : List Record) : Renders records (text records) := by
  refine ⟨records.map Record.columns, ?_, ?_⟩
  · induction records with
    | nil => exact .nil
    | cons r records ih => exact .cons (List.forall₂_same.2 fun f _ => padded_self f) ih
  · induction records with
    | nil => exact .nil
    | cons r records ih => exact .line r.columns .lf ih

/-- **The text of any records reads back as these records.** -/
theorem read_text (records : List Record) : read (text records) = .ok records :=
  (renders_text records).read_eq

end StopWait.Log
