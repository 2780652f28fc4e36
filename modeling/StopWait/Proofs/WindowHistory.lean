import StopWait.Proofs.Ledger

/-!
# The send window over any history

A window is told of sends and of acknowledgments, in any order and of any lengths, also of those
that no sender would tell it of. The lengths bear on the remainder alone. The congestion window goes
through one and the same sequence, a number further with each acknowledged data segment, and the
send window is that number, capped. So the remainder is all that can leave the words.

* `congestion`: the sequence; `toNat_congestion_bounds`, `toNat_congestion_le_add`: it grows, up to
  `cwndLimit`.
* `Sized`: the congestion window and the send window after so many acknowledged data segments.
* `Sized.acknowledge_data`: **what an acknowledged data segment comes to**, whatever its length.
* `Sized.update`, `Sized.after`: what an update and a history make of the two windows.
* `Sized.update_eq_error_iff`: **the updates that leave the words.**
* `history_sized`: **the window over any history.**
-/

namespace StopWait.SendWindow

/-- What a window is told. -/
inductive Update where
  /-- A data segment of this length is sent. -/
  | spent (len : UInt32)
  /-- An acknowledgment arrives. -/
  | acknowledged (what : Acknowledged)
deriving DecidableEq, Repr

/-- A data segment is acknowledged. -/
def Update.grows : Update → Bool
  | .acknowledged (.data _) => true
  | _ => false

/-- What a window makes of what it is told. -/
def update (w : SendWindow) : Update → Except Overflow SendWindow
  | .spent len => .ok (w.spend len)
  | .acknowledged what => w.acknowledge what

/-- **What a history makes of a window**, up to its first overflow. -/
def after (w : SendWindow) (us : List Update) : Except Overflow SendWindow := us.foldlM update w

/-- **The congestion window after so many acknowledged data segments.** -/
def congestion : Nat → UInt32
  | 0 => mss
  | n + 1 => congestion n + growth (congestion n)

/-- **The two windows after so many acknowledged data segments.** What remains can be anything. -/
structure Sized (w : SendWindow) (n : Nat) : Prop where
  cwnd : w.cwnd = congestion n
  swnd : w.swnd = min w.cwnd maxWindow

variable {w v : SendWindow} {u : Update} {us : List Update} {n : Nat} {len : UInt32}

theorem toNat_congestion_bounds (n : Nat) :
    mss.toNat ≤ (congestion n).toNat ∧ (congestion n).toNat ≤ cwndLimit := by
  induction n with
  | zero => exact ⟨Nat.le_refl _, by decide⟩
  | succ n ih =>
    have hgrown := add_growth_le ih.2
    have hsum := toNat_add_of_lt (add_growth_lt ih.2)
    rw [congestion]
    omega

theorem toNat_congestion_succ (n : Nat) :
    (congestion (n + 1)).toNat = (congestion n).toNat + (growth (congestion n)).toNat := by
  rw [congestion]
  exact toNat_add_of_lt (add_growth_lt (toNat_congestion_bounds n).2)

/-- **The congestion window never shrinks.** -/
theorem toNat_congestion_le_add (m k : Nat) :
    (congestion m).toNat ≤ (congestion (m + k)).toNat := by
  induction k with
  | zero => exact Nat.le_refl _
  | succ k ih =>
    have hsucc := toNat_congestion_succ (m + k)
    rw [← Nat.add_assoc]
    omega

theorem add_eq_error {a b : UInt32} (e : Overflow) (h : Word.limit32 ≤ a.toNat + b.toNat) :
    add a b e = .error e := by
  rw [add, if_neg (Nat.not_lt.2 h)]

theorem sized_initial : initial.Sized 0 := ⟨rfl, by decide⟩

/-- A window that is sized is one of which all may be free, but for what remains. -/
theorem Sized.conserved (h : w.Sized n) :
    ({ w with remainder := w.swnd } : SendWindow).Conserved 0 := by
  obtain ⟨hlower, hupper⟩ := toNat_congestion_bounds n
  rw [← h.cwnd] at hlower hupper
  exact ⟨h.swnd, hlower, hupper, rfl⟩

theorem Sized.cwnd_add_growth (h : w.Sized n) : w.cwnd + growth w.cwnd = congestion (n + 1) := by
  rw [h.cwnd, congestion]

/-- The send window does not shrink. -/
theorem Sized.swnd_le (h : w.Sized n) : w.swnd ≤ min (congestion (n + 1)) maxWindow := by
  have hsucc := toNat_congestion_succ n
  rw [UInt32.le_iff_toNat_le, h.swnd, toNat_min, toNat_min, h.cwnd]
  omega

/-- **The audit's growth of a send window is what it grows by**, whatever remains. -/
theorem Sized.growth_swnd (h : w.Sized n) :
    Log.growth w.swnd = min (congestion (n + 1)) maxWindow - w.swnd := by
  rw [← h.cwnd_add_growth]
  exact h.conserved.growth_swnd

/-- **What an acknowledged data segment comes to**: the windows go on in their sequence, the send
window by as much as the audit says, and what leaves the words, if anything does, is what
remains. -/
theorem Sized.acknowledge_data (h : w.Sized n) (len : UInt32) :
    w.acknowledge (.data len) =
      if Word.limit32 ≤ w.remainder.toNat + len.toNat then .error .refund
      else if Word.limit32 ≤ w.remainder.toNat + len.toNat + (Log.growth w.swnd).toNat then
        .error .growth
      else .ok ⟨congestion (n + 1), min (congestion (n + 1)) maxWindow,
        w.remainder + len + Log.growth w.swnd⟩ := by
  have hfits : w.cwnd.toNat + (growth w.cwnd).toNat < Word.limit32 :=
    add_growth_lt h.conserved.upper
  simp only [acknowledge, settle, add_eq_ok _ hfits, h.cwnd_add_growth, sub_eq_ok _ h.swnd_le,
    ← h.growth_swnd, bind, Except.bind]
  by_cases hrefund : Word.limit32 ≤ w.remainder.toNat + len.toNat
  · rw [if_pos hrefund, add_eq_error _ hrefund]
  · have hrefunded := toNat_add_of_lt (Nat.not_le.1 hrefund)
    rw [if_neg hrefund, add_eq_ok _ (Nat.not_le.1 hrefund), ← hrefunded]
    by_cases hgrow : Word.limit32 ≤ (w.remainder + len).toNat + (Log.growth w.swnd).toNat
    · simp only [if_pos hgrow, add_eq_error _ hgrow]
    · simp only [if_neg hgrow, add_eq_ok _ (Nat.not_le.1 hgrow)]
      rfl

/-- **The updates that leave the words**: only an acknowledged data segment does, and only what
remains. -/
theorem Sized.update_eq_error_iff (h : w.Sized n) (e : Overflow) :
    w.update u = .error e ↔ ∃ len, u = .acknowledged (.data len) ∧
      (Word.limit32 ≤ w.remainder.toNat + len.toNat ∧ e = .refund ∨
        w.remainder.toNat + len.toNat < Word.limit32 ∧
          Word.limit32 ≤ w.remainder.toNat + len.toNat + (Log.growth w.swnd).toNat ∧
          e = .growth) := by
  rcases u with len | len | -
  · exact ⟨nofun, nofun⟩
  · rw [SendWindow.update, h.acknowledge_data]
    constructor
    · intro he
      refine ⟨len, rfl, ?_⟩
      split at he
      · exact .inl ⟨‹_›, (Except.error.inj he).symm⟩
      · split at he
        · exact .inr ⟨Nat.not_le.1 ‹_›, ‹_›, (Except.error.inj he).symm⟩
        · cases he
    · rintro ⟨len', heq, ⟨hrefund, rfl⟩ | ⟨hrefund, hgrow, rfl⟩⟩ <;> cases heq
      · rw [if_pos hrefund]
      · rw [if_neg (Nat.not_le.2 hrefund), if_pos hgrow]
  · rw [SendWindow.update, acknowledge_control h.swnd]
    exact ⟨nofun, nofun⟩

/-- **What an update makes of the two windows**: those of the next number, if a data segment is
acknowledged, and else the same. -/
theorem Sized.update (h : w.Sized n) (hv : w.update u = .ok v) :
    v.Sized (n + if u.grows then 1 else 0) := by
  rcases u with len | len | -
  · obtain rfl : w.spend len = v := Except.ok.inj hv
    exact ⟨h.cwnd, h.swnd⟩
  · rw [SendWindow.update, h.acknowledge_data] at hv
    split at hv
    · cases hv
    · split at hv <;> cases hv
      exact ⟨rfl, rfl⟩
  · rw [SendWindow.update, acknowledge_control h.swnd] at hv
    obtain rfl : w = v := Except.ok.inj hv
    exact h

/-- **What a history makes of the two windows.** -/
theorem Sized.after (h : w.Sized n) (hv : w.after us = .ok v) :
    v.Sized (n + us.countP Update.grows) := by
  induction us generalizing w n with
  | nil =>
    cases hv
    exact h
  | cons u us ih =>
    rw [SendWindow.after, List.foldlM_cons] at hv
    cases hx : w.update u with
    | error e =>
      rw [hx] at hv
      cases hv
    | ok x =>
      rw [hx] at hv
      rw [List.countP_cons, Nat.add_comm (us.countP _), ← Nat.add_assoc]
      exact ih (h.update hx) hv

/-- **The window over any history** of sends and acknowledgments, of any lengths, that has not yet
left the words.

The congestion window is that of the number of acknowledged data segments, whatever their lengths
and whatever came between them; it is within its bounds, so that nothing is divided by zero, and
never shrinks. The send window is the
congestion window, capped. Of all that can come next, only the acknowledgment of a data segment can
leave the words, and that exactly where the sum of what remains, its length and the growth of the
send window does. With each one that does not, the send window grows by what the audit says. -/
theorem history_sized (before : List Update) (h : initial.after before = .ok w) :
    (w.cwnd = congestion (before.countP Update.grows) ∧ w.swnd = min w.cwnd maxWindow) ∧
    (536 ≤ w.cwnd.toNat ∧ w.cwnd.toNat ≤ 287297) ∧
    (∀ later v, w.after later = .ok v → w.cwnd ≤ v.cwnd) ∧
    (∀ u e, w.update u = .error e ↔ ∃ len, u = .acknowledged (.data len) ∧
      (Word.limit32 ≤ w.remainder.toNat + len.toNat ∧ e = .refund ∨
        w.remainder.toNat + len.toNat < Word.limit32 ∧
          Word.limit32 ≤ w.remainder.toNat + len.toNat + (Log.growth w.swnd).toNat ∧
          e = .growth)) ∧
    ∀ len v, w.update (.acknowledged (.data len)) = .ok v →
      v.swnd.toNat = w.swnd.toNat + (Log.growth w.swnd).toNat := by
  have hsized : w.Sized (before.countP Update.grows) := by
    rw [← Nat.zero_add (before.countP _)]
    exact sized_initial.after h
  refine ⟨⟨hsized.cwnd, hsized.swnd⟩, ?_, ?_, fun u e => hsized.update_eq_error_iff e, ?_⟩
  · rw [hsized.cwnd]
    exact toNat_congestion_bounds _
  · intro later v hv
    rw [UInt32.le_iff_toNat_le, hsized.cwnd, (hsized.after hv).cwnd]
    exact toNat_congestion_le_add _ _
  · intro len v hv
    have hnext := hsized.update hv
    have hdiff := UInt32.toNat_sub_of_le _ _ hsized.swnd_le
    have hle := UInt32.le_iff_toNat_le.1 hsized.swnd_le
    have hswnd : v.swnd = min (congestion (before.countP Update.grows + 1)) maxWindow := by
      rw [hnext.swnd, hnext.cwnd]
      rfl
    rw [hswnd, hsized.growth_swnd, hdiff]
    omega

/-- An acknowledgment of more than was ever sent is taken; after that one of 200 bytes has the
remainder leave the words, with the growth of the send window. -/
theorem history_sized_overpaid : ∃ w,
    initial.after [.spent 100, .acknowledged (.data 4294966000), .acknowledged .control] = .ok w ∧
    w.cwnd = congestion 1 ∧ w.update (.acknowledged (.data 200)) = .error .growth := by
  have hafter : initial.after
      [.spent 100, .acknowledged (.data 4294966000), .acknowledged .control] =
        .ok ⟨1072, 1072, 4294966972⟩ := by decide
  obtain ⟨⟨hcwnd, -⟩, -, -, herror, -⟩ := history_sized _ hafter
  have hgrowth : (Log.growth 1072).toNat = 536 := by decide
  refine ⟨_, hafter, hcwnd, (herror _ _).2 ⟨200, rfl, .inr ⟨by decide, ?_, rfl⟩⟩⟩
  rw [hgrowth]
  decide

end StopWait.SendWindow
