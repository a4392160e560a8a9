import Mathlib.Algebra.Order.Floor.Div
import Mathlib.Data.Nat.Bitwise

/-!
# Powers of two in words

Some things that programs do with powers of two in machine words.  One is to divide and round up, by
adding one less than the divisor and shifting.  The sum wraps around for the last numbers, and then
the result is wrong (`shiftUp_eq_ceilDiv_iff`).  Another is to test a single bit
(`and_bit_ne_zero_iff`), or whether there is but one (`and_pred_eq_zero_iff`).  `IsFloorPow` says
what a number is when it is rounded down to a power of two.
-/

namespace Hsfs.Word

/-- Rounding up in numbers that do not wrap around. -/
theorem add_pred_div_eq_ceilDiv (n : Nat) {m : Nat} (hm : 0 < m) : (n + (m - 1)) / m = n ⌈/⌉ m := by
  rw [Nat.ceilDiv_eq_add_pred_div, Nat.add_sub_assoc hm]

/-- **Adding and shifting divides and rounds up just if the sum fits the word.** -/
theorem shiftUp_eq_ceilDiv_iff {x r s : UInt64} {k : Nat} (hk : k < 64) (hr : r.toNat = 2 ^ k - 1)
    (hs : s.toNat = k) :
    ((x + r) >>> s).toNat = x.toNat ⌈/⌉ 2 ^ k ↔ x.toNat + (2 ^ k - 1) < 2 ^ 64 := by
  have hpos : 0 < 2 ^ k := Nat.two_pow_pos k
  have hshift : ((x + r) >>> s).toNat = (x.toNat + (2 ^ k - 1)) % 2 ^ 64 / 2 ^ k := by
    rw [UInt64.toNat_shiftRight, UInt64.toNat_add, hs, hr, Nat.mod_eq_of_lt hk,
      Nat.shiftRight_eq_div_pow]
  have hx : x.toNat < 2 ^ 64 := x.toNat_lt
  rw [hshift]
  by_cases hfits : x.toNat + (2 ^ k - 1) < 2 ^ 64
  · rw [Nat.mod_eq_of_lt hfits, add_pred_div_eq_ceilDiv _ hpos]
    exact iff_of_true rfl hfits
  · refine iff_of_false (fun heq ↦ ?_) hfits
    -- the sum wraps around to less than the divisor
    have hwrap : (x.toNat + (2 ^ k - 1)) % 2 ^ 64 / 2 ^ k = 0 := by
      rw [Nat.mod_eq_sub_mod (Nat.le_of_not_lt hfits)]
      refine Nat.div_eq_of_lt (Nat.lt_of_le_of_lt (Nat.mod_le _ _) ?_)
      omega
    have hone : 1 ≤ x.toNat ⌈/⌉ 2 ^ k := by
      rw [← add_pred_div_eq_ceilDiv _ hpos, Nat.one_le_div_iff hpos]
      have hlarge : 2 ^ k ≤ 2 ^ 63 := Nat.pow_le_pow_right Nat.two_pos (Nat.le_of_lt_succ hk)
      omega
    omega

/-- The highest bit that a number can have is set just if the number is at least that bit. -/
theorem and_bit_ne_zero_iff {x b : UInt64} {k : Nat} (hb : b.toNat = 2 ^ k)
    (hx : x.toNat < 2 ^ (k + 1)) :
    x &&& b ≠ 0 ↔ 2 ^ k ≤ x.toNat := by
  have hpos : 0 < 2 ^ k := Nat.two_pow_pos k
  rw [ne_eq, ← UInt64.toNat_inj, UInt64.toNat_and, hb, Nat.and_two_pow,
    Nat.testBit_eq_decide_div_mod_eq]
  have hquot : x.toNat / 2 ^ k < 2 := by
    rw [Nat.div_lt_iff_lt_mul hpos]
    rwa [Nat.pow_succ'] at hx
  rw [Nat.mod_eq_of_lt hquot, ← Nat.one_le_div_iff hpos]
  by_cases hset : x.toNat / 2 ^ k = 1
  · simp [hset]
  · have hzero : x.toNat / 2 ^ k = 0 :=
      Nat.lt_one_iff.1 (Nat.lt_of_le_of_ne (Nat.le_of_lt_succ hquot) hset)
    simp [hzero]

/-- Clearing the lowest bit that is set leaves nothing just if there is but one. -/
theorem and_pred_eq_zero_iff {x : UInt64} (hx : x ≠ 0) : x &&& (x - 1) = 0 ↔
    ∃ k, x.toNat = 2 ^ k := by
  have hne : x.toNat ≠ 0 := fun h ↦ hx (UInt64.toNat_inj.1 h)
  have hone : 1 ≤ x := UInt64.le_iff_toNat_le.2 (Nat.pos_of_ne_zero hne)
  rw [← UInt64.toNat_inj, UInt64.toNat_and, UInt64.toNat_sub_of_le _ _ hone]
  exact Nat.and_sub_one_eq_zero_iff_isPowerOfTwo hne

/-- The number `r` is the largest power of two that is not above `n`. -/
structure IsFloorPow (r n : Nat) : Prop where
  pow : ∃ k, r = 2 ^ k
  le : r ≤ n
  greatest : ∀ k, 2 ^ k ≤ n → 2 ^ k ≤ r

/-- Rounding down keeps the highest bit. -/
theorem isFloorPow_log2 {n : Nat} (hn : n ≠ 0) : IsFloorPow (2 ^ n.log2) n :=
  ⟨⟨_, rfl⟩, Nat.log2_self_le hn, fun _ hk ↦ Nat.pow_le_pow_right Nat.two_pos
    ((Nat.le_log2 hn).2 hk)⟩

/-- A power of two is rounded down to itself. -/
theorem isFloorPow_self {n : Nat} (hn : ∃ k, n = 2 ^ k) : IsFloorPow n n :=
  ⟨hn, Nat.le_refl n, fun _ hk ↦ hk⟩

theorem IsFloorPow.unique {r r' n : Nat} (h : IsFloorPow r n) (h' : IsFloorPow r' n) : r = r' := by
  obtain ⟨k, rfl⟩ := h.pow
  obtain ⟨k', rfl⟩ := h'.pow
  exact Nat.le_antisymm (h'.greatest k h.le) (h.greatest k' h'.le)

end Hsfs.Word
