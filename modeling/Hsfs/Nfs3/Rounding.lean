import Hsfs.Nfs3.Sizes

/-!
# Rounding down to a power of two

`hsfs_block_bits` scans a number for its highest bit, from bit 31 down, and makes a power of two of
it by shifting the `int` one.  Bit 31 of an `int` is its sign, so for numbers that have this bit the
result is extended with ones when it becomes a `long`, unless the number is a power of two and the
caller does not ask for the number of bits: such a number is returned as it is.  `hsfs_block_size`
never rounds numbers that large.
-/

namespace Hsfs

open Word

/-! ## Both kinds of calls -/

/-- `hsfs_block_bits`: the result, and the number of bits that is stored if there is a place for
it. -/
def blockBits (nrbitsp : Bool) (bsize : UInt64) : UInt64 × Option UInt8 :=
  if nrbitsp then ((hsfsBlockBitsNr bsize).1, some (hsfsBlockBitsNr bsize).2)
  else (hsfsBlockBits bsize, none)

/-- `hsfs_block_size`, likewise. -/
def blockSize (nrbitsp : Bool) (bsize : UInt64) : UInt64 × Option UInt8 :=
  if nrbitsp then ((hsfsBlockSizeNr bsize).1, some (hsfsBlockSizeNr bsize).2)
  else (hsfsBlockSize bsize, none)

/-- A number is rounded down to a power of two, with its logarithm where this is asked for. -/
structure Rounded (b : UInt64) (r : UInt64 × Option UInt8) : Prop where
  value : IsFloorPow r.1.toNat b.toNat
  bits : ∀ nrbits ∈ r.2, r.1.toNat = 2 ^ nrbits.toNat

/-- A block size is a power of two between the limits, with its logarithm where this is asked for.
Within the limits it is the argument, rounded down. -/
structure RoundedSize (b : UInt64) (r : UInt64 × Option UInt8) : Prop where
  pow : ∃ k, r.1.toNat = 2 ^ k
  lo : 1024 ≤ r.1.toNat
  hi : r.1.toNat ≤ 1048576
  bits : ∀ nrbits ∈ r.2, r.1.toNat = 2 ^ nrbits.toNat
  within : 1024 ≤ b.toNat → b.toNat ≤ 1048576 → IsFloorPow r.1.toNat b.toNat

section

variable {b : UInt64}

theorem toNat_ne_zero (hb : b ≠ 0) : b.toNat ≠ 0 := fun h ↦ hb (UInt64.toNat_inj.1 h)

/-! ## Numbers without the sign bit -/

/-- Up to the sign bit both calls round. -/
theorem rounded_blockBits (hb : b ≠ 0) (hlt : b.toNat < 2 ^ 31) (nrbitsp : Bool) :
    Rounded b (blockBits nrbitsp b) := by
  have hlog : b.toNat.log2 < 31 := (Nat.log2_lt (toNat_ne_zero hb)).2 hlt
  cases nrbitsp with
  | false => exact ⟨isFloorPow_hsfsBlockBits hb hlt, fun _ h ↦ absurd h (Option.not_mem_none _)⟩
  | true =>
      rw [blockBits, if_pos rfl, hsfsBlockBitsNr_eq hb hlt]
      have hbits : b.toNat.log2.toUInt8.toNat = b.toNat.log2 :=
        UInt8.toNat_ofNat_of_lt' (Nat.lt_trans hlog (by decide))
      refine ⟨?_, fun nrbits h ↦ ?_⟩
      · rw [toNat_intBit hlog]
        exact isFloorPow_log2 (toNat_ne_zero hb)
      · obtain rfl := Option.mem_some.1 h
        rw [toNat_intBit hlog, hbits]

/-! ## Numbers with the sign bit -/

theorem and_sign_ne_zero (hle : 2 ^ 31 ≤ b.toNat) (hlt : b.toNat < 2 ^ 32) :
    b &&& intBit 31 ≠ 0 := by
  have hbit : b.toNat.testBit 31 = true := by
    have hquot : b.toNat / 2 ^ 31 = 1 := by omega
    rw [Nat.testBit_eq_decide_div_mod_eq, hquot]
    rfl
  intro hand
  have hzero : (b.toNat &&& 0xffffffff80000000).testBit 31 = false := by
    rw [show b.toNat &&& 0xffffffff80000000 = (b &&& intBit 31).toNat from rfl, hand]
    rfl
  rw [Nat.testBit_and, hbit, Bool.true_and] at hzero
  exact absurd hzero (by decide)

/-- The scan stops at once, and what is returned is negative as an `int`. -/
theorem hsfsBlockBitsNr_sign (hle : 2 ^ 31 ≤ b.toNat) (hlt : b.toNat < 2 ^ 32) :
    hsfsBlockBitsNr b = (0xffffffff80000000, 31) := by
  have hhigh : highBit b 31 = 31 := by
    rw [highBit, if_pos (and_sign_ne_zero hle hlt)]
  rw [hsfsBlockBitsNr, hhigh]
  rfl

/-- Such a result is far above the number. -/
theorem not_isFloorPow_sign (hlt : b.toNat < 2 ^ 32) :
    ¬ IsFloorPow (0xffffffff80000000 : UInt64).toNat b.toNat := by
  intro h
  exact absurd (Nat.lt_of_le_of_lt h.le hlt) (by decide)

/-- With the sign bit only the sign bit itself is rounded right, by a call that does not ask for the
number of bits. -/
theorem rounded_blockBits_sign_iff (hle : 2 ^ 31 ≤ b.toNat) (hlt : b.toNat < 2 ^ 32)
    (nrbitsp : Bool) :
    Rounded b (blockBits nrbitsp b) ↔ b.toNat = 2 ^ 31 ∧ nrbitsp = false := by
  have hb : b ≠ 0 := by
    rintro rfl
    exact absurd hle (by decide)
  have hsign := hsfsBlockBitsNr_sign hle hlt
  cases nrbitsp with
  | true =>
      refine iff_of_false (fun h ↦ ?_) fun h ↦ absurd h.2 (by decide)
      have hvalue := h.value
      rw [blockBits, if_pos rfl, hsign] at hvalue
      exact not_isFloorPow_sign hlt hvalue
  | false =>
      have hpow := and_pred_eq_zero_iff hb
      have hresult : blockBits false b = (hsfsBlockBits b, none) := rfl
      rw [hresult, hsfsBlockBits]
      by_cases hone : b &&& (b - 1) = 0
      · rw [if_neg (not_not_intro hone)]
        refine iff_of_true ⟨isFloorPow_self (hpow.1 hone),
          fun _ h ↦ absurd h (Option.not_mem_none _)⟩
          ⟨?_, rfl⟩
        obtain ⟨k, hk⟩ := hpow.1 hone
        rw [hk] at hle hlt
        have hlo : 31 ≤ k := (Nat.pow_le_pow_iff_right (by decide)).1 hle
        have hhi : k < 32 := (Nat.pow_lt_pow_iff_right (by decide)).1 hlt
        rw [hk, show k = 31 by omega]
      · rw [if_pos hone, highBit, if_pos (and_sign_ne_zero hle hlt)]
        refine iff_of_false (fun h ↦ not_isFloorPow_sign hlt h.value) fun h ↦
          hone (hpow.2 ⟨31, h.1⟩)

end

/-! ## Block sizes -/

/-- Every block size is right, and it does not depend on whether the number of bits is asked for. -/
theorem roundedSize_blockSize (b : UInt64) (nrbitsp : Bool) :
    RoundedSize b (blockSize nrbitsp b) ∧ (blockSize nrbitsp b).1 = hsfsBlockSize b := by
  obtain ⟨c, hlo, hhi, hsize, hsizeNr, hmin⟩ := exists_blockSize b
  have hc : c ≠ 0 := ne_zero_of_le_toNat hlo
  have hlt : c.toNat < 2 ^ 31 := Nat.lt_of_le_of_lt hhi (by decide)
  have hblock : blockSize nrbitsp b = blockBits nrbitsp c := by
    rw [blockSize, blockBits, hsize, hsizeNr]
  have hrounded := rounded_blockBits hc hlt nrbitsp
  have hsame : (blockBits nrbitsp c).1.toNat = (hsfsBlockBits c).toNat :=
    hrounded.value.unique (isFloorPow_hsfsBlockBits hc hlt)
  rw [hblock, hsize]
  refine ⟨⟨hrounded.value.pow, hrounded.value.greatest 10 hlo, hrounded.value.le.trans hhi,
    hrounded.bits, fun hle hle' ↦ ?_⟩, UInt64.toNat_inj.1 hsame⟩
  rw [← min_eq_left hle', ← hmin hle]
  exact hrounded.value

/-- **Rounding is right up to the sign bit of an `int`.**  Of the numbers above it the sign bit
itself is rounded right, if the number of bits is not asked for.  Block sizes are right for all
numbers. -/
theorem block_bits_iff (b : UInt64) (hpos : 1 ≤ b.toNat) (hlt : b.toNat < 2 ^ 32) (nrbitsp : Bool) :
    (Rounded b (blockBits nrbitsp b) ↔ b.toNat < 2 ^ 31 ∨ b.toNat = 2 ^ 31 ∧ nrbitsp = false) ∧
      ∀ c nrbitsp', RoundedSize c (blockSize nrbitsp' c) ∧
        (blockSize nrbitsp' c).1 = (blockSize false c).1 := by
  have hb : b ≠ 0 := by
    rintro rfl
    exact absurd hpos (by decide)
  refine ⟨?_, fun c nrbitsp' ↦ roundedSize_blockSize c nrbitsp'⟩
  by_cases hsmall : b.toNat < 2 ^ 31
  · exact iff_of_true (rounded_blockBits hb hsmall nrbitsp) (.inl hsmall)
  · rw [rounded_blockBits_sign_iff (Nat.le_of_not_lt hsmall) hlt]
    exact (or_iff_right hsmall).symm

/-- The number 3000, with its bits. -/
theorem block_bits_iff_3000 : Rounded 3000 (blockBits true 3000) :=
  (block_bits_iff 3000 (by decide) (by decide) true).1.2 (.inl (by decide))

/-- With its bits, `2 ^ 31` is rounded to a number of 64 bits. -/
theorem not_block_bits : ¬ ∀ b : UInt64, 1 ≤ b.toNat → b.toNat < 2 ^ 32 → ∀ nrbitsp,
    Rounded b (blockBits nrbitsp b) := by
  intro h
  have hle := (h 0x80000000 (by decide) (by decide) true).value.le
  exact absurd hle (by decide)

end Hsfs
