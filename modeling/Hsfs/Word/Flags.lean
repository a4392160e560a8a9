import Mathlib.Tactic.Common

/-!
# Words as sets of flags

A word is the set of its bits.  `x &&& m = m` says that all flags of `m` are in `x`, `x ||| m` puts
them in and `x &&& ~~~m` takes them out; what that means for each bit is all one needs to know.
-/

namespace Hsfs.Word

variable {x y m : UInt32} {i : Nat}

/-- The flag is in the set. -/
def bit (x : UInt32) (i : Nat) : Bool := x.toBitVec.getLsbD i

/-- Words with the same flags are the same. -/
theorem ext_bits (h : ∀ i < 32, bit x i = bit y i) : x = y :=
  UInt32.toBitVec_inj.1 (BitVec.eq_of_getLsbD_eq h)

@[simp]
theorem bit_zero (i : Nat) : bit 0 i = false := BitVec.getLsbD_zero

@[simp]
theorem bit_or (x y : UInt32) (i : Nat) : bit (x ||| y) i = (bit x i || bit y i) := by
  rw [bit, UInt32.toBitVec_or, BitVec.getLsbD_or]
  rfl

@[simp]
theorem bit_and (x y : UInt32) (i : Nat) : bit (x &&& y) i = (bit x i && bit y i) := by
  rw [bit, UInt32.toBitVec_and, BitVec.getLsbD_and]
  rfl

theorem bit_and_not (x m : UInt32) (hi : i < 32) :
    bit (x &&& ~~~m) i = (bit x i && !bit m i) := by
  rw [bit_and, bit, bit, UInt32.toBitVec_not, BitVec.getLsbD_not, decide_eq_true hi, Bool.true_and]
  rfl

/-- All flags of the one are in the other. -/
theorem and_eq_right_iff : x &&& m = m ↔ ∀ i < 32, bit m i → bit x i := by
  constructor
  · intro h i _ hm
    rw [← h, bit_and, Bool.and_eq_true] at hm
    exact hm.1
  · intro h
    apply ext_bits
    intro i hi
    rw [bit_and]
    cases hm : bit m i with
    | false => exact Bool.and_false _
    | true => rw [h i hi hm, Bool.and_true]

/-- No flag of the one is missing in the other. -/
theorem and_not_eq_zero_iff : x &&& ~~~m = 0 ↔ ∀ i < 32, bit x i → bit m i := by
  constructor
  · intro h i hi hx
    have hbit := congrArg (bit · i) h
    simp only [bit_and_not x m hi, hx, bit_zero, Bool.true_and, Bool.not_eq_false'] at hbit
    exact hbit
  · intro h
    apply ext_bits
    intro i hi
    rw [bit_and_not x m hi, bit_zero]
    cases hx : bit x i with
    | false => rfl
    | true => rw [h i hi hx]; rfl

end Hsfs.Word
