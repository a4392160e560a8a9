import Hsfs.Base.Errno
import Mathlib.Tactic.Ring

/-!
# Errors that travel as pointers

A function that returns an inode reports a failure by returning an address near
the static object `bad_hsfs_inode` instead.  Addresses are 64-bit words.  Where
the linker put the object is a parameter, a `Layout`; the only thing known about
it is that it lies neither in the first nor in the last page.

The three functions do not fit together: the encoding counts up or down from the
object, while the test looks at the end of the address space.  On every layout the
test so answers "no" for every encoded error (`Layout.isErr_errPtr`).  Of what callers
expect of the functions, two things hold (`errPtr_demand_iff`): a negative error is
decoded right, and inodes are not taken for errors.
-/

namespace Hsfs

/-- An address. -/
abbrev Addr := UInt64

/-- The null pointer. -/
def Addr.null : Addr := 0

/-- `sizeof(struct hsfs_inode)` on a machine with 64-bit pointers. -/
def sizeofHsfsInode : Nat := 184

/-- `MAX_ERRNO`. -/
def maxErrno : Nat := sizeofHsfsInode

/-- What the process finds when it starts: where `bad_hsfs_inode` is, and the size of a page. -/
structure Layout where
  /-- The address of `bad_hsfs_inode`. -/
  bad : Addr
  /-- `HSFS_PAGE_SIZE`, as `sysconf` tells it. -/
  pageSize : UInt32
  /-- The object is not in the first page, which is never mapped. -/
  low : 4096 ≤ bad.toNat
  /-- The object ends below the last page. -/
  high : bad.toNat + sizeofHsfsInode ≤ 2 ^ 64 - 4096

/-- `ERR_PTR`, for `bad_hsfs_inode` at any address: both branches of the source subtract.  `none` is
a failure of the assertion that the result is below the end of `bad_hsfs_inode`. -/
def errPtrAt (bad : Addr) (error : Int) : Option Addr :=
  let tmp := if error < 0 then UInt64.ofInt (bad.toNat - error)
    else UInt64.ofInt (bad.toNat - error)
  if tmp < bad + UInt64.ofNat sizeofHsfsInode then some tmp else none

/-- `PTR_ERR`, for `bad_hsfs_inode` at any address: the distance of a pointer from it, as a signed
word. -/
def ptrErrAt (bad ptr : Addr) : Int := (ptr.toBitVec - bad.toBitVec).toInt

/-- `ERR_PTR`. -/
def Layout.errPtr (l : Layout) (error : Int) : Option Addr := errPtrAt l.bad error

/-- `PTR_ERR`. -/
def Layout.ptrErr (l : Layout) (ptr : Addr) : Int := ptrErrAt l.bad ptr

/-- `IS_ERR`: the pointer is one of the last `MAX_ERRNO` addresses. -/
def isErr (ptr : Addr) : Bool := decide (2 ^ 64 - maxErrno ≤ ptr.toNat)

/-- An object that ends below the last page is not taken for an error. -/
theorem isErr_of_lt {ptr : Addr} (h : ptr.toNat < 2 ^ 64 - 4096) : isErr ptr = false :=
  decide_eq_false fun hle ↦ by
    simp only [maxErrno, sizeofHsfsInode] at hle
    omega

/-! ## Any place of the object -/

/-- The object `bad_hsfs_inode` ends below the last page. -/
def BelowTop (bad : Addr) : Prop := bad.toNat + sizeofHsfsInode ≤ 2 ^ 64 - 4096

/-- The address of an inode that the allocator may return: not null, with an end that is an address,
and apart from `bad_hsfs_inode`. -/
structure FromAllocator (bad p : Addr) : Prop where
  ne_null : p ≠ Addr.null
  fits : p.toNat + sizeofHsfsInode < 2 ^ 64
  apart : p.toNat + sizeofHsfsInode ≤ bad.toNat ∨ bad.toNat + sizeofHsfsInode ≤ p.toNat

section

variable {bad : Addr} {error : Int}

theorem toNat_end (hbad : BelowTop bad) :
    (bad + UInt64.ofNat sizeofHsfsInode).toNat = bad.toNat + 184 := by
  unfold BelowTop sizeofHsfsInode at hbad
  rw [UInt64.toNat_add, sizeofHsfsInode, UInt64.toNat_ofNat']
  omega

/-- An error is encoded as far from the object as it is large, if there is an address that far. -/
theorem errPtrAt_of_le (hbad : BelowTop bad) (hlo : -184 < error) (hle : error ≤ bad.toNat) :
    ∃ p, errPtrAt bad error = some p ∧ (p.toNat : Int) = bad.toNat - error := by
  have hend := toNat_end hbad
  unfold BelowTop sizeofHsfsInode at hbad
  have hp : (UInt64.ofInt (bad.toNat - error)).toNat = ((bad.toNat : Int) - error).toNat := by
    rw [UInt64.ofInt, UInt64.toNat_ofNat']
    omega
  refine ⟨UInt64.ofInt (bad.toNat - error), ?_, by omega⟩
  rw [errPtrAt, ite_self, if_pos]
  rw [UInt64.lt_iff_toNat_lt, hp, hend]
  omega

/-- Counting down past zero ends at the last addresses, where the assertion fails. -/
theorem errPtrAt_of_lt (hbad : BelowTop bad) (hlt : bad.toNat < error) (hhi : error < 184) :
    errPtrAt bad error = none := by
  have hend := toNat_end hbad
  unfold BelowTop sizeofHsfsInode at hbad
  have hp : (UInt64.ofInt (bad.toNat - error)).toNat =
    (2 ^ 64 + (bad.toNat : Int) - error).toNat := by
    rw [UInt64.ofInt, UInt64.toNat_ofNat']
    omega
  rw [errPtrAt, ite_self, if_neg]
  rw [UInt64.lt_iff_toNat_lt, hp, hend]
  omega

/-- Decoding is a subtraction of addresses, so it gives the error with the opposite sign. -/
theorem ptrErrAt_eq {p : Addr} (hp : (p.toNat : Int) = bad.toNat - error) (hlo : -184 < error)
    (hhi : error < 184) : ptrErrAt bad p = -error := by
  have hval : (ptrErrAt bad p) = Int.bmod (p.toNat - bad.toNat) (2 ^ 64) := by
    rw [ptrErrAt, BitVec.toInt_sub, BitVec.toInt_eq_toNat_bmod, BitVec.toInt_eq_toNat_bmod,
      Int.sub_bmod_bmod, Int.bmod_sub_bmod]
    rfl
  rw [hval, hp, Int.bmod_def]
  omega

/-- An encoded error, of either sign, is not recognised. -/
theorem isErr_errPtrAt (hbad : BelowTop bad) (hlo : -184 < error) (hhi : error < 184) {p : Addr}
    (hp : errPtrAt bad error = some p) : isErr p = false := by
  by_cases hle : error ≤ bad.toNat
  · obtain ⟨q, hq, hval⟩ := errPtrAt_of_le hbad hlo hle
    obtain rfl : p = q := Option.some.inj (hp.symm.trans hq)
    unfold BelowTop sizeofHsfsInode at hbad
    exact isErr_of_lt (by omega)
  · rw [errPtrAt_of_lt hbad (by omega) hhi] at hp
    exact absurd hp.symm (Option.some_ne_none p)

end

namespace Layout

variable (l : Layout)

/-- An encoded error lies as far from `bad_hsfs_inode` as the error is large, on
the other side of zero. -/
theorem errPtr_eq {error : Int} (hlo : -184 < error) (hhi : error < 184) :
    ∃ p, l.errPtr error = some p ∧ (p.toNat : Int) = l.bad.toNat - error := by
  have hlow := l.low
  exact errPtrAt_of_le l.high hlo (by omega)

/-- **The test misses every encoded error.** -/
theorem isErr_errPtr {error : Int} (hlo : -184 < error) (hhi : error < 184) {p : Addr}
    (hp : l.errPtr error = some p) : isErr p = false :=
  isErr_errPtrAt l.high hlo hhi hp

end Layout

/-! ## The demands -/

/-- What is demanded of an error, given as a positive number, and of an inode. -/
inductive Demand where
  /-- `IS_ERR(ERR_PTR(-e))`. -/
  | isErrNeg
  /-- `IS_ERR(ERR_PTR(e))`. -/
  | isErrPos
  /-- `PTR_ERR(ERR_PTR(-e)) == e`. -/
  | ptrErrNeg
  /-- `PTR_ERR(ERR_PTR(e)) == e`. -/
  | ptrErrPos
  /-- `!IS_ERR(p)`. -/
  | notIsErr
  deriving DecidableEq

/-- A demand is met, for `bad_hsfs_inode` at `bad`, the error `e` and an inode at `p`. -/
def Demand.Met (bad : Addr) (e : Nat) (p : Addr) : Demand → Prop
  | .isErrNeg => ∃ q, errPtrAt bad (-e) = some q ∧ isErr q = true
  | .isErrPos => ∃ q, errPtrAt bad e = some q ∧ isErr q = true
  | .ptrErrNeg => ∃ q, errPtrAt bad (-e) = some q ∧ ptrErrAt bad q = e
  | .ptrErrPos => ∃ q, errPtrAt bad e = some q ∧ ptrErrAt bad q = e
  | .notIsErr => isErr p = false

/-- **Error pointers are decoded right if the error was negative, and never recognised.**  Inodes
are not taken for errors. -/
theorem errPtr_demand_iff (bad : Addr) (hbad : BelowTop bad) (e : Nat) (hpos : 0 < e)
    (hlt : e < sizeofHsfsInode) (p : Addr) (hp : FromAllocator bad p) (demand : Demand) :
    demand.Met bad e p ↔ demand = .ptrErrNeg ∨ demand = .notIsErr := by
  have hsize : e < 184 := hlt
  cases demand with
  | isErrNeg =>
      refine iff_of_false ?_ (by decide)
      rintro ⟨q, hq, herr⟩
      rw [isErr_errPtrAt hbad (by omega) (by omega) hq] at herr
      exact Bool.false_ne_true herr
  | isErrPos =>
      refine iff_of_false ?_ (by decide)
      rintro ⟨q, hq, herr⟩
      rw [isErr_errPtrAt hbad (by omega) (by omega) hq] at herr
      exact Bool.false_ne_true herr
  | ptrErrNeg =>
      refine iff_of_true ?_ (.inl rfl)
      have hneg : -184 < -(e : Int) := by omega
      obtain ⟨q, hq, hval⟩ := errPtrAt_of_le hbad hneg (by omega)
      exact ⟨q, hq, (ptrErrAt_eq hval (by omega) (by omega)).trans (Int.neg_neg _)⟩
  | ptrErrPos =>
      refine iff_of_false ?_ (by decide)
      rintro ⟨q, hq, hval⟩
      by_cases hle : (e : Int) ≤ bad.toNat
      · obtain ⟨q', hq', hdist⟩ := errPtrAt_of_le hbad (by omega) hle
        obtain rfl : q = q' := Option.some.inj (hq.symm.trans hq')
        rw [ptrErrAt_eq hdist (by omega) (by omega)] at hval
        omega
      · rw [errPtrAt_of_lt hbad (by omega) (by omega)] at hq
        exact absurd hq.symm (Option.some_ne_none q)
  | notIsErr =>
      refine iff_of_true (decide_eq_false fun hle ↦ ?_) (.inr rfl)
      have hfits := hp.fits
      unfold maxErrno at hle
      unfold sizeofHsfsInode at hle hfits
      omega

/-- A place in the data segment, the error `ENOENT` and an inode above it. -/
theorem errPtr_demand_iff_noent : Demand.ptrErrNeg.Met 0x605000 2 0x1000000 :=
  (errPtr_demand_iff 0x605000 (by unfold BelowTop; decide) 2 (by decide) (by decide) 0x1000000
    ⟨by decide, by decide, .inr (by decide)⟩ .ptrErrNeg).2 (.inl rfl)

/-- With the object in the data segment, `ENOENT` is not recognised as an error. -/
theorem not_errPtr_demand : ¬ ∀ bad, BelowTop bad → ∀ e, 0 < e → e < sizeofHsfsInode →
    ∀ p, FromAllocator bad p → ∀ demand : Demand, demand.Met bad e p := by
  intro h
  obtain ⟨q, hq, herr⟩ :=
    h 0x605000 (by unfold BelowTop; decide) 2 (by decide) (by decide) 0x1000000
    ⟨by decide, by decide, .inr (by decide)⟩ .isErrNeg
  obtain rfl : (0x605002 : Addr) = q := Option.some.inj ((by decide : _ = _).trans hq)
  exact absurd herr (by decide)

end Hsfs
