import Hsfs.Nfs3.Mount
import Hsfs.Word.RoundUp

/-!
# The sizes of blocks and of transfers

`hsfs_block_bits` rounds down to a power of two, and `hsfs_block_size` puts its argument between
`HSFS_MIN_FILE_IO_SIZE` and `HSFS_MAX_FILE_IO_SIZE` before that.  A size that is too small becomes
`HSFS_DEF_FILE_IO_SIZE`, which is larger than the least size that `hsi_fsinfo_to_super` takes from a
server for a limit.  So a server can be asked for more than it allows (`fsinfo_sizes_iff`).
-/

namespace Hsfs

open Word

/-! ## Powers of two -/

theorem toNat_intBit {k : Nat} (hk : k < 31) : (intBit k).toNat = 2 ^ k := by
  have hlt : k < 2 ^ 64 := Nat.lt_trans hk (by decide)
  have hpow : 2 ^ k < 2 ^ 64 := Nat.pow_lt_pow_right (by decide) (by omega)
  have hamount : k.toUInt64.toNat = k := UInt64.toNat_ofNat_of_lt' hlt
  rw [intBit, if_neg (Nat.ne_of_lt hk), UInt64.toNat_shiftLeft, hamount,
    Nat.mod_eq_of_lt (Nat.lt_trans hk (by decide)), Nat.shiftLeft_eq]
  exact (congrArg (· % 2 ^ 64) (Nat.one_mul _)).trans (Nat.mod_eq_of_lt hpow)

/-- The loop of `hsfs_block_bits` finds the highest bit. -/
theorem highBit_eq_log2 {b : UInt64} (hb : b ≠ 0) {nrbits : Nat} (hn : nrbits < 31)
    (hlt : b.toNat < 2 ^ (nrbits + 1)) : highBit b nrbits = b.toNat.log2 := by
  have hne : b.toNat ≠ 0 := fun h ↦ hb (UInt64.toNat_inj.1 h)
  induction nrbits with
  | zero =>
      have hone : b.toNat = 1 := by omega
      rw [highBit, hone]
      rfl
  | succ nrbits ih =>
      have hset := and_bit_ne_zero_iff (toNat_intBit hn) hlt
      rw [highBit]
      split
      · next hbit => exact ((Nat.log2_eq_iff hne).2 ⟨hset.1 hbit, hlt⟩).symm
      · next hbit => exact ih (Nat.lt_of_succ_lt hn) (Nat.lt_of_not_le (mt hset.2 hbit))

/-- The whole loop, for a number without the bit that is the sign of an `int`. -/
theorem highBit_31 {b : UInt64} (hb : b ≠ 0) (hlt : b.toNat < 2 ^ 31) :
    highBit b 31 = b.toNat.log2 := by
  have hsign : ¬ b &&& intBit 31 ≠ 0 := by
    have hand : b &&& intBit 31 = 0 := by
      rw [← UInt64.toNat_inj, UInt64.toNat_and]
      change b.toNat &&& 0xffffffff80000000 = 0
      refine Nat.eq_of_testBit_eq fun j ↦ ?_
      rw [Nat.testBit_and, Nat.zero_testBit]
      by_cases hj : j < 31
      · rw [show 0xffffffff80000000 = (2 ^ 33 - 1) * 2 ^ 31 by decide, Nat.testBit_mul_two_pow,
          decide_eq_false (Nat.not_le.2 hj), Bool.false_and, Bool.and_false]
      · rw [Nat.testBit_lt_two_pow (Nat.lt_of_lt_of_le hlt (Nat.pow_le_pow_right (by decide)
          (Nat.le_of_not_lt hj))), Bool.false_and]
    exact not_not_intro hand
  rw [highBit, if_neg hsign]
  exact highBit_eq_log2 hb (by decide) hlt

/-- Rounding down to a power of two. -/
theorem isFloorPow_hsfsBlockBits {b : UInt64} (hb : b ≠ 0) (hlt : b.toNat < 2 ^ 31) :
    IsFloorPow (hsfsBlockBits b).toNat b.toNat := by
  have hne : b.toNat ≠ 0 := fun h ↦ hb (UInt64.toNat_inj.1 h)
  unfold hsfsBlockBits
  split
  · have hlog : b.toNat.log2 < 31 := (Nat.log2_lt hne).2 hlt
    rw [highBit_31 hb hlt, toNat_intBit hlog]
    exact isFloorPow_log2 hne
  · next hpow => exact isFloorPow_self ((and_pred_eq_zero_iff hb).1 (not_not.1 hpow))

/-- Rounding down with the number of bits, which is a logarithm. -/
theorem hsfsBlockBitsNr_eq {b : UInt64} (hb : b ≠ 0) (hlt : b.toNat < 2 ^ 31) :
    hsfsBlockBitsNr b = (intBit b.toNat.log2, b.toNat.log2.toUInt8) := by
  rw [hsfsBlockBitsNr, highBit_31 hb hlt]

/-- What `hsfs_block_size` rounds is between its limits, and the argument itself if that is. -/
theorem exists_blockSize (b : UInt64) : ∃ c : UInt64, 1024 ≤ c.toNat ∧ c.toNat ≤ 1048576 ∧
    hsfsBlockSize b = hsfsBlockBits c ∧ hsfsBlockSizeNr b = hsfsBlockBitsNr c ∧
    (1024 ≤ b.toNat → c.toNat = min b.toNat 1048576) := by
  unfold hsfsBlockSize hsfsBlockSizeNr
  by_cases hmin : b < hsfsMinFileIoSize
  · have hlt : b.toNat < 1024 := UInt64.lt_iff_toNat_lt.1 hmin
    refine ⟨hsfsDefFileIoSize, by decide, by decide, by rw [if_pos hmin], by rw [if_pos hmin], ?_⟩
    exact fun hle ↦ absurd hle (Nat.not_le.2 hlt)
  · have hle : 1024 ≤ b.toNat := UInt64.le_iff_toNat_le.1 (UInt64.not_lt.1 hmin)
    rw [if_neg hmin]
    by_cases hmax : b ≥ hsfsMaxFileIoSize
    · have hmaxle : 1048576 ≤ b.toNat := UInt64.le_iff_toNat_le.1 hmax
      refine ⟨hsfsMaxFileIoSize, by decide, by decide, by rw [if_pos hmax], by rw [if_pos hmax], ?_⟩
      exact fun _ ↦ (min_eq_right hmaxle).symm
    · have hlt : b.toNat < 1048576 := UInt64.lt_iff_toNat_lt.1 (UInt64.not_le.1 hmax)
      refine ⟨b, hle, Nat.le_of_lt hlt, by rw [if_neg hmax], by rw [if_neg hmax], ?_⟩
      exact fun _ ↦ (min_eq_left (Nat.le_of_lt hlt)).symm

theorem ne_zero_of_le_toNat {b : UInt64} (hle : 1024 ≤ b.toNat) : b ≠ 0 := by
  rintro rfl
  exact absurd hle (by decide)

/-- Every block size is a size for transfers, and one that was large enough is not exceeded. -/
theorem hsfsBlockSize_bounds (b : UInt64) : 1024 ≤ (hsfsBlockSize b).toNat ∧
    (hsfsBlockSize b).toNat ≤ 1048576 ∧ (1024 ≤ b.toNat → (hsfsBlockSize b).toNat ≤ b.toNat) := by
  obtain ⟨c, hlo, hhi, hsize, -, hmin⟩ := exists_blockSize b
  have hfloor := isFloorPow_hsfsBlockBits (ne_zero_of_le_toNat hlo)
    (Nat.lt_of_le_of_lt hhi (by decide))
  rw [hsize]
  refine ⟨hfloor.greatest 10 hlo, hfloor.le.trans hhi, fun hle ↦ hfloor.le.trans ?_⟩
  rw [hmin hle]
  exact min_le_left _ _

/-! ## What `hsi_fsinfo_to_super` takes from a server -/

/-- The size that `hsi_fsinfo_to_super` makes of a number of the server. -/
def transferSizeOf (n : UInt32) : UInt32 := (hsfsBlockSize n.toUInt64).toUInt32

theorem transferSizeOf_bounds (n : UInt32) : 1024 ≤ (transferSizeOf n).toNat ∧
    (transferSizeOf n).toNat ≤ 1048576 ∧
    (1024 ≤ n.toNat → (transferSizeOf n).toNat ≤ n.toNat) := by
  have hbounds := hsfsBlockSize_bounds n.toUInt64
  have htoNat : (transferSizeOf n).toNat = (hsfsBlockSize n.toUInt64).toNat := by
    rw [transferSizeOf, UInt64.toNat_toUInt32]
    exact Nat.mod_eq_of_lt (Nat.lt_of_le_of_lt hbounds.2.1 (by decide))
  rwa [htoNat, ← UInt32.toNat_toUInt64 n]

/-- A size that is cut down to a limit. -/
theorem toNat_minIf (m n : UInt32) : (if n > m then m else n).toNat = min n.toNat m.toNat := by
  split
  · next h => exact (min_eq_right (Nat.le_of_lt (UInt32.lt_iff_toNat_lt.1 h))).symm
  · next h => exact (min_eq_left (UInt32.le_iff_toNat_le.1 (UInt32.not_lt.1 h))).symm

section fileIoSize

variable (size pref max : UInt32)

/-- The size to begin with. -/
def firstSize : UInt32 := if size = 0 then transferSizeOf pref else size

theorem toNat_fileIoSize : (fileIoSize size pref max).toNat =
    min (if 512 ≤ max.toNat ∧
      max.toNat < (firstSize size pref).toNat then (transferSizeOf max).toNat
      else (firstSize size pref).toNat) 1048576 := by
  have hcap := toNat_minIf hsfsMaxFileIoSize.toUInt32
    (if max ≥ 512 ∧ firstSize size pref > max then transferSizeOf max
    else firstSize size pref)
  refine Eq.trans hcap (congrArg (min · 1048576) ?_)
  rw [apply_ite UInt32.toNat]
  exact if_congr (and_congr UInt32.le_iff_toNat_le UInt32.lt_iff_toNat_lt) rfl rfl

theorem firstSize_pos : 0 < (firstSize size pref).toNat := by
  unfold firstSize
  split
  · exact Nat.lt_of_lt_of_le (by decide) (transferSizeOf_bounds pref).1
  · next hne => exact Nat.pos_of_ne_zero fun h ↦ hne (UInt32.toNat_inj.1 h)

theorem fileIoSize_pos : 0 < (fileIoSize size pref max).toNat := by
  have hfirst := firstSize_pos size pref
  have hmax := transferSizeOf_bounds max
  rw [toNat_fileIoSize]
  split <;> omega

theorem fileIoSize_le : (fileIoSize size pref max).toNat ≤ 1048576 := by
  rw [toNat_fileIoSize]
  exact min_le_right _ _

/-- The limit of the server is kept to, unless it is so small that the default takes its place. -/
theorem fileIoSize_le_max_iff (hmax : 512 ≤ max.toNat) :
    (fileIoSize size pref max).toNat ≤ max.toNat ↔
    1024 ≤ max.toNat ∨ size ≠ 0 ∧ size.toNat ≤ max.toNat := by
  have hbounds := transferSizeOf_bounds max
  have hpref := transferSizeOf_bounds pref
  rw [toNat_fileIoSize]
  unfold firstSize
  by_cases hzero : size = 0
  · rw [if_pos hzero]
    simp only [hzero, ne_eq, not_true_eq_false, false_and, or_false]
    split <;> omega
  · rw [if_neg hzero]
    simp only [hzero, ne_eq, not_false_eq_true, true_and]
    split <;> omega

end fileIoSize

/-- The sizes in a superblock are not zero, and within the limits of the server and of the
system. -/
structure Super.RespectsLimits (pageSize : UInt32) (fsinfo : Fsinfo3resok) (sb : Super) : Prop where
  rsize_pos : 0 < sb.rsize.toNat
  rsize_le : sb.rsize.toNat ≤ min fsinfo.rtmax.toNat 1048576
  wsize_pos : 0 < sb.wsize.toNat
  wsize_le : sb.wsize.toNat ≤ min fsinfo.wtmax.toNat 1048576
  dtsize_pos : 0 < sb.dtsize.toNat
  dtsize_le : sb.dtsize.toNat ≤ min sb.rsize.toNat (8 * pageSize.toNat)

/-- The limit of the server for a size is kept to: it is at least the least size, or the size
mounted with is within it. -/
def LimitOk (size max : UInt32) : Prop := 1024 ≤ max.toNat ∨ size ≠ 0 ∧ size.toNat ≤ max.toNat

instance (size max : UInt32) : Decidable (LimitOk size max) := inferInstanceAs (Decidable (_ ∨ _))

theorem toNat_hsfsMaxReaddirSize (pageSize : UInt32) :
    (hsfsMaxReaddirSize pageSize).toNat = 8 * pageSize.toNat % 2 ^ 32 := by
  rw [hsfsMaxReaddirSize, UInt32.toNat_mul, Nat.mul_comm]
  rfl

theorem toNat_dtsize (pageSize : UInt32) (super : Super) (fsinfo : Fsinfo3resok) :
    (hsiFsinfoToSuper pageSize super fsinfo).dtsize.toNat =
      min (min (transferSizeOf fsinfo.dtpref).toNat (8 * pageSize.toNat % 2 ^ 32))
        (hsiFsinfoToSuper pageSize super fsinfo).rsize.toNat := by
  refine (toNat_minIf _ _).trans (congrArg (min · _) ?_)
  refine (toNat_minIf _ _).trans (congrArg (min _ ·) ?_)
  exact toNat_hsfsMaxReaddirSize pageSize

/-- **The sizes are within the limits just if the limits of the server are not too small**, and the
size of eight pages is not zero in 32 bits. -/
theorem fsinfo_sizes_iff {pageSize : UInt32} {super : Super} {fsinfo : Fsinfo3resok}
    (hrtmax : 512 ≤ fsinfo.rtmax.toNat) (hwtmax : 512 ≤ fsinfo.wtmax.toNat) :
    (hsiFsinfoToSuper pageSize super fsinfo).RespectsLimits pageSize fsinfo ↔
      LimitOk super.rsize fsinfo.rtmax ∧ LimitOk super.wsize fsinfo.wtmax ∧
        pageSize.toNat % 2 ^ 29 ≠ 0 := by
  let sb := hsiFsinfoToSuper pageSize super fsinfo
  have hread : sb.rsize.toNat ≤ fsinfo.rtmax.toNat ↔ LimitOk super.rsize fsinfo.rtmax :=
    fileIoSize_le_max_iff super.rsize fsinfo.rtpref fsinfo.rtmax hrtmax
  have hwrite : sb.wsize.toNat ≤ fsinfo.wtmax.toNat ↔ LimitOk super.wsize fsinfo.wtmax :=
    fileIoSize_le_max_iff super.wsize fsinfo.wtpref fsinfo.wtmax hwtmax
  have hrpos : 0 < sb.rsize.toNat := fileIoSize_pos super.rsize fsinfo.rtpref fsinfo.rtmax
  have hwpos : 0 < sb.wsize.toNat := fileIoSize_pos super.wsize fsinfo.wtpref fsinfo.wtmax
  have hdt := toNat_dtsize pageSize super fsinfo
  have hpref := (transferSizeOf_bounds fsinfo.dtpref).1
  have hpages : 0 < sb.dtsize.toNat ↔ pageSize.toNat % 2 ^ 29 ≠ 0 := by
    rw [hdt, lt_min_iff, lt_min_iff]
    constructor
    · rintro ⟨⟨-, h⟩, -⟩
      omega
    · exact fun h ↦ ⟨⟨by omega, by omega⟩, hrpos⟩
  constructor
  · intro h
    exact ⟨hread.1 (h.rsize_le.trans (min_le_left _ _)),
      hwrite.1 (h.wsize_le.trans (min_le_left _ _)), hpages.1 h.dtsize_pos⟩
  · rintro ⟨hr, hw, hp⟩
    refine ⟨hrpos, le_min (hread.2 hr) (fileIoSize_le ..), hwpos,
      le_min (hwrite.2 hw) (fileIoSize_le ..), hpages.2 hp, ?_⟩
    rw [hdt]
    refine le_min (min_le_right _ _) ((min_le_left _ _).trans ((min_le_right _ _).trans ?_))
    exact Nat.mod_le _ _

/-- A superblock before the mount. -/
private def freshSuper : Super := (Daemon.start .sample .sample).sb

/-- A server that allows a little more than the least size. -/
theorem fsinfo_sizes_iff_small :
    (hsiFsinfoToSuper 4096 freshSuper
      ⟨none, 1025, 1025, 1, 1500, 0, 1, 0, 0, ⟨0, 1⟩, 0x1b⟩).RespectsLimits 4096
      ⟨none, 1025, 1025, 1, 1500, 0, 1, 0, 0, ⟨0, 1⟩, 0x1b⟩ :=
  (fsinfo_sizes_iff (by decide) (by decide)).2 ⟨by decide, by decide, by decide⟩

/-- A server that allows 512 bytes is asked for 4096. -/
theorem not_fsinfo_sizes : ¬ ∀ (pageSize : UInt32) (super : Super) (fsinfo : Fsinfo3resok),
    512 ≤ fsinfo.rtmax.toNat → 512 ≤ fsinfo.wtmax.toNat → 1024 ≤ pageSize.toNat →
    (hsiFsinfoToSuper pageSize super fsinfo).RespectsLimits pageSize fsinfo := by
  intro h
  have hle := (h 4096 freshSuper ⟨none, 512, 512, 1, 512, 512, 1, 512, 0, ⟨0, 1⟩, 0x1b⟩ (by decide)
    (by decide) (by decide)).rsize_le
  exact absurd hle (by decide)

end Hsfs
