import Hsfs.Fuse.Handlers
import Hsfs.Mount.Run
import Hsfs.Nfs3.Sizes

/-!
# Numbers of blocks

`hsi_validate_mount_data` installs a block size together with its number of bits.  From these,
`hsi_super2statvfs` makes numbers of blocks of the numbers of bytes that a server reports, and
`nfs_calc_block_size` does so for the bytes of a file, with blocks of 512 bytes.  Both add before
they shift, so the last numbers of bytes wrap around (`statfs_blocks_iff`).
-/

namespace Hsfs.Mount

open Word

/-! ## The block size -/

/-- The block size that is installed is a power of two, and its number of bits is known. -/
theorem hsfsBlockSizeNr_eq (b : UInt64) :
    ∃ k, 10 ≤ k ∧ k ≤ 20 ∧ hsfsBlockSizeNr b = (intBit k, k.toUInt8) := by
  obtain ⟨c, hlo, hhi, -, hsize, -⟩ := exists_blockSize b
  have hc : c ≠ 0 := ne_zero_of_le_toNat hlo
  have hne : c.toNat ≠ 0 := fun h ↦ hc (UInt64.toNat_inj.1 h)
  have hlog : 10 ≤ c.toNat.log2 := (Nat.le_log2 hne).2 hlo
  have hlog' : c.toNat.log2 < 21 := (Nat.log2_lt hne).2 (Nat.lt_of_le_of_lt hhi (by decide))
  refine ⟨c.toNat.log2, hlog, Nat.le_of_lt_succ hlog', ?_⟩
  rw [hsize, hsfsBlockBitsNr_eq hc (Nat.lt_of_le_of_lt hhi (by decide))]

/-- The block size and its bits after `hsi_validate_mount_data`. -/
theorem bsize_hsiValidateMountData (data : MountData) : ∃ k, 10 ≤ k ∧ k ≤ 20 ∧
    (hsiValidateMountData data).bsize.toNat = 2 ^ k ∧
    (hsiValidateMountData data).bsizeBits.toNat = k := by
  obtain ⟨k, hlo, hhi, hblock⟩ := hsfsBlockSizeNr_eq data.bsize.toUInt64
  have hpow : 2 ^ k ≤ 2 ^ 20 := Nat.pow_le_pow_right (by decide) hhi
  refine ⟨k, hlo, hhi, ?_, ?_⟩
  · change ((hsfsBlockSizeNr data.bsize.toUInt64).1.toUInt32).toNat = 2 ^ k
    rw [hblock, UInt64.toNat_toUInt32, toNat_intBit (by omega)]
    exact Nat.mod_eq_of_lt (Nat.lt_of_le_of_lt hpow (by decide))
  · change (hsfsBlockSizeNr data.bsize.toUInt64).2.toNat = k
    rw [hblock]
    exact UInt8.toNat_ofNat_of_lt' (by change k < 256; omega)

/-! ## The numbers -/

/-- The numbers of blocks are the numbers of bytes, divided and rounded up. -/
structure ExactBlocks (sp : Super) (st : Statvfs) (used : UInt64) : Prop where
  blocks : st.fBlocks.toNat = sp.fsstat.tbytes.toNat ⌈/⌉ sp.bsize.toNat
  bfree : st.fBfree.toNat = sp.fsstat.fbytes.toNat ⌈/⌉ sp.bsize.toNat
  bavail : st.fBavail.toNat = sp.fsstat.abytes.toNat ⌈/⌉ sp.bsize.toNat
  bfree_le : sp.fsstat.fbytes ≤ sp.fsstat.tbytes → st.fBfree ≤ st.fBlocks
  used_blocks : (nfsCalcBlockSize used).toNat = used.toNat ⌈/⌉ 512

/-- Rounding up does not leave the 64 bits of a word. -/
def FitsRounded (bytes : UInt64) (block : Nat) : Prop := bytes.toNat + (block - 1) < 2 ^ 64

instance (bytes : UInt64) (block : Nat) : Decidable (FitsRounded bytes block) :=
  inferInstanceAs (Decidable (_ < _))

theorem nfsCalcBlockSize_eq_iff (used : UInt64) :
    (nfsCalcBlockSize used).toNat = used.toNat ⌈/⌉ 512 ↔ FitsRounded used 512 := by
  rw [nfsCalcBlockSize_eq]
  exact shiftUp_eq_ceilDiv_iff (k := 9) (by decide) rfl rfl

section

variable {data : MountData} {sb : Super} {st : Statvfs}

/-- The superblock of a mount. -/
abbrev mountedSuper (data : MountData) (sb : Super) : Super :=
  (hsiValidateMountData data).storeIn sb

/-- A number of blocks, with the block size of a mount. -/
def blocksOf (data : MountData) (bytes : UInt64) : UInt64 :=
  (bytes + (intBit (hsiValidateMountData data).bsizeBits.toNat - 1)) >>>
    (hsiValidateMountData data).bsizeBits.toUInt64

theorem eq_blocksOf (h : hsiSuper2statvfs (mountedSuper data sb) = some st) :
    st.fBlocks = blocksOf data sb.fsstat.tbytes ∧ st.fBfree = blocksOf data sb.fsstat.fbytes ∧
      st.fBavail = blocksOf data sb.fsstat.abytes := by
  unfold hsiSuper2statvfs at h
  dsimp only at h
  split at h
  · cases h
  · split at h
    · cases h
    · split at h
      · cases h
      · cases h
        exact ⟨rfl, rfl, rfl⟩

/-- A number of blocks is exact just if rounding up fits. -/
theorem blocksOf_eq_iff (data : MountData) (bytes : UInt64) :
    (blocksOf data bytes).toNat = bytes.toNat ⌈/⌉ (hsiValidateMountData data).bsize.toNat ↔
      FitsRounded bytes (hsiValidateMountData data).bsize.toNat := by
  obtain ⟨k, hlo, hhi, hbsize, hbits⟩ := bsize_hsiValidateMountData data
  rw [blocksOf, FitsRounded, hbsize, hbits]
  have hres : (intBit k - 1).toNat = 2 ^ k - 1 := by
    have hone : (1 : UInt64).toNat ≤ (intBit k).toNat := by
      rw [toNat_intBit (by omega)]
      exact Nat.one_le_two_pow
    rw [UInt64.toNat_sub_of_le _ _ (UInt64.le_iff_toNat_le.2 hone), toNat_intBit (by omega)]
    rfl
  refine shiftUp_eq_ceilDiv_iff (by omega) hres ?_
  rw [UInt8.toNat_toUInt64, hbits]

/-- **The numbers of blocks are exact just if no sum wraps around.** -/
theorem statfs_blocks_iff (h : hsiSuper2statvfs (mountedSuper data sb) = some st) (used : UInt64) :
    ExactBlocks (mountedSuper data sb) st used ↔
      FitsRounded sb.fsstat.tbytes (mountedSuper data sb).bsize.toNat ∧
      FitsRounded sb.fsstat.fbytes (mountedSuper data sb).bsize.toNat ∧
      FitsRounded sb.fsstat.abytes (mountedSuper data sb).bsize.toNat ∧ FitsRounded used 512 := by
  obtain ⟨hblocks, hbfree, hbavail⟩ := eq_blocksOf h
  have hiff := blocksOf_eq_iff data
  constructor
  · intro hexact
    refine ⟨(hiff _).1 ?_, (hiff _).1 ?_, (hiff _).1 ?_,
      (nfsCalcBlockSize_eq_iff used).1 hexact.used_blocks⟩
    · exact (congrArg UInt64.toNat hblocks).symm.trans hexact.blocks
    · exact (congrArg UInt64.toNat hbfree).symm.trans hexact.bfree
    · exact (congrArg UInt64.toNat hbavail).symm.trans hexact.bavail
  · rintro ⟨ht, hf, ha, hu⟩
    have hblocks := (congrArg UInt64.toNat hblocks).trans ((hiff _).2 ht)
    have hbfree := (congrArg UInt64.toNat hbfree).trans ((hiff _).2 hf)
    refine ⟨hblocks, hbfree, (congrArg UInt64.toNat hbavail).trans ((hiff _).2 ha), ?_,
      (nfsCalcBlockSize_eq_iff used).2 hu⟩
    intro hle
    rw [UInt64.le_iff_toNat_le] at hle ⊢
    obtain ⟨k, -, -, hbsize, -⟩ := bsize_hsiValidateMountData data
    have hpos : 0 < (hsiValidateMountData data).bsize.toNat := hbsize ▸ Nat.two_pow_pos k
    rw [hblocks, hbfree, ← add_pred_div_eq_ceilDiv _ hpos, ← add_pred_div_eq_ceilDiv _ hpos]
    exact Nat.div_le_div_right (Nat.add_le_add_right hle _)

end

/-- A file system with some numbers of bytes, mounted with the default block size. -/
private def superWith (tbytes fbytes abytes : UInt64) : Super :=
  { (Daemon.start .sample .sample).sb with
    namlen := 255
    fsstat := ⟨tbytes, fbytes, abytes, 0, 0, 0⟩ }

private def someData : MountData := .start 0 ⟨2, 0, 0⟩

/-- Numbers that are not multiples of the block size are rounded up. -/
theorem statfs_blocks_iff_default : ∃ st, hsiSuper2statvfs (mountedSuper someData
    (superWith 8193 4096 1)) = some st ∧
    ExactBlocks (mountedSuper someData (superWith 8193 4096 1)) st 1025 ∧ st.fBlocks = 3 := by
  obtain ⟨st, hst, hblocks⟩ :
    ∃ st, hsiSuper2statvfs (mountedSuper someData (superWith 8193 4096 1)) =
      some st ∧ st.fBlocks = 3 := ⟨_, rfl, by decide⟩
  exact ⟨st, hst, (statfs_blocks_iff hst 1025).2 (by decide), hblocks⟩

/-- The largest number of bytes makes no block at all. -/
theorem not_statfs_blocks : ¬ ∀ (data : MountData) (sb : Super) (st : Statvfs) (used : UInt64),
    hsiSuper2statvfs (mountedSuper data sb) = some st →
      ExactBlocks (mountedSuper data sb) st used := by
  intro h
  obtain ⟨st, hst, hblocks⟩ : ∃ st, hsiSuper2statvfs (mountedSuper someData
      (superWith 0xffffffffffffffff 0 0)) = some st ∧ st.fBlocks = 0 := ⟨_, rfl, by decide⟩
  have hexact := (h _ _ st 0 hst).blocks
  rw [hblocks] at hexact
  exact absurd hexact (by decide)

end Hsfs.Mount
