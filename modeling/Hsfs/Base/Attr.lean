import Mathlib.Data.UInt

/-!
# Attributes

The four shapes in which the attributes of a file occur, and the conversions
between them:

- `Fattr3`, as a reply carries them;
- `NfsFattr`, the version-independent form with its mask of valid fields;
- `HsfsIattr`, the part of a cached inode that a `setattr` can name;
- `Stat`, what a request carries and an answer to the kernel is filled with.
-/

namespace Hsfs

/-- Some bit of `mask` is set in `x`. -/
def hasBits (x mask : UInt32) : Bool := x &&& mask != 0

theorem hasBits_or (x y mask : UInt32) :
    hasBits (x ||| y) mask = (hasBits x mask || hasBits y mask) := by
  have h : (x ||| y) &&& mask = (x &&& mask) ||| (y &&& mask) :=
    UInt32.toBitVec_inj.1 BitVec.and_or_distrib_right
  rw [Bool.eq_iff_iff, Bool.or_eq_true]
  simp only [hasBits, bne_iff_ne, ne_eq, h, UInt32.or_eq_zero_iff, not_and_or]

/-- A mask that covers the bits does not matter. -/
theorem hasBits_and_of_covers {mask bits : UInt32} (h : mask &&& bits = bits) (x : UInt32) :
    hasBits (x &&& mask) bits = hasBits x bits := by
  rw [hasBits, UInt32.and_assoc, h, hasBits]

/-- A mask that leaves the bits out clears them. -/
theorem hasBits_and_of_disjoint {mask bits : UInt32} (h : mask &&& bits = 0) (x : UInt32) :
    hasBits (x &&& mask) bits = false := by
  rw [hasBits, UInt32.and_assoc, h, UInt32.and_zero]
  rfl

/-- Several bits, each under a condition. -/
def orBits (bits : List (Bool × UInt32)) : UInt32 :=
  bits.foldl (fun x b ↦ if b.1 then x ||| b.2 else x) 0

theorem hasBits_orBits (bits : List (Bool × UInt32)) (mask : UInt32) :
    hasBits (orBits bits) mask = bits.any fun b ↦ b.1 && hasBits b.2 mask := by
  have hfold (x : UInt32) : hasBits (bits.foldl (fun x b ↦ if b.1 then x ||| b.2 else x) x) mask =
      (hasBits x mask || bits.any fun b ↦ b.1 && hasBits b.2 mask) := by
    induction bits generalizing x with
    | nil => exact (Bool.or_false _).symm
    | cons b bits ih =>
        obtain ⟨c, bit⟩ := b
        rw [List.foldl_cons, ih, List.any_cons]
        cases c with
        | false => rfl
        | true =>
            rw [if_pos rfl, hasBits_or, Bool.or_assoc]
            rfl
  have hzero : hasBits 0 mask = false := by
    rw [hasBits, UInt32.zero_and]
    rfl
  rw [orBits, hfold, hzero, Bool.false_or]

/-! ## File modes -/

def sIfmt : UInt32 := 0o170000
def sIfsock : UInt32 := 0o140000
def sIflnk : UInt32 := 0o120000
def sIfreg : UInt32 := 0o100000
def sIfblk : UInt32 := 0o060000
def sIfdir : UInt32 := 0o040000
def sIfchr : UInt32 := 0o020000
def sIfifo : UInt32 := 0o010000

/-- `S_ISREG`. -/
def sIsreg (mode : UInt32) : Bool := mode &&& sIfmt == sIfreg

/-- `S_ISDIR`. -/
def sIsdir (mode : UInt32) : Bool := mode &&& sIfmt == sIfdir

/-! ## Device numbers -/

/-- `makedev`, as the host's C library packs a device number. -/
def makedev (major minor : UInt32) : UInt64 :=
  ((major &&& 0xfffff000).toUInt64 <<< 32) ||| ((major &&& 0xfff).toUInt64 <<< 8) |||
    ((minor &&& 0xffffff00).toUInt64 <<< 12) ||| (minor &&& 0xff).toUInt64

/-- `major` of a packed device number. -/
def devMajor (dev : UInt64) : UInt32 :=
  (((dev >>> 32) &&& (0xfffff000 : UInt64)) ||| ((dev >>> 8) &&& (0xfff : UInt64))).toUInt32

/-- `minor` of a packed device number. -/
def devMinor (dev : UInt64) : UInt32 :=
  (((dev >>> 12) &&& (0xffffff00 : UInt64)) ||| (dev &&& (0xff : UInt64))).toUInt32

/-! ## Attributes on the wire -/

/-- `nfstime3`. -/
structure Nfstime3 where
  seconds : UInt32
  nseconds : UInt32
  deriving DecidableEq, Repr, Inhabited

/-- `specdata3`: the numbers of a device file. -/
structure Specdata3 where
  major : UInt32
  minor : UInt32
  deriving DecidableEq, Repr, Inhabited

/-- `fattr3`: the attributes of a file in a reply.  The type is a plain number,
since nothing stops a server from sending one that no file type has. -/
structure Fattr3 where
  type : UInt32
  mode : UInt32
  nlink : UInt32
  uid : UInt32
  gid : UInt32
  size : UInt64
  used : UInt64
  rdev : Specdata3
  fsid : UInt64
  fileid : UInt64
  atime : Nfstime3
  mtime : Nfstime3
  ctime : Nfstime3
  deriving DecidableEq, Repr, Inhabited

/-- `struct timespec`. -/
structure Timespec where
  tvSec : Int
  tvNsec : Int
  deriving DecidableEq, Repr, Inhabited

/-- `hsi_nfs3_time2spec`. -/
def hsiNfs3Time2spec (f : Nfstime3) : Timespec :=
  ⟨f.seconds.toNat, f.nseconds.toNat⟩

/-! ## Version-independent attributes -/

/-- `NFS_ATTR_FATTR`: the fields every version of the protocol has. -/
def nfsAttrFattr : UInt32 := 0x7c7f

/-- `NFS_ATTR_FATTR_V3`: those and `NFS_ATTR_FATTR_SPACE_USED`. -/
def nfsAttrFattrV3 : UInt32 := 0x7e7f

/-- `NFS_ATTR_FATTR_V4`: those and `NFS_ATTR_FATTR_CHANGE`. -/
def nfsAttrFattrV4 : UInt32 := 0x27e7f

/-- `struct nfs_fattr`, without the fields only version 4 fills. -/
structure NfsFattr where
  /-- Which fields are valid. -/
  valid : UInt32
  mode : UInt32
  nlink : UInt32
  uid : UInt32
  gid : UInt32
  rdev : UInt64
  size : UInt64
  /-- The union `du`, read as `nfs3.used`. -/
  used : UInt64
  fsidMajor : UInt64
  fsidMinor : UInt64
  fileid : UInt64
  atime : Timespec
  mtime : Timespec
  ctime : Timespec
  deriving DecidableEq, Repr, Inhabited

/-- `nfs_init_fattr`: no field is valid. -/
def nfsInitFattr (attr : NfsFattr) : NfsFattr := { attr with valid := 0 }

/-- A structure on the stack after `nfs_init_fattr`.  What its other fields hold
is not read while `valid` is `0`. -/
def NfsFattr.fresh : NfsFattr := nfsInitFattr default

/-- The attributes are valid, as far as any reader of them checks. -/
def NfsFattr.isValid (attr : NfsFattr) : Bool := hasBits attr.valid nfsAttrFattr

/-- `nfs_type2fmt`: the format bits of a file type.  The table has no row `0`, so
the C compiler leaves zero there. -/
def nfsType2fmt : UInt32 → UInt32
  | 1 => sIfreg
  | 2 => sIfdir
  | 3 => sIfblk
  | 4 => sIfchr
  | 5 => sIflnk
  | 6 => sIfsock
  | 7 => sIfifo
  | _ => 0

/-- `hsi_nfs3_fattr2fattr`. -/
def hsiNfs3Fattr2fattr (f : Fattr3) (t : NfsFattr) : NfsFattr :=
  let type := if f.type > 7 then 0 else f.type
  let fmode := nfsType2fmt type
  let rdev := makedev f.rdev.major f.rdev.minor
  { t with
    mode := (f.mode &&& ~~~sIfmt) ||| fmode
    nlink := f.nlink
    uid := f.uid
    gid := f.gid
    size := f.size
    used := f.used
    rdev := if devMajor rdev != f.rdev.major || devMinor rdev != f.rdev.minor then 0 else rdev
    fsidMajor := f.fsid
    fsidMinor := 0
    fileid := f.fileid
    atime := hsiNfs3Time2spec f.atime
    mtime := hsiNfs3Time2spec f.mtime
    ctime := hsiNfs3Time2spec f.ctime
    valid := t.valid ||| nfsAttrFattrV3 }

/-- `hsi_nfs3_post2fattr`: attributes that a reply may leave out. -/
def hsiNfs3Post2fattr (p : Option Fattr3) (t : NfsFattr) : NfsFattr :=
  match p with
  | some f => hsiNfs3Fattr2fattr f t
  | none => t

@[simp] theorem isValid_fresh : NfsFattr.fresh.isValid = false := by decide

/-- Converted attributes are valid, whatever was valid before. -/
@[simp] theorem isValid_hsiNfs3Fattr2fattr (f : Fattr3) (t : NfsFattr) :
    (hsiNfs3Fattr2fattr f t).isValid = true := by
  have hV3 : hasBits nfsAttrFattrV3 nfsAttrFattr = true := by decide
  change hasBits (t.valid ||| nfsAttrFattrV3) nfsAttrFattr = true
  rw [hasBits_or, hV3, Bool.or_true]

/-- `nfs_size_to_off_t`. -/
def nfsSizeToOffT (size : UInt64) : Int :=
  if size > 2 ^ 63 - 2 then 2 ^ 63 - 2 else size.toNat

/-- `nfs_calc_block_size`: the number of 512-byte blocks, in 64-bit arithmetic.
The cap at `LLONG_MAX` is never reached after the shift. -/
def nfsCalcBlockSize (tsize : UInt64) : UInt64 :=
  let used := (tsize + 511) >>> 9
  if used > 2 ^ 63 - 1 then 2 ^ 63 - 1 else used

/-- The cap is never reached. -/
theorem nfsCalcBlockSize_eq (tsize : UInt64) : nfsCalcBlockSize tsize = (tsize + 511) >>> 9 := by
  have hcap : ¬ (tsize + 511) >>> 9 > 2 ^ 63 - 1 := by
    have hlt := (tsize + 511).toNat_lt
    have hval : (2 ^ 63 - 1 : UInt64) = 0x7fffffffffffffff := by decide +kernel
    rw [hval, gt_iff_lt, UInt64.lt_iff_toNat_lt, UInt64.toNat_shiftRight]
    simp only [UInt64.reduceToNat, Nat.reduceMod, Nat.shiftRight_eq_div_pow, Nat.reducePow]
    omega
  rw [nfsCalcBlockSize, if_neg hcap]

/-- The block count that `nfs_update_inode` and `hsi_nfs_fhget` store: the second
branch reads the upper half of the union `du`. -/
def NfsFattr.blocks (attr : NfsFattr) : UInt64 :=
  if hasBits attr.valid (nfsAttrFattrV3 ||| nfsAttrFattrV4) then nfsCalcBlockSize attr.used
  else attr.used >>> 32

/-! ## Attributes that can be set -/

/-- `struct hsfs_iattr`. -/
structure HsfsIattr where
  /-- Which fields are meant, see `HsfsAttr`. -/
  valid : UInt32
  mode : UInt32
  uid : UInt32
  gid : UInt32
  size : Int
  atime : Timespec
  mtime : Timespec
  ctime : Timespec
  deriving DecidableEq, Repr, Inhabited

namespace HsfsAttr

def mode : UInt32 := 1
def uid : UInt32 := 2
def gid : UInt32 := 4
def size : UInt32 := 8
def atime : UInt32 := 16
def mtime : UInt32 := 32
def atimeSet : UInt32 := 128
def mtimeSet : UInt32 := 256

end HsfsAttr

/-- `NFS_VALID_ATTRS`: what a `setattr` may change. -/
def nfsValidAttrs : UInt32 :=
  HsfsAttr.mode ||| HsfsAttr.uid ||| HsfsAttr.gid ||| HsfsAttr.size ||| HsfsAttr.atime |||
    HsfsAttr.atimeSet ||| HsfsAttr.mtime ||| HsfsAttr.mtimeSet

/-! ## Attributes for the kernel -/

/-- `struct stat`. -/
structure Stat where
  stDev : UInt64
  stIno : UInt64
  stMode : UInt32
  stNlink : UInt64
  stUid : UInt32
  stGid : UInt32
  stRdev : UInt64
  stSize : Int
  stBlksize : Int
  stBlocks : Int
  stAtim : Timespec
  stMtim : Timespec
  stCtim : Timespec
  deriving DecidableEq, Repr, Inhabited

/-- The format bits `hsi_nfs3_fattr2stat` gives a file type, if it knows it. -/
def hsiNfs3StatFmt : UInt32 → Option UInt32
  | 1 => some sIfreg
  | 2 => some sIfdir
  | 3 => some sIfblk
  | 4 => some sIfchr
  | 5 => some sIflnk
  | 6 => some sIfsock
  | 7 => some sIfifo
  | _ => none

/-- `hsi_nfs3_fattr2stat`: the error and the structure.  On a type it does not know
it stops half way.  It stores the nanoseconds of `atime` in `mtime` and none in
`ctime`. -/
def hsiNfs3Fattr2stat (attr : Fattr3) (st : Stat) : Int × Stat :=
  let st := { st with
    stDev := makedev 0 0
    stIno := attr.fileid
    stMode := attr.mode &&& 0o7777 }
  match hsiNfs3StatFmt attr.type with
  | none => (22, st)
  | some fmt => (0, { st with
      stMode := st.stMode ||| fmt
      stNlink := attr.nlink.toUInt64
      stUid := attr.uid
      stGid := attr.gid
      stRdev := makedev attr.rdev.major attr.rdev.minor
      stSize := attr.size.toBitVec.toInt
      stBlksize := 0
      stBlocks := (attr.used / 512).toNat
      stAtim := ⟨attr.atime.seconds.toNat, attr.atime.nseconds.toNat⟩
      stMtim := ⟨attr.mtime.seconds.toNat, attr.atime.nseconds.toNat⟩
      stCtim := ⟨attr.ctime.seconds.toNat, st.stCtim.tvNsec⟩ })

namespace FuseSetAttr

def mode : UInt32 := 1
def uid : UInt32 := 2
def gid : UInt32 := 4
def size : UInt32 := 8
def atime : UInt32 := 16
def mtime : UInt32 := 32
def atimeNow : UInt32 := 128
def mtimeNow : UInt32 := 256

end FuseSetAttr

/-- `hsx_fuse_stat2iattr`.  The caller's structure is uninitialised; a field whose
bit is not set in `valid` keeps what was there. -/
def hsxFuseStat2iattr (st : Stat) (toSet : UInt32) (attr : HsfsIattr) : HsfsIattr := Id.run do
  let mut attr := { attr with valid := 0 }
  if hasBits toSet FuseSetAttr.mode then
    attr := { attr with valid := attr.valid ||| HsfsAttr.mode, mode := st.stMode &&& ~~~sIfmt }
  if hasBits toSet FuseSetAttr.uid then
    attr := { attr with valid := attr.valid ||| HsfsAttr.uid, uid := st.stUid }
  if hasBits toSet FuseSetAttr.gid then
    attr := { attr with valid := attr.valid ||| HsfsAttr.gid, gid := st.stGid }
  if hasBits toSet FuseSetAttr.size then
    attr := { attr with valid := attr.valid ||| HsfsAttr.size, size := st.stSize }
  if hasBits toSet FuseSetAttr.atime then
    attr := { attr with atime := st.stAtim, valid := attr.valid ||| HsfsAttr.atime }
    if !hasBits toSet FuseSetAttr.atimeNow then
      attr := { attr with valid := attr.valid ||| HsfsAttr.atimeSet }
  if hasBits toSet FuseSetAttr.mtime then
    attr := { attr with mtime := st.stMtim, valid := attr.valid ||| HsfsAttr.mtime }
    if !hasBits toSet FuseSetAttr.mtimeNow then
      attr := { attr with valid := attr.valid ||| HsfsAttr.mtimeSet }
  return attr

/-- The attributes that a request stands for. -/
theorem hsxFuseStat2iattr_eq (st : Stat) (toSet : UInt32) (attr : HsfsIattr) :
    hsxFuseStat2iattr st toSet attr =
      let mode := hasBits toSet FuseSetAttr.mode
      let uid := hasBits toSet FuseSetAttr.uid
      let gid := hasBits toSet FuseSetAttr.gid
      let size := hasBits toSet FuseSetAttr.size
      let atime := hasBits toSet FuseSetAttr.atime
      let mtime := hasBits toSet FuseSetAttr.mtime
      { attr with
        valid := orBits [(mode, HsfsAttr.mode), (uid, HsfsAttr.uid), (gid, HsfsAttr.gid),
          (size, HsfsAttr.size), (atime, HsfsAttr.atime),
          (atime && !hasBits toSet FuseSetAttr.atimeNow, HsfsAttr.atimeSet),
            (mtime, HsfsAttr.mtime),
          (mtime && !hasBits toSet FuseSetAttr.mtimeNow, HsfsAttr.mtimeSet)]
        mode := if mode then st.stMode &&& ~~~sIfmt else attr.mode
        uid := if uid then st.stUid else attr.uid
        gid := if gid then st.stGid else attr.gid
        size := if size then st.stSize else attr.size
        atime := if atime then st.stAtim else attr.atime
        mtime := if mtime then st.stMtim else attr.mtime } := by
  -- the result depends on the request only through these bits
  unfold hsxFuseStat2iattr
  generalize hasBits toSet FuseSetAttr.mode = mode
  generalize hasBits toSet FuseSetAttr.uid = uid
  generalize hasBits toSet FuseSetAttr.gid = gid
  generalize hasBits toSet FuseSetAttr.size = size
  generalize hasBits toSet FuseSetAttr.atime = atime
  generalize hasBits toSet FuseSetAttr.atimeNow = atimeNow
  generalize hasBits toSet FuseSetAttr.mtime = mtime
  generalize hasBits toSet FuseSetAttr.mtimeNow = mtimeNow
  cases mode <;> cases uid <;> cases gid <;> cases size <;> cases atime <;> cases atimeNow <;>
    cases mtime <;> cases mtimeNow <;> rfl

end Hsfs
