import Hsfs.Nfs3.Attr
import Hsfs.Nfs3.Object

/-!
# Operations on the file system

`FSINFO`, `PATHCONF` and `FSSTAT`, and `hsi_fill_super`, which makes the superblock ready
for requests: it empties the cache, asks for the sizes the server prefers and caches the
root.
-/

namespace Hsfs

open Interact

/-! ## Block sizes -/

/-- The value of `1 << nrbits` in a `long`: an `int`, so bit 31 is the sign. -/
def intBit (nrbits : Nat) : UInt64 :=
  if nrbits = 31 then 0xffffffff80000000 else 1 <<< nrbits.toUInt64

/-- The loop of `hsfs_block_bits`: the highest of the bits `1` to `nrbits` that is set, or
zero. -/
def highBit (bsize : UInt64) : Nat → Nat
  | 0 => 0
  | nrbits + 1 => if bsize &&& intBit (nrbits + 1) ≠ 0 then nrbits + 1 else highBit bsize nrbits

/-- `hsfs_block_bits`, without a place to store the number of bits. -/
def hsfsBlockBits (bsize : UInt64) : UInt64 :=
  if bsize &&& (bsize - 1) ≠ 0 then intBit (highBit bsize 31) else bsize

def hsfsMinFileIoSize : UInt64 := 1024
def hsfsDefFileIoSize : UInt64 := 4096
def hsfsMaxFileIoSize : UInt64 := 1048576

/-- `hsfs_block_size`, without a place to store the number of bits. -/
def hsfsBlockSize (bsize : UInt64) : UInt64 :=
  hsfsBlockBits <|
    if bsize < hsfsMinFileIoSize then hsfsDefFileIoSize
    else if bsize ≥ hsfsMaxFileIoSize then hsfsMaxFileIoSize
    else bsize

/-- `hsfs_block_bits`, with a place to store the number of bits. -/
def hsfsBlockBitsNr (bsize : UInt64) : UInt64 × UInt8 :=
  let nrbits := highBit bsize 31
  (intBit nrbits, nrbits.toUInt8)

/-- `hsfs_block_size`, with a place to store the number of bits. -/
def hsfsBlockSizeNr (bsize : UInt64) : UInt64 × UInt8 :=
  hsfsBlockBitsNr <|
    if bsize < hsfsMinFileIoSize then hsfsDefFileIoSize
    else if bsize ≥ hsfsMaxFileIoSize then hsfsMaxFileIoSize
    else bsize

/-- `HSFS_PAGE_SIZE`, as `hsfs_init` has found it. -/
def hsfsPageSize : Hs UInt32 := do
  let d ← Act.get
  pure d.layout.pageSize

/-- `HSFS_PAGE_SIZE * HSFS_MAX_READDIR_PAGES`, for a page size. -/
def hsfsMaxReaddirSize (pageSize : UInt32) : UInt32 := pageSize * 8

/-- The read or write size from the one mounted with and the preferred and greatest sizes
of the server. -/
def fileIoSize (size pref max : UInt32) : UInt32 :=
  let size := if size = 0 then (hsfsBlockSize pref.toUInt64).toUInt32 else size
  let size := if max ≥ 512 ∧ size > max then (hsfsBlockSize max.toUInt64).toUInt32 else size
  if size > hsfsMaxFileIoSize.toUInt32 then hsfsMaxFileIoSize.toUInt32 else size

/-- `hsi_fsinfo_to_super`, on a system with a page size. -/
def hsiFsinfoToSuper (pageSize : UInt32) (super : Super) (fsinfo : Fsinfo3resok) : Super :=
  let rsize := fileIoSize super.rsize fsinfo.rtpref fsinfo.rtmax
  let wsize := fileIoSize super.wsize fsinfo.wtpref fsinfo.wtmax
  let dtsize := (hsfsBlockSize fsinfo.dtpref.toUInt64).toUInt32
  let dtsize := if dtsize > hsfsMaxReaddirSize pageSize then hsfsMaxReaddirSize pageSize else dtsize
  let dtsize := if dtsize > rsize then rsize else dtsize
  { super with
    rsize := rsize
    wsize := wsize
    dtsize := dtsize
    fsinfo :=
      { rtmax := fsinfo.rtmax
        rtpref := fsinfo.rtpref
        rtmult := fsinfo.rtmult
        wtmax := fsinfo.wtmax
        wtpref := fsinfo.wtpref
        wtmult := (hsfsBlockBits fsinfo.wtmult.toUInt64).toUInt32
        dtpref := fsinfo.dtpref
        maxfilesize := fsinfo.maxfilesize
        timeDelta := fsinfo.timeDelta
        properties := fsinfo.properties } }

/-! ## The procedures -/

/-- `hsi_nfs3_fsinfo`: the error and the attributes of the root. -/
def hsiNfs3Fsinfo (fh : NfsFh) (fattr : NfsFattr) : Hs (Int × NfsFattr) := do
  let clnt ← sbClntp
  match ← hsiNfs3ClntCall clnt (.fsinfo fh) with
  | .error ret => pure (ret, fattr)
  | .ok (.fail status) => do
      clntFreeres clnt
      pure (hsiNfs3StatToErrno status, fattr)
  | .ok (.ok resok) => do
      let pageSize ← hsfsPageSize
      Act.modify fun d ↦ { d with sb := hsiFsinfoToSuper pageSize d.sb resok }
      let fattr := hsiNfs3Post2fattr resok.objAttributes fattr
      if fattr.isValid then
        clntFreeres clnt
        pure (0, fattr)
      else
        let (ret, fattr, _) ← hsiNfs3DoGetattr fh fattr none
        clntFreeres clnt
        pure (ret, fattr)

/-- `hsi_nfs3_pathconf`. -/
def hsiNfs3Pathconf (inode : Addr) : Hs Int := do
  let clnt ← sbClntp
  let fh ← hsiNfs3Getfh3 inode
  match ← hsiNfs3ClntCall clnt (.pathconf fh) with
  | .error ret => pure ret
  | .ok (.fail status) => do
      clntFreeres clnt
      pure (hsiNfs3StatToErrno status)
  | .ok (.ok nameMax) => do
      Act.modify fun d ↦ { d with sb := { d.sb with namlen := nameMax } }
      clntFreeres clnt
      pure 0

/-- `hsi_nfs3_statfs`. -/
def hsiNfs3Statfs (inode : Addr) : Hs Int := do
  let fh ← hsiNfs3Getfh3 inode
  match ← callSb (.fsstat fh) with
  | .error st => pure st
  | .ok (.fail status) => do
      freeresSb
      pure (hsiNfs3StatToErrno status)
  | .ok (.ok resok) => do
      Act.modify fun d ↦ { d with sb := { d.sb with fsstat := resok } }
      freeresSb
      pure 0

/-- `hsi_fill_super`. -/
def hsiFillSuper (fh : NfsFh) : Hs Int := do
  hsfsInitIcache
  Act.modify fun d ↦ { d with sb := { d.sb with currId := 0 } }
  let (ret, fattr) ← hsiNfs3Fsinfo fh NfsFattr.fresh
  if ret ≠ 0 then
    pure ret
  else
    let root ← hsiNfsFhget fh fattr
    if isErr root then
      let d ← Act.get
      pure (intOfLong (d.layout.ptrErr root))
    else
      Act.modify fun d ↦ { d with sb := { d.sb with root := root } }
      let i ← load root
      assertThat .rootIno (i.ino == 1)
      hsiNfs3Pathconf root

end Hsfs
