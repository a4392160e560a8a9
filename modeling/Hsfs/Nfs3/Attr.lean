import Hsfs.Daemon.Cache
import Hsfs.Daemon.Client

/-!
# Attribute operations

`GETATTR`, `SETATTR` and `ACCESS`.  Each operation returns an error number, zero for
success.  An operation that keeps the RPC client in a local variable frees the reply
through that one; the others read the superblock again.
-/

namespace Hsfs

open Interact

/-- `hsi_nfs3_getfh3`. -/
def hsiNfs3Getfh3 (inode : Addr) : Hs NfsFh := do
  let inode ← load inode
  pure inode.fh

/-! ## GETATTR -/

/-- `hsi_nfs3_do_getattr`: the error, the attributes and, if asked for, the status. -/
def hsiNfs3DoGetattr (fh : NfsFh) (fattr : NfsFattr) (st : Option Stat) :
    Hs (Int × NfsFattr × Option Stat) := do
  match ← callSb (.getattr fh) with
  | .error err => pure (err, fattr, st)
  | .ok (.fail status) => do
      freeresSb
      pure (hsiNfs3StatToErrno status, fattr, st)
  | .ok (.ok attr) => do
      freeresSb
      pure (0, hsiNfs3Fattr2fattr attr fattr, st.map fun st ↦ (hsiNfs3Fattr2stat attr st).2)

/-- `hsi_nfs3_getattr`. -/
def hsiNfs3Getattr (inode : Addr) (st : Option Stat) : Hs (Int × Option Stat) := do
  let fh ← hsiNfs3Getfh3 inode
  let (err, fattr, st) ← hsiNfs3DoGetattr fh NfsFattr.fresh st
  if err ≠ 0 then
    pure (err, st)
  else
    let err ← nfsRefreshInode inode fattr
    pure (err, st)

/-! ## SETATTR -/

/-- The time a `setattr` asks for: the test for "now" comes last and wins. -/
def setTimeOf (set now : Bool) (t : Timespec) : SetTime :=
  let time := if set then .clientTime ⟨UInt32.ofInt t.tvSec, UInt32.ofInt t.tvNsec⟩ else .dontChange
  if now then .serverTime else time

/-- The arguments of `SETATTR` that `hsi_nfs3_setattr` builds.  The macros
`S_ISSETATIME` and `S_ISSETATIMENOW` test `HSFS_ATTR_ATIME_SET` and
`HSFS_ATTR_ATIME`. -/
def sattr3OfIattr (attr : HsfsIattr) : Sattr3 where
  mode := if hasBits attr.valid HsfsAttr.mode then some attr.mode else none
  uid := if hasBits attr.valid HsfsAttr.uid then some attr.uid else none
  gid := if hasBits attr.valid HsfsAttr.gid then some attr.gid else none
  size := if hasBits attr.valid HsfsAttr.size then some (UInt64.ofInt attr.size) else none
  atime := setTimeOf (hasBits attr.valid HsfsAttr.atimeSet) (hasBits attr.valid HsfsAttr.atime)
    attr.atime
  mtime := setTimeOf (hasBits attr.valid HsfsAttr.mtimeSet) (hasBits attr.valid HsfsAttr.mtime)
    attr.mtime

/-- `hsi_nfs3_setattr`. -/
def hsiNfs3Setattr (inode : Addr) (fattr : NfsFattr) (attr : HsfsIattr) :
    Hs (Int × NfsFattr) := do
  let clntp ← sbClntp
  let fh ← hsiNfs3Getfh3 inode
  match ← hsiNfs3ClntCall clntp (.setattr fh (sattr3OfIattr attr)) with
  | .error err => pure (err, fattr)
  | .ok (.fail status) => do
      clntFreeres clntp
      pure (hsiNfs3StatToErrno status, fattr)
  | .ok (.ok after) => do
      clntFreeres clntp
      let fattr := hsiNfs3Post2fattr after (nfsInitFattr fattr)
      pure (if after.isSome then 0 else Errno.again, fattr)

/-- The bits of a request to set attributes that are left after `hsi_nfs_setattr` has
dropped a size that needs no change, and what cannot be set. -/
def hsiNfsSetattrValid (inode : Inode) (attr : HsfsIattr) : UInt32 :=
  let valid :=
    if hasBits attr.valid HsfsAttr.size ∧
        (¬ sIsreg inode.iattr.mode ∨ attr.size = inode.iattr.size) then
      attr.valid &&& ~~~HsfsAttr.size
    else attr.valid
  valid &&& nfsValidAttrs

/-- A bit that can be set and is not that of the size is kept. -/
theorem hasBits_hsiNfsSetattrValid_of_covers {bits : UInt32}
    (hvalid : nfsValidAttrs &&& bits = bits)
    (hsize : ~~~HsfsAttr.size &&& bits = bits) (inode : Inode) (attr : HsfsIattr) :
    hasBits (hsiNfsSetattrValid inode attr) bits = hasBits attr.valid bits := by
  unfold hsiNfsSetattrValid
  rw [hasBits_and_of_covers hvalid]
  split
  · exact hasBits_and_of_covers hsize attr.valid
  · rfl

/-- The size is kept for a regular file, if it is not the cached one. -/
theorem hasBits_hsiNfsSetattrValid_size (inode : Inode) (attr : HsfsIattr) :
    hasBits (hsiNfsSetattrValid inode attr) HsfsAttr.size = (hasBits attr.valid HsfsAttr.size &&
      (sIsreg inode.iattr.mode && decide (attr.size ≠ inode.iattr.size))) := by
  have hmask : nfsValidAttrs &&& HsfsAttr.size = HsfsAttr.size := by decide
  have hdrop : ~~~HsfsAttr.size &&& HsfsAttr.size = 0 := by decide
  unfold hsiNfsSetattrValid
  rw [hasBits_and_of_covers hmask]
  by_cases hsize : hasBits attr.valid HsfsAttr.size = true
  · by_cases hkeep : sIsreg inode.iattr.mode = true ∧ attr.size ≠ inode.iattr.size
    · rw [if_neg (by simp [hkeep]), hsize, hkeep.1, decide_eq_true hkeep.2]
      rfl
    · rw [not_and_or, not_not] at hkeep
      rw [if_pos ⟨hsize, hkeep⟩, hasBits_and_of_disjoint hdrop]
      rcases hkeep with hreg | heq
      · rw [Bool.eq_false_iff.2 hreg, Bool.false_and, Bool.and_false]
      · rw [decide_eq_false (not_not_intro heq), Bool.and_false, Bool.and_false]
  · rw [if_neg (fun h ↦ hsize h.1), Bool.eq_false_iff.2 hsize, Bool.false_and]

/-- `hsi_nfs_setattr`. -/
def hsiNfsSetattr (inode : Addr) (attr : HsfsIattr) : Hs Int := do
  let i ← load inode
  let attr := { attr with valid := hsiNfsSetattrValid i attr }
  if attr.valid = 0 then
    pure 0
  else
    derefSb inode
    let (error, fattr) ← hsiNfs3Setattr inode default attr
    if error = 0 then
      let _ ← nfsRefreshInode inode fattr
    pure error

/-- `hsfs_ll_setattr`. -/
def hsfsLlSetattr (inode : Addr) (sattr : HsfsIattr) : Hs Int := hsiNfsSetattr inode sattr

/-! ## ACCESS -/

namespace Access3

def read : UInt32 := 0x01
def lookup : UInt32 := 0x02
def modify : UInt32 := 0x04
def extend : UInt32 := 0x08
def delete : UInt32 := 0x10
def execute : UInt32 := 0x20

/-- `FULL_ACCESS`. -/
def full : UInt32 := read ||| lookup ||| modify ||| extend ||| delete ||| execute

end Access3

/-- `hsi_nfs3_access`.  The reply is freed even if there is none, and the bits that it
grants are not looked at. -/
def hsiNfs3Access (inode : Addr) (mask : UInt32) : Hs Int := do
  let fh ← hsiNfs3Getfh3 inode
  let clntp ← sbClntp
  let status ← do
    match ← hsiNfs3ClntCall clntp (.access fh (mask &&& Access3.full)) with
    | .error status => pure status
    | .ok (.fail status) => pure (hsiNfs3StatToErrno status)
    | .ok (.ok _) => pure (hsiNfs3StatToErrno 0)
  clntFreeres clntp
  pure status

end Hsfs
