import Hsfs.Nfs3.Attr

/-!
# Access control lists

The kernel passes an access control list as the value of an extended attribute, the
ACL service as a list of entries; in between it is a `PosixAcl`.
-/

namespace Hsfs

open Interact

/-! ## Lists in memory -/

/-- `ACL_TYPE_ACCESS` and `ACL_TYPE_DEFAULT`. -/
inductive AclType : Type
  | access
  | default
  deriving DecidableEq

/-- `struct posix_acl_entry`. -/
structure PosixAclEntry where
  eTag : Int16
  ePerm : UInt16
  eId : UInt32
  deriving DecidableEq

/-- `struct posix_acl`: its entries. -/
abbrev PosixAcl := List PosixAclEntry

/-- `ACL_UNDEFINED_ID`. -/
def aclUndefinedId : UInt32 := 0xffffffff

/-- `POSIX_ACL_XATTR_VERSION`. -/
def posixAclXattrVersion : UInt32 := 2

namespace AclTag

def userObj : Int16 := 0x01
def user : Int16 := 0x02
def groupObj : Int16 := 0x04
def group : Int16 := 0x08
def mask : Int16 := 0x10
def other : Int16 := 0x20

end AclTag

/-- A 16-bit word in memory, low byte first. -/
def le16 (a b : UInt8) : UInt16 := a.toUInt16 ||| (b.toUInt16 <<< 8)

/-- A 32-bit word in memory, low byte first. -/
def le32 (a b c d : UInt8) : UInt32 :=
  a.toUInt32 ||| (b.toUInt32 <<< 8) ||| (c.toUInt32 <<< 16) ||| (d.toUInt32 <<< 24)

/-- One round of the loop of `posix_acl_from_xattr`: the tag decides about the id. -/
def posixAclEntryOf (tag perm : UInt16) (id : UInt32) : Option PosixAclEntry :=
  let eTag : Int16 := tag.toInt16
  if eTag = AclTag.userObj ∨ eTag = AclTag.groupObj ∨ eTag = AclTag.mask ∨
      eTag = AclTag.other then
    some ⟨eTag, perm, aclUndefinedId⟩
  else if eTag = AclTag.user ∨ eTag = AclTag.group then
    some ⟨eTag, perm, id⟩
  else
    none

/-- The loop of `posix_acl_from_xattr`, over whole entries. -/
def posixAclEntries : List UInt8 → Option PosixAcl
  | [] => some []
  | t₀ :: t₁ :: p₀ :: p₁ :: i₀ :: i₁ :: i₂ :: i₃ :: rest =>
      match posixAclEntryOf (le16 t₀ t₁) (le16 p₀ p₁) (le32 i₀ i₁ i₂ i₃), posixAclEntries rest with
      | some e, some es => some (e :: es)
      | _, _ => none
  | _ => none

/-- `posix_acl_from_xattr`, as far as memory is available: a version word and at least
one entry. -/
def posixAclFromXattr (value : List UInt8) : Option PosixAcl :=
  match value with
  | v₀ :: v₁ :: v₂ :: v₃ :: entries =>
      if le32 v₀ v₁ v₂ v₃ ≠ posixAclXattrVersion then none
      else if entries.length % 8 ≠ 0 then none
      else if entries.length = 0 then none
      else posixAclEntries entries
  | _ => none

/-- `posix_acl_from_mode`. -/
def posixAclFromMode (mode : UInt32) : PosixAcl :=
  [⟨AclTag.userObj, ((mode &&& 0o700) >>> 6).toUInt16, aclUndefinedId⟩,
   ⟨AclTag.groupObj, ((mode &&& 0o070) >>> 3).toUInt16, aclUndefinedId⟩,
   ⟨AclTag.other, (mode &&& 0o007).toUInt16, aclUndefinedId⟩]

/-- The two bytes of a word in memory. -/
def bytes16 (x : UInt16) : List UInt8 := [x.toUInt8, (x >>> 8).toUInt8]

/-- The four bytes of a word in memory. -/
def bytes32 (x : UInt32) : List UInt8 :=
  [x.toUInt8, (x >>> 8).toUInt8, (x >>> 16).toUInt8, (x >>> 24).toUInt8]

/-- `posix_acl_xattr_size`. -/
def posixAclXattrSize (count : Nat) : Nat := 4 + count * 8

/-- What `posix_acl_to_xattr` writes. -/
def posixAclXattrBytes (acl : PosixAcl) : List UInt8 :=
  bytes32 posixAclXattrVersion ++
    acl.flatMap fun e ↦ bytes16 e.eTag.toUInt16 ++ bytes16 e.ePerm ++ bytes32 e.eId

/-- `posix_acl_to_xattr`: the number it returns, and what it has written to the buffer. -/
def posixAclToXattr (acl : PosixAcl) (buffer : Bool) (size : Nat) : Int × List UInt8 :=
  let realSize := posixAclXattrSize acl.length
  if !buffer then (realSize, [])
  else if realSize > size then (Errno.range, [])
  else (realSize, posixAclXattrBytes acl)

/-! ## Lists on the wire -/

/-- `NA_ACL_DEFAULT`. -/
def naAclDefault : Int32 := 0x1000

namespace NaMask

def acl : UInt32 := 1
def aclcnt : UInt32 := 2
def dfacl : UInt32 := 4
def dfaclcnt : UInt32 := 8

end NaMask

/-- An entry as `hsi_nfs3_getxattr` takes it from the access list. -/
def entryOfAclent (a : Aclent) : PosixAclEntry := ⟨a.type.toInt16, a.perm, a.id⟩

/-- An entry as `hsi_nfs3_getxattr` takes it from the default list. -/
def entryOfDfaclent (a : Aclent) : PosixAclEntry :=
  ⟨(a.type &&& ~~~naAclDefault).toInt16, a.perm, a.id⟩

/-- An entry as `hsi_nfs3_setxattr` puts it into either list. -/
def aclentOfEntry (e : PosixAclEntry) : Aclent := ⟨e.eTag.toInt32, e.eId, e.ePerm⟩

/-- `hsi_nfs3_getxattr`.  Memory for the list is its only allocation. -/
def hsiNfs3Getxattr (inode : Addr) (mask : UInt32) (type : AclType) :
    Hs (Except Int PosixAcl) := do
  let fh ← hsiNfs3Getfh3 inode
  match ← sbAclClntp with
  | none => pure (.error Errno.notsup)
  | some aclClntp => do
      match ← hsiNfs3ClntCall aclClntp (.getacl fh mask) with
      | .error err => pure (.error err)
      | .ok (.fail status) => do
          clntFreeres aclClntp
          pure (.error (hsiNfs3StatToErrno status))
      | .ok (.ok acl) => do
          if ← malloc then
            clntFreeres aclClntp
            match type with
            | .access => pure (.ok (acl.aclent.map entryOfAclent))
            | .default => pure (.ok (acl.dfaclent.map entryOfDfaclent))
          else
            freeresSb
            pure (.error Errno.nomem)

/-- `calloc` of a list of entries.  The result is not tested, and written to unless the
list is empty. -/
def callocEntries (count : Nat) : Hs Unit := do
  let got ← malloc
  if !got ∧ count ≠ 0 then Act.throw .segv

/-- `posix_acl_from_xattr` with its allocation: a well-formed value gives a list if there
is memory for one. -/
def posixAclFromXattrAlloc (value : List UInt8) : Hs (Option PosixAcl) := do
  match posixAclFromXattr value with
  | none => pure none
  | some acl => do
      if ← malloc then pure (some acl) else pure none

/-- The call of `SETACL`. -/
def setxattrCall (aclClntp : Client) (fh : NfsFh) (args : Secattr) : Hs Int := do
  match ← hsiNfs3ClntCall aclClntp (.setacl fh args) with
  | .error error => pure error
  | .ok (.fail status) => do
      clntFreeres aclClntp
      pure (hsiNfs3StatToErrno status)
  | .ok (.ok _) => do
      clntFreeres aclClntp
      pure (hsiNfs3StatToErrno 0)

/-- The arguments of `SETACL`. -/
def secattrOf (mask : UInt32) (acl dfacl : PosixAcl) : Secattr where
  mask := mask
  aclcnt := acl.length
  aclent := acl.map aclentOfEntry
  dfaclcnt := dfacl.length
  dfaclent := dfacl.map aclentOfEntry

/-- The end of `hsi_nfs3_setxattr`: copy the two lists into the arguments and send them. -/
def setxattrSend (inode : Addr) (aclClntp : Client) (mask : UInt32) (acl : PosixAcl)
    (dfacl : Option PosixAcl) : Hs Int := do
  let fh ← hsiNfs3Getfh3 inode
  callocEntries acl.length
  match dfacl with
  | none => setxattrCall aclClntp fh (secattrOf mask acl [])
  | some dfacl => do
      callocEntries dfacl.length
      setxattrCall aclClntp fh (secattrOf mask acl dfacl)

/-- The mask that `hsi_nfs3_setxattr` fetches lists with. -/
def setxattrMask (type : AclType) (isDir : Bool) : UInt32 :=
  (if type = .access then NaMask.aclcnt ||| NaMask.acl else 0) |||
    (if isDir then NaMask.dfaclcnt ||| NaMask.dfacl else 0)

/-- `hsi_nfs3_setxattr` from the test for a missing access list on.  Both masks that may be
sent, `NFS_ACL` and `NFS_DFACL`, are those of the entries without their number. -/
def setxattrLists (inode : Addr) (aclClntp : Client) (mode : UInt32)
    (acl dfacl : Option PosixAcl) : Hs Int := do
  let mask := if sIsdir mode then NaMask.acl ||| NaMask.dfacl else NaMask.acl
  match acl with
  | some acl => setxattrSend inode aclClntp mask acl dfacl
  | none => do
      if ← malloc then setxattrSend inode aclClntp mask (posixAclFromMode mode) dfacl
      else pure 0

/-- `hsi_nfs3_setxattr`.  Every `goto fail` before the call returns the zero that `error`
was initialised with.  In the branch for the access list, the list that is fetched is
the access list again, and in the other one it is the default list again. -/
def hsiNfs3Setxattr (inode : Addr) (value : List UInt8) (type : AclType) : Hs Int := do
  match ← sbAclClntp with
  | none => pure Errno.notsup
  | some aclClntp => do
      let i ← load inode
      let acl ← posixAclFromXattrAlloc value
      if sIsdir i.iattr.mode then
        match ← hsiNfs3Getxattr inode (setxattrMask type true) type with
        | .error _ => pure 0
        | .ok fetched =>
            match type with
            | .access => setxattrLists inode aclClntp i.iattr.mode acl (some fetched)
            | .default => setxattrLists inode aclClntp i.iattr.mode (some fetched) acl
      else
        match type with
        | .access => setxattrLists inode aclClntp i.iattr.mode acl none
        | .default => pure 0

/-- The kind of list that a number stands for: `ACL_TYPE_ACCESS` or `ACL_TYPE_DEFAULT`. -/
def AclType.ofInt (type : Int) : Option AclType :=
  if type = 0x8000 then some .access else if type = 0x4000 then some .default else none

/-- `hsi_nfs3_setxattr` with any number as the type.  All others end at `fail`, before anything is
sent. -/
def hsiNfs3SetxattrWith (inode : Addr) (value : List UInt8) (type : Int) : Hs Int := do
  match AclType.ofInt type with
  | some type => hsiNfs3Setxattr inode value type
  | none => do
      match ← sbAclClntp with
      | none => pure Errno.notsup
      | some _ => do
          let _ ← load inode
          let _ ← posixAclFromXattrAlloc value
          pure 0

end Hsfs
