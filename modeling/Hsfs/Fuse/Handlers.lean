import Hsfs.Fuse.Reply
import Hsfs.Nfs3.Acl
import Hsfs.Nfs3.Data
import Hsfs.Nfs3.Mount
import Hsfs.Nfs3.Readdir

/-!
# The request handlers

The functions of `hsfs_oper`, one for each kind of request, and `Request.handle`, which
picks the function as the FUSE library does.

`hsx_fuse_read` and `hsx_fuse_write` loop until the server has moved all the bytes, which
need not happen.  They take a number of rounds after which the model gives up with
`Fault.running`.
-/

namespace Hsfs

open Interact

/-! ## Handlers that answer with an entry -/

/-- `hsx_fuse_init`. -/
def hsxFuseInit : Hs Unit := do
  let d ← Act.get
  let ref ← hsxFuseRefXchg d.sb.root 1
  assertThat .newRef (ref == 0)

/-- `hsx_fuse_lookup`. -/
def hsxFuseLookup (ino : UInt64) (name : Name) : Hs Unit := do
  match ← hsfsIlookup ino with
  | none => fuseReply (.err Errno.noent)
  | some parent => do
      let (err, child) ← hsiNfs3Lookup parent name
      if err ≠ 0 then
        fuseReply (.err err)
      else if child = Addr.null then
        fuseReply (.err Errno.nomem)
      else
        let _ ← hsxFuseRefInc child 1
        let e ← hsxFuseFillReply child
        fuseReply (.entry e)

/-- What create, mkdir, mknod and symlink do with the outcome of the operation. -/
def replyNew (answer : EntryParam → Reply) (err : Int) (new : Addr) : Hs Unit := do
  if err ≠ 0 then
    fuseReply (.err err)
  else if new = Addr.null then
    fuseReply (.err Errno.nomem)
  else
    let ref ← hsxFuseRefXchg new 1
    assertThat .newRef (ref == 0)
    let e ← hsxFuseFillReply new
    fuseReply (answer e)

def oExcl : UInt32 := 0o200
def oTrunc : UInt32 := 0o1000

/-- The mode that `hsx_fuse_create` passes on: the permissions, and how to create the file
above them. -/
def createMode (mode flags : UInt32) : UInt32 :=
  (mode &&& 0o777) |||
    (if hasBits flags oExcl then 0x20000 else if hasBits flags oTrunc then 0x10000 else 0)

/-- `hsx_fuse_create`.  The owner of the parent is overwritten with the caller. -/
def hsxFuseCreate (parent : UInt64) (name : Name) (mode flags uid gid : UInt32) : Hs Unit := do
  match ← hsfsIlookup parent with
  | none => pure ()
  | some hi => do
      update hi fun inode ↦ { inode with iattr := { inode.iattr with uid := uid, gid := gid } }
      let (err, newhi) ← hsiNfs3Create hi name (createMode mode flags)
      replyNew .create err newhi

/-- `hsx_fuse_mkdir`. -/
def hsxFuseMkdir (parent : UInt64) (name : Name) (mode : UInt32) : Hs Unit := do
  match ← hsfsIlookup parent with
  | none => pure ()
  | some hiParent => do
      let (err, new) ← hsiNfs3Mkdir hiParent name mode
      replyNew .entry err new

/-- `hsx_fuse_mknod`. -/
def hsxFuseMknod (parent : UInt64) (name : Name) (mode : UInt32) (rdev : UInt64) : Hs Unit := do
  match ← hsfsIlookup parent with
  | none => fuseReply (.err Errno.noent)
  | some parentp => do
      let (err, newinode) ← hsiNfs3Mknod parentp name mode rdev
      replyNew .entry err newinode

/-- `hsx_fuse_symlink`. -/
def hsxFuseSymlink (link : Name) (parent : UInt64) (name : Name) : Hs Unit := do
  match ← hsfsIlookup parent with
  | none => fuseReply (.err Errno.noent)
  | some nfsParent => do
      let (err, new) ← hsiNfs3Symlink nfsParent link name
      replyNew .entry err new

/-- `hsx_fuse_link`.  The entry does not count as a lookup here. -/
def hsxFuseLink (ino newparent : UInt64) (newname : Name) : Hs Unit := do
  match ← hsfsIlookup newparent with
  | none => pure ()
  | some parent => do
      match ← hsfsIlookup ino with
      | none => pure ()
      | some inop => do
          let err ← hsiNfs3Link inop parent newname
          if err ≠ 0 then
            fuseReply (.err err)
          else if ← malloc then
            let e ← hsxFuseFillReply inop
            fuseReply (.entry e)
          else
            fuseReply (.err Errno.nomem)

/-! ## Directories -/

/-- `hsx_fuse_opendir`. -/
def hsxFuseOpendir (ino : UInt64) : Hs Unit := do
  match ← hsfsIlookup ino with
  | none => fuseReply (.err Errno.noent)
  | some _ => fuseReply .open

/-- The loop of `hsx_fuse_readdir`: the entries that fit, when `len` bytes are taken. -/
def addDirents (size : Nat) : List ReaddirCtx → Nat → List Dirent
  | [], _ => []
  | ctx :: rest, len =>
      let res := fuseAddDirentry ctx.name
      if res ≥ size - len then [] else ⟨ctx.stIno, ctx.name, ctx.off⟩ :: addDirents size rest
        (len + res)

/-- `hsx_fuse_readdir`.  The count that is sent has 32 bits. -/
def hsxFuseReaddir (ino : UInt64) (size : UInt64) (off : UInt64) : Hs Unit := do
  match ← hsfsIlookup ino with
  | none => assertThat .cached false
  | some parent => do
      let (err, ctx) ← hsiNfs3Readdir parent size.toUInt32 off
      if err ≠ 0 then
        fuseReply (.err err)
      else if ← malloc then
        fuseReply (.dirents (addDirents size.toNat ctx 0))
      else
        fuseReply (.err Errno.nomem)

/-- The loop of `hsx_fuse_readdir_plus`: the entries that fit are counted as lookups.  An
entry that would fill the buffer exactly is not among them. -/
def addDirentsPlus (size : Nat) : List ReaddirCtx → Nat → Hs (List DirentPlus)
  | [], _ => pure []
  | ctx :: rest, len => do
      let e ← hsxFuseFillReply ctx.inode
      let res := fuseAddDirentryPlus ctx.name
      if res ≥ size - len then
        pure []
      else
        let _ ← hsxFuseRefInc ctx.inode 1
        let more ← addDirentsPlus size rest (len + res)
        pure (⟨e, ctx.name, ctx.off⟩ :: more)

/-- `hsx_fuse_readdir_plus`.  The counts that are sent have 32 bits. -/
def hsxFuseReaddirPlus (ino : UInt64) (size : UInt64) (off : UInt64) : Hs Unit := do
  match ← hsfsIlookup ino with
  | none => assertThat .cached false
  | some parent => do
      let (err, ctx) ← hsiNfs3ReaddirPlus parent size.toUInt32 off size.toUInt32
      if err ≠ 0 then
        fuseReply (.err err)
      else if ← malloc then
        let entries ← addDirentsPlus size.toNat ctx 0
        fuseReply (.direntsPlus entries)
      else
        fuseReply (.err Errno.nomem)

/-! ## Attributes -/

/-- The time the kernel may keep the attributes of an inode. -/
def attrTimeout (p : Addr) : Hs Int := do
  let inode ← load p
  let d ← Act.get
  pure (if sIsdir inode.iattr.mode then d.sb.acdirmin else d.sb.acregmin)

/-- `hsx_fuse_getattr`. -/
def hsxFuseGetattr (ino : UInt64) : Hs Unit := do
  match ← hsfsIlookup ino with
  | none => fuseReply (.err Errno.noent)
  | some inode => do
      let (err, st) ← hsiNfs3Getattr inode (some default)
      if err ≠ 0 then
        fuseReply (.err err)
      else
        let timeout ← attrTimeout inode
        fuseReply (.attr (st.getD default) timeout)

/-- `hsx_fuse_setattr`. -/
def hsxFuseSetattr (ino : UInt64) (attr : Stat) (toSet : UInt32) : Hs Unit := do
  match ← hsfsIlookup ino with
  | none => fuseReply (.err Errno.noent)
  | some inode => do
      let err ← hsfsLlSetattr inode (hsxFuseStat2iattr attr toSet default)
      if err ≠ 0 then
        fuseReply (.err err)
      else
        let i ← load inode
        let timeout ← attrTimeout inode
        fuseReply (.attr (hsfsGenericFillattr i default) timeout)

def rOk : UInt32 := 4
def wOk : UInt32 := 2
def xOk : UInt32 := 1

/-- The rights that `hsx_fuse_access` asks the server about. -/
def accessMode (inode : Inode) (mask : UInt32) : UInt32 :=
  (if hasBits mask rOk then Access3.read else 0) |||
    if sIsdir inode.iattr.mode then
      (if hasBits mask wOk then Access3.modify ||| Access3.extend ||| Access3.delete else 0) |||
        (if hasBits mask xOk then Access3.lookup else 0)
    else
      (if hasBits mask wOk then Access3.modify ||| Access3.extend else 0) |||
        (if hasBits mask xOk then Access3.execute else 0)

/-- `hsx_fuse_access`. -/
def hsxFuseAccess (ino : UInt64) (mask : UInt32) : Hs Unit := do
  match ← hsfsIlookup ino with
  | none => pure ()
  | some hi => do
      let inode ← load hi
      let err ← hsiNfs3Access hi (accessMode inode mask)
      fuseReply (.err err)

/-- `POSIX_ACL_XATTR_ACCESS`. -/
def posixAclXattrAccess : Name := nameOf "system.posix_acl_access"

/-- `POSIX_ACL_XATTR_DEFAULT`. -/
def posixAclXattrDefault : Name := nameOf "system.posix_acl_default"

/-- The list that the name of an extended attribute stands for. -/
def aclTypeOf (name : Name) : Option AclType :=
  if name = posixAclXattrAccess then some .access
  else if name = posixAclXattrDefault then some .default
  else none

/-- `hsx_fuse_getxattr`. -/
def hsxFuseGetxattr (ino : UInt64) (name : Name) (size : UInt64) : Hs Unit := do
  match aclTypeOf name with
  | none => fuseReply (.err Errno.notsup)
  | some type => do
      match ← hsfsIlookup ino with
      | none => fuseReply (.err Errno.noent)
      | some inode => do
          let mask := match type with
            | .access => NaMask.aclcnt ||| NaMask.acl
            | .default => NaMask.dfaclcnt ||| NaMask.dfacl
          match ← hsiNfs3Getxattr inode mask type with
          | .error err => fuseReply (.err err)
          | .ok acl => do
              let buf ← malloc
              if !buf ∧ size ≠ 0 then
                fuseReply (.err Errno.nomem)
              else
                let (realSize, data) := posixAclToXattr acl buf size.toNat
                if size = 0 then fuseReply (.xattr realSize)
                else if realSize = Errno.range then fuseReply (.err Errno.range)
                else fuseReply (.buf data)

/-- `hsx_fuse_setxattr`.  The label `out` also stands in the way of a success. -/
def hsxFuseSetxattr (ino : UInt64) (name : Name) (value : List UInt8) : Hs Unit := do
  match ← hsfsIlookup ino with
  | none => fuseReply (.err 0)
  | some hi => do
      match aclTypeOf name with
      | none => fuseReply (.err 0)
      | some type => do
          let err ← hsiNfs3Setxattr hi value type
          fuseReply (.err err)
          fuseReply (.err err)

/-! ## Files -/

/-- `hsx_fuse_open`. -/
def hsxFuseOpen : Hs Unit := do
  if ← malloc then fuseReply .open else fuseReply (.err Errno.nomem)

/-- `hsx_fuse_release`. -/
def hsxFuseRelease : Hs Unit := fuseReply (.err 0)

/-- Copy bytes into a buffer.  Bytes of it that were never written read as zeros. -/
def storeAt (buf : List UInt8) (off : Nat) (data : List UInt8) : List UInt8 :=
  buf.take off ++ List.replicate (off - buf.length) 0 ++ data ++ buf.drop (off + data.length)

/-- The loop of `hsx_fuse_read`: the error, or the buffer and the number of bytes. -/
def readLoop (inode : Addr) (size : Nat) (off : UInt64) :
    Nat → List UInt8 → Nat → Hs (Except Int (List UInt8 × Nat))
  | 0, _, _ => Act.throw .running
  | rounds + 1, buf, cnt => do
      if cnt < size then
        let d ← Act.get
        let tmpSize := min (size - cnt) d.sb.rsize.toNat
        match ← hsiNfs3Read inode (off + cnt.toUInt64) tmpSize.toUInt32 with
        | .error err => pure (.error err)
        | .ok resok =>
            let buf := storeAt buf cnt resok.data
            let cnt := cnt + resok.count.toNat
            if resok.eof then pure (.ok (buf, cnt)) else readLoop inode size off rounds buf cnt
      else
        pure (.ok (buf, cnt))

/-- `hsx_fuse_read`. -/
def hsxFuseRead (rounds : Nat) (ino : UInt64) (size : UInt64) (off : UInt64) : Hs Unit := do
  if ← malloc then
    match ← hsfsIlookup ino with
    | none => fuseReply (.err Errno.noent)
    | some inode => do
        match ← readLoop inode size.toNat off rounds [] 0 with
        | .error err => fuseReply (.err err)
        | .ok (buf, cnt) => fuseReply (.buf ((storeAt buf cnt []).take cnt))
  else
    fuseReply (.err Errno.nomem)

def hsfsUnstable : UInt32 := 0
def hsfsFileSync : UInt32 := 2

/-- The loop of `hsx_fuse_write`: the error, or the number of bytes. -/
def writeLoop (inode : Addr) (buf : List UInt8) (off : UInt64) (stable : UInt32) :
    Nat → Nat → Hs (Except Int Nat)
  | 0, _ => Act.throw .running
  | rounds + 1, cnt => do
      if cnt < buf.length then
        let d ← Act.get
        let tmpSize := min (buf.length - cnt) d.sb.wsize.toNat
        match ← hsiNfs3Write inode (off + cnt.toUInt64) tmpSize.toUInt32 stable
            ((buf.drop cnt).take tmpSize) with
        | .error err => pure (.error err)
        | .ok count => writeLoop inode buf off stable rounds (cnt + count.toNat)
      else
        pure (.ok cnt)

/-- `hsx_fuse_write`. -/
def hsxFuseWrite (rounds : Nat) (ino : UInt64) (buf : List UInt8) (off : UInt64)
    (directIo : Bool) : Hs Unit := do
  if ← malloc then
    match ← hsfsIlookup ino with
    | none => fuseReply (.err Errno.noent)
    | some inode => do
        match ← writeLoop inode buf off (if directIo then hsfsFileSync else hsfsUnstable) rounds
          0 with
        | .error err => fuseReply (.err err)
        | .ok cnt => fuseReply (.write cnt)
  else
    fuseReply (.err Errno.nomem)

/-! ## Names -/

/-- `hsx_fuse_readlink`.  The error is sent only if the operation failed. -/
def hsxFuseReadlink (ino : UInt64) : Hs Unit := do
  match ← hsfsIlookup ino with
  | none => pure ()
  | some hi => do
      let (st, link) ← hsiNfs3Readlink hi
      if st ≠ 0 then fuseReply (.err st) else fuseReply (.readlink link)

/-- `hsx_fuse_rmdir`. -/
def hsxFuseRmdir (parent : UInt64) (name : Name) : Hs Unit := do
  match ← hsfsIlookup parent with
  | none => pure ()
  | some hiParent => do
      let err ← hsiNfs3Rmdir hiParent name
      fuseReply (.err err)

/-- `hsx_fuse_unlink`. -/
def hsxFuseUnlink (parent : UInt64) (name : Name) : Hs Unit := do
  if name = [] then
    fuseReply (.err Errno.inval)
  else if name.length > nameMax then
    fuseReply (.err Errno.nametoolong)
  else
    match ← hsfsIlookup parent with
    | none => fuseReply (.err Errno.noent)
    | some hi => do
        let err ← hsiNfs3Unlink hi name
        fuseReply (.err err)

/-- `hsx_fuse_rename`. -/
def hsxFuseRename (parent : UInt64) (name : Name) (newparent : UInt64) (newname : Name) :
    Hs Unit := do
  if name = [] then
    fuseReply (.err Errno.inval)
  else if newname = [] then
    fuseReply (.err Errno.inval)
  else if name.length > nameMax then
    fuseReply (.err Errno.nametoolong)
  else if newname.length > nameMax then
    fuseReply (.err Errno.nametoolong)
  else
    match ← hsfsIlookup parent with
    | none => fuseReply (.err Errno.noent)
    | some hi => do
        match ← hsfsIlookup newparent with
        | none => fuseReply (.err Errno.noent)
        | some newhi => do
            let err ← hsiNfs3Rename hi name newhi newname
            fuseReply (.err err)

/-! ## The file system -/

/-- `hsi_super2statvfs`. -/
def hsiSuper2statvfs (sp : Super) : Option Statvfs :=
  let blockRes := intBit sp.bsizeBits.toNat - 1
  let blocks (bytes : UInt64) : UInt64 := (bytes + blockRes) >>> sp.bsizeBits.toUInt64
  if sp.bsizeBits = 0 then none
  else if sp.bsize = 0 then none
  else if sp.namlen = 0 then none
  else some
    { fBsize := sp.bsize
      fFrsize := sp.bsize
      fBlocks := blocks sp.fsstat.tbytes
      fBfree := blocks sp.fsstat.fbytes
      fBavail := blocks sp.fsstat.abytes
      fFiles := sp.fsstat.tfiles
      fFfree := sp.fsstat.ffiles
      fFavail := sp.fsstat.afiles
      fFsid := 0
      fFlag := sp.flags
      fNamemax := sp.namlen }

/-- `hsx_fuse_statfs`. -/
def hsxFuseStatfs : Hs Unit := do
  let d ← Act.get
  derefSb d.sb.root
  let err ← hsiNfs3Statfs d.sb.root
  if err ≠ 0 then
    fuseReply (.err err)
  else
    let d ← Act.get
    match hsiSuper2statvfs d.sb with
    | none => fuseReply (.err Errno.inval)
    | some stbuf => fuseReply (.statfs stbuf)

/-- `hsx_fuse_forget`. -/
def hsxFuseForget (ino nlookup : UInt64) : Hs Unit := do
  match ← hsfsIlookup ino with
  | none => assertThat .cached false
  | some hsfsNode => do
      let ilookup ← hsxFuseRefDec hsfsNode nlookup
      if ilookup = 0 then hsfsIput hsfsNode
      fuseReply .none

/-! ## Requests -/

/-- A request of the kernel, with the arguments that its handler reads. -/
inductive Request : Type
  | init
  | getattr (ino : UInt64)
  | statfs
  | lookup (parent : UInt64) (name : Name)
  | mkdir (parent : UInt64) (name : Name) (mode : UInt32)
  | open
  | release
  | read (ino : UInt64) (size : UInt32) (off : UInt64)
  | write (ino : UInt64) (buf : List UInt8) (off : UInt64) (directIo : Bool)
  | setattr (ino : UInt64) (attr : Stat) (toSet : UInt32)
  | forget (ino nlookup : UInt64)
  | rmdir (parent : UInt64) (name : Name)
  | unlink (parent : UInt64) (name : Name)
  | readlink (ino : UInt64)
  | symlink (link : Name) (parent : UInt64) (name : Name)
  | rename (parent : UInt64) (name : Name) (newparent : UInt64) (newname : Name)
  | readdir (ino : UInt64) (size : UInt32) (off : UInt64)
  | opendir (ino : UInt64)
  | mknod (parent : UInt64) (name : Name) (mode : UInt32) (rdev : UInt64)
  | link (ino newparent : UInt64) (newname : Name)
  | create (parent : UInt64) (name : Name) (mode flags uid gid : UInt32)
  | access (ino : UInt64) (mask : UInt32)
  | getxattr (ino : UInt64) (name : Name) (size : UInt32)
  | setxattr (ino : UInt64) (name : Name) (value : List UInt8)
  | readdirplus (ino : UInt64) (size : UInt32) (off : UInt64)
  deriving DecidableEq

/-- `hsfs_oper`: the handler of a request. -/
def Request.handle (rounds : Nat) : Request → Hs Unit
  | .init => hsxFuseInit
  | .getattr ino => hsxFuseGetattr ino
  | .statfs => hsxFuseStatfs
  | .lookup parent name => hsxFuseLookup parent name
  | .mkdir parent name mode => hsxFuseMkdir parent name mode
  | .open => hsxFuseOpen
  | .release => hsxFuseRelease
  | .read ino size off => hsxFuseRead rounds ino size.toUInt64 off
  | .write ino buf off directIo => hsxFuseWrite rounds ino buf off directIo
  | .setattr ino attr toSet => hsxFuseSetattr ino attr toSet
  | .forget ino nlookup => hsxFuseForget ino nlookup
  | .rmdir parent name => hsxFuseRmdir parent name
  | .unlink parent name => hsxFuseUnlink parent name
  | .readlink ino => hsxFuseReadlink ino
  | .symlink target parent name => hsxFuseSymlink target parent name
  | .rename parent name newparent newname => hsxFuseRename parent name newparent newname
  | .readdir ino size off => hsxFuseReaddir ino size.toUInt64 off
  | .opendir ino => hsxFuseOpendir ino
  | .mknod parent name mode rdev => hsxFuseMknod parent name mode rdev
  | .link ino newparent newname => hsxFuseLink ino newparent newname
  | .create parent name mode flags uid gid => hsxFuseCreate parent name mode flags uid gid
  | .access ino mask => hsxFuseAccess ino mask
  | .getxattr ino name size => hsxFuseGetxattr ino name size.toUInt64
  | .setxattr ino name value => hsxFuseSetxattr ino name value
  | .readdirplus ino size off => hsxFuseReaddirPlus ino size.toUInt64 off

end Hsfs
