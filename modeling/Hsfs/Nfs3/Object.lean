import Hsfs.Nfs3.Attr

/-!
# Operations on directory entries

`LOOKUP`, the procedures that create an object, and those that link, unlink, rename
and read links.  An operation that yields an inode returns it beside the error
number; it is null unless the operation got as far as `hsi_nfs_fhget`.

A failure of `hsi_nfs_fhget` is an error pointer.  `hsi_nfs3_lookup` does not test for
one, and the others test with `IS_ERR`.
-/

namespace Hsfs

open Interact

/-- The conversion of a `long` to an `int`. -/
def intOfLong (x : Int) : Int := x.bmod (2 ^ 32)

/-! ## LOOKUP -/

/-- `hsi_nfs3_lookup`. -/
def hsiNfs3Lookup (parent : Addr) (name : Name) : Hs (Int × Addr) := do
  let fh ← hsiNfs3Getfh3 parent
  match ← callSb (.lookup fh name) with
  | .error err => pure (err, Addr.null)
  | .ok (.fail status) => do
      freeresSb
      pure (hsiNfs3StatToErrno status, Addr.null)
  | .ok (.ok resok) => do
      let fattr := hsiNfs3Post2fattr resok.objAttributes NfsFattr.fresh
      let new ← hsiNfsFhget resok.object fattr
      freeresSb
      pure (0, new)

/-! ## Creating objects -/

/-- `hsi_nfs3_handle_create`. -/
def hsiNfs3HandleCreate (dir : Diropres3ok) : Hs Addr := do
  let fattr := hsiNfs3Post2fattr dir.objAttributes NfsFattr.fresh
  match dir.obj with
  | none => errPtr Errno.noent
  | some fh => hsiNfsFhget fh fattr

/-- What mkdir, mknod and symlink make of the result of `hsi_nfs3_handle_create`: they
clear the pointer before they ask it for the error. -/
def clearThenPtrErr (new : Addr) : Hs (Int × Addr) := do
  let d ← Act.get
  if isErr new then
    pure (intOfLong (d.layout.ptrErr Addr.null), Addr.null)
  else
    pure (0, new)

/-- The mode bits that `hsi_nfs3_create` takes for the file: `FULL_MODE`. -/
def fullMode : UInt32 := 0o777

/-- How `hsi_nfs3_create` asks for the file: the verifier of an exclusive create is the
number of the parent. -/
def createhow3Of (parent : Inode) (mode : UInt32) : Createhow3 :=
  let sattr : Sattr3 :=
    { mode := some (mode &&& fullMode)
      uid := some parent.iattr.uid
      gid := some parent.iattr.gid
      atime := .serverTime
      mtime := .serverTime }
  match (mode &&& 0xF0000) >>> 16 with
  | 0 => .unchecked sattr
  | 1 => .guarded sattr
  | 2 => .exclusive parent.ino
  | how => .other how sattr

/-- `S_SETMODE` with the mode of a file that has been created exclusively. -/
def exclusiveIattr (new : Inode) (mode : UInt32) : HsfsIattr :=
  { new.iattr with
    mode := mode &&& fullMode
    valid := new.iattr.valid ||| HsfsAttr.mode }

/-- `hsi_nfs3_create`. -/
def hsiNfs3Create (hi : Addr) (name : Name) (mode : UInt32) : Hs (Int × Addr) := do
  let parent ← load hi
  let clntp ← sbClntp
  let how := createhow3Of parent mode
  match ← hsiNfs3ClntCall clntp (.create parent.fh name how) with
  | .error status => pure (status, Addr.null)
  | .ok (.fail status) => do
      clntFreeres clntp
      pure (hsiNfs3StatToErrno status, Addr.null)
  | .ok (.ok resok) => do
      let new ← hsiNfs3HandleCreate resok
      if isErr new then
        let d ← Act.get
        clntFreeres clntp
        pure (intOfLong (d.layout.ptrErr new), Addr.null)
      else if (mode &&& 0xF0000) >>> 16 = 2 then
        let i ← load new
        let status ← hsiNfsSetattr new (exclusiveIattr i mode)
        clntFreeres clntp
        pure (status, new)
      else
        clntFreeres clntp
        pure (0, new)

/-- What mkdir, mknod and symlink do with what has come back from their call, where `free` gives the
result back. -/
def newOfReply (free : Hs Unit) : Except Int (Nfs3res Diropres3ok) → Hs (Int × Addr)
  | .error err => pure (err, Addr.null)
  | .ok (.fail status) => do
      free
      pure (hsiNfs3StatToErrno status, Addr.null)
  | .ok (.ok resok) => do
      let r ← clearThenPtrErr (← hsiNfs3HandleCreate resok)
      free
      pure r

/-- `hsi_nfs3_mkdir`. -/
def hsiNfs3Mkdir (parent : Addr) (name : Name) (mode : UInt32) : Hs (Int × Addr) := do
  let fh ← hsiNfs3Getfh3 parent
  newOfReply freeresSb (← callSb (.mkdir fh name { mode := some (mode &&& 0xfff) }))

/-- The type switch of `hsi_nfs3_mknod`. -/
def mknoddata3Of (mode : UInt32) (rdev : UInt64) : Mknoddata3 :=
  let sattr : Sattr3 := { mode := some (mode &&& 0xfff) }
  let spec : Specdata3 := ⟨devMajor rdev, devMinor rdev⟩
  let fmt := mode &&& sIfmt
  if fmt = sIfchr then .chr sattr spec
  else if fmt = sIfblk then .blk sattr spec
  else if fmt = sIfsock then .sock sattr
  else if fmt = sIfifo then .fifo sattr
  else .void

/-- `hsi_nfs3_mknod`. -/
def hsiNfs3Mknod (parent : Addr) (name : Name) (mode : UInt32) (rdev : UInt64) :
    Hs (Int × Addr) := do
  if name.length > nameMax then
    pure (Errno.nametoolong, Addr.null)
  else
    let fh ← hsiNfs3Getfh3 parent
    if ← malloc then
      let clntp ← sbClntp
      newOfReply (clntFreeres clntp)
        (← hsiNfs3ClntCall clntp (.mknod fh name (mknoddata3Of mode rdev)))
    else
      pure (Errno.nomem, Addr.null)

/-- `hsi_nfs3_symlink`. -/
def hsiNfs3Symlink (parent : Addr) (link name : Name) : Hs (Int × Addr) := do
  let fh ← hsiNfs3Getfh3 parent
  newOfReply freeresSb (← callSb (.symlink fh name {} link))

/-- The three calls whose result goes to `newOfReply`. -/
inductive Makes (free : Hs Unit) : (req : Rpc) → (Except Int req.Res → Hs (Int × Addr)) → Prop
  | mkdir (dir : NfsFh) (name : Name) (attrs : Sattr3) :
      Makes free (.mkdir dir name attrs) (newOfReply free)
  | mknod (dir : NfsFh) (name : Name) (what : Mknoddata3) :
      Makes free (.mknod dir name what) (newOfReply free)
  | symlink (dir : NfsFh) (name : Name) (attrs : Sattr3) (target : Name) :
      Makes free (.symlink dir name attrs target) (newOfReply free)

/-! ## Links and removal -/

/-- `hsi_nfs3_link`. -/
def hsiNfs3Link (inode newparent : Addr) (name : Name) : Hs Int := do
  if name.length > nameMax then
    pure Errno.nametoolong
  else
    let fh ← hsiNfs3Getfh3 inode
    let dir ← hsiNfs3Getfh3 newparent
    if ← malloc then
      let clntp ← sbClntp
      match ← hsiNfs3ClntCall clntp (.link fh dir name) with
      | .error err => pure err
      | .ok (.fail status) => do
          clntFreeres clntp
          pure (hsiNfs3StatToErrno status)
      | .ok (.ok fileAttributes) => do
          let fattr := hsiNfs3Post2fattr fileAttributes NfsFattr.fresh
          if fattr.isValid then
            let err ← nfsRefreshInode inode fattr
            clntFreeres clntp
            pure err
          else
            let (err, _) ← hsiNfs3Getattr inode none
            clntFreeres clntp
            pure err
    else
      pure Errno.nomem

/-- `hsi_nfs3_unlink`. -/
def hsiNfs3Unlink (parent : Addr) (name : Name) : Hs Int := do
  let clntp ← sbClntp
  let fh ← hsiNfs3Getfh3 parent
  match ← hsiNfs3ClntCall clntp (.remove fh name) with
  | .error err => pure err
  | .ok (.fail status) => do
      clntFreeres clntp
      pure (hsiNfs3StatToErrno status)
  | .ok (.ok _) => do
      clntFreeres clntp
      pure 0

/-- `hsi_nfs3_rmdir`. -/
def hsiNfs3Rmdir (parent : Addr) (name : Name) : Hs Int := do
  let fh ← hsiNfs3Getfh3 parent
  match ← callSb (.rmdir fh name) with
  | .error err => pure err
  | .ok (.fail status) => do
      freeresSb
      pure (hsiNfs3StatToErrno status)
  | .ok (.ok _) => do
      freeresSb
      pure (hsiNfs3StatToErrno 0)

/-- `hsi_nfs3_rename`. -/
def hsiNfs3Rename (parent : Addr) (name : Name) (newparent : Addr) (newname : Name) : Hs Int := do
  let clntp ← sbClntp
  let dir ← hsiNfs3Getfh3 parent
  let toDir ← hsiNfs3Getfh3 newparent
  match ← hsiNfs3ClntCall clntp (.rename dir name toDir newname) with
  | .error err => pure err
  | .ok (.fail status) => do
      clntFreeres clntp
      pure (hsiNfs3StatToErrno status)
  | .ok (.ok _) => do
      clntFreeres clntp
      pure 0

/-- The bytes of a C string. -/
def cString (s : List UInt8) : Name := s.takeWhile (· ≠ 0)

/-- The bytes of a name in the source. -/
def nameOf (s : String) : Name := s.toList.map fun c ↦ c.toNat.toUInt8

/-- `hsi_nfs3_readlink`: the error and the link.  If there is no memory for the link, it is
null and the error is zero. -/
def hsiNfs3Readlink (inode : Addr) : Hs (Int × Option Name) := do
  let fh ← hsiNfs3Getfh3 inode
  let clntp ← sbClntp
  match ← hsiNfs3ClntCall clntp (.readlink fh) with
  | .error err => pure (err, none)
  | .ok (.fail status) => do
      clntFreeres clntp
      pure (hsiNfs3StatToErrno status, none)
  | .ok (.ok data) => do
      let got ← malloc
      clntFreeres clntp
      pure (0, if got then some (cString data) else none)

end Hsfs
