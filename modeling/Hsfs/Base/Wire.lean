import Hsfs.Base.Attr
import Hsfs.Base.Errno

/-!
# Requests and replies on the wire

The procedures of NFS version 3 that the client calls, and the two of the ACL side
protocol, as one type `Rpc` of requests with a type `Rpc.Res` of replies for each.
A reply keeps the fields this client reads; everything a server may leave out is
an `Option`.
-/

namespace Hsfs

/-- A path component or a link target: bytes without the terminating zero. -/
abbrev Name := List UInt8

/-- `NAME_MAX`. -/
def nameMax : Nat := 255

/-- A file handle.  The protocol bounds its length by `NFS3_FHSIZE`; the buffers it
is copied to (`NFS_MAXFHSIZE`) are larger. -/
abbrev NfsFh := { data : List UInt8 // data.length ≤ 64 }

/-- The handle of length zero. -/
def NfsFh.empty : NfsFh := ⟨[], Nat.zero_le 64⟩

/-- A handle of one byte. -/
def NfsFh.ofByte (b : UInt8) : NfsFh := ⟨[b], Nat.le_of_ble_eq_true rfl⟩

/-! ## Arguments -/

/-- `set_atime` and `set_mtime`. -/
inductive SetTime : Type
  /-- `DONT_CHANGE`. -/
  | dontChange
  /-- `SET_TO_SERVER_TIME`. -/
  | serverTime
  /-- `SET_TO_CLIENT_TIME`. -/
  | clientTime (time : Nfstime3)
  deriving DecidableEq, Repr

/-- `sattr3`: the attributes to set. -/
structure Sattr3 where
  mode : Option UInt32 := none
  uid : Option UInt32 := none
  gid : Option UInt32 := none
  size : Option UInt64 := none
  atime : SetTime := .dontChange
  mtime : SetTime := .dontChange
  deriving DecidableEq, Repr

/-- `createhow3`. -/
inductive Createhow3 : Type
  | unchecked (attrs : Sattr3)
  | guarded (attrs : Sattr3)
  /-- The verifier is the eight bytes of a word. -/
  | exclusive (verf : UInt64)
  /-- A mode the protocol does not have. -/
  | other (mode : UInt32) (attrs : Sattr3)
  deriving DecidableEq, Repr

/-- `mknoddata3`. -/
inductive Mknoddata3 : Type
  | chr (attrs : Sattr3) (spec : Specdata3)
  | blk (attrs : Sattr3) (spec : Specdata3)
  | sock (attrs : Sattr3)
  | fifo (attrs : Sattr3)
  /-- The type field was left at zero. -/
  | void
  deriving DecidableEq, Repr

/-- `aclent`: an entry of an access control list. -/
structure Aclent where
  type : Int32
  id : UInt32
  perm : UInt16
  deriving DecidableEq

/-- `secattr`: the two access control lists of an object, with the mask of those
that are meant. -/
structure Secattr where
  mask : UInt32
  aclcnt : Nat
  aclent : List Aclent
  dfaclcnt : Nat
  dfaclent : List Aclent
  deriving DecidableEq

/-- A request. -/
inductive Rpc : Type
  | getattr (fh : NfsFh)
  | setattr (fh : NfsFh) (attrs : Sattr3)
  | lookup (dir : NfsFh) (name : Name)
  | access (fh : NfsFh) (access : UInt32)
  | readlink (fh : NfsFh)
  | read (fh : NfsFh) (offset : UInt64) (count : UInt32)
  | write (fh : NfsFh) (offset : UInt64) (count stable : UInt32) (data : List UInt8)
  | create (dir : NfsFh) (name : Name) (how : Createhow3)
  | mkdir (dir : NfsFh) (name : Name) (attrs : Sattr3)
  | symlink (dir : NfsFh) (name : Name) (attrs : Sattr3) (data : Name)
  | mknod (dir : NfsFh) (name : Name) (what : Mknoddata3)
  | remove (dir : NfsFh) (name : Name)
  | rmdir (dir : NfsFh) (name : Name)
  | rename (dir : NfsFh) (name : Name) (toDir : NfsFh) (toName : Name)
  | link (fh : NfsFh) (dir : NfsFh) (name : Name)
  | readdir (dir : NfsFh) (cookie cookieverf : UInt64) (count : UInt32)
  | readdirplus (dir : NfsFh) (cookie cookieverf : UInt64) (dircount maxcount : UInt32)
  | fsstat (fh : NfsFh)
  | fsinfo (fh : NfsFh)
  | pathconf (fh : NfsFh)
  | getacl (fh : NfsFh) (mask : UInt32)
  | setacl (fh : NfsFh) (acl : Secattr)
  deriving DecidableEq

/-! ## Results -/

/-- `lookup3resok`. -/
structure Lookup3resok where
  object : NfsFh
  objAttributes : Option Fattr3
  deriving DecidableEq

/-- `diropres3ok`: what the procedures that create an object return. -/
structure Diropres3ok where
  obj : Option NfsFh
  objAttributes : Option Fattr3
  deriving DecidableEq

/-- `read3resok`. -/
structure Read3resok where
  count : UInt32
  eof : Bool
  data : List UInt8
  deriving DecidableEq

/-- `entry3`. -/
structure Entry3 where
  fileid : UInt64
  name : Name
  cookie : UInt64
  deriving DecidableEq

/-- `readdir3resok`. -/
structure Readdir3resok where
  dirAttributes : Option Fattr3
  cookieverf : UInt64
  entries : List Entry3
  deriving DecidableEq

/-- `entryplus3`. -/
structure Entryplus3 where
  fileid : UInt64
  name : Name
  cookie : UInt64
  nameAttributes : Option Fattr3
  nameHandle : Option NfsFh
  deriving DecidableEq

/-- `readdirplus3resok`. -/
structure Readdirplus3resok where
  dirAttributes : Option Fattr3
  cookieverf : UInt64
  entries : List Entryplus3
  deriving DecidableEq

/-- `fsstat3resok`. -/
structure Fsstat3resok where
  tbytes : UInt64
  fbytes : UInt64
  abytes : UInt64
  tfiles : UInt64
  ffiles : UInt64
  afiles : UInt64
  deriving DecidableEq

/-- `fsinfo3resok`. -/
structure Fsinfo3resok where
  objAttributes : Option Fattr3
  rtmax : UInt32
  rtpref : UInt32
  rtmult : UInt32
  wtmax : UInt32
  wtpref : UInt32
  wtmult : UInt32
  dtpref : UInt32
  maxfilesize : UInt64
  timeDelta : Nfstime3
  properties : UInt32
  deriving DecidableEq

/-- The reply to a request. -/
def Rpc.Res : Rpc → Type
  | .getattr _ => Nfs3res Fattr3
  | .setattr _ _ => Nfs3res (Option Fattr3)
  | .lookup _ _ => Nfs3res Lookup3resok
  | .access _ _ => Nfs3res UInt32
  | .readlink _ => Nfs3res Name
  | .read _ _ _ => Nfs3res Read3resok
  | .write _ _ _ _ _ => Nfs3res UInt32
  | .create _ _ _ => Nfs3res Diropres3ok
  | .mkdir _ _ _ => Nfs3res Diropres3ok
  | .symlink _ _ _ _ => Nfs3res Diropres3ok
  | .mknod _ _ _ => Nfs3res Diropres3ok
  | .remove _ _ => Nfs3res Unit
  | .rmdir _ _ => Nfs3res Unit
  | .rename _ _ _ _ => Nfs3res Unit
  | .link _ _ _ => Nfs3res (Option Fattr3)
  | .readdir _ _ _ _ => Nfs3res Readdir3resok
  | .readdirplus _ _ _ _ _ => Nfs3res Readdirplus3resok
  | .fsstat _ => Nfs3res Fsstat3resok
  | .fsinfo _ => Nfs3res Fsinfo3resok
  | .pathconf _ => Nfs3res UInt32
  | .getacl _ _ => Nfs3res Secattr
  | .setacl _ _ => Nfs3res Unit

/-- What one `clnt_call` comes back with: a decoded reply, or a failure with the
error number that `clnt_geterr` then reports, which may be zero. -/
inductive RpcReply (α : Type) : Type
  | done (res : α)
  | failed (reErrno : Int)

/-- `hsi_rpc_stat_to_errno`. -/
def hsiRpcStatToErrno (reErrno : Int) : Int := if reErrno = 0 then Errno.io else reErrno

theorem hsiRpcStatToErrno_ne_zero (reErrno : Int) : hsiRpcStatToErrno reErrno ≠ 0 := by
  unfold hsiRpcStatToErrno
  split
  · decide
  · assumption

end Hsfs
