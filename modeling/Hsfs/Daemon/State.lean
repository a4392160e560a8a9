import Hsfs.Base.ErrPtr
import Hsfs.Base.Wire
import Hsfs.Interact.Act
import Hsfs.Table.Chains

/-!
# The state of the daemon

The daemon is one process that serves one request after the other.  Its state is
the memory that outlives a request: the inodes, the superblock with its two hash
tables, and the RPC clients.  Beside it we keep two logs that the process itself
does not have: the answers it gave, and the inodes whose attributes or lookup
count the request layer used.

Pointers are addresses, and an inode is looked up in the `heap` by its address.
Nothing else keeps a dangling pointer, or one that encodes an error, from being
used; what the hardware would do then is a `Fault`.
-/

namespace Hsfs

open Interact Table

/-! ## Memory -/

/-- An RPC `CLIENT`, by the order in which the clients were opened. -/
abbrev Client := Nat

/-- `struct nfs_inode` with the `struct hsfs_inode` inside it.  The back pointer to
the superblock is left out: there is one superblock. -/
structure Inode where
  /-- The server's number of the object. -/
  fileid : UInt64
  fh : NfsFh
  flags : UInt64
  cookieverf : UInt64
  iattr : HsfsIattr
  iState : UInt32
  iNlink : UInt32
  iBlocks : UInt64
  /-- The field `private`: the lookup count. -/
  priv : UInt64
  iCount : Int32
  realIno : UInt64
  iBlkbits : UInt32
  /-- The number the kernel knows the inode by. -/
  ino : UInt64
  iRdev : UInt64
  generation : UInt64
  deriving DecidableEq

/-- An inode full of zeros, as `bzero` leaves a new one and as the linker leaves
`bad_hsfs_inode`. -/
def Inode.zero : Inode where
  fileid := 0
  fh := NfsFh.empty
  flags := 0
  cookieverf := 0
  iattr := ⟨0, 0, 0, 0, 0, ⟨0, 0⟩, ⟨0, 0⟩, ⟨0, 0⟩⟩
  iState := 0
  iNlink := 0
  iBlocks := 0
  priv := 0
  iCount := 0
  realIno := 0
  iBlkbits := 0
  ino := 0
  iRdev := 0
  generation := 0

/-- The number of chains in each of the two tables, `1 << HSFS_ID_HASH_BITS`. -/
abbrev hashSize : Nat := 1024

/-- The part of the superblock that `hsi_fsinfo_to_super` copies from a reply. -/
structure SuperFsinfo where
  rtmax : UInt32
  rtpref : UInt32
  rtmult : UInt32
  wtmax : UInt32
  wtpref : UInt32
  wtmult : UInt32
  dtpref : UInt32
  maxfilesize : UInt64
  timeDelta : Nfstime3
  properties : UInt32
  deriving DecidableEq

/-- `struct hsfs_super`, without the mount-time settings that no request reads. -/
structure Super where
  /-- The inodes by file handle. -/
  fhTable : Chains hashSize Addr
  /-- The inodes by number. -/
  idTable : Chains hashSize Addr
  /-- The last number given out. -/
  currId : UInt64
  clntp : Client
  aclClntp : Option Client
  flags : UInt32
  rsize : UInt32
  wsize : UInt32
  acregmin : Int
  acdirmin : Int
  namlen : UInt32
  dtsize : UInt32
  bsize : UInt32
  bsizeBits : UInt8
  root : Addr
  /-- The fields copied from the last reply to `FSINFO`. -/
  fsinfo : SuperFsinfo
  /-- The fields copied from the last reply to `FSSTAT`. -/
  fsstat : Fsstat3resok

/-- What the RPC library knows about the clients. -/
structure Clients where
  /-- How many have been opened so far. -/
  opened : Nat
  /-- Those that have been closed. -/
  closed : List Client
  /-- A log of the uses of a client that was not open at that time. -/
  misused : List Client
  deriving DecidableEq

/-- The client is open. -/
def Clients.IsOpen (c : Clients) (clnt : Client) : Prop := clnt < c.opened ∧ clnt ∉ c.closed

instance (c : Clients) (clnt : Client) : Decidable (c.IsOpen clnt) :=
  inferInstanceAs (Decidable (_ ∧ _))

namespace Clients

/-- Use a client, and note it if it is not open. -/
def use (c : Clients) (clnt : Client) : Clients :=
  if c.IsOpen clnt then c else { c with misused := c.misused ++ [clnt] }

/-- Close a client. -/
def close (c : Clients) (clnt : Client) : Clients :=
  { c.use clnt with closed := clnt :: c.closed }

/-- Open the next client. -/
def openNext (c : Clients) : Clients := { c with opened := c.opened + 1 }

end Clients

/-! ## Answers to the kernel -/

/-- `struct fuse_entry_param`. -/
structure EntryParam where
  ino : UInt64
  generation : UInt64
  attr : Stat
  attrTimeout : Int
  entryTimeout : Int
  deriving DecidableEq

/-- An entry that `fuse_add_direntry` writes. -/
structure Dirent where
  ino : UInt64
  name : Name
  off : UInt64
  deriving DecidableEq

/-- An entry that `fuse_add_direntry_plus` writes. -/
structure DirentPlus where
  entry : EntryParam
  name : Name
  off : UInt64
  deriving DecidableEq

/-- `struct statvfs`. -/
structure Statvfs where
  fBsize : UInt32
  fFrsize : UInt32
  fBlocks : UInt64
  fBfree : UInt64
  fBavail : UInt64
  fFiles : UInt64
  fFfree : UInt64
  fFavail : UInt64
  fFsid : UInt64
  fFlag : UInt32
  fNamemax : UInt32
  deriving DecidableEq

/-- A call of one of the `fuse_reply_*` functions. -/
inductive Reply : Type
  | err (err : Int)
  | none
  | entry (e : EntryParam)
  | create (e : EntryParam)
  | attr (attr : Stat) (timeout : Int)
  | readlink (link : Option Name)
  | open
  | write (count : Nat)
  /-- `fuse_reply_buf` with file or attribute data. -/
  | buf (data : List UInt8)
  /-- `fuse_reply_buf` with a directory listing. -/
  | dirents (entries : List Dirent)
  /-- `fuse_reply_buf` with a directory listing that carries attributes. -/
  | direntsPlus (entries : List DirentPlus)
  | statfs (stbuf : Statvfs)
  | xattr (count : Int)
  deriving DecidableEq

/-! ## The daemon -/

/-- The assertions of the source that a request can reach. -/
inductive Assertion : Type
  /-- `ERR_PTR`: the address is below the end of `bad_hsfs_inode`. -/
  | errPtr
  /-- `hsx_fuse_ref_dec`: the count is not decremented below zero. -/
  | refDec
  /-- The creating handlers and `hsx_fuse_init`: the inode has no lookups yet. -/
  | newRef
  /-- `hsx_fuse_forget` and the directory handlers: the number is known. -/
  | cached
  /-- `hsi_fill_super`: the root has number `1`. -/
  | rootIno
  deriving DecidableEq

/-- How the process can end in the middle of a request. -/
inductive Fault : Type
  /-- An access to memory that is not there. -/
  | segv
  /-- A failed assertion. -/
  | abort (what : Assertion)
  /-- Not an end: a loop has used up the number of rounds it was given. -/
  | running
  deriving DecidableEq

/-- The state of the process. -/
structure Daemon where
  layout : Layout
  /-- The inodes that have been allocated and not freed. -/
  heap : Addr → Option Inode
  sb : Super
  clients : Clients
  /-- The answers given, the latest last. -/
  replies : List Reply
  /-- The inodes whose lookup count the request layer has changed, or from which it
  has filled an answer, the latest last. -/
  touched : List Addr

/-- The settings of the superblock that come from the mount options. -/
structure MountOpts where
  flags : UInt32
  rsize : UInt32
  wsize : UInt32
  acregmin : Int
  acdirmin : Int
  bsize : UInt32
  bsizeBits : UInt8
  /-- Whether the server has the ACL service. -/
  acl : Bool

/-- The daemon as `hsx_fuse_mount` hands it to `hsi_fill_super`: the clients are open,
nothing else has happened. -/
def Daemon.start (l : Layout) (o : MountOpts) : Daemon where
  layout := l
  heap := fun _ ↦ none
  sb :=
    { fhTable := Chains.empty
      idTable := Chains.empty
      currId := 0
      clntp := 0
      aclClntp := if o.acl then some 1 else none
      flags := o.flags
      rsize := o.rsize
      wsize := o.wsize
      acregmin := o.acregmin
      acdirmin := o.acdirmin
      namlen := 0
      dtsize := 0
      bsize := o.bsize
      bsizeBits := o.bsizeBits
      root := Addr.null
      fsinfo := ⟨0, 0, 0, 0, 0, 0, 0, 0, ⟨0, 0⟩, 0⟩
      fsstat := ⟨0, 0, 0, 0, 0, 0⟩ }
  clients := ⟨if o.acl then 2 else 1, [], []⟩
  replies := []
  touched := []

/-- A layout with `bad_hsfs_inode` where a linker may put it. -/
def Layout.sample : Layout := ⟨0x605000, 4096, by decide, by decide⟩

/-- The default mount options over TCP. -/
def MountOpts.sample : MountOpts := ⟨0, 65536, 65536, 3, 30, 4096, 12, true⟩

/-! ## The environment -/

/-- The address is within the reach of `bad_hsfs_inode`: an inode there would
overlap it. -/
def Layout.nearBad (l : Layout) (p : Addr) : Bool :=
  l.bad.toNat < p.toNat + sizeofHsfsInode && p.toNat < l.bad.toNat + sizeofHsfsInode

/-- What the process asks of its surroundings. -/
inductive Call : Type
  /-- `clnt_call` on a client. -/
  | clntCall (clnt : Client) (req : Rpc)
  /-- `hsi_mnt_openclnt`, for the ACL service or for NFS. -/
  | openclnt (acl : Bool)
  /-- `clnt_call` of the null procedure. -/
  | ping (clnt : Client)
  /-- `malloc` of an inode for the given object, anywhere outside what `avoid` holds. -/
  | mallocInode (fileid : UInt64) (fh : NfsFh) (avoid : Addr → Bool)
  /-- `malloc` of anything else. -/
  | malloc

/-- Where an inode may be allocated: not at null, outside the last page and off
everything the caller says is in use. -/
abbrev FreeAddr (avoid : Addr → Bool) :=
  { a : Addr // a ≠ 0 ∧ a.toNat + sizeofHsfsInode ≤ 2 ^ 64 - 4096 ∧ avoid a = false }

/-- The first of some addresses at which an inode may be allocated. -/
def FreeAddr.first (avoid : Addr → Bool) : List Addr → Option (FreeAddr avoid)
  | [] => none
  | a :: as =>
      if h : a ≠ 0 ∧ a.toNat + sizeofHsfsInode ≤ 2 ^ 64 - 4096 ∧ avoid a = false then some ⟨a, h⟩
      else first avoid as

/-- The answers to a call. -/
def Call.Res : Call → Type
  | .clntCall _ req => RpcReply req.Res
  | .openclnt _ => Bool
  | .ping _ => Bool
  | .mallocInode _ _ avoid => Option (FreeAddr avoid)
  | .malloc => Bool

/-- A piece of the daemon's code. -/
abbrev Hs := Act Call Call.Res Daemon Fault

/-- A call with its answer. -/
abbrev Event := (c : Call) × c.Res

/-- `malloc` of anything but an inode: whether it gave memory. -/
def malloc : Hs Bool := Act.ask Call.malloc

namespace Daemon

/-- Overwrite an inode. -/
def setInode (d : Daemon) (p : Addr) (inode : Inode) : Daemon :=
  { d with heap := Function.update d.heap p (some inode) }

/-- Free an inode. -/
def free (d : Daemon) (p : Addr) : Daemon :=
  { d with heap := Function.update d.heap p none }

/-- The addresses that a new inode must not overlap.  Inodes are of one size, so it
is enough that the allocator keeps them at different addresses. -/
def inUse (d : Daemon) (p : Addr) : Bool := (d.heap p).isSome || d.layout.nearBad p

@[simp] theorem setInode_heap_self (d : Daemon) (p : Addr) (i : Inode) :
    (d.setInode p i).heap p = some i := Function.update_self ..

@[simp] theorem setInode_setInode (d : Daemon) (p : Addr) (i j : Inode) :
    (d.setInode p i).setInode p j = d.setInode p j := by
  simp [setInode]

theorem setInode_eq_self {d : Daemon} {p : Addr} {i : Inode} (h : d.heap p = some i) :
    d.setInode p i = d := by
  simp [setInode, ← h]

theorem setInode_heap_of_ne (d : Daemon) {p q : Addr} (h : q ≠ p) (i : Inode) :
    (d.setInode p i).heap q = d.heap q := Function.update_of_ne h ..

/-- What is left after an inode has been freed. -/
theorem free_heap_eq_some {d : Daemon} {p q : Addr} {i : Inode} :
    (d.free p).heap q = some i ↔ q ≠ p ∧ d.heap q = some i := by
  by_cases h : q = p
  · simp [free, h]
  · simp [free, h]

end Daemon

/-! ## Reading and writing inodes -/

/-- Read an inode.  An error pointer leads into `bad_hsfs_inode`, which is mapped and
holds zeros. -/
def load (p : Addr) : Hs Inode := do
  let d ← Act.get
  match d.heap p with
  | some inode => pure inode
  | none => if d.layout.nearBad p then pure Inode.zero else Act.throw .segv

/-- Change an inode.  What is written through an error pointer is not tracked. -/
def update (p : Addr) (f : Inode → Inode) : Hs Unit := do
  let d ← Act.get
  match d.heap p with
  | some inode => Act.modify (·.setInode p (f inode))
  | none => if d.layout.nearBad p then pure () else Act.throw .segv

/-- Follow `inode->sb`, which is null in `bad_hsfs_inode`. -/
def derefSb (p : Addr) : Hs Unit := do
  let d ← Act.get
  match d.heap p with
  | some _ => pure ()
  | none => Act.throw .segv

/-- `assert` and `FUSE_ASSERT`. -/
def assertThat (what : Assertion) (c : Bool) : Hs Unit :=
  if c then pure () else Act.throw (.abort what)

/-- `ERR_PTR`. -/
def errPtr (error : Int) : Hs Addr := do
  let d ← Act.get
  match d.layout.errPtr error with
  | some p => pure p
  | none => Act.throw (.abort .errPtr)

section run

variable {d : Daemon} {p : Addr} {i : Inode}

theorem load_run (h : d.heap p = some i) : (load p).run d = .ret (.ok i, d) := by
  simp [load, h]

theorem update_run (h : d.heap p = some i) (f : Inode → Inode) :
    (update p f).run d = .ret (.ok (), d.setInode p (f i)) := by
  simp [update, h]

theorem derefSb_run (h : d.heap p = some i) : (derefSb p).run d = .ret (.ok (), d) := by
  simp [derefSb, h]

end run

end Hsfs
