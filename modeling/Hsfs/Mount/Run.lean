import Hsfs.Interact.Sum
import Hsfs.Mount.Options

/-!
# Mounting and unmounting

`hsx_fuse_mount` asks the mount daemon of the server for the root, makes the clients for NFS and for
access control lists, has `hsi_fill_super` make the superblock ready and mounts the file system.
What it has acquired by the time something fails is different from failure to failure, and there are
three labels to leave by.

It makes calls of its own, beside those of the daemon: to the mount daemon, the clock and the FUSE
library.
-/

namespace Hsfs.Mount

open Interact

/-! ## The environment of a mount -/

/-- `mountres3`: the handle of the root, or a status other than `MNT_OK`.  The flavors of
authentication are not read. -/
abbrev Mountres3 := Nfs3res NfsFh

/-- What `clnt_call` returns: a decoded reply, or a status other than `RPC_SUCCESS`. -/
abbrev ClntRes (α : Type) := Except { st : Int // st ≠ 0 } α

/-- The procedures of the mount daemon that are called. -/
inductive MountProc where
  | mnt
  | umnt

/-- `rpc_createerr.cf_stat` and `errno`, as they are found after a mount request that failed. -/
structure CreateErr where
  cfStat : Int
  errno : Int

/-- What a mount asks of its surroundings, beside what the daemon does. -/
inductive MountCall : Type
  /-- `hsi_mnt_openclnt`, to call a procedure of the mount daemon. -/
  | openclnt (mntServer : ClntAddr) (proc : MountProc)
  /-- `clnt_call` of `MOUNTPROC3_MNT`. -/
  | mnt (clnt : Client) (dirname : Name)
  /-- `malloc` of a copy of the handle in a reply. -/
  | mallocFhandle (tres : ClntRes Mountres3)
  /-- `clnt_call` of `MOUNTPROC_UMNT`. -/
  | umnt (clnt : Client) (dirname : Name)
  /-- Reading `rpc_createerr` and `errno`. -/
  | createerr
  /-- `time`. -/
  | time
  | fuseMount
  | fuseUnmount

/-- The answers to a call. -/
def MountCall.Res : MountCall → Type
  | .openclnt _ _ => Bool
  | .mnt _ _ => ClntRes Mountres3
  | .mallocFhandle _ => Bool
  | .umnt _ _ => ClntRes Unit
  | .createerr => CreateErr
  | .time => Int
  -- the channel, which may be null
  | .fuseMount => Option Addr
  | .fuseUnmount => Unit

/-- A piece of the code that mounts and unmounts. -/
abbrev Mh := Act (Call ⊕ MountCall) (Sum.elim Call.Res MountCall.Res) Daemon Fault

/-- A call with its answer. -/
abbrev MountEvent := (c : Call ⊕ MountCall) × Sum.elim Call.Res MountCall.Res c

/-! ## Single calls -/

/-- Whether the RPC library can make a client for the mount daemon. -/
def openclntMnt (mntServer : ClntAddr) (proc : MountProc) : Mh Bool :=
  Act.ask (Sum.inr (MountCall.openclnt mntServer proc))

/-- `clnt_call` of `MOUNTPROC3_MNT`. -/
def callMnt (clnt : Client) (dirname : Name) : Mh (ClntRes Mountres3) := do
  Act.inl (useClient clnt)
  Act.ask (Sum.inr (MountCall.mnt clnt dirname))

/-- `clnt_call` of `MOUNTPROC_UMNT`. -/
def callUmnt (clnt : Client) (dirname : Name) : Mh (ClntRes Unit) := do
  Act.inl (useClient clnt)
  Act.ask (Sum.inr (MountCall.umnt clnt dirname))

/-- Whether there is memory for a copy of the handle in a reply. -/
def mallocFhandle (tres : ClntRes Mountres3) : Mh Bool :=
  Act.ask (Sum.inr (MountCall.mallocFhandle tres))

/-- `rpc_createerr` and `errno`. -/
def createerr : Mh CreateErr := Act.ask (Sum.inr MountCall.createerr)

/-- `time`. -/
def time : Mh Int := Act.ask (Sum.inr MountCall.time)

/-- `fuse_mount`. -/
def fuseMount : Mh (Option Addr) := Act.ask (Sum.inr MountCall.fuseMount)

/-- `fuse_unmount`. -/
def fuseUnmount : Mh Unit := Act.ask (Sum.inr MountCall.fuseUnmount)

/-! ## Calls of the mount daemon -/

/-- `hsi_mnt_openclnt`, for the mount daemon. -/
def mntOpenclnt (mntServer : ClntAddr) (proc : MountProc) : Mh (Option Client) := do
  if ← openclntMnt mntServer proc then
    let d ← Act.get
    Act.modify fun d ↦ { d with clients := d.clients.openNext }
    pure (some d.clients.opened)
  else
    pure none

/-- `hsi_nfs3_mount`: what it returns, and what it has stored in `mntres`. -/
def hsiNfs3Mount (mntServer : ClntAddr) (dirname : Name) : Mh (Int × Option Mountres3) := do
  match ← mntOpenclnt mntServer .mnt with
  | none => pure (-1, none)
  | some clnt => do
      let tres ← callMnt clnt dirname
      let tmp ← mallocFhandle tres
      Act.inl (clntFreeres clnt)
      Act.inl (hsiMntCloseclnt clnt)
      if tmp then
        match tres with
        | .ok res => pure (0, some res)
        -- what was not decoded is all zero: a success with an empty handle
        | .error st => pure (st.1, some (.ok NfsFh.empty))
      else
        pure (Errno.nomem, none)

/-- `hsi_nfs3_unmount`. -/
def hsiNfs3Unmount (mntServer : ClntAddr) (dirname : Name) : Mh Int := do
  match ← mntOpenclnt mntServer .umnt with
  | none => pure (-1)
  | some clnt => do
      let res ← callUmnt clnt dirname
      Act.inl (hsiMntCloseclnt clnt)
      match res with
      | .ok () => pure 0
      | .error st => pure st.1

/-- `RPC_TIMEDOUT`. -/
def rpcTimedout : Int := 5

/-- `RPC_SYSTEMERROR`. -/
def rpcSystemerror : Int := 12

/-- The retry loop of `hsx_fuse_mount`, for a number of rounds: the reply, if it does not end at
`fail`. -/
def mountLoop (fg : Bool) (mntServer : ClntAddr) (dirname : Name) (timeout : Int) :
    Nat → Mh (Option Mountres3)
  | 0 => Act.throw .running
  | rounds + 1 => do
      let (ret, mntres) ← hsiNfs3Mount mntServer dirname
      if ret = 0 then
        pure mntres
      else if fg then
        let e ← createerr
        if e.cfStat = rpcTimedout ∨ e.cfStat = rpcSystemerror ∧ e.errno = Errno.timedout then
          let t ← time
          if timeout ≤ t then pure none else mountLoop fg mntServer dirname timeout rounds
        else
          pure none
      else
        -- the deadline is not looked at: the test after this one asks for `fg` again
        mountLoop fg mntServer dirname timeout rounds

/-! ## Mounting -/

/-- `clnt_destroy`. -/
def clntDestroy (clnt : Client) : Mh Unit := Act.inl (hsiMntCloseclnt clnt)

/-- `clnt_destroy` of a pointer that may be null: the function to call is read through it. -/
def clntDestroyPtr : Option Client → Mh Unit
  | none => Act.throw .segv
  | some clnt => clntDestroy clnt

/-- The end of `hsx_fuse_mount` from `umnt_fail` on, with the clients in the superblock. -/
def umntFail (mntServer : ClntAddr) (dirname : Name) (clntp aclClntp : Option Client) :
    Mh (Option Addr) := do
  if let some clnt := aclClntp then
    clntDestroy clnt
  clntDestroyPtr clntp
  let _ ← hsiNfs3Unmount mntServer dirname
  pure none

/-- `umnt_fail` when both clients have been made. -/
def umntFailSb (mntServer : ClntAddr) (dirname : Name) : Mh (Option Addr) := do
  let clntp ← Act.inl sbClntp
  let aclClntp ← Act.inl sbAclClntp
  umntFail mntServer dirname (some clntp) aclClntp

/-- The part of `hsx_fuse_mount` after the clients have been made, with the reply of the mount
daemon. -/
def mountRoot (mntServer : ClntAddr) (dirname : Name) : Mountres3 → Mh (Option Addr)
  | .fail _ => pure none
  | .ok fhandle => do
      let ret ← Act.inl (hsiFillSuper fhandle)
      if ret ≠ 0 then
        umntFailSb mntServer dirname
      else
        match ← fuseMount with
        | none => umntFailSb mntServer dirname
        | some ch => pure (some ch)

/-- The part of `hsx_fuse_mount` after the retry loop. -/
def mountClients (mntServer : ClntAddr) (dirname : Name) (mntres : Mountres3) :
    Mh (Option Addr) := do
  match ← Act.inl (hsiNfs3ClntCreate false) with
  -- the client for access control lists is null as well, from the start
  | none => umntFail mntServer dirname none none
  | some clntp => do
      Act.modify fun d ↦ { d with sb := { d.sb with clntp := clntp } }
      let aclClntp ← Act.inl (hsiNfs3ClntCreate true)
      Act.modify fun d ↦ { d with sb := { d.sb with aclClntp := aclClntp } }
      mountRoot mntServer dirname mntres

/-- `hsi_parse_spec`: the name of the host and the directory. -/
def hsiParseSpec (devname : Name) : Option (Name × Name) :=
  if 58 ∈ devname then
    let host := devname.takeWhile (· ≠ 58)
    -- all but the first of several hosts are ignored
    some (host.takeWhile (· ≠ comma), devname.drop (host.length + 1))
  else
    none

/-- The size of `hostdir`. -/
def hostdirSize : Nat := 1024

/-- The size of `new_opts`. -/
def newOptsSize : Nat := 1024

/-- What `hsx_fuse_mount` is called with, and what it finds. -/
structure MountArgs where
  layout : Layout
  resolve : Resolver
  /-- Whether to stay in the foreground. -/
  fg : Bool
  spec : Name
  udata : Option Name
  /-- `super->flags`. -/
  flags : UInt32

/-- Store the settings in the superblock. -/
def MountData.storeIn (data : MountData) (sb : Super) : Super :=
  { sb with
    flags := data.flags
    rsize := data.rsize
    wsize := data.wsize
    acregmin := data.acregmin
    acdirmin := data.acdirmin
    bsize := data.bsize
    bsizeBits := data.bsizeBits }

/-- `hsx_fuse_mount`, with a number of rounds for the retry loop: the channel, which may be null. -/
def hsxFuseMount (m : MountArgs) (rounds : Nat) : Mh (Option Addr) :=
  if hostdirSize ≤ m.spec.length then
    pure none
  else
    match hsiParseSpec m.spec with
    | none => pure none
    | some (hostname, dirname) =>
        let (err, addr) := hsiGethostbyname m.resolve hostname ⟨0, 0, 0⟩
        if err ≠ 0 then
          pure none
        else
          let (ret, s) :=
            hsiNfs3ParseOptions m.resolve newOptsSize (m.udata.getD []) (.start m.flags addr)
          if ret ≠ 0 ∨ hsiNfsmntCheckCompat s.data.nfs.pmap s.data.mnt.pmap ≠ 0 then
            pure none
          else do
            let data := hsiValidateMountData s.data
            Act.modify fun d ↦ { d with sb := data.storeIn d.sb }
            let start ← time
            match ← mountLoop m.fg data.mnt dirname
              (start + intOfLong (60 * data.retry)) rounds with
            | none => pure none
            | some mntres => mountClients data.mnt dirname mntres

/-- The process when `hsx_fuse_mount` is called: the superblock is all zero up to the flags, and no
client has been opened.  Its clients are not read before they have been stored. -/
def MountArgs.start (m : MountArgs) : Daemon :=
  { Daemon.start m.layout ⟨m.flags, 0, 0, 0, 0, 0, 0, false⟩ with clients := ⟨0, [], []⟩ }

/-! ## Unmounting -/

/-- `hsx_fuse_unmount`, with `super->addr`. -/
def hsxFuseUnmount (spec : Name) (addr : SockaddrIn) : Mh Int :=
  match hsiParseSpec spec with
  | none => pure (-1)
  | some (_, dirname) => do
      let _ ← fuseUnmount
      let clntp ← Act.inl sbClntp
      clntDestroy clntp
      let d ← Act.get
      Act.inl (hsfsIput d.sb.root)
      hsiNfs3Unmount ⟨addr, umountPmap d.sb.flags⟩ dirname

end Hsfs.Mount
