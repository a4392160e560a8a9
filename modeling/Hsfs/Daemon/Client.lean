import Hsfs.Daemon.State

/-!
# RPC clients

`hsi_nfs3_clnt_call` sends a request and retries: at once after `EAGAIN`, on a new
client after the connection was lost, five times at most.  The new client takes
the place of the old one in the superblock, and the old one is closed, while the
caller may still hold it.

Every use of a client goes through `useClient` or `hsiMntCloseclnt`, which note whether
the client was open.
-/

namespace Hsfs

open Interact

/-! ## Single calls -/

/-- Use a client. -/
def useClient (clnt : Client) : Hs Unit :=
  Act.modify fun d ↦ { d with clients := d.clients.use clnt }

/-- `clnt_call`. -/
def clntCall (clnt : Client) (req : Rpc) : Hs (RpcReply req.Res) := do
  useClient clnt
  Act.ask (Call.clntCall clnt req)

/-- `clnt_freeres`: frees a decoded reply, through the client it came from. -/
def clntFreeres (clnt : Client) : Hs Unit := useClient clnt

/-- `hsi_mnt_closeclnt`. -/
def hsiMntCloseclnt (clnt : Client) : Hs Unit :=
  Act.modify fun d ↦ { d with clients := d.clients.close clnt }

/-- Whether the RPC library can make a client. -/
def openclnt (acl : Bool) : Hs Bool := Act.ask (Call.openclnt acl)

/-- Whether the null procedure is answered. -/
def ping (clnt : Client) : Hs Bool := Act.ask (Call.ping clnt)

/-- `hsi_mnt_openclnt`. -/
def hsiMntOpenclnt (acl : Bool) : Hs (Option Client) := do
  if ← openclnt acl then
    let d ← Act.get
    Act.modify fun d ↦ { d with clients := d.clients.openNext }
    pure (some d.clients.opened)
  else
    pure none

/-! ## Reconnecting -/

/-- `hsi_nfs3_clnt_create`: open a client and try it out. -/
def hsiNfs3ClntCreate (acl : Bool) : Hs (Option Client) := do
  match ← hsiMntOpenclnt acl with
  | none => pure none
  | some clnt => do
      useClient clnt
      if ← ping clnt then
        pure (some clnt)
      else
        hsiMntCloseclnt clnt
        pure none

/-- `hsi_nfs3_clnt_reconnect`.  For a client that the superblock does not know, the
source goes on with a null address, and the process ends in
`hsi_nfs3_clnt_create`. -/
def hsiNfs3ClntReconnect (clnt : Client) : Hs (Option Client) := do
  let sb := (← Act.get).sb
  if clnt = sb.clntp then
    hsiMntCloseclnt clnt
    let new ← hsiNfs3ClntCreate false
    if let some clnt := new then
      Act.modify fun d ↦ { d with sb := { d.sb with clntp := clnt } }
    pure new
  else if sb.aclClntp = some clnt then
    hsiMntCloseclnt clnt
    let new ← hsiNfs3ClntCreate true
    if let some clnt := new then
      Act.modify fun d ↦ { d with sb := { d.sb with aclClntp := some clnt } }
    pure new
  else
    hsiMntCloseclnt clnt
    Act.throw .segv

/-- The retry loop of `hsi_nfs3_clnt_call`, with the number of retries that are
left. -/
def hsiNfs3ClntCallLoop (req : Rpc) : Nat → Client → Hs (Except Int req.Res)
  | left, clnt => do
      match ← clntCall clnt req with
      | .done res => pure (.ok res)
      | .failed reErrno =>
          let ret := hsiRpcStatToErrno reErrno
          match left with
          | 0 => pure (.error ret)
          | left + 1 =>
              if ret = Errno.again then
                hsiNfs3ClntCallLoop req left clnt
              else if ret = Errno.notconn ∨ ret = Errno.connreset then
                match ← hsiNfs3ClntReconnect clnt with
                | some clnt => hsiNfs3ClntCallLoop req left clnt
                | none => pure (.error ret)
              else
                pure (.error ret)

/-- `hsi_nfs3_clnt_call`: the reply, or a host error. -/
def hsiNfs3ClntCall (clnt : Client) (req : Rpc) : Hs (Except Int req.Res) :=
  hsiNfs3ClntCallLoop req 5 clnt

/-! ## The clients of the superblock -/

/-- `sb->clntp`: the client for NFS, as the superblock has it now. -/
def sbClntp : Hs Client := do
  let d ← Act.get
  pure d.sb.clntp

/-- `sb->acl_clntp`: the client for the ACL service, if there is one. -/
def sbAclClntp : Hs (Option Client) := do
  let d ← Act.get
  pure d.sb.aclClntp

/-- `hsi_nfs3_clnt_call` by an operation that does not keep the client. -/
def callSb (req : Rpc) : Hs (Except Int req.Res) := do
  hsiNfs3ClntCall (← sbClntp) req

/-- `clnt_freeres` by an operation that does not keep the client. -/
def freeresSb : Hs Unit := do
  clntFreeres (← sbClntp)

end Hsfs
