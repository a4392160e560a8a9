import Hsfs.Nfs3.Attr

/-!
# Reading and writing files

`READ` and `WRITE`.  Neither looks at the attributes that the reply may carry, so
neither touches the inode.
-/

namespace Hsfs

open Interact

/-- `hsi_nfs3_read`: what the reply carries, or the error. -/
def hsiNfs3Read (inode : Addr) (rwOff : UInt64) (rwSize : UInt32) :
    Hs (Except Int Read3resok) := do
  let clnt ← sbClntp
  let fh ← hsiNfs3Getfh3 inode
  match ← hsiNfs3ClntCall clnt (.read fh rwOff rwSize) with
  | .error err => pure (.error err)
  | .ok (.fail status) => do
      clntFreeres clnt
      pure (.error (hsiNfs3StatToErrno status))
  | .ok (.ok resok) => do
      clntFreeres clnt
      pure (.ok resok)

/-- `hsi_nfs3_write`: the count of the reply, or the error. -/
def hsiNfs3Write (inode : Addr) (rwOff : UInt64) (rwSize stable : UInt32) (data : List UInt8) :
    Hs (Except Int UInt32) := do
  let clnt ← sbClntp
  let fh ← hsiNfs3Getfh3 inode
  match ← hsiNfs3ClntCall clnt (.write fh rwOff rwSize stable data) with
  | .error err => pure (.error err)
  | .ok (.fail status) => do
      clntFreeres clnt
      pure (.error (hsiNfs3StatToErrno status))
  | .ok (.ok count) => do
      clntFreeres clnt
      pure (.ok count)

end Hsfs
