import Hsfs.Nfs3.Object

/-!
# Reading directories

`READDIR` and `READDIRPLUS`.  Both turn the entries of a reply into a list of contexts
for the request layer; `READDIRPLUS` also gets the inode of each entry.
-/

namespace Hsfs

open Interact

/-- `struct hsfs_readdir_ctx`, with the part of `stbuf` that is set. -/
structure ReaddirCtx where
  off : UInt64
  name : Name
  stIno : UInt64
  inode : Addr
  deriving DecidableEq

/-- `__get_cookie_verf`. -/
def getCookieVerf (inode : Addr) : Hs UInt64 := do
  let i ← load inode
  pure i.cookieverf

/-- `__set_cookie_verf`. -/
def setCookieVerf (inode : Addr) (verf : UInt64) : Hs Unit :=
  update inode fun i ↦ { i with cookieverf := verf }

/-- `__alloc_copy_name`: memory for the context, then for the name, which is cut at 255
bytes. -/
def allocCopyName (name : Name) : Hs (Option Name) := do
  if ← malloc then
    if ← malloc then
      pure (some ((cString name).take 255))
    else
      pure none
  else
    pure none

/-! ## READDIR -/

/-- The loop of `hsi_nfs3_readdir`: the error, with the contexts made so far. -/
def readdirEntries : List Entry3 → List ReaddirCtx → Hs (Int × List ReaddirCtx)
  | [], ctx => pure (0, ctx)
  | entry :: entries, ctx => do
      match ← allocCopyName entry.name with
      | none => pure (Errno.nomem, [])
      | some name =>
          readdirEntries entries (ctx ++ [⟨entry.cookie, name, entry.fileid, Addr.null⟩])

/-- `hsi_nfs3_readdir`. -/
def hsiNfs3Readdir (parent : Addr) (count : UInt32) (cookie : UInt64) :
    Hs (Int × List ReaddirCtx) := do
  let clntp ← sbClntp
  let verf ← getCookieVerf parent
  let dir ← hsiNfs3Getfh3 parent
  match ← hsiNfs3ClntCall clntp (.readdir dir cookie verf count) with
  | .error err => pure (err, [])
  | .ok (.fail status) => do
      clntFreeres clntp
      pure (hsiNfs3StatToErrno status, [])
  | .ok (.ok resok) => do
      let err ← nfsRefreshInode parent (hsiNfs3Post2fattr resok.dirAttributes NfsFattr.fresh)
      if err ≠ 0 then
        clntFreeres clntp
        pure (err, [])
      else
        setCookieVerf parent resok.cookieverf
        let r ← readdirEntries resok.entries []
        clntFreeres clntp
        pure r

/-! ## READDIRPLUS -/

/-- `__free_ctx`: the inodes of the contexts are put. -/
def freeCtx : List ReaddirCtx → Hs Unit
  | [] => pure ()
  | ctx :: rest => do
      hsfsIput ctx.inode
      freeCtx rest

/-- The loop of `hsi_nfs3_readdir_plus`: the contexts, or an error with the contexts that
are to be freed. -/
def readdirPlusEntries : List Entryplus3 → List ReaddirCtx →
    Hs (Except (Int × List ReaddirCtx) (List ReaddirCtx))
  | [], ctx => pure (.ok ctx)
  | entry :: entries, ctx => do
      match ← allocCopyName entry.name with
      | none => pure (.error (Errno.nomem, ctx))
      | some name =>
          match entry.nameHandle with
          | none => pure (.error (Errno.noent, ctx))
          | some fh => do
              let new ← hsiNfsFhget fh (hsiNfs3Post2fattr entry.nameAttributes NfsFattr.fresh)
              if isErr new then
                let d ← Act.get
                pure (.error (intOfLong (d.layout.ptrErr new), ctx))
              else
                readdirPlusEntries entries (ctx ++ [⟨entry.cookie, name, entry.fileid, new⟩])

/-- `hsi_nfs3_readdir_plus`. -/
def hsiNfs3ReaddirPlus (parent : Addr) (count : UInt32) (cookie : UInt64) (maxcount : UInt32) :
    Hs (Int × List ReaddirCtx) := do
  let clntp ← sbClntp
  let verf ← getCookieVerf parent
  let dir ← hsiNfs3Getfh3 parent
  match ← hsiNfs3ClntCall clntp (.readdirplus dir cookie verf count maxcount) with
  | .error err => pure (err, [])
  | .ok (.fail status) => do
      clntFreeres clntp
      pure (hsiNfs3StatToErrno status, [])
  | .ok (.ok resok) => do
      let err ← nfsRefreshInode parent (hsiNfs3Post2fattr resok.dirAttributes NfsFattr.fresh)
      if err ≠ 0 then
        clntFreeres clntp
        pure (err, [])
      else
        setCookieVerf parent resok.cookieverf
        match ← readdirPlusEntries resok.entries [] with
        | .ok ctx => do
            clntFreeres clntp
            pure (0, ctx)
        | .error (err, ctx) => do
            freeCtx ctx
            clntFreeres clntp
            pure (err, [])

end Hsfs
