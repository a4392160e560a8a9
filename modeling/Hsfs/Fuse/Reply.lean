import Hsfs.Daemon.Cache

/-!
# Answering the kernel

The calls of `fuse_reply_*`, the lookup count of an inode, and `hsx_fuse_fill_reply`,
which makes an entry out of an inode.  A lookup count that is changed and an inode that
an entry is made of are noted in `Daemon.touched`.
-/

namespace Hsfs

open Interact

/-- One of the `fuse_reply_*` functions. -/
def fuseReply (r : Reply) : Hs Unit := Act.modify fun d ↦ { d with replies := d.replies ++ [r] }

/-- Note the use of an inode. -/
def touch (p : Addr) : Hs Unit := Act.modify fun d ↦ { d with touched := d.touched ++ [p] }

/-! ## Lookup counts -/

/-- `hsx_fuse_ref_xchg`: the count before. -/
def hsxFuseRefXchg (p : Addr) (val : UInt64) : Hs UInt64 := do
  touch p
  let inode ← load p
  update p fun inode ↦ { inode with priv := val }
  pure inode.priv

/-- `hsx_fuse_ref_inc`: the count after.  No caller looks at it. -/
def hsxFuseRefInc (p : Addr) (val : UInt64) : Hs UInt64 := do
  touch p
  let inode ← load p
  update p fun inode ↦ { inode with priv := inode.priv + val }
  pure (inode.priv + val)

/-- `hsx_fuse_ref_dec`: the count after. -/
def hsxFuseRefDec (p : Addr) (val : UInt64) : Hs UInt64 := do
  touch p
  let inode ← load p
  assertThat .refDec (val ≤ inode.priv)
  update p fun inode ↦ { inode with priv := inode.priv - val }
  pure (inode.priv - val)

/-! ## Entries -/

/-- The entry that `hsx_fuse_fill_reply` makes of an inode. -/
def Inode.entryParam (inode : Inode) (sb : Super) : EntryParam where
  ino := inode.ino
  generation := 0
  attr := hsfsGenericFillattr inode default
  attrTimeout := sb.acdirmin
  entryTimeout := sb.acregmin

/-- `hsx_fuse_fill_reply`. -/
def hsxFuseFillReply (p : Addr) : Hs EntryParam := do
  touch p
  let inode ← load p
  derefSb p
  let d ← Act.get
  pure (inode.entryParam d.sb)

/-- The size of an entry of a listing in the buffer: padded to eight bytes. -/
def direntSize (header : Nat) (name : Name) : Nat := (header + name.length + 7) / 8 * 8

/-- What `fuse_add_direntry` returns. -/
def fuseAddDirentry (name : Name) : Nat := direntSize 24 name

/-- What `fuse_add_direntry_plus` returns. -/
def fuseAddDirentryPlus (name : Name) : Nat := direntSize 152 name

/-! ## Uses of inodes and of error pointers -/

/-- The daemon after the use of an inode has been noted. -/
def Daemon.noted (d : Daemon) (p : Addr) : Daemon := { d with touched := d.touched ++ [p] }

section run

variable {d : Daemon} {p : Addr} {i : Inode}

theorem hsxFuseRefXchg_run (h : d.heap p = some i) (val : UInt64) :
    (hsxFuseRefXchg p val).run d =
      .ret (.ok i.priv, (d.noted p).setInode p { i with priv := val }) := by
  simp [hsxFuseRefXchg, touch, Daemon.noted, load, update, h]

theorem hsxFuseRefInc_run (h : d.heap p = some i) (val : UInt64) :
    (hsxFuseRefInc p val).run d =
      .ret (.ok (i.priv + val), (d.noted p).setInode p { i with priv := i.priv + val }) := by
  simp [hsxFuseRefInc, touch, Daemon.noted, load, update, h]

theorem hsxFuseRefDec_run (hi : d.heap p = some i) (val : UInt64) :
    (hsxFuseRefDec p val).run d =
      if val ≤ i.priv then
        .ret (.ok (i.priv - val), (d.noted p).setInode p { i with priv := i.priv - val })
      else .ret (.error (.abort .refDec), d.noted p) := by
  by_cases hle : val ≤ i.priv <;>
    simp [hsxFuseRefDec, touch, Daemon.noted, load, update, assertThat, hi, hle]

theorem hsxFuseFillReply_run (h : d.heap p = some i) :
    (hsxFuseFillReply p).run d = .ret (.ok (i.entryParam d.sb), d.noted p) := by
  simp [hsxFuseFillReply, touch, Daemon.noted, load, derefSb, h]

theorem hsxFuseRefXchg_bad (h : d.heap p = none) (hbad : d.layout.nearBad p = true) (val : UInt64) :
    (hsxFuseRefXchg p val).run d = .ret (.ok 0, d.noted p) := by
  simp [hsxFuseRefXchg, touch, Daemon.noted, load, update, h, hbad, Inode.zero]

theorem hsxFuseRefInc_bad (h : d.heap p = none) (hbad : d.layout.nearBad p = true) (val : UInt64) :
    (hsxFuseRefInc p val).run d = .ret (.ok (0 + val), d.noted p) := by
  simp [hsxFuseRefInc, touch, Daemon.noted, load, update, h, hbad, Inode.zero]

theorem hsxFuseFillReply_bad (h : d.heap p = none) (hbad : d.layout.nearBad p = true) :
    (hsxFuseFillReply p).run d = .ret (.error .segv, d.noted p) := by
  simp [hsxFuseFillReply, touch, Daemon.noted, load, derefSb, h, hbad]

/-- An entry is made of an inode and sent. -/
theorem entry_run (hi : d.heap p = some i) (rep : EntryParam → Reply) :
    (do
      let e ← hsxFuseFillReply p
      fuseReply (rep e) : Hs Unit).run d =
      .ret (.ok (), { d.noted p with replies := d.replies ++ [rep (i.entryParam d.sb)] }) := by
  rw [Act.run_bind_of_ret (hsxFuseFillReply_run hi)]
  rfl

/-- There is no entry for an error pointer. -/
theorem entry_bad_run (hnone : d.heap p = none) (hbad : d.layout.nearBad p = true)
    (rep : EntryParam → Reply) :
    (do
      let e ← hsxFuseFillReply p
      fuseReply (rep e) : Hs Unit).run d = .ret (.error .segv, d.noted p) := by
  rw [Act.run_bind, hsxFuseFillReply_bad hnone hbad]
  rfl

/-- A new inode is counted and sent. -/
theorem newEntry_run (hi : d.heap p = some i) (hzero : i.priv = 0) (rep : EntryParam → Reply) :
    ∃ e : EntryParam, e.ino = i.ino ∧ (do
      let ref ← hsxFuseRefXchg p 1
      assertThat .newRef (ref == 0)
      let e ← hsxFuseFillReply p
      fuseReply (rep e) : Hs Unit).run d =
      .ret (.ok (), { ((d.noted p).setInode p { i with priv := 1 }).noted p with
        replies := d.replies ++ [rep e] }) := by
  refine ⟨({ i with priv := 1 } : Inode).entryParam d.sb, rfl, ?_⟩
  rw [Act.run_bind_of_ret (hsxFuseRefXchg_run hi 1), hzero]
  exact entry_run (Daemon.setInode_heap_self _ _ _) rep

/-- An inode that has been counted before stops the process. -/
theorem newEntry_abort_run (hi : d.heap p = some i) (hne : i.priv ≠ 0) (rep : EntryParam → Reply) :
    (do
      let ref ← hsxFuseRefXchg p 1
      assertThat .newRef (ref == 0)
      let e ← hsxFuseFillReply p
      fuseReply (rep e) : Hs Unit).run d =
      .ret (.error (.abort .newRef), (d.noted p).setInode p { i with priv := 1 }) := by
  have hassert : assertThat .newRef (i.priv == 0) = Act.throw (.abort .newRef) := by
    simp [assertThat, hne]
  rw [Act.run_bind_of_ret (hsxFuseRefXchg_run hi 1), hassert]
  rfl

/-- An error pointer passes for new, and then there is no entry for it. -/
theorem newEntry_bad_run (hnone : d.heap p = none) (hbad : d.layout.nearBad p = true)
    (rep : EntryParam → Reply) :
    (do
      let ref ← hsxFuseRefXchg p 1
      assertThat .newRef (ref == 0)
      let e ← hsxFuseFillReply p
      fuseReply (rep e) : Hs Unit).run d = .ret (.error .segv, (d.noted p).noted p) := by
  rw [Act.run_bind_of_ret (hsxFuseRefXchg_bad hnone hbad 1)]
  exact entry_bad_run (d := d.noted p) hnone hbad rep

end run

end Hsfs
