import Hsfs.Daemon.State

/-!
# The inode cache

An inode is cached in two hash tables: by the number the kernel knows it by, and by
the file handle and number the server knows it by.  `hsi_nfs_fhget` is the way into
the cache: it returns the inode of an object, a new one if there is none yet, and
brings its attributes up to date.  There is no way out: `hsfs_iput` may free an
inode, but no function takes one out of the tables.
-/

namespace Hsfs

open Interact Table

/-! ## Hashing -/

/-- `hash_64`. -/
def hash64 (val bits : UInt64) : UInt64 := Id.run do
  let mut hash := val
  let mut n := hash
  n := n <<< 18
  hash := hash - n
  n := n <<< 33
  hash := hash - n
  n := n <<< 3
  hash := hash + n
  n := n <<< 3
  hash := hash - n
  n := n <<< 4
  hash := hash + n
  n := n <<< 2
  hash := hash + n
  return hash >>> (64 - bits)

/-- `hash_min` for a 64-bit key and a table of `hashSize` chains. -/
def hashMin (key : UInt64) : Fin hashSize := Fin.ofNat hashSize (hash64 key 10).toNat

/-- `hsfs_init_icache`. -/
def hsfsInitIcache : Hs Unit :=
  Act.modify fun d ↦ { d with sb := { d.sb with idTable := Chains.empty, fhTable := Chains.empty } }

/-! ## Finding inodes -/

/-- What a chain walk tests an address for.  It stops at an inode that has been
freed, where the process reads memory that is no longer its own. -/
def Daemon.stopsAt (d : Daemon) (test : Inode → Bool) (p : Addr) : Bool :=
  match d.heap p with
  | some inode => test inode
  | none => true

/-- `hash_for_each_possible` up to the first inode that passes the test. -/
def hashFind (t : Chains hashSize Addr) (key : UInt64) (test : Inode → Bool) :
    Hs (Option Addr) := do
  let d ← Act.get
  match t.find (hashMin key) (d.stopsAt test) with
  | none => pure none
  | some p => do
      if (d.heap p).isNone then Act.throw .segv
      pure (some p)

/-- `__id_ifind`. -/
def idIfind (key : UInt64) : Hs (Option Addr) := do
  let d ← Act.get
  hashFind d.sb.idTable key fun inode ↦ inode.ino == key

/-- `__fh_ifind`. -/
def fhIfind (key : UInt64) (test : Inode → Bool) : Hs (Option Addr) := do
  let d ← Act.get
  hashFind d.sb.fhTable key test

/-- `hsfs_ilookup`. -/
def hsfsIlookup (ino : UInt64) : Hs (Option Addr) := idIfind ino

/-- The address that `hsfs_ilookup` finds under a number, without the access to it. -/
def Daemon.ilookup (d : Daemon) (ino : UInt64) : Option Addr :=
  d.sb.idTable.find (hashMin ino) (d.stopsAt fun inode ↦ inode.ino == ino)

/-- A chain walk changes nothing, and ends in a fault only at an inode that has been freed. -/
theorem hashFind_cases (d : Daemon) (t : Chains hashSize Addr) (key : UInt64)
    (test : Inode → Bool) :
    (t.find (hashMin key) (d.stopsAt test) = none ∧ (hashFind t key test).run d = .ret
      (.ok none, d)) ∨
      (∃ p i, t.find (hashMin key) (d.stopsAt test) = some p ∧ d.heap p = some i ∧
        (hashFind t key test).run d = .ret (.ok (some p), d)) ∨
      ∃ p, t.find (hashMin key) (d.stopsAt test) = some p ∧ d.heap p = none ∧
        (hashFind t key test).run d = .ret (.error .segv, d) := by
  unfold hashFind
  simp only [Act.run_bind, Act.run_get, Prog.bind_ret, Act.cont_ok]
  cases t.find (hashMin key) (d.stopsAt test) with
  | none => exact .inl ⟨rfl, rfl⟩
  | some p =>
      cases hp : d.heap p with
      | none => exact .inr (.inr ⟨p, rfl, hp, by simp [hp]⟩)
      | some i => exact .inr (.inl ⟨p, i, rfl, hp, by simp [hp]⟩)

/-- `hsfs_ilookup` changes nothing, and ends in a fault only at an inode that has been
freed. -/
theorem Daemon.hsfsIlookup_cases (d : Daemon) (ino : UInt64) :
    (d.ilookup ino = none ∧ (hsfsIlookup ino).run d = .ret (.ok none, d)) ∨
      (∃ p i, d.ilookup ino = some p ∧ d.heap p = some i ∧
        (hsfsIlookup ino).run d = .ret (.ok (some p), d)) ∨
      ∃ p, d.ilookup ino = some p ∧ d.heap p = none ∧
        (hsfsIlookup ino).run d = .ret (.error .segv, d) :=
  hashFind_cases d d.sb.idTable ino fun inode ↦ inode.ino == ino

/-- `hsfs_ilookup` of an inode that has not been freed. -/
theorem hsfsIlookup_run {d : Daemon} {ino : UInt64} {p : Addr} {i : Inode}
    (hp : d.ilookup ino = some p) (hi : d.heap p = some i) :
    (hsfsIlookup ino).run d = .ret (.ok (some p), d) := by
  rcases d.hsfsIlookup_cases ino with ⟨hl, -⟩ | ⟨q, j, hl, -, hrun⟩ | ⟨q, hl, hq, -⟩
  · rw [hp] at hl
    exact nomatch hl
  · rw [hp] at hl
    rw [hrun, hl]
  · rw [hp] at hl
    rw [← Option.some.inj hl, hi] at hq
    exact nomatch hq

/-- The inode that is found under a number is cached, and has that number. -/
theorem Daemon.ino_of_ilookup {d : Daemon} {n : UInt64} {p : Addr} {i : Inode}
    (hp : d.ilookup n = some p) (hi : d.heap p = some i) : p ∈ d.sb.idTable ∧ i.ino = n := by
  obtain ⟨hmem, hstop⟩ := Chains.find_eq_some hp
  rw [stopsAt, hi] at hstop
  exact ⟨hmem, beq_iff_eq.1 hstop⟩

/-! ## New inodes -/

/-- `struct nfs_find_desc`: the object that is wanted. -/
structure NfsFindDesc where
  fh : NfsFh
  fattr : NfsFattr

/-- `malloc` of an inode for an object. -/
def mallocInode (desc : NfsFindDesc) : Hs (Option Addr) := do
  let d ← Act.get
  let p : Option (FreeAddr d.inUse) ←
    Act.ask (Call.mallocInode desc.fattr.fileid desc.fh d.inUse)
  pure (p.map Subtype.val)

/-- `nfs_alloc_inode`. -/
def nfsAllocInode (desc : NfsFindDesc) : Hs (Option Addr) := do
  match ← mallocInode desc with
  | none => pure none
  | some p => do
      Act.modify (·.setInode p Inode.zero)
      pure (some p)

/-- `inode_init_always`. -/
def inodeInitAlways (sb : Super) (inode : Inode) : Inode :=
  { inode with
    generation := 0
    priv := 0
    ino := 0
    iBlocks := 0
    iNlink := 1
    iBlkbits := sb.bsizeBits.toUInt32 }

/-- `alloc_inode`. -/
def allocInode (desc : NfsFindDesc) : Hs (Option Addr) := do
  match ← nfsAllocInode desc with
  | none => pure none
  | some p => do
      let d ← Act.get
      update p (inodeInitAlways d.sb)
      pure (some p)

/-- The number after `id`: zero is skipped, and one with it. -/
def nextId (id : UInt64) : UInt64 := if id + 1 = 0 then 2 else id + 1

/-- The loop of `__inode_add_to_lists`: take the next number until it is free. -/
def idLoop : Nat → Hs Unit
  | 0 => Act.throw .running
  | rounds + 1 => do
      Act.modify fun d ↦ { d with sb := { d.sb with currId := nextId d.sb.currId } }
      let d ← Act.get
      match ← idIfind d.sb.currId with
      | some _ => idLoop rounds
      | none => pure ()

/-- As many rounds as there are numbers. -/
def idRounds : Nat := 2 ^ 64

/-- `__inode_add_to_lists`. -/
def inodeAddToLists (key : UInt64) (p : Addr) : Hs Unit := do
  idLoop idRounds
  let d ← Act.get
  update p fun inode ↦ { inode with ino := d.sb.currId }
  Act.modify fun d ↦ { d with sb := { d.sb with
    idTable := d.sb.idTable.add (hashMin d.sb.currId) p
    fhTable := d.sb.fhTable.add (hashMin key) p } }

/-- `I_NEW`. -/
def iNew : UInt32 := 8

/-- `get_new_inode`, for a `set` that does not fail. -/
def getNewInode (key : UInt64) (set : Inode → Inode) (desc : NfsFindDesc) : Hs (Option Addr) := do
  match ← allocInode desc with
  | none => pure none
  | some p => do
      update p set
      inodeAddToLists key p
      update p fun inode ↦ { inode with iState := iNew }
      pure (some p)

/-- `hsfs_iget5_locked`. -/
def hsfsIget5Locked (hashval : UInt64) (test : Inode → Bool) (set : Inode → Inode)
    (desc : NfsFindDesc) : Hs (Option Addr) := do
  match ← fhIfind hashval test with
  | some p => pure (some p)
  | none => getNewInode hashval set desc

/-! ## Attributes of cached inodes -/

/-- The attributes are of the same object, as far as the inode can tell: of the same
file number and type. -/
def Inode.accepts (inode : Inode) (fattr : NfsFattr) : Bool :=
  inode.fileid == fattr.fileid && inode.iattr.mode &&& sIfmt == fattr.mode &&& sIfmt

/-- The fields that both a new and a known inode take from attributes. -/
def Inode.setAttrs (inode : Inode) (fattr : NfsFattr) : Inode :=
  { inode with
    iattr := { inode.iattr with
      mode := fattr.mode
      uid := fattr.uid
      gid := fattr.gid
      size := nfsSizeToOffT fattr.size
      atime := fattr.atime
      mtime := fattr.mtime
      ctime := fattr.ctime }
    iNlink := fattr.nlink
    iBlocks := fattr.blocks }

/-- `nfs_update_inode`. -/
def nfsUpdateInode (p : Addr) (fattr : NfsFattr) : Hs Int := do
  let inode ← load p
  if inode.accepts fattr then
    update p (·.setAttrs fattr)
    pure 0
  else
    pure (-Errno.stale)

/-- `nfs_refresh_inode`. -/
def nfsRefreshInode (p : Addr) (fattr : NfsFattr) : Hs Int :=
  if fattr.isValid then nfsUpdateInode p fattr else pure 0

theorem nfsRefreshInode_run {d : Daemon} {p : Addr} {i : Inode} (hi : d.heap p = some i)
    (fattr : NfsFattr) :
    (nfsRefreshInode p fattr).run d =
      if fattr.isValid then
        if i.accepts fattr then .ret (.ok 0, d.setInode p (i.setAttrs fattr))
        else .ret (.ok (-Errno.stale), d)
      else .ret (.ok 0, d) := by
  cases hv : fattr.isValid with
  | false => simp [nfsRefreshInode, hv]
  | true =>
      cases ha : i.accepts fattr <;>
        simp [nfsRefreshInode, hv, nfsUpdateInode, load, update, hi, ha]

/-- Whatever is read through an error pointer, nothing is written. -/
theorem nfsRefreshInode_run_none {d : Daemon} {p : Addr} (hp : d.heap p = none) (fattr : NfsFattr) :
    (∃ ret, (nfsRefreshInode p fattr).run d = .ret (.ok ret, d)) ∨
      (nfsRefreshInode p fattr).run d = .ret (.error .segv, d) := by
  unfold nfsRefreshInode
  split
  · unfold nfsUpdateInode
    by_cases hbad : d.layout.nearBad p = true
    · have hload : (load p).run d = .ret (.ok Inode.zero, d) := by simp [load, hp, hbad]
      have hupdate : (update p (·.setAttrs fattr)).run d = .ret (.ok (), d) := by
        simp [update, hp, hbad]
      rw [Act.run_bind_of_ret hload]
      split
      · exact .inl ⟨0, Act.run_bind_of_ret hupdate _⟩
      · exact .inl ⟨-Errno.stale, rfl⟩
    · have hload : (load p).run d = .ret (.error .segv, d) := by simp [load, hp, hbad]
      exact .inr (by rw [Act.run_bind, hload]; rfl)
  · exact .inl ⟨0, rfl⟩

/-- `hsfs_generic_fillattr`.  It leaves `st_dev` as it finds it. -/
def hsfsGenericFillattr (inode : Inode) (stat : Stat) : Stat :=
  { stat with
    stIno := inode.realIno
    stMode := inode.iattr.mode
    stNlink := inode.iNlink.toUInt64
    stUid := inode.iattr.uid
    stGid := inode.iattr.gid
    stRdev := inode.iRdev
    stAtim := inode.iattr.atime
    stMtim := inode.iattr.mtime
    stCtim := inode.iattr.ctime
    stSize := inode.iattr.size
    stBlocks := inode.iBlocks.toNat
    stBlksize := 2 ^ inode.iBlkbits.toNat }

/-! ## Getting the inode of an object -/

/-- `NFS_INO_STALE`, which nothing sets. -/
def nfsInoStale : UInt64 := 2

/-- `nfs_find_actor`. -/
def nfsFindActor (desc : NfsFindDesc) (inode : Inode) : Bool :=
  inode.fileid == desc.fattr.fileid && inode.fh == desc.fh &&
    !(inode.ino == 0 || inode.flags &&& nfsInoStale != 0)

/-- `set_nfs_fileid`. -/
def setNfsFileid (fileid : UInt64) (inode : Inode) : Inode :=
  { inode with fileid := fileid, realIno := fileid }

/-- `nfs_init_locked`. -/
def nfsInitLocked (desc : NfsFindDesc) (inode : Inode) : Inode :=
  { setNfsFileid desc.fattr.fileid inode with fh := desc.fh }

/-- `hsi_nfs_fhget`. -/
def hsiNfsFhget (fh : NfsFh) (fattr : NfsFattr) : Hs Addr := do
  if !fattr.isValid then
    errPtr (-Errno.noent)
  else if fattr.nlink = 0 then
    errPtr (-Errno.noent)
  else
    let desc : NfsFindDesc := ⟨fh, fattr⟩
    match ← hsfsIget5Locked fattr.fileid (nfsFindActor desc) (nfsInitLocked desc) desc with
    | none => errPtr (-Errno.nomem)
    | some p => do
        let inode ← load p
        if hasBits inode.iState iNew then
          update p fun inode ↦ (setNfsFileid fattr.fileid inode).setAttrs fattr
          -- hsfs_unlock_new_inode
          update p fun inode ↦ { inode with iState := inode.iState &&& ~~~iNew }
        else
          let _ ← nfsRefreshInode p fattr
        pure p

/-! ## Dropping inodes -/

/-- `iput_final` with `generic_drop_inode`: an inode that still has links is freed, one
without is kept.  Neither is taken out of the tables. -/
def iputFinal (p : Addr) : Hs Unit := do
  let inode ← load p
  if inode.iNlink ≠ 0 then Act.modify (·.free p)

/-- `hsfs_iput`. -/
def hsfsIput (p : Addr) : Hs Unit := do
  if p ≠ Addr.null then
    let inode ← load p
    let count := inode.iCount - 1
    update p fun inode ↦ { inode with iCount := count }
    if count = 0 then iputFinal p

/-- The daemon after an inode has been put. -/
def Daemon.afterIput (d : Daemon) (p : Addr) (inode : Inode) : Daemon :=
  if inode.iCount - 1 = 0 ∧ inode.iNlink ≠ 0 then d.free p
  else d.setInode p { inode with iCount := inode.iCount - 1 }

/-- `hsfs_iput` of an inode that has not been freed. -/
theorem hsfsIput_run {d : Daemon} {p : Addr} {i : Inode} (hp : p ≠ Addr.null)
    (hi : d.heap p = some i) : (hsfsIput p).run d = .ret (.ok (), d.afterIput p i) := by
  have hfinal : (iputFinal p).run (d.setInode p { i with iCount := i.iCount - 1 }) =
      .ret (.ok (), if i.iNlink ≠ 0 then d.free p
        else d.setInode p { i with iCount := i.iCount - 1 }) := by
    unfold iputFinal
    rw [Act.run_bind_of_ret (load_run (d.setInode_heap_self p _))]
    by_cases hlink : i.iNlink = 0
    · simp [hlink]
    · simp [hlink, Daemon.free, Daemon.setInode]
  unfold hsfsIput Daemon.afterIput
  rw [if_pos hp, Act.run_bind_of_ret (load_run hi), Act.run_bind_of_ret (update_run hi _)]
  by_cases hcount : i.iCount - 1 = 0
  · rw [if_pos hcount, hfinal]
    simp [hcount]
  · rw [if_neg hcount, if_neg fun h ↦ hcount h.1]
    rfl

end Hsfs
