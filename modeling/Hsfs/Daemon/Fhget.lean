import Hsfs.Daemon.CacheInv

/-!
# What `hsi_nfs_fhget` does

On a cache that satisfies its invariant, `hsi_nfs_fhget` is one of three programs
(`CacheOk.hsiNfsFhget_cases`): it returns an error pointer at once; it returns the
inode of the object, refreshed; or it asks for memory, and enters a new inode if it
gets some.  Everything that is proved about the cache is proved from these three.
-/

namespace Hsfs

open Interact Table

/-! ## Refreshing -/

theorem Inode.setAttrs_sameId (i : Inode) (fattr : NfsFattr) : i.SameId (i.setAttrs fattr) :=
  ⟨rfl, rfl, rfl, rfl, rfl⟩

/-! ## Error pointers -/

/-- An error the client encodes lies in the reach of `bad_hsfs_inode`, where no inode
is. -/
theorem errPtr_run (d : Daemon) (error : Int) (hlo : -184 < error) (hhi : error < 184) :
    ∃ e, (errPtr error).run d = .ret (.ok e, d) ∧ d.layout.nearBad e = true ∧ isErr e = false ∧
      e ≠ Addr.null := by
  obtain ⟨e, he, hval⟩ := d.layout.errPtr_eq hlo hhi
  have hlow := d.layout.low
  refine ⟨e, by simp [errPtr, he], ?_, d.layout.isErr_errPtr hlo hhi he, ?_⟩
  · simp only [Layout.nearBad, sizeofHsfsInode, Bool.and_eq_true]
    exact ⟨decide_eq_true (by omega), decide_eq_true (by omega)⟩
  · rintro rfl
    simp only [Addr.null, UInt64.toNat_zero] at hval
    omega

/-! ## New inodes -/

/-- What `hsi_nfs_fhget` makes of a new piece of memory. -/
def newInode (sb : Super) (desc : NfsFindDesc) (ino : UInt64) : Inode :=
  let inode := nfsInitLocked desc (inodeInitAlways sb Inode.zero)
  (setNfsFileid desc.fattr.fileid { inode with ino := ino }).setAttrs desc.fattr

/-- The memory of a new inode while a number for it is searched. -/
def initInode (sb : Super) (desc : NfsFindDesc) : Inode :=
  nfsInitLocked desc (inodeInitAlways sb Inode.zero)

/-- A new inode as `hsfs_iget5_locked` returns it: entered in the tables, and still to
be filled in. -/
def lockedInode (sb : Super) (desc : NfsFindDesc) (ino : UInt64) : Inode :=
  { nfsInitLocked desc (inodeInitAlways sb Inode.zero) with ino := ino, iState := iNew }

theorem newInode_ready {sb : Super} {desc : NfsFindDesc} {ino : UInt64} (h : ino ≠ 0) :
    (newInode sb desc ino).Ready :=
  ⟨h, (by decide : (0 : UInt64) &&& nfsInoStale = 0), (by decide : hasBits 0 iNew = false)⟩

namespace Daemon

variable {d : Daemon}

/-- Memory that is not in any table can be written without harm. -/
theorem CacheOk.setInode_of_notMem (h : d.CacheOk) {p : Addr} (hp : p ∉ d.sb.idTable)
    (hplace : Allocatable d.layout p) (i : Inode) : (d.setInode p i).CacheOk := by
  have hne : ∀ q ∈ d.sb.idTable, q ≠ p := fun q hq hqp ↦ hp (hqp ▸ hq)
  have hheap : ∀ q ∈ d.sb.idTable, (d.setInode p i).heap q = d.heap q :=
    fun q hq ↦ d.setInode_heap_of_ne (hne q hq) i
  have hino : ∀ q ∈ d.sb.idTable, d.inoOf q = (d.setInode p i).inoOf q :=
    fun q hq ↦ by simp [inoOf, hheap q hq]
  refine ⟨⟨?_, ?_, ?_, ?_⟩, h.same, ?_, ?_, ?_⟩
  · exact fun q hq ↦ by simpa [hheap q hq] using h.live q hq
  · intro q j hj
    by_cases hqp : q = p
    · exact hqp ▸ hplace
    · rw [d.setInode_heap_of_ne hqp] at hj
      exact h.place q j hj
  · exact h.placed.congr fun q hq ↦ congrArg hashMin (hino q hq)
  · intro q hq r hr heq
    rw [← hino q hq, ← hino r hr] at heq
    exact h.inj q hq r hr heq
  · refine h.fhPlaced.congr fun q hq ↦ congrArg hashMin ?_
    simp [fileidOf, hheap q ((h.same q).1 hq)]
  · intro q hq j hj
    rw [hheap q hq] at hj
    exact h.ready q hq j hj
  · intro q hq r hr j k hj hk
    rw [hheap q hq] at hj
    rw [hheap r hr] at hk
    exact h.keyInj q hq r hr j k hj hk

theorem CacheOk.notMem_of_heap (h : d.CacheOk) {p : Addr} (hp : d.heap p = none) :
    p ∉ d.sb.idTable := by
  intro hm
  obtain ⟨i, hi⟩ := h.live p hm
  rw [hp] at hi
  exact nomatch hi

/-- The facts about a number that the search for one comes back with. -/
structure FreshId (d : Daemon) (id : UInt64) : Prop where
  notNumbered : ¬ d.Numbered id
  ne_zero : id ≠ 0
  currId : id = 1 → d.sb.currId = 0
  first : d.sb.currId = 0 → ¬ d.Numbered 1 → id = 1

/-- The addresses the allocator may return are those it may have put an inode at, and
are not in use. -/
theorem heap_freeAddr (a : FreeAddr d.inUse) :
    d.heap a.1 = none ∧ Allocatable d.layout a.1 := by
  obtain ⟨a, h0, hroom, hfree⟩ := a
  simp only [inUse, Bool.or_eq_false_iff, Option.isSome_eq_false_iff, Option.isNone_iff_eq_none]
    at hfree
  exact ⟨hfree.1, h0, hroom, hfree.2⟩

/-- A new piece of memory is zeroed and initialised before anything else. -/
theorem allocInode_run (desc : NfsFindDesc) :
    (allocInode desc).run d = .call (Call.mallocInode desc.fattr.fileid desc.fh d.inUse)
      fun r : Option (FreeAddr d.inUse) ↦ match r with
        | none => .ret (.ok none, d)
        | some a => .ret (.ok (some a.1), d.setInode a.1 (inodeInitAlways d.sb Inode.zero)) := by
  refine congrArg (Prog.call _) (funext fun r : Option (FreeAddr d.inUse) ↦ ?_)
  match r with
  | none => rfl
  | some a =>
      have hup := update_run (d.setInode_heap_self a.1 Inode.zero) (inodeInitAlways d.sb)
      rw [setInode_setInode] at hup
      change ((update a.1 (inodeInitAlways d.sb)).run (d.setInode a.1 Inode.zero)).bind
        (Act.cont fun _ ↦ pure (some a.1)) = _
      rw [hup]
      rfl

/-- The entry into the tables, after the search for a number. -/
theorem inodeAddToLists_run {p : Addr} {i : Inode} {id : UInt64} (hi : d.heap p = some i)
    (hloop : (idLoop idRounds).run d = .ret (.ok (), d.setCurrId id)) :
    (inodeAddToLists i.fileid p).run d = .ret (.ok (), d.insert p { i with ino := id }) := by
  have hi' : (d.setCurrId id).heap p = some i := hi
  rw [inodeAddToLists, Act.run_bind_of_ret hloop, Act.run_bind_of_ret Act.run_get,
    Act.run_bind_of_ret (update_run hi' _)]
  rfl

/-- Setting up a new piece of memory and entering it, as far as the search for a number gets. -/
theorem getNewInode_run (d : Daemon) (desc : NfsFindDesc) :
    ∃ k : Option (FreeAddr d.inUse) → Prog Call Call.Res (Except Fault (Option Addr) × Daemon),
      (getNewInode desc.fattr.fileid (nfsInitLocked desc) desc).run d =
        .call (Call.mallocInode desc.fattr.fileid desc.fh d.inUse) k ∧
      k none = .ret (.ok none, d) ∧
      ∀ (a : FreeAddr d.inUse) (d₁ : Daemon) (out : Except Fault Unit) (id : UInt64),
        d₁ = d.setInode a.1 (initInode d.sb desc) →
        (idLoop idRounds).run d₁ = .ret (out, d₁.setCurrId id) →
        k (some a) = .ret (match out with
          | .ok () => (.ok (some a.1), d.insert a.1 (lockedInode d.sb desc id))
          | .error e => (.error e, d₁.setCurrId id)) := by
  rw [getNewInode, Act.run_bind, allocInode_run]
  refine ⟨_, rfl, rfl, fun a d₁ out id hd₁ hloop ↦ ?_⟩
  have hi₁ : d₁.heap a.1 = some (initInode d.sb desc) := by
    rw [hd₁, d.setInode_heap_self]
  have hup : (update a.1 (nfsInitLocked desc)).run
      (d.setInode a.1 (inodeInitAlways d.sb Inode.zero)) = .ret (.ok (), d₁) := by
    rw [update_run (d.setInode_heap_self a.1 _), setInode_setInode, hd₁]
    rfl
  change ((update a.1 (nfsInitLocked desc) >>= fun _ ↦ _ : Hs (Option Addr)).run
    (d.setInode a.1 (inodeInitAlways d.sb Inode.zero))) = _
  rw [Act.run_bind_of_ret hup]
  change ((inodeAddToLists (initInode d.sb desc).fileid a.1 >>= fun _ ↦ _ : Hs (Option Addr)).run
    d₁) = _
  match out with
  | .ok () =>
      have hlast : (update a.1 fun i ↦ { i with iState := iNew }).run
          (d₁.insert a.1 { initInode d.sb desc with ino := id }) =
          .ret (.ok (), d.insert a.1 (lockedInode d.sb desc id)) := by
        rw [update_run insert_heap_self, hd₁]
        simp [Daemon.insert, Daemon.setInode, lockedInode, initInode, nfsInitLocked, setNfsFileid]
      rw [Act.run_bind_of_ret (inodeAddToLists_run hi₁ hloop), Act.run_bind_of_ret hlast]
      rfl
  | .error e =>
      rw [Act.run_bind, inodeAddToLists, Act.run_bind, hloop]
      rfl

/-! ## Finding the inode of an object -/

/-- The address that `__fh_ifind` finds for an object, without the access to it. -/
def fhLookup (d : Daemon) (desc : NfsFindDesc) : Option Addr :=
  d.sb.fhTable.find (hashMin desc.fattr.fileid) (d.stopsAt (nfsFindActor desc))

/-- What is found is an inode of the object. -/
theorem key_of_fhLookup {desc : NfsFindDesc} {p : Addr} {i : Inode}
    (hp : d.fhLookup desc = some p) (hi : d.heap p = some i) :
    p ∈ d.sb.fhTable ∧ i.fileid = desc.fattr.fileid ∧ i.fh = desc.fh := by
  obtain ⟨hmem, hstop⟩ := Chains.find_eq_some hp
  rw [stopsAt, hi] at hstop
  obtain ⟨hkey, -⟩ := Bool.and_eq_true_iff.1 hstop
  obtain ⟨hfileid, hfh⟩ := Bool.and_eq_true_iff.1 hkey
  exact ⟨hmem, eq_of_beq hfileid, eq_of_beq hfh⟩

/-- On an inode that is set up, the test for an object compares the object only. -/
theorem nfsFindActor_eq_true {desc : NfsFindDesc} {i : Inode} (h : i.Ready) :
    nfsFindActor desc i = true ↔ i.fileid = desc.fattr.fileid ∧ i.fh = desc.fh := by
  have hino : (i.ino == 0) = false := beq_eq_false_iff_ne.2 h.numbered
  have hflags : (i.flags &&& nfsInoStale != 0) = false := by
    rw [h.notStale]
    rfl
  simp [nfsFindActor, hino, hflags, Subtype.ext_iff]

/-- **An object is found exactly if its inode is cached.** -/
theorem CacheOk.fhLookup_cases (h : d.CacheOk) (desc : NfsFindDesc) :
    (∃ p, d.fhLookup desc = some p ∧ d.Holds p desc.fattr.fileid desc.fh) ∨
      (d.fhLookup desc = none ∧ ∀ p, ¬ d.Holds p desc.fattr.fileid desc.fh) := by
  have htest : ∀ p ∈ d.sb.fhTable,
      d.stopsAt (nfsFindActor desc) p = true ↔ d.Holds p desc.fattr.fileid desc.fh := by
    intro p hp
    have hpid := (h.same p).1 hp
    obtain ⟨i, hi⟩ := h.live p hpid
    rw [stopsAt, hi]
    refine (nfsFindActor_eq_true (h.ready p hpid i hi)).trans ⟨fun hk ↦ ⟨hpid, i, hi, hk⟩, ?_⟩
    rintro ⟨-, j, hj, hk⟩
    rw [hi] at hj
    exact Option.some.inj hj ▸ hk
  have hbucket : ∀ p ∈ d.sb.fhTable, d.stopsAt (nfsFindActor desc) p = true →
      hashMin (d.fileidOf p) = hashMin desc.fattr.fileid := by
    intro p hp hs
    obtain ⟨-, i, hi, hfileid, -⟩ := (htest p hp).1 hs
    rw [fileidOf_eq hi, hfileid]
  cases hf : d.fhLookup desc with
  | none =>
      refine .inr ⟨rfl, fun p hp ↦ ?_⟩
      have hm := (h.same p).2 hp.1
      have hn := (h.fhPlaced.find_eq_none_iff hbucket).1 hf p hm
      rw [(htest p hm).2 hp] at hn
      exact Bool.noConfusion hn
  | some p =>
      obtain ⟨hp, hs⟩ := Chains.find_eq_some hf
      exact .inl ⟨p, rfl, (htest p hp).1 hs⟩

end Daemon

/-! ## The specification -/

/-- Attributes that `hsi_nfs_fhget` does not refuse. -/
def NfsFattr.Usable (fattr : NfsFattr) : Prop := fattr.isValid = true ∧ fattr.nlink ≠ 0

instance (fattr : NfsFattr) : Decidable fattr.Usable := inferInstanceAs (Decidable (_ ∧ _))

/-- An error pointer as a result of `hsi_nfs_fhget`. -/
structure Daemon.BadPtr (d : Daemon) (e : Addr) : Prop where
  nearBad : d.layout.nearBad e = true
  notErr : isErr e = false
  ne_null : e ≠ Addr.null

/-- An inode after attributes for it came in. -/
def Inode.refreshed (i : Inode) (fattr : NfsFattr) : Inode :=
  if i.accepts fattr then i.setAttrs fattr else i

/-- A refresh with valid attributes, whatever it returns. -/
theorem nfsRefreshInode_refreshed {d : Daemon} {p : Addr} {i : Inode} {fattr : NfsFattr}
    (hi : d.heap p = some i) (hv : fattr.isValid = true) :
    ∃ ret, (nfsRefreshInode p fattr).run d = .ret (.ok ret, d.setInode p (i.refreshed fattr)) := by
  rw [nfsRefreshInode_run hi, if_pos hv, Inode.refreshed]
  split
  · exact ⟨0, rfl⟩
  · rw [Daemon.setInode_eq_self hi]
    exact ⟨_, rfl⟩

theorem Inode.refreshed_sameId (i : Inode) (fattr : NfsFattr) : i.SameId (i.refreshed fattr) := by
  unfold Inode.refreshed
  split
  · exact i.setAttrs_sameId fattr
  · exact ⟨rfl, rfl, rfl, rfl, rfl⟩

namespace Daemon

variable {d : Daemon}

/-- Filling in an inode that has just been entered. -/
theorem hsiNfsFhget_finish (desc : NfsFindDesc) (id : UInt64) (p : Addr) :
    (update p fun i ↦ { i with iState := i.iState &&& ~~~iNew }).run
        ((d.insert p (lockedInode d.sb desc id)).setInode p
          ((setNfsFileid desc.fattr.fileid (lockedInode d.sb desc id)).setAttrs desc.fattr)) =
      .ret (.ok (), d.insert p (newInode d.sb desc id)) := by
  rw [update_run (setInode_heap_self _ _ _), setInode_setInode]
  simp [insert, Daemon.setInode, lockedInode, newInode, nfsInitLocked, setNfsFileid,
    Inode.setAttrs, inodeInitAlways, Inode.zero]

/-- A new piece of memory for an object that is not found. -/
theorem hsiNfsFhget_new {fh : NfsFh} {fattr : NfsFattr} (hu : fattr.Usable)
    (hfind : (fhIfind fattr.fileid (nfsFindActor ⟨fh, fattr⟩)).run d = .ret (.ok none, d)) :
    ∃ k : Option (FreeAddr d.inUse) → Prog Call Call.Res (Except Fault Addr × Daemon),
      (hsiNfsFhget fh fattr).run d = .call (Call.mallocInode fattr.fileid fh d.inUse) k ∧
      (∃ e, d.BadPtr e ∧ k none = .ret (.ok e, d)) ∧
      ∀ (a : FreeAddr d.inUse) (d₁ : Daemon) (out : Except Fault Unit) (id : UInt64),
        d₁ = d.setInode a.1 (initInode d.sb ⟨fh, fattr⟩) →
        (idLoop idRounds).run d₁ = .ret (out, d₁.setCurrId id) →
        k (some a) = .ret (match out with
          | .ok () => (.ok a.1, d.insert a.1 (newInode d.sb ⟨fh, fattr⟩ id))
          | .error e => (.error e, d₁.setCurrId id)) := by
  obtain ⟨k, hget, hk0, hk⟩ := d.getNewInode_run ⟨fh, fattr⟩
  simp only [hsiNfsFhget, hu.1, hu.2, hsfsIget5Locked, hfind, Act.run_bind, Prog.bind_ret,
    Act.cont_ok, Bool.not_true, Bool.false_eq_true, if_false, hget]
  refine ⟨_, rfl, ?_, fun a d₁ out id hd₁ hloop ↦ ?_⟩
  · obtain ⟨e, he, hbad, herr, hnull⟩ := errPtr_run d (-Errno.nomem) (by decide) (by decide)
    exact ⟨e, ⟨hbad, herr, hnull⟩, by rw [hk0]; exact he⟩
  · rw [hk a d₁ out id hd₁ hloop, Prog.bind_ret]
    match out with
    | .error e => rfl
    | .ok () =>
        have hlock : hasBits (lockedInode d.sb ⟨fh, fattr⟩ id).iState iNew = true :=
          (by decide : hasBits iNew iNew = true)
        rw [Act.cont_ok]
        change ((load a.1 >>= fun _ ↦ _ : Hs Addr).run _) = _
        rw [Act.run_bind_of_ret (load_run insert_heap_self), if_pos hlock,
          Act.run_bind_of_ret (update_run insert_heap_self _),
          Act.run_bind_of_ret (hsiNfsFhget_finish ⟨fh, fattr⟩ id a.1)]
        rfl

/-- The inode of an object that is found, if it is set up. -/
theorem hsiNfsFhget_found {fh : NfsFh} {fattr : NfsFattr} (hu : fattr.Usable) {p : Addr} {i : Inode}
    (hfind : (fhIfind fattr.fileid (nfsFindActor ⟨fh, fattr⟩)).run d = .ret (.ok (some p), d))
    (hi : d.heap p = some i) (hnew : hasBits i.iState iNew = false) :
    (hsiNfsFhget fh fattr).run d = .ret (.ok p, d.setInode p (i.refreshed fattr)) := by
  simp only [hsiNfsFhget, hu.1, hu.2, hsfsIget5Locked, hfind, load_run hi, hnew,
    nfsRefreshInode_run hi, Act.run_bind, Act.run_pure, Prog.bind_ret, Act.cont_ok, Bool.not_true,
    Bool.false_eq_true, if_false, if_true]
  by_cases ha : i.accepts fattr = true
  · simp [ha, Inode.refreshed]
  · simp [ha, Inode.refreshed, setInode_eq_self hi]

/-- Attributes that are refused. -/
theorem hsiNfsFhget_unusable (d : Daemon) (fh : NfsFh) {fattr : NfsFattr} (hu : ¬ fattr.Usable) :
    ∃ e, d.BadPtr e ∧ (hsiNfsFhget fh fattr).run d = .ret (.ok e, d) := by
  obtain ⟨e, he, hbad, herr, hnull⟩ := errPtr_run d (-Errno.noent) (by decide) (by decide)
  refine ⟨e, ⟨hbad, herr, hnull⟩, ?_⟩
  by_cases hv : fattr.isValid = true
  · have hn : fattr.nlink = 0 := by
      by_contra hn
      exact hu ⟨hv, hn⟩
    simp [hsiNfsFhget, hv, hn, he]
  · simp [hsiNfsFhget, hv, he]

/-- **The specification of `hsi_nfs_fhget`.** -/
theorem CacheOk.hsiNfsFhget_cases (h : d.CacheOk) (fh : NfsFh) (fattr : NfsFattr) :
    (¬ fattr.Usable ∧ ∃ e, d.BadPtr e ∧ (hsiNfsFhget fh fattr).run d = .ret (.ok e, d)) ∨
    (fattr.Usable ∧ ∃ p i, p ∈ d.sb.idTable ∧ d.heap p = some i ∧ i.fileid = fattr.fileid ∧
      i.fh = fh ∧ (hsiNfsFhget fh fattr).run d = .ret (.ok p, d.setInode p (i.refreshed fattr))) ∨
    (fattr.Usable ∧ (∀ p, ¬ d.Holds p fattr.fileid fh) ∧
      ∃ k : Option (FreeAddr d.inUse) → Prog Call Call.Res (Except Fault Addr × Daemon),
        (hsiNfsFhget fh fattr).run d = .call (Call.mallocInode fattr.fileid fh d.inUse) k ∧
        (∃ e, d.BadPtr e ∧ k none = .ret (.ok e, d)) ∧
        ∀ a, ∃ id, d.FreshId id ∧
          k (some a) = .ret (.ok a.1, d.insert a.1 (newInode d.sb ⟨fh, fattr⟩ id))) := by
  by_cases hu : fattr.Usable
  · have hrun : (fhIfind fattr.fileid (nfsFindActor ⟨fh, fattr⟩)).run d =
        .ret (.ok (d.fhLookup ⟨fh, fattr⟩), d) :=
      hashFind_run fun p hp ↦ h.live p ((h.same p).1 ⟨_, hp⟩)
    rcases h.fhLookup_cases ⟨fh, fattr⟩ with ⟨p, hfind, hp, i, hi, hfileid, hfh⟩ | ⟨hfind, hnone⟩
    · rw [hfind] at hrun
      exact .inr (.inl ⟨hu, p, i, hp, hi, hfileid, hfh,
        hsiNfsFhget_found hu hrun hi (h.ready p hp i hi).notNew⟩)
    · rw [hfind] at hrun
      obtain ⟨k, hget, hk0, hk⟩ := hsiNfsFhget_new hu hrun
      refine .inr (.inr ⟨hu, hnone, k, hget, hk0, fun a ↦ ?_⟩)
      obtain ⟨hfree, hplace⟩ := heap_freeAddr a
      have hnotMem := h.notMem_of_heap hfree
      -- the state in which the search for a number starts
      let d₁ := d.setInode a.1 (initInode d.sb ⟨fh, fattr⟩)
      have h₁ : d₁.CacheOk := h.setInode_of_notMem hnotMem hplace _
      have hnum : ∀ n, d₁.Numbered n ↔ d.Numbered n := by
        intro n
        refine exists_congr fun q ↦ and_congr_right fun hq ↦ ?_
        rw [inoOf, d.setInode_heap_of_ne fun hqa : q = a.1 ↦ hnotMem (hqa ▸ hq), inoOf]
      obtain ⟨id, hloop, hfresh, hid0, hid1, hfirst⟩ := h₁.idLoop_run
      exact ⟨id, ⟨(hnum id).not.1 hfresh, hid0, hid1, fun h0 h1 ↦ hfirst h0 ((hnum 1).not.2 h1)⟩,
        hk a d₁ (.ok ()) id rfl hloop⟩
  · exact .inl ⟨hu, d.hsiNfsFhget_unusable fh hu⟩

end Daemon

end Hsfs
