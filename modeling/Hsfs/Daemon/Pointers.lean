import Hsfs.Daemon.CacheRun
import Hsfs.Interact.Relate
import Hsfs.Table.Hlist

/-!
# The inode cache in memory

The tables of the cache are arrays of `struct hlist_head` in the superblock, and their chains go
through the fields `id_hash` and `fh_hash` of the inodes.  Here are the functions of the cache as
they work on these pointers; elsewhere a chain is a list.

As long as no inode is freed, it makes no difference (`fhget_pointers`): every run of
`hsi_nfs_fhget` on pointers is a run on lists, with the same answers, and `hsfs_ilookup` finds the
same inodes.

Since a freed inode stays on its chains, its memory may be given out again while it is there.  If
it then gets a number of the same chain, the chain is a ring, and `__id_ifind` does not end for a
number that is not found before the end of the ring (`idIfind_ends_iff`).
-/

namespace Hsfs

open Interact Table

/-! ## The functions -/

/-- The arrays of the superblock, and the fields `id_hash` and `fh_hash` of the inodes. -/
structure HashTables where
  id : Hlists (Fin hashSize) Addr
  fh : Hlists (Fin hashSize) Addr

/-- The process.  The tables of its superblock are in `links`; those of `daemon` are not used. -/
structure Pointers where
  daemon : Daemon
  links : HashTables

/-- A piece of the daemon's code, with the tables in memory. -/
abbrev Ps := Act Call Call.Res Pointers Fault

namespace Pointers

/-- A piece of code that does not use the tables. -/
def onDaemon {α : Type} (x : Hs α) : Ps α :=
  ⟨fun e ↦ (x.run e.daemon).bind fun out ↦ .ret (out.1, { e with daemon := out.2 })⟩

/-- `hsfs_init_icache`. -/
def hsfsInitIcache : Ps Unit :=
  Act.modify fun e ↦ { e with links := ⟨e.links.id.init, e.links.fh.init⟩ }

/-- `hlist_for_each_entry` up to the first inode that passes the test. -/
def walkLoop (table : HashTables → Hlists (Fin hashSize) Addr) (test : Inode → Bool) :
    Nat → Option Addr → Ps (Option Addr)
  | _, none => pure none
  | 0, some _ => Act.throw .running
  | rounds + 1, some pos => do
      let e ← Act.get
      match e.daemon.heap pos with
      | none => Act.throw .segv
      | some inode =>
          if test inode then pure (some pos)
          else walkLoop table test rounds ((table e.links).next pos)

/-- As many rounds as there are addresses. -/
def walkRounds : Nat := 2 ^ 64

/-- `hash_for_each_possible` up to the first inode that passes the test. -/
def hashFind (table : HashTables → Hlists (Fin hashSize) Addr) (key : UInt64)
    (test : Inode → Bool) :
    Ps (Option Addr) := do
  let e ← Act.get
  walkLoop table test walkRounds ((table e.links).first (hashMin key))

/-- `__id_ifind`. -/
def idIfind (key : UInt64) : Ps (Option Addr) :=
  hashFind HashTables.id key fun inode ↦ inode.ino == key

/-- `__fh_ifind`. -/
def fhIfind (key : UInt64) (test : Inode → Bool) : Ps (Option Addr) :=
  hashFind HashTables.fh key test

/-- `hsfs_ilookup`. -/
def hsfsIlookup (ino : UInt64) : Ps (Option Addr) := idIfind ino

/-- `nfs_alloc_inode`.  The inode is filled with zeros, and so are its fields `id_hash` and
`fh_hash`. -/
def nfsAllocInode (desc : NfsFindDesc) : Ps (Option Addr) := do
  match ← onDaemon (mallocInode desc) with
  | none => pure none
  | some p => do
      Act.modify fun e ↦
        ⟨e.daemon.setInode p Inode.zero, ⟨e.links.id.clear p, e.links.fh.clear p⟩⟩
      pure (some p)

/-- `alloc_inode`. -/
def allocInode (desc : NfsFindDesc) : Ps (Option Addr) := do
  match ← nfsAllocInode desc with
  | none => pure none
  | some p => do
      let e ← Act.get
      onDaemon (update p (inodeInitAlways e.daemon.sb))
      pure (some p)

/-- The loop of `__inode_add_to_lists`. -/
def idLoop : Nat → Ps Unit
  | 0 => Act.throw .running
  | rounds + 1 => do
      Act.modify fun e ↦ { e with daemon := e.daemon.setCurrId (nextId e.daemon.sb.currId) }
      let e ← Act.get
      match ← idIfind e.daemon.sb.currId with
      | some _ => idLoop rounds
      | none => pure ()

/-- `__inode_add_to_lists`. -/
def inodeAddToLists (key : UInt64) (p : Addr) : Ps Unit := do
  idLoop idRounds
  let e ← Act.get
  onDaemon (update p fun inode ↦ { inode with ino := e.daemon.sb.currId })
  -- hash_add, for both tables
  Act.modify fun e ↦ { e with
    links := ⟨e.links.id.addHead p (hashMin e.daemon.sb.currId),
      e.links.fh.addHead p (hashMin key)⟩ }

/-- `get_new_inode`, for a `set` that does not fail. -/
def getNewInode (key : UInt64) (set : Inode → Inode) (desc : NfsFindDesc) : Ps (Option Addr) := do
  match ← allocInode desc with
  | none => pure none
  | some p => do
      onDaemon (update p set)
      inodeAddToLists key p
      onDaemon (update p fun inode ↦ { inode with iState := iNew })
      pure (some p)

/-- `hsfs_iget5_locked`. -/
def hsfsIget5Locked (hashval : UInt64) (test : Inode → Bool) (set : Inode → Inode)
    (desc : NfsFindDesc) : Ps (Option Addr) := do
  match ← fhIfind hashval test with
  | some p => pure (some p)
  | none => getNewInode hashval set desc

/-- `hsi_nfs_fhget`. -/
def hsiNfsFhget (fh : NfsFh) (fattr : NfsFattr) : Ps Addr := do
  if !fattr.isValid then
    onDaemon (errPtr (-Errno.noent))
  else if fattr.nlink = 0 then
    onDaemon (errPtr (-Errno.noent))
  else
    let desc : NfsFindDesc := ⟨fh, fattr⟩
    match ← hsfsIget5Locked fattr.fileid (nfsFindActor desc) (nfsInitLocked desc) desc with
    | none => onDaemon (errPtr (-Errno.nomem))
    | some p => do
        let inode ← onDaemon (load p)
        if hasBits inode.iState iNew then
          onDaemon (update p fun inode ↦ (setNfsFileid fattr.fileid inode).setAttrs fattr)
          -- hsfs_unlock_new_inode
          onDaemon (update p fun inode ↦ { inode with iState := inode.iState &&& ~~~iNew })
        else
          let _ ← onDaemon (nfsRefreshInode p fattr)
        pure p

/-! ## Code that does not use the tables -/

end Pointers

/-- The daemon without its tables. -/
def Daemon.noTables (d : Daemon) : Daemon :=
  { d with sb := { d.sb with idTable := Chains.empty, fhTable := Chains.empty } }

/-- The code neither reads nor changes the tables. -/
def Blind {α : Type} (x : Hs α) : Prop :=
  ∀ d : Daemon, Prog.Rel (fun out out' ↦ out' = (out.1, out.2.noTables) ∧
    out.2.sb.idTable = d.sb.idTable ∧ out.2.sb.fhTable = d.sb.fhTable) (x.run d) (x.run d.noTables)

namespace Blind

variable {α β : Type}

theorem pure (a : α) : Blind (Pure.pure a : Hs α) := fun _ ↦ .ret ⟨rfl, rfl, rfl⟩

theorem bind {x : Hs α} {f : α → Hs β} (hx : Blind x) (hf : ∀ a, Blind (f a)) :
    Blind (x >>= f) := by
  intro d
  refine (hx d).bind ?_
  rintro ⟨e | a, d'⟩ _ ⟨rfl, hid, hfh⟩
  · exact .ret ⟨rfl, hid, hfh⟩
  · exact (hf a d').mono fun _ _ h ↦ ⟨h.1, h.2.1.trans hid, h.2.2.trans hfh⟩

theorem load (p : Addr) : Blind (load p) := by
  intro d
  have hheap : d.noTables.heap = d.heap := rfl
  have hlayout : d.noTables.layout = d.layout := rfl
  cases hp : d.heap p with
  | some inode => simpa [Hsfs.load, hheap, hp] using Prog.Rel.ret ⟨rfl, rfl, rfl⟩
  | none =>
      by_cases hbad : d.layout.nearBad p = true
      · simpa [Hsfs.load, hheap, hlayout, hp, hbad] using Prog.Rel.ret ⟨rfl, rfl, rfl⟩
      · simpa [Hsfs.load, hheap, hlayout, hp, hbad] using Prog.Rel.ret ⟨rfl, rfl, rfl⟩

theorem update (p : Addr) (f : Inode → Inode) : Blind (update p f) := by
  intro d
  have hheap : d.noTables.heap = d.heap := rfl
  have hlayout : d.noTables.layout = d.layout := rfl
  cases hp : d.heap p with
  | some inode => simpa [Hsfs.update, hheap, hp] using Prog.Rel.ret ⟨rfl, rfl, rfl⟩
  | none =>
      by_cases hbad : d.layout.nearBad p = true
      · simpa [Hsfs.update, hheap, hlayout, hp, hbad] using Prog.Rel.ret ⟨rfl, rfl, rfl⟩
      · simpa [Hsfs.update, hheap, hlayout, hp, hbad] using Prog.Rel.ret ⟨rfl, rfl, rfl⟩

theorem errPtr (error : Int) : Blind (errPtr error) := by
  intro d
  have hlayout : d.noTables.layout = d.layout := rfl
  cases hp : d.layout.errPtr error with
  | some p => simpa [Hsfs.errPtr, hlayout, hp] using Prog.Rel.ret ⟨rfl, rfl, rfl⟩
  | none => simpa [Hsfs.errPtr, hlayout, hp] using Prog.Rel.ret ⟨rfl, rfl, rfl⟩

theorem nfsRefreshInode (p : Addr) (fattr : NfsFattr) : Blind (nfsRefreshInode p fattr) := by
  unfold Hsfs.nfsRefreshInode
  split
  · refine (load p).bind fun inode ↦ ?_
    split
    · exact (update p _).bind fun _ ↦ .pure 0
    · exact .pure _
  · exact .pure 0

end Blind

/-! ## The same on lists -/

/-- The memory holds the tables `t` and `u`, and these are the tables of the daemon. -/
structure LinkedTo (t u : Chains hashSize Addr) (d : Daemon) (e : Pointers) : Prop where
  idTable : d.sb.idTable = t
  fhTable : d.sb.fhTable = u
  daemon : e.daemon = d.noTables
  id : e.links.id.Holds t
  fh : e.links.fh.Holds u

/-- The memory holds the tables of the daemon. -/
def Linked (d : Daemon) (e : Pointers) : Prop := LinkedTo d.sb.idTable d.sb.fhTable d e

theorem LinkedTo.linked {t u : Chains hashSize Addr} {d : Daemon} {e : Pointers}
    (h : LinkedTo t u d e) : Linked d e := by
  obtain ⟨rfl, rfl, hdaemon, hid, hfh⟩ := h
  exact ⟨rfl, rfl, hdaemon, hid, hfh⟩

/-- The results are the same, and the memory holds the tables `t` and `u`. -/
def SameResult {α : Type} (t u : Chains hashSize Addr) (a : α) (d : Daemon) (b : α)
    (e : Pointers) : Prop := b = a ∧ LinkedTo t u d e

theorem Blind.relates {α : Type} {x : Hs α} (hx : Blind x) (t u : Chains hashSize Addr) :
    Act.Relates (LinkedTo t u) x (Pointers.onDaemon x) (SameResult t u) := by
  intro d e h
  have hrun := hx d
  rw [← h.daemon] at hrun
  refine hrun.map_right ?_
  rintro ⟨out, d'⟩ _ ⟨rfl, hid, hfh⟩
  cases out with
  | error f => exact .error f _ _
  | ok a => exact .ok ⟨rfl, hid.trans h.idTable, hfh.trans h.fhTable, rfl, h.id, h.fh⟩

/-- A list of different addresses is not longer than there are addresses. -/
theorem length_le_walkRounds {ps : List Addr} (h : ps.Nodup) : ps.length ≤ Pointers.walkRounds := by
  have hnodup : (ps.map UInt64.toNat).Nodup := h.map fun _ _ ↦ UInt64.toNat_inj.1
  have hsub : ps.map UInt64.toNat ⊆ List.range (2 ^ 64) := by
    intro n hn
    obtain ⟨p, -, rfl⟩ := List.mem_map.1 hn
    exact List.mem_range.2 p.toNat_lt
  have hle := (List.subperm_of_subset hnodup hsub).length_le
  rw [List.length_map, List.length_range] at hle
  exact hle

/-- What a walk returns that stops at the given address. -/
def Daemon.reach (d : Daemon) : Option Addr → Except Fault (Option Addr)
  | none => .ok none
  | some p => if (d.heap p).isNone then .error .segv else .ok (some p)

theorem run_hashFind (t : Chains hashSize Addr) (key : UInt64) (test : Inode → Bool) (d : Daemon) :
    (hashFind t key test).run d =
      .ret (d.reach (t.find (hashMin key) (d.stopsAt test)), d) := by
  unfold hashFind
  simp only [Act.run_bind, Act.run_get, Prog.bind_ret, Act.cont_ok]
  cases t.find (hashMin key) (d.stopsAt test) with
  | none => rfl
  | some p => cases hp : d.heap p <;> simp [Daemon.reach, hp]

namespace Pointers

variable {table : HashTables → Hlists (Fin hashSize) Addr} {test : Inode → Bool}

/-- What the loop returns that walks the pointers. -/
def walked (e : Pointers) : Option (Option Addr) → Except Fault (Option Addr)
  | none => .error .running
  | some q => e.daemon.reach q

theorem run_walkLoop (e : Pointers) (rounds : Nat) (p : Option Addr) :
    (walkLoop table test rounds p).run e =
      .ret (e.walked ((table e.links).walk (e.daemon.stopsAt test) rounds p), e) := by
  induction rounds generalizing p with
  | zero => cases p <;> rfl
  | succ rounds ih =>
      cases p with
      | none => rfl
      | some p =>
          rw [walkLoop, Hlists.walk_succ_some, Daemon.stopsAt]
          simp only [Act.run_bind, Act.run_get, Prog.bind_ret, Act.cont_ok]
          cases hp : e.daemon.heap p with
          | none => simp [walked, Daemon.reach, hp]
          | some inode =>
              cases htest : test inode with
              | true => simp [walked, Daemon.reach, hp, htest]
              | false => simpa [htest] using ih ((table e.links).next p)

/-- **A walk over pointers** stops where one over the list stops. -/
theorem run_hashFind {e : Pointers} {t : Chains hashSize Addr} (h : (table e.links).Holds t)
    (ht : ∀ i, (t i).Nodup) (key : UInt64) (test : Inode → Bool) :
    (hashFind table key test).run e =
      .ret (e.daemon.reach (t.find (hashMin key) (e.daemon.stopsAt test)), e) := by
  refine (run_walkLoop e walkRounds ((table e.links).first (hashMin key))).trans ?_
  rw [h.walk_eq (length_le_walkRounds (ht _))]
  rfl

section Simulation

variable {t u : Chains hashSize Addr}

theorem idIfind_relates (ht : ∀ i, (t i).Nodup) (key : UInt64) :
    Act.Relates (LinkedTo t u) (Hsfs.idIfind key) (idIfind key) (SameResult t u) := by
  intro d e h
  have hrun : (idIfind key).run e = .ret (d.reach (t.find (hashMin key)
      (d.stopsAt fun inode ↦ inode.ino == key)), e) := by
    refine (run_hashFind h.id ht key _).trans ?_
    rw [h.daemon]
    rfl
  have hlist : (Hsfs.idIfind key).run d = .ret (d.reach (t.find (hashMin key)
      (d.stopsAt fun inode ↦ inode.ino == key)), d) := by
    rw [← h.idTable]
    exact Hsfs.run_hashFind d.sb.idTable key _ d
  rw [hrun, hlist]
  exact Act.rel_ret (fun _ ↦ ⟨rfl, h⟩) _

/-- The inodes on the chains have not been freed. -/
def Live (t u : Chains hashSize Addr) (d : Daemon) : Prop :=
  ∀ p, p ∈ t ∨ p ∈ u → (d.heap p).isSome = true

theorem fhIfind_relates (hu : ∀ i, (u i).Nodup) (key : UInt64) (test : Inode → Bool) :
    Act.Relates (fun d e ↦ LinkedTo t u d e ∧ Live t u d) (Hsfs.fhIfind key test)
      (fhIfind key test) fun a d b e ↦ SameResult t u a d b e ∧ Live t u d := by
  rintro d e ⟨h, hlive⟩
  have hrun : (fhIfind key test).run e =
      .ret (d.reach (u.find (hashMin key) (d.stopsAt test)), e) := by
    refine (run_hashFind h.fh hu key test).trans ?_
    rw [h.daemon]
    rfl
  have hlist : (Hsfs.fhIfind key test).run d =
      .ret (d.reach (u.find (hashMin key) (d.stopsAt test)), d) := by
    rw [← h.fhTable]
    exact Hsfs.run_hashFind d.sb.fhTable key _ d
  rw [hrun, hlist]
  exact Act.rel_ret (fun _ ↦ ⟨⟨rfl, h⟩, hlive⟩) _

/-- A new inode is on no chain. -/
theorem nfsAllocInode_relates (desc : NfsFindDesc) :
    Act.Relates (fun d e ↦ LinkedTo t u d e ∧ Live t u d)
      (Hsfs.nfsAllocInode desc) (nfsAllocInode desc)
      fun a d b e ↦ SameResult t u a d b e ∧ ∀ p ∈ a, p ∉ t ∧ p ∉ u := by
  rintro d ⟨daemon, links⟩ ⟨⟨rfl, rfl, hdaemon, hid, hfh⟩, hlive⟩
  obtain rfl : daemon = d.noTables := hdaemon
  refine Prog.Rel.call (c := Call.mallocInode desc.fattr.fileid desc.fh d.inUse) fun r ↦ ?_
  cases r with
  | none =>
      refine .ret (.ok ⟨⟨rfl, rfl, rfl, rfl, hid, hfh⟩, ?_⟩)
      rintro p ⟨⟩
  | some a =>
      obtain ⟨p, -, -, hfree⟩ := a
      have hnone : (d.heap p).isSome = false := (Bool.or_eq_false_iff.1 hfree).1
      have hnotMem : p ∉ d.sb.idTable ∧ p ∉ d.sb.fhTable := by
        constructor
        · intro hmem
          rw [hlive p (.inl hmem)] at hnone
          cases hnone
        · intro hmem
          rw [hlive p (.inr hmem)] at hnone
          cases hnone
      refine .ret (.ok ⟨⟨rfl, rfl, rfl, rfl, hid.clear hnotMem.1, hfh.clear hnotMem.2⟩, ?_⟩)
      rintro q ⟨⟩
      exact hnotMem

/-- What holds once an inode has been allocated: it is on no chain. -/
def NewResult (t u : Chains hashSize Addr) (a : Option Addr) (d : Daemon) (b : Option Addr)
    (e : Pointers) : Prop := SameResult t u a d b e ∧ ∀ p ∈ a, p ∉ t ∧ p ∉ u

theorem allocInode_relates (desc : NfsFindDesc) :
    Act.Relates (fun d e ↦ LinkedTo t u d e ∧ Live t u d)
      (Hsfs.allocInode desc) (allocInode desc) (NewResult t u) := by
  refine .bind (nfsAllocInode_relates desc) fun a b ↦ ?_
  rintro d e ⟨⟨rfl, h⟩, hnew⟩
  cases b with
  | none => exact .ret (.ok ⟨⟨rfl, h⟩, hnew⟩)
  | some p =>
      refine Act.Relates.get_bind (P := LinkedTo t u) (fun d e h ↦ ?_) d e h
      have hinit : inodeInitAlways e.daemon.sb = inodeInitAlways d.sb := by
        rw [h.daemon]
        rfl
      rw [hinit]
      exact .bind ((Blind.update p _).relates t u) fun _ _ ↦ .pure fun _ _ h ↦ ⟨⟨rfl, h.2⟩, hnew⟩

theorem idLoop_relates (ht : ∀ i, (t i).Nodup) (rounds : Nat) :
    Act.Relates (LinkedTo t u) (Hsfs.idLoop rounds) (idLoop rounds) (SameResult t u) := by
  induction rounds with
  | zero => exact .throw _
  | succ rounds ih =>
      unfold Hsfs.idLoop idLoop
      refine .bind (Q := SameResult t u) (.modify ?_) fun _ _ ↦ .get_bind ?_
      · rintro d e ⟨hid, hfh, hdaemon, hidlinks, hfhlinks⟩
        refine ⟨rfl, hid, hfh, ?_, hidlinks, hfhlinks⟩
        rw [hdaemon]
        rfl
      · rintro d e ⟨-, h⟩
        have hcurr : e.daemon.sb.currId = d.sb.currId := by
          rw [h.daemon]
          rfl
        rw [hcurr]
        refine .bind ((idIfind_relates ht d.sb.currId).mono (fun _ _ h ↦ h.2)
          fun _ _ _ _ h ↦ h) fun a b ↦ ?_
        rintro d' e' ⟨rfl, h'⟩
        cases b with
        | none => exact .ret (.ok ⟨rfl, h'⟩)
        | some p => exact ih d' e' h'

/-- The results are the same, and the memory holds the tables of the daemon. -/
def LinkedResult {α : Type} (a : α) (d : Daemon) (b : α) (e : Pointers) : Prop :=
  b = a ∧ Linked d e

/-- An inode that is on no chain is put on both chains. -/
theorem inodeAddToLists_relates (ht : ∀ i, (t i).Nodup) (key : UInt64) {p : Addr} (hpt : p ∉ t)
    (hpu : p ∉ u) : Act.Relates (LinkedTo t u) (Hsfs.inodeAddToLists key p) (inodeAddToLists key p)
      LinkedResult := by
  refine .bind (idLoop_relates ht idRounds) fun _ _ ↦ .get_bind fun d e h ↦ ?_
  have hcurr : e.daemon.sb.currId = d.sb.currId := by
    rw [h.2.daemon]
    rfl
  rw [hcurr]
  refine .bind (((Blind.update p _).relates t u).mono (fun _ _ h ↦ h.2) fun _ _ _ _ h ↦ h)
    fun _ _ ↦ .modify ?_
  rintro d' e' ⟨-, rfl, rfl, hdaemon, hid, hfh⟩
  have hcurr' : e'.daemon.sb.currId = d'.sb.currId := by
    rw [hdaemon]
    rfl
  refine ⟨rfl, rfl, rfl, ?_, ?_, hfh.addHead hpu (hashMin key)⟩
  · exact hdaemon
  · rw [hcurr']
    exact hid.addHead hpt (hashMin d'.sb.currId)

theorem getNewInode_relates (ht : ∀ i, (t i).Nodup) (key : UInt64) (set : Inode → Inode)
    (desc : NfsFindDesc) :
    Act.Relates (fun d e ↦ LinkedTo t u d e ∧ Live t u d)
      (Hsfs.getNewInode key set desc) (getNewInode key set desc) LinkedResult := by
  refine .bind (allocInode_relates desc) fun a b ↦ ?_
  rintro d e ⟨⟨rfl, h⟩, hnew⟩
  cases b with
  | none => exact .ret (.ok ⟨rfl, h.linked⟩)
  | some p =>
      obtain ⟨hpt, hpu⟩ := hnew p rfl
      have hset := (Blind.update p set).relates t u
      refine Act.Relates.bind hset (fun _ _ ↦ .bind ((inodeAddToLists_relates ht key hpt hpu).mono
        (fun _ _ h ↦ h.2) fun _ _ _ _ h ↦ h) fun _ _ ↦ ?_) d e h
      rintro d e ⟨-, h⟩
      exact Act.Relates.bind ((Blind.update p _).relates d.sb.idTable d.sb.fhTable)
        (fun _ _ ↦ .pure fun _ _ h ↦ ⟨rfl, h.2.linked⟩) d e h

theorem hsfsIget5Locked_relates (ht : ∀ i, (t i).Nodup) (hu : ∀ i, (u i).Nodup) (hashval : UInt64)
    (test : Inode → Bool) (set : Inode → Inode) (desc : NfsFindDesc) :
    Act.Relates (fun d e ↦ LinkedTo t u d e ∧ Live t u d)
      (Hsfs.hsfsIget5Locked hashval test set desc) (hsfsIget5Locked hashval test set desc)
      LinkedResult := by
  refine .bind (fhIfind_relates hu hashval test) fun a b ↦ ?_
  rintro d e ⟨⟨rfl, h⟩, hlive⟩
  cases b with
  | none => exact getNewInode_relates ht hashval set desc d e ⟨h, hlive⟩
  | some p => exact .ret (.ok ⟨rfl, h.linked⟩)

/-- **`hsi_nfs_fhget` on pointers does what it does on lists**, if no inode has been freed. -/
theorem hsiNfsFhget_relates (ht : ∀ i, (t i).Nodup) (hu : ∀ i, (u i).Nodup) (fh : NfsFh)
    (fattr : NfsFattr) :
    Act.Relates (fun d e ↦ LinkedTo t u d e ∧ Live t u d) (Hsfs.hsiNfsFhget fh fattr)
      (hsiNfsFhget fh fattr) LinkedResult := by
  have hblind {α : Type} {x : Hs α} (hx : Blind x) : Act.Relates Linked x (onDaemon x)
      LinkedResult := fun d e h ↦ (hx.relates d.sb.idTable d.sb.fhTable).mono (fun _ _ h ↦ h)
        (fun _ _ _ _ h ↦ ⟨h.1, h.2.linked⟩) d e h
  have herror (error : Int) : Act.Relates Linked (errPtr error) (onDaemon (errPtr error))
      LinkedResult := hblind (.errPtr error)
  unfold Hsfs.hsiNfsFhget hsiNfsFhget
  split
  · exact (herror _).mono (fun _ _ h ↦ h.1.linked) fun _ _ _ _ h ↦ h
  · split
    · exact (herror _).mono (fun _ _ h ↦ h.1.linked) fun _ _ _ _ h ↦ h
    · refine .bind (hsfsIget5Locked_relates ht hu _ _ _ _) fun a b ↦ ?_
      rintro d e ⟨rfl, h⟩
      cases b with
      | none => exact herror _ d e h
      | some p =>
          refine Act.Relates.bind (hblind (.load p)) (fun inode inode' ↦ ?_) d e h
          rintro d e ⟨rfl, h⟩
          have hret : Act.Relates (fun d e ↦ Linked d e) (pure p : Hs Addr) (pure p)
              LinkedResult := .pure fun _ _ h ↦ ⟨rfl, h⟩
          by_cases hnew : hasBits inode'.iState iNew = true
          · simp only [hnew, if_true]
            exact Act.Relates.bind (hblind (.update p _)) (fun _ _ ↦ Act.Relates.bind
              ((hblind (.update p _)).mono (fun _ _ h ↦ h.2) fun _ _ _ _ h ↦ h) fun _ _ ↦
              hret.mono (fun _ _ h ↦ h.2) fun _ _ _ _ h ↦ h) d e h
          · simp only [hnew]
            exact Act.Relates.bind (hblind (.nfsRefreshInode p fattr)) (fun _ _ ↦
              hret.mono (fun _ _ h ↦ h.2) fun _ _ _ _ h ↦ h) d e h

end Simulation

/-! ## Runs -/

/-- A process in which nothing has been allocated yet, and `hsfs_init_icache` has just been called
on memory with anything in it. -/
def Booted (e : Pointers) : Prop :=
  ∃ (d₀ : Daemon) (links : HashTables), (∀ p, d₀.heap p = none) ∧
    hsfsInitIcache.run ⟨d₀.noTables, links⟩ = .ret (.ok (), e) ∧ e.daemon.sb.currId = 0

theorem Booted.linked {e : Pointers} (h : e.Booted) : ∃ d : Daemon, d.Booted ∧ Linked d e := by
  obtain ⟨d₀, links, hheap, hrun, hcurr⟩ := h
  cases hrun
  exact ⟨d₀.noTables, ⟨d₀, hheap, rfl, hcurr⟩, rfl, rfl, rfl, .init _, .init _⟩

/-- A sequence of calls of `hsi_nfs_fhget` on pointers. -/
inductive Run (S : Server Call Call.Res Unit) (e₀ : Pointers) : List FhgetCall → Pointers → Prop
  /-- No call yet. -/
  | init : Run S e₀ [] e₀
  /-- One more call. -/
  | call {cs : List FhgetCall} {e e' : Pointers} {fh : NfsFh} {fattr : NfsFattr} {p : Addr} :
      Run S e₀ cs e → Prog.Exec S ((hsiNfsFhget fh fattr).run e) () (.ok p, e') () →
      Run S e₀ (cs ++ [⟨fh, fattr, p⟩]) e'
  /-- The counter has gone round. -/
  | wrap {cs : List FhgetCall} {e : Pointers} {b : Fin hashSize} {p : Addr} (id : UInt64) :
      Run S e₀ cs e → e.links.id.first b = some p →
      Run S e₀ cs { e with daemon := e.daemon.setCurrId id }

theorem hsfsIlookup_run_eq {d : Daemon} {e : Pointers} (hd : d.CacheOk) (h : Linked d e)
    (n : UInt64) : (hsfsIlookup n).run e = .ret (.ok (d.ilookup n), e) := by
  refine (run_hashFind h.id hd.placed.nodup n _).trans ?_
  have hreach : d.reach (d.ilookup n) = .ok (d.ilookup n) := by
    cases hp : d.ilookup n with
    | none => rfl
    | some p =>
        obtain ⟨i, hi⟩ := hd.live p (hd.ilookup_eq_some_iff.1 hp).1
        simp [Daemon.reach, hi]
  rw [h.daemon, ← hreach]
  rfl

/-- An execution on pointers is one on lists. -/
theorem exec_hsiNfsFhget {S : Server Call Call.Res Unit} {d : Daemon} {e : Pointers}
    (hd : d.CacheOk) (h : Linked d e) {fh : NfsFh} {fattr : NfsFattr} {r : Except Fault Addr}
    {e' : Pointers} (hx : Prog.Exec S ((hsiNfsFhget fh fattr).run e) () (r, e') ()) :
    ∃ p d', r = .ok p ∧ Linked d' e' ∧
      Prog.Exec S ((Hsfs.hsiNfsFhget fh fattr).run d) () (.ok p, d') () := by
  have hlive : Live d.sb.idTable d.sb.fhTable d := by
    intro p hp
    obtain ⟨i, hi⟩ := hd.live p (hp.elim id (hd.same p).1)
    rw [hi]
    rfl
  obtain ⟨⟨r', d'⟩, hout, hx'⟩ := (hsiNfsFhget_relates hd.placed.nodup hd.fhPlaced.nodup fh fattr
    d e ⟨h, hlive⟩).exec hx
  cases hout with
  | error f => exact ((Act.wp_iff_exec.1 (hd.wp_hsiNfsFhget (S := S) (s := ()))).2 f d' () hx').elim
  | ok hQ =>
      obtain ⟨rfl, hlinked⟩ := hQ
      exact ⟨_, d', rfl, hlinked, hx'⟩

theorem Linked.setCurrId {d : Daemon} {e : Pointers} (h : Linked d e) (id : UInt64) :
    Linked (d.setCurrId id) { e with daemon := e.daemon.setCurrId id } := by
  refine ⟨rfl, rfl, ?_, h.id, h.fh⟩
  rw [h.daemon]
  rfl

/-- A run on pointers is one on lists. -/
theorem Run.fhgetRun {S : Server Call Call.Res Unit} {d₀ : Daemon} {e₀ e : Pointers}
    {cs : List FhgetCall} (hrun : Run S e₀ cs e) (hd₀ : d₀.CacheOk) (h₀ : Linked d₀ e₀) :
    ∃ d, FhgetRun S d₀ cs d ∧ Linked d e := by
  induction hrun with
  | init => exact ⟨d₀, .init, h₀⟩
  | call _ hx ih =>
      obtain ⟨d, hdrun, hlinked⟩ := ih
      obtain ⟨p, d', hp, hlinked', hx'⟩ := exec_hsiNfsFhget (hdrun.cacheOk hd₀).1 hlinked hx
      cases hp
      exact ⟨d', hdrun.call hx', hlinked'⟩
  | @wrap cs e b p id _ hfirst ih =>
      obtain ⟨d, hdrun, hlinked⟩ := ih
      have hchain := hlinked.id b
      rw [hfirst] at hchain
      have hmem : p ∈ d.sb.idTable := ⟨b, hchain.head_mem⟩
      exact ⟨_, hdrun.wrap id hmem, Linked.setCurrId hlinked id⟩

/-- **The cache on pointers is the cache on lists.**  Every run of `hsi_nfs_fhget` on the pointers
of the process, whatever was in its memory before, is one on lists with the same answers; the
memory then holds the tables of that run.  Every further call returns, and `hsfs_ilookup` finds
what is found on the lists. -/
theorem fhget_pointers {S : Server Call Call.Res Unit} {e₀ e : Pointers} {cs : List FhgetCall}
    (hboot : e₀.Booted) (hrun : Run S e₀ cs e) :
    ∃ d₀ d : Daemon, d₀.Booted ∧ FhgetRun S d₀ cs d ∧ Linked d e ∧
      (∀ n, (hsfsIlookup n).run e = .ret (.ok (d.ilookup n), e)) ∧
      ∀ fh fattr r e', Prog.Exec S ((hsiNfsFhget fh fattr).run e) () (r, e') () →
        ∃ p d', r = .ok p ∧ Linked d' e' ∧ FhgetRun S d₀ (cs ++ [⟨fh, fattr, p⟩]) d' := by
  obtain ⟨d₀, hbooted, h₀⟩ := hboot.linked
  obtain ⟨d, hdrun, hlinked⟩ := hrun.fhgetRun hbooted.cacheOk h₀
  have hd := (hdrun.cacheOk hbooted.cacheOk).1
  refine ⟨d₀, d, hbooted, hdrun, hlinked, hsfsIlookup_run_eq hd hlinked, ?_⟩
  intro fh fattr r e' hx
  obtain ⟨p, d', hr, hlinked', hx'⟩ := exec_hsiNfsFhget hd hlinked hx
  exact ⟨p, d', hr, hlinked', hdrun.call hx'⟩

/-- Memory with anything in it, and a cache that has just been set up there. -/
private def garbage : Hlists (Fin hashSize) Addr := ⟨fun _ ↦ some 0x40, fun _ ↦ ⟨some 0x40, none⟩⟩

private def bootedPointers : Pointers :=
  ⟨(Daemon.start .sample .sample).noTables, ⟨garbage.init, garbage.init⟩⟩

private def plainAttrs : NfsFattr :=
  hsiNfs3Fattr2fattr { (default : Fattr3) with type := 1, nlink := 1, fileid := 7 } .fresh

theorem fhget_pointers_one :
    ∃ e, Run Server.any bootedPointers [⟨NfsFh.ofByte 1, plainAttrs, 0x10000⟩] e ∧
      ∃ d₀ d : Daemon, d₀.Booted ∧
        FhgetRun Server.any d₀ [⟨NfsFh.ofByte 1, plainAttrs, 0x10000⟩] d ∧ Linked d e ∧
        ∀ n, (hsfsIlookup n).run e = .ret (.ok (d.ilookup n), e) := by
  have heval : (((hsiNfsFhget (NfsFh.ofByte 1) plainAttrs).run bootedPointers).eval
      (FhgetRun.allocator [0x10000]) ()).any
        (fun r ↦ decide (r.1.1.toOption = some 0x10000)) = true := by decide
  obtain ⟨⟨⟨r, e⟩, ⟨⟩⟩, hr, hok⟩ := (Option.any_eq_true _ _).1 heval
  have hx := Prog.exec_of_eval (S := Server.any) (fun _ _ _ _ _ ↦ trivial) hr
  cases r with
  | error f => cases hok
  | ok p =>
      obtain rfl : p = 0x10000 := Option.some.inj (of_decide_eq_true hok)
      have hrun : Run Server.any bootedPointers _ e := Run.init.call hx
      have hboot : bootedPointers.Booted :=
        ⟨.start .sample .sample, ⟨garbage, garbage⟩, fun _ ↦ rfl, rfl, rfl⟩
      obtain ⟨d₀, d, hd₀, hdrun, hlinked, hlookup, -⟩ := fhget_pointers hboot hrun
      exact ⟨e, hrun, d₀, d, hd₀, hdrun, hlinked, hlookup⟩

/-! ## Memory that is given out again -/

section Ring

variable {σ : Type} {S : Server Call Call.Res σ}

/-- The code does not write to the arrays of the superblock, `id_hash` or `fh_hash`. -/
def KeepsLinks (S : Server Call Call.Res σ) {α : Type} (x : Ps α) : Prop :=
  ∀ e s, Act.wp S x (fun _ e' _ ↦ e'.links = e.links) (fun _ e' _ ↦ e'.links = e.links) e s

theorem KeepsLinks.bind {α β : Type} {x : Ps α} {f : α → Ps β} (hx : KeepsLinks S x)
    (hf : ∀ a, KeepsLinks S (f a)) : KeepsLinks S (x >>= f) := by
  intro e s
  rw [Act.wp_bind]
  refine Act.wp_mono (fun a e' s' h ↦ ?_) (fun _ _ _ h ↦ h) (hx e s)
  rw [← h]
  exact hf a e' s'

theorem KeepsLinks.get_bind {α : Type} {f : Pointers → Ps α} (h : ∀ e, KeepsLinks S (f e)) :
    KeepsLinks S (Act.get >>= f) := fun e s ↦ h e e s

theorem KeepsLinks.onDaemon {α : Type} (x : Hs α) : KeepsLinks S (onDaemon x) := by
  intro e s
  change ((x.run e.daemon).bind _).wp S _ s
  rw [Prog.wp_bind]
  refine Prog.wp_iff_exec.2 ?_
  rintro ⟨out, d⟩ s' -
  cases out <;> exact rfl

theorem KeepsLinks.idIfind (key : UInt64) : KeepsLinks S (idIfind key) := by
  intro e s
  have hrun : (Pointers.idIfind key).run e = .ret (_, e) := run_walkLoop e _ _
  rw [Act.wp, hrun, Prog.wp_ret]
  cases e.walked _ <;> exact rfl

theorem KeepsLinks.idLoop (rounds : Nat) : KeepsLinks S (idLoop rounds) := by
  induction rounds with
  | zero => exact fun _ _ ↦ rfl
  | succ rounds ih =>
      rw [Pointers.idLoop]
      refine .bind (fun _ _ ↦ rfl) fun _ ↦ .get_bind fun e ↦ .bind (.idIfind _) fun found ↦ ?_
      cases found with
      | none => exact fun _ _ ↦ rfl
      | some p => exact ih

/-- `__inode_add_to_lists` puts the inode before the chain of its new number, whether or not it is
on that chain already. -/
theorem wp_inodeAddToLists (key : UInt64) (p : Addr) (e : Pointers) (s : σ) :
    Act.wp S (inodeAddToLists key p)
      (fun _ e' _ ↦ e'.links.id = e.links.id.addHead p (hashMin e'.daemon.sb.currId))
      (fun _ _ _ ↦ True) e s := by
  rw [inodeAddToLists, Act.wp_bind]
  refine Act.wp_mono (fun _ e₁ s₁ h₁ ↦ ?_) (fun _ _ _ _ ↦ trivial) (KeepsLinks.idLoop idRounds e s)
  rw [Act.wp_bind, Act.wp_get, Act.wp_bind]
  refine Act.wp_mono (fun _ e₂ s₂ h₂ ↦ ?_) (fun _ _ _ _ ↦ trivial) (KeepsLinks.onDaemon _ e₁ s₁)
  rw [Act.wp_modify, h₂, h₁]

/-- The walk of `__id_ifind` for a number ends, be it with an access to memory that is free. -/
def Ends (e : Pointers) (n : UInt64) : Prop :=
  ∃ rounds, (walkLoop HashTables.id (fun inode ↦ inode.ino == n) rounds
    (e.links.id.first (hashMin n))).run e ≠ .ret (.error .running, e)

theorem ends_iff (e : Pointers) (n : UInt64) :
    e.Ends n ↔ ∃ rounds, (e.links.id.walk (e.daemon.stopsAt fun inode ↦ inode.ino == n) rounds
      (e.links.id.first (hashMin n))).isSome := by
  refine exists_congr fun rounds ↦ ?_
  rw [run_walkLoop]
  cases e.links.id.walk (e.daemon.stopsAt fun inode ↦ inode.ino == n) rounds
      (e.links.id.first (hashMin n)) with
  | none => simp [walked]
  | some q =>
      cases q with
      | none => simp [walked, Daemon.reach]
      | some q => by_cases hq : (e.daemon.heap q).isNone = true <;> simp [walked, Daemon.reach, hq]

/-- **When a lookup ends** after an inode has been entered under a new number of the chain: if the
inode was not on the chain, or if the walk stops before it comes to where it was.  An inode that is
freed stays on its chains, so that one whose memory is given out again may be on them. -/
theorem idIfind_ends_iff {key : UInt64} {p : Addr} {e e' : Pointers} {s s' : σ}
    (hadd : Prog.Exec S ((inodeAddToLists key p).run e) s (.ok (), e') s') {ps : List Addr}
    (hchain : e.links.id.Leads (e.links.id.first (hashMin e'.daemon.sb.currId)) ps) {n : UInt64}
    (hn : hashMin n = hashMin e'.daemon.sb.currId) :
    e'.Ends n ↔ p ∉ ps ∨ ∃ q ∈ ps.takeWhile (· ≠ p) ++ [p],
      ∀ i, e'.daemon.heap q = some i → i.ino = n := by
  have hlinks := (Act.wp_iff_exec.1 (wp_inodeAddToLists key p e s)).1 () e' s' hadd
  rw [ends_iff, hn, hlinks, hchain.exists_walk_addHead_iff]
  refine or_congr_right (exists_congr fun q ↦ and_congr_right fun _ ↦ ?_)
  rw [Daemon.stopsAt]
  cases e'.daemon.heap q with
  | none => simp
  | some i => simp

/-- The first inode has been freed and is still on the chain of number one; its memory has been
given out again after 521 numbers. -/
private def reused : Pointers :=
  let d := (Daemon.start .sample .sample).noTables
  ⟨(d.setInode 0x10000 Inode.zero).setCurrId 521,
    ⟨garbage.init.addHead 0x10000 (hashMin 1), garbage.init⟩⟩

theorem idIfind_ends_iff_reused :
    ∃ e, Prog.Exec Server.any ((inodeAddToLists 7 0x10000).run reused) () (.ok (), e) () ∧
      e.Ends 522 ∧ ¬ e.Ends 1043 := by
  have heval : (((inodeAddToLists 7 0x10000).run reused).eval (FhgetRun.allocator []) ()).any
      (fun r ↦ decide (r.1.1.toOption = some () ∧ r.1.2.daemon.sb.currId = 522 ∧
        (r.1.2.daemon.heap 0x10000).map Inode.ino = some 522)) = true := by decide
  obtain ⟨⟨⟨r, e⟩, ⟨⟩⟩, hr, hout⟩ := (Option.any_eq_true _ _).1 heval
  obtain ⟨hok, hcurr, hino⟩ := of_decide_eq_true hout
  have hx := Prog.exec_of_eval (S := Server.any) (fun _ _ _ _ _ ↦ trivial) hr
  cases r with
  | error f => cases hok
  | ok u =>
      cases u
      have hsame : hashMin 522 = hashMin 1 := by decide
      have hother : hashMin 1043 = hashMin 1 := by decide
      have hchain : reused.links.id.Leads (reused.links.id.first (hashMin e.daemon.sb.currId))
          [0x10000] := by
        have hempty : garbage.init.Leads (garbage.init.first (hashMin 1)) [] := .nil
        rw [hcurr, hsame]
        exact hempty.addHead_self List.not_mem_nil
      obtain ⟨i, hi, hii⟩ := Option.map_eq_some_iff.1 hino
      refine ⟨e, hx, ?_, ?_⟩
      · refine (idIfind_ends_iff hx hchain (by rw [hcurr])).2 (.inr ⟨0x10000, by simp, ?_⟩)
        intro j hj
        cases hi.symm.trans hj
        exact hii
      · rw [idIfind_ends_iff hx hchain (by rw [hcurr, hsame, hother])]
        rintro (hnot | ⟨q, hq, hall⟩)
        · exact hnot List.mem_cons_self
        · obtain rfl : q = 0x10000 := by simpa using hq
          have hne : i.ino = 1043 := hall i hi
          rw [hii] at hne
          cases hne

end Ring

end Pointers

end Hsfs
