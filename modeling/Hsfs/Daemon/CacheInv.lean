import Hsfs.Daemon.IdLoop

/-!
# The invariant of the inode cache

The cache is a finite partial bijection between the objects of the server (a file
number with a handle) and the numbers the kernel uses, and `CacheOk` says that the
two hash tables represent one.

`CacheOk.hsiNfsFhget_cases` is the specification of `hsi_nfs_fhget`, as an equation:
on a cache that satisfies the invariant it fails, or finds the inode of the object
and refreshes it, or asks for memory and enters a new inode.
-/

namespace Hsfs

open Interact Table

/-! ## What an inode is about -/

/-- An inode that is not in the middle of being set up. -/
structure Inode.Ready (i : Inode) : Prop where
  /-- It has been given a number. -/
  numbered : i.ino ≠ 0
  /-- It has not been marked as stale. -/
  notStale : i.flags &&& nfsInoStale = 0
  /-- Its attributes have been filled in. -/
  notNew : hasBits i.iState iNew = false

/-- The inodes are of the same object and have the same number, whatever their
attributes are. -/
structure Inode.SameId (i j : Inode) : Prop where
  ino : j.ino = i.ino
  fileid : j.fileid = i.fileid
  fh : j.fh = i.fh
  flags : j.flags = i.flags
  iState : j.iState = i.iState

theorem Inode.SameId.ready {i j : Inode} (h : i.SameId j) (hi : i.Ready) : j.Ready :=
  ⟨h.ino ▸ hi.numbered, h.flags ▸ hi.notStale, h.iState ▸ hi.notNew⟩

namespace Daemon

/-- The server's number of the object of the inode at an address. -/
def fileidOf (d : Daemon) (p : Addr) : UInt64 := ((d.heap p).map Inode.fileid).getD 0

theorem fileidOf_eq {d : Daemon} {p : Addr} {i : Inode} (h : d.heap p = some i) :
    d.fileidOf p = i.fileid := by
  simp [fileidOf, h]

/-- The invariant of the cache. -/
structure CacheOk (d : Daemon) : Prop extends d.IdTableOk where
  /-- The two tables hold the same inodes. -/
  same : ∀ p, p ∈ d.sb.fhTable ↔ p ∈ d.sb.idTable
  /-- The inodes are on the chains of their file numbers, each once. -/
  fhPlaced : d.sb.fhTable.Placed fun p ↦ hashMin (d.fileidOf p)
  /-- Cached inodes are completely set up. -/
  ready : ∀ p ∈ d.sb.idTable, ∀ i, d.heap p = some i → i.Ready
  /-- No two inodes are of the same object. -/
  keyInj : ∀ p ∈ d.sb.idTable, ∀ q ∈ d.sb.idTable, ∀ i j, d.heap p = some i →
    d.heap q = some j → i.fileid = j.fileid → i.fh = j.fh → p = q

/-- No cached inode has been freed. -/
def NoneFreed (d : Daemon) : Prop := ∀ p ∈ d.sb.idTable, (d.heap p).isSome = true

instance (d : Daemon) : Decidable d.NoneFreed :=
  inferInstanceAs (Decidable (∀ p ∈ d.sb.idTable, (d.heap p).isSome = true))

/-- The inode of an object is cached at an address. -/
def Holds (d : Daemon) (p : Addr) (fileid : UInt64) (fh : NfsFh) : Prop :=
  p ∈ d.sb.idTable ∧ ∃ i, d.heap p = some i ∧ i.fileid = fileid ∧ i.fh = fh

namespace CacheOk

variable {d d' : Daemon} {p : Addr} {i j : Inode}

theorem noneFreed (h : d.CacheOk) : d.NoneFreed := by
  intro p hp
  obtain ⟨i, hi⟩ := h.live p hp
  exact hi ▸ rfl

/-- The invariant only speaks about the tables and the inodes. -/
theorem congr (h : d.CacheOk) (hl : d'.layout = d.layout) (hh : d'.heap = d.heap)
    (hid : d'.sb.idTable = d.sb.idTable) (hfh : d'.sb.fhTable = d.sb.fhTable) : d'.CacheOk := by
  have hino : d'.inoOf = d.inoOf := by
    funext p
    simp [inoOf, hh]
  have hfileid : d'.fileidOf = d.fileidOf := by
    funext p
    simp [fileidOf, hh]
  refine ⟨⟨?_, ?_, ?_, ?_⟩, ?_, ?_, ?_, ?_⟩
  · simpa [hid, hh] using h.live
  · simpa [hl, hh] using h.place
  · simpa [hid, hino] using h.placed
  · simpa [hid, hino] using h.inj
  · simpa [hid, hfh] using h.same
  · simpa [hfh, hfileid] using h.fhPlaced
  · simpa [hid, hh] using h.ready
  · simpa [hid, hh] using h.keyInj

/-- An object has at most one inode. -/
theorem holds_unique (h : d.CacheOk) {p q : Addr} {fileid : UInt64} {fh : NfsFh}
    (hp : d.Holds p fileid fh) (hq : d.Holds q fileid fh) : p = q := by
  obtain ⟨hpm, i, hi, hif, hih⟩ := hp
  obtain ⟨hqm, j, hj, hjf, hjh⟩ := hq
  exact h.keyInj p hpm q hqm i j hi hj (hif.trans hjf.symm) (hih.trans hjh.symm)

/-- No error pointer is the address of an inode. -/
theorem not_nearBad (h : d.CacheOk) (hi : d.heap p = some i) : d.layout.nearBad p = false :=
  (h.place p i hi).2.2

end CacheOk

/-! ## Changing inodes -/

section setInode

variable {d : Daemon} {p : Addr} {i j : Inode}

theorem inoOf_setInode (hi : d.heap p = some i) (hij : i.SameId j) :
    (d.setInode p j).inoOf = d.inoOf := by
  funext q
  by_cases hq : q = p
  · subst hq
    rw [inoOf_eq hi, inoOf_eq (d.setInode_heap_self q j), hij.ino]
  · simp [inoOf, d.setInode_heap_of_ne hq]

theorem fileidOf_setInode (hi : d.heap p = some i) (hij : i.SameId j) :
    (d.setInode p j).fileidOf = d.fileidOf := by
  funext q
  by_cases hq : q = p
  · subst hq
    rw [fileidOf_eq hi, fileidOf_eq (d.setInode_heap_self q j), hij.fileid]
  · simp [fileidOf, d.setInode_heap_of_ne hq]

/-- An inode keeps its object and number when another one of the same identity is
written over some inode. -/
theorem heap_setInode_sameId (hi : d.heap p = some i) (hij : i.SameId j) {q : Addr} {k : Inode}
    (hk : (d.setInode p j).heap q = some k) : ∃ k', d.heap q = some k' ∧ k'.SameId k := by
  by_cases hq : q = p
  · subst hq
    rw [d.setInode_heap_self] at hk
    obtain rfl := Option.some.inj hk
    exact ⟨i, hi, hij⟩
  · rw [d.setInode_heap_of_ne hq] at hk
    exact ⟨k, hk, rfl, rfl, rfl, rfl, rfl⟩

/-- **Changing the attributes of an inode keeps the invariant.** -/
theorem CacheOk.setInode (h : d.CacheOk) (hi : d.heap p = some i) (hij : i.SameId j) :
    (d.setInode p j).CacheOk := by
  refine ⟨⟨?_, ?_, ?_, ?_⟩, h.same, ?_, ?_, ?_⟩
  · intro q hq
    by_cases hqp : q = p
    · exact ⟨j, hqp ▸ d.setInode_heap_self p j⟩
    · rw [d.setInode_heap_of_ne hqp]
      exact h.live q hq
  · intro q k hk
    obtain ⟨k', hk', -⟩ := heap_setInode_sameId hi hij hk
    exact h.place q k' hk'
  · rw [inoOf_setInode hi hij]
    exact h.placed
  · rw [inoOf_setInode hi hij]
    exact h.inj
  · rw [fileidOf_setInode hi hij]
    exact h.fhPlaced
  · intro q hq k hk
    obtain ⟨k', hk', hsame⟩ := heap_setInode_sameId hi hij hk
    exact hsame.ready (h.ready q hq k' hk')
  · intro q hq r hr k l hk hl hfileid hfh
    obtain ⟨k', hk', hks⟩ := heap_setInode_sameId hi hij hk
    obtain ⟨l', hl', hls⟩ := heap_setInode_sameId hi hij hl
    refine h.keyInj q hq r hr k' l' hk' hl' ?_ ?_
    · rw [← hks.fileid, ← hls.fileid, hfileid]
    · rw [← hks.fh, ← hls.fh, hfh]

end setInode

/-! ## Entering inodes -/

/-- Enter an inode into the cache. -/
def insert (d : Daemon) (p : Addr) (i : Inode) : Daemon :=
  { d.setInode p i with sb := { d.sb with
      currId := i.ino
      idTable := d.sb.idTable.add (hashMin i.ino) p
      fhTable := d.sb.fhTable.add (hashMin i.fileid) p } }

section insert

variable {d : Daemon} {p : Addr} {i : Inode}

@[simp] theorem mem_idTable_insert {q : Addr} :
    q ∈ (d.insert p i).sb.idTable ↔ q = p ∨ q ∈ d.sb.idTable := Chains.mem_add

@[simp] theorem insert_heap_self : (d.insert p i).heap p = some i := d.setInode_heap_self p i

theorem insert_heap_of_ne {q : Addr} (h : q ≠ p) : (d.insert p i).heap q = d.heap q :=
  d.setInode_heap_of_ne h i

theorem inoOf_insert_self : (d.insert p i).inoOf p = i.ino := inoOf_eq insert_heap_self

theorem inoOf_insert_of_ne {q : Addr} (h : q ≠ p) : (d.insert p i).inoOf q = d.inoOf q := by
  simp [inoOf, insert_heap_of_ne h]

theorem fileidOf_insert_self : (d.insert p i).fileidOf p = i.fileid := fileidOf_eq insert_heap_self

theorem fileidOf_insert_of_ne {q : Addr} (h : q ≠ p) :
    (d.insert p i).fileidOf q = d.fileidOf q := by
  simp [fileidOf, insert_heap_of_ne h]

/-- A table with a new inode on its own chain is placed by the new keys. -/
theorem Placed.insert {t : Chains hashSize Addr} {key key' : Addr → UInt64} {k : UInt64}
    (ht : t.Placed fun q ↦ hashMin (key q)) (hp : p ∉ t) (hself : key' p = k)
    (hne : ∀ q, q ≠ p → key' q = key q) :
    (t.add (hashMin k) p).Placed fun q ↦ hashMin (key' q) := by
  have ht' : t.Placed fun q ↦ hashMin (key' q) := by
    refine ht.congr fun q hq ↦ ?_
    rw [hne q fun h ↦ hp (h ▸ hq)]
  simpa [hself] using ht'.add hp

/-- **Entering an inode of a new object under a new number keeps the invariant.** -/
theorem CacheOk.insert (h : d.CacheOk) (hp : d.heap p = none) (hplace : Allocatable d.layout p)
    (hready : i.Ready) (hino : ¬ d.Numbered i.ino) (hkey : ∀ q, ¬ d.Holds q i.fileid i.fh) :
    (d.insert p i).CacheOk := by
  have hnotMem : p ∉ d.sb.idTable := by
    intro hm
    obtain ⟨j, hj⟩ := h.live p hm
    rw [hp] at hj
    exact nomatch hj
  have hold : ∀ q ∈ d.sb.idTable, q ≠ p := fun q hq hqp ↦ hnotMem (hqp ▸ hq)
  refine ⟨⟨?_, ?_, ?_, ?_⟩, ?_, ?_, ?_, ?_⟩
  · intro q hq
    rcases mem_idTable_insert.1 hq with rfl | hq
    · exact ⟨i, insert_heap_self⟩
    · rw [insert_heap_of_ne (hold q hq)]
      exact h.live q hq
  · intro q j hj
    by_cases hqp : q = p
    · exact hqp ▸ hplace
    · rw [insert_heap_of_ne hqp] at hj
      exact h.place q j hj
  · exact Placed.insert h.placed hnotMem inoOf_insert_self fun q ↦ inoOf_insert_of_ne
  · intro q hq r hr heq
    rcases mem_idTable_insert.1 hq with hqp | hq' <;>
      rcases mem_idTable_insert.1 hr with hrp | hr'
    · rw [hqp, hrp]
    · rw [hqp, inoOf_insert_self, inoOf_insert_of_ne (hold r hr')] at heq
      exact absurd ⟨r, hr', heq.symm⟩ hino
    · rw [hrp, inoOf_insert_self, inoOf_insert_of_ne (hold q hq')] at heq
      exact absurd ⟨q, hq', heq⟩ hino
    · rw [inoOf_insert_of_ne (hold q hq'), inoOf_insert_of_ne (hold r hr')] at heq
      exact h.inj q hq' r hr' heq
  · intro q
    rw [mem_idTable_insert]
    change q ∈ d.sb.fhTable.add (hashMin i.fileid) p ↔ _
    rw [Chains.mem_add, h.same]
  · exact Placed.insert h.fhPlaced (fun hm ↦ hnotMem ((h.same p).1 hm)) fileidOf_insert_self
      fun q ↦ fileidOf_insert_of_ne
  · intro q hq j hj
    rcases mem_idTable_insert.1 hq with rfl | hq
    · rw [insert_heap_self] at hj
      exact Option.some.inj hj ▸ hready
    · rw [insert_heap_of_ne (hold q hq)] at hj
      exact h.ready q hq j hj
  · intro q hq r hr j k hj hk hfileid hfh
    rcases mem_idTable_insert.1 hq with hqp | hq' <;>
      rcases mem_idTable_insert.1 hr with hrp | hr'
    · rw [hqp, hrp]
    · rw [hqp, insert_heap_self] at hj
      rw [insert_heap_of_ne (hold r hr')] at hk
      obtain rfl := Option.some.inj hj
      exact absurd ⟨hr', k, hk, hfileid.symm, hfh.symm⟩ (hkey r)
    · rw [insert_heap_of_ne (hold q hq')] at hj
      rw [hrp, insert_heap_self] at hk
      obtain rfl := Option.some.inj hk
      exact absurd ⟨hq', j, hj, hfileid, hfh⟩ (hkey q)
    · rw [insert_heap_of_ne (hold q hq')] at hj
      rw [insert_heap_of_ne (hold r hr')] at hk
      exact h.keyInj q hq' r hr' j k hj hk hfileid hfh

end insert

end Daemon

end Hsfs
