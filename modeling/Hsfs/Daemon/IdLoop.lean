import Hsfs.Daemon.Cache
import Mathlib.Data.Finset.Card
import Mathlib.Data.List.Find
import Mathlib.Order.Interval.Finset.Nat
import Mathlib.Logic.Function.Iterate

/-!
# Numbers for new inodes

A new inode gets the next number that no cached inode has.  Numbers are 64-bit
words that wrap around, so the search is a loop that could run forever; it does
not, because there are fewer places for an inode in memory than there are numbers.

What the search needs of the id table is that its inodes are in memory and on the chains
of their numbers, `IdHashed`: then one chain decides whether a number is taken, and the
search ends if any number above one is free.  That one is free follows from the whole
invariant of the table, `IdTableOk`: everything in memory is at a place of its own.
-/

namespace Hsfs

open Interact Table

namespace Daemon

/-- The number of the inode at an address. -/
def inoOf (d : Daemon) (p : Addr) : UInt64 := ((d.heap p).map Inode.ino).getD 0

theorem inoOf_eq {d : Daemon} {p : Addr} {i : Inode} (h : d.heap p = some i) :
    d.inoOf p = i.ino := by
  simp [inoOf, h]

/-- The number belongs to a cached inode. -/
def Numbered (d : Daemon) (ino : UInt64) : Prop := ∃ p ∈ d.sb.idTable, d.inoOf p = ino

/-- An address at which the allocator may have put an inode. -/
def Allocatable (l : Layout) (p : Addr) : Prop :=
  p ≠ 0 ∧ p.toNat + sizeofHsfsInode ≤ 2 ^ 64 - 4096 ∧ l.nearBad p = false

/-- The invariant of the id table. -/
structure IdTableOk (d : Daemon) : Prop where
  /-- A cached inode is in memory. -/
  live : ∀ p ∈ d.sb.idTable, ∃ i, d.heap p = some i
  /-- Everything in memory is where the allocator may have put it. -/
  place : ∀ p i, d.heap p = some i → Allocatable d.layout p
  /-- The inodes are on the chains of their numbers, each once. -/
  placed : d.sb.idTable.Placed fun p ↦ hashMin (d.inoOf p)
  /-- No two inodes have the same number. -/
  inj : ∀ p ∈ d.sb.idTable, ∀ q ∈ d.sb.idTable, d.inoOf p = d.inoOf q → p = q

/-- The table is one: its inodes are in memory, on the chains of their numbers. -/
structure IdHashed (d : Daemon) : Prop where
  /-- A cached inode is in memory. -/
  live : ∀ p ∈ d.sb.idTable, ∃ i, d.heap p = some i
  /-- The inodes are on the chains of their numbers, each once. -/
  placed : d.sb.idTable.Placed fun p ↦ hashMin (d.inoOf p)

theorem IdTableOk.idHashed {d : Daemon} (h : d.IdTableOk) : d.IdHashed := ⟨h.live, h.placed⟩

/-- Set the last number given out. -/
def setCurrId (d : Daemon) (id : UInt64) : Daemon := { d with sb := { d.sb with currId := id } }

end Daemon

/-! ## Looking a number up -/

/-- A walk over inodes that are all in memory finds what the table finds. -/
theorem hashFind_run {d : Daemon} {t : Chains hashSize Addr} {key : UInt64} {test : Inode → Bool}
    (hlive : ∀ p ∈ t (hashMin key), ∃ i, d.heap p = some i) :
    (hashFind t key test).run d = .ret (.ok (t.find (hashMin key) (d.stopsAt test)), d) := by
  simp only [hashFind, Act.run_bind, Act.run_get, Prog.bind_ret, Act.cont_ok]
  cases hf : t.find (hashMin key) (d.stopsAt test) with
  | none => rfl
  | some p =>
      obtain ⟨i, hi⟩ := hlive p (List.mem_of_find?_eq_some hf)
      simp [hi]

/-- **A walk visits one chain.**  What it finds depends on nothing but the inodes there. -/
theorem find_stopsAt_congr {d d' : Daemon} {t t' : Chains hashSize Addr} {key : UInt64}
    (test : Inode → Bool) (hchain : t' (hashMin key) = t (hashMin key))
    (hheap : ∀ p ∈ t (hashMin key), d'.heap p = d.heap p) :
    t'.find (hashMin key) (d'.stopsAt test) = t.find (hashMin key) (d.stopsAt test) := by
  rw [Chains.find, Chains.find, hchain]
  refine List.find?_congr fun p hp ↦ ?_
  rw [Daemon.stopsAt, Daemon.stopsAt, hheap p hp]

namespace Daemon.IdHashed

variable {d : Daemon}

/-- **A number is found exactly if an inode has it.** -/
theorem hsfsIlookup_cases (h : d.IdHashed) (ino : UInt64) :
    (∃ p ∈ d.sb.idTable, d.inoOf p = ino ∧ (hsfsIlookup ino).run d = .ret (.ok (some p), d)) ∨
      (¬ d.Numbered ino ∧ (hsfsIlookup ino).run d = .ret (.ok none, d)) := by
  have hrun : (hsfsIlookup ino).run d = .ret (.ok (d.sb.idTable.find (hashMin ino)
      (d.stopsAt fun inode ↦ inode.ino == ino)), d) := hashFind_run fun p hp ↦ h.live p ⟨_, hp⟩
  have htest : ∀ p ∈ d.sb.idTable,
      d.stopsAt (fun inode ↦ inode.ino == ino) p = true ↔ d.inoOf p = ino := by
    intro p hp
    obtain ⟨i, hi⟩ := h.live p hp
    simp [stopsAt, hi, inoOf_eq hi]
  have hbucket : ∀ p ∈ d.sb.idTable,
      d.stopsAt (fun inode ↦ inode.ino == ino) p = true → hashMin (d.inoOf p) = hashMin ino :=
    fun p hp hs ↦ congrArg hashMin ((htest p hp).1 hs)
  cases hf : d.sb.idTable.find (hashMin ino) (d.stopsAt fun inode ↦ inode.ino == ino) with
  | none =>
      refine .inr ⟨?_, hf ▸ hrun⟩
      rintro ⟨p, hp, hino⟩
      have hn := (h.placed.find_eq_none_iff hbucket).1 hf p hp
      rw [(htest p hp).2 hino] at hn
      exact Bool.noConfusion hn
  | some p =>
      obtain ⟨hp, hs⟩ := Chains.find_eq_some hf
      exact .inl ⟨p, hp, (htest p hp).1 hs, hf ▸ hrun⟩

end Daemon.IdHashed

/-- The same of a table with the whole invariant. -/
theorem Daemon.IdTableOk.hsfsIlookup_cases {d : Daemon} (h : d.IdTableOk) (ino : UInt64) :
    (∃ p ∈ d.sb.idTable, d.inoOf p = ino ∧ (hsfsIlookup ino).run d = .ret (.ok (some p), d)) ∨
      (¬ d.Numbered ino ∧ (hsfsIlookup ino).run d = .ret (.ok none, d)) :=
  h.idHashed.hsfsIlookup_cases ino

/-! ## The numbers the loop goes through -/

theorem nextId_ne_zero (id : UInt64) : nextId id ≠ 0 := by
  unfold nextId
  split
  · decide
  · assumption

theorem nextId_eq_one {id : UInt64} (h : nextId id = 1) : id = 0 := by
  unfold nextId at h
  split at h
  · exact absurd h (by decide)
  · simpa using h

theorem nextId_toNat {id : UInt64} (h : id.toNat + 1 < 2 ^ 64) :
    (nextId id).toNat = id.toNat + 1 := by
  have hadd : (id + 1).toNat = id.toNat + 1 := by
    rw [UInt64.toNat_add, UInt64.toNat_one, Nat.mod_eq_of_lt h]
  have hne : id + 1 ≠ 0 := by
    intro h0
    rw [h0] at hadd
    exact absurd hadd (by simp)
  rw [nextId, if_neg hne, hadd]

theorem iterate_nextId_toNat (j : Nat) (id : UInt64) (h : id.toNat + j < 2 ^ 64) :
    (nextId^[j] id).toNat = id.toNat + j := by
  induction j with
  | zero => rfl
  | succ j ih =>
      have hj := ih (by omega)
      rw [Function.iterate_succ_apply', nextId_toNat (by omega), hj, Nat.add_assoc]

/-- Every number but zero and one comes up within `idRounds` rounds. -/
theorem exists_iterate_nextId (id n : UInt64) (hn : 2 ≤ n.toNat) :
    ∃ j < idRounds, nextId^[j + 1] id = n := by
  have hid := id.toNat_lt
  have hnlt := n.toNat_lt
  simp only [idRounds]
  by_cases hlt : id.toNat < n.toNat
  · refine ⟨n.toNat - id.toNat - 1, by omega, UInt64.toNat_inj.1 ?_⟩
    rw [iterate_nextId_toNat _ _ (by omega)]
    omega
  · -- first up to the largest number, then once around, then up from two
    have hmax : nextId^[2 ^ 64 - id.toNat] id = 2 := by
      rw [show 2 ^ 64 - id.toNat = (2 ^ 64 - 1 - id.toNat) + 1 by omega,
        Function.iterate_succ_apply']
      have hm := iterate_nextId_toNat (2 ^ 64 - 1 - id.toNat) id (by omega)
      rw [show nextId^[2 ^ 64 - 1 - id.toNat] id = 0xFFFFFFFFFFFFFFFF from
        UInt64.toNat_inj.1 (by rw [hm]; simp; omega)]
      decide
    refine ⟨2 ^ 64 - id.toNat + (n.toNat - 2) - 1, by omega, UInt64.toNat_inj.1 ?_⟩
    rw [show 2 ^ 64 - id.toNat + (n.toNat - 2) - 1 + 1 = (n.toNat - 2) + (2 ^ 64 - id.toNat) by
      omega, Function.iterate_add_apply, hmax, iterate_nextId_toNat _ _ (by simp; omega)]
    simp
    omega

/-- Zero never comes up. -/
theorem iterate_nextId_ne_zero (j : Nat) (id : UInt64) : nextId^[j + 1] id ≠ 0 := by
  rw [Function.iterate_succ_apply']
  exact nextId_ne_zero _

/-- One comes up first, if at all. -/
theorem iterate_nextId_eq_one {j : Nat} {id : UInt64} (h : nextId^[j + 1] id = 1) : id = 0 := by
  rw [Function.iterate_succ_apply'] at h
  have hzero := nextId_eq_one h
  cases j with
  | zero => exact hzero
  | succ j => exact absurd hzero (iterate_nextId_ne_zero j id)

/-! ## The search ends -/

/-- One round: the next number, and the rest of the loop if an inode has it. -/
theorem idLoop_succ_run (rounds : Nat) (d : Daemon) :
    (idLoop (rounds + 1)).run d = ((hsfsIlookup (d.setCurrId (nextId d.sb.currId)).sb.currId).run
      (d.setCurrId (nextId d.sb.currId))).bind (Act.cont fun
        | some _ => idLoop rounds
        | none => pure ()) := rfl

/-- The loop changes nothing but the last number given out. -/
theorem idLoop_cases (rounds : Nat) (d : Daemon) :
    ∃ out id, (idLoop rounds).run d = .ret (out, d.setCurrId id) := by
  induction rounds generalizing d with
  | zero => exact ⟨.error .running, d.sb.currId, rfl⟩
  | succ rounds ih =>
      let d' := d.setCurrId (nextId d.sb.currId)
      rw [idLoop_succ_run]
      rcases d'.hsfsIlookup_cases d'.sb.currId with ⟨-, hrun⟩ | ⟨p, i, -, -, hrun⟩ | ⟨p, -, -, hrun⟩
      · exact ⟨.ok (), d'.sb.currId, by rw [hrun]; rfl⟩
      · obtain ⟨out, id, hloop⟩ := ih d'
        exact ⟨out, id, by rw [hrun]; exact hloop⟩
      · exact ⟨.error .segv, d'.sb.currId, by rw [hrun]; rfl⟩

namespace Daemon.IdTableOk

variable {d : Daemon}

/-- There are more numbers than places in memory. -/
theorem exists_not_numbered (h : d.IdTableOk) : ∃ n : UInt64, 2 ≤ n.toNat ∧ ¬ d.Numbered n := by
  classical
  by_contra hall
  push Not at hall
  have hex : ∀ n : Nat, 2 ≤ n → n < 2 ^ 64 → ∃ p ∈ d.sb.idTable, (d.inoOf p).toNat = n := by
    intro n h2 hlt
    have hn : (UInt64.ofNat n).toNat = n := by
      rw [UInt64.toNat_ofNat', Nat.mod_eq_of_lt hlt]
    obtain ⟨p, hp, hino⟩ := hall (UInt64.ofNat n) (by omega)
    exact ⟨p, hp, by rw [hino, hn]⟩
  choose! f hf hino using hex
  obtain ⟨m, hm, n, hn, hne, heq⟩ := Finset.exists_ne_map_eq_of_card_lt_of_maps_to
    (s := Finset.Ico 2 (2 ^ 64)) (t := Finset.range (2 ^ 64 - 4096))
    (by rw [Nat.card_Ico, Finset.card_range]; omega)
    (f := fun n ↦ (f n).toNat) (by
      intro n hn
      obtain ⟨h2, hlt⟩ := Finset.mem_Ico.1 hn
      obtain ⟨i, hi⟩ := h.live _ (hf n h2 hlt)
      have hroom := (h.place _ i hi).2.1
      simp only [sizeofHsfsInode] at hroom
      simp only [Finset.coe_range, Set.mem_Iio]
      omega)
  obtain ⟨hm2, hmlt⟩ := Finset.mem_Ico.1 hm
  obtain ⟨hn2, hnlt⟩ := Finset.mem_Ico.1 hn
  apply hne
  rw [← hino m hm2 hmlt, ← hino n hn2 hnlt, UInt64.toNat_inj.1 heq]

end Daemon.IdTableOk

namespace Daemon.IdHashed

variable {d : Daemon}

theorem setCurrId (h : d.IdHashed) (id : UInt64) : (d.setCurrId id).IdHashed :=
  ⟨h.live, h.placed⟩

/-- The loop stops at the first number that is free, if it is given the rounds to get there. -/
theorem idLoop_run_first (h : d.IdHashed) {rounds j : Nat} (hj : j < rounds)
    (hfree : ¬ d.Numbered (nextId^[j + 1] d.sb.currId))
    (hbefore : ∀ k < j, d.Numbered (nextId^[k + 1] d.sb.currId)) :
    (idLoop rounds).run d = .ret (.ok (), d.setCurrId (nextId^[j + 1] d.sb.currId)) := by
  induction rounds generalizing d j with
  | zero => exact absurd hj (Nat.not_lt_zero j)
  | succ rounds ih =>
      let d' := d.setCurrId (nextId d.sb.currId)
      have h' : d'.IdHashed := h.setCurrId _
      rw [idLoop_succ_run]
      rcases h'.hsfsIlookup_cases d'.sb.currId with ⟨p, hp, hino, hrun⟩ | ⟨hnone, hrun⟩
      · -- the number is taken, so the loop goes on from here with one round less
        rw [hrun]
        cases j with
        | zero => exact absurd ⟨p, hp, hino⟩ hfree
        | succ j =>
            exact ih h' (Nat.lt_of_succ_lt_succ hj) hfree fun k hk ↦ hbefore (k + 1) (by omega)
      · rw [hrun]
        cases j with
        | zero => rfl
        | succ j => exact absurd (hbefore 0 (Nat.succ_pos j)) hnone

/-- If some number above one is free, there is a first free one, and the rounds suffice for it. -/
theorem exists_first {n : UInt64} (hn : 2 ≤ n.toNat) (hfree : ¬ d.Numbered n) :
    ∃ j < idRounds, ¬ d.Numbered (nextId^[j + 1] d.sb.currId) ∧
      ∀ k < j, d.Numbered (nextId^[k + 1] d.sb.currId) := by
  classical
  obtain ⟨m, hm, hmn⟩ := exists_iterate_nextId d.sb.currId n hn
  have hex : ∃ j, ¬ d.Numbered (nextId^[j + 1] d.sb.currId) := ⟨m, hmn ▸ hfree⟩
  refine ⟨Nat.find hex, ?_, Nat.find_spec hex, fun k hk ↦ not_not.1 (Nat.find_min hex hk)⟩
  exact Nat.lt_of_le_of_lt (Nat.find_min' hex (hmn ▸ hfree)) hm

end Daemon.IdHashed

/-- **The search ends with a number that is free.**  It is not zero, it is one only
if none was given out before, and it is one then unless one is taken. -/
theorem Daemon.IdTableOk.idLoop_run {d : Daemon} (h : d.IdTableOk) :
    ∃ id, (idLoop idRounds).run d = .ret (.ok (), d.setCurrId id) ∧ ¬ d.Numbered id ∧ id ≠ 0 ∧
      (id = 1 → d.sb.currId = 0) ∧ (d.sb.currId = 0 → ¬ d.Numbered 1 → id = 1) := by
  obtain ⟨n, hn, hnum⟩ := h.exists_not_numbered
  obtain ⟨j, hj, hfree, hbefore⟩ := IdHashed.exists_first hn hnum
  refine ⟨_, h.idHashed.idLoop_run_first hj hfree hbefore, hfree, iterate_nextId_ne_zero j _,
    iterate_nextId_eq_one, fun h0 hnum1 ↦ ?_⟩
  have hone : nextId^[0 + 1] d.sb.currId = 1 := by
    rw [h0]
    rfl
  cases j with
  | zero => exact hone
  | succ j => exact absurd (hone ▸ hbefore 0 (Nat.succ_pos j)) hnum1

/-! ## Any table with a free number -/

/-- The entry of an inode into the tables, under the number that the search ends with. -/
theorem inodeAddToLists_of_idLoop {d : Daemon} {id : UInt64}
    (hloop : (idLoop idRounds).run d = .ret (.ok (), d.setCurrId id)) (key : UInt64) {p : Addr}
    {i : Inode} (hi : d.heap p = some i) :
    ∃ d', (inodeAddToLists key p).run d = .ret (.ok (), d') ∧ d'.inoOf p = id ∧
      d'.sb.idTable = d.sb.idTable.add (hashMin id) p := by
  have hi' : (d.setCurrId id).heap p = some i := hi
  rw [inodeAddToLists, Act.run_bind_of_ret hloop, Act.run_bind_of_ret Act.run_get,
    Act.run_bind_of_ret (update_run hi' _)]
  refine ⟨_, rfl, ?_, rfl⟩
  exact Daemon.inoOf_eq ((d.setCurrId id).setInode_heap_self p _)

/-- A number that `__id_ifind` is asked for is decided by one chain: any process with the same
inodes on this chain finds the same, and nothing is found just if no cached inode has the number. -/
def Daemon.DecidedByChain (d : Daemon) (key : UInt64) : Prop :=
  ∃ r : Option Addr, (r = none ↔ ¬ d.Numbered key) ∧
    ∀ d' : Daemon, d'.sb.idTable (hashMin key) = d.sb.idTable (hashMin key) →
      (∀ p ∈ d.sb.idTable (hashMin key), d'.heap p = d.heap p) →
      (idIfind key).run d' = .ret (.ok r, d')

theorem Daemon.IdHashed.decidedByChain {d : Daemon} (h : d.IdHashed) (key : UInt64) :
    d.DecidedByChain key := by
  refine ⟨d.sb.idTable.find (hashMin key) (d.stopsAt fun inode ↦ inode.ino == key), ?_,
    fun d' hchain hheap ↦ ?_⟩
  · have hrun : (hsfsIlookup key).run d = _ := hashFind_run fun p hp ↦ h.live p ⟨_, hp⟩
    rcases h.hsfsIlookup_cases key with ⟨p, hp, hino, hrun'⟩ | ⟨hnone, hrun'⟩
    · rw [Except.ok.inj (congrArg Prod.fst (Prog.ret.inj (hrun.symm.trans hrun')))]
      exact iff_of_false (Option.some_ne_none p) (not_not_intro ⟨p, hp, hino⟩)
    · rw [Except.ok.inj (congrArg Prod.fst (Prog.ret.inj (hrun.symm.trans hrun')))]
      exact iff_of_true rfl hnone
  · have hlive : ∀ p ∈ d'.sb.idTable (hashMin key), ∃ i, d'.heap p = some i := by
      intro p hp
      rw [hchain] at hp
      rw [hheap p hp]
      exact h.live p ⟨_, hp⟩
    rw [← find_stopsAt_congr _ hchain hheap]
    exact hashFind_run hlive

/-- **A new inode gets a fresh number.**  Whatever the last number is, if any number above one is
free, the search ends, with all numbers of rounds from `idRounds` on, and the inode is entered under
the number it ends with.  Every number is decided by its own chain. -/
theorem inodeAddToLists_fresh (d : Daemon) (h : d.IdHashed)
    (hfree : ∃ n : UInt64, 2 ≤ n.toNat ∧ ¬ d.Numbered n) (key : UInt64) (p : Addr) (i : Inode)
    (hi : d.heap p = some i) :
    (∃ id d', (∀ rounds, idRounds ≤ rounds →
        (idLoop rounds).run d = .ret (.ok (), d.setCurrId id)) ∧
      (inodeAddToLists key p).run d = .ret (.ok (), d') ∧ d'.inoOf p = id ∧
      d'.sb.idTable = d.sb.idTable.add (hashMin id) p ∧
      id ≠ 0 ∧ ¬ d.Numbered id ∧ (id = 1 → d.sb.currId = 0)) ∧
    ∀ candidate, d.DecidedByChain candidate := by
  obtain ⟨n, hn, hnum⟩ := hfree
  obtain ⟨j, hj, hnew, hbefore⟩ := Daemon.IdHashed.exists_first hn hnum
  have hloop : ∀ rounds, idRounds ≤ rounds → (idLoop rounds).run d = _ := fun rounds hle ↦
    h.idLoop_run_first (Nat.lt_of_lt_of_le hj hle) hnew hbefore
  obtain ⟨d', hadd, hino, htable⟩ := inodeAddToLists_of_idLoop (hloop _ (Nat.le_refl _)) key hi
  exact ⟨⟨_, d', hloop, hadd, hino, htable, iterate_nextId_ne_zero j _, hnew,
    iterate_nextId_eq_one⟩, h.decidedByChain⟩

/-- A process before its first request. -/
def plainDaemon : Daemon := .start .sample .sample

/-- A process that has given out the largest number, in which an inode has the number two, and a new
one has been allocated. -/
def wrappedDaemon : Daemon :=
  { (plainDaemon.setInode 0x2000000 .zero).setInode 0x1000000 { Inode.zero with ino := 2 } with
    sb := { plainDaemon.sb with
      idTable := Chains.empty.add (hashMin 2) 0x1000000
      currId := 0xFFFFFFFFFFFFFFFF } }

theorem wrappedDaemon_heap : wrappedDaemon.heap 0x1000000 = some { Inode.zero with ino := 2 } := by
  rw [wrappedDaemon, Daemon.setInode_heap_self]

theorem wrappedDaemon_heap_new : wrappedDaemon.heap 0x2000000 = some .zero := by
  rw [wrappedDaemon, Daemon.setInode_heap_of_ne _ (by decide), Daemon.setInode_heap_self]

theorem inoOf_wrappedDaemon : wrappedDaemon.inoOf 0x1000000 = 2 :=
  Daemon.inoOf_eq wrappedDaemon_heap

theorem eq_of_mem_wrappedDaemon {p : Addr} (hp : p ∈ wrappedDaemon.sb.idTable) : p = 0x1000000 := by
  rw [wrappedDaemon, Chains.mem_add] at hp
  exact hp.resolve_right (Chains.notMem_empty p)

theorem idHashed_wrappedDaemon : wrappedDaemon.IdHashed := by
  refine ⟨fun p hp ↦ ?_, ?_⟩
  · rw [eq_of_mem_wrappedDaemon hp]
    exact ⟨_, wrappedDaemon_heap⟩
  · have hplaced := (Chains.Placed.empty (h := fun p ↦ hashMin (wrappedDaemon.inoOf p))).add
      (Chains.notMem_empty 0x1000000)
    rw [inoOf_wrappedDaemon] at hplaced
    exact hplaced

/-- The search goes around the end of the numbers and passes two. -/
theorem inodeAddToLists_fresh_wrapped : 0x2000000 ∉ wrappedDaemon.sb.idTable ∧
    ∃ id d', (inodeAddToLists 7 0x2000000).run wrappedDaemon = .ret (.ok (), d') ∧
      d'.inoOf 0x2000000 = id ∧ id ≠ 0 ∧ ¬ wrappedDaemon.Numbered id := by
  have hfree : ∃ n : UInt64, 2 ≤ n.toNat ∧ ¬ wrappedDaemon.Numbered n := by
    refine ⟨3, by decide, ?_⟩
    rintro ⟨p, hp, hino⟩
    rw [eq_of_mem_wrappedDaemon hp, inoOf_wrappedDaemon] at hino
    exact absurd hino (by decide)
  obtain ⟨⟨id, d', -, hadd, hino, -, hne, hnum, -⟩, -⟩ := inodeAddToLists_fresh wrappedDaemon
    idHashed_wrappedDaemon hfree 7 0x2000000 _ wrappedDaemon_heap_new
  exact ⟨fun h ↦ absurd (eq_of_mem_wrappedDaemon h) (by decide), id, d', hadd, hino, hne, hnum⟩

end Hsfs
