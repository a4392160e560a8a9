import Hsfs.Daemon.Fhget

/-!
# Runs of the inode cache

`Daemon.Fhget` says what one call of `hsi_nfs_fhget` can do to the daemon, and
`Daemon.Extends` what any number of them can do to the cache: inodes are added to
it, and nothing about an inode in it changes except its attributes.

From there the two properties of whole runs follow: two calls return the same inode
exactly if they are for the same object, and a number that has been given to an
inode keeps naming that inode and no other.
-/

namespace Hsfs

open Interact Table

namespace Daemon

/-! ## One call -/

/-- What a call of `hsi_nfs_fhget` returns and leaves behind. -/
inductive Fhget (d : Daemon) (fh : NfsFh) (fattr : NfsFattr) : Addr → Daemon → Prop
  /-- An error pointer, and no change. -/
  | bad {e : Addr} : d.BadPtr e → Fhget d fh fattr e d
  /-- The inode of the object, with its attributes refreshed. -/
  | found {p : Addr} {i : Inode} : fattr.Usable → p ∈ d.sb.idTable → d.heap p = some i →
      i.fileid = fattr.fileid → i.fh = fh → Fhget d fh fattr p (d.setInode p (i.refreshed fattr))
  /-- A new inode under a new number. -/
  | new {p : Addr} {id : UInt64} : fattr.Usable → (∀ q, ¬ d.Holds q fattr.fileid fh) →
      d.heap p = none → Allocatable d.layout p → d.FreshId id →
      Fhget d fh fattr p (d.insert p (newInode d.sb ⟨fh, fattr⟩ id))

/-- A call always returns, and does one of these things. -/
theorem CacheOk.wp_hsiNfsFhget {d : Daemon} {σ : Type} {S : Server Call Call.Res σ} {s : σ}
    {fh : NfsFh} {fattr : NfsFattr} (h : d.CacheOk) :
    Act.wp S (hsiNfsFhget fh fattr) (fun p d' _ ↦ Fhget d fh fattr p d')
      (fun _ _ _ ↦ False) d s := by
  rw [Act.wp]
  rcases h.hsiNfsFhget_cases fh fattr with ⟨-, e, he, hrun⟩ |
    ⟨hu, p, i, hp, hi, hfileid, hfh, hrun⟩ | ⟨hu, hnone, k, hrun, ⟨e, he, hk0⟩, hk⟩
  · rw [hrun]
    exact .bad he
  · rw [hrun]
    exact .found hu hp hi hfileid hfh
  · rw [hrun]
    intro r s' _
    cases r with
    | none =>
        rw [hk0]
        exact .bad he
    | some a =>
        obtain ⟨id, hfresh, hka⟩ := hk a
        obtain ⟨ha, hplace⟩ := heap_freeAddr a
        rw [hka]
        exact .new hu hnone ha hplace hfresh

/-- The cache has grown, and what was in it is still there: the same inodes, with the
same objects, numbers and lookup counts.  Inodes that are new have no lookups. -/
structure Extends (d d' : Daemon) : Prop where
  layout : d'.layout = d.layout
  keep : ∀ p i, d.heap p = some i → ∃ i', d'.heap p = some i' ∧ i.SameId i' ∧ i'.priv = i.priv
  mem : ∀ p ∈ d.sb.idTable, p ∈ d'.sb.idTable
  new : ∀ p ∈ d'.sb.idTable, p ∉ d.sb.idTable → ∃ i', d'.heap p = some i' ∧ i'.priv = 0

namespace Extends

variable {d d' d'' : Daemon}

theorem refl (d : Daemon) : d.Extends d where
  layout := rfl
  keep := fun _ i hi ↦ ⟨i, hi, ⟨rfl, rfl, rfl, rfl, rfl⟩, rfl⟩
  mem := fun _ hp ↦ hp
  new := fun _ hp hn ↦ absurd hp hn

theorem trans (h : d.Extends d') (h' : d'.Extends d'') : d.Extends d'' where
  layout := h'.layout.trans h.layout
  keep := by
    intro p i hi
    obtain ⟨i', hi', hs, hp⟩ := h.keep p i hi
    obtain ⟨i'', hi'', hs', hp'⟩ := h'.keep p i' hi'
    exact ⟨i'', hi'', ⟨hs'.ino.trans hs.ino, hs'.fileid.trans hs.fileid, hs'.fh.trans hs.fh,
      hs'.flags.trans hs.flags, hs'.iState.trans hs.iState⟩, hp'.trans hp⟩
  mem := fun p hp ↦ h'.mem p (h.mem p hp)
  new := by
    intro p hp hn
    by_cases hp' : p ∈ d'.sb.idTable
    · obtain ⟨i', hi', hz⟩ := h.new p hp' hn
      obtain ⟨i'', hi'', -, hpriv⟩ := h'.keep p i' hi'
      exact ⟨i'', hi'', hpriv.trans hz⟩
    · exact h'.new p hp hp'

/-- Changes outside the cache are none to it. -/
theorem of_eq (hl : d'.layout = d.layout) (hh : d'.heap = d.heap)
    (hid : d'.sb.idTable = d.sb.idTable) : d.Extends d' where
  layout := hl
  keep := fun _ i hi ↦ ⟨i, by rw [hh, hi], ⟨rfl, rfl, rfl, rfl, rfl⟩, rfl⟩
  mem := fun _ hp ↦ hid ▸ hp
  new := fun p hp hn ↦ absurd (hid ▸ hp) hn

/-- Changing the attributes of an inode. -/
theorem setInode {p : Addr} {i j : Inode} (hi : d.heap p = some i) (hs : i.SameId j)
    (hp : j.priv = i.priv) : d.Extends (d.setInode p j) where
  layout := rfl
  keep := by
    intro q k hk
    by_cases hq : q = p
    · subst hq
      rw [hi] at hk
      obtain rfl := Option.some.inj hk
      exact ⟨j, d.setInode_heap_self q j, hs, hp⟩
    · exact ⟨k, by rw [d.setInode_heap_of_ne hq, hk], ⟨rfl, rfl, rfl, rfl, rfl⟩, rfl⟩
  mem := fun _ hq ↦ hq
  new := fun _ hq hn ↦ absurd hq hn

/-- Entering an inode without lookups. -/
theorem insert {p : Addr} {i : Inode} (hp : d.heap p = none) (hi : i.priv = 0) :
    d.Extends (d.insert p i) where
  layout := rfl
  keep := by
    intro q j hj
    have hq : q ≠ p := by
      rintro rfl
      rw [hp] at hj
      exact nomatch hj
    exact ⟨j, by rw [insert_heap_of_ne hq, hj], ⟨rfl, rfl, rfl, rfl, rfl⟩, rfl⟩
  mem := fun _ hq ↦ mem_idTable_insert.2 (.inr hq)
  new := by
    intro q hq hn
    obtain rfl : q = p := (mem_idTable_insert.1 hq).resolve_right hn
    exact ⟨i, insert_heap_self, hi⟩

/-- The inode of an object stays the inode of that object. -/
theorem holds (h : d.Extends d') {p : Addr} {fileid : UInt64} {fh : NfsFh}
    (hp : d.Holds p fileid fh) : d'.Holds p fileid fh := by
  obtain ⟨hm, i, hi, hfileid, hfh⟩ := hp
  obtain ⟨i', hi', hs, -⟩ := h.keep p i hi
  exact ⟨h.mem p hm, i', hi', hs.fileid.trans hfileid, hs.fh.trans hfh⟩

/-- An inode keeps its number. -/
theorem inoOf (h : d.Extends d') (hd : d.CacheOk) {p : Addr} (hp : p ∈ d.sb.idTable) :
    d'.inoOf p = d.inoOf p := by
  obtain ⟨i, hi⟩ := hd.live p hp
  obtain ⟨i', hi', hs, -⟩ := h.keep p i hi
  rw [inoOf_eq hi, inoOf_eq hi', hs.ino]

end Extends

/-- A cached inode does not pass the test for an error pointer. -/
theorem CacheOk.isErr_eq_false {d : Daemon} (hd : d.CacheOk) {p : Addr} (hp : p ∈ d.sb.idTable) :
    isErr p = false := by
  obtain ⟨i, hi⟩ := hd.live p hp
  have hroom := (hd.place p i hi).2.1
  unfold sizeofHsfsInode at hroom
  exact isErr_of_lt (by omega)

namespace Fhget

variable {d d' : Daemon} {fh : NfsFh} {fattr : NfsFattr} {p : Addr}

/-- **A call keeps the invariant of the cache**, whatever the attributes are. -/
theorem cacheOk (h : Fhget d fh fattr p d') (hd : d.CacheOk) : d'.CacheOk := by
  cases h with
  | bad => exact hd
  | found _ _ hi => exact hd.setInode hi (Inode.refreshed_sameId _ _)
  | new _ hnone hp hplace hfresh =>
      exact hd.insert hp hplace (newInode_ready hfresh.ne_zero) hfresh.notNumbered hnone

/-- A call only adds to the cache. -/
theorem extends_ (h : Fhget d fh fattr p d') : d.Extends d' := by
  cases h with
  | bad => exact .refl d
  | found _ _ hi =>
      refine .setInode hi (Inode.refreshed_sameId _ _) ?_
      unfold Inode.refreshed
      split <;> rfl
  | new _ _ hp => exact .insert hp rfl

/-- What is returned is an error pointer or the inode of the object. -/
theorem holds (h : Fhget d fh fattr p d') : d.BadPtr p ∨ d'.Holds p fattr.fileid fh := by
  cases h with
  | bad he => exact .inl he
  | @found i _ hp hi hfileid hfh =>
      have hs := i.refreshed_sameId fattr
      exact .inr ⟨hp, _, setInode_heap_self _ _ _, hs.fileid.trans hfileid, hs.fh.trans hfh⟩
  | new => exact .inr ⟨mem_idTable_insert.2 (.inl rfl), _, insert_heap_self, rfl, rfl⟩

/-- Neither an inode nor an error pointer passes the test for an error pointer. -/
theorem isErr_eq_false (h : Fhget d fh fattr p d') (hd : d.CacheOk) : isErr p = false := by
  rcases h.holds with hbad | ⟨hmem, -⟩
  · exact hbad.notErr
  · exact (h.cacheOk hd).isErr_eq_false hmem

end Fhget

/-! ## Runs -/

/-- A daemon with an empty cache: nothing has been allocated yet, and
`hsfs_init_icache` has just been called with `curr_id` at zero. -/
def Booted (d : Daemon) : Prop :=
  ∃ d₀ : Daemon, (∀ p, d₀.heap p = none) ∧ hsfsInitIcache.run d₀ = .ret (.ok (), d) ∧
    d.sb.currId = 0

theorem Booted.heap {d : Daemon} (h : d.Booted) (p : Addr) : d.heap p = none := by
  obtain ⟨d₀, hd₀, hrun, -⟩ := h
  cases hrun
  exact hd₀ p

theorem Booted.notMem {d : Daemon} (h : d.Booted) (p : Addr) : p ∉ d.sb.idTable := by
  obtain ⟨d₀, -, hrun, -⟩ := h
  cases hrun
  exact Chains.notMem_empty p

/-- An empty cache satisfies the invariant. -/
theorem Booted.cacheOk {d : Daemon} (h : d.Booted) : d.CacheOk := by
  have hheap := h.heap
  obtain ⟨d₀, -, hrun, -⟩ := h
  cases hrun
  have hempty : ∀ p, p ∉ (Chains.empty : Chains hashSize Addr) := Chains.notMem_empty
  refine ⟨⟨fun p hp ↦ absurd hp (hempty p), fun p i hi ↦ ?_, .empty,
    fun p hp ↦ absurd hp (hempty p)⟩, fun p ↦ iff_of_false (hempty p) (hempty p), .empty,
    fun p hp ↦ absurd hp (hempty p), fun p hp ↦ absurd hp (hempty p)⟩
  rw [hheap p] at hi
  exact nomatch hi

end Daemon

open Daemon

/-- A call of `hsi_nfs_fhget` that has returned. -/
structure FhgetCall where
  fh : NfsFh
  fattr : NfsFattr
  ret : Addr

/-- The environment in which no allocation of an inode fails. -/
def allocates : Server Call Call.Res Unit := fun c _ r _ ↦
  match c, r with
  | .mallocInode _ _ _, none => False
  | _, _ => True

/-- A sequence of calls of `hsi_nfs_fhget` in an environment, from one state of the
daemon to another.  Numbers are given out in order, so that no sequence of calls is
long enough to use them all up; instead, `curr_id` may change to anything at any time
once an inode exists. -/
inductive FhgetRun (S : Server Call Call.Res Unit) (d₀ : Daemon) : List FhgetCall → Daemon → Prop
  /-- No call yet. -/
  | init : FhgetRun S d₀ [] d₀
  /-- One more call. -/
  | call {cs : List FhgetCall} {d d' : Daemon} {fh : NfsFh} {fattr : NfsFattr} {p : Addr} :
      FhgetRun S d₀ cs d → Prog.Exec S ((hsiNfsFhget fh fattr).run d) () (.ok p, d') () →
      FhgetRun S d₀ (cs ++ [⟨fh, fattr, p⟩]) d'
  /-- The counter has gone round. -/
  | wrap {cs : List FhgetCall} {d : Daemon} {p : Addr} (id : UInt64) :
      FhgetRun S d₀ cs d → p ∈ d.sb.idTable → FhgetRun S d₀ cs (d.setCurrId id)

namespace Daemon

/-- Every execution of a call is one of the three things a call can do. -/
theorem CacheOk.fhget_of_exec {S : Server Call Call.Res Unit} {d d' : Daemon} (h : d.CacheOk)
    {fh : NfsFh} {fattr : NfsFattr} {p : Addr}
    (hx : Prog.Exec S ((hsiNfsFhget fh fattr).run d) () (.ok p, d') ()) :
    Fhget d fh fattr p d' :=
  (Act.wp_iff_exec.1 (h.wp_hsiNfsFhget (S := S) (s := ()))).1 p d' () hx

theorem CacheOk.setCurrId {d : Daemon} (h : d.CacheOk) (id : UInt64) : (d.setCurrId id).CacheOk :=
  h.congr rfl rfl rfl rfl

/-- Without failing allocations, a call with usable attributes returns an inode. -/
theorem CacheOk.wp_hsiNfsFhget_allocates {d : Daemon} (h : d.CacheOk) (fh : NfsFh)
    {fattr : NfsFattr} (hu : fattr.Usable) :
    Act.wp allocates (hsiNfsFhget fh fattr) (fun p d' _ ↦ d'.Holds p fattr.fileid fh)
      (fun _ _ _ ↦ False) d () := by
  rw [Act.wp]
  rcases h.hsiNfsFhget_cases fh fattr with ⟨hnu, -⟩ |
    ⟨-, p, i, hp, hi, hfileid, hfh, hrun⟩ | ⟨-, hnone, k, hrun, -, hk⟩
  · exact absurd hu hnu
  · rw [hrun]
    have hs := i.refreshed_sameId fattr
    exact ⟨hp, _, setInode_heap_self _ _ _, hs.fileid.trans hfileid, hs.fh.trans hfh⟩
  · rw [hrun]
    intro r s' hS
    cases r with
    | none => exact hS.elim
    | some a =>
        obtain ⟨id, -, hka⟩ := hk a
        rw [hka]
        exact ⟨mem_idTable_insert.2 (.inl rfl), _, insert_heap_self, rfl, rfl⟩

end Daemon

namespace FhgetRun

variable {S : Server Call Call.Res Unit} {d₀ d : Daemon} {cs : List FhgetCall}

/-- **A run keeps the invariant and only adds to the cache.** -/
theorem cacheOk (hrun : FhgetRun S d₀ cs d) (h₀ : d₀.CacheOk) : d.CacheOk ∧ d₀.Extends d := by
  induction hrun with
  | init => exact ⟨h₀, .refl d₀⟩
  | call _ hx ih =>
      have hstep := ih.1.fhget_of_exec hx
      exact ⟨hstep.cacheOk ih.1, ih.2.trans hstep.extends_⟩
  | wrap id _ _ ih => exact ⟨ih.1.setCurrId id, ih.2.trans (.of_eq rfl rfl rfl)⟩

/-- The inodes that were returned are still the inodes of their objects. -/
theorem holds (hrun : FhgetRun allocates d₀ cs d) (h₀ : d₀.CacheOk)
    (hu : ∀ c ∈ cs, c.fattr.Usable) : ∀ c ∈ cs, d.Holds c.ret c.fattr.fileid c.fh := by
  induction hrun with
  | init => exact fun c hc ↦ absurd hc List.not_mem_nil
  | @call cs d d' fh fattr p hprev hx ih =>
      have hd := (hprev.cacheOk h₀).1
      have hext := (hd.fhget_of_exec hx).extends_
      intro c hc
      rcases List.mem_append.1 hc with hc | hc
      · exact hext.holds (ih (fun c hc ↦ hu c (List.mem_append_left _ hc)) c hc)
      · have hlast := hu c (List.mem_append_right _ hc)
        obtain rfl := List.mem_singleton.1 hc
        exact (Act.wp_iff_exec.1 (hd.wp_hsiNfsFhget_allocates fh hlast)).1 p d' () hx
  | wrap id _ _ ih => exact fun c hc ↦ (Extends.of_eq rfl rfl rfl).holds (ih hu c hc)

/-- Make calls one after the other, with the answers of a table. -/
def play (f : (c : Call) → Unit → Option (c.Res × Unit)) (cs : List FhgetCall) (d : Daemon) :
    List (NfsFh × NfsFattr) → Option (List FhgetCall × Daemon)
  | [] => some (cs, d)
  | (fh, fattr) :: rest =>
      match ((hsiNfsFhget fh fattr).run d).eval f () with
      | some ((.ok p, d'), ()) => play f (cs ++ [⟨fh, fattr, p⟩]) d' rest
      | _ => none

/-- Calls that were made are a run. -/
theorem of_play {f : (c : Call) → Unit → Option (c.Res × Unit)}
    (hf : ∀ c s r s', f c s = some (r, s') → S c s r s') {l : List (NfsFh × NfsFattr)}
    {cs' : List FhgetCall} {d' : Daemon} (hrun : FhgetRun S d₀ cs d)
    (h : play f cs d l = some (cs', d')) : FhgetRun S d₀ cs' d' := by
  induction l generalizing cs d with
  | nil =>
      cases h
      exact hrun
  | cons c l ih =>
      obtain ⟨fh, fattr⟩ := c
      rw [play] at h
      split at h
      · next p d'' heval => exact ih (hrun.call (Prog.exec_of_eval hf heval)) h
      · exact nomatch h

/-- Answers of an allocator that has some addresses to give. -/
def allocator (as : List Addr) : (c : Call) → Unit → Option (c.Res × Unit)
  | .mallocInode _ _ avoid, () => (FreeAddr.first avoid as).map fun a ↦ (some a, ())
  | _, () => none

theorem allocator_allocates (as : List Addr) (c : Call) (s : Unit) (r : c.Res) (s' : Unit)
    (h : allocator as c s = some (r, s')) : allocates c s r s' := by
  cases c with
  | mallocInode fileid fh avoid =>
      obtain ⟨a, -, ha⟩ := Option.map_eq_some_iff.1 h
      cases ha
      trivial
  | _ => exact nomatch h

/-- **One inode per object.**  Two calls return the same inode exactly if they were for
the same object, whatever came between them; and there is no call that does not
return an inode. -/
theorem ret_eq_iff_same_object (hboot : d₀.Booted) (hrun : FhgetRun allocates d₀ cs d)
    (hu : ∀ c ∈ cs, c.fattr.Usable) :
    (∀ c ∈ cs, c.ret ∈ d.sb.idTable) ∧
    (∀ c ∈ cs, ∀ c' ∈ cs,
      c.ret = c'.ret ↔ c.fattr.fileid = c'.fattr.fileid ∧ c.fh.1 = c'.fh.1) ∧
    ∀ fh fattr r d', fattr.Usable →
      Prog.Exec allocates ((hsiNfsFhget fh fattr).run d) () (r, d') () →
      ∃ p ∈ d'.sb.idTable, r = .ok p := by
  have hd := (hrun.cacheOk hboot.cacheOk).1
  have hholds := hrun.holds hboot.cacheOk hu
  refine ⟨fun c hc ↦ (hholds c hc).1, fun c hc c' hc' ↦ ⟨fun heq ↦ ?_, fun ⟨hfileid, hfh⟩ ↦ ?_⟩, ?_⟩
  · obtain ⟨-, i, hi, hif, hih⟩ := hholds c hc
    obtain ⟨-, j, hj, hjf, hjh⟩ := hholds c' hc'
    rw [← heq, hi] at hj
    obtain rfl := Option.some.inj hj
    exact ⟨hif.symm.trans hjf, congrArg Subtype.val (hih.symm.trans hjh)⟩
  · have hc'' := hholds c' hc'
    rw [← hfileid, ← Subtype.ext hfh] at hc''
    exact hd.holds_unique (hholds c hc) hc''
  · intro fh fattr r d' hua hx
    obtain ⟨hok, herr⟩ := Act.wp_iff_exec.1 (hd.wp_hsiNfsFhget_allocates fh hua)
    cases r with
    | ok p => exact ⟨p, (hok p d' () hx).1, rfl⟩
    | error e => exact (herr e d' () hx).elim

/-- Attributes of a directory with one link. -/
private def dirAttrs (fileid : UInt64) : NfsFattr :=
  hsiNfs3Fattr2fattr { (default : Fattr3) with type := 2, nlink := 2, fileid := fileid } .fresh

/-- Three objects, two of them with the same file number, and one of them twice. -/
private def someObjects : List (NfsFh × NfsFattr) :=
  [(NfsFh.ofByte 1, dirAttrs 7), (NfsFh.ofByte 2, dirAttrs 7), (NfsFh.ofByte 1, dirAttrs 8),
    (NfsFh.ofByte 1, dirAttrs 7)]

theorem booted_start (l : Layout) (o : MountOpts) : (Daemon.start l o).Booted :=
  ⟨.start l o, fun _ ↦ rfl, rfl, rfl⟩

theorem ret_eq_iff_same_object_play :
    ∃ cs d, play (allocator [0x10000, 0x20000, 0x30000]) [] (.start .sample .sample) someObjects =
        some (cs, d) ∧ cs.map FhgetCall.ret = [0x10000, 0x20000, 0x30000, 0x10000] ∧
      ∀ c ∈ cs, ∀ c' ∈ cs,
        c.ret = c'.ret ↔ c.fattr.fileid = c'.fattr.fileid ∧ c.fh.1 = c'.fh.1 := by
  have hplay : (play (allocator [0x10000, 0x20000, 0x30000]) [] (.start .sample .sample)
      someObjects).any (fun r ↦ r.1.map FhgetCall.ret == [0x10000, 0x20000, 0x30000, 0x10000] &&
        r.1.all fun c ↦ decide c.fattr.Usable) = true := by decide
  obtain ⟨⟨cs, d⟩, hcs, hall⟩ := (Option.any_eq_true _ _).1 hplay
  rw [Bool.and_eq_true, beq_iff_eq, List.all_eq_true] at hall
  have hrun := FhgetRun.of_play (allocator_allocates _) .init hcs
  exact ⟨cs, d, hcs, hall.1, (ret_eq_iff_same_object (booted_start _ _) hrun
    fun c hc ↦ of_decide_eq_true (hall.2 c hc)).2.1⟩

/-! ### Numbers -/

/-- The first call that did not return an error pointer, which is the one that made the
first inode. -/
def firstInode (l : Layout) (cs : List FhgetCall) : Option FhgetCall :=
  cs.find? fun c ↦ !l.nearBad c.ret

/-- Until the first inode is made no number has been given out, and from then on the
first inode has number one. -/
theorem firstInode_cases (hboot : d₀.Booted) (hrun : FhgetRun S d₀ cs d) :
    (firstInode d.layout cs = none ∧ d.sb.currId = 0 ∧ ∀ p, p ∉ d.sb.idTable) ∨
      ∃ c, firstInode d.layout cs = some c ∧ c.ret ∈ d.sb.idTable ∧ d.inoOf c.ret = 1 := by
  induction hrun with
  | init =>
      obtain ⟨-, -, -, h0⟩ := id hboot
      exact .inl ⟨rfl, h0, hboot.notMem⟩
  | @call cs d d' fh fattr p hprev hx ih =>
      have hd := (hprev.cacheOk hboot.cacheOk).1
      have hstep := hd.fhget_of_exec hx
      have hext := hstep.extends_
      rw [hext.layout, firstInode, List.find?_append]
      rcases ih with ⟨hnone, h0, hempty⟩ | ⟨c, hc, hmem, hino⟩
      · rw [firstInode] at hnone
        rw [hnone, Option.none_or, List.find?_singleton]
        cases hstep with
        | bad he =>
            rw [he.nearBad]
            exact .inl ⟨rfl, h0, hempty⟩
        | found _ hp => exact absurd hp (hempty p)
        | new _ _ _ hplace hfresh =>
            have hone := hfresh.first h0 fun ⟨q, hq, _⟩ ↦ hempty q hq
            rw [hplace.2.2]
            exact .inr ⟨⟨fh, fattr, p⟩, rfl, mem_idTable_insert.2 (.inl rfl),
              inoOf_insert_self.trans hone⟩
      · rw [firstInode] at hc
        rw [hc, Option.some_or]
        exact .inr ⟨c, rfl, hext.mem _ hmem, (hext.inoOf hd hmem).trans hino⟩
  | wrap id _ hp ih =>
      rcases ih with ⟨-, -, hempty⟩ | hfirst
      · exact absurd hp (hempty _)
      · exact .inr hfirst

/-- What holds of the numbers in the cache after the calls `cs`. -/
structure Numbers (cs : List FhgetCall) (d : Daemon) : Prop where
  /-- The two tables hold the same inodes. -/
  same : ∀ p, p ∈ d.sb.fhTable ↔ p ∈ d.sb.idTable
  /-- An inode occurs once in the id table, in the bucket of its number. -/
  idOnce : ∀ p ∈ d.sb.idTable, ∀ b,
    (d.sb.idTable b).count p = if b = hashMin (d.inoOf p) then 1 else 0
  /-- An inode occurs once in the handle table, in the bucket of its file number. -/
  fhOnce : ∀ p ∈ d.sb.fhTable, ∀ b,
    (d.sb.fhTable b).count p = if b = hashMin (d.fileidOf p) then 1 else 0
  /-- No inode has number zero. -/
  ne_zero : ∀ p ∈ d.sb.idTable, d.inoOf p ≠ 0
  /-- No two inodes have the same number. -/
  inj : ∀ p ∈ d.sb.idTable, ∀ q ∈ d.sb.idTable, d.inoOf p = d.inoOf q → p = q
  /-- Number one is that of the first inode and of no other. -/
  first : ∀ p ∈ d.sb.idTable,
    d.inoOf p = 1 ↔ (firstInode d.layout cs).map FhgetCall.ret = some p
  /-- A number leads to the inode that has it. -/
  lookup : ∀ n p, (hsfsIlookup n).run d = .ret (.ok (some p), d) ↔
    p ∈ d.sb.idTable ∧ d.inoOf p = n
  /-- A number that no inode has leads nowhere. -/
  lookup_none : ∀ n, (hsfsIlookup n).run d = .ret (.ok none, d) ↔
    ∀ p ∈ d.sb.idTable, d.inoOf p ≠ n
  /-- A number goes on leading to the same inode, whatever calls follow. -/
  stable : ∀ n p cs' d', (hsfsIlookup n).run d = .ret (.ok (some p), d) →
    FhgetRun Server.any d cs' d' → (hsfsIlookup n).run d' = .ret (.ok (some p), d')
  /-- A further call returns: the search for a number ends. -/
  returns : ∀ fh fattr r d',
    Prog.Exec Server.any ((hsiNfsFhget fh fattr).run d) () (r, d') () → ∃ p, r = .ok p

end FhgetRun

namespace Daemon.CacheOk

variable {d : Daemon}

/-- A number leads exactly to the inode that has it. -/
theorem hsfsIlookup_eq_some_iff (h : d.CacheOk) {n : UInt64} {p : Addr} :
    (hsfsIlookup n).run d = .ret (.ok (some p), d) ↔ p ∈ d.sb.idTable ∧ d.inoOf p = n := by
  rcases h.hsfsIlookup_cases n with ⟨q, hq, hino, hrun⟩ | ⟨hnone, hrun⟩
  · rw [hrun]
    constructor
    · intro heq
      cases heq
      exact ⟨hq, hino⟩
    · rintro ⟨hp, hpn⟩
      rw [h.inj q hq p hp (hino.trans hpn.symm)]
  · rw [hrun]
    exact ⟨fun heq ↦ (nomatch heq), fun ⟨hp, hpn⟩ ↦ absurd ⟨p, hp, hpn⟩ hnone⟩

/-- The address that a number leads to, without the access to it. -/
theorem ilookup_eq_some_iff (h : d.CacheOk) {n : UInt64} {p : Addr} :
    d.ilookup n = some p ↔ p ∈ d.sb.idTable ∧ d.inoOf p = n := by
  rw [← h.hsfsIlookup_eq_some_iff]
  rcases d.hsfsIlookup_cases n with ⟨hl, hrun⟩ | ⟨q, i, hl, -, hrun⟩ | ⟨q, hl, hq, hrun⟩
  · rw [hl, hrun]
    exact ⟨fun heq ↦ (nomatch heq), fun heq ↦ nomatch heq⟩
  · rw [hl, hrun]
    constructor
    · intro heq
      cases heq
      rfl
    · intro heq
      cases heq
      rfl
  · obtain ⟨i, hi⟩ := h.live q (Chains.find_eq_some hl).1
    rw [hq] at hi
    exact nomatch hi

theorem hsfsIlookup_eq_none_iff (h : d.CacheOk) {n : UInt64} :
    (hsfsIlookup n).run d = .ret (.ok none, d) ↔ ∀ p ∈ d.sb.idTable, d.inoOf p ≠ n := by
  rcases h.hsfsIlookup_cases n with ⟨q, hq, hino, hrun⟩ | ⟨hnone, hrun⟩
  · rw [hrun]
    exact ⟨fun heq ↦ (nomatch heq), fun hall ↦ absurd hino (hall q hq)⟩
  · rw [hrun]
    exact ⟨fun _ p hp hpn ↦ hnone ⟨p, hp, hpn⟩, fun _ ↦ rfl⟩

end Daemon.CacheOk

namespace FhgetRun

variable {d₀ d : Daemon} {cs : List FhgetCall}

/-- **The numbers of the cache.** -/
theorem numbers (hboot : d₀.Booted) (hrun : FhgetRun Server.any d₀ cs d) : Numbers cs d := by
  have hd := (hrun.cacheOk hboot.cacheOk).1
  refine ⟨hd.same, fun p hp ↦ hd.placed.count_eq hp, fun p hp ↦ hd.fhPlaced.count_eq hp, ?_, hd.inj,
    ?_, fun n p ↦ hd.hsfsIlookup_eq_some_iff, fun n ↦ hd.hsfsIlookup_eq_none_iff, ?_, ?_⟩
  · intro p hp
    obtain ⟨i, hi⟩ := hd.live p hp
    rw [inoOf_eq hi]
    exact (hd.ready p hp i hi).numbered
  · intro p hp
    rcases hrun.firstInode_cases hboot with ⟨-, -, hempty⟩ | ⟨c, hc, hmem, hino⟩
    · exact absurd hp (hempty p)
    · rw [hc, Option.map_some, Option.some_inj]
      exact ⟨fun hp1 ↦ hd.inj _ hmem p hp (hino.trans hp1.symm), fun heq ↦ heq ▸ hino⟩
  · intro n p cs' d' hn hrun'
    obtain ⟨hp, hino⟩ := hd.hsfsIlookup_eq_some_iff.1 hn
    obtain ⟨hd', hext⟩ := hrun'.cacheOk hd
    exact hd'.hsfsIlookup_eq_some_iff.2 ⟨hext.mem p hp, (hext.inoOf hd hp).trans hino⟩
  · intro fh fattr r d' hx
    cases r with
    | ok p => exact ⟨p, rfl⟩
    | error e =>
        exact ((Act.wp_iff_exec.1 (hd.wp_hsiNfsFhget (S := Server.any) (s := ()))).2 e d'
          () hx).elim

theorem numbers_play :
    ∃ cs d, play (allocator [0x10000, 0x20000, 0x30000]) [] (.start .sample .sample) someObjects =
        some (cs, d) ∧ [0x10000, 0x20000, 0x30000].map d.inoOf = [1, 2, 3] ∧ Numbers cs d := by
  have hplay : (play (allocator [0x10000, 0x20000, 0x30000]) [] (.start .sample .sample)
      someObjects).any (fun r ↦ [0x10000, 0x20000, 0x30000].map r.2.inoOf == [1, 2, 3]) = true := by
    decide
  obtain ⟨⟨cs, d⟩, hcs, hinos⟩ := (Option.any_eq_true _ _).1 hplay
  have hrun := FhgetRun.of_play (S := Server.any) (fun _ _ _ _ _ ↦ trivial) .init hcs
  exact ⟨cs, d, hcs, beq_iff_eq.1 hinos, numbers (booted_start _ _) hrun⟩

end FhgetRun

end Hsfs
