import Hsfs.Fuse.Frame

/-!
# Releasing forgotten inodes

When the kernel has given back all lookups of an inode, `hsx_fuse_forget` puts it.  A new inode
starts with a count of zero references, nothing ever takes one, and `hsfs_iput` frees an inode only
when the count has come down to zero: the first put makes it negative, and the inode stays.  An
inode whose count has gone all the way around is freed, but not taken out of the tables.
-/

namespace Hsfs

open Interact Interact.Act Daemon

/-! ## Putting an inode -/

/-- The daemon after a forget that gives back `nlookup` lookups of an inode. -/
def Daemon.forgotten (d : Daemon) (p : Addr) (i : Inode) (nlookup : UInt64) : Daemon :=
  let counted := (d.noted p).setInode p { i with priv := i.priv - nlookup }
  let put := if i.priv - nlookup = 0 then counted.afterIput p { i with priv := i.priv - nlookup }
    else counted
  { put with replies := put.replies ++ [.none] }

section run

variable {d : Daemon} {p : Addr} {i : Inode} {ino nlookup : UInt64}

@[simp] theorem Daemon.afterIput_sb : (d.afterIput p i).sb = d.sb := by
  unfold Daemon.afterIput
  split <;> rfl

@[simp] theorem Daemon.forgotten_sb : (d.forgotten p i nlookup).sb = d.sb := by
  change (if i.priv - nlookup = 0 then _ else _ : Daemon).sb = d.sb
  split
  · rw [Daemon.afterIput_sb]
    rfl
  · rfl

/-- A put that does not free keeps the invariant of the cache. -/
theorem Daemon.CacheOk.afterIput (hd : d.CacheOk) (hi : d.heap p = some i)
    (hkeep : ¬ (i.iCount = 1 ∧ i.iNlink ≠ 0)) : (d.afterIput p i).CacheOk := by
  have hcount : ¬ (i.iCount - 1 = 0 ∧ i.iNlink ≠ 0) :=
    fun h ↦ hkeep ⟨(Int32.sub_eq_iff_eq_add.1 h.1).trans (Int32.zero_add 1), h.2⟩
  rw [Daemon.afterIput, if_neg hcount]
  exact hd.setInode hi ⟨rfl, rfl, rfl, rfl, rfl⟩

theorem Daemon.CacheOk.forgotten (hd : d.CacheOk) (hi : d.heap p = some i)
    (hkeep : i.priv = nlookup → ¬ (i.iCount = 1 ∧ i.iNlink ≠ 0)) :
    (d.forgotten p i nlookup).CacheOk := by
  have hcounted : ((d.noted p).setInode p { i with priv := i.priv - nlookup }).CacheOk :=
    (hd.setInode hi (j := { i with priv := i.priv - nlookup }) ⟨rfl, rfl, rfl, rfl, rfl⟩).congr
      rfl rfl rfl rfl
  unfold Daemon.forgotten
  dsimp only
  split
  · next hzero =>
      have hput := hcounted.afterIput (Daemon.setInode_heap_self _ p _)
        (hkeep (sub_eq_zero.1 hzero))
      exact hput.congr rfl rfl rfl rfl
  · exact hcounted.congr rfl rfl rfl rfl

/-- **`hsx_fuse_forget` of a cached inode.** -/
theorem hsxFuseForget_run (nlookup : UInt64) (hp : p ≠ Addr.null) (hl : d.ilookup ino = some p)
    (hi : d.heap p = some i) :
    (hsxFuseForget ino nlookup).run d =
      if nlookup ≤ i.priv then .ret (.ok (), d.forgotten p i nlookup)
      else .ret (.error (.abort .refDec), d.noted p) := by
  unfold hsxFuseForget
  rw [run_bind_of_ret (hsfsIlookup_run hl hi)]
  dsimp only
  by_cases hle : nlookup ≤ i.priv
  · rw [if_pos hle, run_bind_of_ret ((hsxFuseRefDec_run hi nlookup).trans (if_pos hle))]
    unfold Daemon.forgotten
    dsimp only
    by_cases hzero : i.priv - nlookup = 0
    · rw [if_pos hzero, if_pos hzero,
        run_bind_of_ret (hsfsIput_run hp (Daemon.setInode_heap_self _ p _))]
      rfl
    · rw [if_neg hzero, if_neg hzero]
      rfl
  · rw [if_neg hle, run_bind, (hsxFuseRefDec_run hi nlookup).trans (if_neg hle)]
    rfl

end run

/-! ## Requests that free no inode -/

/-- No inode is put for the last time: a forget does not give back all lookups of an inode other
than the root, nor those of the root when the put would free it, and the counts outlast a listing
that is given up. -/
def Request.Spares (d : Daemon) (es : List Event) : Request → Prop
  | .forget ino nlookup => ∀ p i, d.ilookup ino = some p → d.heap p = some i → i.priv = nlookup →
      p = d.sb.root ∧ ¬ (i.iCount = 1 ∧ i.iNlink ≠ 0)
  | .readdirplus _ _ _ => d.OutlastsListings es
  | _ => True

/-- The handler leaves the cache in order if no inode is put for the last time. -/
abbrev SparesCache (d : Daemon) (spares : List Event → Prop) (x : Hs Unit) : Prop :=
  Ends (fun es _ d' ↦ spares es → d'.CacheOk) (fun es _ d' ↦ spares es → d'.CacheOk) x d

/-- What `hsx_fuse_readdir_plus` does with a listing puts nothing, and gets no further listing. -/
theorem keepsCache_answerPlus (size : UInt64) (err : Int) (cs : List ReaddirCtx) :
    Evolves KeepsCache (if err ≠ 0 then fuseReply (.err err) else do
      if ← malloc then
        let entries ← addDirentsPlus size.toNat cs 0
        fuseReply (.direntsPlus entries)
      else
        fuseReply (.err Errno.nomem) : Hs Unit) := by
  have hr := EntryFrame.keepsCache
  exact .ite (hr.err _) <| hr.bind hr.malloc fun _ ↦
    .ite (hr.bind (hr.addDirentsPlus _ _ _) fun _ ↦ hr.answer _) (hr.err _)

section handlers

variable {d : Daemon} (hd : d.CacheOk)

include hd

theorem sparesCache_of_evolves {spares : List Event → Prop} {x : Hs Unit}
    (hx : Evolves KeepsCache x) : SparesCache d spares x :=
  (Ends.of_evolves hx d).mono (fun _ _ _ h _ ↦ h hd) fun _ _ _ h _ ↦ h hd

theorem sparesCache_forget (ino nlookup : UInt64) :
    SparesCache d ((Request.forget ino nlookup).Spares d) (hsxFuseForget ino nlookup) := by
  have hpos : ∀ p i, d.heap p = some i → p ≠ Addr.null := fun p i hi ↦ (hd.place p i hi).1
  cases hl : d.ilookup ino with
  | none =>
      refine hd.ends_ilookup (fun _ ↦ .of_fault rfl fun _ ↦ hd) fun p i hp _ ↦ ?_
      rw [hl] at hp
      exact nomatch hp
  | some p =>
      obtain ⟨i, hi⟩ := hd.live p (hd.ilookup_eq_some_iff.1 hl).1
      have hrun := hsxFuseForget_run nlookup (hpos p i hi) hl hi
      by_cases hle : nlookup ≤ i.priv
      · exact .of_ret (hrun.trans (if_pos hle))
          fun hspares ↦ hd.forgotten hi fun hlast ↦ (hspares p i hl hi hlast).2
      · exact .of_fault (hrun.trans (if_neg hle)) fun _ ↦ hd.congr rfl rfl rfl rfl

theorem sparesCache_readdirPlus (ino size off : UInt64) :
    SparesCache d d.OutlastsListings (hsxFuseReaddirPlus ino size off) := by
  refine hd.ends_ilookup (fun _ ↦ .of_fault rfl fun _ ↦ hd) fun p i _ hi ↦ ?_
  refine Ends.bind (hd.ends_hsiNfs3ReaddirPlus hi _ off _) ?_ ?_
  · rintro es ⟨err, cs⟩ d₁ hplus
    have hd₁ : d.OutlastsListings es → d₁.CacheOk := by
      intro hout
      cases hplus with
      | failed _ _ _ hd₀ hputs hnone => exact hputs.cacheOk hd₀ (hnone hout)
      | listed _ _ _ hl => exact hl.cacheOk
    have hmono : ∀ es', d.OutlastsListings (es ++ es') → d.OutlastsListings es :=
      fun es' hout resok hres ↦ hout resok (by
        rw [listings_append]
        exact List.mem_append_left _ hres)
    exact (Ends.of_evolves (keepsCache_answerPlus size err cs) d₁).mono
      (fun es' _ _ h hout ↦ h (hd₁ (hmono es' hout)))
      fun es' _ _ h hout ↦ h (hd₁ (hmono es' hout))
  · exact fun es _ _ hnot hout ↦ absurd hout hnot

/-- **A request that puts no inode for the last time leaves the cache in order.** -/
theorem Request.sparesCache (rounds : Nat) (req : Request) :
    SparesCache d (req.Spares d) (req.handle rounds) := by
  cases req with
  | forget ino nlookup => exact sparesCache_forget hd ino nlookup
  | readdirplus ino size off => exact sparesCache_readdirPlus hd ino size.toUInt64 off
  | readdir ino size off =>
      exact sparesCache_of_evolves hd
        (EntryFrame.keepsCache.hsxFuseReaddir HandleFrame.keepsCache.readdir ino _ off)
  | _ => exact sparesCache_of_evolves hd (EntryFrame.keepsCache.handle rounds rfl rfl)

/-- A forget leaves the cache in order, if it does not free the inode. -/
theorem ends_forget_cacheOk (ino nlookup : UInt64) :
    Ends (fun _ _ d' ↦ d'.NoneFreed → d'.CacheOk) (fun _ _ _ ↦ True)
      (hsxFuseForget ino nlookup) d := by
  refine hd.ends_ilookup (fun _ ↦ .of_fault rfl trivial) fun p i _ hi ↦ ?_
  by_cases hle : nlookup ≤ i.priv
  · have hd₁ : ((d.noted p).setInode p { i with priv := i.priv - nlookup }).CacheOk :=
      (hd.setInode hi (j := { i with priv := i.priv - nlookup }) ⟨rfl, rfl, rfl, rfl, rfl⟩).congr
        rfl rfl rfl rfl
    refine .ret_bind ((hsxFuseRefDec_run hi nlookup).trans (if_pos hle)) ?_
    change Ends _ _ (if i.priv - nlookup = 0 then _ else _) _
    split
    · refine Ends.bind (.of_evolves (Puts.iput p) _) (fun es _ d' hputs ↦ ?_) fun _ _ _ _ ↦ trivial
      exact .of_ret rfl fun hnone ↦ (hputs.cacheOk hd₁ hnone).congr rfl rfl rfl rfl
    · exact .of_ret rfl fun _ ↦ hd₁.congr rfl rfl rfl rfl
  · exact .fault_bind ((hsxFuseRefDec_run hi nlookup).trans (if_neg hle)) trivial

/-- So does a listing with attributes. -/
theorem ends_readdirPlus_cacheOk (ino size off : UInt64) :
    Ends (fun _ _ d' ↦ d'.NoneFreed → d'.CacheOk) (fun _ _ _ ↦ True)
      (hsxFuseReaddirPlus ino size off) d := by
  refine hd.ends_ilookup (fun _ ↦ .of_fault rfl trivial) fun p i _ hi ↦ ?_
  refine Ends.bind (hd.ends_hsiNfs3ReaddirPlus hi _ off _) ?_ fun _ _ _ _ ↦ trivial
  rintro es ⟨err, cs⟩ d₁ hplus
  cases hplus with
  | failed herr _ _ hd₀ hputs _ =>
      dsimp only at herr ⊢
      rw [if_pos herr]
      exact .of_ret rfl fun hnone ↦ (hputs.cacheOk hd₀ hnone).congr rfl rfl rfl rfl
  | listed _ _ _ hl =>
      exact (Ends.of_evolves (keepsCache_answerPlus size 0 cs) d₁).mono
        (fun _ _ _ h _ ↦ h hl.cacheOk) fun _ _ _ _ ↦ trivial

/-- **A request that frees no cached inode leaves the cache in order.** -/
theorem Request.ends_cacheOk (rounds : Nat) (req : Request) :
    Ends (fun _ _ d' ↦ d'.NoneFreed → d'.CacheOk) (fun _ _ _ ↦ True) (req.handle rounds) d := by
  have hkeeps {x : Hs Unit} (hx : Evolves KeepsCache x) :
      Ends (fun _ _ d' ↦ d'.NoneFreed → d'.CacheOk) (fun _ _ _ ↦ True) x d :=
    (Ends.of_evolves hx d).mono (fun _ _ _ h _ ↦ h hd) fun _ _ _ _ ↦ trivial
  cases req with
  | forget ino nlookup => exact ends_forget_cacheOk hd ino nlookup
  | readdirplus ino size off => exact ends_readdirPlus_cacheOk hd ino size.toUInt64 off
  | readdir ino size off =>
      exact hkeeps (EntryFrame.keepsCache.hsxFuseReaddir HandleFrame.keepsCache.readdir ino _ off)
  | _ => exact hkeeps (EntryFrame.keepsCache.handle rounds rfl rfl)

end handlers

/-! ## Whole sessions -/

/-- A step that puts no inode for the last time. -/
def Step.Spares (s : Step) : Prop := s.req.Spares s.before s.events

/-- The cache is in order in all states of a session whose steps put no inode for the last time. -/
theorem Session.cacheOk {steps : List Step} {d : Daemon}
    (h : Session (fun _ s ↦ s.Spares) steps d) :
    d.CacheOk := by
  induction h with
  | mounted hd => exact hd.extends_start.1
  | step _ hs hok ih =>
      obtain ⟨rounds, hx⟩ := hs
      exact (Request.sparesCache ih rounds _).exec_ok hx hok

/-- **The cache is in order in every session in which no cached inode is freed.** -/
theorem Session.cacheOk_of_noneFreed {steps : List Step} {d : Daemon}
    (h : Session (fun _ s ↦ s.after.NoneFreed) steps d) : d.CacheOk := by
  induction h with
  | mounted hd => exact hd.extends_start.1
  | step _ hs hok ih =>
      obtain ⟨rounds, hx⟩ := hs
      exact (Request.ends_cacheOk ih rounds _).exec_ok hx hok

/-- No table contains an inode that has been freed. -/
def Daemon.NoDangling (d : Daemon) : Prop :=
  ∀ p, p ∈ d.sb.idTable ∨ p ∈ d.sb.fhTable → d.heap p ≠ none

theorem Daemon.CacheOk.noDangling {d : Daemon} (hd : d.CacheOk) : d.NoDangling := by
  rintro p hp
  have hmem : p ∈ d.sb.idTable := hp.elim id (hd.same p).1
  exact Option.isSome_iff_ne_none.1 (hd.noneFreed p hmem)

/-- The step is a forget that gives back all lookups of an inode other than the root. -/
structure Step.Forgets (s : Step) (p : Addr) (i : Inode) : Prop where
  request : ∃ ino, s.req = .forget ino i.priv ∧ s.before.ilookup ino = some p
  inode : s.before.heap p = some i
  notRoot : p ≠ s.before.sb.root

/-- An inode has been freed, and is in no table: there is no inode of its number or of its
object. -/
structure Daemon.Released (d : Daemon) (p : Addr) (i : Inode) : Prop where
  freed : d.heap p = none
  idTable : p ∉ d.sb.idTable
  fhTable : p ∉ d.sb.fhTable
  number : d.ilookup i.ino = none
  object : ∀ q, ¬ d.Holds q i.fileid i.fh

/-- What is to hold after a step: a forgotten inode has been released. -/
def Step.Releases (s : Step) : Prop := ∀ p i, s.Forgets p i → s.after.Released p i

theorem Step.Spares.not_forgets {s : Step} (h : s.Spares) (p : Addr) (i : Inode) :
    ¬ s.Forgets p i := by
  rintro ⟨⟨ino, hreq, hl⟩, hi, hroot⟩
  unfold Step.Spares at h
  rw [hreq] at h
  exact hroot (h p i hl hi rfl).1

/-- **A forgotten inode is not released**: it stays in the tables. -/
theorem Step.Forgets.mem {s : Step} {p : Addr} {i : Inode} (h : s.Forgets p i)
    (hd : s.before.CacheOk) (hs : s.req.Handled s.before s.events s.after) :
    p ∈ s.after.sb.idTable := by
  obtain ⟨⟨ino, hreq, hl⟩, hi, -⟩ := h
  obtain ⟨rounds, hx⟩ := hs
  rw [hreq] at hx
  have hrun := hsxFuseForget_run i.priv (hd.place p i hi).1 hl hi
  have hends : Ends (fun _ _ d' ↦ d'.sb = s.before.sb) (fun _ _ _ ↦ True)
      (hsxFuseForget ino i.priv) s.before :=
    .of_ret (hrun.trans (if_pos (UInt64.le_refl _))) Daemon.forgotten_sb
  rw [hends.exec_ok hx]
  exact (hd.ilookup_eq_some_iff.1 hl).1

/-- **In a session in which no inode is put for the last time, the tables contain no freed inode**,
and no step was to release one.  This cannot be had otherwise: no inode that is forgotten next is
released. -/
theorem Session.released {steps : List Step} {d : Daemon}
    (h : Session (fun _ s ↦ s.Spares) steps d) :
    d.NoDangling ∧ (∀ s ∈ steps, s.Releases) ∧
      ∀ s : Step, s.before = d → s.req.Handled s.before s.events s.after →
        ∀ p i, s.Forgets p i → ¬ s.Releases := by
  refine ⟨h.cacheOk.noDangling, ?_, ?_⟩
  · induction h with
    | mounted => exact fun _ hs ↦ absurd hs List.not_mem_nil
    | step _ _ hok ih =>
        intro s hs p i hforgets
        rcases List.mem_cons.1 hs with rfl | hs
        · exact absurd hforgets (hok.not_forgets p i)
        · exact ih s hs p i hforgets
  · rintro s rfl hs p i hforgets hreleases
    exact (hreleases p i hforgets).idTable (hforgets.mem h.cacheOk hs)

/-- A file is looked up twice and forgotten once. -/
theorem Session.released_lookup :
    ∃ steps d, Session (fun _ s ↦ s.Spares) steps d ∧ steps.length = 4 ∧ d.NoDangling := by
  let ok : List Step → Step → Bool := fun _ s ↦ match s.req with
    | .init | .lookup _ _ => true
    | .forget ino nlookup =>
        ((s.before.ilookup ino).bind s.before.heap).all fun i ↦ i.priv != nlookup
    | _ => false
  have hplay : (sampleMount.bind fun d ↦ playSession ok sampleAnswer 0
      [.init, .lookup 1 [102], .lookup 1 [102], .forget 2 1] [] d).any
        (fun r ↦ r.1.length = 4) = true := by decide +kernel
  obtain ⟨⟨steps, d⟩, hplay, hlen⟩ := (Option.any_eq_true _ _).1 hplay
  obtain ⟨d₀, hd₀, hplay⟩ := Option.bind_eq_some_iff.1 hplay
  have hs : Session (fun _ s ↦ s.Spares) steps d := by
    refine (Session.of_play (.mounted (mounted_of_play hd₀)) hplay).mono fun steps s hok ↦ ?_
    obtain ⟨before, req, es, after⟩ := s
    cases req with
    | init => exact trivial
    | lookup _ _ => exact trivial
    | forget ino nlookup =>
        intro p i hl hi hlast
        have hall : ((before.ilookup ino).bind before.heap).all (fun i ↦ i.priv != nlookup) =
          true :=
          hok
        rw [hl, Option.bind_some, hi, Option.all_some] at hall
        exact absurd hlast (bne_iff_ne.1 hall)
    | _ => exact nomatch hok
  exact ⟨steps, d, hs, of_decide_eq_true hlen, (Session.released hs).1⟩

/-- A file is looked up and forgotten, and stays in the cache. -/
theorem Session.not_released :
    ¬ ∀ steps d, Session (fun _ _ ↦ True) steps d → d.NoDangling ∧ ∀ s ∈ steps, s.Releases := by
  intro h
  have hplay : (sampleMount.bind fun d ↦ playSession (fun _ _ ↦ true) sampleAnswer 0
      [.init, .lookup 1 [102], .forget 2 1] [] d).any (fun r ↦ r.1.head?.any fun s ↦
        decide (s.req = .forget 2 1 ∧ s.before.ilookup 2 = some 0x20000 ∧
          s.before.sb.root ≠ 0x20000 ∧ 0x20000 ∈ s.after.sb.idTable) &&
        (s.before.heap 0x20000).any fun i ↦ i.priv == 1) = true := by decide +kernel
  obtain ⟨⟨steps, d⟩, hplay, hlast⟩ := (Option.any_eq_true _ _).1 hplay
  obtain ⟨d₀, hd₀, hplay⟩ := Option.bind_eq_some_iff.1 hplay
  obtain ⟨s, hs, hlast⟩ := (Option.any_eq_true _ _).1 hlast
  obtain ⟨hlast, hone⟩ := Bool.and_eq_true_iff.1 hlast
  obtain ⟨hreq, hl, hroot, hmem⟩ := of_decide_eq_true hlast
  obtain ⟨i, hi, hone⟩ := (Option.any_eq_true _ _).1 hone
  have hforgets : s.Forgets 0x20000 i := ⟨⟨2, eq_of_beq hone ▸ hreq, hl⟩, hi, hroot.symm⟩
  have hsession : Session (fun _ _ ↦ True) steps d :=
    (Session.of_play (.mounted (mounted_of_play hd₀)) hplay).mono fun _ _ _ ↦ trivial
  exact ((h steps d hsession).2 s (List.mem_of_mem_head? hs) _ i hforgets).idTable hmem

end Hsfs
