import Hsfs.Fuse.Lookups
import Hsfs.Nfs3.Plus
import Hsfs.Table.Fill

/-!
# How full a listing is

`hsx_fuse_readdir` and `hsx_fuse_readdir_plus` put the entries that the server has sent into a
buffer of the size that the kernel asked for.  Both stop at an entry that would fill the buffer to
its end, so they reply with the longest prefix that fits just if no prefix fills the buffer
(`listings_fill_iff`).  To the kernel an empty listing is the end of the directory.
-/

namespace Hsfs

open Interact Interact.Act Daemon

/-! ## What is put into the buffer -/

/-- An entry as `fuse_add_direntry` writes it. -/
def Shown.dirent (s : Shown) : Dirent := ⟨s.stIno, s.name, s.off⟩

/-- How much of the buffer an entry takes. -/
def Dirent.size (e : Dirent) : Nat := fuseAddDirentry e.name

/-- What tells an entry of a listing from the others: its name, and where to go on after it. -/
structure Place where
  name : Name
  off : UInt64
  deriving DecidableEq

def Shown.place (s : Shown) : Place := ⟨s.name, s.off⟩

def DirentPlus.place (e : DirentPlus) : Place := ⟨e.name, e.off⟩

/-- How much of the buffer an entry with attributes takes. -/
def Place.size (e : Place) : Nat := fuseAddDirentryPlus e.name

/-- What `hsx_fuse_readdir` could list of a reply. -/
def Readdir3resok.dirents (resok : Readdir3resok) : List Dirent :=
  (resok.entries.map Entry3.shown).map Shown.dirent

/-- What `hsx_fuse_readdir_plus` could list of a reply. -/
def Readdirplus3resok.places (resok : Readdirplus3resok) : List Place :=
  ((resok.entries.map Entryplus3.plain).map Entry3.shown).map Shown.place

/-- **The loop of `hsx_fuse_readdir`.** -/
theorem addDirents_eq_fillLoosely (size : Nat) (ctx : List ReaddirCtx) (len : Nat) :
    addDirents size ctx len =
      fillLoosely Dirent.size (size - len) ((ctx.map ReaddirCtx.shown).map Shown.dirent) := by
  induction ctx generalizing len with
  | nil => rfl
  | cons c ctx ih =>
      rw [addDirents, ih, ← Nat.sub_sub]
      rfl

/-- **The loop of `hsx_fuse_readdir_plus`.** -/
theorem ends_addDirentsPlus (size : Nat) (ctx : List ReaddirCtx) (len : Nat) (d : Daemon) :
    Ends (fun _ ds _ ↦ ds.map DirentPlus.place =
        fillLoosely Place.size (size - len) ((ctx.map ReaddirCtx.shown).map Shown.place))
      (fun _ _ _ ↦ True) (addDirentsPlus size ctx len) d := by
  induction ctx generalizing len d with
  | nil => exact .pure rfl
  | cons c ctx ih =>
      have hany {α : Type} (x : Hs α) (d : Daemon) :
          Ends (fun _ _ _ ↦ True) (fun _ _ _ ↦ True) x d :=
        .of_forall (fun _ _ _ ↦ trivial) fun _ _ _ ↦ trivial
      unfold addDirentsPlus
      refine (hany (hsxFuseFillReply c.inode) d).bind (fun _ e d₁ _ ↦ ?_) fun _ _ _ h ↦ h
      by_cases hfull : fuseAddDirentryPlus c.name ≥ size - len
      · rw [if_pos hfull]
        exact .pure (if_pos hfull).symm
      · rw [if_neg hfull]
        refine (hany (hsxFuseRefInc c.inode 1) d₁).bind (fun _ _ d₂ _ ↦ ?_) fun _ _ _ h ↦ h
        refine (ih (len + fuseAddDirentryPlus c.name) d₂).bind (fun _ more _ hmore ↦ ?_)
          fun _ _ _ h ↦ h
        refine .pure ?_
        rw [List.map_cons, hmore, ← Nat.sub_sub]
        exact (if_neg hfull).symm

/-! ## The replies -/

/-- Nothing but the last reply has been sent. -/
theorem Silent.reply_inj {d d₁ : Daemon} {es : List Event} (h : Silent d es d₁) {r r' : Reply}
    (heq : d₁.replies ++ [r] = d.replies ++ [r']) : r = r' := by
  rw [h.replies] at heq
  exact List.singleton_inj.1 (List.append_cancel_left heq)

/-- **`hsx_fuse_readdir`.** -/
theorem Daemon.CacheOk.ends_hsxFuseReaddir {d : Daemon} (hd : d.CacheOk) (ino size off : UInt64) :
    Ends (fun es _ d' ↦ ∀ resok ∈ plainListings es, ∀ ds, d'.replies = d.replies ++ [.dirents ds] →
        ds = fillLoosely Dirent.size size.toNat resok.dirents)
      (fun _ _ _ ↦ True) (hsxFuseReaddir ino size off) d := by
  refine hd.ends_ilookup (fun _ ↦ .of_fault rfl trivial) fun p i _ hi ↦ ?_
  refine ((ends_readdir_shown hi size.toUInt32 off).and
    (.of_evolves (HandleFrame.silent.readdir p size.toUInt32 off) d)).bind ?_ fun _ _ _ _ ↦ trivial
  rintro es ⟨err, ctx⟩ d₁ ⟨hshown, hquiet⟩
  dsimp only
  by_cases herr : err ≠ 0
  · rw [if_pos herr]
    refine .of_ret rfl fun _ _ ds hds ↦ ?_
    cases hquiet.reply_inj hds
  · rw [if_neg herr]
    refine ends_malloc_bind fun got ↦ ?_
    cases got with
    | false =>
        refine .of_ret rfl fun _ _ ds hds ↦ ?_
        cases hquiet.reply_inj hds
    | true =>
        refine .of_ret rfl fun resok hresok ds hds ↦ ?_
        have hmem : resok ∈ plainListings es := by
          rw [plainListings, picked_append] at hresok
          exact (List.mem_append.1 hresok).resolve_right List.not_mem_nil
        obtain rfl := Reply.dirents.inj (hquiet.reply_inj hds)
        rw [addDirents_eq_fillLoosely, hshown (not_not.1 herr) resok hmem]
        rfl

/-- **`hsx_fuse_readdir_plus`.** -/
theorem Daemon.CacheOk.ends_hsxFuseReaddirPlus {d : Daemon} (hd : d.CacheOk)
    (ino size off : UInt64) :
    Ends (fun es _ d' ↦ ∀ resok ∈ listings es, ∀ ds, d'.replies = d.replies ++ [.direntsPlus ds] →
        ds.map DirentPlus.place = fillLoosely Place.size size.toNat resok.places ∧
        d.Counts (fun n ↦ (ds.countP fun e ↦ e.entry.ino = n).toUInt64) d')
      (fun _ _ _ ↦ True) (hsxFuseReaddirPlus ino size off) d := by
  refine hd.ends_ilookup (fun _ ↦ .of_fault rfl trivial) fun p i _ hi ↦ ?_
  refine ((hd.ends_hsiNfs3ReaddirPlus hi _ off _).and ((hd.ends_readdirPlus_made hi _ off _).and
    (.of_evolves (HandleFrame.silent.readdirPlus Silent.iput p _ off _) d))).bind ?_ fun _ _ _ _ ↦
      trivial
  rintro es ⟨err, ctx⟩ d₁ ⟨hplus, hmade, hquiet⟩
  cases hplus with
  | failed herr =>
      dsimp only at herr ⊢
      rw [if_pos herr]
      refine .of_ret rfl fun _ _ ds hds ↦ ?_
      cases hquiet.reply_inj hds
  | @listed resok _ _ hlist _ hext hl =>
      dsimp only
      rw [if_neg (fun h ↦ h rfl)]
      refine ends_malloc_bind fun got ↦ ?_
      cases got with
      | false =>
          refine .of_ret rfl fun _ _ ds hds ↦ ?_
          cases hquiet.reply_inj hds
      | true =>
          obtain ⟨out, d₂, hrun, hrep, hok⟩ :=
            addDirentsPlus_counts size.toNat hl.cacheOk hl.mem_or_bad 0
          cases out with
          | error e => exact .fault_bind hrun trivial
          | ok ds =>
              have hplaces := (ends_addDirentsPlus size.toNat ctx 0 d₁).exec_ok (exec_of_ret hrun)
              refine .ret_bind hrun (.of_ret rfl fun resok' hresok' ds' hds' ↦ ?_)
              have hmem : resok' ∈ listings es := by
                rw [listings_append] at hresok'
                exact (List.mem_append.1 hresok').resolve_right List.not_mem_nil
              change d₂.replies ++ [.direntsPlus ds] = _ at hds'
              rw [hrep] at hds'
              obtain rfl := Reply.direntsPlus.inj (hquiet.reply_inj hds')
              constructor
              · rw [hplaces, (hmade resok' hmem).shown rfl]
                rfl
              · have hgrown := Counts.of_extends hd hl.cacheOk hext hquiet.root
                refine ((hgrown.trans hl.cacheOk.noneFreed (hok ds rfl)).of_eq fun n ↦ ?_).congr
                  rfl rfl rfl
                exact UInt64.zero_add _

/-- **A listing is the longest prefix that fits the buffer, and counts for it, exactly if no prefix
fills the buffer.** -/
theorem listings_fill_iff {d : Daemon} (hd : d.CacheOk) (ino size off : UInt64) :
    (∀ d' es resok ds,
      Prog.Exec Server.record ((hsxFuseReaddir ino size off).run d) [] (.ok (), d') es →
      resok ∈ plainListings es → d'.replies = d.replies ++ [.dirents ds] →
      (IsLongestFit Dirent.size size.toNat resok.dirents ds ↔
        NeverFull Dirent.size size.toNat resok.dirents)) ∧
    (∀ d' es resok ds,
      Prog.Exec Server.record ((hsxFuseReaddirPlus ino size off).run d) [] (.ok (), d') es →
      resok ∈ listings es → d'.replies = d.replies ++ [.direntsPlus ds] →
      (IsLongestFit Place.size size.toNat resok.places (ds.map DirentPlus.place) ∧
          d.Counts (fun n ↦ (ds.countP fun e ↦ e.entry.ino = n).toUInt64) d' ↔
        NeverFull Place.size size.toNat resok.places)) := by
  constructor
  · intro d' es resok ds hx hresok hds
    rw [(hd.ends_hsxFuseReaddir ino size off).exec_ok hx resok hresok ds hds,
      isLongestFit_fillLoosely_iff]
  · intro d' es resok ds hx hresok hds
    obtain ⟨hplaces, hcounts⟩ :=
      (hd.ends_hsxFuseReaddirPlus ino size off).exec_ok hx resok hresok ds hds
    rw [and_iff_left hcounts, hplaces, isLongestFit_fillLoosely_iff]

/-- A server that lists one file. -/
private def oneFileAnswer : (c : Call) → Option c.Res
  | .clntCall _ (.readdir _ _ _ _) => some (.done (.ok ⟨none, 7, [⟨2, [102], 5⟩]⟩))
  | .clntCall _ (.readdirplus _ _ _ _ _) =>
      some (.done (.ok ⟨none, 7, [⟨2, [102], 5, some (sampleFile 2), some (NfsFh.ofByte 2)⟩]⟩))
  | c => sampleAnswer c

/-- What a reply lists with attributes. -/
private def Reply.listed : Reply → List DirentPlus
  | .direntsPlus ds => ds
  | _ => []

/-- There is room for more than the file. -/
theorem listings_fill_iff_roomy : ∃ d d₁ d₂ es₁ es₂ resok₁ resok₂ ds₁ ds₂, d.CacheOk ∧
    Prog.Exec Server.record ((hsxFuseReaddir 1 4096 0).run d) [] (.ok (), d₁) es₁ ∧
    Prog.Exec Server.record ((hsxFuseReaddirPlus 1 4096 0).run d) [] (.ok (), d₂) es₂ ∧
    resok₁ ∈ plainListings es₁ ∧ d₁.replies = d.replies ++ [.dirents ds₁] ∧
    resok₂ ∈ listings es₂ ∧ d₂.replies = d.replies ++ [.direntsPlus ds₂] ∧
    (IsLongestFit Dirent.size 4096 resok₁.dirents ds₁ ↔ NeverFull Dirent.size 4096 resok₁.dirents) ∧
    (IsLongestFit Place.size 4096 resok₂.places (ds₂.map DirentPlus.place) ∧
        d.Counts (fun n ↦ (ds₂.countP fun e ↦ e.entry.ino = n).toUInt64) d₂ ↔
      NeverFull Place.size 4096 resok₂.places) := by
  let resok₁ : Readdir3resok := ⟨none, 7, [⟨2, [102], 5⟩]⟩
  let resok₂ : Readdirplus3resok :=
    ⟨none, 7, [⟨2, [102], 5, some (sampleFile 2), some (NfsFh.ofByte 2)⟩]⟩
  let answer := Prog.recorded oneFileAnswer
  have hplay : (sampleMount.bind fun d ↦
      (((hsxFuseReaddir 1 4096 0).run d).eval answer []).bind fun r ↦
        (((hsxFuseReaddirPlus 1 4096 0).run d).eval answer []).map fun q ↦ (d, r, q)).any (fun t ↦
          decide (t.2.1.1.1 = .ok () ∧ t.2.2.1.1 = .ok () ∧ resok₁ ∈ plainListings t.2.1.2 ∧
            t.2.1.1.2.replies = t.1.replies ++ [.dirents resok₁.dirents] ∧
            resok₂ ∈ listings t.2.2.2 ∧ t.2.2.1.2.replies =
              t.1.replies ++ [.direntsPlus (t.2.2.1.2.replies.flatMap Reply.listed)])) = true := by
    decide +kernel
  obtain ⟨⟨d, ⟨⟨out₁, d₁⟩, es₁⟩, ⟨out₂, d₂⟩, es₂⟩, hplay, htest⟩ := (Option.any_eq_true _ _).1 hplay
  obtain ⟨hok₁, hok₂, hlist₁, hreplies₁, hlist₂, hreplies₂⟩ := of_decide_eq_true htest
  obtain rfl : out₁ = .ok () := hok₁
  obtain rfl : out₂ = .ok () := hok₂
  obtain ⟨d₀, hd₀, hplay⟩ := Option.bind_eq_some_iff.1 hplay
  obtain ⟨r, hread, hplay⟩ := Option.bind_eq_some_iff.1 hplay
  obtain ⟨q, hplus, heq⟩ := Option.map_eq_some_iff.1 hplay
  cases heq
  have hd : d.CacheOk := (mounted_of_play hd₀).extends_start.1
  have hx₁ := Prog.exec_record_of_eval hread
  have hx₂ := Prog.exec_record_of_eval hplus
  obtain ⟨hfill₁, hfill₂⟩ := listings_fill_iff hd 1 4096 0
  exact ⟨d, d₁, d₂, es₁, es₂, resok₁, resok₂, _, _, hd, hx₁, hx₂, hlist₁, hreplies₁, hlist₂,
    hreplies₂, hfill₁ d₁ es₁ resok₁ _ hx₁ hlist₁ hreplies₁,
      hfill₂ d₂ es₂ resok₂ _ hx₂ hlist₂ hreplies₂⟩

/-- The only file fits the buffer, and yet the listing is empty. -/
theorem not_listings_fill : ¬ ∀ (d d' : Daemon) (ino size off : UInt64) (es : List Event)
    (resok : Readdir3resok) (ds : List Dirent), d.Mounted →
    Prog.Exec Server.record ((hsxFuseReaddir ino size off).run d) [] (.ok (), d') es →
    resok ∈ plainListings es → d'.replies = d.replies ++ [.dirents ds] →
    IsLongestFit Dirent.size size.toNat resok.dirents ds := by
  intro h
  let resok : Readdir3resok := ⟨none, 7, [⟨2, [102], 5⟩]⟩
  have hplay : (sampleMount.bind fun d ↦
      (((hsxFuseReaddir 1 32 0).run d).eval (Prog.recorded oneFileAnswer) []).map fun r ↦
        (d, r)).any
        (fun r ↦ decide (r.2.1.1 = .ok () ∧ r.2.1.2.replies = r.1.replies ++ [.dirents []] ∧
          resok ∈ plainListings r.2.2)) = true := by decide +kernel
  obtain ⟨⟨d, ⟨out, d'⟩, es⟩, hplay, htest⟩ := (Option.any_eq_true _ _).1 hplay
  obtain ⟨hok, hreplies, hlist⟩ := of_decide_eq_true htest
  obtain rfl : out = .ok () := hok
  obtain ⟨d₀, hd, hplay⟩ := Option.bind_eq_some_iff.1 hplay
  obtain ⟨_, hplay, heq⟩ := Option.map_eq_some_iff.1 hplay
  cases heq
  have hfit := h d d' 1 32 0 es resok [] (mounted_of_play hd)
    (Prog.exec_record_of_eval hplay) hlist hreplies
  exact absurd (hfit.longest resok.dirents List.prefix_rfl (by decide)) (by decide)

end Hsfs
