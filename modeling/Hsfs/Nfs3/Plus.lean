import Hsfs.Fuse.Session
import Hsfs.Nfs3.Listing

/-!
# `READDIRPLUS` against `READDIR`

Both operations turn the entries of a reply into contexts.  We compare what they make of the same
entries: `READDIRPLUS` returns the same names, offsets and numbers, unless something makes it give
up. An entry without a handle does, even though the protocol allows such entries, and `READDIR`
would have listed it along with all the others.
-/

namespace Hsfs

open Interact Interact.Act Daemon

/-! ## What is listed -/

/-- What both operations have to say about an entry: where it ends, its name and its number. -/
structure Shown where
  off : UInt64
  name : Name
  stIno : UInt64
  deriving DecidableEq

/-- The context as the request layer sees it. -/
def ReaddirCtx.shown (c : ReaddirCtx) : Shown := ⟨c.off, c.name, c.stIno⟩

/-- An entry of `READDIR`, with its name as a string in C. -/
def Entry3.shown (e : Entry3) : Shown := ⟨e.cookie, (cString e.name).take 255, e.fileid⟩

/-- The entry without what `READDIRPLUS` adds. -/
def Entryplus3.plain (e : Entryplus3) : Entry3 := ⟨e.fileid, e.name, e.cookie⟩

/-- The listing in a reply to `READDIR`. -/
def plainListingOf : (req : Rpc) → req.Res → Option Readdir3resok
  | .readdir _ _ _ _, .ok resok => some resok
  | _, _ => none

/-- The listings of `READDIR` that came in. -/
def plainListings (es : List Event) : List Readdir3resok := picked plainListingOf es

section operations

variable {d : Daemon} {p : Addr} {i : Inode}

/-! ## `READDIR` -/

/-- Memory for a context and its name. -/
theorem ends_allocCopyName (name : Name) :
    Ends (fun es r d' ↦ plainListings es = [] ∧ d' = d ∧ ∀ copy ∈ r, copy = (cString name).take 255)
      (fun _ _ _ ↦ False) (allocCopyName name) d :=
  ends_malloc_bind fun
    | false => .pure ⟨rfl, rfl, fun _ h ↦ (nomatch h)⟩
    | true => ends_malloc_bind fun
      | false => .pure ⟨rfl, rfl, fun _ h ↦ (nomatch h)⟩
      | true => .pure ⟨rfl, rfl, fun _ h ↦ (Option.some.inj h).symm⟩

/-- The loop over the entries asks for memory, and nothing else. -/
theorem ends_readdirEntries (entries : List Entry3) (ctx : List ReaddirCtx) :
    Ends (fun es r _ ↦ plainListings es = [] ∧
        (r.1 = 0 → r.2.map ReaddirCtx.shown = ctx.map ReaddirCtx.shown ++ entries.map Entry3.shown))
      (fun _ _ _ ↦ False) (readdirEntries entries ctx) d := by
  induction entries generalizing ctx with
  | nil => exact .pure ⟨rfl, fun _ ↦ (List.append_nil _).symm⟩
  | cons entry entries ih =>
      refine (ends_allocCopyName entry.name).bind ?_ fun _ _ _ h ↦ h
      rintro es (_ | name) _ ⟨hes, rfl, hname⟩
      · refine .pure ⟨?_, fun h ↦ absurd h (by decide)⟩
        rwa [List.append_nil]
      · obtain rfl := hname name rfl
        refine (ih _).mono (fun es' r _ h ↦ ⟨?_, fun hr ↦ ?_⟩) fun _ _ _ h ↦ h
        · rw [plainListings, picked_append, ← plainListings, ← plainListings, hes, h.1]
          rfl
        · rw [h.2 hr, List.map_append, List.append_assoc]
          rfl

/-- **What `hsi_nfs3_readdir` lists**, if it succeeds. -/
theorem ends_readdir_shown (hi : d.heap p = some i) (count : UInt32) (cookie : UInt64) :
    Ends (fun es r _ ↦ r.1 = 0 → ∀ resok ∈ plainListings es,
        r.2.map ReaddirCtx.shown = resok.entries.map Entry3.shown)
      (fun _ _ _ ↦ False) (hsiNfs3Readdir p count cookie) d := by
  refine .ret_bind (x := sbClntp) rfl (.ret_bind (getCookieVerf_run hi) (.ret_bind (getfh3_run hi)
    (ends_call_bind (ends_call (.inl rfl) _) ?_ ?_)))
  · intro es err d₁ hcall herr honly
    exact .pure fun h ↦ absurd h herr
  · rintro es (resok | status) d₁ hcall honly
    · have hlist : plainListings es = [resok] := hcall.picked_ok plainListingOf
      have hi₁ : d₁.heap p = some i := honly.heap ▸ hi
      rcases nfsRefreshInode_dir hi₁ resok.dirAttributes with ⟨-, hrun⟩ | ⟨-, j, -, hrun⟩
      · exact .ret_bind hrun (.of_ret rfl fun h ↦ absurd h (by decide))
      · refine .ret_bind hrun (.ret_bind (update_run (d₁.setInode_heap_self p j) _)
          ((ends_readdirEntries resok.entries []).bind ?_ fun _ _ _ h ↦ h.elim))
        rintro es' r d₂ ⟨hnil, hshown⟩
        refine .of_ret rfl fun hr resok' hmem ↦ ?_
        rw [List.append_nil, plainListings, picked_append, ← plainListings, ← plainListings, hlist,
          hnil, List.append_nil, List.mem_singleton] at hmem
        exact hmem ▸ hshown hr
    · exact .of_ret rfl fun h ↦ absurd h (hsiNfs3StatToErrno_ne_zero status.2)

/-! ## `READDIRPLUS` -/

theorem Daemon.Listed.shown {d' : Daemon} {entries : List Entryplus3} {es : List Event}
    {cs : List ReaddirCtx} (h : d.Listed entries es cs d') :
    cs.map ReaddirCtx.shown = (entries.map Entryplus3.plain).map Entry3.shown := by
  induction h with
  | nil => rfl
  | cons _ _ _ ih =>
      rw [List.map_cons, ih]
      rfl

/-- What the operation makes of a listing: the same as `READDIR`, exactly if nothing makes it give
up. -/
structure Readdirplus3resok.Made (resok : Readdirplus3resok) (i : Inode) (es : List Event)
    (r : Int × List ReaddirCtx) : Prop where
  delivered : r.1 = 0 ↔ Deliverable i es resok
  shown : r.1 = 0 → r.2.map ReaddirCtx.shown = (resok.entries.map Entryplus3.plain).map Entry3.shown

theorem Readdirplus3resok.Made.of_error {resok : Readdirplus3resok} {es : List Event} {err : Int}
    {ctx : List ReaddirCtx} (herr : err ≠ 0) (h : ¬ Deliverable i es resok) :
    resok.Made i es (err, ctx) :=
  ⟨iff_of_false herr h, fun h ↦ absurd h herr⟩

/-- What is done with a listing. -/
theorem Daemon.CacheOk.ends_readdirPlusListing (hd : d.CacheOk) (hi : d.heap p = some i)
    (clntp : Client) (resok : Readdirplus3resok) :
    Ends (fun es r _ ↦ listings es = [] ∧ resok.Made i es r)
      (fun es _ _ ↦ listings es = [] ∧ ¬ Deliverable i es resok)
      (readdirPlusListing p clntp resok) d := by
  unfold readdirPlusListing
  rcases nfsRefreshInode_dir hi resok.dirAttributes with ⟨haccept, hrun⟩ | ⟨haccept, j, hj, hrun⟩
  · refine .ret_bind hrun (.of_ret rfl ⟨rfl, .of_error (by decide) fun h ↦ ?_⟩)
    exact Bool.false_ne_true (haccept.symm.trans h.accepted)
  · have hd₂ : (d.setInode p { j with cookieverf := resok.cookieverf }).CacheOk :=
      hd.setInode hi ⟨hj.sameId.ino, hj.sameId.fileid, hj.sameId.fh, hj.sameId.flags,
        hj.sameId.iState⟩
    have hset : (setCookieVerf p resok.cookieverf).run (d.setInode p j) =
        .ret (.ok (), d.setInode p { j with cookieverf := resok.cookieverf }) := by
      rw [setCookieVerf, update_run (d.setInode_heap_self p j), setInode_setInode]
    have hentries : Ends (fun es r d' ↦ Daemon.ListEnd _ resok.entries [] es r d')
        (fun _ _ _ ↦ False) (readdirPlusEntries resok.entries []) _ :=
      fun tr ↦ wp_mono (fun _ _ _ h ↦ h) (fun _ _ _ h ↦ h.elim)
        (hd₂.wp_readdirPlusEntries resok.entries [] tr)
    refine .ret_bind hrun (.ret_bind hset (hentries.bind ?_ fun _ _ _ h ↦ h.elim))
    rintro es r d₃ hend
    cases hend with
    | all hlisted =>
        refine .of_ret rfl ?_
        rw [List.append_nil]
        exact ⟨hlisted.listings_eq_nil,
          iff_of_true rfl ⟨haccept, hlisted.not_isShort, hlisted.handles⟩, fun _ ↦ hlisted.shown⟩
    | @gaveUp es₁ es₂ listed cs _ err hlisted hlen herr hcause hnil =>
        have hlistings : listings (es₁ ++ es₂) = [] := by
          rw [listings_append, hlisted.listings_eq_nil, hnil]
          rfl
        have hnot : ¬ Deliverable i (es₁ ++ es₂) resok := by
          rintro ⟨-, hmemory, hhandles⟩
          rw [List.any_append, Bool.or_eq_false_iff] at hmemory
          rcases hcause with hcause | ⟨entry, hentry, hnone⟩
          · exact Bool.false_ne_true (hmemory.2.symm.trans hcause)
          · exact hhandles entry hentry hnone
        -- the contexts made so far are freed, which may fault
        refine (Ends.of_evolves (Puts.freeCtx cs) d₃).bind ?_ ?_
        · rintro es₃ _ d₄ hputs
          refine .of_ret rfl ?_
          rw [hputs.events, List.append_nil, List.append_nil]
          exact ⟨hlistings, .of_error herr hnot⟩
        · rintro es₃ _ d₄ hputs
          rw [hputs.events, List.append_nil]
          exact ⟨hlistings, hnot⟩

/-- **What `hsi_nfs3_readdir_plus` makes of the reply that it gets.** -/
theorem Daemon.CacheOk.ends_readdirPlus_made (hd : d.CacheOk) (hi : d.heap p = some i)
    (count : UInt32)
    (cookie : UInt64) (maxcount : UInt32) :
    Ends (fun es r _ ↦ ∀ resok ∈ listings es, resok.Made i es r)
      (fun es _ _ ↦ ∀ resok ∈ listings es, ¬ Deliverable i es resok)
      (hsiNfs3ReaddirPlus p count cookie maxcount) d := by
  refine .ret_bind (x := sbClntp) rfl (.ret_bind (getCookieVerf_run hi) (.ret_bind (getfh3_run hi)
    (ends_call_bind (ends_call (.inl rfl) _) ?_ ?_)))
  · intro es err d₁ hcall herr honly
    refine .pure fun resok hmem ↦ ?_
    rw [List.append_nil, hcall.listings_eq.2.2] at hmem
    exact absurd hmem List.not_mem_nil
  · rintro es (resok | status) d₁ hcall honly
    · obtain ⟨-, hshort, hlist⟩ := hcall.listings_eq
      have hd₁ : d₁.CacheOk := honly.cacheOk hd
      have honce {es' : List Event} (hnil : listings es' = []) {resok' : Readdirplus3resok}
          (hmem : resok' ∈ listings (es ++ es')) : resok' = resok := by
        rw [listings_append, hlist, hnil] at hmem
        exact List.mem_singleton.1 hmem
      have hdeliver {es' : List Event} :
          Deliverable i (es ++ es') resok ↔ Deliverable i es' resok := by
        have hmemory : (es ++ es').any isShort = es'.any isShort := by
          rw [List.any_append, hshort, Bool.false_or]
        exact ⟨fun h ↦ ⟨h.accepted, hmemory ▸ h.memory, h.handles⟩,
          fun h ↦ ⟨h.accepted, hmemory.trans h.memory, h.handles⟩⟩
      refine (hd₁.ends_readdirPlusListing (honly.heap ▸ hi) d.sb.clntp resok).mono ?_ ?_
      · rintro es' r d' ⟨hnil, hmade⟩ resok' hmem
        obtain rfl := honce hnil hmem
        exact ⟨hmade.delivered.trans hdeliver.symm, hmade.shown⟩
      · rintro es' _ d' ⟨hnil, hnot⟩ resok' hmem
        obtain rfl := honce hnil hmem
        exact fun h ↦ hnot (hdeliver.1 h)
    · refine .of_ret rfl fun resok hmem ↦ ?_
      rw [List.append_nil, hcall.listings_eq.2.2] at hmem
      exact absurd hmem List.not_mem_nil

end operations

/-! ## Both -/

/-- **`READDIRPLUS` lists what `READDIR` lists if and only if nothing makes it give up**: every
entry has a handle, the directory takes the attributes that come with the reply, and there is
memory.  The attributes of the entries do not matter. -/
theorem readdirPlus_lists_iff {d d₁ d₂ : Daemon} (hd : d.CacheOk) {p : Addr} {i : Inode}
    (hi : d.heap p = some i) {count count' : UInt32} {cookie cookie' : UInt64} {maxcount : UInt32}
    {es es' : List Event} {ctx : List ReaddirCtx} {out : Except Fault (Int × List ReaddirCtx)}
    (hread : Prog.Exec Server.record ((hsiNfs3Readdir p count cookie).run d) []
      (.ok (0, ctx), d₁) es)
    (hplus : Prog.Exec Server.record ((hsiNfs3ReaddirPlus p count' cookie' maxcount).run d) []
      (out, d₂) es')
    {plain : Readdir3resok} (hplain : plain ∈ plainListings es)
    {resok : Readdirplus3resok} (hresok : resok ∈ listings es')
    (hsame : resok.entries.map Entryplus3.plain = plain.entries) :
    (∃ ctx', out = .ok (0, ctx') ∧ ctx'.map ReaddirCtx.shown = ctx.map ReaddirCtx.shown) ↔
      Deliverable i es' resok := by
  have hctx : ctx.map ReaddirCtx.shown = plain.entries.map Entry3.shown :=
    (ends_readdir_shown hi count cookie).exec_ok hread rfl plain hplain
  have hends := hd.ends_readdirPlus_made hi count' cookie' maxcount
  cases out with
  | error e =>
      refine iff_of_false ?_ (hends.exec_error hplus resok hresok)
      rintro ⟨_, h, -⟩
      exact nomatch h
  | ok r =>
      have hmade := hends.exec_ok hplus resok hresok
      rw [← hmade.delivered]
      constructor
      · rintro ⟨ctx', h, -⟩
        exact congrArg Prod.fst (Except.ok.inj h)
      · intro hr
        refine ⟨r.2, congrArg Except.ok (Prod.ext hr rfl), ?_⟩
        rw [hmade.shown hr, hctx, hsame]

/-- The directory takes it that there are no attributes. -/
theorem Inode.acceptsDir_none (i : Inode) : i.acceptsDir none = true := by
  have hvalid : (hsiNfs3Post2fattr none NfsFattr.fresh).isValid = false := by decide
  simp only [Inode.acceptsDir, hvalid]
  rfl

/-- A server that lists one file, with a handle or without, and never with its attributes. -/
def plusAnswer (handle : Option NfsFh) : (c : Call) → Option c.Res
  | .clntCall _ (.readdir _ _ _ _) => some (.done (.ok ⟨none, 7, [⟨2, [102], 5⟩]⟩))
  | .clntCall _ (.readdirplus _ _ _ _ _) => some
      (.done (.ok ⟨none, 7, [⟨2, [102], 5, none, handle⟩]⟩))
  | c => sampleAnswer c

/-- The root is read in both ways. -/
def sampleBoth (handle : Option NfsFh) :
    Option (Daemon × ((Except Fault (Int × List ReaddirCtx) × Daemon) × List Event) ×
      (Except Fault (Int × List ReaddirCtx) × Daemon) × List Event) :=
  let answer := Prog.recorded (plusAnswer handle)
  sampleMount.bind fun d ↦
    (((hsiNfs3Readdir d.sb.root 4096 0).run d).eval answer []).bind fun r ↦
      (((hsiNfs3ReaddirPlus d.sb.root 4096 0 4096).run d).eval answer []).map fun q ↦ (d, r, q)

theorem of_sampleBoth {handle : Option NfsFh} {d d₁ d₂ : Daemon} {es es' : List Event}
    {out out' : Except Fault (Int × List ReaddirCtx)}
    (h : sampleBoth handle = some (d, ((out, d₁), es), ((out', d₂), es'))) :
    d.CacheOk ∧ (∃ i, d.heap d.sb.root = some i) ∧
      Prog.Exec Server.record ((hsiNfs3Readdir d.sb.root 4096 0).run d) [] (out, d₁) es ∧
      Prog.Exec Server.record ((hsiNfs3ReaddirPlus d.sb.root 4096 0 4096).run d) []
        (out', d₂) es' := by
  obtain ⟨d₀, hd₀, hplay⟩ := Option.bind_eq_some_iff.1 h
  obtain ⟨r, hread, hplay⟩ := Option.bind_eq_some_iff.1 hplay
  obtain ⟨q, hplus, heq⟩ := Option.map_eq_some_iff.1 hplay
  cases heq
  have hmounted := mounted_of_play hd₀
  have hcache := hmounted.extends_start.1
  exact ⟨hcache, hcache.live d.sb.root hmounted.rootOk.mem, Prog.exec_record_of_eval hread,
    Prog.exec_record_of_eval hplus⟩

/-- With a handle, the file is listed in both ways. -/
theorem readdirPlus_lists_iff_handle : ∃ d d₁ d₂ es es' ctx ctx', d.CacheOk ∧
    Prog.Exec Server.record ((hsiNfs3Readdir d.sb.root 4096 0).run d) [] (.ok (0, ctx), d₁) es ∧
    Prog.Exec Server.record ((hsiNfs3ReaddirPlus d.sb.root 4096 0 4096).run d) []
      (.ok (0, ctx'), d₂) es' ∧
    ctx.map ReaddirCtx.shown = [⟨5, [102], 2⟩] ∧
    ctx'.map ReaddirCtx.shown = ctx.map ReaddirCtx.shown := by
  let plain : Readdir3resok := ⟨none, 7, [⟨2, [102], 5⟩]⟩
  let resok : Readdirplus3resok := ⟨none, 7, [⟨2, [102], 5, none, some sampleRoot⟩]⟩
  have hplay : (sampleBoth (some sampleRoot)).any (fun q ↦
      q.2.1.1.1.toOption.any (fun r ↦ decide (r.1 = 0 ∧ r.2.map ReaddirCtx.shown = [⟨5, [102], 2⟩]))
        &&
      decide (plain ∈ plainListings q.2.1.2) && decide (resok ∈ listings q.2.2.2) &&
      !q.2.2.2.any isShort) = true := by decide +kernel
  obtain ⟨⟨d, ⟨⟨out, d₁⟩, es⟩, ⟨out', d₂⟩, es'⟩, hplay, htest⟩ := (Option.any_eq_true _ _).1 hplay
  obtain ⟨hd, ⟨i, hi⟩, hread, hplus⟩ := of_sampleBoth hplay
  obtain ⟨htest, hmemory⟩ := Bool.and_eq_true_iff.1 htest
  obtain ⟨htest, hresok⟩ := Bool.and_eq_true_iff.1 htest
  obtain ⟨hout, hplain⟩ := Bool.and_eq_true_iff.1 htest
  cases out with
  | error e => cases hout
  | ok r =>
      obtain ⟨err, ctx⟩ := r
      obtain ⟨herr, hctx⟩ := of_decide_eq_true hout
      obtain rfl : err = 0 := herr
      have hdeliver : Deliverable i es' resok := by
        refine ⟨i.acceptsDir_none, ?_, ?_⟩
        · exact (Bool.not_eq_true' _).mp hmemory
        · rintro _ (_ | ⟨_, ⟨⟩⟩)
          exact Option.some_ne_none _
      obtain ⟨ctx', rfl, hctx'⟩ := (readdirPlus_lists_iff hd hi hread hplus
        (of_decide_eq_true hplain) (of_decide_eq_true hresok) rfl).2 hdeliver
      exact ⟨d, d₁, d₂, es, es', ctx, ctx', hd, hread, hplus, hctx, hctx'⟩

/-- Without a handle, it is not, although there is memory and the directory takes its attributes. -/
theorem not_readdirPlus_lists : ¬ ∀ (d d₁ d₂ : Daemon) (p : Addr) (i : Inode) (count : UInt32)
    (cookie : UInt64) (maxcount : UInt32) (es es' : List Event) (ctx : List ReaddirCtx)
    (out : Except Fault (Int × List ReaddirCtx)) (plain : Readdir3resok)
    (resok : Readdirplus3resok),
    d.CacheOk → d.heap p = some i →
    Prog.Exec Server.record ((hsiNfs3Readdir p count cookie).run d) [] (.ok (0, ctx), d₁) es →
    Prog.Exec Server.record ((hsiNfs3ReaddirPlus p count cookie maxcount).run d) [] (out, d₂) es' →
    plain ∈ plainListings es → resok ∈ listings es' →
    resok.entries.map Entryplus3.plain = plain.entries →
    i.acceptsDir resok.dirAttributes = true → es'.any isShort = false →
    ∃ ctx', out = .ok (0, ctx') ∧ ctx'.map ReaddirCtx.shown = ctx.map ReaddirCtx.shown := by
  intro h
  let plain : Readdir3resok := ⟨none, 7, [⟨2, [102], 5⟩]⟩
  let resok : Readdirplus3resok := ⟨none, 7, [⟨2, [102], 5, none, none⟩]⟩
  have hplay : (sampleBoth none).any (fun q ↦
      q.2.1.1.1.toOption.any (·.1 == 0) && q.2.2.1.1.toOption.any (·.1 != 0) &&
      decide (plain ∈ plainListings q.2.1.2) && decide (resok ∈ listings q.2.2.2) &&
      !q.2.2.2.any isShort) = true := by decide +kernel
  obtain ⟨⟨d, ⟨⟨out, d₁⟩, es⟩, ⟨out', d₂⟩, es'⟩, hplay, htest⟩ := (Option.any_eq_true _ _).1 hplay
  obtain ⟨hd, ⟨i, hi⟩, hread, hplus⟩ := of_sampleBoth hplay
  obtain ⟨htest, hmemory⟩ := Bool.and_eq_true_iff.1 htest
  obtain ⟨htest, hresok⟩ := Bool.and_eq_true_iff.1 htest
  obtain ⟨hout, hplain⟩ := Bool.and_eq_true_iff.1 htest
  obtain ⟨hout, hout'⟩ := Bool.and_eq_true_iff.1 hout
  cases out with
  | error e => cases hout
  | ok r =>
      obtain ⟨err, ctx⟩ := r
      obtain rfl : err = 0 := eq_of_beq hout
      obtain ⟨ctx', rfl, -⟩ :=
        h d d₁ d₂ _ i 4096 0 4096 es es' ctx out' plain resok hd hi hread hplus
        (of_decide_eq_true hplain) (of_decide_eq_true hresok) rfl i.acceptsDir_none
        ((Bool.not_eq_true' _).mp hmemory)
      exact Bool.false_ne_true hout'

end Hsfs
