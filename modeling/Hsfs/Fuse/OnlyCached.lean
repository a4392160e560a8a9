import Hsfs.Fuse.Session
import Hsfs.Nfs3.Listing

/-!
# Only cached inodes reach the kernel

The handlers of the requests that name objects make entries of inodes and count lookups.  They
should do so for inodes of the cache only, and answer with an error otherwise.  They take an error
pointer for an inode, though, so they do so exactly if the server describes the objects well and
there is memory for their inodes.
-/

namespace Hsfs

open Interact Interact.Act Daemon

/-! ## What the kernel gets to see -/

/-- From `d` to `d'`, entries were made and lookups counted of cached inodes only, and if there were
none, the answer is an error or a listing without entries. -/
def Daemon.OnlyCached (d d' : Daemon) : Prop :=
  ∃ ts rs, d'.touched = d.touched ++ ts ∧ d'.replies = d.replies ++ rs ∧
    (∀ q ∈ ts, q ∈ d'.sb.idTable) ∧
    (ts = [] → (∃ e ≠ 0, rs = [Reply.err e]) ∨ rs = [Reply.direntsPlus []])

namespace Daemon

variable {d d₁ d' : Daemon} {ts : List Addr} {rs : List Reply}

/-- Some inode was used. -/
theorem onlyCached_iff_of_touched (ht : d'.touched = d.touched ++ ts)
    (hr : d'.replies = d.replies ++ rs) (hne : ts ≠ []) :
    d.OnlyCached d' ↔ ∀ q ∈ ts, q ∈ d'.sb.idTable := by
  constructor
  · rintro ⟨ts', rs', ht', -, hmem, -⟩
    obtain rfl := List.append_cancel_left (ht.symm.trans ht')
    exact hmem
  · exact fun hmem ↦ ⟨ts, rs, ht, hr, hmem, fun h ↦ absurd h hne⟩

/-- No inode was used, and there is an error. -/
theorem onlyCached_of_err {e : Int} (he : e ≠ 0) (ht : d'.touched = d.touched)
    (hr : d'.replies = d.replies ++ [.err e]) : d.OnlyCached d' :=
  ⟨[], [.err e], by rw [ht, List.append_nil], hr, fun _ h ↦ absurd h List.not_mem_nil,
    fun _ ↦ .inl ⟨e, he, rfl⟩⟩

/-- Nothing was used, and there is no answer. -/
theorem not_onlyCached (ht : d'.touched = d.touched) (hr : d'.replies = d.replies) :
    ¬ d.OnlyCached d' := by
  rintro ⟨ts, rs, ht', hr', -, hans⟩
  obtain rfl : ts = [] := List.append_right_eq_self.1 (ht'.symm.trans ht)
  obtain rfl : rs = [] := List.append_right_eq_self.1 (hr'.symm.trans hr)
  rcases hans rfl with ⟨_, -, h⟩ | h
  · exact nomatch h
  · exact nomatch h

/-- What happened before the kernel got to see anything does not matter. -/
theorem onlyCached_congr (ht : d₁.touched = d.touched) (hr : d₁.replies = d.replies) :
    d.OnlyCached d' ↔ d₁.OnlyCached d' := by
  unfold OnlyCached
  rw [ht, hr]

end Daemon

/-! ## Handlers that answer with one entry -/

/-- Every execution of `x` from `d` keeps to the cached inodes if and only if its events have the
property `P`, unless a listing is given up and inodes are freed. -/
def Judged (P : List Event → Prop) (x : Hs Unit) (d : Daemon) : Prop :=
  ∀ tr, wp Server.record x
    (fun _ d' tr' ↦ ∃ es, tr' = tr ++ es ∧ (d.OutlastsListings es → (d.OnlyCached d' ↔ P es)))
    (fun _ d' tr' ↦ ∃ es, tr' = tr ++ es ∧ (d.OutlastsListings es → (d.OnlyCached d' ↔ P es))) d tr

/-- The answer to a request whose operation yields an object. -/
def AnswersObject (f : Int × Addr → Hs Unit) : Prop :=
  ∀ d harm err new, d.CacheOk → Outcome harm d err new →
    ∃ out d', (f (err, new)).run d = .ret (out, d') ∧ (d.OnlyCached d' ↔ harm = false)

theorem Judged.ret {P : List Event → Prop} {x : Hs Unit} {d d' : Daemon} {out : Except Fault Unit}
    (hx : x.run d = .ret (out, d')) (h : d.OnlyCached d' ↔ P []) : Judged P x d := by
  intro tr
  rw [wp, hx]
  cases out with
  | ok _ => exact ⟨[], (List.append_nil tr).symm, fun _ ↦ h⟩
  | error _ => exact ⟨[], (List.append_nil tr).symm, fun _ ↦ h⟩

/-- **An operation that yields an object, and the answer.** -/
theorem Judged.object {d : Daemon} {x : Hs (Int × Addr)} {f : Int × Addr → Hs Unit}
    (hd : d.CacheOk) (hx : Yields false d x) (hsilent : Evolves Silent x) (hgrows : Evolves Grows x)
    (hf : AnswersObject f) : Judged (fun es ↦ harmed es = false) (x >>= f) d := by
  intro tr
  rw [wp_bind]
  refine wp_mono ?_ ?_ (wp_and (hx tr) ((hsilent.and hgrows) d tr))
  · rintro ⟨err, new⟩ d₁ _ ⟨⟨es, rfl, hout⟩, es', he, hquiet, hgrow⟩
    obtain ⟨out, d', hrun, hiff⟩ := hf d₁ _ err new (hgrow hd).1 hout
    rw [← onlyCached_congr hquiet.touched hquiet.replies, Bool.false_or] at hiff
    rw [wp, hrun]
    cases out with
    | ok _ => exact ⟨es, rfl, fun _ ↦ hiff⟩
    | error _ => exact ⟨es, rfl, fun _ ↦ hiff⟩
  · rintro e d₁ _ ⟨⟨es, rfl, hharm⟩, es', he, hquiet, -⟩
    refine ⟨es, rfl, fun _ ↦ iff_of_false (not_onlyCached hquiet.touched hquiet.replies) ?_⟩
    rw [Bool.false_or] at hharm
    simp [hharm]

/-- The inode at an address is used, or the error pointer, and no other. -/
def UsesOnly (use : Addr → Hs Unit) : Prop :=
  ∀ d p, d.heap p ≠ none ∨ d.layout.nearBad p = true →
    ∃ out d' n rs, (use p).run d = .ret (out, d') ∧
      d'.touched = d.touched ++ List.replicate (n + 1) p ∧ d'.replies = d.replies ++ rs ∧
      d'.sb.idTable = d.sb.idTable

/-- What all these handlers do with the outcome of the operation. -/
theorem UsesOnly.answersObject {use : Addr → Hs Unit} (h : UsesOnly use) :
    AnswersObject fun r ↦
      if r.1 ≠ 0 then fuseReply (.err r.1)
      else if r.2 = Addr.null then fuseReply (.err Errno.nomem)
      else use r.2 := by
  intro d harm err new hd hout
  cases hout with
  | failed herr hharm =>
      refine ⟨.ok (), { d with replies := d.replies ++ [.err err] }, ?_,
        iff_of_true (onlyCached_of_err herr rfl rfl) hharm⟩
      exact congrArg (fun x : Hs Unit ↦ x.run d) (if_pos herr)
  | obtained hobt =>
      have hnull : new ≠ Addr.null := by
        rcases hobt with ⟨hnew, -⟩ | ⟨hbad, -⟩
        · obtain ⟨i, hi⟩ := hd.live new hnew
          exact (hd.place new i hi).1
        · exact hbad.ne_null
      have hiff : new ∈ d.sb.idTable ↔ harm = false := by
        rcases hobt with ⟨hnew, hharm⟩ | ⟨hbad, hharm⟩
        · exact iff_of_true hnew hharm
        · exact iff_of_false (hd.notMem_of_bad hbad.nearBad) (by simp [hharm])
      have hplace : d.heap new ≠ none ∨ d.layout.nearBad new = true := by
        refine hobt.imp (fun ⟨hnew, _⟩ ↦ ?_) fun ⟨hbad, _⟩ ↦ hbad.nearBad
        obtain ⟨i, hi⟩ := hd.live new hnew
        exact hi ▸ Option.some_ne_none i
      obtain ⟨out, d', n, rs, hrun, ht, hr, hid⟩ := h d new hplace
      refine ⟨out, d', ?_, ?_⟩
      · simpa [hnull] using hrun
      · rw [onlyCached_iff_of_touched ht hr (by simp), hid, ← hiff]
        simp

/-- An entry is made of the object. -/
theorem fillReply_usesOnly (answer : EntryParam → Reply) :
    UsesOnly fun p ↦ (do
      let e ← hsxFuseFillReply p
      fuseReply (answer e)) := by
  intro d p hp
  cases hi : d.heap p with
  | some i =>
      refine ⟨.ok (), { d.noted p with replies := d.replies ++ [answer (i.entryParam d.sb)] }, 0,
        [answer (i.entryParam d.sb)], ?_, rfl, rfl, rfl⟩
      rw [run_bind_of_ret (hsxFuseFillReply_run hi)]
      rfl
  | none =>
      refine ⟨.error .segv, d.noted p, 0, [], ?_, rfl, (List.append_nil _).symm, rfl⟩
      rw [run_bind, hsxFuseFillReply_bad hi (hp.resolve_left (· hi))]
      rfl

/-- The lookup count of the object has been changed. -/
structure Daemon.Counted (d : Daemon) (p : Addr) (d' : Daemon) : Prop where
  touched : d'.touched = d.touched ++ [p]
  replies : d'.replies = d.replies
  idTable : d'.sb.idTable = d.sb.idTable
  place : d'.heap p ≠ none ∨ d'.layout.nearBad p = true

/-- The object is used some more after its count has been changed. -/
theorem UsesOnly.after {use : Addr → Hs Unit} (h : UsesOnly use) {d d₁ : Daemon} {p : Addr}
    (hc : d.Counted p d₁) : ∃ out d' n rs, (use p).run d₁ = .ret (out, d') ∧
      d'.touched = d.touched ++ List.replicate (n + 1) p ∧ d'.replies = d.replies ++ rs ∧
      d'.sb.idTable = d.sb.idTable := by
  obtain ⟨out, d', n, rs, hrun, ht, hr, hid⟩ := h d₁ p hc.place
  refine ⟨out, d', n + 1, rs, hrun, ?_, hc.replies ▸ hr, hid.trans hc.idTable⟩
  rw [ht, hc.touched, List.append_assoc]
  rfl

theorem refInc_counted {d : Daemon} {p : Addr}
    (hp : d.heap p ≠ none ∨ d.layout.nearBad p = true) (val : UInt64) :
    ∃ ref d', (hsxFuseRefInc p val).run d = .ret (.ok ref, d') ∧ d.Counted p d' := by
  cases hi : d.heap p with
  | some i =>
      refine ⟨_, _, hsxFuseRefInc_run hi val, rfl, rfl, rfl, .inl ?_⟩
      rw [Daemon.setInode_heap_self]
      exact Option.some_ne_none _
  | none =>
      have hbad := hp.resolve_left (· hi)
      exact ⟨_, _, hsxFuseRefInc_bad hi hbad val, rfl, rfl, rfl, .inr hbad⟩

theorem refXchg_counted {d : Daemon} {p : Addr}
    (hp : d.heap p ≠ none ∨ d.layout.nearBad p = true) (val : UInt64) :
    ∃ ref d', (hsxFuseRefXchg p val).run d = .ret (.ok ref, d') ∧ d.Counted p d' := by
  cases hi : d.heap p with
  | some i =>
      refine ⟨_, _, hsxFuseRefXchg_run hi val, rfl, rfl, rfl, .inl ?_⟩
      rw [Daemon.setInode_heap_self]
      exact Option.some_ne_none _
  | none =>
      have hbad := hp.resolve_left (· hi)
      exact ⟨_, _, hsxFuseRefXchg_bad hi hbad val, rfl, rfl, rfl, .inr hbad⟩

theorem lookup_usesOnly : UsesOnly fun p ↦ (do
    let _ ← hsxFuseRefInc p 1
    let e ← hsxFuseFillReply p
    fuseReply (.entry e)) := by
  intro d p hp
  obtain ⟨ref, d₁, hinc, hcounted⟩ := refInc_counted hp 1
  rw [run_bind_of_ret hinc]
  exact (fillReply_usesOnly .entry).after hcounted

/-- A new object whose count is not zero stops the process. -/
theorem replyNew_usesOnly (answer : EntryParam → Reply) : UsesOnly fun p ↦ (do
    let ref ← hsxFuseRefXchg p 1
    assertThat .newRef (ref == 0)
    let e ← hsxFuseFillReply p
    fuseReply (answer e)) := by
  intro d p hp
  obtain ⟨ref, d₁, hxchg, hcounted⟩ := refXchg_counted hp 1
  rw [run_bind_of_ret hxchg]
  by_cases href : (ref == 0) = true
  · have hassert : (assertThat .newRef (ref == 0)).run d₁ = .ret (.ok (), d₁) := by
      simp [assertThat, href]
    rw [run_bind_of_ret hassert]
    exact (fillReply_usesOnly answer).after hcounted
  · refine ⟨.error (.abort .newRef), d₁, 0, [], ?_, hcounted.touched, ?_, hcounted.idTable⟩
    · simp [assertThat, href]
    · rw [List.append_nil, hcounted.replies]

/-- A handler that looks the parent up first. -/
theorem Judged.ilookup {d : Daemon} (hd : d.CacheOk) {P : List Event → Prop} {ino : UInt64}
    {f : Option Addr → Hs Unit} (hnone : d.ilookup ino = none → Judged P (f none) d)
    (hsome : ∀ p i, d.ilookup ino = some p → d.heap p = some i → Judged P (f (some p)) d) :
    Judged P (hsfsIlookup ino >>= f) d := by
  intro tr
  rcases d.hsfsIlookup_cases ino with ⟨hl, hrun⟩ | ⟨p, i, hl, hi, hrun⟩ | ⟨p, hl, hnone', -⟩
  · rw [wp, run_bind_of_ret hrun]
    exact hnone hl tr
  · rw [wp, run_bind_of_ret hrun]
    exact hsome p i hl hi tr
  · obtain ⟨i, hi⟩ := hd.live p (hd.ilookup_eq_some_iff.1 hl).1
    rw [hi] at hnone'
    cases hnone'

/-- The answer is an error. -/
theorem Judged.reply_err {d : Daemon} {P : List Event → Prop} {e : Int} (he : e ≠ 0) (hP : P []) :
    Judged P (fuseReply (.err e)) d :=
  .ret rfl (iff_of_true (onlyCached_of_err he rfl rfl) hP)

/-- There is no answer. -/
theorem Judged.unanswered {d : Daemon} {P : List Event → Prop} {x : Hs Unit}
    {out : Except Fault Unit} (hx : x.run d = .ret (out, d)) (hP : ¬ P []) : Judged P x d :=
  .ret hx (iff_of_false (not_onlyCached rfl rfl) hP)

/-! ## Listings -/

/-- How many of the entries with these names the handler makes an entry of, when `len` bytes are
taken: those that fit, and one more. -/
def reached (size : Nat) : List Name → Nat → Nat
  | [], _ => 0
  | name :: names, len =>
      let res := fuseAddDirentryPlus name
      if res ≥ size - len then 1 else reached size names (len + res) + 1

/-- The server has described the entries that the handler gets to, and there was memory for their
inodes, unless the listing is given up. -/
def ListingOk (size : Nat) (dir : Inode) (es : List Event) : Prop :=
  ∀ resok ∈ listings es, Deliverable dir es resok →
    ∀ entry ∈ resok.entries.take (reached size (resok.entries.map Entryplus3.ctxName) 0),
      EntryOk (denials es) entry

/-- The address is that of a cached inode, or an error pointer. -/
def Daemon.InodeOrBad (d : Daemon) (p : Addr) : Prop :=
  (p ∈ d.sb.idTable ∧ d.heap p ≠ none) ∨
    (p ∉ d.sb.idTable ∧ d.heap p = none ∧ d.layout.nearBad p = true)

theorem Daemon.InodeOrBad.setInode {d : Daemon} {p q : Addr} (h : d.InodeOrBad q)
    (hp : d.heap p ≠ none) (i : Inode) : (d.setInode p i).InodeOrBad q := by
  by_cases hq : q = p
  · subst hq
    refine h.imp (fun ⟨hmem, _⟩ ↦ ⟨hmem, ?_⟩) fun ⟨_, hnone, _⟩ ↦ absurd hnone hp
    rw [d.setInode_heap_self]
    exact Option.some_ne_none i
  · unfold Daemon.InodeOrBad
    rw [d.setInode_heap_of_ne hq]
    exact h

/-- **The loop over the contexts keeps to cached inodes exactly if all the inodes that it gets to
are cached.** -/
theorem addDirentsPlus_run (size : Nat) {d : Daemon} {cs : List ReaddirCtx}
    (hcs : ∀ c ∈ cs, d.InodeOrBad c.inode) (len : Nat) :
    ∃ out d' ts, (addDirentsPlus size cs len).run d = .ret (out, d') ∧
      d'.touched = d.touched ++ ts ∧ d'.replies = d.replies ∧ d'.sb.idTable = d.sb.idTable ∧
      (cs ≠ [] → ts ≠ []) ∧
      ((∀ q ∈ ts, q ∈ d.sb.idTable) ↔
        ∀ c ∈ cs.take (reached size (cs.map ReaddirCtx.name) len), c.inode ∈ d.sb.idTable) := by
  induction cs generalizing d len with
  | nil =>
      refine ⟨.ok [], d, [], rfl, (List.append_nil _).symm, rfl, rfl, absurd rfl, ?_⟩
      exact iff_of_true (fun _ h ↦ absurd h List.not_mem_nil) fun _ h ↦ absurd h List.not_mem_nil
  | cons c cs ih =>
      unfold addDirentsPlus
      rcases hcs c List.mem_cons_self with ⟨hmem, hsome⟩ | ⟨hnot, hnone, hbad⟩
      · obtain ⟨i, hi⟩ := Option.ne_none_iff_exists'.1 hsome
        rw [run_bind_of_ret (hsxFuseFillReply_run hi)]
        by_cases hfit : fuseAddDirentryPlus c.name ≥ size - len
        · refine ⟨.ok [], d.noted c.inode, [c.inode], ?_, rfl, rfl, rfl, by simp, ?_⟩
          · rw [if_pos hfit, run_pure]
          · simp [reached, hfit]
        · have hi' : (d.noted c.inode).heap c.inode = some i := hi
          rw [if_neg hfit, run_bind_of_ret (hsxFuseRefInc_run hi' 1), run_bind]
          obtain ⟨out, d', ts, hrun, ht, hr, hid, -, hiff⟩ := ih
            (d := ((d.noted c.inode).noted c.inode).setInode c.inode { i with priv := i.priv + 1 })
            (fun c' hc' ↦ .setInode (hcs c' (List.mem_cons_of_mem _ hc')) hsome _)
            (len + fuseAddDirentryPlus c.name)
          rw [hrun]
          refine ⟨out.map (⟨i.entryParam d.sb, c.name, c.off⟩ :: ·), d', c.inode :: c.inode :: ts,
            ?_, ?_, hr, hid, by simp, ?_⟩
          · cases out with
            | ok _ => rfl
            | error _ => rfl
          · rw [ht]
            exact (List.append_assoc _ _ _).trans (List.append_assoc _ _ _)
          · rw [List.forall_mem_cons, List.forall_mem_cons, List.map_cons, reached, if_neg hfit,
              List.take_succ_cons, List.forall_mem_cons]
            exact ⟨fun h ↦ ⟨hmem, hiff.1 h.2.2⟩, fun h ↦ ⟨hmem, hmem, hiff.2 h.2⟩⟩
      · refine ⟨.error .segv, d.noted c.inode, [c.inode], ?_, rfl, rfl, rfl, by simp, ?_⟩
        · rw [run_bind, hsxFuseFillReply_bad hnone hbad]
          rfl
        · refine iff_of_false (fun h ↦ hnot (h _ List.mem_cons_self)) fun h ↦ hnot (h c ?_)
          rw [List.map_cons, reached]
          split
          · exact List.mem_cons_self
          · exact List.mem_cons_self

/-- The end of `hsx_fuse_readdir_plus`, once there are contexts. -/
theorem addDirentsPlus_onlyCached {d d₁ : Daemon} {entries : List Entryplus3}
    {denied : List (UInt64 × NfsFh)} {cs : List ReaddirCtx} (hl : d₁.ListedAs entries denied cs)
    (ht : d₁.touched = d.touched) (hr : d₁.replies = d.replies) (size : Nat) :
    ∃ out d', (do
        let entries ← addDirentsPlus size cs 0
        fuseReply (.direntsPlus entries) : Hs Unit).run d₁ = .ret (out, d') ∧
      (d.OnlyCached d' ↔
        ∀ entry ∈ entries.take (reached size (entries.map Entryplus3.ctxName) 0),
          EntryOk denied entry) := by
  have hcs : ∀ c ∈ cs, d₁.InodeOrBad c.inode := by
    intro c hc
    refine (hl.mem_or_bad c hc).imp (fun hmem ↦ ⟨hmem, ?_⟩) fun hbad ↦
      ⟨hl.cacheOk.notMem_of_bad hbad.nearBad, hl.cacheOk.heap_of_bad hbad.nearBad, hbad.nearBad⟩
    obtain ⟨i, hi⟩ := hl.cacheOk.live c.inode hmem
    exact hi ▸ Option.some_ne_none i
  obtain ⟨out, d₂, ts, hrun, ht₂, hr₂, hid, hne, hiff⟩ := addDirentsPlus_run size hcs 0
  rw [← hl.names, ← hl.take_mem_iff, ← hiff, run_bind, hrun]
  -- what is left is to answer, and that uses no inode
  obtain ⟨out', d', rs, hrun', ht', hr', hid', hans⟩ : ∃ out' d' rs,
      (Prog.ret (out, d₂)).bind (cont fun entries ↦ fuseReply (.direntsPlus entries)) =
        .ret (out', d') ∧ d'.touched = d₂.touched ∧ d'.replies = d₂.replies ++ rs ∧
      d'.sb.idTable = d₂.sb.idTable ∧ ∀ es, out = .ok es → rs = [.direntsPlus es] := by
    cases out with
    | ok es => exact ⟨.ok (), _, [.direntsPlus es], rfl, rfl, rfl, rfl, fun _ h ↦ by cases h; rfl⟩
    | error e =>
      exact ⟨.error e, d₂, [], rfl, rfl, (List.append_nil _).symm, rfl,
        fun _ h ↦ nomatch h⟩
  have htouched : d'.touched = d.touched ++ ts := by rw [ht', ht₂, ht]
  have hreplies : d'.replies = d.replies ++ rs := by rw [hr', hr₂, hr]
  refine ⟨out', d', hrun', ?_⟩
  by_cases hnil : cs = []
  · subst hnil
    cases hrun
    have hts : ts = [] := List.append_right_eq_self.1 ht₂.symm
    refine iff_of_true ⟨ts, rs, htouched, hreplies, ?_, fun _ ↦ .inr (hans [] rfl)⟩ ?_
    · exact hts ▸ fun _ h ↦ absurd h List.not_mem_nil
    · exact hts ▸ fun _ h ↦ absurd h List.not_mem_nil
  · rw [onlyCached_iff_of_touched htouched hreplies (hne hnil), hid', hid]

/-- The test for memory that comes after the listing. -/
theorem listingOk_iff {dir : Inode} {es : List Event} {resok : Readdirplus3resok}
    (hlist : listings es = [resok]) (hdeliver : Deliverable dir es resok) (size : Nat) :
    ListingOk size dir (es ++ [⟨.malloc, true⟩]) ↔
      ∀ entry ∈ resok.entries.take (reached size (resok.entries.map Entryplus3.ctxName) 0),
        EntryOk (denials es) entry := by
  have hden : denials (es ++ [⟨.malloc, true⟩]) = denials es := by
    rw [denials_append]
    exact List.append_nil _
  have hlist' : listings (es ++ [⟨.malloc, true⟩]) = [resok] := by
    rw [listings_append, hlist]
    rfl
  have hdeliver' : Deliverable dir (es ++ [⟨.malloc, true⟩]) resok := by
    refine ⟨hdeliver.accepted, ?_, hdeliver.handles⟩
    rw [List.any_append, hdeliver.memory]
    rfl
  unfold ListingOk
  rw [hden, hlist']
  constructor
  · exact fun h ↦ h resok (List.mem_singleton_self resok) hdeliver'
  · intro h resok' hmem _
    rwa [List.mem_singleton.1 hmem]

/-- **`hsx_fuse_readdir_plus` keeps to cached inodes exactly if the listing is as it should be.** -/
theorem readdirPlus_judged {d : Daemon} (hd : d.CacheOk) {p : Addr} {i : Inode}
    (hi : d.heap p = some i) (size off : UInt64) :
    Judged (ListingOk size.toNat i) (do
      let (err, ctx) ← hsiNfs3ReaddirPlus p size.toUInt32 off size.toUInt32
      if err ≠ 0 then
        fuseReply (.err err)
      else if ← malloc then
        let entries ← addDirentsPlus size.toNat ctx 0
        fuseReply (.direntsPlus entries)
      else
        fuseReply (.err Errno.nomem)) d := by
  intro tr
  rw [wp_bind]
  refine wp_mono ?_ ?_ (wp_and (hd.ends_hsiNfs3ReaddirPlus hi _ off _ tr)
    (HandleFrame.silent.readdirPlus Silent.iput p _ off _ d tr))
  · rintro ⟨err, cs⟩ d₁ _ ⟨⟨es, rfl, hplus⟩, es', -, hquiet⟩
    cases hplus with
    | failed herr hnot _ _ _ _ =>
        dsimp only at herr ⊢
        rw [if_pos herr]
        refine ⟨es, rfl, fun _ ↦ iff_of_true (onlyCached_of_err herr hquiet.touched ?_) ?_⟩
        · change d₁.replies ++ _ = _
          rw [hquiet.replies]
        · exact fun resok hmem hdeliver ↦ absurd hdeliver (hnot resok hmem)
    | listed hlist hdeliver _ hl =>
        dsimp only
        rw [if_neg (fun h ↦ h rfl), wp_bind]
        refine fun (got : Bool) _ hgot ↦ ?_
        subst hgot
        rw [List.append_assoc]
        cases got with
        | false =>
            refine ⟨_, rfl, fun _ ↦ iff_of_true
              (onlyCached_of_err (e := Errno.nomem) (by decide) hquiet.touched ?_) ?_⟩
            · change d₁.replies ++ _ = _
              rw [hquiet.replies]
            · rintro resok' - ⟨-, hmemory, -⟩
              rw [List.any_append] at hmemory
              exact absurd hmemory (by simp [isShort])
        | true =>
            obtain ⟨out, d', hrun, hiff⟩ :=
              addDirentsPlus_onlyCached hl hquiet.touched hquiet.replies size.toNat
            have hmore := listingOk_iff hlist hdeliver size.toNat
            rw [← hmore] at hiff
            change wp Server.record (do
              let entries ← addDirentsPlus size.toNat cs 0
              fuseReply (.direntsPlus entries)) _ _ d₁ _
            rw [wp, hrun]
            cases out with
            | ok _ => exact ⟨_, rfl, fun _ ↦ hiff⟩
            | error _ => exact ⟨_, rfl, fun _ ↦ hiff⟩
  · rintro _ d₁ _ ⟨⟨es, rfl, hout⟩, es', -, hquiet⟩
    exact ⟨es, rfl, fun h ↦ absurd h hout⟩

/-! ## The requests that name objects -/

/-- The requests whose replies from the server name objects that the kernel is told of. -/
def Request.namesObjects : Request → Bool
  | .lookup _ _ | .create _ _ _ _ _ _ | .mkdir _ _ _ | .mknod _ _ _ _ | .symlink _ _ _
  | .readdirplus _ _ _ => true
  | _ => false

/-- The objects are as they should be: the server has described them, and there was memory for their
inodes.  Some handlers also need the parent to be cached, since they do not answer otherwise. -/
def Request.ObjectsOk (d : Daemon) (es : List Event) : Request → Prop
  | .create parent _ _ _ _ _ | .mkdir parent _ _ =>
      d.ilookup parent ≠ none ∧ harmed es = false
  | .readdirplus ino size _ =>
      ∃ p i, d.ilookup ino = some p ∧ d.heap p = some i ∧ ListingOk size.toNat i es
  | _ => harmed es = false

/-- The parent is cached. -/
theorem Judged.and_cached {d : Daemon} {P : List Event → Prop} {x : Hs Unit} {c : Prop}
    (h : Judged P x d) (hc : c) : Judged (fun es ↦ c ∧ P es) x d := by
  intro tr
  refine wp_mono ?_ ?_ (h tr)
  · rintro _ d' _ ⟨es, rfl, hiff⟩
    exact ⟨es, rfl, fun hout ↦ (hiff hout).trans (and_iff_right hc).symm⟩
  · rintro _ d' _ ⟨es, rfl, hiff⟩
    exact ⟨es, rfl, fun hout ↦ (hiff hout).trans (and_iff_right hc).symm⟩

section handlers

variable {d : Daemon} (hd : d.CacheOk)

include hd

theorem hsxFuseLookup_judged (parent : UInt64) (name : Name) :
    Judged (fun es ↦ harmed es = false) (hsxFuseLookup parent name) d := by
  refine .ilookup hd (fun _ ↦ .reply_err (by decide) rfl) fun p i _ hi ↦ ?_
  exact .object hd (.of_naming (ends_lookup hd hi name)) (HandleFrame.silent.lookup p name)
    (HandleFrame.grows.lookup p name) lookup_usesOnly.answersObject

theorem hsxFuseMknod_judged (parent : UInt64) (name : Name) (mode : UInt32) (rdev : UInt64) :
    Judged (fun es ↦ harmed es = false) (hsxFuseMknod parent name mode rdev) d := by
  refine .ilookup hd (fun _ ↦ .reply_err (by decide) rfl) fun p i _ hi ↦ ?_
  exact .object hd (.of_naming (ends_mknod hd hi name mode rdev))
    (HandleFrame.silent.mknod p name mode rdev)
    (HandleFrame.grows.mknod p name mode rdev) (replyNew_usesOnly .entry).answersObject

theorem hsxFuseSymlink_judged (link : Name) (parent : UInt64) (name : Name) :
    Judged (fun es ↦ harmed es = false) (hsxFuseSymlink link parent name) d := by
  refine .ilookup hd (fun _ ↦ .reply_err (by decide) rfl) fun p i _ hi ↦ ?_
  exact .object hd (.of_naming (ends_symlink hd hi link name))
    (HandleFrame.silent.symlink p link name)
    (HandleFrame.grows.symlink p link name) (replyNew_usesOnly .entry).answersObject

theorem hsxFuseMkdir_judged (parent : UInt64) (name : Name) (mode : UInt32) :
    Judged (fun es ↦ d.ilookup parent ≠ none ∧ harmed es = false) (hsxFuseMkdir parent name mode)
      d := by
  refine .ilookup hd (fun hl ↦ .unanswered rfl fun h ↦ h.1 hl) fun p i hl hi ↦ ?_
  refine .and_cached ?_ (hl ▸ Option.some_ne_none p)
  exact .object hd (.of_naming (ends_mkdir hd hi name mode)) (HandleFrame.silent.mkdir p name mode)
    (HandleFrame.grows.mkdir p name mode) (replyNew_usesOnly .entry).answersObject

theorem hsxFuseCreate_judged (parent : UInt64) (name : Name) (mode flags uid gid : UInt32) :
    Judged (fun es ↦ d.ilookup parent ≠ none ∧ harmed es = false)
      (hsxFuseCreate parent name mode flags uid gid) d := by
  refine .ilookup hd (fun hl ↦ .unanswered rfl fun h ↦ h.1 hl) fun p i hl hi ↦ ?_
  refine .and_cached ?_ (hl ▸ Option.some_ne_none p)
  -- the owner of the parent is overwritten first
  intro tr
  rw [wp_bind, wp_of_ret (update_run hi _)]
  have hd' : (d.setInode p { i with iattr := { i.iattr with uid := uid, gid := gid } }).CacheOk :=
    hd.setInode hi ⟨rfl, rfl, rfl, rfl, rfl⟩
  have hobject := Judged.object hd'
    (.of_naming (ends_create hd' (d.setInode_heap_self p _) name (createMode mode flags)))
    (HandleFrame.silent.create p name _) (HandleFrame.grows.create p name _)
    (replyNew_usesOnly .create).answersObject tr
  have houtlasts {es : List Event} (hout : d.OutlastsListings es) :
      (d.setInode p { i with iattr := { i.iattr with uid := uid, gid := gid } }).OutlastsListings
        es := by
    intro resok hmem
    obtain ⟨hlen, hout⟩ := hout resok hmem
    exact ⟨hlen, hout.setInode (hout p i hi)⟩
  refine wp_mono ?_ ?_ hobject
  · rintro _ d' _ ⟨es, rfl, hiff⟩
    exact ⟨es, rfl, fun hout ↦ hiff (houtlasts hout)⟩
  · rintro _ d' _ ⟨es, rfl, hiff⟩
    exact ⟨es, rfl, fun hout ↦ hiff (houtlasts hout)⟩

theorem hsxFuseReaddirPlus_judged (ino size off : UInt64) :
    Judged (fun es ↦ ∃ p i, d.ilookup ino = some p ∧ d.heap p = some i ∧ ListingOk size.toNat i es)
      (hsxFuseReaddirPlus ino size off) d := by
  refine .ilookup hd (fun hl ↦ .unanswered rfl ?_) fun p i hl hi ↦ ?_
  · rintro ⟨p, i, hsome, -, -⟩
    rw [hl] at hsome
    exact nomatch hsome
  · intro tr
    refine wp_mono ?_ ?_ (readdirPlus_judged hd hi size off tr)
    all_goals
      rintro _ d' _ ⟨es, rfl, hiff⟩
      refine ⟨es, rfl, fun hout ↦ (hiff hout).trans ⟨fun h ↦ ⟨p, i, hl, hi, h⟩, ?_⟩⟩
      rintro ⟨q, j, hq, hj, h⟩
      obtain rfl := Option.some.inj (hl.symm.trans hq)
      obtain rfl := Option.some.inj (hi.symm.trans hj)
      exact h

end handlers

/-- **Only cached inodes reach the kernel if and only if the objects are as they should be**,
whatever the server and the allocator do and however the handler ends. -/
theorem Request.onlyCached_iff {req : Request} (hreq : req.namesObjects = true) {rounds : Nat}
    {d d' : Daemon} {es : List Event} {out : Except Fault Unit} (hd : d.CacheOk)
    (hout : d.OutlastsListings es)
    (hx : Prog.Exec Server.record ((req.handle rounds).run d) [] (out, d') es) :
    d.OnlyCached d' ↔ req.ObjectsOk d es := by
  have hjudged : Judged (fun es ↦ req.ObjectsOk d es) (req.handle rounds) d := by
    cases req with
    | lookup parent name => exact hsxFuseLookup_judged hd parent name
    | mkdir parent name mode => exact hsxFuseMkdir_judged hd parent name mode
    | mknod parent name mode rdev => exact hsxFuseMknod_judged hd parent name mode rdev
    | symlink link parent name => exact hsxFuseSymlink_judged hd link parent name
    | create parent name mode flags uid gid =>
        exact hsxFuseCreate_judged hd parent name mode flags uid gid
    | readdirplus ino size off => exact hsxFuseReaddirPlus_judged hd ino size.toUInt64 off
    | _ => exact nomatch hreq
  obtain ⟨hok, hfault⟩ := wp_iff_exec.1 (hjudged [])
  cases out with
  | ok a =>
      obtain ⟨es', rfl, hiff⟩ := hok a d' es hx
      exact hiff hout
  | error e =>
      obtain ⟨es', rfl, hiff⟩ := hfault e d' es hx
      exact hiff hout

/-- The root is asked for a file, which the server describes. -/
theorem Request.onlyCached_iff_lookup :
    ∃ d es d', sampleMount = some d ∧ (Request.lookup 1 [102]).namesObjects = true ∧
      d.CacheOk ∧ d.OutlastsListings es ∧
      Prog.Exec Server.record (((Request.lookup 1 [102]).handle 0).run d) [] (.ok (), d') es ∧
      (d.OnlyCached d' ↔ (Request.lookup 1 [102]).ObjectsOk d es) := by
  have hplay : (sampleMount.bind fun d ↦
      (((Request.lookup 1 [102]).handle 0).run d).eval (Prog.recorded sampleAnswer) []).any
        (fun r ↦ decide (r.1.1 = .ok () ∧ listings r.2 = [])) = true := by decide +kernel
  obtain ⟨⟨⟨out, d'⟩, es⟩, hplay, htest⟩ := (Option.any_eq_true _ _).1 hplay
  obtain ⟨hok, hlist⟩ := of_decide_eq_true htest
  obtain rfl : out = .ok () := hok
  obtain ⟨d, hd, hplay⟩ := Option.bind_eq_some_iff.1 hplay
  have hx := Prog.exec_record_of_eval hplay
  have hcache := (mounted_of_play hd).extends_start.1
  have hout : d.OutlastsListings es := by
    intro resok hmem
    rw [hlist] at hmem
    exact absurd hmem List.not_mem_nil
  exact ⟨d, es, d', hd, rfl, hcache, hout, hx, onlyCached_iff rfl hcache hout hx⟩

/-- The server that sends no attributes with the file. -/
def bareAnswer : (c : Call) → Option c.Res
  | .clntCall _ (.lookup _ _) => some (.done (.ok ⟨NfsFh.ofByte 2, none⟩))
  | c => sampleAnswer c

/-- The lookup count of `bad_hsfs_inode` goes up, and then the daemon fails. -/
theorem Request.not_onlyCached_always :
    ¬ ∀ (req : Request) (rounds : Nat) (d d' : Daemon) (es : List Event) (out : Except Fault Unit),
      req.namesObjects = true → d.Mounted →
      Prog.Exec Server.record ((req.handle rounds).run d) [] (out, d') es → d.OnlyCached d' := by
  intro h
  have hplay : (sampleMount.bind fun d ↦
      ((((Request.lookup 1 [102]).handle 0).run d).eval (Prog.recorded bareAnswer) []).map fun r ↦
        (d.touched, r)).any
        (fun r ↦ r.1.isEmpty && r.2.1.2.touched.any fun q ↦ decide (q ∉ r.2.1.2.sb.idTable)) =
      true := by decide +kernel
  obtain ⟨⟨ts, ⟨out, d'⟩, es⟩, hplay, hall⟩ := (Option.any_eq_true _ _).1 hplay
  obtain ⟨d, hd, hplay⟩ := Option.bind_eq_some_iff.1 hplay
  obtain ⟨_, hplay, heq⟩ := Option.map_eq_some_iff.1 hplay
  cases heq
  rw [Bool.and_eq_true, List.isEmpty_iff, List.any_eq_true] at hall
  obtain ⟨hnil, q, hq, hnot⟩ := hall
  obtain ⟨ts, rs, ht, -, hmem, -⟩ :=
    h (.lookup 1 [102]) 0 d d' es out rfl (mounted_of_play hd) (Prog.exec_record_of_eval hplay)
  have hq' : q ∈ ts := by
    have hempty : d.touched = [] := hnil
    rw [ht, hempty, List.nil_append] at hq
    exact hq
  exact of_decide_eq_true hnot (hmem q hq')

end Hsfs
