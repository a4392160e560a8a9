import Hsfs.Fuse.ErrorReplies

/-!
# Refused attributes

Four handlers pass on what `nfs_refresh_inode` returns: `-ESTALE`, a negative number, if the server
tells attributes of another object or of another type.  All handlers but one pass on the number that
comes with a failed call.  These are the only ways in which the kernel gets a number that is no
error number (`Session.errors_ok_iff`).
-/

namespace Hsfs

open Interact Interact.Act Daemon

/-! ## What is offered to an inode -/

/-- The attributes in a reply that are offered to the inode of the request. -/
def offeredBy : (req : Rpc) → req.Res → Option Fattr3
  | .getattr _, .ok attr => some attr
  | .link _ _ _, .ok after => after
  | .readdir _ _ _ _, .ok resok => resok.dirAttributes
  | .readdirplus _ _ _ _ _, .ok resok => resok.dirAttributes
  | _, _ => none

/-- The attributes in all replies that are offered to an inode. -/
def offers (es : List Event) : List Fattr3 := picked offeredBy es

/-- The inode takes all attributes that are offered to it. -/
def Inode.TakesAll (i : Inode) (es : List Event) : Prop := ∀ attr ∈ offers es, i.takes attr = true

/-- Whatever is offered to the cached inode with the number, it takes. -/
def Daemon.Accepts (d : Daemon) (ino : UInt64) (es : List Event) : Prop :=
  ∀ p ∈ d.ilookup ino, ∀ i ∈ d.heap p, i.TakesAll es

/-- The server tells nothing that contradicts the cached inode whose refresh decides about the
answer. -/
def Request.Consistent (req : Request) (d : Daemon) (es : List Event) : Prop :=
  ∀ ino ∈ req.refreshes, d.Accepts ino es

/-- If the event is a failed call that is reported, it comes with an error number. -/
def Request.ErrnoOk (req : Request) : Event → Prop
  | ⟨.clntCall _ rpc, .failed reErrno⟩ => req.reports rpc = true → ValidErrno reErrno
  | _ => True

/-- All failed calls that are reported come with error numbers. -/
def Request.ErrnosOk (req : Request) (es : List Event) : Prop := ∀ e ∈ es, req.ErrnoOk e

instance (req : Request) : DecidablePred req.ErrnoOk
  | ⟨.clntCall _ rpc, .failed reErrno⟩ =>
      inferInstanceAs (Decidable (req.reports rpc = true → ValidErrno reErrno))
  | ⟨.clntCall _ _, .done _⟩ | ⟨.mallocInode _ _ _, _⟩ | ⟨.malloc, _⟩ | ⟨.openclnt _, _⟩ |
    ⟨.ping _, _⟩ => .isTrue trivial

instance (req : Request) : DecidablePred req.ErrnosOk :=
  fun es ↦ inferInstanceAs (Decidable (∀ e ∈ es, req.ErrnoOk e))

/-- What is watched in the events of a request. -/
def Request.watch (req : Request) (d : Daemon) : Watch where
  fails := req.reports
  takes := fun rpc res ↦ ∀ ino ∈ req.refreshes, ∀ p ∈ d.ilookup ino, ∀ i ∈ d.heap p,
    ∀ attr ∈ offeredBy rpc res, i.takes attr = true

theorem Request.clean_watch_iff {req : Request} {d : Daemon} {es : List Event} :
    (req.watch d).Clean es ↔ req.Consistent d es ∧ req.ErrnosOk es := by
  constructor
  · refine fun h ↦ ⟨fun ino hino p hp i hi attr hattr ↦ ?_, fun e he ↦ ?_⟩
    · obtain ⟨e, he, hpick⟩ := List.mem_filterMap.1 hattr
      have hok := h e he
      unfold pick at hpick
      split at hpick
      · exact hok ino hino p hp i hi attr hpick
      · exact absurd hpick.symm (Option.some_ne_none _)
    · have hok := h e he
      unfold Request.ErrnoOk
      split
      · exact hok
      · trivial
  · rintro ⟨hcons, herrnos⟩ e he
    unfold Watch.Ok
    split
    · exact herrnos _ he
    · next clnt rpc res =>
        intro ino hino p hp i hi attr hattr
        exact hcons ino hino p hp i hi attr (List.mem_filterMap.2 ⟨_, he, hattr⟩)
    · trivial

/-! ## The operations with a refresh -/

/-- The failures of all calls are watched, and so is what is offered to an inode. -/
structure Watch.IsFor (w : Watch) (i : Inode) : Prop where
  fails : ∀ req, w.fails req = true
  takes : ∀ req res, w.takes req res ↔ ∀ attr ∈ offeredBy req res, i.takes attr = true

section operations

variable {α β : Type} {w : Watch} {d : Daemon} {p q : Addr} {i j : Inode} {W : β → Prop}

/-- First a call, which leaves the inodes alone. -/
theorem Judges.call_bind {req : Rpc} {x : Hs (Except Int req.Res)} {f : Except Int req.Res → Hs β}
    (hw : w.IsFor i) (hjudges : Judges w True w.ReplyOk x d)
    (hx : Ends (Called d req) (fun _ _ _ ↦ False) x d)
    (herror : ∀ err d', d'.Settled → err ≠ 0 → Judges w (ValidErrno err) W (f (.error err)) d')
    (hok : ∀ res d', d'.Settled → d'.heap = d.heap →
      Judges w (∀ attr ∈ offeredBy req res, i.takes attr = true) W (f (.ok res)) d') :
    Judges w True W (x >>= f) d := by
  refine hjudges.bind (T := fun r d' ↦ d'.heap = d.heap ∧ ∀ err, r = .error err → err ≠ 0)
    (hx.mono ?_ fun _ _ _ _ ↦ trivial) ?_
  · rintro es r d' ⟨hcall, honly⟩
    refine ⟨honly.heap, ?_⟩
    rintro err rfl
    exact hcall.err_ne_zero
  · rintro (err | res) d' hd' ⟨hheap, hne⟩
    · exact herror err d' hd' (hne err rfl)
    · exact (hok res d' hd' hheap).congr (hw.takes req res).symm

/-- A reply without attributes is as good as any. -/
theorem Judges.of_none {x : Hs β} (h : Judges w True W x d) :
    Judges w (∀ attr ∈ (none : Option Fattr3), i.takes attr = true) W x d :=
  h.congr (iff_of_true trivial fun _ h ↦ absurd h.symm (Option.some_ne_none _))

/-- **A refresh** returns no error number exactly if the inode does not take the attributes. -/
theorem judges_refresh (hd : d.Settled) (hi : d.heap p = some i) (post : Option Fattr3) :
    Judges w (∀ attr ∈ post, i.takes attr = true) ValidErrno
      (nfsRefreshInode p (hsiNfs3Post2fattr post NfsFattr.fresh)) d := by
  have hstatus : ∃ d', (nfsRefreshInode p (hsiNfs3Post2fattr post NfsFattr.fresh)).run d =
      .ret (.ok (post.elim 0 i.refreshStatus), d') := by
    cases post with
    | none => exact ⟨d, nfsRefreshInode_run hi _⟩
    | some attr => exact nfsRefreshInode_attr_run hi attr
  have hvalid : ValidErrno (post.elim 0 i.refreshStatus) ↔ ∀ attr ∈ post, i.takes attr = true := by
    cases post with
    | none =>
        have hzero : ValidErrno 0 := by decide
        exact iff_of_true hzero fun _ h ↦ absurd h.symm (Option.some_ne_none _)
    | some attr =>
        have hmem : (∀ attr' ∈ some attr, i.takes attr' = true) ↔ i.takes attr = true :=
          ⟨fun h ↦ h attr rfl, fun h _ hattr ↦ Option.some.inj hattr ▸ h⟩
        rw [hmem, Option.elim_some]
        unfold Inode.refreshStatus
        split
        · next h => exact iff_of_true (by decide) h
        · next h => exact iff_of_false (by decide) h
  obtain ⟨d', hrun⟩ := hstatus
  have hret : Ends (fun es r _ ↦ es = [] ∧ r = post.elim 0 i.refreshStatus) (fun _ _ _ ↦ False)
      (nfsRefreshInode p (hsiNfs3Post2fattr post NfsFattr.fresh)) d := .of_ret hrun ⟨rfl, rfl⟩
  refine ((Harmless.refresh (w := w) p _ d hd).and hret).mono ?_ fun _ _ _ h ↦ h.2.elim
  rintro _ _ d₁ ⟨⟨hd₁, hreplies, -⟩, rfl, rfl⟩
  exact ⟨hd₁, hreplies, hvalid.trans (and_iff_left Watch.clean_nil).symm⟩

/-- **`hsi_nfs3_getattr`.** -/
theorem judges_getattr (hw : w.IsFor i) (hd : d.Settled) (hi : d.heap p = some i)
    (st : Option Stat) : Judges w True (fun r ↦ ValidErrno r.1) (hsiNfs3Getattr p st) d := by
  refine Ends.ret_bind (getfh3_run hi) ?_
  unfold hsiNfs3DoGetattr
  rw [bind_bind]
  refine Judges.call_bind hw (Safe.anyCall (hw.fails _) d.sb.clntp d hd) (ends_callSb _) ?_ ?_
  · intro err d₁ hd₁ herr
    refine Ends.ret_bind rfl ?_
    dsimp only
    rw [if_pos herr]
    exact Safe.pure Iff.rfl d₁ hd₁
  · rintro (attr | status) d₁ hd₁ hheap
    -- the reply is given back first
    all_goals have hd₂ : (d₁.useClient d₁.sb.clntp).Settled := ⟨hd₁.inodes, hd₁.place⟩
    · refine Judges.congr (P := ∀ a ∈ some attr, i.takes a = true) Iff.rfl (Ends.ret_bind rfl ?_)
      dsimp only
      rw [if_neg (not_not_intro rfl)]
      have hi₂ : (d₁.useClient d₁.sb.clntp).heap p = some i := hheap ▸ hi
      exact (judges_refresh hd₂ hi₂ (some attr)).then_ fun _ ↦ .pure Iff.rfl
    · refine Judges.of_none (Ends.ret_bind rfl ?_)
      dsimp only
      rw [if_pos (hsiNfs3StatToErrno_ne_zero status.2)]
      exact Safe.valid (validErrno_stat status) _ hd₂

/-- **`hsi_nfs3_link`.** -/
theorem judges_link (hw : w.IsFor i) (hd : d.Settled) (hi : d.heap p = some i)
    (hj : d.heap q = some j) (name : Name) :
    Judges w True ValidErrno (hsiNfs3Link p q name) d := by
  unfold hsiNfs3Link
  split
  · exact Safe.valid (by decide : ValidErrno Errno.nametoolong) d hd
  refine Ends.ret_bind (getfh3_run hi) (Ends.ret_bind (getfh3_run hj) ?_)
  have hmalloc : Ends (fun _ _ d' ↦ d' = d) (fun _ _ _ ↦ True) malloc d :=
    fun _ ↦ wp_malloc fun _ ↦ ⟨_, rfl, rfl⟩
  refine ((TouchFrame.harmless w).malloc d hd).bind (T := fun _ d' ↦ d' = d) hmalloc ?_
  rintro (_ | _) d' - hd'
  all_goals subst d'
  · exact Safe.valid (by decide : ValidErrno Errno.nomem) d hd
  refine Ends.ret_bind (x := sbClntp) rfl
    (Judges.call_bind hw (Safe.anyCall (hw.fails _) d.sb.clntp d hd) (ends_call (.inl rfl) _) ?_ ?_)
  · exact fun err d₁ hd₁ _ ↦ Safe.pure Iff.rfl d₁ hd₁
  · rintro ((_ | attr) | status) d₁ hd₁ hheap
    · -- no attributes, so that they are asked for
      exact .of_none ((judges_getattr hw hd₁ (hheap ▸ hi) none).then_ fun _ ↦
        .bind (.freeres _) fun _ ↦ .pure Iff.rfl)
    · refine Judges.congr (P := ∀ a ∈ some attr, i.takes a = true) Iff.rfl ?_
      have hvalid : (hsiNfs3Post2fattr (some attr) NfsFattr.fresh).isValid = true :=
        isValid_hsiNfs3Fattr2fattr attr NfsFattr.fresh
      dsimp only
      rw [if_pos hvalid]
      exact (judges_refresh hd₁ (hheap ▸ hi) (some attr)).then_ fun _ ↦
        .bind (.freeres _) fun _ ↦ .pure Iff.rfl
    · exact .of_none (Safe.bind (.freeres _) (fun _ ↦ .valid (validErrno_stat status)) d₁ hd₁)

/-- A refresh whose error is passed on, and something else if there is none. -/
theorem judges_refreshed {c : Client} {tail : Hs (Int × List ReaddirCtx)} (hd : d.Settled)
    (hi : d.heap p = some i) (post : Option Fattr3)
    (htail : Safe w True (fun r ↦ ValidErrno r.1) tail) :
    Judges w (∀ attr ∈ post, i.takes attr = true) (fun r ↦ ValidErrno r.1)
      (do
        let err ← nfsRefreshInode p (hsiNfs3Post2fattr post NfsFattr.fresh)
        if err ≠ 0 then
          clntFreeres c
          pure (err, [])
        else tail) d := by
  refine (judges_refresh hd hi post).then_ fun err ↦ ?_
  split
  · exact .bind (.freeres c) fun _ ↦ .pure Iff.rfl
  · next herr =>
      have hvalid : ValidErrno err := not_not.1 herr ▸ by decide
      exact htail.congr (iff_true_intro hvalid).symm

/-- The loop over the entries of a reply to `READDIR`. -/
theorem Safe.readdirEntries (entries : List Entry3) (ctx : List ReaddirCtx) :
    Safe w True (fun r ↦ ValidErrno r.1) (readdirEntries entries ctx) := by
  induction entries generalizing ctx with
  | nil => exact .valid (by decide : ValidErrno 0)
  | cons entry entries ih =>
      exact .seq ((TouchFrame.harmless w).allocCopyName _) fun
        | none => .valid (by decide : ValidErrno Errno.nomem)
        | some _ => ih _

/-- The loop over the entries of a reply to `READDIRPLUS`. -/
theorem Safe.readdirPlusEntries (entries : List Entryplus3) (ctx : List ReaddirCtx) :
    Safe w True (fun r ↦ ∀ e, r = .error e → ValidErrno e.1) (readdirPlusEntries entries ctx) := by
  have herror {err : Int} (ctx : List ReaddirCtx) (h : ValidErrno err) :
      Safe w True (fun r ↦ ∀ e, r = .error e → ValidErrno e.1)
        (Pure.pure (.error (err, ctx)) : Hs (Except _ (List ReaddirCtx))) := by
    refine .valid fun e he ↦ ?_
    obtain rfl := Except.error.inj he
    exact h
  induction entries generalizing ctx with
  | nil => exact .valid fun _ h ↦ nomatch h
  | cons entry entries ih =>
      refine .seq ((TouchFrame.harmless w).allocCopyName _) fun
        | none => herror ctx (by decide)
        | some name => ?_
      cases entry.nameHandle with
      | none => exact herror ctx (by decide)
      | some fh =>
          refine .fhgetThen fh _ fun new hnew ↦ ?_
          rw [hnew, if_neg Bool.false_ne_true]
          exact ih _

/-- **`hsi_nfs3_readdir`.** -/
theorem judges_readdir (hw : w.IsFor i) (hd : d.Settled) (hi : d.heap p = some i) (count : UInt32)
    (cookie : UInt64) :
    Judges w True (fun r ↦ ValidErrno r.1) (hsiNfs3Readdir p count cookie) d := by
  refine Ends.ret_bind (x := sbClntp) rfl (Ends.ret_bind (getCookieVerf_run hi)
    (Ends.ret_bind (getfh3_run hi) (Judges.call_bind hw
      (Safe.anyCall (hw.fails _) d.sb.clntp d hd) (ends_call (.inl rfl) _) ?_ ?_)))
  · exact fun err d₁ hd₁ _ ↦ Safe.pure Iff.rfl d₁ hd₁
  · rintro (resok | status) d₁ hd₁ hheap
    · exact judges_refreshed hd₁ (hheap ▸ hi) resok.dirAttributes <|
        .seq (Harmless.setCookieVerf p _) fun _ ↦ .bind (.readdirEntries _ _) fun _ ↦
          .bind (.freeres _) fun _ ↦ .pure Iff.rfl
    · exact .of_none (Safe.bind (.freeres _) (fun _ ↦ .valid (validErrno_stat status)) d₁ hd₁)

/-- **`hsi_nfs3_readdir_plus`.** -/
theorem judges_readdirPlus (hw : w.IsFor i) (hd : d.Settled) (hi : d.heap p = some i)
    (count : UInt32) (cookie : UInt64) (maxcount : UInt32) :
    Judges w True (fun r ↦ ValidErrno r.1) (hsiNfs3ReaddirPlus p count cookie maxcount) d := by
  have ht := TouchFrame.harmless w
  refine Ends.ret_bind (x := sbClntp) rfl (Ends.ret_bind (getCookieVerf_run hi)
    (Ends.ret_bind (getfh3_run hi) (Judges.call_bind hw
      (Safe.anyCall (hw.fails _) d.sb.clntp d hd) (ends_call (.inl rfl) _) ?_ ?_)))
  · exact fun err d₁ hd₁ _ ↦ Safe.pure Iff.rfl d₁ hd₁
  · rintro (resok | status) d₁ hd₁ hheap
    · refine judges_refreshed hd₁ (hheap ▸ hi) resok.dirAttributes <|
        .seq (Harmless.setCookieVerf p _) fun _ ↦ .bind_valid (.readdirPlusEntries _ _)
          (ht.readdirPlusEntries Harmless.fhget _ _) fun
          | .ok _, _ => .bind (.freeres _) fun _ ↦ .valid (by decide : ValidErrno 0)
          | .error (err, ctx), h => .seq (ht.freeCtx Harmless.iput ctx) fun _ ↦
              .bind (.freeres _) fun _ ↦ .valid (h (err, ctx) rfl)
    · exact .of_none (Safe.bind (.freeres _) (fun _ ↦ .valid (validErrno_stat status)) d₁ hd₁)

end operations

/-! ## The handlers with a refresh -/

section handlers

variable {w : Watch} {d : Daemon} {ino : UInt64}

/-- A handler that looks the inode up. -/
theorem SoundAt.ilookup {f : Option Addr → Hs Unit} (hnone : SoundAt w True (f none) d)
    (hsome : ∀ p i, d.ilookup ino = some p → d.heap p = some i → SoundAt w True (f (some p)) d) :
    SoundAt w True (hsfsIlookup ino >>= f) d := by
  rcases d.hsfsIlookup_cases ino with ⟨-, hrun⟩ | ⟨p, i, hl, hi, hrun⟩ | ⟨p, -, -, hrun⟩
  · exact Ends.ret_bind hrun hnone
  · exact Ends.ret_bind hrun (hsome p i hl hi)
  · exact Ends.of_fault (by rw [run_bind, hrun]; rfl)
      (iff_of_true (.of_eq rfl) ⟨trivial, Watch.clean_nil⟩)

variable (hd : d.Settled)
  (hw : ∀ p i, d.ilookup ino = some p → d.heap p = some i → w.IsFor i)

include hd hw

theorem SoundAt.hsxFuseGetattr : SoundAt w True (hsxFuseGetattr ino) d :=
  .ilookup (Sound.noent d hd) fun p i hl hi ↦
    .bind (judges_getattr (hw p i hl hi) hd hi _) fun _ ↦
      Sound.errOr (.seq ((TouchFrame.harmless w).attrTimeout p) fun _ ↦ .reply rfl)

theorem SoundAt.hsxFuseLink (newparent : UInt64) (newname : Name) :
    SoundAt w True (hsxFuseLink ino newparent newname) d := by
  have ht := TouchFrame.harmless w
  have hquit : Sound w True (pure ()) := .of_harmless (.valid trivial)
  refine .ilookup (hquit d hd) fun q j _ hj ↦ .ilookup (hquit d hd) fun p i hl hi ↦
    .bind (judges_link (hw p i hl hi) hd hi hj newname) fun _ ↦ Sound.errOr <|
      .seq ht.malloc fun _ ↦ .ite (.seq (ht.fillReply p) fun _ ↦ .reply rfl) .nomem

theorem SoundAt.hsxFuseReaddir (size off : UInt64) :
    SoundAt w True (hsxFuseReaddir ino size off) d := by
  have ht := TouchFrame.harmless w
  exact .ilookup (Sound.of_harmless (ht.assertThat _ _) d hd) fun p i hl hi ↦
    .bind (judges_readdir (hw p i hl hi) hd hi _ off) fun _ ↦ Sound.errOr <|
      .seq ht.malloc fun _ ↦ .ite (.reply rfl) .nomem

theorem SoundAt.hsxFuseReaddirPlus (size off : UInt64) :
    SoundAt w True (hsxFuseReaddirPlus ino size off) d := by
  have ht := TouchFrame.harmless w
  exact .ilookup (Sound.of_harmless (ht.assertThat _ _) d hd) fun p i hl hi ↦
    .bind (judges_readdirPlus (hw p i hl hi) hd hi _ off _) fun _ ↦ Sound.errOr <|
      .seq ht.malloc fun _ ↦ .ite (.seq (ht.addDirentsPlus _ _ _) fun _ ↦ .reply rfl) .nomem

end handlers

/-! ## All handlers -/

/-- What is watched is what is offered to the cached inode. -/
theorem Request.watch_isFor {req : Request} {d : Daemon} {ino : UInt64} {p : Addr} {i : Inode}
    (href : req.refreshes = some ino) (hreports : ∀ rpc, req.reports rpc = true)
    (hl : d.ilookup ino = some p) (hi : d.heap p = some i) : (req.watch d).IsFor i where
  fails := hreports
  takes := by
    intro rpc res
    constructor
    · exact fun h ↦ h ino href p hl i hi
    · rintro h ino' hino' p' hp' i' hi'
      obtain rfl := Option.some.inj (href.symm.trans hino')
      obtain rfl := Option.some.inj (hl.symm.trans hp')
      obtain rfl := Option.some.inj (hi.symm.trans hi')
      exact h

/-- **The errors that a handler answers are error numbers exactly if nothing is wrong with its
calls.** -/
theorem Request.soundAt (req : Request) (rounds : Nat) {d : Daemon} (hd : d.Settled) :
    SoundAt (req.watch d) True (req.handle rounds) d := by
  cases href : req.refreshes with
  | none =>
      refine req.sound href (fun _ ↦ rfl) (fun rpc res ino hino ↦ ?_) rounds d hd
      exact absurd (hino.symm.trans href) (Option.some_ne_none _)
  | some ino =>
      cases req with
      | getattr n =>
          exact SoundAt.hsxFuseGetattr hd fun _ _ ↦ Request.watch_isFor rfl fun _ ↦ rfl
      | link n newparent newname =>
          exact SoundAt.hsxFuseLink hd (fun _ _ ↦ Request.watch_isFor rfl fun _ ↦ rfl) _ _
      | readdir n size off =>
          exact SoundAt.hsxFuseReaddir hd (fun _ _ ↦ Request.watch_isFor rfl fun _ ↦ rfl) _ _
      | readdirplus n size off =>
          exact SoundAt.hsxFuseReaddirPlus hd (fun _ _ ↦ Request.watch_isFor rfl fun _ ↦ rfl) _ _
      | _ => exact absurd href.symm (Option.some_ne_none _)

/-- **In every state that is reached, the errors that the kernel gets are error numbers exactly if
the server contradicts nothing that is cached and the failed calls that are reported come with error
numbers.** -/
theorem Session.errors_ok_iff {steps : List Step} {d : Daemon}
    (h : Session (fun _ _ ↦ True) steps d)
    (req : Request) (rounds : Nat) {out : Except Fault Unit} {d' : Daemon} {es : List Event}
    (hx : Prog.Exec Server.record ((req.handle rounds).run d) [] (out, d') es) :
    d.ErrorsOk d' ↔ req.Consistent d es ∧ req.ErrnosOk es := by
  have hsound := req.soundAt rounds h.settled
  rw [← Request.clean_watch_iff]
  cases out with
  | ok _ => exact (hsound.exec_ok hx).trans (and_iff_right trivial)
  | error _ => exact (hsound.exec_error hx).trans (and_iff_right trivial)

/-- A file is looked up, and then the server is asked for its attributes. -/
def sampleGetattr (g : (c : Call) → Option c.Res) :
    Option ((List Step × Daemon) × List Event × Daemon) :=
  sampleMount.bind fun d ↦
    (playSession (fun _ _ ↦ true) g 0 [.init, .lookup 1 [102]] [] d).bind fun r ↦
      (Request.play g 0 (.getattr 2) r.2).map fun q ↦ (r, q)

theorem of_sampleGetattr {g : (c : Call) → Option c.Res} {steps : List Step} {d d' : Daemon}
    {es : List Event} (h : sampleGetattr g = some ((steps, d), es, d')) :
    Session (fun _ _ ↦ True) steps d ∧ ∃ rounds,
      Prog.Exec Server.record ((Request.handle rounds (.getattr 2)).run d) [] (.ok (), d') es := by
  obtain ⟨d₀, hd₀, hplay⟩ := Option.bind_eq_some_iff.1 h
  obtain ⟨⟨steps', d₁⟩, hplay, hlast⟩ := Option.bind_eq_some_iff.1 hplay
  obtain ⟨⟨es', d₂⟩, hlast, heq⟩ := Option.map_eq_some_iff.1 hlast
  cases heq
  exact ⟨(Session.of_play (.mounted (mounted_of_play hd₀)) hplay).mono fun _ _ _ ↦ trivial,
    Request.handled_of_play hlast⟩

/-- The server tells the attributes that are cached. -/
theorem Session.errors_ok_iff_getattr :
    ∃ steps d es d' rounds, Session (fun _ _ ↦ True) steps d ∧
      Prog.Exec Server.record ((Request.handle rounds (.getattr 2)).run d) [] (.ok (), d') es ∧
      offers es = [sampleFile 2] ∧ d.ErrorsOk d' := by
  have hplay : (sampleGetattr sampleAnswer).any (fun q ↦
      decide ((Request.getattr 2).ErrnosOk q.2.1) &&
      decide (offers q.2.1 = [sampleFile 2]) && (q.1.2.ilookup 2).all fun p ↦
        (q.1.2.heap p).all fun i ↦ i.takes (sampleFile 2)) = true := by decide +kernel
  obtain ⟨⟨⟨steps, d⟩, es, d'⟩, hplay, htest⟩ := (Option.any_eq_true _ _).1 hplay
  obtain ⟨htest, htakes⟩ := Bool.and_eq_true_iff.1 htest
  obtain ⟨herrnos, hoffers⟩ := Bool.and_eq_true_iff.1 htest
  obtain ⟨hs, rounds, hx⟩ := of_sampleGetattr hplay
  have hoffers := of_decide_eq_true hoffers
  refine ⟨steps, d, es, d', rounds, hs, hx, hoffers, ?_⟩
  refine (Session.errors_ok_iff hs (.getattr 2) rounds hx).2 ⟨?_, of_decide_eq_true herrnos⟩
  rintro _ ⟨⟩ p hp i hi attr hattr
  rw [hoffers] at hattr
  rw [List.mem_singleton.1 hattr]
  exact (Option.all_eq_true _ _).1 ((Option.all_eq_true _ _).1 htakes p hp) i hi

/-- The server takes the file for a directory, and the kernel gets `-ESTALE`, although no call
fails. -/
theorem Session.not_errors_ok : ¬ ∀ steps d, Session (fun _ _ ↦ True) steps d →
    ∀ (req : Request) rounds out d' es,
      Prog.Exec Server.record ((req.handle rounds).run d) [] (out, d') es → req.ErrnosOk es →
        d.ErrorsOk d' := by
  have hplay : (sampleGetattr confusedAnswer).any (fun q ↦
      decide ((Request.getattr 2).ErrnosOk q.2.1) &&
      decide (q.2.2.replies = q.1.2.replies ++ [.err (-116)])) = true := by decide +kernel
  obtain ⟨⟨⟨steps, d⟩, es, d'⟩, hplay, htest⟩ := (Option.any_eq_true _ _).1 hplay
  obtain ⟨herrnos, hreplies⟩ := Bool.and_eq_true_iff.1 htest
  obtain ⟨hs, rounds, hx⟩ := of_sampleGetattr hplay
  intro hall
  have hok := hall steps d hs _ rounds _ d' es hx (of_decide_eq_true herrnos)
  rw [ErrorsOk.iff_of_append (of_decide_eq_true hreplies)] at hok
  exact absurd (hok (-116) List.mem_cons_self) (by decide)

end Hsfs
