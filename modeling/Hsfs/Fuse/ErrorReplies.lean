import Hsfs.Fuse.Answers
import Hsfs.Fuse.Asks
import Hsfs.Fuse.Identity
import Hsfs.Nfs3.Effects

/-!
# Error numbers for the kernel

`fuse_reply_err` takes zero or a positive error number.  Errors come from three places: the status
of a reply and the failure of a call are translated to positive numbers, the inode cache returns
negative ones, and a pointer may stand for an error.  The last kind never gets anywhere, since
`IS_ERR` takes no pointer for an error that is one.  The second kind reaches the kernel where a
handler passes on what `nfs_refresh_inode` returns.  The failure of a call is as good as the number
that the RPC library gives for it.

What has to be watched is therefore in the events: the numbers of failed calls, and the attributes
in replies (`Watch`).  `Safe` is the judgement by which we follow error numbers through a piece of
code, from both sides: its result is valid exactly if nothing has gone wrong up to its end.
-/

namespace Hsfs

open Interact Interact.Act Daemon

/-! ## Error numbers -/

/-- What `fuse_reply_err` takes. -/
def ValidErrno (err : Int) : Prop := 0 ≤ err ∧ err < 1000

instance : DecidablePred ValidErrno :=
  fun err ↦ inferInstanceAs (Decidable (0 ≤ err ∧ err < 1000))

theorem validErrno_stat (status : Int) : ValidErrno (hsiNfs3StatToErrno status) := by
  unfold hsiNfs3StatToErrno
  cases hl : nfsErrtbl.lookup status with
  | none => exact (by decide : ValidErrno Errno.io)
  | some err =>
      obtain ⟨l₁, l₂, htbl, -⟩ := List.lookup_eq_some_iff.1 hl
      have hrow : ∀ row ∈ nfsErrtbl, ValidErrno row.2 := by decide
      exact hrow (status, err) (htbl ▸ List.mem_append_right _ List.mem_cons_self)

theorem validErrno_rpc_iff {reErrno : Int} :
    ValidErrno (hsiRpcStatToErrno reErrno) ↔ ValidErrno reErrno := by
  unfold hsiRpcStatToErrno
  split
  · next h =>
      rw [h]
      decide
  · rfl

/-- The answer is an error. -/
def Reply.isErr : Reply → Bool
  | .err _ => true
  | _ => false

/-- The errors that have been answered in the meantime are error numbers. -/
def Daemon.ErrorsOk (d d' : Daemon) : Prop :=
  ∃ rs, d'.replies = d.replies ++ rs ∧ ∀ err, Reply.err err ∈ rs → ValidErrno err

namespace Daemon.ErrorsOk

variable {d d' d'' : Daemon}

theorem iff_of_append {rs : List Reply} (h : d'.replies = d.replies ++ rs) :
    d.ErrorsOk d' ↔ ∀ err, Reply.err err ∈ rs → ValidErrno err := by
  refine ⟨fun ⟨rs', h', hok⟩ ↦ ?_, fun hok ↦ ⟨rs, h, hok⟩⟩
  rwa [List.append_cancel_left (h'.symm.trans h)] at hok

theorem of_eq (h : d'.replies = d.replies) : d.ErrorsOk d' :=
  ⟨[], h.trans (List.append_nil _).symm, fun _ h ↦ absurd h List.not_mem_nil⟩

theorem congr (h : d'.replies = d.replies) : d'.ErrorsOk d'' ↔ d.ErrorsOk d'' := by
  unfold ErrorsOk
  rw [h]

end Daemon.ErrorsOk

/-! ## What is watched -/

/-- What is watched in the events of a request: the error numbers of some failed calls, and
something about the replies. -/
structure Watch where
  fails : Rpc → Bool
  takes : (req : Rpc) → req.Res → Prop

namespace Watch

variable {w : Watch} {es es' : List Event}

/-- Nothing is wrong with an event. -/
def Ok (w : Watch) : Event → Prop
  | ⟨.clntCall _ req, .failed reErrno⟩ => w.fails req = true → ValidErrno reErrno
  | ⟨.clntCall _ req, .done res⟩ => w.takes req res
  | _ => True

/-- Nothing is wrong with some events. -/
def Clean (w : Watch) (es : List Event) : Prop := ∀ e ∈ es, w.Ok e

theorem clean_nil : w.Clean [] := fun _ h ↦ absurd h List.not_mem_nil

theorem clean_append : w.Clean (es ++ es') ↔ w.Clean es ∧ w.Clean es' := List.forall_mem_append

/-- Whatever comes back from the call, nothing is wrong. -/
structure Ignores (w : Watch) (req : Rpc) : Prop where
  fails : w.fails req = false
  takes : ∀ res, w.takes req res

theorem clean_of_asked (h : ∀ req ∈ asked es, w.Ignores req) : w.Clean es := by
  intro e he
  have hasked (req : Rpc) (hreq : askedBy e = some req) : w.Ignores req :=
    h req (List.mem_filterMap.2 ⟨e, he, hreq⟩)
  unfold Ok
  split
  · next req reErrno =>
      exact fun hfails ↦ absurd ((hasked req rfl).fails.symm.trans hfails) Bool.false_ne_true
  · next req res => exact (hasked req rfl).takes res
  · trivial

/-- The number of a failed call is watched, and nothing else. -/
structure Plain (w : Watch) (req : Rpc) : Prop where
  fails : w.fails req = true
  takes : ∀ res, w.takes req res

/-- What comes back from a call is all right. -/
def ReplyOk (w : Watch) {req : Rpc} : Except Int req.Res → Prop
  | .error err => ValidErrno err
  | .ok res => w.takes req res

end Watch

/-! ## Following error numbers -/

/-- The result of `x` has the property `V` exactly if `P` holds and nothing is wrong with the events
so far; the code answers nothing, and does not fault if something is wrong. -/
def Judges {α : Type} (w : Watch) (P : Prop) (V : α → Prop) (x : Hs α) (d : Daemon) : Prop :=
  Ends (fun es a d' ↦ d'.Settled ∧ d'.replies = d.replies ∧ (V a ↔ P ∧ w.Clean es))
    (fun es _ d' ↦ d'.replies = d.replies ∧ P ∧ w.Clean es) x d

/-- The same in all states. -/
def Safe {α : Type} (w : Watch) (P : Prop) (V : α → Prop) (x : Hs α) : Prop :=
  ∀ d, d.Settled → Judges w P V x d

/-- Nothing goes wrong. -/
abbrev Harmless (w : Watch) {α : Type} (x : Hs α) : Prop := Safe w True (fun _ ↦ True) x

section rules

variable {α β : Type} {w : Watch} {P Q : Prop} {V : α → Prop} {W : β → Prop} {x : Hs α}
  {f : α → Hs β} {d d' : Daemon} {a : α}

/-- **One piece of code after the other**, where something else is known about the first. -/
theorem Judges.bind {T : α → Daemon → Prop} (hx : Judges w P V x d)
    (hT : Ends (fun _ a d' ↦ T a d') (fun _ _ _ ↦ True) x d)
    (hf : ∀ a d', d'.Settled → T a d' → Judges w (V a) W (f a) d') :
    Judges w P W (x >>= f) d := by
  refine Ends.bind (Ends.and hx hT) ?_ fun _ _ _ h ↦ h.1
  rintro es a d₁ ⟨⟨hd₁, hreplies, hV⟩, hfact⟩
  refine (hf a d₁ hd₁ hfact).mono ?_ ?_
  · rintro es' b d₂ ⟨hd₂, hreplies', hW⟩
    refine ⟨hd₂, hreplies'.trans hreplies, ?_⟩
    rw [hW, hV, Watch.clean_append, and_assoc]
  · rintro es' e d₂ ⟨hreplies', hfault⟩
    refine ⟨hreplies'.trans hreplies, ?_⟩
    rwa [hV, and_assoc, ← Watch.clean_append] at hfault

/-- One piece of code after the other. -/
theorem Judges.then_ (hx : Judges w P V x d) (hf : ∀ a, Safe w (V a) W (f a)) :
    Judges w P W (x >>= f) d :=
  hx.bind (T := fun _ _ ↦ True) (.of_forall (fun _ _ _ ↦ trivial) fun _ _ _ ↦ trivial)
    fun a d' hd' _ ↦ hf a d' hd'

/-- Code that needs no call and leaves the inodes alone. -/
theorem Judges.of_ret (hd : d.Settled) (hx : x.run d = .ret (.ok a, d'))
    (hl : d'.layout = d.layout) (hh : d'.heap = d.heap) (hr : d'.replies = d.replies)
    (h : V a ↔ P) : Judges w P V x d :=
  Ends.of_ret hx ⟨(KeepsIdentity.of_heap created_nil hl hh hd).settled, hr,
    h.trans (and_iff_left Watch.clean_nil).symm⟩

theorem Judges.congr (h : P ↔ Q) (hx : Judges w P V x d) : Judges w Q V x d := by
  rwa [Judges, ← propext h]

namespace Safe

theorem congr (h : P ↔ Q) (hx : Safe w P V x) : Safe w Q V x :=
  fun d hd ↦ (hx d hd).congr h

theorem pure (h : V a ↔ P) : Safe w P V (Pure.pure a) := fun _ hd ↦ .of_ret hd rfl rfl rfl rfl h

/-- A valid result, if nothing is wrong. -/
theorem valid (h : V a) : Safe w True V (Pure.pure a) := pure (iff_true_intro h)

theorem throw (e : Fault) : Safe w True V (Act.throw e : Hs α) :=
  fun _ _ ↦ Ends.of_fault rfl ⟨rfl, trivial, Watch.clean_nil⟩

theorem get_bind {f : Daemon → Hs α} (h : ∀ d, Safe w P V (f d)) : Safe w P V (Act.get >>= f) :=
  fun d hd ↦ h d d hd

theorem ite {c : Prop} [Decidable c] {y : Hs α} (hx : Safe w P V x) (hy : Safe w P V y) :
    Safe w P V (if c then x else y) := by
  split
  · exact hx
  · exact hy

theorem bind (hx : Safe w P V x) (hf : ∀ a, Safe w (V a) W (f a)) : Safe w P W (x >>= f) :=
  fun d hd ↦ (hx d hd).then_ hf

/-- One piece of code after the other, whatever the first one returns. -/
theorem seq (hx : Harmless w x) (hf : ∀ a, Safe w True W (f a)) : Safe w True W (x >>= f) :=
  bind hx hf

/-- The result of the first is valid, since nothing goes wrong in it. -/
theorem bind_valid (hx : Safe w True V x) (hquiet : Harmless w x)
    (hf : ∀ a, V a → Safe w True W (f a)) : Safe w True W (x >>= f) := by
  intro d hd
  refine (hquiet d hd).bind (T := fun a _ ↦ V a) ?_ fun a d' hd' ha ↦ hf a ha d' hd'
  refine (Ends.and (hx d hd) (hquiet d hd)).mono ?_ fun _ _ _ _ ↦ trivial
  rintro es a d' ⟨⟨-, -, hV⟩, -, -, hclean⟩
  exact hV.2 (hclean.1 trivial)

/-- Code that answers nothing, where nothing can go wrong. -/
theorem of_quiet (hk : Evolves KeepsIdentity x) (hu : Evolves Unanswered x)
    (ha : Asks w.Ignores x) : Harmless w x := by
  intro d hd
  refine (Ends.of_evolves ((hk.and hu).and ha) d).mono ?_ ?_
  · rintro es a d' ⟨⟨hkeeps, hreplies⟩, hasked⟩
    exact ⟨(hkeeps hd).settled, hreplies,
      iff_of_true trivial ⟨trivial, Watch.clean_of_asked hasked⟩⟩
  · rintro es e d' ⟨⟨-, hreplies⟩, hasked⟩
    exact ⟨hreplies, trivial, Watch.clean_of_asked hasked⟩

theorem closed (w : Watch) : Closed (Harmless w) where
  pure := fun _ ↦ valid trivial
  throw := throw
  get_bind := get_bind
  bind := seq

/-- Giving a result back, whatever has gone wrong. -/
theorem freeres (c : Client) : Safe w P (fun _ ↦ P) (clntFreeres c) :=
  fun _ hd ↦ .of_ret hd rfl rfl rfl rfl Iff.rfl

theorem freeresSb : Safe w P (fun _ ↦ P) freeresSb :=
  fun _ hd ↦ .of_ret hd rfl rfl rfl rfl Iff.rfl

end Safe

end rules

/-- **What counts lookups calls nobody and answers nothing.** -/
theorem TouchFrame.harmless (w : Watch) : TouchFrame (Harmless w) where
  closed := Safe.closed w
  malloc := .of_quiet HandleFrame.keepsIdentity.malloc Unanswered.malloc
    (AllocFrame.onlyAsks _).malloc
  touch := fun p ↦ .of_quiet (HandlerFrame.keepsIdentity.touch p) (Unanswered.touch p)
    ((Asks.touchFrame _).touch p)
  priv := fun p f ↦ .of_quiet (HandlerFrame.keepsIdentity.priv p f) (Unanswered.update p _)
    (OnlyAsks.update p _)

namespace Harmless

variable {w : Watch}

theorem fhget (fh : NfsFh) (fattr : NfsFattr) : Harmless w (hsiNfsFhget fh fattr) :=
  .of_quiet (KeepsIdentity.fhget fh fattr)
    (Unanswered.of_silent (HandleFrame.silent.fhget fh fattr)) (Asks.fhget fh fattr)

theorem refresh (p : Addr) (fattr : NfsFattr) : Harmless w (nfsRefreshInode p fattr) :=
  .of_quiet (HandleFrame.keepsIdentity.refresh p fattr)
    (Unanswered.of_silent (HandleFrame.silent.refresh p fattr)) (Asks.refresh p fattr)

theorem setCookieVerf (p : Addr) (verf : UInt64) : Harmless w (setCookieVerf p verf) :=
  .of_quiet (HandleFrame.keepsIdentity.setCookieVerf p verf) (Unanswered.update p _)
    (OnlyAsks.update p _)

theorem iput (p : Addr) : Harmless w (hsfsIput p) :=
  .of_quiet (HandlerFrame.keepsIdentity.iput p) (Unanswered.of_silent (Silent.iput p)) (Asks.iput p)

end Harmless

/-! ## Calls -/

/-- The events of a reconnect are no calls. -/
theorem Asks.reconnect {A : Rpc → Prop} (clnt : Client) : Asks A (hsiNfs3ClntReconnect clnt) :=
  evolves_reconnect (OnlyAsks.composes A) (fun _ ↦ .ask fun _ _ ↦ .of_nil rfl)
    (fun _ ↦ .ask fun _ _ ↦ .of_nil rfl) (fun _ _ ↦ .modify fun _ ↦ .of_nil rfl) clnt

/-- **A failure that is not the last one comes with an error number**, since only some error numbers
lead to another attempt. -/
theorem ends_call_clean {w : Watch} {req : Rpc} (hfails : w.fails req = true) (clnt : Client)
    (d : Daemon) :
    Ends (fun es r _ ↦ w.ReplyOk r ↔ w.Clean es) (fun es _ _ ↦ w.Clean es)
      (hsiNfs3ClntCall clnt req) d := by
  unfold hsiNfs3ClntCall
  generalize 5 = left
  have hcall (clnt : Client) (d : Daemon) :
      Ends (fun es r _ ↦ es = [⟨.clntCall clnt req, r⟩]) (fun _ _ _ ↦ False)
        (clntCall clnt req) d := by
    refine .ret_bind (x := useClient clnt) rfl fun tr ↦ ?_
    rintro r _ rfl
    exact ⟨_, rfl, rfl⟩
  have hdone (clnt : Client) (res : req.Res) :
      w.Clean [⟨.clntCall clnt req, .done res⟩] ↔ w.takes req res := List.forall_mem_singleton
  have hfailed (clnt : Client) (err : Int) :
      w.Clean [⟨.clntCall clnt req, .failed err⟩] ↔ ValidErrno (hsiRpcStatToErrno err) := by
    rw [validErrno_rpc_iff]
    exact List.forall_mem_singleton.trans (forall_prop_of_true hfails)
  induction left generalizing clnt d with
  | zero =>
      unfold hsiNfs3ClntCallLoop
      refine (hcall clnt d).bind ?_ fun _ _ _ h ↦ h.elim
      rintro _ (res | err) d₁ rfl
      · exact .pure (hdone clnt res).symm
      · exact .pure (hfailed clnt err).symm
  | succ left ih =>
      unfold hsiNfs3ClntCallLoop
      refine (hcall clnt d).bind ?_ fun _ _ _ h ↦ h.elim
      rintro _ (res | err) d₁ rfl
      · exact .pure (hdone clnt res).symm
      dsimp only
      -- the next attempt after events in which nothing is wrong
      have hagain {es : List Event} (hes : w.Clean es) (clnt : Client) (d : Daemon) :
          Ends (fun es' r _ ↦ w.ReplyOk r ↔ w.Clean (es ++ es')) (fun es' _ _ ↦ w.Clean (es ++ es'))
            (hsiNfs3ClntCallLoop req left clnt) d := by
        refine (ih clnt d).mono (fun es' r _ h ↦ ?_) fun es' _ _ h ↦ ?_
        · rw [h, Watch.clean_append, and_iff_right hes]
        · exact Watch.clean_append.2 ⟨hes, h⟩
      split
      · next herr => exact hagain ((hfailed clnt err).2 (herr ▸ by decide)) clnt d₁
      split
      · next herr =>
          have hvalid : ValidErrno (hsiRpcStatToErrno err) := by
            rcases herr with herr | herr <;> rw [herr] <;> decide
          refine (Ends.of_evolves (Asks.reconnect (A := w.Ignores) clnt) d₁).bind ?_ ?_
          · intro es new d₂ hasked
            have hclean := Watch.clean_append.2
              ⟨(hfailed clnt err).2 hvalid, Watch.clean_of_asked hasked⟩
            cases new with
            | none =>
                refine .pure (iff_of_true hvalid ?_)
                rwa [List.append_nil]
            | some new =>
                have hlast := hagain hclean new d₂
                simpa only [List.append_assoc] using hlast
          · intro es e d₂ hasked
            exact Watch.clean_append.2 ⟨(hfailed clnt err).2 hvalid, Watch.clean_of_asked hasked⟩
      · exact .pure (hfailed clnt err).symm

/-- If there is an error, it is an error number. -/
def ErrOk {α : Type} : Except Int α → Prop
  | .error err => ValidErrno err
  | .ok _ => True

namespace Safe

variable {α β : Type} {w : Watch} {V : α → Prop} {W : β → Prop}

/-- **A call.** -/
theorem anyCall {req : Rpc} (hw : w.fails req = true) (c : Client) :
    Safe w True w.ReplyOk (hsiNfs3ClntCall c req) := by
  intro d hd
  have hk := HandleFrame.keepsIdentity.anyCall c trivial req
  have hs := HandleFrame.silent.anyCall c trivial req
  refine ((Ends.of_evolves (hk.and hs) d).and (ends_call_clean hw c d)).mono ?_ ?_
  · rintro es r d' ⟨⟨hkeeps, hsilent⟩, hok⟩
    exact ⟨(hkeeps hd).settled, hsilent.replies, hok.trans (and_iff_right trivial).symm⟩
  · rintro es e d' ⟨⟨-, hsilent⟩, hok⟩
    exact ⟨hsilent.replies, trivial, hok⟩

theorem call {req : Rpc} (hw : w.Plain req) (c : Client) :
    Safe w True ErrOk (hsiNfs3ClntCall c req) := by
  have hiff : (w.ReplyOk : Except Int req.Res → Prop) = ErrOk := by
    funext r
    cases r with
    | error err => rfl
    | ok res => exact eq_true (hw.takes res)
  exact hiff ▸ anyCall hw.fails c

theorem callSb {req : Rpc} (hw : w.Plain req) : Safe w True ErrOk (callSb req) :=
  .get_bind fun d ↦ call hw d.sb.clntp

/-- A call that is kept in mind only for its error. -/
theorem callThen {γ : Type} {x : Hs (Except Int γ)} (hx : Safe w True ErrOk x)
    {f : Except Int γ → Hs β} (herror : ∀ err, Safe w (ValidErrno err) W (f (.error err)))
    (hok : ∀ res, Safe w True W (f (.ok res))) : Safe w True W (x >>= f) :=
  hx.bind fun
    | .error err => herror err
    | .ok res => hok res

/-! ## The operations without a refresh -/

/-- First an inode is got, which `IS_ERR` does not take for an error. -/
theorem fhgetThen (fh : NfsFh) (fattr : NfsFattr) {f : Addr → Hs β}
    (hf : ∀ new, isErr new = false → Safe w True W (f new)) :
    Safe w True W (hsiNfsFhget fh fattr >>= f) := by
  intro d hd
  have hroom {p : Addr} (h : Allocatable d.layout p) : isErr p = false := by
    have hlt := h.2.1
    exact isErr_of_lt (by unfold sizeofHsfsInode at hlt; omega)
  refine (Harmless.fhget fh fattr d hd).bind (T := fun new _ ↦ isErr new = false) ?_
    fun new d' hd' hnew ↦ hf new hnew d' hd'
  refine (hd.ends_hsiNfsFhget fh fattr).mono (fun es p d' hgot ↦ ?_) fun _ _ _ _ ↦ trivial
  cases hgot with
  | unusable _ hbad => exact hbad.notErr
  | denied _ _ hbad => exact hbad.notErr
  | @found _ i _ _ hi _ _ => exact hroom (hd.place p i hi)
  | @new a _ _ _ => exact hroom (heap_freeAddr a).2

theorem handleCreateThen (dir : Diropres3ok) {f : Addr → Hs β}
    (hf : ∀ new, isErr new = false → Safe w True W (f new)) :
    Safe w True W (hsiNfs3HandleCreate dir >>= f) := by
  unfold hsiNfs3HandleCreate
  cases dir.obj with
  | some fh => exact fhgetThen fh _ hf
  | none =>
      intro d hd
      obtain ⟨e, hrun, -, hnot, -⟩ := errPtr_run d Errno.noent (by decide) (by decide)
      exact Ends.ret_bind hrun (hf e hnot d hd)

theorem clearThenPtrErr {new : Addr} (h : isErr new = false) :
    Safe w True (fun r ↦ ValidErrno r.1) (clearThenPtrErr new) := by
  refine .get_bind fun d ↦ ?_
  rw [h]
  exact .valid (by decide : ValidErrno 0)

/-- What mkdir, mknod and symlink return. -/
theorem newOfReply {free : Hs Unit} (hfree : ∀ {P : Prop}, Safe w P (fun _ ↦ P) free)
    {x : Hs (Except Int (Nfs3res Diropres3ok))} (hx : Safe w True ErrOk x) :
    Safe w True (fun r ↦ ValidErrno r.1) (x >>= newOfReply free) :=
  .callThen hx (fun _ ↦ .pure Iff.rfl) fun
    | .fail status => .bind hfree fun _ ↦ .valid (validErrno_stat status)
    | .ok resok => handleCreateThen resok fun _ hnew ↦ .bind (clearThenPtrErr hnew) fun _ ↦
        .bind hfree fun _ ↦ .pure Iff.rfl

section plain

variable (hw : ∀ req, w.Plain req)

include hw

theorem lookup (p : Addr) (name : Name) :
    Safe w True (fun r ↦ ValidErrno r.1) (hsiNfs3Lookup p name) :=
  .seq ((TouchFrame.harmless w).getfh3 p) fun _ ↦
    .callThen (.callSb (hw _)) (fun _ ↦ .pure Iff.rfl) fun
    | .fail status => .bind .freeresSb fun _ ↦ .valid (validErrno_stat status)
    | .ok _ => .seq (Harmless.fhget _ _) fun _ ↦ .bind .freeresSb fun _ ↦
        .valid (by decide : ValidErrno 0)

theorem mkdir (p : Addr) (name : Name) (mode : UInt32) :
    Safe w True (fun r ↦ ValidErrno r.1) (hsiNfs3Mkdir p name mode) :=
  .seq ((TouchFrame.harmless w).getfh3 p) fun _ ↦ newOfReply freeresSb (.callSb (hw (.mkdir _ _ _)))

theorem symlink (p : Addr) (link name : Name) :
    Safe w True (fun r ↦ ValidErrno r.1) (hsiNfs3Symlink p link name) :=
  .seq ((TouchFrame.harmless w).getfh3 p) fun _ ↦
    newOfReply freeresSb (.callSb (hw (.symlink _ _ _ _)))

theorem mknod (p : Addr) (name : Name) (mode : UInt32) (rdev : UInt64) :
    Safe w True (fun r ↦ ValidErrno r.1) (hsiNfs3Mknod p name mode rdev) :=
  have ht := TouchFrame.harmless w
  .ite (.valid (by decide : ValidErrno Errno.nametoolong)) <| .seq (ht.getfh3 p) fun _ ↦
    .seq ht.malloc fun _ ↦ .ite
      (.get_bind fun _ ↦ newOfReply (.freeres _) (.call (hw (.mknod _ _ _)) _))
      (.valid (by decide : ValidErrno Errno.nomem))

theorem setattr3 (p : Addr) (fattr : NfsFattr) (attr : HsfsIattr) :
    Safe w True (fun r ↦ ValidErrno r.1) (hsiNfs3Setattr p fattr attr) := by
  refine .get_bind fun _ ↦ .seq ((TouchFrame.harmless w).getfh3 p) fun _ ↦
    .callThen (.call (hw _) _) (fun _ ↦ .pure Iff.rfl) fun
    | .fail status => .bind (.freeres _) fun _ ↦ .valid (validErrno_stat status)
    | .ok after => .bind (.freeres _) fun _ ↦ .valid ?_
  cases after with
  | none => exact (by decide : ValidErrno Errno.again)
  | some attr => exact (by decide : ValidErrno 0)

theorem setattr (p : Addr) (attr : HsfsIattr) :
    Safe w True ValidErrno (hsiNfsSetattr p attr) := by
  have ht := TouchFrame.harmless w
  refine .seq (ht.load p) fun _ ↦ .ite (.valid (by decide : ValidErrno 0)) <|
    .seq (ht.derefSb p) fun _ ↦ .bind (setattr3 hw _ _ _) ?_
  rintro ⟨error, fattr⟩
  dsimp only
  split
  · next herror =>
      have hvalid : ValidErrno error := herror ▸ by decide
      exact .congr (iff_true_intro hvalid).symm
        (.seq (Harmless.refresh _ _) fun _ ↦ .valid hvalid)
  · exact .pure Iff.rfl

theorem create (p : Addr) (name : Name) (mode : UInt32) :
    Safe w True (fun r ↦ ValidErrno r.1) (hsiNfs3Create p name mode) := by
  have ht := TouchFrame.harmless w
  refine .seq (ht.load p) fun _ ↦ .get_bind fun _ ↦
    .callThen (.call (hw _) _) (fun _ ↦ .pure Iff.rfl) fun
    | .fail status => .bind (.freeres _) fun _ ↦ .valid (validErrno_stat status)
    | .ok resok => handleCreateThen resok fun new hnew ↦ ?_
  rw [hnew, if_neg Bool.false_ne_true]
  exact .ite (.seq (ht.load _) fun _ ↦ .bind (setattr hw new _) fun _ ↦
    .bind (.freeres _) fun _ ↦ .pure Iff.rfl)
      (.bind (.freeres _) fun _ ↦ .valid (by decide : ValidErrno 0))

theorem access (p : Addr) (mask : UInt32) : Safe w True ValidErrno (hsiNfs3Access p mask) :=
  have hfree (err : Int) (c : Client) :
      Safe w (ValidErrno err) ValidErrno (do clntFreeres c; Pure.pure err : Hs Int) :=
    .bind (.freeres c) fun _ ↦ .pure Iff.rfl
  .seq ((TouchFrame.harmless w).getfh3 p) fun _ ↦ .get_bind fun _ ↦
    .callThen (.call (hw _) _) (fun err ↦ hfree err _) fun
    | .fail status => .congr (iff_true_intro (validErrno_stat status)) (hfree _ _)
    | .ok _ => .congr (iff_true_intro (validErrno_stat 0)) (hfree _ _)

theorem unlink (p : Addr) (name : Name) : Safe w True ValidErrno (hsiNfs3Unlink p name) :=
  .get_bind fun _ ↦ .seq ((TouchFrame.harmless w).getfh3 p) fun _ ↦
    .callThen (.call (hw _) _) (fun _ ↦ .pure Iff.rfl) fun
    | .fail status => .bind (.freeres _) fun _ ↦ .valid (validErrno_stat status)
    | .ok _ => .bind (.freeres _) fun _ ↦ .valid (by decide : ValidErrno 0)

theorem rmdir (p : Addr) (name : Name) : Safe w True ValidErrno (hsiNfs3Rmdir p name) :=
  .seq ((TouchFrame.harmless w).getfh3 p) fun _ ↦
    .callThen (.callSb (hw _)) (fun _ ↦ .pure Iff.rfl) fun
    | .fail status => .bind .freeresSb fun _ ↦ .valid (validErrno_stat status)
    | .ok _ => .bind .freeresSb fun _ ↦ .valid (validErrno_stat 0)

theorem rename (p : Addr) (name : Name) (q : Addr) (newname : Name) :
    Safe w True ValidErrno (hsiNfs3Rename p name q newname) :=
  have ht := TouchFrame.harmless w
  .get_bind fun _ ↦ .seq (ht.getfh3 p) fun _ ↦ .seq (ht.getfh3 q) fun _ ↦
    .callThen (.call (hw _) _) (fun _ ↦ .pure Iff.rfl) fun
    | .fail status => .bind (.freeres _) fun _ ↦ .valid (validErrno_stat status)
    | .ok _ => .bind (.freeres _) fun _ ↦ .valid (by decide : ValidErrno 0)

theorem statfs (p : Addr) : Safe w True ValidErrno (hsiNfs3Statfs p) :=
  .seq ((TouchFrame.harmless w).getfh3 p) fun _ ↦
    .callThen (.callSb (hw _)) (fun _ ↦ .pure Iff.rfl) fun
    | .fail status => .bind .freeresSb fun _ ↦ .valid (validErrno_stat status)
    | .ok _ => .bind (V := fun _ ↦ True) (fun _ hd ↦ .of_ret hd rfl rfl rfl rfl Iff.rfl) fun _ ↦
        .bind .freeresSb fun _ ↦ .valid (by decide : ValidErrno 0)

theorem readlink (p : Addr) : Safe w True (fun r ↦ ValidErrno r.1) (hsiNfs3Readlink p) :=
  have ht := TouchFrame.harmless w
  .seq (ht.getfh3 p) fun _ ↦ .get_bind fun _ ↦
    .callThen (.call (hw _) _) (fun _ ↦ .pure Iff.rfl) fun
    | .fail status => .bind (.freeres _) fun _ ↦ .valid (validErrno_stat status)
    | .ok _ => .seq ht.malloc fun _ ↦ .bind (.freeres _) fun _ ↦ .valid (by decide : ValidErrno 0)

theorem read (p : Addr) (off : UInt64) (size : UInt32) :
    Safe w True ErrOk (hsiNfs3Read p off size) :=
  .get_bind fun _ ↦ .seq ((TouchFrame.harmless w).getfh3 p) fun _ ↦
    .callThen (.call (hw _) _) (fun _ ↦ .pure Iff.rfl) fun
    | .fail status => .bind (.freeres _) fun _ ↦ .valid (validErrno_stat status)
    | .ok _ => .bind (.freeres _) fun _ ↦ .valid trivial

theorem write (p : Addr) (off : UInt64) (size stable : UInt32) (data : List UInt8) :
    Safe w True ErrOk (hsiNfs3Write p off size stable data) :=
  .get_bind fun _ ↦ .seq ((TouchFrame.harmless w).getfh3 p) fun _ ↦
    .callThen (.call (hw _) _) (fun _ ↦ .pure Iff.rfl) fun
    | .fail status => .bind (.freeres _) fun _ ↦ .valid (validErrno_stat status)
    | .ok _ => .bind (.freeres _) fun _ ↦ .valid trivial

theorem readLoop (inode : Addr) (size : Nat) (off : UInt64) (rounds : Nat) (buf : List UInt8)
    (cnt : Nat) : Safe w True ErrOk (readLoop inode size off rounds buf cnt) := by
  induction rounds generalizing buf cnt with
  | zero => exact .throw _
  | succ rounds ih =>
      exact .ite (.get_bind fun _ ↦ .callThen (read hw _ _ _) (fun _ ↦ .pure Iff.rfl) fun _ ↦
        .ite (.valid trivial) (ih _ _)) (.valid trivial)

theorem writeLoop (inode : Addr) (buf : List UInt8) (off : UInt64) (stable : UInt32)
    (rounds cnt : Nat) : Safe w True ErrOk (writeLoop inode buf off stable rounds cnt) := by
  induction rounds generalizing cnt with
  | zero => exact .throw _
  | succ rounds ih =>
      exact .ite (.get_bind fun _ ↦ .callThen (write hw _ _ _ _ _) (fun _ ↦ .pure Iff.rfl) fun _ ↦
        ih _) (.valid trivial)

theorem getxattr (p : Addr) (mask : UInt32) (type : AclType) :
    Safe w True ErrOk (hsiNfs3Getxattr p mask type) := by
  have ht := TouchFrame.harmless w
  refine .seq (ht.getfh3 p) fun _ ↦ .get_bind fun d ↦ ?_
  cases d.sb.aclClntp with
  | none => exact .valid (by decide : ValidErrno Errno.notsup)
  | some c =>
      refine .callThen (.call (hw _) _) (fun _ ↦ .pure Iff.rfl) fun
        | .fail status => .bind (.freeres _) fun _ ↦ .valid (validErrno_stat status)
        | .ok _ => .seq ht.malloc fun _ ↦ .ite (.bind (.freeres _) fun _ ↦ ?_)
            (.bind .freeresSb fun _ ↦ .valid (by decide : ValidErrno Errno.nomem))
      cases type with
      | access => exact .valid trivial
      | default => exact .valid trivial

end plain

/-! ## Setting an ACL -/

section setxattr

variable (hset : ∀ fh args, w.Plain (.setacl fh args))

include hset

theorem setxattrCall (c : Client) (fh : NfsFh) (args : Secattr) :
    Safe w True ValidErrno (setxattrCall c fh args) :=
  .callThen (.call (hset _ _) _) (fun _ ↦ .pure Iff.rfl) fun
    | .fail status => .bind (.freeres _) fun _ ↦ .valid (validErrno_stat status)
    | .ok _ => .bind (.freeres _) fun _ ↦ .valid (validErrno_stat 0)

theorem setxattrLists (p : Addr) (c : Client) (mode : UInt32) (acl dfacl : Option PosixAcl) :
    Safe w True ValidErrno (setxattrLists p c mode acl dfacl) :=
  setxattrLists_of (fun hx hf ↦ .seq (hx (TouchFrame.harmless w).toAllocFrame) hf)
    (.valid (by decide : ValidErrno 0)) (setxattrCall hset c) p mode acl dfacl

/-- `hsi_nfs3_setxattr`, which returns zero if it cannot get the ACL that is to be changed. -/
theorem setxattr (hget : ∀ fh mask, w.Ignores (.getacl fh mask)) (p : Addr) (value : List UInt8)
    (type : AclType) : Safe w True ValidErrno (hsiNfs3Setxattr p value type) := by
  have ht := TouchFrame.harmless w
  have hzero : ValidErrno 0 := by decide
  have hold (mask : UInt32) (type : AclType) : Harmless w (hsiNfs3Getxattr p mask type) :=
    .of_quiet (HandleFrame.keepsIdentity.getxattr p mask type)
      (Unanswered.of_silent (HandleFrame.silent.getxattr p mask type))
      (Leads.getxattr p mask type hget).only
  refine .get_bind fun d ↦ ?_
  cases d.sb.aclClntp with
  | none => exact .valid (by decide : ValidErrno Errno.notsup)
  | some c =>
      refine .seq (ht.load p) fun i ↦ .seq (ht.posixAclFromXattrAlloc value) fun acl ↦ ?_
      cases type with
      | access =>
          exact .ite (.seq (hold _ _) fun
            | .error _ => .valid hzero
            | .ok _ => setxattrLists hset p c _ _ _) (setxattrLists hset p c _ _ _)
      | default =>
          exact .ite (.seq (hold _ _) fun
            | .error _ => .valid hzero
            | .ok _ => setxattrLists hset p c _ _ _) (.valid hzero)

end setxattr

end Safe

/-! ## The handlers without a refresh -/

/-- The errors that are answered are error numbers exactly if `P` holds and nothing is wrong with
the events. -/
def SoundAt (w : Watch) (P : Prop) (x : Hs Unit) (d : Daemon) : Prop :=
  Ends (fun es _ d' ↦ d.ErrorsOk d' ↔ P ∧ w.Clean es) (fun es _ d' ↦ d.ErrorsOk d' ↔ P ∧ w.Clean es)
    x d

/-- The same in all states. -/
def Sound (w : Watch) (P : Prop) (x : Hs Unit) : Prop := ∀ d, d.Settled → SoundAt w P x d

section handlers

variable {α : Type} {w : Watch} {P Q : Prop} {V : α → Prop} {x : Hs α} {y z : Hs Unit}
  {f : α → Hs Unit} {d : Daemon}

/-- **An operation, and then what is answered.** -/
theorem SoundAt.bind (hx : Judges w P V x d) (hf : ∀ a d', d'.Settled → SoundAt w (V a) (f a) d') :
    SoundAt w P (x >>= f) d := by
  refine Ends.bind hx ?_ fun es _ d' h ↦ iff_of_true (.of_eq h.1) h.2
  rintro es a d₁ ⟨hd₁, hreplies, hV⟩
  refine (hf a d₁ hd₁).mono ?_ ?_
  all_goals
    intro es' _ d₂ h
    rw [← ErrorsOk.congr hreplies, h, hV, Watch.clean_append, and_assoc]

theorem SoundAt.congr (h : P ↔ Q) (hy : SoundAt w P y d) : SoundAt w Q y d := by
  rwa [SoundAt, ← propext h]

namespace Sound

theorem bind (hx : Safe w P V x) (hf : ∀ a, Sound w (V a) (f a)) : Sound w P (x >>= f) :=
  fun d hd ↦ .bind (hx d hd) hf

theorem seq (hx : Harmless w x) (hf : ∀ a, Sound w True (f a)) : Sound w True (x >>= f) :=
  bind hx hf

/-- Code that answers nothing. -/
theorem of_harmless (hy : Harmless w y) : Sound w True y :=
  fun d hd ↦ (hy d hd).mono (fun _ _ _ h ↦ iff_of_true (.of_eq h.2.1) (h.2.2.1 trivial))
    fun _ _ _ h ↦ iff_of_true (.of_eq h.1) h.2

theorem get_bind {f : Daemon → Hs Unit} (h : ∀ d, Sound w P (f d)) : Sound w P (Act.get >>= f) :=
  fun d hd ↦ h d d hd

theorem ite {c : Prop} [Decidable c] (hy : Sound w P y) (hz : Sound w P z) :
    Sound w P (if c then y else z) := by
  split
  · exact hy
  · exact hz

/-- Answers that are given without a call. -/
theorem of_ret (rs : List Reply) (h : (∀ err, Reply.err err ∈ rs → ValidErrno err) ↔ P)
    (hy : ∀ d, ∃ d', y.run d = .ret (.ok (), d') ∧ d'.replies = d.replies ++ rs) :
    Sound w P y := by
  intro d _
  obtain ⟨d', hrun, hreplies⟩ := hy d
  refine Ends.of_ret hrun ?_
  rw [ErrorsOk.iff_of_append hreplies, h]
  exact (and_iff_left Watch.clean_nil).symm

/-- **An error is answered.** -/
theorem err (err : Int) : Sound w (ValidErrno err) (fuseReply (.err err)) := by
  refine of_ret [.err err] ⟨fun h ↦ h err List.mem_cons_self, fun h err' herr ↦ ?_⟩
    fun _ ↦ ⟨_, rfl, rfl⟩
  obtain rfl := Reply.err.inj (List.mem_singleton.1 herr)
  exact h

/-- `hsx_fuse_setxattr` answers its error twice. -/
theorem errTwice (err : Int) :
    Sound w (ValidErrno err) (do fuseReply (.err err); fuseReply (.err err)) := by
  refine of_ret [.err err, .err err] ⟨fun h ↦ h err List.mem_cons_self, fun h err' herr ↦ ?_⟩
    fun d ↦ ⟨_, rfl, (List.append_assoc d.replies [.err err] [.err err] : _)⟩
  have herr' : err' = err := by simpa using herr
  exact herr' ▸ h

/-- An error number is answered. -/
theorem validErr {err : Int} (h : ValidErrno err) : Sound w True (fuseReply (.err err)) :=
  fun d hd ↦ (Sound.err err d hd).congr (iff_true_intro h)

theorem reply {rep : Reply} (h : rep.isErr = false) : Sound w True (fuseReply rep) := by
  refine of_ret [rep] (iff_true_intro fun err herr ↦ ?_) fun _ ↦ ⟨_, rfl, rfl⟩
  rw [← List.mem_singleton.1 herr] at h
  exact absurd h.symm Bool.false_ne_true

/-- An error is answered, if there is one. -/
theorem errOr {err : Int} (hy : Sound w True y) :
    Sound w (ValidErrno err) (if err ≠ 0 then fuseReply (.err err) else y) := by
  split
  · exact Sound.err err
  · next h =>
      have hvalid : ValidErrno err := not_not.1 h ▸ by decide
      exact fun d hd ↦ (hy d hd).congr (iff_true_intro hvalid).symm

/-- A handler that looks an inode up first. -/
theorem ilookup {ino : UInt64} {f : Option Addr → Hs Unit} (hnone : Sound w True (f none))
    (hsome : ∀ p, Sound w True (f (some p))) : Sound w True (hsfsIlookup ino >>= f) :=
  .seq ((TouchFrame.harmless w).ilookup ino) fun
    | none => hnone
    | some p => hsome p

theorem noent : Sound w True (fuseReply (.err Errno.noent)) := validErr (by decide)

theorem nomem : Sound w True (fuseReply (.err Errno.nomem)) := validErr (by decide)

theorem replyNew {answer : EntryParam → Reply} (hanswer : ∀ e, (answer e).isErr = false) (err : Int)
    (new : Addr) : Sound w (ValidErrno err) (replyNew answer err new) :=
  have ht := TouchFrame.harmless w
  .errOr <| .ite nomem <| .seq (ht.refXchg _ _) fun _ ↦ .seq (ht.assertThat _ _) fun _ ↦
    .seq (ht.fillReply _) fun e ↦ reply (hanswer e)

theorem hsxFuseSetxattr (hset : ∀ fh args, w.Plain (.setacl fh args))
    (hget : ∀ fh mask, w.Ignores (.getacl fh mask)) (ino : UInt64) (name : Name)
    (value : List UInt8) : Sound w True (hsxFuseSetxattr ino name value) := by
  refine ilookup (validErr (by decide)) fun p ↦ ?_
  cases aclTypeOf name with
  | none => exact validErr (by decide)
  | some type => exact .bind (.setxattr hset hget p _ _) fun err ↦ errTwice err

theorem hsxFuseForget (ino nlookup : UInt64) : Sound w True (hsxFuseForget ino nlookup) :=
  have ht := TouchFrame.harmless w
  ilookup (of_harmless (ht.assertThat _ _)) fun p ↦ .seq (ht.refDec _ _) fun _ ↦
    .ite (.seq (Harmless.iput p) fun _ ↦ reply rfl) (reply rfl)

section plain

variable (hw : ∀ req, w.Plain req)

include hw

theorem hsxFuseLookup (ino : UInt64) (name : Name) : Sound w True (hsxFuseLookup ino name) :=
  have ht := TouchFrame.harmless w
  ilookup noent fun _ ↦ .bind (.lookup hw _ _) fun _ ↦ .errOr <| .ite nomem <|
    .seq (ht.refInc _ _) fun _ ↦ .seq (ht.fillReply _) fun _ ↦ reply rfl

theorem hsxFuseCreate (parent : UInt64) (name : Name) (mode flags uid gid : UInt32) :
    Sound w True (hsxFuseCreate parent name mode flags uid gid) :=
  have howner (p : Addr) : Harmless w (update p fun i ↦
      { i with iattr := { i.iattr with uid := uid, gid := gid } }) :=
    .of_quiet (HandlerFrame.keepsIdentity.owner p uid gid) (Unanswered.update p _)
      (OnlyAsks.update p _)
  ilookup (of_harmless (.valid trivial)) fun p ↦ .seq (howner p) fun _ ↦
    .bind (.create hw _ _ _) fun _ ↦ replyNew (fun _ ↦ rfl) _ _

theorem hsxFuseSetattr (ino : UInt64) (attr : Stat) (toSet : UInt32) :
    Sound w True (hsxFuseSetattr ino attr toSet) :=
  have ht := TouchFrame.harmless w
  ilookup noent fun p ↦ .bind (.setattr hw p _) fun _ ↦ .errOr <| .seq (ht.load p) fun _ ↦
    .seq (ht.attrTimeout p) fun _ ↦ reply rfl

theorem hsxFuseAccess (ino : UInt64) (mask : UInt32) : Sound w True (hsxFuseAccess ino mask) :=
  ilookup (of_harmless (.valid trivial)) fun p ↦ .seq ((TouchFrame.harmless w).load p) fun _ ↦
    .bind (.access hw p _) fun e ↦ err e

theorem hsxFuseGetxattr (ino : UInt64) (name : Name) (size : UInt64) :
    Sound w True (hsxFuseGetxattr ino name size) := by
  unfold Hsfs.hsxFuseGetxattr
  cases aclTypeOf name with
  | none => exact validErr (by decide)
  | some type =>
      exact ilookup noent fun p ↦ .bind (.getxattr hw p _ _) fun
        | .error e => err e
        | .ok _ => .seq (TouchFrame.harmless w).malloc fun _ ↦ .ite nomem <|
            .ite (reply rfl) <| .ite (validErr (by decide)) (reply rfl)

theorem hsxFuseRead (rounds : Nat) (ino : UInt64) (size : UInt64) (off : UInt64) :
    Sound w True (hsxFuseRead rounds ino size off) :=
  .seq (TouchFrame.harmless w).malloc fun _ ↦ .ite (ilookup noent fun p ↦
    .bind (.readLoop hw p _ _ _ _ _) fun
    | .error e => err e
    | .ok _ => reply rfl) nomem

theorem hsxFuseWrite (rounds : Nat) (ino : UInt64) (buf : List UInt8) (off : UInt64)
    (directIo : Bool) : Sound w True (hsxFuseWrite rounds ino buf off directIo) :=
  .seq (TouchFrame.harmless w).malloc fun _ ↦ .ite (ilookup noent fun p ↦
    .bind (.writeLoop hw p _ _ _ _ _) fun
    | .error e => err e
    | .ok _ => reply rfl) nomem

theorem hsxFuseRename (parent : UInt64) (name : Name) (newparent : UInt64) (newname : Name) :
    Sound w True (hsxFuseRename parent name newparent newname) :=
  .ite (validErr (by decide)) <| .ite (validErr (by decide)) <| .ite (validErr (by decide)) <|
    .ite (validErr (by decide)) <| ilookup noent fun p ↦ ilookup noent fun q ↦
      .bind (.rename hw p _ q _) fun e ↦ err e

theorem hsxFuseStatfs : Sound w True hsxFuseStatfs := by
  refine .get_bind fun _ ↦ .seq ((TouchFrame.harmless w).derefSb _) fun _ ↦
    .bind (.statfs hw _) fun _ ↦ .errOr <| .get_bind fun d ↦ ?_
  cases hsiSuper2statvfs d.sb with
  | none => exact validErr (by decide)
  | some stbuf => exact reply rfl

end plain

end Sound

end handlers

/-- The number of the inode whose attributes come with the reply to a request and whose refresh
decides about the answer. -/
def Request.refreshes : Request → Option UInt64
  | .getattr ino | .link ino _ _ | .readdir ino _ _ | .readdirplus ino _ _ => some ino
  | _ => none

/-- The handler tells the kernel if the call has failed.  Only one does not: `hsx_fuse_setxattr`
passes over the failure to get the ACL that it is to change. -/
def Request.reports : Request → Rpc → Bool
  | .setxattr _ _ _, .getacl _ _ => false
  | _, _ => true

/-- **The handlers that do not depend on a refresh** answer error numbers exactly if nothing is
wrong with their calls. -/
theorem Request.sound {req : Request} {w : Watch} (h : req.refreshes = none)
    (hfails : ∀ rpc, w.fails rpc = req.reports rpc) (htakes : ∀ rpc res, w.takes rpc res)
    (rounds : Nat) : Sound w True (req.handle rounds) := by
  have ht := TouchFrame.harmless w
  have hw (hall : ∀ rpc, req.reports rpc = true) (rpc : Rpc) : w.Plain rpc :=
    ⟨(hfails rpc).trans (hall rpc), htakes rpc⟩
  cases req with
  | init =>
      exact .of_harmless (.get_bind fun _ ↦ .seq (ht.refXchg _ _) fun _ ↦ ht.assertThat _ _)
  | statfs => exact .hsxFuseStatfs (hw fun _ ↦ rfl)
  | lookup parent name => exact .hsxFuseLookup (hw fun _ ↦ rfl) parent name
  | mkdir parent name mode =>
      exact .ilookup (.of_harmless (.valid trivial)) fun p ↦
        .bind (.mkdir (hw fun _ ↦ rfl) p _ _) fun _ ↦ .replyNew (fun _ ↦ rfl) _ _
  | «open» => exact .seq ht.malloc fun _ ↦ .ite (.reply rfl) .nomem
  | release => exact .validErr (by decide)
  | read ino size off => exact .hsxFuseRead (hw fun _ ↦ rfl) rounds ino size.toUInt64 off
  | write ino buf off directIo => exact .hsxFuseWrite (hw fun _ ↦ rfl) rounds ino buf off directIo
  | setattr ino attr toSet => exact .hsxFuseSetattr (hw fun _ ↦ rfl) ino attr toSet
  | forget ino nlookup => exact .hsxFuseForget ino nlookup
  | rmdir parent name =>
      exact .ilookup (.of_harmless (.valid trivial)) fun p ↦
        .bind (.rmdir (hw fun _ ↦ rfl) p _) fun e ↦ .err e
  | unlink parent name =>
      exact .ite (.validErr (by decide)) <| .ite (.validErr (by decide)) <| .ilookup .noent fun p ↦
        .bind (.unlink (hw fun _ ↦ rfl) p _) fun e ↦ .err e
  | readlink ino =>
      exact .ilookup (.of_harmless (.valid trivial)) fun p ↦
        .bind (.readlink (hw fun _ ↦ rfl) p) fun _ ↦ .errOr (.reply rfl)
  | symlink target parent name =>
      exact .ilookup .noent fun p ↦ .bind (.symlink (hw fun _ ↦ rfl) p _ _) fun _ ↦
        .replyNew (fun _ ↦ rfl) _ _
  | rename parent name newparent newname =>
      exact .hsxFuseRename (hw fun _ ↦ rfl) parent name newparent newname
  | opendir ino => exact .ilookup .noent fun _ ↦ .reply rfl
  | mknod parent name mode rdev =>
      exact .ilookup .noent fun p ↦ .bind (.mknod (hw fun _ ↦ rfl) p _ _ _) fun _ ↦
        .replyNew (fun _ ↦ rfl) _ _
  | create parent name mode flags uid gid =>
      exact .hsxFuseCreate (hw fun _ ↦ rfl) parent name mode flags uid gid
  | access ino mask => exact .hsxFuseAccess (hw fun _ ↦ rfl) ino mask
  | getxattr ino name size => exact .hsxFuseGetxattr (hw fun _ ↦ rfl) ino name size.toUInt64
  | setxattr ino name value =>
      exact .hsxFuseSetxattr (fun _ _ ↦ ⟨hfails _, htakes _⟩) (fun _ _ ↦ ⟨hfails _, htakes _⟩)
        ino name value
  | getattr | link | readdir | readdirplus => exact absurd h (Option.some_ne_none _)

end Hsfs
