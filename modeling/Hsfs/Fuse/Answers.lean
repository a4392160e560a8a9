import Hsfs.Fuse.Frame

/-!
# One answer per request

The kernel waits for exactly one answer to each request.  `Request.answers` is the number of
answers that a handler that completes has given.  It depends on the request and on whether
the numbers in it are known, and not on anything the server does.
-/

namespace Hsfs

open Interact Interact.Act

/-! ## Counting answers -/

/-- No answer is given. -/
def Unanswered (d : Daemon) (_ : List Event) (d' : Daemon) : Prop := d'.replies = d.replies

theorem Unanswered.composes : Composes Unanswered where
  nil := fun _ ↦ rfl
  append := fun h h' ↦ Eq.trans h' h

/-- If the piece of code completes, it has given `n` answers. -/
def Answers (n : Nat) (x : Hs Unit) (d : Daemon) : Prop :=
  ∀ tr, wp Server.record x (fun _ d' _ ↦ ∃ rs, rs.length = n ∧ d'.replies = d.replies ++ rs)
    (fun _ _ _ ↦ True) d tr

namespace Answers

variable {n : Nat} {d : Daemon}

theorem pure : Answers 0 (Pure.pure ()) d := fun _ ↦ ⟨[], rfl, (List.append_nil _).symm⟩

theorem reply (r : Reply) : Answers 1 (fuseReply r) d := fun _ ↦ ⟨[r], rfl, rfl⟩

theorem throw (e : Fault) : Answers n (Act.throw e) d := fun _ ↦ trivial

theorem ite {c : Prop} [Decidable c] {x y : Hs Unit} (hx : Answers n x d) (hy : Answers n y d) :
    Answers n (if c then x else y) d := by
  by_cases h : c <;> simpa [h]

theorem assertFalse (what : Assertion) : Answers n (assertThat what false) d := throw _

/-- Code that says nothing does not count. -/
theorem bind {α : Type} {x : Hs α} {f : α → Hs Unit} (hx : Evolves Unanswered x)
    (hf : ∀ a d', Answers n (f a) d') : Answers n (x >>= f) d := by
  intro tr
  rw [wp_bind]
  refine wp_mono ?_ (fun _ _ _ _ ↦ trivial) (hx d tr)
  rintro a d' tr' ⟨es, -, h⟩
  refine wp_mono ?_ (fun _ _ _ _ ↦ trivial) (hf a d' tr')
  rintro _ d'' _ ⟨rs, hrs, h'⟩
  exact ⟨rs, hrs, by rw [h', h]⟩

/-- Answers add up. -/
theorem add {m : Nat} {x : Hs Unit} {f : Unit → Hs Unit} (hx : Answers m x d)
    (hf : ∀ d', Answers n (f ()) d') : Answers (m + n) (x >>= f) d := by
  intro tr
  rw [wp_bind]
  refine wp_mono ?_ (fun _ _ _ _ ↦ trivial) (hx tr)
  rintro _ d' tr' ⟨rs, rfl, h⟩
  refine wp_mono ?_ (fun _ _ _ _ ↦ trivial) (hf d' tr')
  rintro _ d'' _ ⟨rs', rfl, h'⟩
  exact ⟨rs ++ rs', List.length_append, by rw [h', h, List.append_assoc]⟩

/-- A handler that looks an inode up first, and goes on in one of two ways. -/
theorem ilookup {m : Nat} {ino : UInt64} {f : Option Addr → Hs Unit}
    (hnone : Answers m (f none) d) (hsome : ∀ p, Answers n (f (some p)) d) :
    Answers (if (d.ilookup ino).isSome then n else m) (hsfsIlookup ino >>= f) d := by
  intro tr
  rw [wp, run_bind]
  rcases d.hsfsIlookup_cases ino with ⟨hl, hrun⟩ | ⟨p, i, hl, -, hrun⟩ | ⟨p, -, -, hrun⟩
    <;> rw [hrun]
  · rw [hl]
    exact hnone tr
  · rw [hl]
    exact hsome p tr
  · exact trivial

/-- A handler that answers as often either way. -/
theorem ilookup_const {ino : UInt64} {f : Option Addr → Hs Unit} (hnone : Answers n (f none) d)
    (hsome : ∀ p, Answers n (f (some p)) d) : Answers n (hsfsIlookup ino >>= f) d := by
  have h := @ilookup n d n ino f hnone hsome
  rwa [ite_self] at h

end Answers

/-! ## What says nothing -/

namespace Unanswered

theorem of_silent {α : Type} {x : Hs α} (h : Evolves Silent x) : Evolves Unanswered x :=
  h.mono fun _ _ _ h ↦ h.replies

theorem pure {α : Type} (a : α) : Evolves Unanswered (Pure.pure a : Hs α) := .pure composes a

theorem bind {α β : Type} {x : Hs α} {f : α → Hs β} (hx : Evolves Unanswered x)
    (hf : ∀ a, Evolves Unanswered (f a)) : Evolves Unanswered (x >>= f) := .bind composes hx hf

theorem malloc : Evolves Unanswered malloc := of_silent HandleFrame.silent.malloc

theorem load (p : Addr) : Evolves Unanswered (load p) := of_silent (HandleFrame.silent.load p)

theorem update (p : Addr) (f : Inode → Inode) : Evolves Unanswered (update p f) :=
  (CacheOnly.update p f).mono fun _ _ _ h ↦ h.replies

theorem touch (p : Addr) : Evolves Unanswered (touch p) := .modify fun _ ↦ rfl

theorem assertThat (what : Assertion) (c : Bool) : Evolves Unanswered (assertThat what c) :=
  of_silent (HandleFrame.silent.assertThat what c)

theorem refXchg (p : Addr) (val : UInt64) : Evolves Unanswered (hsxFuseRefXchg p val) :=
  bind (touch p) fun _ ↦ bind (load p) fun _ ↦ bind (update p _) fun _ ↦ pure _

theorem refInc (p : Addr) (val : UInt64) : Evolves Unanswered (hsxFuseRefInc p val) :=
  bind (touch p) fun _ ↦ bind (load p) fun _ ↦ bind (update p _) fun _ ↦ pure _

theorem refDec (p : Addr) (val : UInt64) : Evolves Unanswered (hsxFuseRefDec p val) :=
  bind (touch p) fun _ ↦ bind (load p) fun _ ↦ bind (assertThat _ _) fun _ ↦
    bind (update p _) fun _ ↦ pure _

theorem fillReply (p : Addr) : Evolves Unanswered (hsxFuseFillReply p) :=
  bind (touch p) fun _ ↦ bind (load p) fun _ ↦
    bind (of_silent (HandleFrame.silent.derefSb p)) fun _ ↦ .get_bind fun _ ↦ pure _

theorem addDirentsPlus (size : Nat) (ctx : List ReaddirCtx) (len : Nat) :
    Evolves Unanswered (addDirentsPlus size ctx len) := by
  induction ctx generalizing len with
  | nil => exact pure _
  | cons c ctx ih =>
      exact bind (fillReply _) fun _ ↦ .ite (pure _) <|
        bind (refInc _ _) fun _ ↦ bind (ih _) fun _ ↦ pure _

end Unanswered

/-! ## The handlers -/

/-- The number of answers to a request, if its handler completes. -/
def Request.answers (d : Daemon) : Request → Nat
  | .init => 0
  | .access ino _ | .readlink ino => if (d.ilookup ino).isSome then 1 else 0
  | .create parent _ _ _ _ _ | .mkdir parent _ _ | .rmdir parent _ =>
      if (d.ilookup parent).isSome then 1 else 0
  | .link ino newparent _ =>
      if (d.ilookup newparent).isSome then if (d.ilookup ino).isSome then 1 else 0 else 0
  | .setxattr ino name _ =>
      if (d.ilookup ino).isSome then if (aclTypeOf name).isSome then 2 else 1 else 1
  | _ => 1

section handlers

variable (d : Daemon)

open Unanswered (of_silent)

theorem hsxFuseInit_answers : Answers 0 hsxFuseInit d :=
  .bind (.get_bind fun d ↦ Unanswered.pure d) fun _ _ ↦
    .bind (Unanswered.refXchg _ _) fun _ _ ↦ .ite .pure (.throw _)

theorem replyNew_answers (answer : EntryParam → Reply) (err : Int) (new : Addr) :
    Answers 1 (replyNew answer err new) d :=
  .ite (.reply _) <| .ite (.reply _) <| .bind (Unanswered.refXchg _ _) fun _ _ ↦
    .bind (Unanswered.assertThat _ _) fun _ _ ↦ .bind (Unanswered.fillReply _) fun _ _ ↦ .reply _

theorem hsxFuseLookup_answers (ino : UInt64) (name : Name) :
    Answers 1 (hsxFuseLookup ino name) d :=
  .ilookup_const (.reply _) fun _ ↦ .bind (of_silent (HandleFrame.silent.lookup _ _)) fun _ _ ↦
    .ite (.reply _) <| .ite (.reply _) <| .bind (Unanswered.refInc _ _) fun _ _ ↦
      .bind (Unanswered.fillReply _) fun _ _ ↦ .reply _

theorem hsxFuseCreate_answers (parent : UInt64) (name : Name) (mode flags uid gid : UInt32) :
    Answers (if (d.ilookup parent).isSome then 1 else 0)
      (hsxFuseCreate parent name mode flags uid gid) d :=
  .ilookup .pure fun _ ↦ .bind (Unanswered.update _ _) fun _ _ ↦
    .bind (of_silent (HandleFrame.silent.create _ _ _)) fun _ _ ↦ replyNew_answers _ _ _ _

theorem hsxFuseMkdir_answers (parent : UInt64) (name : Name) (mode : UInt32) :
    Answers (if (d.ilookup parent).isSome then 1 else 0) (hsxFuseMkdir parent name mode) d :=
  .ilookup .pure fun _ ↦ .bind (of_silent (HandleFrame.silent.mkdir _ _ _)) fun _ _ ↦
    replyNew_answers _ _ _ _

theorem hsxFuseMknod_answers (parent : UInt64) (name : Name) (mode : UInt32) (rdev : UInt64) :
    Answers 1 (hsxFuseMknod parent name mode rdev) d :=
  .ilookup_const (.reply _) fun _ ↦ .bind (of_silent (HandleFrame.silent.mknod _ _ _ _)) fun _ _ ↦
    replyNew_answers _ _ _ _

theorem hsxFuseSymlink_answers (link : Name) (parent : UInt64) (name : Name) :
    Answers 1 (hsxFuseSymlink link parent name) d :=
  .ilookup_const (.reply _) fun _ ↦ .bind (of_silent (HandleFrame.silent.symlink _ _ _)) fun _ _ ↦
    replyNew_answers _ _ _ _

theorem hsxFuseLink_answers (ino newparent : UInt64) (newname : Name) :
    Answers (if (d.ilookup newparent).isSome then if (d.ilookup ino).isSome then 1 else 0 else 0)
      (hsxFuseLink ino newparent newname) d :=
  .ilookup .pure fun _ ↦ .ilookup .pure fun _ ↦
    .bind (of_silent (HandleFrame.silent.link _ _ _)) fun _ _ ↦ .ite (.reply _) <|
      .bind Unanswered.malloc fun _ _ ↦
        .ite (.bind (Unanswered.fillReply _) fun _ _ ↦ .reply _) (.reply _)

theorem hsxFuseReaddir_answers (ino : UInt64) (size : UInt64) (off : UInt64) :
    Answers 1 (hsxFuseReaddir ino size off) d :=
  .ilookup_const (.assertFalse _) fun _ ↦
    .bind (of_silent (HandleFrame.silent.readdir _ _ _)) fun _ _ ↦ .ite (.reply _) <|
      .bind Unanswered.malloc fun _ _ ↦ .ite (.reply _) (.reply _)

theorem hsxFuseReaddirPlus_answers (ino size off : UInt64) :
    Answers 1 (hsxFuseReaddirPlus ino size off) d :=
  .ilookup_const (.assertFalse _) fun _ ↦
    .bind (of_silent (HandleFrame.silent.readdirPlus Silent.iput _ _ _ _)) fun _ _ ↦
      .ite (.reply _) <| .bind Unanswered.malloc fun _ _ ↦
        .ite (.bind (Unanswered.addDirentsPlus _ _ _) fun _ _ ↦ .reply _) (.reply _)

theorem hsxFuseGetattr_answers (ino : UInt64) : Answers 1 (hsxFuseGetattr ino) d :=
  .ilookup_const (.reply _) fun _ ↦ .bind (of_silent (HandleFrame.silent.getattr _ _)) fun _ _ ↦
    .ite (.reply _) (.bind (of_silent (HandleFrame.silent.attrTimeout _)) fun _ _ ↦ .reply _)

theorem hsxFuseSetattr_answers (ino : UInt64) (attr : Stat) (toSet : UInt32) :
    Answers 1 (hsxFuseSetattr ino attr toSet) d :=
  .ilookup_const (.reply _) fun _ ↦ .bind (of_silent (HandleFrame.silent.setattr _ _)) fun _ _ ↦
    .ite (.reply _) <| .bind (Unanswered.load _) fun _ _ ↦
      .bind (of_silent (HandleFrame.silent.attrTimeout _)) fun _ _ ↦ .reply _

theorem hsxFuseAccess_answers (ino : UInt64) (mask : UInt32) :
    Answers (if (d.ilookup ino).isSome then 1 else 0) (hsxFuseAccess ino mask) d :=
  .ilookup .pure fun _ ↦ .bind (Unanswered.load _) fun _ _ ↦
    .bind (of_silent (HandleFrame.silent.access _ _)) fun _ _ ↦ .reply _

theorem hsxFuseGetxattr_answers (ino : UInt64) (name : Name) (size : UInt64) :
    Answers 1 (hsxFuseGetxattr ino name size) d := by
  unfold hsxFuseGetxattr
  cases aclTypeOf name with
  | none => exact .reply _
  | some type =>
      exact .ilookup_const (.reply _) fun _ ↦
        .bind (of_silent (HandleFrame.silent.getxattr _ _ _)) fun
        | .error _, _ => .reply _
        | .ok _, _ => .bind Unanswered.malloc fun _ _ ↦ .ite (.reply _) <|
            .ite (.reply _) <| .ite (.reply _) (.reply _)

theorem hsxFuseSetxattr_answers (ino : UInt64) (name : Name) (value : List UInt8) :
    Answers (if (d.ilookup ino).isSome then if (aclTypeOf name).isSome then 2 else 1 else 1)
      (hsxFuseSetxattr ino name value) d := by
  refine .ilookup (.reply _) fun p ↦ ?_
  cases aclTypeOf name with
  | none => exact .reply _
  | some type =>
      change Answers (1 + 1) _ d
      exact .bind (of_silent (HandleFrame.silent.setxattr _ _ _)) fun _ _ ↦
        .add (.reply _) fun _ ↦ .reply _

theorem hsxFuseRead_answers (rounds : Nat) (ino : UInt64) (size : UInt64) (off : UInt64) :
    Answers 1 (hsxFuseRead rounds ino size off) d :=
  .bind Unanswered.malloc fun _ _ ↦ .ite (.ilookup_const (.reply _) fun _ ↦
    .bind (of_silent (HandleFrame.silent.readLoop _ _ _ _ _ _)) fun
    | .error _, _ => .reply _
    | .ok _, _ => .reply _) (.reply _)

theorem hsxFuseWrite_answers (rounds : Nat) (ino : UInt64) (buf : List UInt8) (off : UInt64)
    (directIo : Bool) : Answers 1 (hsxFuseWrite rounds ino buf off directIo) d :=
  .bind Unanswered.malloc fun _ _ ↦ .ite (.ilookup_const (.reply _) fun _ ↦
    .bind (of_silent (HandleFrame.silent.writeLoop _ _ _ _ _ _)) fun
    | .error _, _ => .reply _
    | .ok _, _ => .reply _) (.reply _)

theorem hsxFuseReadlink_answers (ino : UInt64) :
    Answers (if (d.ilookup ino).isSome then 1 else 0) (hsxFuseReadlink ino) d :=
  .ilookup .pure fun _ ↦ .bind (of_silent (HandleFrame.silent.readlink _)) fun _ _ ↦
    .ite (.reply _) (.reply _)

theorem hsxFuseRmdir_answers (parent : UInt64) (name : Name) :
    Answers (if (d.ilookup parent).isSome then 1 else 0) (hsxFuseRmdir parent name) d :=
  .ilookup .pure fun _ ↦ .bind (of_silent (HandleFrame.silent.rmdir _ _)) fun _ _ ↦ .reply _

theorem hsxFuseUnlink_answers (parent : UInt64) (name : Name) :
    Answers 1 (hsxFuseUnlink parent name) d :=
  .ite (.reply _) <| .ite (.reply _) <| .ilookup_const (.reply _) fun _ ↦
    .bind (of_silent (HandleFrame.silent.unlink _ _)) fun _ _ ↦ .reply _

theorem hsxFuseRename_answers (parent : UInt64) (name : Name) (newparent : UInt64)
    (newname : Name) : Answers 1 (hsxFuseRename parent name newparent newname) d :=
  .ite (.reply _) <| .ite (.reply _) <| .ite (.reply _) <| .ite (.reply _) <|
    .ilookup_const (.reply _) fun _ ↦ .ilookup_const (.reply _) fun _ ↦
      .bind (of_silent (HandleFrame.silent.rename _ _ _ _)) fun _ _ ↦ .reply _

theorem hsxFuseStatfs_answers : Answers 1 hsxFuseStatfs d := by
  refine .bind (.get_bind fun d ↦ Unanswered.pure d) fun d' _ ↦
    .bind (of_silent (HandleFrame.silent.derefSb _)) fun _ _ ↦
    .bind (of_silent (HandleFrame.silent.statfs _)) fun _ _ ↦ .ite (.reply _) <|
    .bind (.get_bind fun d ↦ Unanswered.pure d) fun d'' _ ↦ ?_
  cases hsiSuper2statvfs d''.sb with
  | none => exact .reply _
  | some stbuf => exact .reply _

theorem hsxFuseForget_answers (ino nlookup : UInt64) : Answers 1 (hsxFuseForget ino nlookup) d :=
  .ilookup_const (.assertFalse _) fun _ ↦ .bind (Unanswered.refDec _ _) fun _ _ ↦
    .ite (.bind (of_silent (Silent.iput _)) fun _ _ ↦ .reply _) (.reply _)

/-- **A handler that completes has given as many answers as `Request.answers` says.** -/
theorem handle_answers (rounds : Nat) (req : Request) :
    Answers (req.answers d) (req.handle rounds) d := by
  cases req with
  | init => exact hsxFuseInit_answers d
  | getattr ino => exact hsxFuseGetattr_answers d ino
  | statfs => exact hsxFuseStatfs_answers d
  | lookup parent name => exact hsxFuseLookup_answers d parent name
  | mkdir parent name mode => exact hsxFuseMkdir_answers d parent name mode
  | «open» => exact .bind Unanswered.malloc fun _ _ ↦ .ite (.reply _) (.reply _)
  | release => exact .reply _
  | read ino size off => exact hsxFuseRead_answers d rounds ino size.toUInt64 off
  | write ino buf off directIo => exact hsxFuseWrite_answers d rounds ino buf off directIo
  | setattr ino attr toSet => exact hsxFuseSetattr_answers d ino attr toSet
  | forget ino nlookup => exact hsxFuseForget_answers d ino nlookup
  | rmdir parent name => exact hsxFuseRmdir_answers d parent name
  | unlink parent name => exact hsxFuseUnlink_answers d parent name
  | readlink ino => exact hsxFuseReadlink_answers d ino
  | symlink target parent name => exact hsxFuseSymlink_answers d target parent name
  | rename parent name newparent newname =>
      exact hsxFuseRename_answers d parent name newparent newname
  | readdir ino size off => exact hsxFuseReaddir_answers d ino size.toUInt64 off
  | opendir ino => exact .ilookup_const (.reply _) fun _ ↦ .reply _
  | mknod parent name mode rdev => exact hsxFuseMknod_answers d parent name mode rdev
  | link ino newparent newname => exact hsxFuseLink_answers d ino newparent newname
  | create parent name mode flags uid gid =>
      exact hsxFuseCreate_answers d parent name mode flags uid gid
  | access ino mask => exact hsxFuseAccess_answers d ino mask
  | getxattr ino name size => exact hsxFuseGetxattr_answers d ino name size.toUInt64
  | setxattr ino name value => exact hsxFuseSetxattr_answers d ino name value
  | readdirplus ino size off => exact hsxFuseReaddirPlus_answers d ino size.toUInt64 off

end handlers

/-! ## Requests that are answered once -/

/-- The requests that are answered once: those whose handlers do not stop without an answer
because a number is not known, and those that do not set an access control list. -/
def Request.AnsweredOnce (d : Daemon) : Request → Prop
  | .access ino _ | .readlink ino => (d.ilookup ino).isSome
  | .create parent _ _ _ _ _ | .mkdir parent _ _ | .rmdir parent _ => (d.ilookup parent).isSome
  | .link ino newparent _ => (d.ilookup newparent).isSome ∧ (d.ilookup ino).isSome
  | .setxattr ino name _ => ¬ ((d.ilookup ino).isSome ∧ (aclTypeOf name).isSome)
  | _ => True

theorem Request.answers_eq_one_iff {req : Request} (hreq : req ≠ .init) (d : Daemon) :
    req.answers d = 1 ↔ req.AnsweredOnce d := by
  cases req with
  | init => exact absurd rfl hreq
  | access ino mask | readlink ino =>
      by_cases hino : (d.ilookup ino).isSome <;> simp [answers, AnsweredOnce, hino]
  | create parent name mode flags uid gid | mkdir parent name mode | rmdir parent name =>
      by_cases hp : (d.ilookup parent).isSome <;> simp [answers, AnsweredOnce, hp]
  | link ino newparent newname =>
      by_cases hp : (d.ilookup newparent).isSome <;> by_cases hino : (d.ilookup ino).isSome <;>
        simp [answers, AnsweredOnce, hp, hino]
  | setxattr ino name value =>
      by_cases hino : (d.ilookup ino).isSome <;> by_cases hname : (aclTypeOf name).isSome <;>
        simp [answers, AnsweredOnce, hino, hname]
  | _ => exact iff_of_true rfl trivial

/-- **A request that has been handled to the end has been answered exactly once if and only
if it is one of those that are.** -/
theorem Request.Handled.replies_once_iff {req : Request} {d d' : Daemon} {es : List Event}
    (hreq : req ≠ .init) (h : req.Handled d es d') :
    (∃ r, d'.replies = d.replies ++ [r]) ↔ req.AnsweredOnce d := by
  obtain ⟨rounds, hx⟩ := h
  obtain ⟨rs, hlen, hrs⟩ := (wp_iff_exec.1 (handle_answers d rounds req [])).1 () d' es hx
  rw [← Request.answers_eq_one_iff hreq, ← hlen, List.length_eq_one_iff, hrs]
  simp only [List.append_cancel_left_eq]

/-- The root of a mounted file system is asked for its attributes. -/
theorem Request.Handled.replies_once_iff_getattr :
    ∃ d es d', sampleMount = some d ∧ Request.Handled (.getattr 1) d es d' ∧
      ((∃ r, d'.replies = d.replies ++ [r]) ↔ Request.AnsweredOnce d (.getattr 1)) := by
  have hplay : (sampleMount.bind fun d ↦ (Request.getattr 1).play sampleAnswer 0 d).isSome := by
    decide +kernel
  obtain ⟨⟨es, d'⟩, hplay⟩ := Option.isSome_iff_exists.1 hplay
  obtain ⟨d, hd, hplay⟩ := Option.bind_eq_some_iff.1 hplay
  have hreq := Request.handled_of_play hplay
  exact ⟨d, es, d', hd, hreq, replies_once_iff (by decide) hreq⟩

/-- A directory that is not known is asked to be removed from, and there is no answer. -/
theorem Request.Handled.not_replies_once :
    ¬ ∀ (req : Request) (d : Daemon) (es : List Event) (d' : Daemon), req ≠ .init → d.Mounted →
      req.Handled d es d' → ∃ r, d'.replies = d.replies ++ [r] := by
  intro h
  have hplay : (sampleMount.bind fun d ↦ ((Request.rmdir 9 [100]).play sampleAnswer 0 d).map
      fun r ↦ (d.replies.length, r.2.replies.length)) = some (0, 0) := by decide +kernel
  obtain ⟨d, hd, hplay⟩ := Option.bind_eq_some_iff.1 hplay
  obtain ⟨⟨es, d'⟩, hplay, hlen⟩ := Option.map_eq_some_iff.1 hplay
  obtain ⟨r, hr⟩ := h _ d es d' (by decide) (mounted_of_play hd) (Request.handled_of_play hplay)
  obtain ⟨h0, h1⟩ := Prod.mk.inj hlen
  rw [hr, List.length_append] at h1
  exact absurd h1 (by simp)

end Hsfs
