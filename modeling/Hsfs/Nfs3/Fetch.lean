import Hsfs.Daemon.Rpc
import Hsfs.Nfs3.Quiet

/-!
# Getting the objects that a reply names

`LOOKUP`, the procedures that create an object and `READDIRPLUS` name objects in their replies,
and the operations get an inode for each.  That can go wrong in three ways: the reply has no
handle, it has no attributes or attributes without a link, or there is no memory for a new inode.
In each case the result is an error pointer, which the operations take for an inode.
-/

namespace Hsfs

open Interact Interact.Act Daemon

/-- First `hsfs_ilookup`, in a cache without freed inodes. -/
theorem Daemon.CacheOk.ends_ilookup {d : Daemon} (hd : d.CacheOk) {α : Type} {ino : UInt64}
    {f : Option Addr → Hs α} {P : List Event → α → Daemon → Prop}
    {E : List Event → Fault → Daemon → Prop} (hnone : d.ilookup ino = none → Ends P E (f none) d)
    (hsome : ∀ p i, d.ilookup ino = some p → d.heap p = some i → Ends P E (f (some p)) d) :
    Ends P E (hsfsIlookup ino >>= f) d := by
  rcases d.hsfsIlookup_cases ino with ⟨hl, hrun⟩ | ⟨p, i, hl, hi, hrun⟩ | ⟨p, hl, hfree, -⟩
  · exact .ret_bind hrun (hnone hl)
  · exact .ret_bind hrun (hsome p i hl hi)
  · have hlive := hd.noneFreed p (hd.ilookup_eq_some_iff.1 hl).1
    rw [hfree] at hlive
    exact nomatch hlive

/-! ## One object -/

/-- The object for which an inode could not be allocated, if the event says so. -/
def deniedObject : Event → Option (UInt64 × NfsFh)
  | ⟨.mallocInode fileid fh _, r⟩ =>
      match r with
      | none => some (fileid, fh)
      | some _ => none
  | _ => none

/-- What a call of `hsi_nfs_fhget` asks the allocator, returns and leaves behind. -/
inductive Daemon.Fetched (d : Daemon) (fh : NfsFh) (fattr : NfsFattr) :
    List Event → Addr → Daemon → Prop
  /-- The attributes are refused. -/
  | unusable {e : Addr} : ¬ fattr.Usable → d.BadPtr e → Fetched d fh fattr [] e d
  /-- There is no memory for a new inode. -/
  | denied {e : Addr} : fattr.Usable → (∀ q, ¬ d.Holds q fattr.fileid fh) → d.BadPtr e →
      Fetched d fh fattr
        [⟨.mallocInode fattr.fileid fh d.inUse, (none : Option (FreeAddr d.inUse))⟩] e d
  /-- The inode of the object is cached. -/
  | found {p : Addr} {i : Inode} : fattr.Usable → p ∈ d.sb.idTable → d.heap p = some i →
      i.fileid = fattr.fileid → i.fh = fh →
      Fetched d fh fattr [] p (d.setInode p (i.refreshed fattr))
  /-- There is a new inode. -/
  | new {a : FreeAddr d.inUse} {id : UInt64} : fattr.Usable →
      (∀ q, ¬ d.Holds q fattr.fileid fh) → d.FreshId id →
      Fetched d fh fattr [⟨.mallocInode fattr.fileid fh d.inUse, some a⟩] a.1
        (d.insert a.1 (newInode d.sb ⟨fh, fattr⟩ id))

/-- A call does one of these things. -/
theorem Daemon.CacheOk.wp_fetched {d : Daemon} (h : d.CacheOk) (fh : NfsFh) (fattr : NfsFattr)
    (tr : List Event) :
    wp Server.record (hsiNfsFhget fh fattr)
      (fun p d' tr' ↦ ∃ es, tr' = tr ++ es ∧ d.Fetched fh fattr es p d')
        (fun _ _ _ ↦ False) d tr := by
  rw [wp]
  rcases h.hsiNfsFhget_cases fh fattr with ⟨hu, e, he, hrun⟩ |
    ⟨hu, p, i, hp, hi, hfileid, hfh, hrun⟩ | ⟨hu, hnone, k, hrun, ⟨e, he, hk0⟩, hk⟩
  · rw [hrun]
    exact ⟨[], (List.append_nil tr).symm, .unusable hu he⟩
  · rw [hrun]
    exact ⟨[], (List.append_nil tr).symm, .found hu hp hi hfileid hfh⟩
  · rw [hrun]
    rintro r _ rfl
    cases r with
    | none =>
        rw [hk0]
        exact ⟨_, rfl, .denied hu hnone he⟩
    | some a =>
        obtain ⟨id, hfresh, hka⟩ := hk a
        rw [hka]
        exact ⟨_, rfl, .new hu hnone hfresh⟩

namespace Daemon.Fetched

variable {d d' : Daemon} {fh : NfsFh} {fattr : NfsFattr} {es : List Event} {p : Addr}

theorem fhget (h : d.Fetched fh fattr es p d') : d.Fhget fh fattr p d' := by
  cases h with
  | unusable _ he => exact .bad he
  | denied _ _ he => exact .bad he
  | found hu hp hi hfileid hfh => exact .found hu hp hi hfileid hfh
  | @new a _ hu hnone hfresh =>
      obtain ⟨ha, hplace⟩ := heap_freeAddr a
      exact .new hu hnone ha hplace hfresh

/-- **The result is the cached inode of the object, or an error pointer**, and which of the two
depends on the attributes and the allocator. -/
theorem good_or_bad (h : d.Fetched fh fattr es p d') :
    (d'.Holds p fattr.fileid fh ∧ fattr.Usable ∧ ∀ e ∈ es, deniedObject e = none) ∨
      (d.BadPtr p ∧ d' = d ∧
        (¬ fattr.Usable ∨ ∃ e ∈ es, deniedObject e = some (fattr.fileid, fh))) := by
  cases h with
  | unusable hu he => exact .inr ⟨he, rfl, .inl hu⟩
  | denied _ _ he => exact .inr ⟨he, rfl, .inr ⟨_, List.mem_singleton_self _, rfl⟩⟩
  | found hu hp hi hfileid hfh =>
      refine .inl ⟨⟨hp, _, d.setInode_heap_self p _, ?_, ?_⟩, hu, fun _ he ↦ ?_⟩
      · exact (Inode.refreshed_sameId _ fattr).fileid.trans hfileid
      · exact (Inode.refreshed_sameId _ fattr).fh.trans hfh
      · exact absurd he List.not_mem_nil
  | @new a _ hu hnone hfresh =>
      refine .inl ⟨⟨mem_idTable_insert.2 (.inl rfl), _, insert_heap_self, rfl, rfl⟩, hu, ?_⟩
      intro e he
      rw [List.mem_singleton.1 he]
      rfl

/-- No memory is denied to an object whose inode is cached. -/
theorem deniedObject_ne (h : d.Fetched fh fattr es p d') {q : Addr} {fileid : UInt64} {fh' : NfsFh}
    (hq : d.Holds q fileid fh') {e : Event} (he : e ∈ es) :
    deniedObject e ≠ some (fileid, fh') := by
  cases h with
  | unusable _ _ => exact absurd he List.not_mem_nil
  | found _ _ _ _ _ => exact absurd he List.not_mem_nil
  | denied _ hnone _ =>
      rw [List.mem_singleton.1 he]
      intro heq
      cases heq
      exact hnone q hq
  | new _ _ _ =>
      rw [List.mem_singleton.1 he]
      exact fun heq ↦ nomatch heq

end Daemon.Fetched

/-! ## Harmful events -/

/-- The object has a handle, and attributes with a link. -/
def usableObject (obj : Option NfsFh) (attributes : Option Fattr3) : Bool :=
  match obj, attributes with
  | some _, some attr => attr.nlink != 0
  | _, _ => false

/-- The object that the reply to a request other than `READDIRPLUS` names is usable, if it names
one. -/
def replyUsable : (req : Rpc) → req.Res → Bool
  | .lookup _ _, .ok res => usableObject (some res.object) res.objAttributes
  | .create _ _ _, .ok res => usableObject res.obj res.objAttributes
  | .mkdir _ _ _, .ok res => usableObject res.obj res.objAttributes
  | .symlink _ _ _ _, .ok res => usableObject res.obj res.objAttributes
  | .mknod _ _ _, .ok res => usableObject res.obj res.objAttributes
  | _, _ => true

/-- The event makes an error pointer of an object: it is a reply that names an object that is not
usable, or the denial of memory for an inode. -/
def isHarmful : Event → Bool
  | ⟨.clntCall _ req, .done res⟩ => !replyUsable req res
  | e => (deniedObject e).isSome

theorem isHarmful_of_isAttempt {e : Event} (h : isAttempt e = true) : isHarmful e = false := by
  obtain ⟨_, _, _, rfl⟩ | ⟨_, _, rfl⟩ | ⟨_, _, rfl⟩ := isAttempt_cases h <;> rfl

/-- There is a harmful event. -/
def harmed (es : List Event) : Bool := es.any isHarmful

@[simp] theorem harmed_append (es es' : List Event) :
    harmed (es ++ es') = (harmed es || harmed es') := List.any_append

/-- A call does harm if its reply does. -/
theorem CallEvents.harmed_eq {req : Rpc} {es : List Event} {res : Except Int req.Res}
    (h : CallEvents req es res) :
    harmed es = match res with
      | .ok r => !replyUsable req r
      | .error _ => false := by
  have hnone {es : List Event} (hes : ∀ e ∈ es, isAttempt e = true) : harmed es = false :=
    List.any_eq_false.2 fun e he ↦ by simp [isHarmful_of_isAttempt (hes e he)]
  cases h with
  | error hes => exact hnone hes
  | reply clnt r hes =>
      rw [harmed_append, hnone hes, Bool.false_or]
      exact Bool.or_false _

/-- Attributes are accepted if they are there and have a link. -/
theorem usable_post2fattr_iff (obj : NfsFh) {attributes : Option Fattr3} :
    (hsiNfs3Post2fattr attributes NfsFattr.fresh).Usable ↔
      usableObject (some obj) attributes = true := by
  cases attributes with
  | none => exact iff_of_false (by decide) Bool.false_ne_true
  | some attr =>
      change (hsiNfs3Fattr2fattr attr NfsFattr.fresh).Usable ↔ (attr.nlink != 0) = true
      rw [bne_iff_ne]
      exact and_iff_right (isValid_hsiNfs3Fattr2fattr attr _)

/-! ## The object of a reply -/

/-- What became of an object: a cached inode, or an error pointer if there was harm. -/
def Obtained (harm : Bool) (new : Addr) (d : Daemon) : Prop :=
  (new ∈ d.sb.idTable ∧ harm = false) ∨ (d.BadPtr new ∧ harm = true)

/-- Neither an inode nor an error pointer passes the test for an error pointer. -/
theorem Obtained.isErr_eq_false {harm : Bool} {new : Addr} {d : Daemon} (h : Obtained harm new d)
    (hd : d.CacheOk) : isErr new = false := by
  rcases h with ⟨hnew, -⟩ | ⟨hbad, -⟩
  · exact hd.isErr_eq_false hnew
  · exact hbad.notErr

/-- The object that a reply is about, if it is usable: its number and handle. -/
def Diropres3ok.object (res : Diropres3ok) : Option (UInt64 × NfsFh) :=
  match res.obj, res.objAttributes with
  | some fh, some attr => if attr.nlink ≠ 0 then some (attr.fileid, fh) else none
  | _, _ => none

/-- What became of the object of a reply: its inode, or an error pointer if there was harm and it
has no inode. -/
inductive Gotten (res : Diropres3ok) (d : Daemon) (new : Addr) : Bool → Prop
  | inode {fileid : UInt64} {fh : NfsFh} : res.object = some (fileid, fh) → d.Holds new fileid fh →
      Gotten res d new false
  | bad : d.BadPtr new →
      (∀ fileid fh, res.object = some (fileid, fh) → ∀ q, ¬ d.Holds q fileid fh) →
      Gotten res d new true

theorem Gotten.obtained {res : Diropres3ok} {harm : Bool} {d : Daemon} {new : Addr}
    (h : Gotten res d new harm) : Obtained harm new d := by
  cases h with
  | inode _ hholds => exact .inl ⟨hholds.1, rfl⟩
  | bad hbad _ => exact .inr ⟨hbad, rfl⟩

/-- Freeing a reply leaves the object alone. -/
theorem Gotten.clientsOnly {res : Diropres3ok} {harm : Bool} {d d' : Daemon} {new : Addr}
    {es : List Event} (h : Gotten res d new harm) (honly : ClientsOnly d es d') :
    Gotten res d' new harm := by
  have hiff {q : Addr} {fileid : UInt64} {fh : NfsFh} : d'.Holds q fileid fh ↔
    d.Holds q fileid fh := by
    rw [Holds, Holds, honly.idTable, honly.heap]
  cases h with
  | inode hobj hholds => exact .inode hobj (hiff.2 hholds)
  | bad hbad hnone =>
      exact .bad ⟨honly.layout ▸ hbad.nearBad, hbad.notErr, hbad.ne_null⟩
        fun fileid fh hobj q hq ↦ hnone fileid fh hobj q (hiff.1 hq)

/-- The inode stays that of the object while the cache grows. -/
theorem Gotten.extends_ {res : Diropres3ok} {d d' : Daemon} {new : Addr}
    (h : Gotten res d new false) (hext : d.Extends d') : Gotten res d' new false := by
  cases h with
  | inode hobj hholds => exact .inode hobj (hext.holds hholds)

/-- The events of getting an inode contain no reply. -/
theorem Daemon.Fetched.isReply_eq_false {d d' : Daemon} {fh : NfsFh} {fattr : NfsFattr}
    {es : List Event} {p : Addr} (h : d.Fetched fh fattr es p d') : ∀ e ∈ es,
      isReply e = false := by
  intro e he
  cases h with
  | unusable _ _ => exact absurd he List.not_mem_nil
  | found _ _ _ _ _ => exact absurd he List.not_mem_nil
  | denied _ _ _ => rw [List.mem_singleton.1 he]; rfl
  | new _ _ _ => rw [List.mem_singleton.1 he]; rfl

/-- With a handle it is up to the attributes whether an object is usable. -/
theorem object_cases (res : Diropres3ok) (fh : NfsFh) (hobj : res.obj = some fh) :
    ((hsiNfs3Post2fattr res.objAttributes NfsFattr.fresh).Usable ∧
      res.object = some ((hsiNfs3Post2fattr res.objAttributes NfsFattr.fresh).fileid, fh) ∧
      usableObject res.obj res.objAttributes = true) ∨
    (¬ (hsiNfs3Post2fattr res.objAttributes NfsFattr.fresh).Usable ∧ res.object = none ∧
      usableObject res.obj res.objAttributes = false) := by
  rw [usable_post2fattr_iff fh, ← hobj, Diropres3ok.object, hobj]
  cases hattr : res.objAttributes with
  | none => exact .inr ⟨Bool.false_ne_true, rfl, rfl⟩
  | some attr =>
      by_cases hlink : attr.nlink = 0
      · exact .inr ⟨by simp [usableObject, hlink], by simp [hlink], by simp [usableObject, hlink]⟩
      · refine .inl ⟨bne_iff_ne.2 hlink, ?_, bne_iff_ne.2 hlink⟩
        exact if_pos hlink

/-- **`hsi_nfs3_handle_create` gets the inode of the object, or an error pointer.** -/
theorem Daemon.CacheOk.ends_handleCreate {d : Daemon} (h : d.CacheOk) (res : Diropres3ok) :
    Ends (fun es new d' ↦ (∀ e ∈ es, isReply e = false) ∧ d'.CacheOk ∧
        Gotten res d' new (!usableObject res.obj res.objAttributes || harmed es))
      (fun _ _ _ ↦ False) (hsiNfs3HandleCreate res) d := by
  unfold hsiNfs3HandleCreate
  cases hobj : res.obj with
  | none =>
      obtain ⟨e, hrun, hbad, herr, hnull⟩ := errPtr_run d Errno.noent (by decide) (by decide)
      refine .of_ret hrun ⟨fun _ he ↦ absurd he List.not_mem_nil, h, .bad ⟨hbad, herr, hnull⟩ ?_⟩
      intro fileid fh hobject
      rw [Diropres3ok.object, hobj] at hobject
      exact nomatch hobject
  | some fh =>
      intro tr
      refine wp_mono ?_ (fun _ _ _ h ↦ h.elim) (h.wp_fetched fh _ tr)
      rintro new d' _ ⟨es, rfl, hfetched⟩
      refine ⟨es, rfl, hfetched.isReply_eq_false, hfetched.fhget.cacheOk h, ?_⟩
      rcases object_cases res fh hobj with ⟨hu, hobject, husable⟩ | ⟨hu, hobject, husable⟩
      · -- the attributes are usable, so that it is up to the allocator
        rw [← hobj, husable, Bool.not_true, Bool.false_or]
        cases hfetched with
        | unusable hnot _ => exact absurd hu hnot
        | denied _ hnone he =>
            refine .bad he fun fileid fh' heq ↦ ?_
            rw [hobject] at heq
            cases heq
            exact hnone
        | found _ hp hi hfileid hfh =>
            exact .inode hobject ⟨hp, _, d.setInode_heap_self _ _,
              (Inode.refreshed_sameId _ _).fileid.trans hfileid,
              (Inode.refreshed_sameId _ _).fh.trans hfh⟩
        | new _ _ _ =>
            exact .inode hobject ⟨mem_idTable_insert.2 (.inl rfl), _, insert_heap_self, rfl, rfl⟩
      · rw [← hobj, husable, Bool.not_false, Bool.true_or]
        cases hfetched with
        | unusable _ he =>
            refine .bad he fun fileid fh' heq ↦ ?_
            rw [hobject] at heq
            exact nomatch heq
        | denied hyes _ _ => exact absurd hyes hu
        | found hyes _ _ _ _ => exact absurd hyes hu
        | new hyes _ _ => exact absurd hyes hu

/-! ## What the replies name and set -/

/-- The object that a reply names. -/
def namedBy : (req : Rpc) → req.Res → Option Diropres3ok
  | .lookup _ _, .ok res => some ⟨some res.object, res.objAttributes⟩
  | .create _ _ _, .ok res => some res
  | .mkdir _ _ _, .ok res => some res
  | .symlink _ _ _ _, .ok res => some res
  | .mknod _ _ _, .ok res => some res
  | _, _ => none

/-- The objects that the replies among some events name. -/
def named (es : List Event) : List Diropres3ok := picked namedBy es

/-- What a reply to `SETATTR` says if the attributes have been set. -/
def setBy : (req : Rpc) → req.Res → Option (Option Fattr3)
  | .setattr _ _, .ok after => some after
  | _, _ => none

/-- What the successful replies to `SETATTR` say. -/
def setattrs (es : List Event) : List (Option Fattr3) := picked setBy es

/-- What `hsi_nfs3_setattr` returns: it fails if the reply brings no attributes. -/
inductive SetStatus (es : List Event) : Int → Prop
  | refused {err : Int} : err ≠ 0 → setattrs es = [] → SetStatus es err
  | bare : setattrs es = [none] → SetStatus es Errno.again
  | done {attr : Fattr3} : setattrs es = [some attr] → SetStatus es 0

/-- Only the replies to `SETATTR` matter. -/
theorem SetStatus.append_left {es es' : List Event} {err : Int} (h : SetStatus es' err)
    (hes : setattrs es = []) : SetStatus (es ++ es') err := by
  have happend : setattrs (es ++ es') = setattrs es' := by
    rw [setattrs, picked_append]
    exact congrArg (· ++ setattrs es') hes
  cases h with
  | refused herr hnil => exact .refused herr (happend.trans hnil)
  | bare hbare => exact .bare (happend.trans hbare)
  | done hdone => exact .done (happend.trans hdone)

/-- What an operation that yields an object returns: an error, or the object of the reply.  An
exclusive create may fail after the file has been created, since it sets the mode of the file. -/
inductive Naming (excl : Bool) (es : List Event) (d : Daemon) : Int → Addr → Prop
  | refused {err : Int} {new : Addr} : err ≠ 0 → named es = [] → setattrs es = [] →
      harmed es = false → Naming excl es d err new
  | plain {res : Diropres3ok} {new : Addr} : excl = false → named es = [res] →
      Gotten res d new (harmed es) → Naming excl es d 0 new
  | exclusive {res : Diropres3ok} {err : Int} {new : Addr} : excl = true → named es = [res] →
      harmed es = false → Gotten res d new false → SetStatus es err → Naming excl es d err new

/-- The fault of an exclusive create that has got an error pointer. -/
def Strayed (excl : Bool) (es : List Event) (e : Fault) (_ : Daemon) : Prop :=
  excl = true ∧ named es ≠ [] ∧ setattrs es = [] ∧ harmed es = true ∧ e = .segv

/-- A test for memory makes no difference. -/
theorem Naming.malloc {excl : Bool} {es : List Event} {d : Daemon} {err : Int} {new : Addr}
    (h : Naming excl es d err new) (got : Bool) : Naming excl (⟨.malloc, got⟩ :: es) d err new := by
  have hharm : harmed (⟨.malloc, got⟩ :: es) = harmed es := Bool.false_or _
  cases h with
  | refused herr hnamed hset hnone => exact .refused herr hnamed hset (hharm.trans hnone)
  | plain hexcl hnamed hgot => exact .plain hexcl hnamed (hharm ▸ hgot)
  | exclusive hexcl hnamed hnone hgot hset =>
      refine .exclusive hexcl hnamed (hharm.trans hnone) hgot ?_
      cases hset with
      | refused herr hnil => exact .refused herr hnil
      | bare hbare => exact .bare hbare
      | done hdone => exact .done hdone

/-! ## The operations -/

section operations

variable {d : Daemon} {p : Addr} {i : Inode}

theorem getfh3_run (hi : d.heap p = some i) : (hsiNfs3Getfh3 p).run d = .ret (.ok i.fh, d) := by
  rw [hsiNfs3Getfh3, run_bind_of_ret (load_run hi), run_pure]

theorem getCookieVerf_run (hi : d.heap p = some i) :
    (getCookieVerf p).run d = .ret (.ok i.cookieverf, d) := by
  rw [getCookieVerf, run_bind_of_ret (load_run hi), run_pure]

theorem clearThenPtrErr_run {new : Addr} (h : isErr new = false) :
    (clearThenPtrErr new).run d = .ret (.ok (0, new), d) := by
  rw [clearThenPtrErr, run_bind_of_ret run_get, h]
  rfl

/-- A call without a reply. -/
theorem Naming.of_error {req : Rpc} {es : List Event} {err : Int} {excl : Bool} {new : Addr}
    (h : CallEvents req es (.error err)) (herr : err ≠ 0) : Naming excl es d err new :=
  .refused herr (h.picked_error namedBy) (h.picked_error setBy) h.harmed_eq

/-- A reply that says that the procedure has failed. -/
theorem Naming.of_fail {req : Rpc} {es : List Event} {res : req.Res} {err : Int} {excl : Bool}
    {new : Addr} (h : CallEvents req es (.ok res)) (hres : namedBy req res = none)
    (hset : setBy req res = none) (hharm : replyUsable req res = true) (herr : err ≠ 0) :
    Naming excl es d err new := by
  refine .refused herr ?_ ?_ ?_
  · rw [named, h.picked_ok namedBy, hres]
    rfl
  · rw [setattrs, h.picked_ok setBy, hset]
    rfl
  · exact h.harmed_eq.trans (congrArg not hharm)

/-- An operation that ends with an error after its call. -/
theorem ends_refused {excl : Bool} {es : List Event} {x : Hs (Int × Addr)} {err : Int} {d' : Daemon}
    (hx : x.run d = .ret (.ok (err, Addr.null), d'))
    (h : ∀ {d : Daemon}, Naming excl es d err Addr.null) :
    Ends (fun es' r d' ↦ Naming excl (es ++ es') d' r.1 r.2) (fun es' ↦ Strayed excl (es ++ es'))
      x d := by
  refine .of_ret hx ?_
  rw [List.append_nil]
  exact h

/-- What remains after a reply that names an object, unless the mode has to be set. -/
theorem ends_plain (hd : d.CacheOk) {res : Diropres3ok} {es : List Event}
    (hnamed : named es = [res])
    (hharm : harmed es = !usableObject res.obj res.objAttributes) {f : Addr → Hs (Int × Addr)}
    (hf : ∀ d new, isErr new = false →
      ∃ d', (f new).run d = .ret (.ok (0, new), d') ∧ ClientsOnly d [] d') :
    Ends (fun es' r d' ↦ Naming false (es ++ es') d' r.1 r.2)
      (fun es' ↦ Strayed false (es ++ es')) (hsiNfs3HandleCreate res >>= f) d := by
  refine (hd.ends_handleCreate res).bind ?_ fun _ _ _ h ↦ h.elim
  rintro es' new d₁ ⟨hreply, hd₁, hgot⟩
  obtain ⟨d', hrun, honly⟩ := hf d₁ new (hgot.obtained.isErr_eq_false hd₁)
  refine .of_ret hrun ?_
  rw [List.append_nil]
  refine .plain rfl (?_ : _ = [res]) ?_
  · rw [named, picked_append, picked_eq_nil _ hreply, List.append_nil]
    exact hnamed
  · rw [harmed_append, hharm]
    exact hgot.clientsOnly honly

/-- **`hsi_nfs3_lookup`.** -/
theorem ends_lookup (hd : d.CacheOk) (hi : d.heap p = some i) (name : Name) :
    Ends (fun es r d' ↦ Naming false es d' r.1 r.2) (Strayed false) (hsiNfs3Lookup p name) d := by
  refine .ret_bind (getfh3_run hi) (ends_call_bind (ends_callSb _) ?_ ?_)
  · intro es err d₁ hcall herr _
    exact ends_refused rfl (.of_error hcall herr)
  · rintro es (res | status) d₁ hcall honly
    · exact ends_plain (honly.cacheOk hd) (hcall.picked_ok namedBy) hcall.harmed_eq fun d new _ ↦
        ⟨_, rfl, ⟨rfl, rfl, rfl, rfl⟩, rfl, rfl, rfl, rfl⟩
    · exact ends_refused rfl (.of_fail hcall rfl rfl rfl (hsiNfs3StatToErrno_ne_zero status.2))

/-- **mkdir, mknod and symlink** after their call. -/
theorem ends_making {free : Hs Unit} {req : Rpc} {f : Except Int req.Res → Hs (Int × Addr)}
    {x : Hs (Except Int req.Res)} (hd : d.CacheOk) (h : Makes free req f)
    (hx : Ends (Called d req) (fun _ _ _ ↦ False) x d)
    (hfree : ∀ d, ∃ d', free.run d = .ret (.ok (), d') ∧ ClientsOnly d [] d') :
    Ends (fun es r d' ↦ Naming false es d' r.1 r.2) (Strayed false) (x >>= f) d := by
  cases h
  all_goals
    refine ends_call_bind hx (fun es err d₁ hcall herr _ ↦ ?_) ?_
    · exact ends_refused rfl (.of_error hcall herr)
    rintro es (res | status) d₁ hcall honly
    · refine ends_plain (honly.cacheOk hd) (hcall.picked_ok namedBy) hcall.harmed_eq ?_
      intro d new hnew
      obtain ⟨d', hrun, honly'⟩ := hfree d
      refine ⟨d', ?_, honly'⟩
      rw [run_bind_of_ret (clearThenPtrErr_run hnew), run_bind_of_ret hrun]
      rfl
    · obtain ⟨d', hrun, -⟩ := hfree d₁
      exact ends_refused (run_bind_of_ret hrun _)
        (.of_fail hcall rfl rfl rfl (hsiNfs3StatToErrno_ne_zero status.2))

/-- **`hsi_nfs3_mkdir`.** -/
theorem ends_mkdir (hd : d.CacheOk) (hi : d.heap p = some i) (name : Name) (mode : UInt32) :
    Ends (fun es r d' ↦ Naming false es d' r.1 r.2) (Strayed false) (hsiNfs3Mkdir p name mode) d :=
  .ret_bind (getfh3_run hi) (ends_making hd (.mkdir _ _ _) (ends_callSb _)
    fun _ ↦ ⟨_, rfl, ⟨rfl, rfl, rfl, rfl⟩, rfl, rfl, rfl, rfl⟩)

/-- **`hsi_nfs3_symlink`.** -/
theorem ends_symlink (hd : d.CacheOk) (hi : d.heap p = some i) (target name : Name) :
    Ends (fun es r d' ↦ Naming false es d' r.1 r.2) (Strayed false)
      (hsiNfs3Symlink p target name) d :=
  .ret_bind (getfh3_run hi) (ends_making hd (.symlink _ _ _ _) (ends_callSb _)
    fun _ ↦ ⟨_, rfl, ⟨rfl, rfl, rfl, rfl⟩, rfl, rfl, rfl, rfl⟩)

/-- **`hsi_nfs3_mknod`.** -/
theorem ends_mknod (hd : d.CacheOk) (hi : d.heap p = some i) (name : Name) (mode : UInt32)
    (rdev : UInt64) :
    Ends (fun es r d' ↦ Naming false es d' r.1 r.2) (Strayed false)
      (hsiNfs3Mknod p name mode rdev) d := by
  unfold hsiNfs3Mknod
  split
  · exact .pure (.refused (by decide) rfl rfl rfl)
  refine .ret_bind (getfh3_run hi) (ends_malloc_bind fun got ↦
    Ends.mono (P := fun es r d' ↦ Naming false es d' r.1 r.2) (E := Strayed false) ?_
      (fun _ _ _ h ↦ h.malloc got) fun _ _ _ h ↦ nomatch h.1)
  cases got with
  | false => exact .pure (.refused (by decide) rfl rfl rfl)
  | true =>
      exact .ret_bind (x := sbClntp) rfl (ends_making hd (.mknod _ _ _) (ends_call (.inl rfl) _)
        fun _ ↦ ⟨_, rfl, ⟨rfl, rfl, rfl, rfl⟩, rfl, rfl, rfl, rfl⟩)

/-- **`hsi_nfs3_setattr`.** -/
theorem ends_hsiNfs3Setattr (hi : d.heap p = some i) (fattr : NfsFattr) (attr : HsfsIattr) :
    Ends (fun es r d' ↦ SetStatus es r.1 ∧ named es = [] ∧ harmed es = false ∧ ClientsOnly d es d')
      (fun _ _ _ ↦ False) (hsiNfs3Setattr p fattr attr) d := by
  refine .ret_bind (x := sbClntp) rfl (.ret_bind (getfh3_run hi)
    (ends_call_bind (ends_call (.inl rfl) _) ?_ ?_))
  · intro es err d₁ hcall herr honly
    refine .pure ?_
    rw [List.append_nil]
    exact ⟨.refused herr (hcall.picked_error setBy), hcall.picked_error namedBy, hcall.harmed_eq,
      honly⟩
  · intro es res d₁ hcall honly
    have hset := hcall.picked_ok setBy
    have hnamed : named es = [] := hcall.picked_ok namedBy
    have hharm : harmed es = false := hcall.harmed_eq
    have hfree : ClientsOnly d es (d₁.useClient d.sb.clntp) :=
      ⟨⟨honly.layout, honly.replies, honly.touched, honly.root⟩, honly.heap, honly.fhTable,
        honly.idTable, honly.currId⟩
    rcases res with (_ | after) | status
    · refine .of_ret rfl ?_
      rw [List.append_nil]
      exact ⟨.bare hset, hnamed, hharm, hfree⟩
    · refine .of_ret rfl ?_
      rw [List.append_nil]
      exact ⟨.done hset, hnamed, hharm, hfree⟩
    · refine .of_ret rfl ?_
      rw [List.append_nil]
      exact ⟨.refused (hsiNfs3StatToErrno_ne_zero status.2) hset, hnamed, hharm, hfree⟩

/-- **`hsi_nfs_setattr`**, if there is something to be set. -/
theorem ends_hsiNfsSetattr (hi : d.heap p = some i) {attr : HsfsIattr}
    (hvalid : hsiNfsSetattrValid i attr ≠ 0) :
    Ends (fun es status _ ↦ SetStatus es status ∧ named es = [] ∧ harmed es = false)
      (fun _ _ _ ↦ False) (hsiNfsSetattr p attr) d := by
  refine .ret_bind (load_run hi) ?_
  rw [if_neg hvalid]
  refine .ret_bind (derefSb_run hi)
    ((ends_hsiNfs3Setattr hi _ _).bind ?_ fun _ _ _ h ↦ h)
  rintro es ⟨error, fattr⟩ d₁ ⟨hset, hnamed, hharm, honly⟩
  -- what the refresh returns is not looked at
  have hend : ∃ d', ((do
      if error = 0 then
        let _ ← nfsRefreshInode p fattr
      pure error : Hs Int)).run d₁ = .ret (.ok error, d') := by
    have hi₁ : d₁.heap p = some i := honly.heap ▸ hi
    by_cases herr : error = 0
    · rw [if_pos herr, run_bind, nfsRefreshInode_run hi₁]
      split
      · split
        · exact ⟨_, rfl⟩
        · exact ⟨_, rfl⟩
      · exact ⟨_, rfl⟩
    · exact ⟨_, by rw [if_neg herr]; rfl⟩
  obtain ⟨d', hrun⟩ := hend
  refine .of_ret hrun ?_
  rw [List.append_nil]
  exact ⟨hset, hnamed, hharm⟩

/-- There is always a mode to be set after an exclusive create. -/
theorem hsiNfsSetattrValid_exclusiveIattr (i j : Inode) (mode : UInt32) :
    hsiNfsSetattrValid j (exclusiveIattr i mode) ≠ 0 := by
  intro h
  have hbit := congrArg (fun v : UInt32 ↦ v.toBitVec.getLsbD 0) h
  unfold hsiNfsSetattrValid exclusiveIattr at hbit
  split at hbit <;> simp [HsfsAttr.mode, HsfsAttr.size, nfsValidAttrs] at hbit

/-- An exclusive create sets the mode of the file.  With an error pointer it does not get that
far. -/
theorem ends_exclusive (hd : d.CacheOk) {res : Diropres3ok} {es : List Event} {new : Addr}
    (hnamed : named es = [res]) (hsets : setattrs es = []) (hgot : Gotten res d new (harmed es))
    (mode : UInt32) (clntp : Client) :
    Ends (fun es' r d' ↦ Naming true (es ++ es') d' r.1 r.2) (fun es' ↦ Strayed true (es ++ es'))
      (do
        let i ← load new
        let status ← hsiNfsSetattr new (exclusiveIattr i mode)
        clntFreeres clntp
        pure (status, new)) d := by
  cases hharm : harmed es with
  | false =>
      rw [hharm] at hgot
      obtain ⟨hnew, -⟩ | ⟨-, hfalse⟩ := hgot.obtained
      · obtain ⟨j, hj⟩ := hd.live new hnew
        have hset := (ends_hsiNfsSetattr hj (hsiNfsSetattrValid_exclusiveIattr j j mode)).and
          (.of_evolves (HandleFrame.grows.setattr new (exclusiveIattr j mode)) d)
        refine .ret_bind (load_run hj) (hset.bind ?_ fun _ _ _ h ↦ h.1.elim)
        rintro es' status d₁ ⟨⟨hstatus, hnone, hharmless⟩, hgrows⟩
        refine .of_ret (show _ = Prog.ret (_, d₁.useClient clntp) from rfl) ?_
        rw [List.append_nil]
        have hharm' : harmed (es ++ es') = false := by rw [harmed_append, hharm, hharmless]; rfl
        have hnamed' : named (es ++ es') = [res] := by
          rw [named, picked_append]
          exact congrArg₂ (· ++ ·) hnamed hnone
        refine .exclusive rfl hnamed' hharm' ?_ ?_
        · have hfree : ClientsOnly d₁ [] (d₁.useClient clntp) :=
            ⟨⟨rfl, rfl, rfl, rfl⟩, rfl, rfl, rfl, rfl⟩
          exact (hgot.extends_ (hgrows hd).2).clientsOnly hfree
        · exact hstatus.append_left hsets
      · exact nomatch hfalse
  | true =>
      rw [hharm] at hgot
      obtain hbad : d.BadPtr new := by
        cases hgot with
        | bad hbad _ => exact hbad
      have hnone : d.heap new = none := by
        by_contra hsome
        obtain ⟨i, hi⟩ := Option.ne_none_iff_exists'.1 hsome
        exact Bool.false_ne_true ((hd.not_nearBad hi).symm.trans hbad.nearBad)
      have hload : (load new).run d = .ret (.ok Inode.zero, d) := by
        simp [load, hnone, hbad.nearBad]
      -- the superblock of the inode is not there
      have hderef : (derefSb new).run d = .ret (.error .segv, d) := by
        simp [derefSb, hnone]
      refine .ret_bind hload (.of_fault (show _ = Prog.ret (Except.error Fault.segv, d) from ?_) ?_)
      · rw [run_bind, hsiNfsSetattr, run_bind_of_ret hload,
          if_neg (hsiNfsSetattrValid_exclusiveIattr _ _ _), run_bind, hderef]
        rfl
      · rw [List.append_nil]
        exact ⟨rfl, hnamed ▸ List.cons_ne_nil _ _, hsets, hharm, rfl⟩

/-- **`hsi_nfs3_create`.** -/
theorem ends_create (hd : d.CacheOk) (hi : d.heap p = some i) (name : Name) (mode : UInt32) :
    Ends (fun es r d' ↦ Naming ((mode &&& 0xF0000) >>> 16 == 2) es d' r.1 r.2)
      (Strayed ((mode &&& 0xF0000) >>> 16 == 2)) (hsiNfs3Create p name mode) d := by
  refine .ret_bind (load_run hi) (.ret_bind (x := sbClntp) rfl
    (ends_call_bind (ends_call (.inl rfl) _) ?_ ?_))
  · intro es err d₁ hcall herr _
    exact ends_refused rfl (.of_error hcall herr)
  · rintro es (res | status) d₁ hcall honly
    · have hd₁ := honly.cacheOk hd
      have hnamed : named es = [res] := hcall.picked_ok namedBy
      have hsets : setattrs es = [] := hcall.picked_ok setBy
      by_cases hexcl : (mode &&& 0xF0000) >>> 16 = 2
      · rw [beq_iff_eq.2 hexcl]
        refine (hd₁.ends_handleCreate res).bind ?_ fun _ _ _ h ↦ h.elim
        rintro es' new d₂ ⟨hreply, hd₂, hgot⟩
        rw [hgot.obtained.isErr_eq_false hd₂, if_neg Bool.false_ne_true, if_pos hexcl]
        have hnamed' : named (es ++ es') = [res] := by
          rw [named, picked_append, picked_eq_nil _ hreply, List.append_nil]
          exact hnamed
        have hsets' : setattrs (es ++ es') = [] := by
          rw [setattrs, picked_append, picked_eq_nil _ hreply, List.append_nil]
          exact hsets
        have hharm : harmed (es ++ es') =
          (!usableObject res.obj res.objAttributes || harmed es') := by
          rw [harmed_append]
          exact congrArg (· || harmed es') hcall.harmed_eq
        simp only [← List.append_assoc]
        exact ends_exclusive hd₂ hnamed' hsets' (hharm ▸ hgot) mode _
      · rw [beq_eq_false_iff_ne.2 hexcl]
        refine ends_plain hd₁ hnamed hcall.harmed_eq fun d new hnew ↦ ?_
        rw [hnew, if_neg Bool.false_ne_true, if_neg hexcl]
        exact ⟨_, rfl, ⟨rfl, rfl, rfl, rfl⟩, rfl, rfl, rfl, rfl⟩
    · exact ends_refused rfl (.of_fail hcall rfl rfl rfl (hsiNfs3StatToErrno_ne_zero status.2))

end operations

/-! ## Objects and harm -/

/-- What an operation that yields an object returns: an error, the inode of the object, or an
error pointer if there was harm. -/
inductive Outcome (harm : Bool) (d : Daemon) : Int → Addr → Prop
  | failed {err : Int} {new : Addr} : err ≠ 0 → harm = false → Outcome harm d err new
  | obtained {new : Addr} : Obtained harm new d → Outcome harm d 0 new

/-- Every execution of `x` from `d` has such an outcome, where there may have been harm before.  It
ends in a fault only if there was harm. -/
def Yields (harm : Bool) (d : Daemon) (x : Hs (Int × Addr)) : Prop :=
  ∀ tr, wp Server.record x
    (fun r d' tr' ↦ ∃ es, tr' = tr ++ es ∧ Outcome (harm || harmed es) d' r.1 r.2)
    (fun _ _ tr' ↦ ∃ es, tr' = tr ++ es ∧ (harm || harmed es) = true) d tr

theorem Naming.outcome {excl : Bool} {es : List Event} {d : Daemon} {err : Int} {new : Addr}
    (h : Naming excl es d err new) : Outcome (harmed es) d err new := by
  cases h with
  | refused herr _ _ hharm => exact .failed herr hharm
  | plain _ _ hgot => exact .obtained hgot.obtained
  | exclusive _ _ hharm hgot hset =>
      cases hset with
      | refused herr _ => exact .failed herr hharm
      | bare _ => exact .failed (by decide) hharm
      | done _ => exact .obtained (hharm ▸ hgot.obtained)

theorem Yields.of_naming {excl : Bool} {x : Hs (Int × Addr)} {d : Daemon}
    (h : Ends (fun es r d' ↦ Naming excl es d' r.1 r.2) (Strayed excl) x d) : Yields false d x := by
  intro tr
  refine wp_mono ?_ ?_ (h tr)
  · rintro r d' _ ⟨es, rfl, hnaming⟩
    exact ⟨es, rfl, (Bool.false_or _).symm ▸ hnaming.outcome⟩
  · rintro e d' _ ⟨es, rfl, -, -, -, hharm, -⟩
    exact ⟨es, rfl, (Bool.false_or _).trans hharm⟩

end Hsfs
