import Hsfs.Daemon.Settled
import Hsfs.Fuse.Frame
import Hsfs.Nfs3.Effects

/-!
# The identity of an inode

An inode keeps its number, its object and its file type for as long as it lives, whatever the server
answers.  The only writer of the mode of an inode that has been set up is `nfs_update_inode`, which
refuses attributes of another type; everything else that identifies an inode is written once, when
it is made.

The invariant of the cache is not needed for this, so nothing is assumed about the state or about
the order of requests.  An inode lives from the moment its memory is allocated, and is for the
object that the memory was allocated for; memory that is freed and allocated again is another inode.
-/

namespace Hsfs

open Interact Interact.Act Daemon

/-- The inodes are the same as far as the kernel and the server can tell. -/
structure Inode.SameObject (i i' : Inode) : Prop where
  ino : i'.ino = i.ino
  fileid : i'.fileid = i.fileid
  fh : i'.fh = i.fh
  type : i'.iattr.mode &&& sIfmt = i.iattr.mode &&& sIfmt

/-- The address at which an event has made an inode. -/
def createdAt : Event → Option Addr
  | ⟨.mallocInode _ _ _, some a⟩ => some a.1
  | _ => none

/-- The addresses at which inodes have been made. -/
def created (es : List Event) : List Addr := es.filterMap createdAt

theorem created_nil : created [] = [] := rfl

theorem created_append (es es' : List Event) : created (es ++ es') = created es ++ created es' :=
  List.filterMap_append

/-- A call makes no inode. -/
theorem created_call (clnt : Client) (req : Rpc) :
    Evolves (fun _ es _ ↦ created es = []) (hsiNfs3ClntCall clnt req) := by
  have hr : Composes fun (_ : Daemon) (es : List Event) (_ : Daemon) ↦ created es = [] :=
    ⟨fun _ ↦ rfl, fun h h' ↦ by rw [created_append, h, h', List.append_nil]⟩
  exact evolves_call hr (fun _ ↦ .ask fun _ _ ↦ rfl) (fun _ ↦ .ask fun _ _ ↦ rfl)
    (fun _ _ ↦ .modify fun _ ↦ rfl)
    (fun _ ↦ .bind hr (.modify fun _ ↦ rfl) fun _ ↦ .ask fun _ _ ↦ rfl) clnt

/-- The object that memory is allocated for. -/
def allocatedFor : Event → Option (UInt64 × NfsFh)
  | ⟨.mallocInode fileid fh _, _⟩ => some (fileid, fh)
  | _ => none

/-- The object that an inode has been made for at the address, at last. -/
def madeFor (p : Addr) (es : List Event) : Option (UInt64 × NfsFh) :=
  es.reverse.findSome? fun e ↦ if createdAt e = some p then allocatedFor e else none

theorem madeFor_malloc {fileid : UInt64} {fh : NfsFh} {avoid : Addr → Bool} (a : FreeAddr avoid) :
    madeFor a.1 [⟨.mallocInode fileid fh avoid, some a⟩] = some (fileid, fh) := by
  simp [madeFor, createdAt, allocatedFor]

theorem madeFor_append (p : Addr) (es es' : List Event) :
    madeFor p (es ++ es') = (madeFor p es').or (madeFor p es) := by
  rw [madeFor, List.reverse_append, List.findSome?_append]
  rfl

theorem exists_madeFor {p : Addr} {es : List Event} (h : p ∈ created es) :
    ∃ o, madeFor p es = some o := by
  obtain ⟨e, he, hp⟩ := List.mem_filterMap.1 h
  refine Option.isSome_iff_exists.1 (List.findSome?_isSome_iff.2 ⟨e, List.mem_reverse.2 he, ?_⟩)
  rw [if_pos hp]
  revert hp
  unfold createdAt allocatedFor
  split
  · exact fun _ ↦ rfl
  · exact fun hp ↦ absurd hp.symm (Option.some_ne_none p)

theorem madeFor_eq_none {p : Addr} {es : List Event} (h : p ∉ created es) : madeFor p es = none :=
  List.findSome?_eq_none_iff.2 fun e he ↦ if_neg fun hp ↦
    h (List.mem_filterMap.2 ⟨e, List.mem_reverse.1 he, hp⟩)

/-! ## One change -/

namespace Inode

variable {i i' i'' : Inode}

theorem SameObject.refl (i : Inode) : i.SameObject i := ⟨rfl, rfl, rfl, rfl⟩

theorem SameObject.trans (h : i.SameObject i') (h' : i'.SameObject i'') : i.SameObject i'' :=
  ⟨h'.ino.trans h.ino, h'.fileid.trans h.fileid, h'.fh.trans h.fh, h'.type.trans h.type⟩

/-- Attributes that are accepted are of the same type. -/
theorem sameObject_setAttrs {fattr : NfsFattr} (h : i.accepts fattr = true) :
    i.SameObject (i.setAttrs fattr) :=
  ⟨rfl, rfl, rfl, (eq_of_beq (Bool.and_eq_true_iff.1 h).2).symm⟩

theorem settled_setAttrs {fattr : NfsFattr} (h : i.Settled) : (i.setAttrs fattr).Settled :=
  ⟨h.notNew, h.realIno, h.iRdev⟩

theorem sameObject_refreshed (fattr : NfsFattr) : i.SameObject (i.refreshed fattr) := by
  unfold refreshed
  split
  · next h => exact sameObject_setAttrs h
  · exact .refl i

theorem settled_refreshed {fattr : NfsFattr} (h : i.Settled) : (i.refreshed fattr).Settled := by
  unfold refreshed
  split
  · exact settled_setAttrs h
  · exact h

theorem settled_newInode (sb : Super) (desc : NfsFindDesc) (id : UInt64) :
    (newInode sb desc id).Settled :=
  ⟨(by decide : hasBits 0 iNew = false), rfl, rfl⟩

theorem settled_initInode (sb : Super) (desc : NfsFindDesc) : (initInode sb desc).Settled :=
  ⟨(by decide : hasBits 0 iNew = false), rfl, rfl⟩

theorem Settled.offered (h : i.Settled) (post : Option Fattr3) : (i.offered post).Settled := by
  cases post with
  | none => exact h
  | some attr => exact settled_refreshed h

theorem sameObject_offered (i : Inode) (post : Option Fattr3) : i.SameObject (i.offered post) := by
  cases post with
  | none => exact .refl i
  | some attr => exact sameObject_refreshed _

/-- Attributes that are refused. -/
theorem offered_of_not {post : Option Fattr3} (h : ¬ post.all i.takes = true) :
    i.offered post = i := by
  cases post with
  | none => exact absurd rfl h
  | some attr => exact if_neg h

end Inode

/-- The inodes that have not been made in the meantime are those that were there, and the others
are for the objects that they have been made for. -/
structure Daemon.Steady (d : Daemon) (es : List Event) (d' : Daemon) : Prop where
  settled : d'.Settled
  same : ∀ p ∉ created es, ∀ i', d'.heap p = some i' → ∃ i, d.heap p = some i ∧ i.SameObject i'
  made : ∀ p o i, madeFor p es = some o → d'.heap p = some i → o = (i.fileid, i.fh)

/-- No inode is made. -/
theorem Daemon.Steady.of_created {d d' : Daemon} {es : List Event} (hnew : created es = [])
    (hd : d'.Settled)
    (hsame : ∀ p i', d'.heap p = some i' → ∃ i, d.heap p = some i ∧ i.SameObject i') :
    d.Steady es d' := by
  refine ⟨hd, fun p _ ↦ hsame p, fun p o i hmade ↦ ?_⟩
  have hnone : madeFor p es = none := madeFor_eq_none (hnew ▸ List.not_mem_nil)
  exact absurd (hmade.symm.trans hnone) (Option.some_ne_none o)

/-- From settled inodes on, the daemon is steady. -/
def KeepsIdentity (d : Daemon) (es : List Event) (d' : Daemon) : Prop := d.Settled → d.Steady es d'

namespace KeepsIdentity

theorem composes : Composes KeepsIdentity where
  nil := fun d h ↦ .of_created created_nil h fun _ i hi ↦ ⟨i, hi, .refl i⟩
  append := by
    intro d d' d'' es es' h h' hd
    have hs := h hd
    have hs' := h' hs.settled
    refine ⟨hs'.settled, fun p hp i'' hi'' ↦ ?_, fun p o i'' hmade hi'' ↦ ?_⟩
    · rw [created_append, List.mem_append, not_or] at hp
      obtain ⟨i', hi', hsame'⟩ := hs'.same p hp.2 i'' hi''
      obtain ⟨i, hi, hsame⟩ := hs.same p hp.1 i' hi'
      exact ⟨i, hi, hsame.trans hsame'⟩
    · rw [madeFor_append] at hmade
      by_cases hp : p ∈ created es'
      · -- the inode has been made in the second part
        obtain ⟨o', ho'⟩ := exists_madeFor hp
        rw [ho', Option.some_or] at hmade
        exact hs'.made p o i'' (ho'.trans hmade) hi''
      · rw [madeFor_eq_none hp, Option.none_or] at hmade
        obtain ⟨i', hi', hsame⟩ := hs'.same p hp i'' hi''
        rw [hsame.fileid, hsame.fh]
        exact hs.made p o i' hmade hi'

variable {d d' : Daemon} {p : Addr} {i j : Inode}

/-- Nothing happens to the inodes. -/
theorem of_heap {es : List Event} (hnew : created es = []) (hl : d'.layout = d.layout)
    (hh : d'.heap = d.heap) : KeepsIdentity d es d' := by
  refine fun h ↦ .of_created hnew ⟨?_, ?_⟩ fun p i hi ↦ ⟨i, hh ▸ hi, .refl i⟩
  · exact fun p i hi ↦ h.inodes p i (hh ▸ hi)
  · exact fun p i hi ↦ hl ▸ h.place p i (hh ▸ hi)

/-- An inode is overwritten. -/
theorem setInode (hi : d.heap p = some i) (hset : i.Settled → j.Settled) (hj : i.SameObject j) :
    KeepsIdentity d [] (d.setInode p j) := by
  refine fun h ↦ .of_created created_nil ⟨?_, ?_⟩ ?_
  · intro q k hk
    by_cases hq : q = p
    · subst hq
      rw [d.setInode_heap_self] at hk
      exact Option.some.inj hk ▸ hset (h.inodes q i hi)
    · rw [d.setInode_heap_of_ne hq] at hk
      exact h.inodes q k hk
  · intro q k hk
    by_cases hq : q = p
    · exact hq ▸ h.place p i hi
    · rw [d.setInode_heap_of_ne hq] at hk
      exact h.place q k hk
  · intro q k hk
    by_cases hq : q = p
    · subst hq
      rw [d.setInode_heap_self] at hk
      exact ⟨i, hi, Option.some.inj hk ▸ hj⟩
    · rw [d.setInode_heap_of_ne hq] at hk
      exact ⟨k, hk, .refl k⟩

/-- An inode is made. -/
theorem create {es : List Event} (hl : d'.layout = d.layout) (hnew : created es = [p])
    (hfor : madeFor p es = some (j.fileid, j.fh)) (hplace : Allocatable d.layout p)
    (hj : j.Settled) (hh : d'.heap = Function.update d.heap p (some j)) :
    KeepsIdentity d es d' := by
  have hother : ∀ q k, q ≠ p → d'.heap q = some k → d.heap q = some k := by
    intro q k hq hk
    rwa [hh, Function.update_of_ne hq] at hk
  refine fun h ↦ ⟨⟨?_, ?_⟩, ?_, ?_⟩
  · intro q k hk
    by_cases hq : q = p
    · rw [hh, hq, Function.update_self] at hk
      exact Option.some.inj hk ▸ hj
    · exact h.inodes q k (hother q k hq hk)
  · intro q k hk
    rw [hl]
    by_cases hq : q = p
    · exact hq ▸ hplace
    · exact h.place q k (hother q k hq hk)
  · intro q hq k hk
    rw [hnew, List.mem_singleton] at hq
    exact ⟨k, hother q k hq hk, .refl k⟩
  · intro q o k hmade hk
    by_cases hq : q = p
    · rw [hh, hq, Function.update_self] at hk
      rw [hq, hfor] at hmade
      exact Option.some.inj hk ▸ (Option.some.inj hmade).symm
    · have hnone : madeFor q es = none := madeFor_eq_none (hnew ▸ mt List.mem_singleton.1 hq)
      exact absurd (hmade.symm.trans hnone) (Option.some_ne_none o)

/-- An inode is freed. -/
theorem free (d : Daemon) (p : Addr) : KeepsIdentity d [] (d.free p) := by
  have hother : ∀ q k, (d.free p).heap q = some k → d.heap q = some k :=
    fun _ _ hk ↦ (free_heap_eq_some.1 hk).2
  exact fun h ↦ .of_created created_nil ⟨fun q k hk ↦ h.inodes q k (hother q k hk),
    fun q k hk ↦ h.place q k (hother q k hk)⟩ fun q k hk ↦ ⟨k, hother q k hk, .refl k⟩

/-! ## The functions of the cache -/

theorem fhget (fh : NfsFh) (fattr : NfsFattr) : Evolves KeepsIdentity (hsiNfsFhget fh fattr) := by
  intro d tr
  by_cases hd : d.Settled
  · refine (hd.ends_hsiNfsFhget fh fattr).mono ?_ ?_ tr
    · intro es p d' hgot
      cases hgot with
      | unusable _ _ => exact composes.nil d
      | denied _ _ _ => exact of_heap rfl rfl rfl
      | found _ _ hi _ _ =>
        exact setInode hi Inode.settled_refreshed
          (Inode.sameObject_refreshed fattr)
      | @new a id _ _ =>
          exact create rfl rfl (madeFor_malloc a) (heap_freeAddr a).2
            (Inode.settled_newInode _ _ id) rfl
    · intro es _ d' hfault
      cases hfault with
      | chain => exact composes.nil d
      | @number a id =>
          exact create rfl rfl (madeFor_malloc a) (heap_freeAddr a).2
            (Inode.settled_initInode _ _) rfl
  · refine wp_mono ?_ ?_ (CacheOnly.fhget fh fattr d tr)
    all_goals
      rintro _ d' _ ⟨es, rfl, -⟩
      exact ⟨es, rfl, fun h ↦ absurd h hd⟩

/-- Overwriting a field that does not identify the inode. -/
theorem update (p : Addr) {f : Inode → Inode} (hset : ∀ i : Inode, i.Settled → (f i).Settled)
    (hsame : ∀ i : Inode, i.SameObject (f i)) : Evolves KeepsIdentity (update p f) :=
  evolves_update composes fun _ i hi ↦ setInode hi (hset i) (hsame i)

/-! ## The functions that call the server -/

theorem call (clnt : Client) (req : Rpc) : Evolves KeepsIdentity (hsiNfs3ClntCall clnt req) :=
  ((ClientsOnly.call clnt req).and (created_call clnt req)).mono fun _ _ _ h ↦
    of_heap h.2 h.1.layout h.1.heap

theorem freeres (clnt : Client) : Evolves KeepsIdentity (clntFreeres clnt) :=
  .modify fun _ ↦ of_heap rfl rfl rfl

end KeepsIdentity

/-! ## All handlers -/

/-- **The operations keep the identity of inodes.** -/
theorem HandleFrame.keepsIdentity : HandleFrame (Evolves KeepsIdentity) fun _ ↦ True where
  closed := KeepsIdentity.composes.closed
  malloc := .ask fun _ _ ↦ .of_heap rfl rfl rfl
  callSb := fun req _ ↦ .get_bind fun d ↦ KeepsIdentity.call d.sb.clntp req
  freeresSb := .get_bind fun d ↦ KeepsIdentity.freeres d.sb.clntp
  super := fun _ _ ↦ .modify fun _ ↦ .of_heap rfl rfl rfl
  fhget := KeepsIdentity.fhget
  refresh := fun _ _ ↦ evolves_refresh KeepsIdentity.composes fun _ _ hi ha ↦
    .setInode hi Inode.settled_setAttrs (Inode.sameObject_setAttrs ha)
  setCookieVerf := fun p _ ↦ KeepsIdentity.update p (fun _ h ↦ ⟨h.notNew, h.realIno, h.iRdev⟩)
    fun _ ↦ ⟨rfl, rfl, rfl, rfl⟩
  clntp := fun _ hf ↦ .get_bind fun d ↦ hf d.sb.clntp trivial
  aclClntp := fun _ hf ↦ .get_bind fun d ↦ hf d.sb.aclClntp fun _ _ ↦ trivial
  call := fun c _ req _ ↦ KeepsIdentity.call c req
  list := fun c _ req _ ↦ KeepsIdentity.call c req
  freeres := fun c _ ↦ KeepsIdentity.freeres c

theorem KeepsIdentity.iput (p : Addr) : Evolves KeepsIdentity (hsfsIput p) :=
  HandleFrame.keepsIdentity.iputOf (fun _ ↦ update p (fun _ h ↦ ⟨h.notNew, h.realIno, h.iRdev⟩)
    fun _ ↦ ⟨rfl, rfl, rfl, rfl⟩) (.modify fun d ↦ free d p)

/-- **The handlers keep the identity of inodes.** -/
theorem HandlerFrame.keepsIdentity : HandlerFrame (Evolves KeepsIdentity) where
  toOpFrame := HandleFrame.keepsIdentity.op
  reply := fun _ _ ↦ .modify fun _ ↦ .of_heap rfl rfl rfl
  answer := fun _ ↦ .modify fun _ ↦ .of_heap rfl rfl rfl
  touch := fun _ ↦ .modify fun _ ↦ .of_heap rfl rfl rfl
  priv := fun p _ ↦ KeepsIdentity.update p (fun _ h ↦ ⟨h.notNew, h.realIno, h.iRdev⟩)
    fun _ ↦ ⟨rfl, rfl, rfl, rfl⟩
  owner := fun p _ _ ↦ KeepsIdentity.update p (fun _ h ↦ ⟨h.notNew, h.realIno, h.iRdev⟩)
    fun _ ↦ ⟨rfl, rfl, rfl, rfl⟩
  iput := KeepsIdentity.iput
  readdir := HandleFrame.keepsIdentity.readdir
  readdirPlus := HandleFrame.keepsIdentity.readdirPlus KeepsIdentity.iput

/-! ## Whole sessions -/

theorem Daemon.settled_start (l : Layout) (o : MountOpts) : (Daemon.start l o).Settled :=
  ⟨fun _ _ h ↦ (nomatch h), fun _ _ h ↦ (nomatch h)⟩

theorem Daemon.Mounted.settled {d : Daemon} (h : d.Mounted) : d.Settled := by
  obtain ⟨l, o, fh, es, hx⟩ := h
  have hkeeps := HandleFrame.keepsIdentity.mount (fun _ ↦ .modify fun _ ↦ .of_heap rfl rfl rfl) hx
  exact (hkeeps (Daemon.settled_start l o)).settled

theorem Request.Handled.steady {req : Request} {d d' : Daemon} {es : List Event}
    (h : req.Handled d es d') (hd : d.Settled) : d.Steady es d' := by
  obtain ⟨rounds, hx⟩ := h
  obtain ⟨es', rfl, hr⟩ := (HandlerFrame.keepsIdentity.handle rounds req).of_exec hx
  exact hr hd

/-- In every session, all inodes have been set up. -/
theorem Session.settled {ok : List Step → Step → Prop} {steps : List Step} {d : Daemon}
    (h : Session ok steps d) : d.Settled := by
  induction h with
  | mounted hd => exact hd.settled
  | step _ hs _ ih => exact (hs.steady ih).settled

/-- The events of some steps, in any order. -/
def stepEvents (steps : List Step) : List Event := steps.flatMap Step.events

theorem stepEvents_cons (s : Step) (steps : List Step) :
    stepEvents (s :: steps) = s.events ++ stepEvents steps := List.flatMap_cons

/-- A step, and from its end to the state that later steps have led to. -/
theorem Session.steady {ok : List Step → Step → Prop} {earlier later : List Step} {s : Step}
    {d : Daemon} (h : Session ok (later ++ s :: earlier) d) {p : Addr}
    (hp : p ∉ created (stepEvents later)) {i' : Inode} (hi' : d.heap p = some i') :
    s.before.Steady s.events s.after ∧ ∃ i, s.after.heap p = some i ∧ i.SameObject i' := by
  induction later generalizing d i' with
  | nil =>
      cases h with
      | step hprev hs _ => exact ⟨hs.steady hprev.settled, i', hi', .refl i'⟩
  | cons t later ih =>
      cases h with
      | step hprev hs _ =>
          rw [stepEvents_cons, created_append, List.mem_append, not_or] at hp
          obtain ⟨j, hj, hsame⟩ := (hs.steady hprev.settled).same p hp.1 i' hi'
          obtain ⟨hsteady, i, hi, hsame'⟩ := ih hprev hp.2 hj
          exact ⟨hsteady, i, hi, hsame'.trans hsame⟩

/-- Attributes of another object or of another type change nothing. -/
theorem nfsRefreshInode_refused {d : Daemon} {p : Addr} {i : Inode} {fattr : NfsFattr}
    (hi : d.heap p = some i) (hv : fattr.isValid = true)
    (hother : fattr.fileid ≠ i.fileid ∨ fattr.mode &&& sIfmt ≠ i.iattr.mode &&& sIfmt) :
    (nfsRefreshInode p fattr).run d = .ret (.ok (-Errno.stale), d) := by
  have hrefuses : ¬ i.accepts fattr = true := by
    intro haccepts
    obtain ⟨hfileid, htype⟩ := Bool.and_eq_true_iff.1 haccepts
    exact hother.elim (· (eq_of_beq hfileid).symm) (· (eq_of_beq htype).symm)
  rw [nfsRefreshInode_run hi, if_pos hv, if_neg hrefuses]

/-- **An inode keeps its number, its object and its type for as long as it lives**: in every
session, from any step to the state the session has led to.  It is for the object that its memory
was allocated for, from the allocation on.  Attributes of another object or type are refused, and
change no field. -/
theorem Session.identity_kept {steps : List Step} {d : Daemon}
    (h : Session (fun _ _ ↦ True) steps d) :
    (∀ later s earlier, steps = later ++ s :: earlier → ∀ p i i', s.before.heap p = some i →
      d.heap p = some i' → p ∉ created (stepEvents (later ++ [s])) → i.SameObject i') ∧
    (∀ later s earlier, steps = later ++ s :: earlier → ∀ p o i, madeFor p s.events = some o →
      d.heap p = some i → p ∉ created (stepEvents later) → o = (i.fileid, i.fh)) ∧
    ∀ p i (fattr : NfsFattr), d.heap p = some i → fattr.isValid = true →
      (fattr.fileid ≠ i.fileid ∨ fattr.mode &&& sIfmt ≠ i.iattr.mode &&& sIfmt) →
      (nfsRefreshInode p fattr).run d = .ret (.ok (-Errno.stale), d) := by
  refine ⟨?_, ?_, fun p i fattr hi hv hother ↦ nfsRefreshInode_refused hi hv hother⟩
  · rintro later s earlier rfl p i i' hi hi' hp
    have hevents : stepEvents (later ++ [s]) = stepEvents later ++ s.events := by
      rw [stepEvents, List.flatMap_append, List.flatMap_singleton]
      rfl
    rw [hevents, created_append, List.mem_append, not_or] at hp
    obtain ⟨hsteady, k, hk, hsame⟩ := h.steady hp.1 hi'
    obtain ⟨j, hj, hsame'⟩ := hsteady.same p hp.2 k hk
    rw [hi] at hj
    exact Option.some.inj hj ▸ hsame'.trans hsame
  · rintro later s earlier rfl p o i hmade hi hp
    obtain ⟨hsteady, k, hk, hsame⟩ := h.steady hp hi
    rw [hsame.fileid, hsame.fh]
    exact hsteady.made p o k hmade hk

/-- A server that takes files for directories when it is asked for attributes. -/
def confusedAnswer : (c : Call) → Option c.Res
  | .clntCall _ (.getattr _) => some (.done (.ok (sampleDir 2)))
  | c => sampleAnswer c

/-- A file is looked up, and then said to be a directory. -/
theorem Session.identity_kept_getattr :
    ∃ steps s d p i i', Session (fun _ _ ↦ True) (s :: steps) d ∧ s.req = .getattr 2 ∧
      s.before.heap p = some i ∧ d.heap p = some i' ∧ i.SameObject i' := by
  have hplay : (sampleMount.bind fun d ↦
      (playSession (fun _ _ ↦ true) confusedAnswer 0 [.init, .lookup 1 [102]] [] d).bind fun r ↦
        (Request.play confusedAnswer 0 (.getattr 2) r.2).map fun q ↦ (r, q)).any (fun q ↦
          (q.1.2.heap 0x20000).isSome && (q.2.2.heap 0x20000).isSome &&
            decide (0x20000 ∉ created q.2.1)) = true := by decide +kernel
  obtain ⟨⟨⟨steps, d₁⟩, es, d⟩, hplay, hlives⟩ := (Option.any_eq_true _ _).1 hplay
  obtain ⟨d₀, hd₀, hplay⟩ := Option.bind_eq_some_iff.1 hplay
  obtain ⟨⟨steps', d₁'⟩, hplay, hlast⟩ := Option.bind_eq_some_iff.1 hplay
  obtain ⟨⟨es', d'⟩, hlast, heq⟩ := Option.map_eq_some_iff.1 hlast
  cases heq
  obtain ⟨hlives, hnew⟩ := Bool.and_eq_true_iff.1 hlives
  obtain ⟨hbefore, hafter⟩ := Bool.and_eq_true_iff.1 hlives
  obtain ⟨i, hi⟩ := Option.isSome_iff_exists.1 hbefore
  obtain ⟨i', hi'⟩ := Option.isSome_iff_exists.1 hafter
  have hprev : Session (fun _ _ ↦ True) steps d₁ :=
    (Session.of_play (.mounted (mounted_of_play hd₀)) hplay).mono fun _ _ _ ↦ trivial
  have hs : Session (fun _ _ ↦ True) (⟨d₁, .getattr 2, es, d⟩ :: steps) d :=
    .step (s := ⟨d₁, .getattr 2, es, d⟩) hprev (Request.handled_of_play hlast) trivial
  refine ⟨steps, _, d, 0x20000, i, i', hs, rfl, hi, hi', ?_⟩
  refine (Session.identity_kept hs).1 [] _ steps rfl _ i i' hi hi' ?_
  have hes : stepEvents [⟨d₁, .getattr 2, es, d⟩] = es := List.append_nil es
  rw [List.nil_append, hes]
  exact of_decide_eq_true hnew

end Hsfs
