import Hsfs.Fuse.Moves

/-!
# Cached attributes come from the server

In every session, all handlers but one change the attributes of inodes by the moves of
`Hsfs.Fuse.Moves` only.  Each request moves with what the server tells while it is handled, and what
is accepted goes to a log of the whole session (`Accepted`), so that every inode has the attributes
that it has accepted last.  The one is `hsx_fuse_create`, which writes the caller of the request
into the directory as its owner.  It does no harm as long as the caller is the owner already.
-/

namespace Hsfs

open Interact Interact.Act Daemon

/-! ## The handlers -/

/-- **The operations take what the server tells.** -/
theorem OpFrame.taking : OpFrame (Returns (Taking [])) where
  toCallFrame := .taking
  getattr := fun p st _ ↦ Takes.getattr p st
  setattr := fun p attr _ ↦ Takes.setattr p attr
  lookup := fun p name _ ↦ Takes.lookup p name
  create := fun p name mode _ ↦ Takes.create p name mode
  mkdir := fun p name mode _ ↦ Takes.mkdir p name mode
  mknod := fun p name mode rdev _ ↦ Takes.mknod p name mode rdev
  symlink := fun p link name _ ↦ Takes.symlink p link name
  link := fun p q name _ ↦ Takes.link p q name

/-- **The handlers that list no directory and set no owner take what the server tells.** -/
theorem PutFrame.taking : PutFrame (Returns (Taking [])) where
  toOpFrame := .taking
  reply := fun _ _ ↦ .modify fun _ ↦ .of_heap _ rfl rfl
  answer := fun _ ↦ .modify fun _ ↦ .of_heap _ rfl rfl
  touch := fun _ ↦ .modify fun _ ↦ .of_heap _ rfl rfl
  priv := fun p _ ↦ Takes.update p (fun _ h ↦ ⟨h.notNew, h.realIno, h.iRdev⟩)
    (fun _ ↦ ⟨rfl, rfl, rfl, rfl⟩) fun _ ↦ rfl
  iput := Takes.iput

/-- The owner that a handler writes into a directory: the number of the directory, the user and the
group. -/
def Request.newOwner : Request → Option (UInt64 × UInt32 × UInt32)
  | .create parent _ _ _ uid gid => some (parent, uid, gid)
  | _ => none

/-- The request leaves the owners of inodes as they are: a file is created by the owner of the
directory. -/
def Request.KeepsOwner (req : Request) (d : Daemon) : Prop :=
  ∀ o ∈ req.newOwner, ∀ i ∈ (d.ilookup o.1).bind d.heap,
    i.iattr.uid = o.2.1 ∧ i.iattr.gid = o.2.2

instance (req : Request) (d : Daemon) : Decidable (req.KeepsOwner d) :=
  -- named, since an owner is also one of finitely many
  have (o : UInt64 × UInt32 × UInt32) : Decidable (∀ i ∈ (d.ilookup o.1).bind d.heap,
      i.iattr.uid = o.2.1 ∧ i.iattr.gid = o.2.2) := Option.decidableForallMem _
  Option.decidableForallMem req.newOwner

/-- `hsx_fuse_create` for the owner of the directory. -/
theorem takes_hsxFuseCreate {d : Daemon} {parent : UInt64} {name : Name}
    {mode flags uid gid : UInt32}
    (h : (Request.create parent name mode flags uid gid).KeepsOwner d) :
    Takes [] (hsxFuseCreate parent name mode flags uid gid) d := by
  have hr := PutFrame.taking
  rcases d.hsfsIlookup_cases parent with ⟨-, hrun⟩ | ⟨p, i, hl, hi, hrun⟩ | ⟨p, -, -, hrun⟩
  · exact .ret_bind hrun (Takes.of_returns (hr.pure _))
  · obtain ⟨rfl, rfl⟩ := h _ rfl i (Option.bind_eq_some_iff.2 ⟨p, hl, hi⟩)
    have hupdate := update_run hi fun j : Inode ↦
      { j with iattr := { j.iattr with uid := i.iattr.uid, gid := i.iattr.gid } }
    rw [setInode_eq_self hi] at hupdate
    exact .ret_bind hrun <| .ret_bind hupdate <|
      Takes.then_ (Takes.create p name _) fun _ ↦ hr.replyNew _ _ _
  · exact Takes.throw (by rw [hsxFuseCreate, run_bind, hrun]; rfl)

/-- **All handlers take what the server tells, if owners are kept.** -/
theorem Request.Handled.taking {req : Request} {d d' : Daemon} {es : List Event}
    (h : req.Handled d es d') (howner : req.KeepsOwner d) : Taking [] d es d' := by
  obtain ⟨rounds, hx⟩ := h
  have hr := PutFrame.taking
  have htakes : Takes [] (req.handle rounds) d := by
    cases req with
    | create parent name mode flags uid gid => exact takes_hsxFuseCreate howner
    | readdir ino size off =>
        exact .of_returns (hr.hsxFuseReaddir (fun p count cookie _ ↦ Takes.readdir p count cookie) _
          _ _)
    | readdirplus ino size off =>
        exact .of_returns (hr.hsxFuseReaddirPlus
          (fun p count cookie maxcount _ ↦ Takes.readdirPlus p count cookie maxcount) _ _ _)
    | _ => exact .of_returns (hr.handle rounds rfl rfl)
  exact htakes.exec_ok hx

/-! ## The mount -/

/-- The state of a daemon after a successful mount with some answers. -/
def Daemon.MountedBy (es : List Event) (d : Daemon) : Prop :=
  ∃ l o fh, Prog.Exec Server.record ((hsiFillSuper fh).run (.start l o)) [] (.ok 0, d) es

theorem Daemon.MountedBy.taking {es : List Event} {d : Daemon} (h : d.MountedBy es) :
    ∃ l o, Taking [] (.start l o) es d := by
  obtain ⟨l, o, fh, hx⟩ := h
  have hfill : Takes [] (hsiFillSuper fh) (.start l o) := by
    unfold hsiFillSuper
    refine Ends.ret_bind rfl (Ends.ret_bind rfl ?_)
    refine Takes.bind (Takes.fsinfo fh) ?_
    rintro es₁ ⟨ret, fattr⟩ d₁ - htold
    have hq := CallFrame.taking
    dsimp only at htold ⊢
    split
    · exact .of_returns (hq.pure _)
    · next hret =>
        obtain ⟨post, rfl, hes⟩ := htold (not_not.1 hret)
        rw [List.nil_append, hes]
        exact Takes.then_ (Takes.fhget fh post) fun root ↦
          hq.ite (hq.get_bind fun _ ↦ hq.pure _) <|
          hq.bind (.modify fun _ ↦ .of_heap _ rfl rfl) fun _ ↦ hq.bind (hq.load _) fun _ ↦
            hq.bind (hq.assertThat _ _) fun _ ↦ hq.pathconf _
  exact ⟨l, o, hfill.exec_ok hx⟩

/-- What inodes have accepted in a session after what is in `log₀`, the latest entry first: each
request moves with the attributes that the server has told while it was handled, in this order and
each once at most. -/
inductive Accepted (log₀ : List (Addr × Fattr3)) : List Step → List (Addr × Fattr3) → Prop
  | nil : Accepted log₀ [] log₀
  | cons {steps : List Step} {s : Step} {log log' : List (Addr × Fattr3)}
      {T : List (NfsFh × Fattr3)} (h : Accepted log₀ steps log) (hT : T.Sublist (told s.events))
      (hmoves : s.before.Moves T log' s.after) : Accepted log₀ (s :: steps) (log' ++ log)

/-- **In a session that keeps owners, no request makes other moves.** -/
theorem Session.accepted {steps : List Step} {d : Daemon}
    (h : Session (fun _ s ↦ s.req.KeepsOwner s.before) steps d) (log₀ : List (Addr × Fattr3)) :
    ∃ log, Accepted log₀ steps log := by
  induction h with
  | mounted _ => exact ⟨log₀, .nil⟩
  | step _ hs howner ih =>
      obtain ⟨log, hlog⟩ := ih
      obtain ⟨T, log', hT, hmoves⟩ := hs.taking howner
      exact ⟨log' ++ log, .cons hlog hT hmoves⟩

theorem Daemon.MountedBy.mounted {d : Daemon} {es : List Event} (h : d.MountedBy es) :
    d.Mounted := by
  obtain ⟨l, o, fh, hx⟩ := h
  exact ⟨l, o, fh, es, hx⟩

end Hsfs
