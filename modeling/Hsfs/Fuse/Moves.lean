import Hsfs.Fuse.Asks
import Hsfs.Fuse.AttrPaths

/-!
# Where cached attributes come from

We keep a log of the attributes that inodes have accepted, and say by which moves a daemon gets from
one state to another: `hsi_nfs_fhget` and `nfs_refresh_inode`, which offer attributes to an inode
and may log them, and anything that leaves the attributes of all inodes alone, which logs nothing.
After such moves, the attributes of an inode are those of its latest entry in the log
(`Daemon.Attributed.moves`).

Moves use up the attributes that they offer.  An operation offers what the server tells it in the
order in which it is told, each structure once at most (`Daemon.Taking`): it cannot write back
attributes that it has got earlier, let alone those of an earlier request.  That the operations make
no other moves is shown in the order of the code.  An operation asks for attributes and uses them
some time later, so `Takes` says of a piece of code which attributes the server has told before.
-/

namespace Hsfs

open Interact Interact.Act Daemon

/-! ## What the server tells -/

/-- An object with its attributes, if there are both. -/
def toldOf (fh : Option NfsFh) (attr : Option Fattr3) : List (NfsFh × Fattr3) :=
  (fh.bind fun fh ↦ attr.map (Prod.mk fh)).toList

@[simp] theorem mem_toldOf {fh : NfsFh} {attr : Fattr3} {o : Option NfsFh} {a : Option Fattr3} :
    (fh, attr) ∈ toldOf o a ↔ o = some fh ∧ a = some attr := by
  cases o <;> cases a <;> simp [toldOf, eq_comm]

/-- The attributes in a reply, each with the handle of its object. -/
def attrsBy : (req : Rpc) → req.Res → List (NfsFh × Fattr3)
  | .getattr fh, .ok attr => [(fh, attr)]
  | .setattr fh _, .ok after => toldOf (some fh) after
  | .lookup _ _, .ok resok => toldOf (some resok.object) resok.objAttributes
  | .create _ _ _, .ok resok | .mkdir _ _ _, .ok resok | .symlink _ _ _ _, .ok resok
  | .mknod _ _ _, .ok resok => toldOf resok.obj resok.objAttributes
  | .link fh _ _, .ok after => toldOf (some fh) after
  | .readdir dir _ _ _, .ok resok => toldOf (some dir) resok.dirAttributes
  | .readdirplus dir _ _ _ _, .ok resok => toldOf (some dir) resok.dirAttributes ++
      resok.entries.flatMap fun e ↦ toldOf e.nameHandle e.nameAttributes
  | .fsinfo fh, .ok resok => toldOf (some fh) resok.objAttributes
  | _, _ => []

/-- The attributes in all replies. -/
def told (es : List Event) : List (NfsFh × Fattr3) :=
  (picked (fun req res ↦ some (attrsBy req res)) es).flatten

@[simp] theorem told_append (es es' : List Event) : told (es ++ es') = told es ++ told es' := by
  rw [told, picked_append, List.flatten_append, told, told]

theorem CallEvents.told_ok {req : Rpc} {es : List Event} {res : req.Res}
    (h : CallEvents req es (.ok res)) : told es = attrsBy req res := by
  rw [told, h.picked_ok]
  exact List.append_nil _

theorem CallEvents.told_error {req : Rpc} {es : List Event} {err : Int}
    (h : CallEvents req es (.error err)) : told es = [] := by
  rw [told, h.picked_error]
  rfl

/-- Without a call, nothing is told. -/
theorem told_eq_nil {es : List Event} (h : asked es = []) : told es = [] := by
  have hnone : ∀ e ∈ es, isReply e = false := by
    intro e he
    have hcall := List.filterMap_eq_nil_iff.1 h e he
    unfold askedBy at hcall
    split at hcall
    · exact absurd hcall (Option.some_ne_none _)
    · next hnot =>
        unfold isReply
        split
        · exact absurd rfl (hnot _ _ _)
        · rfl
  rw [told, picked_eq_nil _ hnone]
  rfl

/-- Attributes in the form in which they are offered to inodes. -/
def Fattr3.fattr (attr : Fattr3) : NfsFattr := hsiNfs3Fattr2fattr attr NfsFattr.fresh

theorem Fattr3.isValid_fattr (attr : Fattr3) : attr.fattr.isValid = true :=
  isValid_hsiNfs3Fattr2fattr attr _

/-! ## Moves -/

namespace Daemon

/-- The attributes of all inodes are what they were. -/
structure Untouched (d d' : Daemon) : Prop where
  settled : d.Settled → d'.Settled
  attrs : ∀ p i', d'.heap p = some i' →
    ∃ i, d.heap p = some i ∧ i.SameObject i' ∧ i'.cachedAttrs = i.cachedAttrs

/-- What is logged when `hsi_nfs_fhget` returns: the inode it has got, if that is new or has
accepted the attributes. -/
def fhgetLog (d : Daemon) (attr : Fattr3) (p : Addr) : List (Addr × Fattr3) :=
  match d.heap p with
  | some i => if i.accepts attr.fattr then [(p, attr)] else []
  | none => if d.layout.nearBad p then [] else [(p, attr)]

/-- A move, with the attributes that it offers and what it adds to the log. -/
inductive Move : List (NfsFh × Fattr3) → Daemon → List (Addr × Fattr3) → Daemon → Prop
  /-- `hsi_nfs_fhget`, with whatever result. -/
  | fhget {d d' : Daemon} {fh : NfsFh} {attr : Fattr3} {p : Addr} {es : List Event}
      (hx : Prog.Exec Server.record ((hsiNfsFhget fh attr.fattr).run d) [] (.ok p, d') es) :
      Move [(fh, attr)] d (d.fhgetLog attr p) d'
  /-- `nfs_refresh_inode` of an inode whose object the attributes are of. -/
  | refresh {d d' : Daemon} {p : Addr} {i : Inode} {attr : Fattr3} {ret : Int}
      (hi : d.heap p = some i)
      (hrun : (nfsRefreshInode p attr.fattr).run d = .ret (.ok ret, d')) :
      Move [(i.fh, attr)] d (if i.accepts attr.fattr then [(p, attr)] else []) d'
  /-- Anything that leaves the attributes alone. -/
  | other {d d' : Daemon} (h : d.Untouched d') : Move [] d [] d'

/-- Moves one after the other, with the attributes that they offer in their order, and with their
log, the latest entry first. -/
inductive Moves (d : Daemon) : List (NfsFh × Fattr3) → List (Addr × Fattr3) → Daemon → Prop
  | refl : Moves d [] [] d
  | step {T U : List (NfsFh × Fattr3)} {log log' : List (Addr × Fattr3)} {d' d'' : Daemon}
      (h : Moves d T log d') (h' : Move U d' log' d'') : Moves d (T ++ U) (log' ++ log) d''

section moves

variable {T T' : List (NfsFh × Fattr3)} {d d' d'' : Daemon} {log log' : List (Addr × Fattr3)}

theorem Moves.trans (h : d.Moves T log d') (h' : d'.Moves T' log' d'') :
    d.Moves (T ++ T') (log' ++ log) d'' := by
  induction h' with
  | refl => rwa [List.append_nil]
  | step _ hmove ih =>
      rw [List.append_assoc, ← List.append_assoc]
      exact .step ih hmove

theorem Move.moves (h : Move T d log d') : d.Moves T log d' := by
  have hsteps := Moves.step .refl h
  rwa [List.append_nil] at hsteps

end moves

/-! ## What the moves keep -/

/-- Every inode has the attributes of its latest entry in the log. -/
structure Attributed (d : Daemon) (T : List (NfsFh × Fattr3)) (log : List (Addr × Fattr3)) :
    Prop where
  settled : d.Settled
  attrs : ∀ p i, d.heap p = some i → ∃ attr, log.lookup p = some attr ∧ (i.fh, attr) ∈ T ∧
    i.cachedAttrs = attr.fattr.cachedAttrs

namespace Attributed

variable {T T' : List (NfsFh × Fattr3)} {d d' : Daemon} {log log' : List (Addr × Fattr3)}
  {p : Addr} {j : Inode} {attr : Fattr3}

theorem mono (hT : T ⊆ T') (h : d.Attributed T log) : d.Attributed T' log := by
  refine ⟨h.settled, fun p i hi ↦ ?_⟩
  obtain ⟨attr, hlog, ht, hattrs⟩ := h.attrs p i hi
  exact ⟨attr, hlog, hT ht, hattrs⟩

/-- One inode accepts attributes. -/
theorem accept (h : d.Attributed T log) (hd' : d'.Settled)
    (hheap : d'.heap = Function.update d.heap p (some j)) (ht : (j.fh, attr) ∈ T)
    (hj : j.cachedAttrs = attr.fattr.cachedAttrs) : d'.Attributed T ((p, attr) :: log) := by
  refine ⟨hd', fun q i hi ↦ ?_⟩
  rw [hheap] at hi
  by_cases hq : q = p
  · rw [hq, Function.update_self] at hi
    obtain rfl := Option.some.inj hi
    exact ⟨attr, by rw [hq, List.lookup_cons_self], ht, hj⟩
  · rw [Function.update_of_ne hq] at hi
    obtain ⟨attr', hlog, hrest⟩ := h.attrs q i hi
    exact ⟨attr', by rw [List.lookup_cons, beq_false_of_ne hq, hlog], hrest⟩

/-- Nothing happens to attributes. -/
theorem untouched (h : d.Attributed T log) (hd : d.Untouched d') : d'.Attributed T log := by
  refine ⟨hd.settled h.settled, fun p i' hi' ↦ ?_⟩
  obtain ⟨i, hi, hsame, hattrs⟩ := hd.attrs p i' hi'
  obtain ⟨attr, hlog, ht, heq⟩ := h.attrs p i hi
  exact ⟨attr, hlog, hsame.fh ▸ ht, hattrs.trans heq⟩

/-- An inode is offered attributes of its object. -/
theorem refreshed {i : Inode} (h : d.Attributed T log) (hi : d.heap p = some i)
    (ht : (i.fh, attr) ∈ T) : (d.setInode p (i.refreshed attr.fattr)).Attributed T
      ((if i.accepts attr.fattr then [(p, attr)] else []) ++ log) := by
  have hkeeps := KeepsIdentity.setInode (j := i.refreshed attr.fattr) hi Inode.settled_refreshed
    (Inode.sameObject_refreshed _)
  have hd' := (hkeeps h.settled).settled
  unfold Inode.refreshed at hd' ⊢
  split
  · next ha =>
      rw [if_pos ha] at hd'
      exact h.accept hd' rfl ht (i.cachedAttrs_setAttrs _)
  · rwa [setInode_eq_self hi]

/-- **One move.** -/
theorem move (h : d.Attributed T log) (hm : Move T' d log' d') (hT : T' ⊆ T) :
    d'.Attributed T (log' ++ log) := by
  cases hm with
  | other hd => exact h.untouched hd
  | @refresh _ _ p i attr ret hi hrun =>
      have ht : (i.fh, attr) ∈ T := hT List.mem_cons_self
      obtain ⟨ret', hrun'⟩ := nfsRefreshInode_refreshed hi attr.isValid_fattr
      cases hrun.symm.trans hrun'
      exact h.refreshed hi ht
  | @fhget _ _ fh attr p es hx =>
      have ht : (fh, attr) ∈ T := hT List.mem_cons_self
      obtain ⟨_, _, hkeeps⟩ := (KeepsIdentity.fhget fh attr.fattr).of_exec hx
      have hd' := (hkeeps h.settled).settled
      have hbad : d.BadPtr p → d.fhgetLog attr p = [] := by
        intro hbad
        have hnone : d.heap p = none := by
          rw [Option.eq_none_iff_forall_ne_some]
          intro i hi
          exact Bool.false_ne_true ((h.settled.place p i hi).2.2.symm.trans hbad.nearBad)
        simp [fhgetLog, hnone, hbad.nearBad]
      cases (h.settled.ends_hsiNfsFhget fh attr.fattr).exec_ok hx with
      | unusable _ hp => rwa [hbad hp]
      | denied _ _ hp => rwa [hbad hp]
      | @found _ i _ _ hi _ hfh =>
          have hlog : d.fhgetLog attr p = if i.accepts attr.fattr then [(p, attr)] else [] := by
            simp [fhgetLog, hi]
          rw [hlog]
          exact h.refreshed hi (hfh ▸ ht)
      | @new a id _ _ =>
          obtain ⟨hfree, hplace⟩ := heap_freeAddr a
          have hlog : d.fhgetLog attr a.1 = [(a.1, attr)] := by simp [fhgetLog, hfree, hplace.2.2]
          rw [hlog]
          exact h.accept hd' rfl ht (cachedAttrs_newInode _ _ id)

/-- **All moves.** -/
theorem moves (h : d.Attributed T log) (hm : d.Moves T' log' d') (hT : T' ⊆ T) :
    d'.Attributed T (log' ++ log) := by
  induction hm with
  | refl => exact h
  | step _ hstep ih =>
      obtain ⟨hbefore, hnow⟩ := List.append_subset.1 hT
      rw [List.append_assoc]
      exact (ih hbefore).move hstep hnow

end Attributed

/-! ## Moves that leave the attributes alone -/

namespace Untouched

variable {d d' : Daemon} {p : Addr} {i j : Inode}

theorem of_heap (hl : d'.layout = d.layout) (hh : d'.heap = d.heap) : d.Untouched d' where
  settled := fun h ↦ (KeepsIdentity.of_heap created_nil hl hh h).settled
  attrs := fun _ i hi ↦ ⟨i, hh ▸ hi, .refl i, rfl⟩

/-- An inode is overwritten. -/
theorem setInode (hi : d.heap p = some i) (hset : i.Settled → j.Settled) (hj : i.SameObject j)
    (hattrs : j.cachedAttrs = i.cachedAttrs) : d.Untouched (d.setInode p j) where
  settled := fun h ↦ (KeepsIdentity.setInode hi hset hj h).settled
  attrs := by
    intro q k hk
    by_cases hq : q = p
    · subst hq
      rw [d.setInode_heap_self] at hk
      obtain rfl := Option.some.inj hk
      exact ⟨i, hi, hj, hattrs⟩
    · rw [d.setInode_heap_of_ne hq] at hk
      exact ⟨k, hk, .refl k, rfl⟩

theorem free (d : Daemon) (p : Addr) : d.Untouched (d.free p) where
  settled := fun h ↦ (KeepsIdentity.free d p h).settled
  attrs := fun _ k hk ↦ ⟨k, (free_heap_eq_some.1 hk).2, .refl k, rfl⟩

end Untouched

/-- The daemon moves with the attributes in `K` and then those that the server tells on the way, in
this order and each once at most. -/
def Taking (K : List (NfsFh × Fattr3)) (d : Daemon) (es : List Event) (d' : Daemon) : Prop :=
  ∃ T log, T.Sublist (K ++ told es) ∧ d.Moves T log d'

namespace Taking

variable {K K' : List (NfsFh × Fattr3)} {d d' d'' : Daemon} {es es' : List Event}

/-- What has been told before need not be used. -/
theorem weaken (h : Taking [] d es d') : Taking K d es d' := by
  obtain ⟨T, log, hT, h⟩ := h
  exact ⟨T, log, hT.trans (List.sublist_append_right K (told es)), h⟩

/-- One after the other, where nothing is told that comes before the second part of `K`. -/
theorem append_of_told_eq_nil (h : Taking K d es d') (hes : told es = [])
    (h' : Taking K' d' es' d'') : Taking (K ++ K') d (es ++ es') d'' := by
  obtain ⟨T, log, hT, h⟩ := h
  obtain ⟨T', log', hT', h'⟩ := h'
  refine ⟨T ++ T', log' ++ log, ?_, h.trans h'⟩
  rw [hes, List.append_nil] at hT
  rw [told_append, hes, List.nil_append, List.append_assoc]
  exact hT.append hT'

/-- One after the other, where the second part uses only what it is told itself. -/
theorem append (h : Taking K d es d') (h' : Taking [] d' es' d'') :
    Taking K d (es ++ es') d'' := by
  obtain ⟨T, log, hT, h⟩ := h
  obtain ⟨T', log', hT', h'⟩ := h'
  refine ⟨T ++ T', log' ++ log, ?_, h.trans h'⟩
  rw [told_append, ← List.append_assoc]
  exact hT.append hT'

theorem composes : Composes (Taking []) where
  nil := fun _ ↦ ⟨[], [], List.nil_sublist _, .refl⟩
  append := append

theorem of_move {log : List (Addr × Fattr3)} (es : List Event) (h : Move K d log d') :
    Taking K d es d' :=
  ⟨K, log, List.sublist_append_left _ _, h.moves⟩

theorem of_untouched (es : List Event) (h : d.Untouched d') : Taking [] d es d' :=
  of_move es (.other h)

theorem of_heap (es : List Event) (hl : d'.layout = d.layout) (hh : d'.heap = d.heap) :
    Taking [] d es d' := of_untouched es (.of_heap hl hh)

/-- First the inodes are left alone, and what is told is kept for later. -/
theorem after (hd : d.Untouched d') (h : Taking (K ++ told es) d' es' d'') :
    Taking K d (es ++ es') d'' := by
  obtain ⟨T, log, hT, h⟩ := h
  refine ⟨T, log ++ [], ?_, (Move.other hd).moves.trans h⟩
  rwa [told_append, ← List.append_assoc]

end Taking

end Daemon

/-- **Calls of the server leave attributes alone.** -/
theorem CallFrame.taking : CallFrame (Returns (Taking [])) fun _ ↦ True where
  closed := Returns.closed Taking.composes
  malloc := .of_evolves (.ask fun _ _ ↦ .of_heap _ rfl rfl)
  callSb := fun req _ ↦ .of_evolves (.get_bind fun d ↦
    (ClientsOnly.call d.sb.clntp req).mono fun _ es _ h ↦ .of_heap es h.layout h.heap)
  freeresSb := .of_evolves (.get_bind fun d ↦
    (ClientsOnly.freeres d.sb.clntp).mono fun _ es _ h ↦ .of_heap es h.layout h.heap)
  super := fun _ _ ↦ .modify fun _ ↦ .of_heap _ rfl rfl
  clntp := fun _ hf d ↦ hf d.sb.clntp trivial d
  aclClntp := fun _ hf d ↦ hf d.sb.aclClntp (fun _ _ ↦ trivial) d
  call := fun c _ req _ ↦ .of_evolves
    ((ClientsOnly.call c req).mono fun _ es _ h ↦ .of_heap es h.layout h.heap)
  freeres := fun c _ ↦ .of_evolves
    ((ClientsOnly.freeres c).mono fun _ es _ h ↦ .of_heap es h.layout h.heap)

/-! ## Code that takes what it has been told -/

/-- The inode at an address, if there is one, is of an object. -/
def Daemon.HandleAt (d : Daemon) (p : Addr) (fh : NfsFh) : Prop :=
  ∀ i, d.heap p = some i → i.fh = fh

section load

variable {α : Type} {d : Daemon} {p : Addr} {P : List Event → α → Daemon → Prop}
  {E : List Event → Fault → Daemon → Prop}

/-- First an inode is read, perhaps through an error pointer. -/
theorem ends_load_bind {f : Inode → Hs α}
    (hf : ∀ i, (∀ j, d.heap p = some j → j = i) → Ends P E (f i) d) (hE : E [] .segv d) :
    Ends P E (load p >>= f) d := by
  cases hi : d.heap p with
  | some i =>
      refine .ret_bind (load_run hi) (hf i fun j hj ↦ ?_)
      exact Option.some.inj (hj.symm.trans hi)
  | none =>
      have hnone : ∀ i j, d.heap p = some j → j = i := fun i j hj ↦ nomatch hi.symm.trans hj
      by_cases hbad : d.layout.nearBad p = true
      · have hload : (load p).run d = .ret (.ok Inode.zero, d) := by simp [load, hi, hbad]
        exact .ret_bind hload (hf _ (hnone _))
      · have hload : (load p).run d = .ret (.error .segv, d) := by simp [load, hi, hbad]
        exact .of_fault (by rw [run_bind, hload]; rfl) hE

/-- First a field of an inode is read. -/
theorem ends_field_bind {γ : Type} {g : Inode → γ} {f : γ → Hs α}
    (hf : ∀ i, (∀ j, d.heap p = some j → j = i) → Ends P E (f (g i)) d) (hE : E [] .segv d) :
    Ends P E ((load p >>= fun i ↦ pure (g i)) >>= f) d := by
  intro tr
  have hload := ends_load_bind hf hE tr
  rw [wp_bind] at hload
  rw [wp_bind, wp_bind]
  exact hload

theorem ends_getfh3_bind {f : NfsFh → Hs α} (hf : ∀ fh, d.HandleAt p fh → Ends P E (f fh) d)
    (hE : E [] .segv d) : Ends P E (hsiNfs3Getfh3 p >>= f) d :=
  ends_field_bind (fun i hi ↦ hf i.fh fun j hj ↦ congrArg Inode.fh (hi j hj)) hE

end load

/-- Attributes are taken by `x` only as the server has told them, in `K` before or on the way. -/
def Takes {α : Type} (K : List (NfsFh × Fattr3)) (x : Hs α) (d : Daemon) : Prop :=
  Ends (fun es _ d' ↦ Taking K d es d') (fun _ _ _ ↦ True) x d

namespace Takes

variable {α β : Type} {K K' : List (NfsFh × Fattr3)} {d : Daemon} {p : Addr} {fh : NfsFh}

theorem weaken {x : Hs α} (h : Takes [] x d) : Takes K x d :=
  h.mono (fun _ _ _ h ↦ h.weaken) fun _ _ _ h ↦ h

theorem of_returns {x : Hs α} (h : Returns (Taking []) x) : Takes K x d :=
  weaken (h d : Takes [] x d)

theorem throw {x : Hs α} {e : Fault} (h : x.run d = .ret (.error e, d)) : Takes K x d :=
  .of_fault h trivial

/-- One piece of code after the other, where the first leaves the inodes alone. -/
theorem bind {x : Hs α} {f : α → Hs β} {P : List Event → α → Prop}
    (hx : Ends (fun es a d' ↦ (d'.layout = d.layout ∧ d'.heap = d.heap) ∧ P es a)
      (fun _ _ _ ↦ True) x d)
    (hf : ∀ es a d', d'.heap = d.heap → P es a → Takes (K ++ told es) (f a) d') :
    Takes K (x >>= f) d := by
  refine Ends.bind hx ?_ fun _ _ _ _ ↦ trivial
  rintro es a d₁ ⟨⟨hl, hh⟩, hP⟩
  refine (hf es a d₁ hh hP).mono (fun es' _ d₂ h ↦ ?_) fun _ _ _ h ↦ h
  exact .after (.of_heap hl hh) h

theorem load_bind {f : Inode → Hs α}
    (hf : ∀ i, (∀ j, d.heap p = some j → j = i) → Takes K (f i) d) : Takes K (load p >>= f) d :=
  ends_load_bind hf trivial

theorem getfh3_bind {f : NfsFh → Hs α} (hf : ∀ fh, d.HandleAt p fh → Takes K (f fh) d) :
    Takes K (hsiNfs3Getfh3 p >>= f) d :=
  ends_getfh3_bind hf trivial

/-- First a call. -/
theorem call_bind {req : Rpc} {x : Hs (Except Int req.Res)} {f : Except Int req.Res → Hs α}
    (hx : Ends (Called d req) (fun _ _ _ ↦ False) x d)
    (herror : ∀ err d', d'.heap = d.heap → Takes [] (f (.error err)) d')
    (hok : ∀ res d', d'.heap = d.heap → Takes (attrsBy req res) (f (.ok res)) d') :
    Takes [] (x >>= f) d := by
  refine bind (hx.mono (fun _ _ _ h ↦ ⟨⟨h.2.layout, h.2.heap⟩, h.1⟩) fun _ _ _ h ↦ h.elim) ?_
  rintro es (err | res) d' hh hcall
  · rw [hcall.told_error]
    exact herror err d' hh
  · rw [hcall.told_ok]
    exact hok res d' hh

/-- Then something that uses only what it is told itself. -/
theorem then_ {x : Hs α} {f : α → Hs β} (hx : Takes K x d) (hf : ∀ a, Returns (Taking []) (f a)) :
    Takes K (x >>= f) d := by
  refine Ends.bind hx (fun es a d₁ h ↦ ?_) fun _ _ _ h ↦ h
  refine (hf a d₁).mono (fun es' _ d₂ h' ↦ ?_) fun _ _ _ h ↦ h
  exact h.append h'

/-- First something that makes no call and uses the beginning of what has been told. -/
theorem quiet_bind {x : Hs α} {f : α → Hs β} (hx : Takes K x d) (hquiet : Asks (fun _ ↦ False) x)
    (hf : ∀ a d', Takes K' (f a) d') : Takes (K ++ K') (x >>= f) d := by
  refine Ends.bind (hx.and (.of_evolves hquiet d)) ?_ fun _ _ _ _ ↦ trivial
  rintro es a d₁ ⟨h, hasked⟩
  have hes : told es = [] := told_eq_nil (List.eq_nil_iff_forall_not_mem.2 hasked)
  exact (hf a d₁).mono (fun _ _ _ h' ↦ h.append_of_told_eq_nil hes h') fun _ _ _ h ↦ h

/-- `hsi_nfs_fhget` with attributes that the server has told. -/
theorem fhget (fh : NfsFh) (post : Option Fattr3) :
    Takes (toldOf (some fh) post) (hsiNfsFhget fh (hsiNfs3Post2fattr post NfsFattr.fresh)) d := by
  cases post with
  | none =>
      have hu : ¬ NfsFattr.fresh.Usable := fun h ↦ nomatch isValid_fresh.symm.trans h.1
      obtain ⟨e, -, hrun⟩ := d.hsiNfsFhget_unusable fh hu
      exact .of_ret hrun (Taking.composes.nil d)
  | some attr =>
      refine fun tr ↦ wp_iff_exec.2 ⟨fun p d' tr' hx ↦ ?_, fun e d' tr' hx ↦ ?_⟩
      · obtain ⟨es, rfl⟩ := hx.record_append
        obtain ⟨es', hx'⟩ := hx.record []
        exact ⟨es, rfl, .of_move es (.fhget hx')⟩
      · obtain ⟨es, rfl⟩ := hx.record_append
        exact ⟨es, rfl, trivial⟩

/-- A refresh with attributes that the server has told. -/
theorem refresh (hp : d.HandleAt p fh) (post : Option Fattr3) :
    Takes (toldOf (some fh) post)
      (nfsRefreshInode p (hsiNfs3Post2fattr post NfsFattr.fresh)) d := by
  have hnil := Taking.composes.nil d
  cases post with
  | none =>
      have hrun : (nfsRefreshInode p NfsFattr.fresh).run d = .ret (.ok 0, d) := by
        simp [nfsRefreshInode]
      exact .of_ret hrun hnil
  | some attr =>
      cases hi : d.heap p with
      | some i =>
          obtain ⟨ret, hrun⟩ := nfsRefreshInode_refreshed hi attr.isValid_fattr
          obtain rfl := hp i hi
          exact .of_ret hrun (.of_move [] (.refresh hi hrun))
      | none =>
          rcases nfsRefreshInode_run_none hi attr.fattr with ⟨ret, hrun⟩ | hrun
          · exact .of_ret hrun hnil.weaken
          · exact throw hrun

/-! ## The operations -/

/-- The attributes that come with a result are what the server has told of an object. -/
def Told (K : List (NfsFh × Fattr3)) (fh : NfsFh) (err : Int) (fattr : NfsFattr) : Prop :=
  err = 0 → ∃ post, fattr = hsiNfs3Post2fattr post NfsFattr.fresh ∧ K = toldOf (some fh) post

theorem doGetattr (fh : NfsFh) (st : Option Stat) :
    Ends (fun es r d' ↦ (d'.layout = d.layout ∧ d'.heap = d.heap) ∧ Told (told es) fh r.1 r.2.1)
      (fun _ _ _ ↦ True)
      (hsiNfs3DoGetattr fh NfsFattr.fresh st) d := by
  refine ends_call_bind (ends_callSb _) ?_ ?_
  · intro es err d₁ _ herr honly
    exact .pure ⟨⟨honly.layout, honly.heap⟩, fun h ↦ absurd h herr⟩
  · rintro es (attr | status) d₁ hcall honly
    · refine .of_ret rfl ⟨⟨honly.layout, honly.heap⟩, fun _ ↦ ⟨some attr, rfl, ?_⟩⟩
      rw [List.append_nil]
      exact hcall.told_ok
    · exact .of_ret rfl ⟨⟨honly.layout, honly.heap⟩,
        fun h ↦ absurd h (hsiNfs3StatToErrno_ne_zero status.2)⟩

/-- `hsi_nfs3_setattr`, whose caller has initialised the attributes. -/
theorem setattr3 (p : Addr) (attr : HsfsIattr) :
    Ends (fun es r d' ↦ (d'.layout = d.layout ∧ d'.heap = d.heap) ∧
        ∃ fh, d.HandleAt p fh ∧ Told (told es) fh r.1 r.2)
      (fun _ _ _ ↦ True) (hsiNfs3Setattr p default attr) d := by
  refine .ret_bind (x := sbClntp) rfl (ends_getfh3_bind (fun fh hp ↦ ?_) trivial)
  refine ends_call_bind (ends_call (.inl rfl) _) ?_ ?_
  · intro es err d₁ _ herr honly
    exact .pure ⟨⟨honly.layout, honly.heap⟩, fh, hp, fun h ↦ absurd h herr⟩
  · rintro es (after | status) d₁ hcall honly
    · refine .of_ret rfl ⟨⟨honly.layout, honly.heap⟩, fh, hp, fun _ ↦ ⟨after, rfl, ?_⟩⟩
      rw [List.append_nil]
      exact hcall.told_ok
    · exact .of_ret rfl ⟨⟨honly.layout, honly.heap⟩, fh, hp,
        fun h ↦ absurd h (hsiNfs3StatToErrno_ne_zero status.2)⟩

/-- A refresh of the inode that the attributes have been asked for. -/
theorem refresh_then {d₁ : Daemon} {es : List Event} {err : Int} {fattr : NfsFattr}
    {f : Int → Hs α} (hp : d.HandleAt p fh) (hheap : d₁.heap = d.heap)
    (htold : Told (told es) fh err fattr) (herr : err = 0)
    (hf : ∀ ret, Returns (Taking []) (f ret)) :
    Takes (told es) (nfsRefreshInode p fattr >>= f) d₁ := by
  obtain ⟨post, rfl, hes⟩ := htold herr
  have hp₁ : d₁.HandleAt p fh := fun i hi ↦ hp i (hheap ▸ hi)
  rw [hes]
  exact then_ (refresh hp₁ post) hf

theorem getattr (p : Addr) (st : Option Stat) : Takes [] (hsiNfs3Getattr p st) d := by
  have hq := CallFrame.taking
  refine getfh3_bind fun fh hp ↦ bind (doGetattr fh st) ?_
  rintro es ⟨err, fattr, st'⟩ d₁ hheap htold
  dsimp only at htold ⊢
  split
  · exact of_returns (hq.pure _)
  · next herr => exact refresh_then hp hheap htold (not_not.1 herr) fun _ ↦ hq.pure _

theorem setattr (p : Addr) (attr : HsfsIattr) : Takes [] (hsiNfsSetattr p attr) d := by
  have hq := CallFrame.taking
  refine load_bind fun i _ ↦ ?_
  dsimp only
  split
  · exact of_returns (hq.pure _)
  cases hi : d.heap p with
  | none =>
      have hderef : (derefSb p).run d = .ret (.error .segv, d) := by simp [derefSb, hi]
      exact throw (by rw [run_bind, hderef]; rfl)
  | some j =>
      have hderef : (derefSb p).run d = .ret (.ok (), d) := by simp [derefSb, hi]
      refine .ret_bind hderef (bind (setattr3 p _) ?_)
      rintro es ⟨err, fattr⟩ d₁ hheap ⟨fh, hp, htold⟩
      dsimp only at htold ⊢
      split
      · next herr => exact refresh_then hp hheap htold herr fun _ ↦ hq.pure _
      · exact of_returns (hq.pure _)

theorem lookup (p : Addr) (name : Name) : Takes [] (hsiNfs3Lookup p name) d := by
  have hq := CallFrame.taking
  refine getfh3_bind fun fh _ ↦ call_bind (ends_callSb _) (fun _ _ _ ↦ of_returns (hq.pure _)) ?_
  rintro (resok | status) d₁ -
  · exact then_ (fhget _ _) fun _ ↦ hq.bind hq.freeresSb fun _ ↦ hq.pure _
  · exact of_returns (hq.bind hq.freeresSb fun _ ↦ hq.pure _)

/-- `hsi_nfs3_handle_create` with what a procedure that creates an object has returned. -/
theorem handleCreate (dir : Diropres3ok) :
    Takes (toldOf dir.obj dir.objAttributes) (hsiNfs3HandleCreate dir) d := by
  unfold hsiNfs3HandleCreate
  cases dir.obj with
  | none => exact of_returns (CallFrame.taking.errPtr _)
  | some fh => exact fhget fh dir.objAttributes

/-- **mkdir, mknod and symlink** use the attributes of the object that they have made. -/
theorem making {free : Hs Unit} {req : Rpc} {f : Except Int req.Res → Hs (Int × Addr)}
    {x : Hs (Except Int req.Res)} (h : Makes free req f)
    (hx : Ends (Called d req) (fun _ _ _ ↦ False) x d) (hfree : Returns (Taking []) free) :
    Takes [] (x >>= f) d := by
  have hq := CallFrame.taking
  cases h
  all_goals
    refine call_bind hx (fun _ _ _ ↦ of_returns (hq.pure _)) ?_
    rintro (resok | status) d₁ -
    · exact then_ (handleCreate resok) fun _ ↦ hq.bind (hq.clearThenPtrErr _) fun _ ↦
        hq.bind hfree fun _ ↦ hq.pure _
    · exact of_returns (hq.bind hfree fun _ ↦ hq.pure _)

theorem mkdir (p : Addr) (name : Name) (mode : UInt32) : Takes [] (hsiNfs3Mkdir p name mode) d :=
  getfh3_bind fun _ _ ↦ making (.mkdir _ _ _) (ends_callSb _) CallFrame.taking.freeresSb

theorem symlink (p : Addr) (link name : Name) : Takes [] (hsiNfs3Symlink p link name) d :=
  getfh3_bind fun _ _ ↦ making (.symlink _ _ _ _) (ends_callSb _) CallFrame.taking.freeresSb

/-- First a test for memory. -/
theorem malloc_bind {f : Bool → Hs α} (hf : ∀ got, Takes K (f got) d) :
    Takes K (malloc >>= f) d := by
  refine ends_malloc_bind fun got ↦ (hf got).mono ?_ ?_
  all_goals
    intro es _ d' h
    exact h

theorem mknod (p : Addr) (name : Name) (mode : UInt32) (rdev : UInt64) :
    Takes [] (hsiNfs3Mknod p name mode rdev) d := by
  have hq := CallFrame.taking
  unfold hsiNfs3Mknod
  split
  · exact of_returns (hq.pure _)
  refine getfh3_bind fun fh _ ↦ malloc_bind fun got ↦ ?_
  cases got with
  | false => exact of_returns (hq.pure _)
  | true =>
      exact .ret_bind (x := sbClntp) rfl <|
        making (.mknod _ _ _) (ends_call (.inl rfl) _) (hq.freeres _ trivial)

theorem create (p : Addr) (name : Name) (mode : UInt32) :
    Takes [] (hsiNfs3Create p name mode) d := by
  have hq := CallFrame.taking
  refine load_bind fun i _ ↦ .ret_bind (x := sbClntp) rfl <| call_bind (ends_call (.inl rfl) _)
    (fun _ _ _ ↦ of_returns (hq.pure _)) ?_
  rintro (resok | status) d₁ -
  · exact then_ (handleCreate resok) fun new ↦
      hq.ite (hq.get_bind fun _ ↦ hq.freeThen trivial (hq.pure _)) <|
      hq.ite (hq.bind (hq.load _) fun i ↦ hq.bind (fun _ ↦ setattr new _) fun _ ↦
        hq.freeThen trivial (hq.pure _)) (hq.freeThen trivial (hq.pure _))
  · exact of_returns (hq.freeThen trivial (hq.pure _))

theorem link (p q : Addr) (name : Name) : Takes [] (hsiNfs3Link p q name) d := by
  have hq := CallFrame.taking
  unfold hsiNfs3Link
  split
  · exact of_returns (hq.pure _)
  refine getfh3_bind fun fh hp ↦ getfh3_bind fun dir _ ↦ malloc_bind fun got ↦ ?_
  cases got with
  | false => exact of_returns (hq.pure _)
  | true =>
      refine .ret_bind (x := sbClntp) rfl (call_bind (ends_call (.inl rfl) _)
        (fun _ _ _ ↦ of_returns (hq.pure _)) ?_)
      rintro (post | status) d₁ hheap
      · have hp₁ : d₁.HandleAt p fh := fun i hi ↦ hp i (hheap ▸ hi)
        dsimp only
        split
        · exact then_ (refresh hp₁ post) fun _ ↦ hq.freeThen trivial (hq.pure _)
        · exact then_ (getattr p none).weaken fun _ ↦ hq.freeThen trivial (hq.pure _)
      · exact of_returns (hq.freeThen trivial (hq.pure _))

/-! ## Listings -/

/-- Overwriting a field that is not an attribute. -/
theorem update (p : Addr) {f : Inode → Inode}
    (hset : ∀ i : Inode, i.Settled → (f i).Settled) (hf : ∀ i : Inode, i.SameObject (f i))
    (hattrs : ∀ i : Inode, (f i).cachedAttrs = i.cachedAttrs) : Returns (Taking []) (update p f) :=
  .of_evolves (evolves_update Taking.composes fun _ i hi ↦
    .of_untouched [] (.setInode hi (hset i) (hf i) (hattrs i)))

theorem setCookieVerf (p : Addr) (verf : UInt64) : Returns (Taking []) (setCookieVerf p verf) :=
  update p (fun _ h ↦ ⟨h.notNew, h.realIno, h.iRdev⟩) (fun _ ↦ ⟨rfl, rfl, rfl, rfl⟩) fun _ ↦ rfl

theorem iput (p : Addr) : Returns (Taking []) (hsfsIput p) := by
  have hq := CallFrame.taking
  refine hq.ite (hq.bind (hq.load p) fun _ ↦ hq.bind ?_ fun _ ↦ hq.ite ?_ (hq.pure _)) (hq.pure _)
  · exact update p (fun _ h ↦ ⟨h.notNew, h.realIno, h.iRdev⟩) (fun _ ↦ ⟨rfl, rfl, rfl, rfl⟩)
      fun _ ↦ rfl
  · exact hq.bind (hq.load p) fun _ ↦
      hq.ite (.modify fun d ↦ .of_untouched [] (.free d p)) (hq.pure _)

/-- **The loop over the entries of a reply** uses the attributes of one entry after the other. -/
theorem readdirPlusEntries (entries : List Entryplus3) (ctx : List ReaddirCtx) :
    Takes (entries.flatMap fun e ↦ toldOf e.nameHandle e.nameAttributes)
      (readdirPlusEntries entries ctx) d := by
  have hq := CallFrame.taking
  induction entries generalizing ctx d with
  | nil => exact of_returns (hq.pure _)
  | cons entry entries ih =>
      rw [List.flatMap_cons]
      refine quiet_bind (K := []) (of_returns (hq.allocCopyName _))
        ((AllocFrame.onlyAsks _).allocCopyName _) fun
        | none, _ => of_returns (hq.pure _)
        | some name, _ => ?_
      cases hfh : entry.nameHandle with
      | none => exact of_returns (hq.pure _)
      | some fh =>
          refine quiet_bind (fhget fh entry.nameAttributes) (Asks.fhget _ _) fun new d₁ ↦ ?_
          split
          · exact of_returns (hq.get_bind fun _ ↦ hq.pure _)
          · exact ih _

theorem readdir (p : Addr) (count : UInt32) (cookie : UInt64) :
    Takes [] (hsiNfs3Readdir p count cookie) d := by
  have hq := CallFrame.taking
  refine .ret_bind (x := sbClntp) rfl (ends_field_bind (fun i _ ↦ getfh3_bind fun fh hp ↦
    call_bind (ends_call (.inl rfl) _) (fun _ _ _ ↦ of_returns (hq.pure _)) ?_)
      trivial)
  rintro (resok | status) d₁ hheap
  · have hp₁ : d₁.HandleAt p fh := fun i hi ↦ hp i (hheap ▸ hi)
    exact then_ (refresh hp₁ _) fun err ↦ hq.ite
      (hq.freeThen trivial (hq.pure _)) <| hq.bind (setCookieVerf p _) fun _ ↦
        hq.bind (hq.readdirEntries _ _) fun _ ↦ hq.freeThen trivial (hq.pure _)
  · exact of_returns (hq.freeThen trivial (hq.pure _))

theorem readdirPlus (p : Addr) (count : UInt32) (cookie : UInt64) (maxcount : UInt32) :
    Takes [] (hsiNfs3ReaddirPlus p count cookie maxcount) d := by
  have hq := CallFrame.taking
  refine .ret_bind (x := sbClntp) rfl (ends_field_bind (fun i _ ↦ getfh3_bind fun fh hp ↦
    call_bind (ends_call (.inl rfl) _) (fun _ _ _ ↦ of_returns (hq.pure _)) ?_)
      trivial)
  rintro (resok | status) d₁ hheap
  · have hp₁ : d₁.HandleAt p fh := fun i hi ↦ hp i (hheap ▸ hi)
    -- first the attributes of the directory, then those of the entries
    refine quiet_bind (refresh hp₁ _) (Asks.refresh _ _) fun err d₂ ↦ ?_
    split
    · exact of_returns (hq.freeThen trivial (hq.pure _))
    refine quiet_bind (K := []) (of_returns (setCookieVerf p _)) (OnlyAsks.update _ _) fun _ d₃ ↦ ?_
    exact then_ (readdirPlusEntries _ _) fun
      | .ok _ => hq.freeThen trivial (hq.pure _)
      | .error _ => hq.bind (hq.freeCtx iput _) fun _ ↦ hq.freeThen trivial (hq.pure _)
  · exact of_returns (hq.freeThen trivial (hq.pure _))

/-! ## The mount -/

/-- `hsi_nfs3_fsinfo`, which asks again if there are no attributes in the reply. -/
theorem fsinfo (fh : NfsFh) :
    Ends (fun es r d' ↦ (d'.layout = d.layout ∧ d'.heap = d.heap) ∧ Told (told es) fh r.1 r.2)
      (fun _ _ _ ↦ True)
      (hsiNfs3Fsinfo fh NfsFattr.fresh) d := by
  refine .ret_bind (x := sbClntp) rfl (ends_call_bind (ends_call (.inl rfl) _) ?_ ?_)
  · intro es err d₁ _ herr honly
    exact .pure ⟨⟨honly.layout, honly.heap⟩, fun h ↦ absurd h herr⟩
  · rintro es (resok | status) d₁ hcall honly
    · refine .ret_bind rfl ?_
      dsimp only
      split
      · refine .of_ret rfl ⟨⟨honly.layout, honly.heap⟩, fun _ ↦ ⟨resok.objAttributes, rfl, ?_⟩⟩
        rw [List.append_nil]
        exact hcall.told_ok
      · next hvalid =>
          have hnone : resok.objAttributes = none := by
            cases hattr : resok.objAttributes with
            | none => rfl
            | some attr =>
                rw [hattr] at hvalid
                exact absurd (isValid_hsiNfs3Fattr2fattr attr _) hvalid
          have hes : told es = [] := by
            rw [hcall.told_ok]
            change toldOf (some fh) resok.objAttributes = []
            rw [hnone]
            rfl
          rw [hnone]
          refine (doGetattr fh none).bind ?_ fun _ _ _ h ↦ h
          rintro es' ⟨ret, fattr, _⟩ d₂ ⟨⟨hl, hh⟩, htold⟩
          refine .of_ret rfl ⟨⟨hl.trans honly.layout, hh.trans honly.heap⟩, fun hret ↦ ?_⟩
          obtain ⟨post, hpost, ht⟩ := htold hret
          refine ⟨post, hpost, ?_⟩
          rw [List.append_nil, told_append, hes]
          exact ht
    · exact .of_ret rfl ⟨⟨honly.layout, honly.heap⟩,
        fun h ↦ absurd h (hsiNfs3StatToErrno_ne_zero status.2)⟩

end Takes

end Hsfs
