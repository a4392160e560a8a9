import Hsfs.Daemon.Network
import Hsfs.Fuse.Setattr
import Hsfs.Interact.Trace

/-!
# What a request asks the server

Every request of the kernel is handled with calls of one or two procedures, whatever the state of
the daemon is and whatever the server answers, and in this order (`Request.asked_inTurn`).  A call
may take several attempts.  In particular a request that only looks at something never calls a
procedure that changes anything.
-/

namespace Hsfs

open Interact Interact.Act

/-- The code makes only calls with the property `A`. -/
abbrev Asks (A : Rpc → Prop) {α : Type} (x : Hs α) : Prop := Evolves (OnlyAsks A) x

namespace Asks

variable {A : Rpc → Prop} {α : Type}

/-! ## The parts of the operations -/

theorem modify (f : Daemon → Daemon) : Asks A (Act.modify f : Hs Unit) :=
  Evolves.modify fun _ ↦ .of_nil rfl

theorem call {req : Rpc} (h : A req) (c : Client) : Asks A (hsiNfs3ClntCall c req) :=
  OnlyAsks.call h c

theorem freeres (c : Client) : Asks A (clntFreeres c) := modify _

theorem freeresSb : Asks A freeresSb := .get_bind fun _ ↦ modify _

theorem callSb {req : Rpc} (h : A req) : Asks A (callSb req) := .get_bind fun d ↦ call h d.sb.clntp

theorem clntp {f : Client → Hs α} (hf : ∀ c, Asks A (f c)) : Asks A (sbClntp >>= f) :=
  .get_bind fun d ↦ hf d.sb.clntp

theorem refresh (p : Addr) (fattr : NfsFattr) : Asks A (nfsRefreshInode p fattr) :=
  evolves_refresh (OnlyAsks.composes A) fun _ _ _ _ ↦ .of_nil rfl

/-! ## The inode cache -/

theorem hashFind (t : Table.Chains hashSize Addr) (key : UInt64) (test : Inode → Bool) :
    Asks A (hashFind t key test) := by
  have hr := AllocFrame.onlyAsks A
  refine .get_bind fun d ↦ ?_
  cases t.find (hashMin key) (d.stopsAt test) with
  | none => exact hr.pure none
  | some p =>
      exact hr.ite (hr.map (hr.throw _)) (hr.map (hr.pure _))

theorem idLoop (rounds : Nat) : Asks A (idLoop rounds) := by
  have hr := AllocFrame.onlyAsks A
  induction rounds with
  | zero => exact hr.throw _
  | succ rounds ih =>
      exact hr.bind (modify _) fun _ ↦ .get_bind fun _ ↦
        hr.bind (.get_bind fun _ ↦ hashFind _ _ _) fun
        | some _ => ih
        | none => hr.pure ()

theorem allocInode (desc : NfsFindDesc) : Asks A (allocInode desc) :=
  have hr := AllocFrame.onlyAsks A
  have hmalloc : Asks A (mallocInode desc) :=
    .get_bind fun _ ↦ hr.map (.ask fun _ _ ↦ .of_nil rfl)
  have halloc : Asks A (nfsAllocInode desc) := hr.bind hmalloc fun
    | none => hr.pure none
    | some _ => hr.map (modify _)
  hr.bind halloc fun
    | none => hr.pure none
    | some _ => .get_bind fun _ ↦ hr.map (OnlyAsks.update _ _)

theorem getNewInode (key : UInt64) (set : Inode → Inode) (desc : NfsFindDesc) :
    Asks A (getNewInode key set desc) :=
  have hr := AllocFrame.onlyAsks A
  hr.bind (allocInode desc) fun
    | none => hr.pure none
    | some _ => hr.bind (OnlyAsks.update _ _) fun _ ↦
        hr.bind (hr.bind (idLoop _) fun _ ↦ .get_bind fun _ ↦ hr.bind (OnlyAsks.update _ _) fun _ ↦
          modify _) fun _ ↦ hr.map (OnlyAsks.update _ _)

/-- **Getting an inode needs no call.** -/
theorem fhget (fh : NfsFh) (fattr : NfsFattr) : Asks A (hsiNfsFhget fh fattr) :=
  have hr := AllocFrame.onlyAsks A
  have higet : ∀ key test set desc, Asks A (hsfsIget5Locked key test set desc) :=
    fun _ _ _ _ ↦ hr.bind (.get_bind fun _ ↦ hashFind _ _ _) fun
      | some _ => hr.pure _
      | none => getNewInode _ _ _
  hr.ite (hr.errPtr _) <| hr.ite (hr.errPtr _) <| hr.bind (higet _ _ _ _) fun
    | none => hr.errPtr _
    | some _ => hr.bind (hr.load _) fun _ ↦
        hr.ite (hr.bind (OnlyAsks.update _ _) fun _ ↦
          hr.map (OnlyAsks.update _ _))
          (hr.map (refresh _ _))

theorem iput (p : Addr) : Asks A (hsfsIput p) :=
  (AllocFrame.onlyAsks A).iputOf (fun _ ↦ OnlyAsks.update p _) (modify _)

theorem handleCreate (dir : Diropres3ok) : Asks A (hsiNfs3HandleCreate dir) := by
  unfold hsiNfs3HandleCreate
  cases dir.obj with
  | none => exact (AllocFrame.onlyAsks A).errPtr _
  | some fh => exact fhget _ _

/-- A piece of the data that is to be written at an offset. -/
def Piece (buf : List UInt8) (off : UInt64) : Rpc → Prop
  | .write _ offset _ _ data =>
      ∃ cnt n, offset = off + Nat.toUInt64 cnt ∧ data = (buf.drop cnt).take n
  | _ => False

theorem newOfReply {free : Hs Unit} (hfree : Asks A free) : ∀ r, Asks A (newOfReply free r) :=
  have hr := AllocFrame.onlyAsks A
  fun
    | .error _ => hr.pure _
    | .ok (.fail _) => hr.map hfree
    | .ok (.ok _) => hr.bind (handleCreate _) fun _ ↦ hr.bind (hr.clearThenPtrErr _) fun _ ↦
        hr.map hfree

/-! ## Replies -/

theorem reply (rep : Reply) : Asks A (fuseReply rep) := modify _

theorem touchFrame (A : Rpc → Prop) : TouchFrame (Evolves (OnlyAsks A)) where
  toAllocFrame := AllocFrame.onlyAsks A
  touch := fun _ ↦ modify _
  priv := fun p _ ↦ OnlyAsks.update p _

theorem replyNew (rep : EntryParam → Reply) (err : Int) (new : Addr) :
    Asks A (replyNew rep err new) :=
  have hr := touchFrame A
  hr.ite (reply _) <| hr.ite (reply _) <| hr.bind (hr.refXchg _ _) fun _ ↦
    hr.bind (hr.assertThat _ _) fun _ ↦ hr.bind (hr.fillReply _) fun _ ↦ reply _

end Asks

/-! ## One call after another -/

/-- There are no calls, or attempts of one call with the property `A` and behind them calls with the
property `B`. -/
inductive InTurn (A B : Rpc → Prop) : List Rpc → Prop
  | none : InTurn A B []
  | first {rpc : Rpc} {rest : List Rpc} (n : Nat) : A rpc → (∀ r ∈ rest, B r) →
      InTurn A B (List.replicate (n + 1) rpc ++ rest)

namespace InTurn

variable {A B : Rpc → Prop} {l l' : List Rpc}

theorem of_ne_nil {rpc : Rpc} (hrpc : A rpc) (hne : l ≠ []) (h : ∀ r ∈ l, r = rpc)
    (h' : ∀ r ∈ l', B r) : InTurn A B (l ++ l') := by
  rw [List.eq_replicate_of_mem h]
  obtain ⟨n, hn⟩ := Nat.exists_eq_succ_of_ne_zero (mt List.length_eq_zero_iff.1 hne)
  rw [hn]
  exact .first n hrpc h'

/-- Calls that may be the first one and may follow. -/
theorem of_forall (h : ∀ r ∈ l, A r ∧ B r) : InTurn A B l := by
  cases l with
  | nil => exact .none
  | cons rpc l =>
      exact .first 0 (h rpc List.mem_cons_self).1 fun r hr ↦ (h r (List.mem_cons_of_mem rpc hr)).2

theorem append (h : InTurn A B l) (h' : ∀ r ∈ l', A r ∧ B r) : InTurn A B (l ++ l') := by
  cases h with
  | none => exact of_forall h'
  | @first rpc rest n hrpc hrest =>
      rw [List.append_assoc]
      exact .first n hrpc (List.forall_mem_append.2 ⟨hrest, fun r hr ↦ (h' r hr).2⟩)

theorem forall_mem (h : InTurn A B l) : ∀ r ∈ l, A r ∨ B r := by
  cases h with
  | none => exact fun r hr ↦ absurd hr List.not_mem_nil
  | first n hrpc hrest =>
      refine List.forall_mem_append.2 ⟨fun r hr ↦ .inl ?_, fun r hr ↦ .inr (hrest r hr)⟩
      rwa [List.eq_of_mem_replicate hr]

end InTurn

/-- The code makes a call with the property `A`, if any, and then calls with the property `B`. -/
def Leads (A B : Rpc → Prop) {α : Type} (x : Hs α) : Prop :=
  Evolves (fun _ es _ ↦ InTurn A B (asked es)) x

namespace Leads

variable {A B : Rpc → Prop} {α β : Type} {x : Hs α} {f : α → Hs β}

theorem ite {c : Prop} [Decidable c] {y : Hs α} (hx : Leads A B x) (hy : Leads A B y) :
    Leads A B (if c then x else y) := Evolves.ite hx hy

theorem get_bind {f : Daemon → Hs α} (h : ∀ d, Leads A B (f d)) : Leads A B (Act.get >>= f) :=
  Evolves.get_bind h

theorem quiet (h : Asks (fun _ ↦ False) x) : Leads A B x :=
  Evolves.mono h fun _ _ _ h' ↦ .of_forall fun r hr ↦ (h' r hr).elim

theorem of_asks (h : Asks (fun r ↦ A r ∧ B r) x) : Leads A B x :=
  Evolves.mono h fun _ _ _ h' ↦ .of_forall h'

/-- In any order. -/
theorem asks (h : Leads A B x) : Asks (fun r ↦ A r ∨ B r) x :=
  Evolves.mono h fun _ _ _ h' ↦ h'.forall_mem

theorem only (h : Leads A (fun _ ↦ False) x) : Asks A x :=
  Evolves.mono h.asks fun _ _ _ h' r hr ↦ (h' r hr).resolve_right id

/-- Something before the calls. -/
theorem pre (hx : Asks (fun _ ↦ False) x) (hf : ∀ a, Leads A B (f a)) : Leads A B (x >>= f) := by
  have hnone {d d' : Daemon} {es : List Event} (h : OnlyAsks (fun _ ↦ False) d es d') :
      asked es = [] := List.eq_nil_iff_forall_not_mem.2 h
  refine Evolves.seq hx hf (fun h h' ↦ ?_) fun h ↦ ?_
  · rw [asked_append, hnone h]
    exact h'
  · rw [hnone h]
    exact .none

/-- Something behind the calls. -/
theorem andThen (hx : Leads A B x) (hf : ∀ a, Asks (fun r ↦ A r ∧ B r) (f a)) :
    Leads A B (x >>= f) := by
  refine Evolves.seq hx hf (fun h h' ↦ ?_) id
  rw [asked_append]
  exact h.append h'

/-- The first call. -/
theorem call {req : Rpc} {f : Except Int req.Res → Hs β} (h : A req) (c : Client)
    (hf : ∀ r, Asks B (f r)) : Leads A B (hsiNfs3ClntCall c req >>= f) := by
  have hcall : Evolves (fun _ es _ ↦ asked es ≠ []) (hsiNfs3ClntCall c req) :=
    fun d ↦ ends_call_asked c req d
  refine Evolves.seq (hcall.and (Asks.call (A := (· = req)) rfl c)) hf (fun h₁ h₂ ↦ ?_) fun h₁ ↦ ?_
  · rw [asked_append]
    exact .of_ne_nil h h₁.1 h₁.2 h₂
  · have hnone : ∀ r ∈ [], B r := fun r hr ↦ absurd hr List.not_mem_nil
    have hall := InTurn.of_ne_nil h h₁.1 h₁.2 hnone
    rwa [List.append_nil] at hall

theorem callSb {req : Rpc} {f : Except Int req.Res → Hs β} (h : A req) (hf : ∀ r, Asks B (f r)) :
    Leads A B (callSb req >>= f) := .get_bind fun d ↦ call h d.sb.clntp hf

theorem clntp {f : Client → Hs α} (hf : ∀ c, Leads A B (f c)) : Leads A B (sbClntp >>= f) :=
  .get_bind fun d ↦ hf d.sb.clntp

theorem aclClntp {f : Option Client → Hs α} (hf : ∀ o, Leads A B (f o)) :
    Leads A B (sbAclClntp >>= f) := .get_bind fun d ↦ hf d.sb.aclClntp

/-! ## The operations -/

theorem getattr (p : Addr) (st : Option Stat) (h : ∀ fh, A (.getattr fh)) :
    Leads A B (hsiNfs3Getattr p st) :=
  have hr := AllocFrame.onlyAsks B
  have hq := AllocFrame.onlyAsks fun _ ↦ False
  .pre (hq.getfh3 p) fun fh ↦ .andThen (.callSb (h fh) fun
    | .error _ => hr.pure _
    | .ok (.fail _) => hr.map Asks.freeresSb
    | .ok (.ok _) => hr.map Asks.freeresSb) fun _ ↦
    have hr := AllocFrame.onlyAsks _
    hr.ite (hr.pure _) (hr.map (Asks.refresh _ _))

theorem setattr3 (p : Addr) (fattr : NfsFattr) (attr : HsfsIattr)
    (h : ∀ fh, A (.setattr fh (sattr3OfIattr attr))) : Leads A B (hsiNfs3Setattr p fattr attr) :=
  have hr := AllocFrame.onlyAsks B
  have hq := AllocFrame.onlyAsks fun _ ↦ False
  .clntp fun _ ↦ .pre (hq.getfh3 p) fun _ ↦ .call (h _) _ fun
    | .error _ => hr.pure _
    | .ok (.fail _) => hr.map (Asks.freeres _)
    | .ok (.ok _) => hr.map (Asks.freeres _)

theorem setattr (p : Addr) (attr : HsfsIattr) (h : ∀ fh attrs, A (.setattr fh attrs)) :
    Leads A B (hsiNfsSetattr p attr) :=
  have hr := AllocFrame.onlyAsks fun r ↦ A r ∧ B r
  have hq := AllocFrame.onlyAsks fun _ ↦ False
  .pre (hq.load p) fun _ ↦ .ite (.quiet (hq.pure _)) <| .pre (hq.derefSb p) fun _ ↦
    .andThen (setattr3 _ _ _ fun fh ↦ h fh _) fun _ ↦
      hr.ite (hr.bind (Asks.refresh _ _) fun _ ↦ hr.map (hr.pure _))
        (hr.map (hr.pure _))

theorem access (p : Addr) (mask : UInt32) (h : ∀ fh bits, A (.access fh bits)) :
    Leads A B (hsiNfs3Access p mask) :=
  have hr := AllocFrame.onlyAsks B
  have hq := AllocFrame.onlyAsks fun _ ↦ False
  have hend (c : Client) (err : Int) : Asks B (clntFreeres c >>= fun _ ↦ pure err) :=
    hr.bind (Asks.freeres c) fun _ ↦ hr.pure err
  .pre (hq.getfh3 p) fun _ ↦ .clntp fun _ ↦ .call (h _ _) _ fun
    | .error _ => hr.bind (hr.pure _) fun _ ↦ hend _ _
    | .ok (.fail _) => hr.bind (hr.pure _) fun _ ↦ hend _ _
    | .ok (.ok _) => hr.bind (hr.pure _) fun _ ↦ hend _ _

theorem lookup (p : Addr) (name : Name) (h : ∀ dir, A (.lookup dir name)) :
    Leads A B (hsiNfs3Lookup p name) :=
  have hr := AllocFrame.onlyAsks B
  have hq := AllocFrame.onlyAsks fun _ ↦ False
  .pre (hq.getfh3 p) fun _ ↦ .callSb (h _) fun
    | .error _ => hr.pure _
    | .ok (.fail _) => hr.map Asks.freeresSb
    | .ok (.ok _) => hr.bind (Asks.fhget _ _) fun _ ↦ hr.map Asks.freeresSb

/-- Only if it is exclusive, a `CREATE` is followed by a `SETATTR`. -/
theorem create (p : Addr) (name : Name) (mode : UInt32) (h : ∀ dir how, A (.create dir name how))
    (hset : (mode &&& 0xF0000) >>> 16 = 2 → ∀ fh attrs, B (.setattr fh attrs)) :
    Leads A B (hsiNfs3Create p name mode) := by
  have hr := AllocFrame.onlyAsks B
  have hq := AllocFrame.onlyAsks fun _ ↦ False
  refine .pre (hq.load p) fun _ ↦ .clntp fun _ ↦ .call (h _ _) _ fun
    | .error _ => hr.pure _
    | .ok (.fail _) => hr.map (Asks.freeres _)
    | .ok (.ok _) => hr.bind (Asks.handleCreate _) fun _ ↦
        hr.ite (hr.get_bind fun _ ↦ hr.map (Asks.freeres _)) ?_
  split
  · next hexcl =>
      refine hr.bind (hr.load _) fun _ ↦ hr.bind ?_ fun _ ↦
        hr.map (Asks.freeres _)
      exact (setattr _ _ (hset hexcl)).only
  · exact hr.map (Asks.freeres _)

theorem mkdir (p : Addr) (name : Name) (mode : UInt32)
    (h : ∀ dir attrs, A (.mkdir dir name attrs)) : Leads A B (hsiNfs3Mkdir p name mode) :=
  have hq := AllocFrame.onlyAsks fun _ ↦ False
  .pre (hq.getfh3 p) fun _ ↦ .callSb (h _ _) (Asks.newOfReply Asks.freeresSb)

theorem symlink (p : Addr) (link name : Name) (h : ∀ dir attrs, A (.symlink dir name attrs link)) :
    Leads A B (hsiNfs3Symlink p link name) :=
  have hq := AllocFrame.onlyAsks fun _ ↦ False
  .pre (hq.getfh3 p) fun _ ↦ .callSb (h _ _) (Asks.newOfReply Asks.freeresSb)

theorem mknod (p : Addr) (name : Name) (mode : UInt32) (rdev : UInt64)
    (h : ∀ dir what, A (.mknod dir name what)) : Leads A B (hsiNfs3Mknod p name mode rdev) :=
  have hq := AllocFrame.onlyAsks fun _ ↦ False
  .ite (.quiet (hq.pure _)) <| .pre (hq.getfh3 p) fun _ ↦ .pre hq.malloc fun _ ↦
    .ite (.clntp fun _ ↦ .call (h _ _) _ (Asks.newOfReply (Asks.freeres _))) (.quiet (hq.pure _))

theorem link (p q : Addr) (name : Name) (h : ∀ fh dir, A (.link fh dir name))
    (hget : ∀ fh, B (.getattr fh)) : Leads A B (hsiNfs3Link p q name) :=
  have hr := AllocFrame.onlyAsks B
  have hq := AllocFrame.onlyAsks fun _ ↦ False
  have hattrs (p : Addr) (st : Option Stat) : Asks B (hsiNfs3Getattr p st) :=
    (getattr p st hget).only
  .ite (.quiet (hq.pure _)) <| .pre (hq.getfh3 p) fun _ ↦ .pre (hq.getfh3 q) fun _ ↦
    .pre hq.malloc fun _ ↦
    .ite (.clntp fun _ ↦ .call (h _ _) _ fun
      | .error _ => hr.pure _
      | .ok (.fail _) => hr.map (Asks.freeres _)
      | .ok (.ok _) =>
          hr.ite (hr.bind (Asks.refresh _ _) fun _ ↦ hr.map (Asks.freeres _))
            (hr.bind (hattrs _ _) fun _ ↦ hr.map (Asks.freeres _)))
      (.quiet (hq.pure _))

theorem unlink (p : Addr) (name : Name) (h : ∀ dir, A (.remove dir name)) :
    Leads A B (hsiNfs3Unlink p name) :=
  have hr := AllocFrame.onlyAsks B
  have hq := AllocFrame.onlyAsks fun _ ↦ False
  .clntp fun _ ↦ .pre (hq.getfh3 p) fun _ ↦ .call (h _) _ fun
    | .error _ => hr.pure _
    | .ok (.fail _) => hr.map (Asks.freeres _)
    | .ok (.ok _) => hr.map (Asks.freeres _)

theorem rmdir (p : Addr) (name : Name) (h : ∀ dir, A (.rmdir dir name)) :
    Leads A B (hsiNfs3Rmdir p name) :=
  have hr := AllocFrame.onlyAsks B
  have hq := AllocFrame.onlyAsks fun _ ↦ False
  .pre (hq.getfh3 p) fun _ ↦ .callSb (h _) fun
    | .error _ => hr.pure _
    | .ok (.fail _) => hr.map Asks.freeresSb
    | .ok (.ok _) => hr.map Asks.freeresSb

theorem rename (p : Addr) (name : Name) (q : Addr) (newname : Name)
    (h : ∀ dir toDir, A (.rename dir name toDir newname)) :
    Leads A B (hsiNfs3Rename p name q newname) :=
  have hr := AllocFrame.onlyAsks B
  have hq := AllocFrame.onlyAsks fun _ ↦ False
  .clntp fun _ ↦ .pre (hq.getfh3 p) fun _ ↦ .pre (hq.getfh3 q) fun _ ↦ .call (h _ _) _ fun
    | .error _ => hr.pure _
    | .ok (.fail _) => hr.map (Asks.freeres _)
    | .ok (.ok _) => hr.map (Asks.freeres _)

theorem readlink (p : Addr) (h : ∀ fh, A (.readlink fh)) : Leads A B (hsiNfs3Readlink p) :=
  have hr := AllocFrame.onlyAsks B
  have hq := AllocFrame.onlyAsks fun _ ↦ False
  .pre (hq.getfh3 p) fun _ ↦ .clntp fun _ ↦ .call (h _) _ fun
    | .error _ => hr.pure _
    | .ok (.fail _) => hr.map (Asks.freeres _)
    | .ok (.ok _) => hr.bind hr.malloc fun _ ↦ hr.map (Asks.freeres _)

theorem statfs (p : Addr) (h : ∀ fh, A (.fsstat fh)) : Leads A B (hsiNfs3Statfs p) :=
  have hr := AllocFrame.onlyAsks B
  have hq := AllocFrame.onlyAsks fun _ ↦ False
  .pre (hq.getfh3 p) fun _ ↦ .callSb (h _) fun
    | .error _ => hr.pure _
    | .ok (.fail _) => hr.map Asks.freeresSb
    | .ok (.ok _) => hr.bind (Asks.modify _) fun _ ↦ hr.map Asks.freeresSb

theorem getxattr (p : Addr) (mask : UInt32) (type : AclType) (h : ∀ fh mask, A (.getacl fh mask)) :
    Leads A B (hsiNfs3Getxattr p mask type) := by
  have hr := AllocFrame.onlyAsks B
  have hq := AllocFrame.onlyAsks fun _ ↦ False
  refine .pre (hq.getfh3 p) fun _ ↦ .aclClntp fun
    | none => .quiet (hq.pure _)
    | some c => .call (h _ _) _ fun
      | .error _ => hr.pure _
      | .ok (.fail _) => hr.map (Asks.freeres _)
      | .ok (.ok _) => hr.bind hr.malloc fun _ ↦
          hr.ite (hr.bind (Asks.freeres _) fun _ ↦ ?_) (hr.map Asks.freeresSb)
  cases type with
  | access => exact hr.pure _
  | default => exact hr.pure _

theorem setxattrLists (p : Addr) (c : Client) (mode : UInt32) (acl dfacl : Option PosixAcl)
    (h : ∀ fh acl, A (.setacl fh acl)) : Leads A B (setxattrLists p c mode acl dfacl) :=
  have hr := AllocFrame.onlyAsks B
  have hq := AllocFrame.onlyAsks fun _ ↦ False
  setxattrLists_of (fun hx hf ↦ .pre (hx hq) hf) (.quiet (hq.pure 0)) (fun _ _ ↦ .call (h _ _) _ fun
    | .error _ => hr.pure _
    | .ok (.fail _) => hr.map (Asks.freeres _)
    | .ok (.ok _) => hr.map (Asks.freeres _)) p mode acl dfacl

/-- The other list is asked for first, and then both are sent. -/
theorem setxattr (p : Addr) (value : List UInt8) (type : AclType)
    (hget : ∀ fh mask, A (.getacl fh mask))
    (h : ∀ fh acl, A (.setacl fh acl) ∧ B (.setacl fh acl)) :
    Leads A B (hsiNfs3Setxattr p value type) := by
  have hr := AllocFrame.onlyAsks fun r ↦ A r ∧ B r
  have hq := AllocFrame.onlyAsks fun _ ↦ False
  have hsend (c : Client) (mode : UInt32) (acl dfacl : Option PosixAcl) :
      Asks (fun r ↦ A r ∧ B r) (Hsfs.setxattrLists p c mode acl dfacl) :=
    (setxattrLists p c mode acl dfacl h).only
  refine .aclClntp fun
    | none => .quiet (hq.pure _)
    | some c => .pre (hq.load p) fun i ↦ .pre (hq.posixAclFromXattrAlloc value) fun acl ↦ ?_
  cases type with
  | access =>
      exact .ite (.andThen (getxattr _ _ _ hget) fun
        | .error _ => hr.pure _
        | .ok _ => hsend c _ _ _) (setxattrLists p c _ _ _ fun fh acl ↦ (h fh acl).1)
  | default =>
      exact .ite (.andThen (getxattr _ _ _ hget) fun
        | .error _ => hr.pure _
        | .ok _ => hsend c _ _ _) (.quiet (hq.pure _))

theorem readdir (p : Addr) (count : UInt32) (cookie : UInt64)
    (h : ∀ dir verf count, A (.readdir dir cookie verf count)) :
    Leads A B (hsiNfs3Readdir p count cookie) :=
  have hr := AllocFrame.onlyAsks B
  have hq := AllocFrame.onlyAsks fun _ ↦ False
  .clntp fun _ ↦ .pre (hq.map (hq.load p)) fun _ ↦
    .pre (hq.getfh3 p) fun _ ↦ .call (h _ _ _) _ fun
    | .error _ => hr.pure _
    | .ok (.fail _) => hr.map (Asks.freeres _)
    | .ok (.ok _) => hr.bind (Asks.refresh _ _) fun _ ↦
        hr.ite (hr.map (Asks.freeres _)) <|
        hr.bind (OnlyAsks.update _ _) fun _ ↦
        hr.bind (hr.readdirEntries _ _) fun _ ↦ hr.map (Asks.freeres _)

theorem readdirPlus (p : Addr) (count : UInt32) (cookie : UInt64) (maxcount : UInt32)
    (h : ∀ dir verf dircount maxcount, A (.readdirplus dir cookie verf dircount maxcount)) :
    Leads A B (hsiNfs3ReaddirPlus p count cookie maxcount) :=
  have hr := AllocFrame.onlyAsks B
  have hq := AllocFrame.onlyAsks fun _ ↦ False
  .clntp fun _ ↦ .pre (hq.map (hq.load p)) fun _ ↦
    .pre (hq.getfh3 p) fun _ ↦ .call (h _ _ _ _) _ fun
    | .error _ => hr.pure _
    | .ok (.fail _) => hr.map (Asks.freeres _)
    | .ok (.ok _) => hr.bind (Asks.refresh _ _) fun _ ↦
        hr.ite (hr.map (Asks.freeres _)) <|
        hr.bind (OnlyAsks.update _ _) fun _ ↦ hr.bind (hr.readdirPlusEntries Asks.fhget _ _) fun
        | .ok _ => hr.map (Asks.freeres _)
        | .error _ => hr.bind (hr.freeCtx Asks.iput _) fun _ ↦
            hr.map (Asks.freeres _)

end Leads

namespace Asks

variable {A : Rpc → Prop}

/-! ## Reading and writing -/

theorem readLoop (p : Addr) (size : Nat) (off : UInt64) (rounds : Nat) (buf : List UInt8)
    (cnt : Nat) (h : ∀ fh o n, A (.read fh o n)) : Asks A (readLoop p size off rounds buf cnt) := by
  have hr := AllocFrame.onlyAsks A
  have hread (o : UInt64) (n : UInt32) : Asks A (hsiNfs3Read p o n) :=
    clntp fun _ ↦ hr.bind (hr.getfh3 p) fun _ ↦ hr.bind (call (h _ _ _) _) fun
      | .error _ => hr.pure _
      | .ok (.fail _) => hr.map (freeres _)
      | .ok (.ok _) => hr.map (freeres _)
  induction rounds generalizing buf cnt with
  | zero => exact hr.throw _
  | succ rounds ih =>
      exact hr.ite (hr.get_bind fun _ ↦ hr.bind (hread _ _) fun
        | .error _ => hr.pure _
        | .ok _ => hr.ite (hr.pure _) (ih _ _)) (hr.pure _)

theorem writeLoop (p : Addr) (buf : List UInt8) (off : UInt64) (stable : UInt32) (rounds cnt : Nat)
    (h : ∀ rpc, Piece buf off rpc → A rpc) : Asks A (writeLoop p buf off stable rounds cnt) := by
  have hr := AllocFrame.onlyAsks A
  have hpiece (fh : NfsFh) (cnt n : Nat) (size : UInt32) :
      A (.write fh (off + cnt.toUInt64) size stable ((buf.drop cnt).take n)) :=
    h (.write _ _ _ _ _) ⟨cnt, n, rfl, rfl⟩
  have hwrite (cnt n : Nat) (size : UInt32) :
      Asks A (hsiNfs3Write p (off + cnt.toUInt64) size stable ((buf.drop cnt).take n)) :=
    clntp fun _ ↦ hr.bind (hr.getfh3 p) fun _ ↦ hr.bind (call (hpiece _ _ _ _) _) fun
      | .error _ => hr.pure _
      | .ok (.fail _) => hr.map (freeres _)
      | .ok (.ok _) => hr.map (freeres _)
  induction rounds generalizing cnt with
  | zero => exact hr.throw _
  | succ rounds ih =>
      exact hr.ite (hr.get_bind fun _ ↦ hr.bind (hwrite _ _ _) fun
        | .error _ => hr.pure _
        | .ok _ => ih _) (hr.pure _)

end Asks

/-! ## The handlers -/

namespace Leads

variable {A B : Rpc → Prop} {α : Type}

/-- A handler that looks an inode up first. -/
theorem ilookupThen {ino : UInt64} {f : Option Addr → Hs α}
    (hnone : Asks (fun _ ↦ False) (f none)) (hsome : ∀ p, Leads A B (f (some p))) :
    Leads A B (hsfsIlookup ino >>= f) :=
  .pre ((AllocFrame.onlyAsks _).ilookup ino) fun
    | none => .quiet hnone
    | some p => hsome p

theorem hsxFuseGetxattr (ino : UInt64) (name : Name) (size : UInt64)
    (h : ∀ fh mask, A (.getacl fh mask)) : Leads A B (hsxFuseGetxattr ino name size) := by
  have hr := AllocFrame.onlyAsks fun r ↦ A r ∧ B r
  unfold Hsfs.hsxFuseGetxattr
  cases aclTypeOf name with
  | none => exact .quiet (Asks.reply _)
  | some type =>
      exact .ilookupThen (Asks.reply _) fun _ ↦ .andThen (getxattr _ _ _ h) fun
        | .error _ => Asks.reply _
        | .ok _ => hr.bind hr.malloc fun _ ↦ hr.ite (Asks.reply _) <|
            hr.ite (Asks.reply _) <| hr.ite (Asks.reply _) (Asks.reply _)

end Leads

/-- The calls with which a request may begin. -/
def Request.Begins : Request → Rpc → Prop
  | .getattr _, .getattr _ => True
  | .statfs, .fsstat _ => True
  | .lookup _ name, .lookup _ name' => name' = name
  | .mkdir _ name _, .mkdir _ name' _ => name' = name
  | .read _ _ _, .read _ _ _ => True
  | .write _ buf off _, rpc => Asks.Piece buf off rpc
  | .setattr _ _ _, .setattr _ _ => True
  | .rmdir _ name, .rmdir _ name' => name' = name
  | .unlink _ name, .remove _ name' => name' = name
  | .readlink _, .readlink _ => True
  | .symlink target _ name, .symlink _ name' _ target' => name' = name ∧ target' = target
  | .rename _ name _ newname, .rename _ name' _ newname' => name' = name ∧ newname' = newname
  | .readdir _ _ off, .readdir _ cookie _ _ => cookie = off
  | .mknod _ name _ _, .mknod _ name' _ => name' = name
  | .link _ _ newname, .link _ _ newname' => newname' = newname
  | .create _ name _ _ _ _, .create _ name' _ => name' = name
  | .access _ _, .access _ _ => True
  | .getxattr _ _ _, .getacl _ _ => True
  -- the other list of the file
  | .setxattr _ _ _, .getacl _ _ => True
  | .setxattr _ _ _, .setacl _ _ => True
  | .readdirplus _ _ off, .readdirplus _ cookie _ _ _ => cookie = off
  | _, _ => False

/-- The calls with which it may go on. -/
def Request.GoesOn : Request → Rpc → Prop
  | .read _ _ _, .read _ _ _ => True
  | .write _ buf off _, rpc => Asks.Piece buf off rpc
  -- if the reply to LINK has no attributes
  | .link _ _ _, .getattr _ => True
  -- the mode of a file that has been created exclusively
  | .create _ _ _ flags _ _, .setattr _ _ => hasBits flags oExcl = true
  | .setxattr _ _ _, .setacl _ _ => True
  | _, _ => False

/-- Only a request with `O_EXCL` asks for an exclusive creation. -/
theorem hasBits_of_createMode {mode flags : UInt32}
    (h : (createMode mode flags &&& 0xF0000) >>> 16 = 2) : hasBits flags oExcl = true := by
  have hdistrib (x y z : UInt32) : (x ||| y) &&& z = (x &&& z) ||| (y &&& z) :=
    UInt32.toBitVec_inj.1 BitVec.and_or_distrib_right
  have hperm : (0o777 : UInt32) &&& 0xF0000 = 0 := by decide
  by_contra hexcl
  rw [createMode, if_neg hexcl, hdistrib, UInt32.and_assoc, hperm, UInt32.and_zero] at h
  split at h
  · exact absurd h (by decide)
  · exact absurd h (by decide)

/-- **What a request asks, and in which order.**  A request leads to no other calls, in whatever
state the daemon is and whatever it is answered. -/
theorem Leads.handle (req : Request) (rounds : Nat) :
    Leads req.Begins req.GoesOn (req.handle rounds) := by
  have hr := Asks.touchFrame fun r ↦ req.Begins r ∧ req.GoesOn r
  have hq := Asks.touchFrame fun _ ↦ False
  cases req with
  | init => exact .quiet (hq.get_bind fun _ ↦ hq.bind (hq.refXchg _ _) fun _ ↦ hq.assertThat _ _)
  | getattr ino =>
      exact .ilookupThen (Asks.reply _) fun _ ↦ .andThen (.getattr _ _ fun _ ↦ trivial) fun _ ↦
        hr.ite (Asks.reply _) <| hr.bind (hr.attrTimeout _) fun _ ↦ Asks.reply _
  | statfs =>
      refine .get_bind fun _ ↦ .pre (hq.derefSb _) fun _ ↦
        .andThen (.statfs _ fun _ ↦ trivial) fun _ ↦ hr.ite (Asks.reply _) <|
          hr.get_bind fun d ↦ ?_
      cases hsiSuper2statvfs d.sb with
      | none => exact Asks.reply _
      | some stbuf => exact Asks.reply _
  | lookup parent name =>
      exact .ilookupThen (Asks.reply _) fun _ ↦ .andThen (.lookup _ _ fun _ ↦ rfl) fun _ ↦
        hr.ite (Asks.reply _) <| hr.ite (Asks.reply _) <| hr.bind (hr.refInc _ _) fun _ ↦
          hr.bind (hr.fillReply _) fun _ ↦ Asks.reply _
  | mkdir parent name mode =>
      exact .ilookupThen (hq.pure _) fun _ ↦ .andThen (.mkdir _ _ _ fun _ _ ↦ rfl) fun _ ↦
        Asks.replyNew _ _ _
  | «open» => exact .quiet (hq.bind hq.malloc fun _ ↦ hq.ite (Asks.reply _) (Asks.reply _))
  | release => exact .quiet (Asks.reply _)
  | read ino size off =>
      exact .pre hq.malloc fun _ ↦ .ite (.ilookupThen (Asks.reply _) fun _ ↦
        .andThen (.of_asks (Asks.readLoop _ _ _ _ _ _ fun _ _ _ ↦ ⟨trivial, trivial⟩)) fun
        | .error _ => Asks.reply _
        | .ok _ => Asks.reply _) (.quiet (Asks.reply _))
  | write ino buf off directIo =>
      exact .pre hq.malloc fun _ ↦ .ite (.ilookupThen (Asks.reply _) fun _ ↦
        .andThen (.of_asks (Asks.writeLoop _ _ _ _ _ _ fun _ h ↦ ⟨h, h⟩)) fun
        | .error _ => Asks.reply _
        | .ok _ => Asks.reply _) (.quiet (Asks.reply _))
  | setattr ino attr toSet =>
      exact .ilookupThen (Asks.reply _) fun _ ↦ .andThen (.setattr _ _ fun _ _ ↦ trivial) fun _ ↦
        hr.ite (Asks.reply _) <| hr.bind (hr.load _) fun _ ↦ hr.bind (hr.attrTimeout _) fun _ ↦
          Asks.reply _
  | forget ino nlookup =>
      exact .ilookupThen (hq.assertThat _ _) fun _ ↦ .quiet (hq.bind (hq.refDec _ _) fun _ ↦
        hq.ite (hq.bind (Asks.iput _) fun _ ↦ Asks.reply _) (Asks.reply _))
  | rmdir parent name =>
      exact .ilookupThen (hq.pure _) fun _ ↦ .andThen (.rmdir _ _ fun _ ↦ rfl) fun _ ↦
        Asks.reply _
  | unlink parent name =>
      exact .ite (.quiet (Asks.reply _)) <| .ite (.quiet (Asks.reply _)) <|
        .ilookupThen (Asks.reply _) fun _ ↦ .andThen (.unlink _ _ fun _ ↦ rfl) fun _ ↦ Asks.reply _
  | readlink ino =>
      exact .ilookupThen (hq.pure _) fun _ ↦ .andThen (.readlink _ fun _ ↦ trivial) fun _ ↦
        hr.ite (Asks.reply _) (Asks.reply _)
  | symlink target parent name =>
      exact .ilookupThen (Asks.reply _) fun _ ↦
        .andThen (.symlink _ _ _ fun _ _ ↦ ⟨rfl, rfl⟩) fun _ ↦ Asks.replyNew _ _ _
  | rename parent name newparent newname =>
      exact .ite (.quiet (Asks.reply _)) <| .ite (.quiet (Asks.reply _)) <|
        .ite (.quiet (Asks.reply _)) <| .ite (.quiet (Asks.reply _)) <|
        .ilookupThen (Asks.reply _) fun _ ↦ .ilookupThen (Asks.reply _) fun _ ↦
          .andThen (.rename _ _ _ _ fun _ _ ↦ ⟨rfl, rfl⟩) fun _ ↦ Asks.reply _
  | readdir ino size off =>
      exact .ilookupThen (hq.assertThat _ _) fun _ ↦
        .andThen (.readdir _ _ _ fun _ _ _ ↦ rfl) fun _ ↦ hr.ite (Asks.reply _) <|
          hr.bind hr.malloc fun _ ↦ hr.ite (Asks.reply _) (Asks.reply _)
  | opendir ino => exact .ilookupThen (Asks.reply _) fun _ ↦ .quiet (Asks.reply _)
  | mknod parent name mode rdev =>
      exact .ilookupThen (Asks.reply _) fun _ ↦ .andThen (.mknod _ _ _ _ fun _ _ ↦ rfl) fun _ ↦
        Asks.replyNew _ _ _
  | link ino newparent newname =>
      exact .ilookupThen (hq.pure _) fun _ ↦ .ilookupThen (hq.pure _) fun _ ↦
        .andThen (.link _ _ _ (fun _ _ ↦ rfl) fun _ ↦ trivial) fun _ ↦ hr.ite (Asks.reply _) <|
          hr.bind hr.malloc fun _ ↦ hr.ite (hr.bind (hr.fillReply _) fun _ ↦ Asks.reply _)
            (Asks.reply _)
  | create parent name mode flags uid gid =>
      exact .ilookupThen (hq.pure _) fun _ ↦ .pre (OnlyAsks.update _ _) fun _ ↦
        .andThen (.create _ _ _ (fun _ _ ↦ rfl) fun hexcl _ _ ↦ hasBits_of_createMode hexcl)
          fun _ ↦ Asks.replyNew _ _ _
  | access ino mask =>
      exact .ilookupThen (hq.pure _) fun _ ↦ .pre (hq.load _) fun _ ↦
        .andThen (.access _ _ fun _ _ ↦ trivial) fun _ ↦ Asks.reply _
  | getxattr ino name size => exact .hsxFuseGetxattr ino name size.toUInt64 fun _ _ ↦ trivial
  | setxattr ino name value =>
      refine .ilookupThen (Asks.reply _) fun _ ↦ ?_
      cases aclTypeOf name with
      | none => exact .quiet (Asks.reply _)
      | some type =>
          exact .andThen (.setxattr _ _ _ (fun _ _ ↦ trivial) fun _ _ ↦ ⟨trivial, trivial⟩) fun _ ↦
            hr.bind (Asks.reply _) fun _ ↦ Asks.reply _
  | readdirplus ino size off =>
      exact .ilookupThen (hq.assertThat _ _) fun _ ↦
        .andThen (.readdirPlus _ _ _ _ fun _ _ _ _ ↦ rfl) fun _ ↦ hr.ite (Asks.reply _) <|
          hr.bind hr.malloc fun _ ↦ hr.ite (hr.bind (hr.addDirentsPlus _ _ _) fun _ ↦ Asks.reply _)
            (Asks.reply _)

/-- The calls that a request may lead to. -/
def Request.MayAsk (req : Request) (rpc : Rpc) : Prop := req.Begins rpc ∨ req.GoesOn rpc

theorem Asks.handle (req : Request) (rounds : Nat) : Asks req.MayAsk (req.handle rounds) :=
  (Leads.handle req rounds).asks

/-! ## Looking and changing -/

/-- The procedure changes nothing. -/
def Rpc.looks : Rpc → Bool
  | .getattr _ | .lookup _ _ | .access _ _ | .readlink _ | .read _ _ _ | .readdir _ _ _ _
  | .readdirplus _ _ _ _ _ | .fsstat _ | .fsinfo _ | .pathconf _ | .getacl _ _ => true
  | _ => false

/-- The request is not meant to change anything on the server. -/
def Request.looks : Request → Bool
  | .init | .getattr _ | .statfs | .lookup _ _ | .open | .release | .read _ _ _ | .forget _ _
  | .readlink _ | .readdir _ _ _ | .opendir _ | .access _ _ | .getxattr _ _ _
  | .readdirplus _ _ _ => true
  | _ => false

theorem Request.MayAsk.looks {req : Request} {rpc : Rpc} (h : req.MayAsk rpc)
    (hlooks : req.looks = true) : rpc.looks = true := by
  cases req with
  | mkdir | write | setattr | rmdir | unlink | symlink | rename | mknod | link | create
  | setxattr => exact nomatch hlooks
  | _ =>
      cases rpc with
      | getattr | lookup | access | readlink | read | readdir | readdirplus | fsstat | getacl => rfl
      | _ => exact h.elim False.elim False.elim

end Hsfs
