import Hsfs.Daemon.CacheInv
import Hsfs.Nfs3.Acl
import Hsfs.Nfs3.Data
import Hsfs.Nfs3.Mount
import Hsfs.Nfs3.Readdir

/-!
# What the operations are made of

An operation changes the daemon by way of a few functions only: it calls the server, frees
the reply, gets an inode, and updates attributes.  If each of these has some property that
passes from the parts of a program to the whole, then so has every operation, and `Frame` is
the list of what has to be checked.

An operation that keeps an RPC client in a variable may use it when it is no longer the
client of the superblock.  Those operations need a `HandleFrame`, which says for which
clients the property can be checked.
-/

namespace Hsfs

open Interact Interact.Act

/-- The superblocks differ at most in what a reply of the server sets. -/
structure Super.SameCore (s s' : Super) : Prop where
  fhTable : s'.fhTable = s.fhTable
  idTable : s'.idTable = s.idTable
  currId : s'.currId = s.currId
  clntp : s'.clntp = s.clntp
  aclClntp : s'.aclClntp = s.aclClntp
  root : s'.root = s.root

/-- The inodes differ at most in their attributes. -/
structure Inode.SameCore (i i' : Inode) : Prop where
  sameId : i.SameId i'
  priv : i'.priv = i.priv
  iCount : i'.iCount = i.iCount

/-- The call asks for the entries of a directory. -/
def Rpc.lists : Rpc → Bool
  | .readdir _ _ _ _ | .readdirplus _ _ _ _ _ => true
  | _ => false

/-- A property of the functions that call no server and leave the inode cache alone. -/
structure AllocFrame (P : {α : Type} → Hs α → Prop) : Prop where
  closed : Closed @P
  malloc : P malloc

/-- A property of the operations that do not keep a client and leave the inode cache alone. -/
structure QuietFrame (P : {α : Type} → Hs α → Prop) : Prop extends AllocFrame @P where
  callSb : ∀ req : Rpc, req.lists = false → P (callSb req)
  freeresSb : P freeresSb
  super : ∀ f : Super → Super, (∀ s : Super, s.SameCore (f s)) →
    P (Act.modify (fun d ↦ { d with sb := f d.sb }) : Hs Unit)

/-- A property of the operations that do not keep a client. -/
structure Frame (P : {α : Type} → Hs α → Prop) : Prop extends QuietFrame @P where
  fhget : ∀ fh fattr, P (hsiNfsFhget fh fattr)
  refresh : ∀ p fattr, P (nfsRefreshInode p fattr)

/-- A property of the operations that keep one of the clients `C` and leave the inode cache
alone. -/
structure CallFrame (P : {α : Type} → Hs α → Prop) (C : Client → Prop) : Prop
    extends QuietFrame @P where
  clntp : ∀ {α : Type} (f : Client → Hs α), (∀ c, C c → P (f c)) →
    P (sbClntp >>= f)
  aclClntp : ∀ {α : Type} (f : Option Client → Hs α),
    (∀ o, (∀ c ∈ o, C c) → P (f o)) → P (sbAclClntp >>= f)
  call : ∀ c, C c → ∀ req : Rpc, req.lists = false → P (hsiNfs3ClntCall c req)
  freeres : ∀ c, C c → P (clntFreeres c)

/-- A property of the operations that keep one of the clients `C` and list no directory. -/
structure ObjectFrame (P : {α : Type} → Hs α → Prop) (C : Client → Prop) : Prop
    extends Frame @P, CallFrame @P C

/-- A property of the operations that keep one of the clients `C`. -/
structure HandleFrame (P : {α : Type} → Hs α → Prop) (C : Client → Prop) : Prop
    extends ObjectFrame @P C where
  list : ∀ c, C c → ∀ req : Rpc, req.lists = true → P (hsiNfs3ClntCall c req)
  setCookieVerf : ∀ p verf, P (setCookieVerf p verf)

namespace AllocFrame

variable {P : {α : Type} → Hs α → Prop} (hr : AllocFrame @P)

include hr

/-! ## Functions that only read -/

theorem pure {α : Type} (a : α) : P (Pure.pure a : Hs α) := hr.closed.pure a

theorem bind {α β : Type} {x : Hs α} {f : α → Hs β} (hx : P x)
    (hf : ∀ a, P (f a)) : P (x >>= f) := hr.closed.bind hx hf

theorem map {α β : Type} {x : Hs α} (hx : P x) {g : α → β} :
    P (x >>= fun a ↦ Pure.pure (g a)) := hr.bind hx fun a ↦ hr.pure (g a)

theorem throw {α : Type} (e : Fault) : P (Act.throw e : Hs α) := hr.closed.throw e

theorem get_bind {α : Type} {f : Daemon → Hs α} (hf : ∀ d, P (f d)) : P (Act.get >>= f) :=
  hr.closed.get_bind hf

theorem ite {α : Type} {c : Prop} [Decidable c] {x y : Hs α} (hx : P x) (hy : P y) :
    P (if c then x else y) := hr.closed.ite hx hy

theorem load (p : Addr) : P (load p) := by
  refine hr.get_bind fun d ↦ ?_
  cases d.heap p with
  | some i => exact hr.pure i
  | none => exact hr.ite (hr.pure _) (hr.throw _)

/-- `hsfs_iput` counts down and may free the inode. -/
theorem iputOf {p : Addr} (hcount : ∀ n, P (update p fun inode ↦ { inode with iCount := n }))
    (hfree : P (Act.modify (·.free p) : Hs Unit)) : P (hsfsIput p) :=
  hr.ite (hr.bind (hr.load p) fun _ ↦ hr.bind (hcount _) fun _ ↦
    hr.ite (hr.bind (hr.load p) fun _ ↦ hr.ite hfree (hr.pure _)) (hr.pure _)) (hr.pure _)

theorem callocEntries (count : Nat) : P (callocEntries count) :=
  hr.bind hr.malloc fun _ ↦ hr.ite (hr.throw _) (hr.pure _)

theorem posixAclFromXattrAlloc (value : List UInt8) : P (posixAclFromXattrAlloc value) := by
  unfold Hsfs.posixAclFromXattrAlloc
  cases posixAclFromXattr value with
  | none => exact hr.pure _
  | some acl => exact hr.bind hr.malloc fun _ ↦ hr.ite (hr.pure _) (hr.pure _)

theorem derefSb (p : Addr) : P (derefSb p) := by
  refine hr.get_bind fun d ↦ ?_
  cases d.heap p with
  | some i => exact hr.pure ()
  | none => exact hr.throw _

theorem assertThat (what : Assertion) (c : Bool) : P (assertThat what c) :=
  hr.ite (hr.pure ()) (hr.throw _)

theorem errPtr (error : Int) : P (errPtr error) := by
  refine hr.get_bind fun d ↦ ?_
  cases d.layout.errPtr error with
  | some p => exact hr.pure p
  | none => exact hr.throw _

theorem getfh3 (p : Addr) : P (hsiNfs3Getfh3 p) := hr.map (hr.load p)

theorem ilookup (ino : UInt64) : P (hsfsIlookup ino) := by
  refine hr.get_bind fun d ↦ hr.get_bind fun d' ↦ ?_
  cases d.sb.idTable.find (hashMin ino) (d'.stopsAt fun i ↦ i.ino == ino) with
  | none => exact hr.pure none
  | some p =>
    exact hr.ite (hr.map (hr.throw _))
      (hr.map (hr.pure _))

theorem clearThenPtrErr (new : Addr) : P (clearThenPtrErr new) :=
  hr.get_bind fun _ ↦ hr.ite (hr.pure _) (hr.pure _)

/-! ## Copying names -/

theorem allocCopyName (name : Name) : P (allocCopyName name) :=
  hr.bind hr.malloc fun _ ↦ hr.ite (hr.bind hr.malloc fun _ ↦ hr.ite (hr.pure _) (hr.pure _))
    (hr.pure _)

theorem readdirEntries (entries : List Entry3) (ctx : List ReaddirCtx) :
    P (readdirEntries entries ctx) := by
  induction entries generalizing ctx with
  | nil => exact hr.pure _
  | cons entry entries ih =>
      exact hr.bind (hr.allocCopyName _) fun
        | none => hr.pure _
        | some _ => ih _

theorem readdirPlusEntries (hfhget : ∀ fh fattr, P (hsiNfsFhget fh fattr))
    (entries : List Entryplus3) (ctx : List ReaddirCtx) : P (readdirPlusEntries entries ctx) := by
  induction entries generalizing ctx with
  | nil => exact hr.pure _
  | cons entry entries ih =>
      refine hr.bind (hr.allocCopyName _) fun
        | none => hr.pure _
        | some name => ?_
      cases entry.nameHandle with
      | none => exact hr.pure _
      | some fh => exact hr.bind (hfhget _ _) fun _ ↦ hr.ite (hr.get_bind fun _ ↦ hr.pure _) (ih _)

theorem freeCtx (hput : ∀ p, P (hsfsIput p)) (ctx : List ReaddirCtx) : P (freeCtx ctx) := by
  induction ctx with
  | nil => exact hr.pure _
  | cons c ctx ih => exact hr.bind (hput _) fun _ ↦ ih

end AllocFrame

/-- Before its call, `hsi_nfs3_setxattr` only reads and allocates memory. -/
theorem setxattrLists_of {P : Hs Int → Prop}
    (hpre : ∀ {α : Type} {x : Hs α} {f : α → Hs Int},
      (∀ {Q : {α : Type} → Hs α → Prop}, AllocFrame @Q → Q x) → (∀ a, P (f a)) → P (x >>= f))
    (hzero : P (pure 0)) {c : Client} (hcall : ∀ fh args, P (setxattrCall c fh args)) (p : Addr)
    (mode : UInt32) (acl dfacl : Option PosixAcl) : P (setxattrLists p c mode acl dfacl) := by
  have hsend (mask : UInt32) (acl : PosixAcl) : P (setxattrSend p c mask acl dfacl) := by
    refine hpre (fun hr ↦ hr.getfh3 p) fun _ ↦ hpre (fun hr ↦ hr.callocEntries _) fun _ ↦ ?_
    cases dfacl with
    | none => exact hcall _ _
    | some dfacl => exact hpre (fun hr ↦ hr.callocEntries _) fun _ ↦ hcall _ _
  cases acl with
  | some acl => exact hsend _ _
  | none =>
      refine hpre (fun hr ↦ hr.malloc) fun got ↦ ?_
      cases got with
      | true => exact hsend _ _
      | false => exact hzero

namespace QuietFrame

variable {P : {α : Type} → Hs α → Prop} (hr : QuietFrame @P)

include hr

/-! ## Operations that keep no client and leave the cache alone -/

theorem doGetattr (fh : NfsFh) (fattr : NfsFattr) (st : Option Stat) :
    P (hsiNfs3DoGetattr fh fattr st) :=
  hr.bind (hr.callSb _ rfl) fun
    | .error _ => hr.pure _
    | .ok (.fail _) => hr.map hr.freeresSb
    | .ok (.ok _) => hr.map hr.freeresSb

theorem rmdir (p : Addr) (name : Name) : P (hsiNfs3Rmdir p name) :=
  hr.bind (hr.getfh3 p) fun _ ↦ hr.bind (hr.callSb _ rfl) fun
    | .error _ => hr.pure _
    | .ok (.fail _) => hr.map hr.freeresSb
    | .ok (.ok _) => hr.map hr.freeresSb

theorem statfs (p : Addr) : P (hsiNfs3Statfs p) :=
  hr.bind (hr.getfh3 p) fun _ ↦ hr.bind (hr.callSb _ rfl) fun
    | .error _ => hr.pure _
    | .ok (.fail _) => hr.map hr.freeresSb
    | .ok (.ok resok) =>
        hr.bind (hr.super (fun s ↦ { s with fsstat := resok }) fun _ ↦
          ⟨rfl, rfl, rfl, rfl, rfl, rfl⟩)
          fun _ ↦ hr.map hr.freeresSb

end QuietFrame

namespace Frame

variable {P : {α : Type} → Hs α → Prop} (hr : Frame @P)

include hr

/-! ## Operations that keep no client -/

theorem getattr (p : Addr) (st : Option Stat) : P (hsiNfs3Getattr p st) :=
  hr.bind (hr.getfh3 p) fun _ ↦ hr.bind (hr.doGetattr _ _ _) fun _ ↦
    hr.ite (hr.pure _) (hr.map (hr.refresh _ _))

theorem lookup (p : Addr) (name : Name) : P (hsiNfs3Lookup p name) :=
  hr.bind (hr.getfh3 p) fun _ ↦ hr.bind (hr.callSb _ rfl) fun
    | .error _ => hr.pure _
    | .ok (.fail _) => hr.map hr.freeresSb
    | .ok (.ok _) => hr.bind (hr.fhget _ _) fun _ ↦ hr.map hr.freeresSb

theorem handleCreate (dir : Diropres3ok) : P (hsiNfs3HandleCreate dir) := by
  unfold hsiNfs3HandleCreate
  cases dir.obj with
  | none => exact hr.errPtr _
  | some fh => exact hr.fhget _ _

theorem newOfReply {free : Hs Unit} (hfree : P free) : ∀ r, P (newOfReply free r)
  | .error _ => hr.pure _
  | .ok (.fail _) => hr.map hfree
  | .ok (.ok _) => hr.bind (hr.handleCreate _) fun _ ↦ hr.bind (hr.clearThenPtrErr _) fun _ ↦
      hr.map hfree

theorem mkdir (p : Addr) (name : Name) (mode : UInt32) : P (hsiNfs3Mkdir p name mode) :=
  hr.bind (hr.getfh3 p) fun _ ↦ hr.bind (hr.callSb _ rfl) (hr.newOfReply hr.freeresSb)

theorem symlink (p : Addr) (link name : Name) : P (hsiNfs3Symlink p link name) :=
  hr.bind (hr.getfh3 p) fun _ ↦ hr.bind (hr.callSb _ rfl) (hr.newOfReply hr.freeresSb)

end Frame

namespace CallFrame

variable {P : {α : Type} → Hs α → Prop} {C : Client → Prop} (hr : CallFrame @P C)

include hr

/-! ## Operations that keep a client and leave the cache alone -/

/-- A call through a client that is kept, and the end of an operation that has nothing to do
with a reply but to free it. -/
theorem callThen {α : Type} {c : Client} (hc : C c) {req : Rpc} (hreq : req.lists = false)
    {f : Except Int req.Res → Hs α} (hf : ∀ a, P (f a)) : P (hsiNfs3ClntCall c req >>= f) :=
  hr.bind (hr.call c hc req hreq) hf

theorem freeThen {α : Type} {c : Client} (hc : C c) {f : Unit → Hs α}
    (hf : P (f ())) : P (clntFreeres c >>= f) :=
  hr.bind (hr.freeres c hc) fun _ ↦ hf

theorem setattr3 (p : Addr) (fattr : NfsFattr) (attr : HsfsIattr) :
    P (hsiNfs3Setattr p fattr attr) :=
  hr.clntp _ fun _ hc ↦ hr.bind (hr.getfh3 p) fun _ ↦ hr.callThen hc rfl fun
    | .error _ => hr.pure _
    | .ok (.fail _) => hr.freeThen hc (hr.pure _)
    | .ok (.ok _) => hr.freeThen hc (hr.pure _)

theorem access (p : Addr) (mask : UInt32) : P (hsiNfs3Access p mask) :=
  hr.bind (hr.getfh3 p) fun _ ↦ hr.clntp _ fun _ hc ↦ hr.callThen hc rfl fun
    | .error _ => hr.bind (hr.pure _) fun _ ↦ hr.freeThen hc (hr.pure _)
    | .ok (.fail _) => hr.bind (hr.pure _) fun _ ↦ hr.freeThen hc (hr.pure _)
    | .ok (.ok _) => hr.bind (hr.pure _) fun _ ↦ hr.freeThen hc (hr.pure _)

theorem unlink (p : Addr) (name : Name) : P (hsiNfs3Unlink p name) :=
  hr.clntp _ fun _ hc ↦ hr.bind (hr.getfh3 p) fun _ ↦ hr.callThen hc rfl fun
    | .error _ => hr.pure _
    | .ok (.fail _) => hr.freeThen hc (hr.pure _)
    | .ok (.ok _) => hr.freeThen hc (hr.pure _)

theorem rename (p : Addr) (name : Name) (q : Addr) (newname : Name) :
    P (hsiNfs3Rename p name q newname) :=
  hr.clntp _ fun _ hc ↦ hr.bind (hr.getfh3 p) fun _ ↦ hr.bind (hr.getfh3 q) fun _ ↦
    hr.callThen hc rfl fun
    | .error _ => hr.pure _
    | .ok (.fail _) => hr.freeThen hc (hr.pure _)
    | .ok (.ok _) => hr.freeThen hc (hr.pure _)

theorem readlink (p : Addr) : P (hsiNfs3Readlink p) :=
  hr.bind (hr.getfh3 p) fun _ ↦ hr.clntp _ fun _ hc ↦ hr.callThen hc rfl fun
    | .error _ => hr.pure _
    | .ok (.fail _) => hr.freeThen hc (hr.pure _)
    | .ok (.ok _) => hr.bind hr.malloc fun _ ↦ hr.freeThen hc (hr.pure _)

theorem read (p : Addr) (off : UInt64) (size : UInt32) : P (hsiNfs3Read p off size) :=
  hr.clntp _ fun _ hc ↦ hr.bind (hr.getfh3 p) fun _ ↦ hr.callThen hc rfl fun
    | .error _ => hr.pure _
    | .ok (.fail _) => hr.freeThen hc (hr.pure _)
    | .ok (.ok _) => hr.freeThen hc (hr.pure _)

theorem write (p : Addr) (off : UInt64) (size stable : UInt32) (data : List UInt8) :
    P (hsiNfs3Write p off size stable data) :=
  hr.clntp _ fun _ hc ↦ hr.bind (hr.getfh3 p) fun _ ↦ hr.callThen hc rfl fun
    | .error _ => hr.pure _
    | .ok (.fail _) => hr.freeThen hc (hr.pure _)
    | .ok (.ok _) => hr.freeThen hc (hr.pure _)

theorem fsinfo (fh : NfsFh) (fattr : NfsFattr) : P (hsiNfs3Fsinfo fh fattr) :=
  hr.clntp _ fun _ hc ↦ hr.callThen hc rfl fun
    | .error _ => hr.pure _
    | .ok (.fail _) => hr.freeThen hc (hr.pure _)
    | .ok (.ok resok) =>
        hr.bind (hr.get_bind fun _ ↦ hr.pure _) fun pageSize ↦
        hr.bind (hr.super (hsiFsinfoToSuper pageSize · resok) fun _ ↦
          ⟨rfl, rfl, rfl, rfl, rfl, rfl⟩) fun _ ↦
          hr.ite (hr.freeThen hc (hr.pure _)) <|
            hr.bind (hr.doGetattr _ _ _) fun _ ↦ hr.freeThen hc (hr.pure _)

theorem pathconf (p : Addr) : P (hsiNfs3Pathconf p) :=
  hr.clntp _ fun _ hc ↦ hr.bind (hr.getfh3 p) fun _ ↦ hr.callThen hc rfl fun
    | .error _ => hr.pure _
    | .ok (.fail _) => hr.freeThen hc (hr.pure _)
    | .ok (.ok nameMax) =>
        hr.bind (hr.super (fun s ↦ { s with namlen := nameMax }) fun _ ↦
          ⟨rfl, rfl, rfl, rfl, rfl, rfl⟩) fun _ ↦ hr.freeThen hc (hr.pure _)

/-! ## Access control lists -/

theorem getxattr (p : Addr) (mask : UInt32) (type : AclType) :
    P (hsiNfs3Getxattr p mask type) := by
  refine hr.bind (hr.getfh3 p) fun _ ↦ hr.aclClntp _ fun
    | none, _ => hr.pure _
    | some c, hc => hr.callThen (hc c rfl) rfl fun
      | .error _ => hr.pure _
      | .ok (.fail _) => hr.freeThen (hc c rfl) (hr.pure _)
      | .ok (.ok _) => hr.bind hr.malloc fun _ ↦
          hr.ite (hr.freeThen (hc c rfl) ?_) (hr.map hr.freeresSb)
  cases type with
  | access => exact hr.pure _
  | default => exact hr.pure _

theorem setxattrCall {c : Client} (hc : C c) (fh : NfsFh) (args : Secattr) :
    P (setxattrCall c fh args) :=
  hr.callThen hc rfl fun
    | .error _ => hr.pure _
    | .ok (.fail _) => hr.freeThen hc (hr.pure _)
    | .ok (.ok _) => hr.freeThen hc (hr.pure _)

theorem setxattrLists (p : Addr) {c : Client} (hc : C c) (mode : UInt32)
    (acl dfacl : Option PosixAcl) : P (setxattrLists p c mode acl dfacl) :=
  setxattrLists_of (fun hx hf ↦ hr.bind (hx hr.toAllocFrame) hf) (hr.pure 0) (hr.setxattrCall hc)
    p mode acl dfacl

theorem setxattr (p : Addr) (value : List UInt8) (type : AclType) :
    P (hsiNfs3Setxattr p value type) := by
  refine hr.aclClntp _ fun
    | none, _ => hr.pure _
    | some c, hc => hr.bind (hr.load p) fun i ↦ hr.bind (hr.posixAclFromXattrAlloc value)
        fun acl ↦ ?_
  cases type with
  | access =>
      exact hr.ite (hr.bind (hr.getxattr _ _ _) fun
        | .error _ => hr.pure _
        | .ok _ => hr.setxattrLists p (hc c rfl) _ _ _) (hr.setxattrLists p (hc c rfl) _ _ _)
  | default =>
      exact hr.ite (hr.bind (hr.getxattr _ _ _) fun
        | .error _ => hr.pure _
        | .ok _ => hr.setxattrLists p (hc c rfl) _ _ _) (hr.pure _)

end CallFrame

namespace ObjectFrame

variable {P : {α : Type} → Hs α → Prop} {C : Client → Prop} (hr : ObjectFrame @P C)

include hr

/-! ## Operations that keep a client -/

theorem setattr (p : Addr) (attr : HsfsIattr) : P (hsiNfsSetattr p attr) :=
  hr.bind (hr.load p) fun _ ↦ hr.ite (hr.pure _) <| hr.bind (hr.derefSb p) fun _ ↦
    hr.bind (hr.setattr3 _ _ _) fun _ ↦
      hr.ite (hr.bind (hr.refresh _ _) fun _ ↦ hr.map (hr.pure _))
        (hr.map (hr.pure _))

theorem create (p : Addr) (name : Name) (mode : UInt32) : P (hsiNfs3Create p name mode) :=
  hr.bind (hr.load p) fun _ ↦ hr.clntp _ fun _ hc ↦ hr.callThen hc rfl fun
    | .error _ => hr.pure _
    | .ok (.fail _) => hr.freeThen hc (hr.pure _)
    | .ok (.ok _) => hr.bind (hr.handleCreate _) fun _ ↦
        hr.ite (hr.get_bind fun _ ↦ hr.freeThen hc (hr.pure _)) <|
        hr.ite (hr.bind (hr.load _) fun _ ↦ hr.bind (hr.setattr _ _) fun _ ↦ hr.freeThen hc
          (hr.pure _))
          (hr.freeThen hc (hr.pure _))

theorem mknod (p : Addr) (name : Name) (mode : UInt32) (rdev : UInt64) :
    P (hsiNfs3Mknod p name mode rdev) :=
  hr.ite (hr.pure _) <| hr.bind (hr.getfh3 p) fun _ ↦ hr.bind hr.malloc fun _ ↦
    hr.ite (hr.clntp _ fun _ hc ↦ hr.callThen hc rfl (hr.newOfReply (hr.freeres _ hc))) (hr.pure _)

theorem link (p q : Addr) (name : Name) : P (hsiNfs3Link p q name) :=
  hr.ite (hr.pure _) <| hr.bind (hr.getfh3 p) fun _ ↦ hr.bind (hr.getfh3 q) fun _ ↦
    hr.bind hr.malloc fun _ ↦
    hr.ite (hr.clntp _ fun _ hc ↦ hr.callThen hc rfl fun
      | .error _ => hr.pure _
      | .ok (.fail _) => hr.freeThen hc (hr.pure _)
      | .ok (.ok _) =>
          hr.ite (hr.bind (hr.refresh _ _) fun _ ↦ hr.freeThen hc (hr.pure _))
            (hr.bind (hr.getattr _ _) fun _ ↦ hr.freeThen hc (hr.pure _)))
      (hr.pure _)

end ObjectFrame

namespace HandleFrame

variable {P : {α : Type} → Hs α → Prop} {C : Client → Prop} (hr : HandleFrame @P C)

include hr

/-! ## Listings -/

/-- Any call through a client that is kept. -/
theorem anyCall (c : Client) (hc : C c) (req : Rpc) : P (hsiNfs3ClntCall c req) := by
  cases hreq : req.lists with
  | false => exact hr.call c hc req hreq
  | true => exact hr.list c hc req hreq

theorem readdir (p : Addr) (count : UInt32) (cookie : UInt64) :
    P (hsiNfs3Readdir p count cookie) :=
  hr.clntp _ fun _ hc ↦ hr.bind (hr.map (hr.load p)) fun _ ↦
    hr.bind (hr.getfh3 p) fun _ ↦ hr.bind (hr.list _ hc _ rfl) fun
    | .error _ => hr.pure _
    | .ok (.fail _) => hr.freeThen hc (hr.pure _)
    | .ok (.ok _) => hr.bind (hr.refresh _ _) fun _ ↦ hr.ite (hr.freeThen hc (hr.pure _)) <|
        hr.bind (hr.setCookieVerf _ _) fun _ ↦
        hr.bind (hr.readdirEntries _ _) fun _ ↦ hr.freeThen hc (hr.pure _)

theorem readdirPlus (hput : ∀ p, P (hsfsIput p)) (p : Addr) (count : UInt32)
    (cookie : UInt64) (maxcount : UInt32) :
    P (hsiNfs3ReaddirPlus p count cookie maxcount) :=
  hr.clntp _ fun _ hc ↦ hr.bind (hr.map (hr.load p)) fun _ ↦
    hr.bind (hr.getfh3 p) fun _ ↦ hr.bind (hr.list _ hc _ rfl) fun
    | .error _ => hr.pure _
    | .ok (.fail _) => hr.freeThen hc (hr.pure _)
    | .ok (.ok _) => hr.bind (hr.refresh _ _) fun _ ↦ hr.ite (hr.freeThen hc (hr.pure _)) <|
        hr.bind (hr.setCookieVerf _ _) fun _ ↦ hr.bind (hr.readdirPlusEntries hr.fhget _ _) fun
        | .ok _ => hr.freeThen hc (hr.pure _)
        | .error _ => hr.bind (hr.freeCtx hput _) fun _ ↦ hr.freeThen hc (hr.pure _)

end HandleFrame

end Hsfs
