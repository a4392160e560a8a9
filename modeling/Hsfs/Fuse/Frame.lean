import Hsfs.Fuse.Session
import Hsfs.Nfs3.Listing

/-!
# What the handlers are made of

A handler asks the server through the operations, answers the kernel and counts lookups.  If each of
these has some property, then so has every handler: `PlainFrame` is the list of what has to be
checked for the handlers that count no lookups, `CountFrame` for those that also count lookups, and
`HandlerFrame` for all of them.
-/

namespace Hsfs

open Interact Interact.Act Daemon

/-! ## Answers about objects -/

/-- How often an answer tells the kernel of the inode with some number.  The kernel does not count
the entries of a listing for the directory itself and its parent. -/
def Reply.told : Reply → UInt64 → UInt64
  | .entry e, n | .create e, n => if e.ino = n then 1 else 0
  | .direntsPlus es, n =>
      (es.countP fun e ↦ e.entry.ino = n ∧ e.name ≠ nameOf "." ∧ e.name ≠ nameOf "..").toUInt64
  | _, _ => 0

/-- The answer is about no object. -/
def Reply.Plain (r : Reply) : Prop := ∀ n, r.told n = 0

/-- The requests whose handlers neither count lookups nor answer with objects. -/
def Request.plain : Request → Bool
  | .init | .lookup _ _ | .mkdir _ _ _ | .forget _ _ | .symlink _ _ _ | .mknod _ _ _ _
  | .link _ _ _ | .create _ _ _ _ _ _ | .readdirplus _ _ _ => false
  | _ => true

/-- The requests whose handlers list a directory. -/
def Request.lists : Request → Bool
  | .readdir _ _ _ | .readdirplus _ _ _ => true
  | _ => false

/-! ## Frames -/

/-- A property of the operations that list no directory. -/
structure OpFrame (P : {α : Type} → Hs α → Prop) : Prop
    extends CallFrame @P fun _ ↦ True where
  getattr : ∀ p st, P (hsiNfs3Getattr p st)
  setattr : ∀ p attr, P (hsiNfsSetattr p attr)
  lookup : ∀ p name, P (hsiNfs3Lookup p name)
  create : ∀ p name mode, P (hsiNfs3Create p name mode)
  mkdir : ∀ p name mode, P (hsiNfs3Mkdir p name mode)
  mknod : ∀ p name mode rdev, P (hsiNfs3Mknod p name mode rdev)
  symlink : ∀ p link name, P (hsiNfs3Symlink p link name)
  link : ∀ p q name, P (hsiNfs3Link p q name)

theorem ObjectFrame.op {P : {α : Type} → Hs α → Prop} (hr : ObjectFrame @P fun _ ↦ True) :
    OpFrame @P where
  toCallFrame := hr.toCallFrame
  getattr := hr.getattr
  setattr := hr.setattr
  lookup := hr.lookup
  create := hr.create
  mkdir := hr.mkdir
  mknod := hr.mknod
  symlink := hr.symlink
  link := hr.link

namespace CallFrame

variable {P : {α : Type} → Hs α → Prop} {C : Client → Prop} (hr : CallFrame @P C)

include hr

theorem readLoop (inode : Addr) (size : Nat) (off : UInt64) (rounds : Nat) (buf : List UInt8)
    (cnt : Nat) : P (readLoop inode size off rounds buf cnt) := by
  induction rounds generalizing buf cnt with
  | zero => exact hr.throw _
  | succ rounds ih =>
      exact hr.ite (hr.get_bind fun _ ↦ hr.bind (hr.read _ _ _) fun
        | .error _ => hr.pure _
        | .ok _ => hr.ite (hr.pure _) (ih _ _)) (hr.pure _)

theorem writeLoop (inode : Addr) (buf : List UInt8) (off : UInt64) (stable : UInt32)
    (rounds cnt : Nat) : P (writeLoop inode buf off stable rounds cnt) := by
  induction rounds generalizing cnt with
  | zero => exact hr.throw _
  | succ rounds ih =>
      exact hr.ite (hr.get_bind fun _ ↦ hr.bind (hr.write _ _ _ _ _) fun
        | .error _ => hr.pure _
        | .ok _ => ih _) (hr.pure _)

end CallFrame

theorem AllocFrame.attrTimeout {P : {α : Type} → Hs α → Prop} (hr : AllocFrame @P) (p : Addr) :
    P (attrTimeout p) :=
  hr.bind (hr.load p) fun _ ↦ hr.get_bind fun _ ↦ hr.pure _

/-- A property of the handlers of plain requests that list no directory. -/
structure PlainFrame (P : {α : Type} → Hs α → Prop) : Prop extends OpFrame @P where
  reply : ∀ rep : Reply, rep.Plain → P (fuseReply rep)

namespace PlainFrame

variable {P : {α : Type} → Hs α → Prop} (hr : PlainFrame @P)

include hr

/-- A handler that looks an inode up first. -/
theorem ilookupThen {α : Type} {ino : UInt64} {f : Option Addr → Hs α} (hnone : P (f none))
    (hsome : ∀ p, P (f (some p))) : P (hsfsIlookup ino >>= f) :=
  hr.bind (hr.ilookup ino) fun
    | none => hnone
    | some p => hsome p

/-- An answer that is an error. -/
theorem err (e : Int) : P (fuseReply (.err e)) := hr.reply _ fun _ ↦ rfl

theorem hsxFuseReaddir (hread : ∀ p count cookie, P (hsiNfs3Readdir p count cookie)) (ino : UInt64)
    (size : UInt64) (off : UInt64) : P (hsxFuseReaddir ino size off) :=
  hr.ilookupThen (hr.assertThat _ _) fun _ ↦ hr.bind (hread _ _ _) fun _ ↦ hr.ite (hr.err _) <|
    hr.bind hr.malloc fun _ ↦ hr.ite (hr.reply _ fun _ ↦ rfl) (hr.err _)

theorem hsxFuseGetattr (ino : UInt64) : P (hsxFuseGetattr ino) :=
  hr.ilookupThen (hr.err _) fun _ ↦ hr.bind (hr.getattr _ _) fun _ ↦ hr.ite (hr.err _) <|
    hr.bind (hr.attrTimeout _) fun _ ↦ hr.reply _ fun _ ↦ rfl

theorem hsxFuseSetattr (ino : UInt64) (attr : Stat) (toSet : UInt32) :
    P (hsxFuseSetattr ino attr toSet) :=
  hr.ilookupThen (hr.err _) fun _ ↦ hr.bind (hr.setattr _ _) fun _ ↦ hr.ite (hr.err _) <|
    hr.bind (hr.load _) fun _ ↦ hr.bind (hr.attrTimeout _) fun _ ↦ hr.reply _ fun _ ↦ rfl

theorem hsxFuseAccess (ino : UInt64) (mask : UInt32) : P (hsxFuseAccess ino mask) :=
  hr.ilookupThen (hr.pure _) fun _ ↦ hr.bind (hr.load _) fun _ ↦ hr.bind (hr.access _ _) fun _ ↦
    hr.err _

theorem hsxFuseGetxattr (ino : UInt64) (name : Name) (size : UInt64) :
    P (hsxFuseGetxattr ino name size) := by
  unfold Hsfs.hsxFuseGetxattr
  cases aclTypeOf name with
  | none => exact hr.err _
  | some type =>
      exact hr.ilookupThen (hr.err _) fun _ ↦ hr.bind (hr.getxattr _ _ _) fun
        | .error _ => hr.err _
        | .ok _ => hr.bind hr.malloc fun _ ↦ hr.ite (hr.err _) <|
            hr.ite (hr.reply _ fun _ ↦ rfl) <| hr.ite (hr.err _) (hr.reply _ fun _ ↦ rfl)

theorem hsxFuseSetxattr (ino : UInt64) (name : Name) (value : List UInt8) :
    P (hsxFuseSetxattr ino name value) := by
  refine hr.ilookupThen (hr.err _) fun p ↦ ?_
  cases aclTypeOf name with
  | none => exact hr.err _
  | some type =>
      exact hr.bind (hr.setxattr _ _ _) fun _ ↦ hr.bind (hr.err _) fun _ ↦ hr.err _

theorem hsxFuseRead (rounds : Nat) (ino : UInt64) (size : UInt64) (off : UInt64) :
    P (hsxFuseRead rounds ino size off) :=
  hr.bind hr.malloc fun _ ↦ hr.ite (hr.ilookupThen (hr.err _) fun _ ↦
    hr.bind (hr.readLoop _ _ _ _ _ _) fun
    | .error _ => hr.err _
    | .ok _ => hr.reply _ fun _ ↦ rfl) (hr.err _)

theorem hsxFuseWrite (rounds : Nat) (ino : UInt64) (buf : List UInt8) (off : UInt64)
    (directIo : Bool) : P (hsxFuseWrite rounds ino buf off directIo) :=
  hr.bind hr.malloc fun _ ↦ hr.ite (hr.ilookupThen (hr.err _) fun _ ↦
    hr.bind (hr.writeLoop _ _ _ _ _ _) fun
    | .error _ => hr.err _
    | .ok _ => hr.reply _ fun _ ↦ rfl) (hr.err _)

theorem hsxFuseReadlink (ino : UInt64) : P (hsxFuseReadlink ino) :=
  hr.ilookupThen (hr.pure _) fun _ ↦ hr.bind (hr.readlink _) fun _ ↦
    hr.ite (hr.err _) (hr.reply _ fun _ ↦ rfl)

theorem hsxFuseRmdir (parent : UInt64) (name : Name) : P (hsxFuseRmdir parent name) :=
  hr.ilookupThen (hr.pure _) fun _ ↦ hr.bind (hr.rmdir _ _) fun _ ↦ hr.err _

theorem hsxFuseUnlink (parent : UInt64) (name : Name) : P (hsxFuseUnlink parent name) :=
  hr.ite (hr.err _) <| hr.ite (hr.err _) <| hr.ilookupThen (hr.err _) fun _ ↦
    hr.bind (hr.unlink _ _) fun _ ↦ hr.err _

theorem hsxFuseRename (parent : UInt64) (name : Name) (newparent : UInt64) (newname : Name) :
    P (hsxFuseRename parent name newparent newname) :=
  hr.ite (hr.err _) <| hr.ite (hr.err _) <| hr.ite (hr.err _) <| hr.ite (hr.err _) <|
    hr.ilookupThen (hr.err _) fun _ ↦ hr.ilookupThen (hr.err _) fun _ ↦
      hr.bind (hr.rename _ _ _ _) fun _ ↦ hr.err _

theorem hsxFuseStatfs : P hsxFuseStatfs := by
  refine hr.get_bind fun _ ↦ hr.bind (hr.derefSb _) fun _ ↦ hr.bind (hr.statfs _) fun _ ↦
    hr.ite (hr.err _) <| hr.get_bind fun d ↦ ?_
  cases hsiSuper2statvfs d.sb with
  | none => exact hr.err _
  | some stbuf => exact hr.reply _ fun _ ↦ rfl

/-- **The handlers of plain requests that list no directory.** -/
theorem handle (rounds : Nat) {req : Request} (hreq : req.plain = true)
    (hlists : req.lists = false) :
    P (req.handle rounds) := by
  cases req with
  | getattr ino => exact hr.hsxFuseGetattr ino
  | statfs => exact hr.hsxFuseStatfs
  | «open» => exact hr.bind hr.malloc fun _ ↦ hr.ite (hr.reply _ fun _ ↦ rfl) (hr.err _)
  | release => exact hr.err _
  | read ino size off => exact hr.hsxFuseRead rounds ino size.toUInt64 off
  | write ino buf off directIo => exact hr.hsxFuseWrite rounds ino buf off directIo
  | setattr ino attr toSet => exact hr.hsxFuseSetattr ino attr toSet
  | rmdir parent name => exact hr.hsxFuseRmdir parent name
  | unlink parent name => exact hr.hsxFuseUnlink parent name
  | readlink ino => exact hr.hsxFuseReadlink ino
  | rename parent name newparent newname => exact hr.hsxFuseRename parent name newparent newname
  | readdir ino size off => exact nomatch hlists
  | opendir ino => exact hr.ilookupThen (hr.err _) fun _ ↦ hr.reply _ fun _ ↦ rfl
  | access ino mask => exact hr.hsxFuseAccess ino mask
  | getxattr ino name size => exact hr.hsxFuseGetxattr ino name size.toUInt64
  | setxattr ino name value => exact hr.hsxFuseSetxattr ino name value
  | _ => exact nomatch hreq

end PlainFrame

/-- The requests whose handlers put inodes. -/
def Request.puts : Request → Bool
  | .forget _ _ | .readdirplus _ _ _ => true
  | _ => false

/-- The request whose handler overwrites the owner of an inode. -/
def Request.setsOwner : Request → Bool
  | .create _ _ _ _ _ _ => true
  | _ => false

/-- A property of the functions that count lookups. -/
structure TouchFrame (P : {α : Type} → Hs α → Prop) : Prop extends AllocFrame @P where
  touch : ∀ p, P (touch p)
  priv : ∀ p (f : UInt64 → UInt64), P (update p fun i ↦ { i with priv := f i.priv })

/-- A property of the handlers that list no directory, put no inode and set no owner. -/
structure CountFrame (P : {α : Type} → Hs α → Prop) : Prop extends PlainFrame @P,
    TouchFrame @P where
  answer : ∀ rep : Reply, P (fuseReply rep)

/-- A property of the handlers that list no directory and put no inode. -/
structure EntryFrame (P : {α : Type} → Hs α → Prop) : Prop extends CountFrame @P where
  owner : ∀ p uid gid,
    P (update p fun i ↦ { i with iattr := { i.iattr with uid := uid, gid := gid } })

/-- A property of the handlers that list no directory and set no owner. -/
structure PutFrame (P : {α : Type} → Hs α → Prop) : Prop extends CountFrame @P where
  iput : ∀ p, P (hsfsIput p)

/-- A property of the handlers that list no directory. -/
structure UnlistedFrame (P : {α : Type} → Hs α → Prop) : Prop
    extends EntryFrame @P, PutFrame @P

/-- A property of all handlers. -/
structure HandlerFrame (P : {α : Type} → Hs α → Prop) : Prop extends UnlistedFrame @P where
  readdir : ∀ p count cookie, P (hsiNfs3Readdir p count cookie)
  readdirPlus : ∀ p count cookie maxcount, P (hsiNfs3ReaddirPlus p count cookie maxcount)

namespace TouchFrame

variable {P : {α : Type} → Hs α → Prop} (hr : TouchFrame @P)

include hr

theorem refXchg (p : Addr) (val : UInt64) : P (hsxFuseRefXchg p val) :=
  hr.bind (hr.touch p) fun _ ↦ hr.bind (hr.load p) fun _ ↦
    hr.map (hr.priv p fun _ ↦ val)

theorem refInc (p : Addr) (val : UInt64) : P (hsxFuseRefInc p val) :=
  hr.bind (hr.touch p) fun _ ↦ hr.bind (hr.load p) fun _ ↦
    hr.map (hr.priv p fun n ↦ n + val)

theorem refDec (p : Addr) (val : UInt64) : P (hsxFuseRefDec p val) :=
  hr.bind (hr.touch p) fun _ ↦ hr.bind (hr.load p) fun _ ↦ hr.bind (hr.assertThat _ _) fun _ ↦
    hr.map (hr.priv p fun n ↦ n - val)

theorem fillReply (p : Addr) : P (hsxFuseFillReply p) :=
  hr.bind (hr.touch p) fun _ ↦ hr.bind (hr.load p) fun _ ↦ hr.bind (hr.derefSb p) fun _ ↦
    hr.get_bind fun _ ↦ hr.pure _

theorem addDirentsPlus (size : Nat) (ctx : List ReaddirCtx) (len : Nat) :
    P (addDirentsPlus size ctx len) := by
  induction ctx generalizing len with
  | nil => exact hr.pure _
  | cons c ctx ih =>
      exact hr.bind (hr.fillReply _) fun _ ↦ hr.ite (hr.pure _) <|
        hr.bind (hr.refInc _ _) fun _ ↦ hr.map (ih _)

end TouchFrame

namespace CountFrame

variable {P : {α : Type} → Hs α → Prop} (hr : CountFrame @P)

include hr

theorem replyNew (rep : EntryParam → Reply) (err : Int) (new : Addr) :
    P (replyNew rep err new) :=
  hr.ite (hr.err _) <| hr.ite (hr.err _) <| hr.bind (hr.refXchg _ _) fun _ ↦
    hr.bind (hr.assertThat _ _) fun _ ↦ hr.bind (hr.fillReply _) fun _ ↦ hr.answer _

theorem hsxFuseLookup (ino : UInt64) (name : Name) : P (hsxFuseLookup ino name) :=
  hr.ilookupThen (hr.err _) fun _ ↦ hr.bind (hr.lookup _ _) fun _ ↦ hr.ite (hr.err _) <|
    hr.ite (hr.err _) <| hr.bind (hr.refInc _ _) fun _ ↦ hr.bind (hr.fillReply _) fun _ ↦
      hr.answer _

theorem hsxFuseLink (ino newparent : UInt64) (newname : Name) :
    P (hsxFuseLink ino newparent newname) :=
  hr.ilookupThen (hr.pure _) fun _ ↦ hr.ilookupThen (hr.pure _) fun _ ↦
    hr.bind (hr.link _ _ _) fun _ ↦ hr.ite (hr.err _) <| hr.bind hr.malloc fun _ ↦
      hr.ite (hr.bind (hr.fillReply _) fun _ ↦ hr.answer _) (hr.err _)

theorem hsxFuseReaddirPlus
    (hread : ∀ p count cookie maxcount, P (hsiNfs3ReaddirPlus p count cookie maxcount))
    (ino : UInt64)
    (size : UInt64) (off : UInt64) : P (hsxFuseReaddirPlus ino size off) :=
  hr.ilookupThen (hr.assertThat _ _) fun _ ↦ hr.bind (hread _ _ _ _) fun _ ↦
    hr.ite (hr.err _) <| hr.bind hr.malloc fun _ ↦
      hr.ite (hr.bind (hr.addDirentsPlus _ _ _) fun _ ↦ hr.answer _) (hr.err _)

/-- The handlers that list no directory, put no inode and set no owner. -/
theorem handle (rounds : Nat) {req : Request} (hputs : req.puts = false)
    (howner : req.setsOwner = false) (hlists : req.lists = false) : P (req.handle rounds) := by
  cases req with
  | init =>
      exact hr.get_bind fun _ ↦ hr.bind (hr.refXchg _ _) fun _ ↦ hr.assertThat _ _
  | lookup parent name => exact hr.hsxFuseLookup parent name
  | mkdir parent name mode =>
      exact hr.ilookupThen (hr.pure _) fun _ ↦ hr.bind (hr.mkdir _ _ _) fun _ ↦ hr.replyNew _ _ _
  | symlink target parent name =>
      exact hr.ilookupThen (hr.err _) fun _ ↦ hr.bind (hr.symlink _ _ _) fun _ ↦ hr.replyNew _ _ _
  | mknod parent name mode rdev =>
      exact hr.ilookupThen (hr.err _) fun _ ↦ hr.bind (hr.mknod _ _ _ _) fun _ ↦ hr.replyNew _ _ _
  | link ino newparent newname => exact hr.hsxFuseLink ino newparent newname
  | create parent name mode flags uid gid => exact nomatch howner
  | forget ino nlookup => exact nomatch hputs
  | readdirplus ino size off => exact nomatch hputs
  | _ => exact hr.toPlainFrame.handle rounds rfl hlists

end CountFrame

namespace EntryFrame

variable {P : {α : Type} → Hs α → Prop} (hr : EntryFrame @P)

include hr

theorem hsxFuseCreate (parent : UInt64) (name : Name) (mode flags uid gid : UInt32) :
    P (hsxFuseCreate parent name mode flags uid gid) :=
  hr.ilookupThen (hr.pure _) fun _ ↦
    hr.bind (hr.owner _ _ _) fun _ ↦ hr.bind (hr.create _ _ _) fun _ ↦ hr.replyNew _ _ _

/-- **The handlers that list no directory and put no inode.** -/
theorem handle (rounds : Nat) {req : Request} (hreq : req.puts = false)
    (hlists : req.lists = false) :
    P (req.handle rounds) := by
  cases req with
  | create parent name mode flags uid gid =>
      exact hr.hsxFuseCreate parent name mode flags uid gid
  | forget ino nlookup => exact nomatch hreq
  | readdirplus ino size off => exact nomatch hreq
  | _ => exact hr.toCountFrame.handle rounds rfl rfl hlists

end EntryFrame

namespace PutFrame

variable {P : {α : Type} → Hs α → Prop} (hr : PutFrame @P)

include hr

theorem hsxFuseForget (ino nlookup : UInt64) : P (hsxFuseForget ino nlookup) :=
  hr.ilookupThen (hr.assertThat _ _) fun _ ↦ hr.bind (hr.refDec _ _) fun _ ↦
    hr.ite (hr.bind (hr.iput _) fun _ ↦ hr.answer _) (hr.answer _)

/-- **The handlers that list no directory and set no owner.** -/
theorem handle (rounds : Nat) {req : Request} (hreq : req.setsOwner = false)
    (hlists : req.lists = false) : P (req.handle rounds) := by
  cases req with
  | forget ino nlookup => exact hr.hsxFuseForget ino nlookup
  | readdirplus ino size off => exact nomatch hlists
  | create parent name mode flags uid gid => exact nomatch hreq
  | _ => exact hr.toCountFrame.handle rounds rfl rfl hlists

end PutFrame

/-- **The handlers that list no directory.** -/
theorem UnlistedFrame.handle {P : {α : Type} → Hs α → Prop} (hr : UnlistedFrame @P) (rounds : Nat)
    {req : Request} (hlists : req.lists = false) : P (req.handle rounds) := by
  cases req with
  | create parent name mode flags uid gid =>
      exact hr.hsxFuseCreate parent name mode flags uid gid
  | _ => exact hr.toPutFrame.handle rounds rfl hlists

/-- **All handlers.** -/
theorem HandlerFrame.handle {P : {α : Type} → Hs α → Prop} (hr : HandlerFrame @P)
    (rounds : Nat) (req : Request) : P (req.handle rounds) := by
  cases req with
  | readdir ino size off => exact hr.hsxFuseReaddir hr.readdir ino size.toUInt64 off
  | readdirplus ino size off => exact hr.hsxFuseReaddirPlus hr.readdirPlus ino size.toUInt64 off
  | _ => exact hr.toUnlistedFrame.handle rounds rfl

/-! ## Growth -/

/-- The cache grows, and the answers are about no object. -/
structure Plainly (d : Daemon) (es : List Event) (d' : Daemon) : Prop where
  grows : Grows d es d'
  root : d'.sb.root = d.sb.root
  replies : ∃ rs : List Reply, d'.replies = d.replies ++ rs ∧ ∀ r ∈ rs, r.Plain

namespace Plainly

theorem of_silent {d d' : Daemon} {es : List Event} (h : Grows d es d' ∧ Silent d es d') :
    Plainly d es d' :=
  ⟨h.1, h.2.root, [], by rw [h.2.replies, List.append_nil], fun _ h ↦ absurd h List.not_mem_nil⟩

theorem composes : Composes Plainly where
  nil := fun d ↦ of_silent ⟨Grows.composes.nil d, Silent.composes.nil d⟩
  append := by
    intro d d' d'' es es' h h'
    obtain ⟨rs, hrs, hplain⟩ := h.replies
    obtain ⟨rs', hrs', hplain'⟩ := h'.replies
    refine ⟨Grows.composes.append h.grows h'.grows, h'.root.trans h.root, rs ++ rs', ?_, ?_⟩
    · rw [hrs', hrs, List.append_assoc]
    · intro r hr
      exact (List.mem_append.1 hr).elim (hplain r) (hplain' r)

end Plainly

/-- A relation that holds whenever the cache grows and nothing is answered. -/
theorem HandleFrame.of_grows {r : Daemon → List Event → Daemon → Prop} (hr : Composes r)
    (h : ∀ d es d', Grows d es d' ∧ Silent d es d' → r d es d') :
    HandleFrame (Evolves r) fun _ ↦ True :=
  have of_and {α : Type} {x : Hs α} (hg : Evolves Grows x) (hs : Evolves Silent x) : Evolves r x :=
    (hg.and hs).mono h
  have hg := HandleFrame.grows
  have hs := HandleFrame.silent
  { closed := hr.closed
    malloc := of_and hg.malloc hs.malloc
    callSb := fun req hreq ↦ of_and (hg.callSb req hreq) (hs.callSb req hreq)
    freeresSb := of_and hg.freeresSb hs.freeresSb
    fhget := fun fh fattr ↦ of_and (hg.fhget fh fattr) (hs.fhget fh fattr)
    refresh := fun p fattr ↦ of_and (hg.refresh p fattr) (hs.refresh p fattr)
    setCookieVerf := fun p verf ↦ of_and (hg.setCookieVerf p verf) (hs.setCookieVerf p verf)
    super := fun f hf ↦ of_and (hg.super f hf) (hs.super f hf)
    clntp := fun _ hf ↦ .get_bind fun d ↦ hf d.sb.clntp trivial
    aclClntp := fun _ hf ↦ .get_bind fun d ↦ hf d.sb.aclClntp fun _ _ ↦ trivial
    call := fun c hc req hreq ↦ of_and (hg.call c hc req hreq) (hs.call c hc req hreq)
    list := fun c hc req hreq ↦ of_and (hg.list c hc req hreq) (hs.list c hc req hreq)
    freeres := fun c hc ↦ of_and (hg.freeres c hc) (hs.freeres c hc) }

theorem HandleFrame.plainly : HandleFrame (Evolves Plainly) fun _ ↦ True :=
  .of_grows Plainly.composes fun _ _ _ ↦ Plainly.of_silent

/-- **A plain request makes the cache grow, and is answered with no object.** -/
theorem PlainFrame.plainly : PlainFrame (Evolves Plainly) where
  toOpFrame := HandleFrame.plainly.op
  reply := fun r hr ↦ .modify fun _ ↦ ⟨fun h ↦ ⟨h.congr rfl rfl rfl rfl, .of_eq rfl rfl rfl⟩, rfl,
    [r], rfl, fun _ hr' ↦ List.mem_singleton.1 hr' ▸ hr⟩

/-- The invariant of the cache goes on to hold. -/
def KeepsCache (d : Daemon) (_ : List Event) (d' : Daemon) : Prop := d.CacheOk → d'.CacheOk

theorem KeepsCache.composes : Composes KeepsCache where
  nil := fun _ h ↦ h
  append := fun h h' hd ↦ h' (h hd)

theorem HandleFrame.keepsCache : HandleFrame (Evolves KeepsCache) fun _ ↦ True :=
  .of_grows KeepsCache.composes fun _ _ _ h hd ↦ (h.1 hd).1

/-- **The handlers that put no inode keep the invariant of the cache.** -/
theorem EntryFrame.keepsCache : EntryFrame (Evolves KeepsCache) where
  toOpFrame := HandleFrame.keepsCache.op
  reply := fun _ _ ↦ .modify fun _ h ↦ h.congr rfl rfl rfl rfl
  answer := fun _ ↦ .modify fun _ h ↦ h.congr rfl rfl rfl rfl
  touch := fun _ ↦ .modify fun _ h ↦ h.congr rfl rfl rfl rfl
  priv := fun _ _ ↦ evolves_update KeepsCache.composes fun _ _ hi h ↦
    h.setInode hi ⟨rfl, rfl, rfl, rfl, rfl⟩
  owner := fun _ _ _ ↦ evolves_update KeepsCache.composes fun _ _ hi h ↦
    h.setInode hi ⟨rfl, rfl, rfl, rfl, rfl⟩

end Hsfs
