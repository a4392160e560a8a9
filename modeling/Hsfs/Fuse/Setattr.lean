import Hsfs.Fuse.Frame
import Hsfs.Nfs3.Effects

/-!
# What a request to set attributes sends

A request names the attributes it sets in a mask.  `hsx_fuse_stat2iattr` turns this mask into one of
its own, in which one bit means that a time is set and another one that it is set to a given value.
`hsi_nfs3_setattr` takes the first of these bits for "now", and tests it last.  A time that is given
is therefore never sent: the server is always asked to use its own.
-/

namespace Hsfs

open Interact Interact.Act Daemon

/-! ## What is asked for -/

/-- What a request asks for as to one of the times. -/
def wantedTime (present now : Bool) (t : Timespec) : SetTime :=
  if present then
    if now then .serverTime else .clientTime ⟨UInt32.ofInt t.tvSec, UInt32.ofInt t.tvNsec⟩
  else .dontChange

/-- What a request asks for, for an inode with the given attributes in the cache. -/
def wantedSattr (st : Stat) (toSet : UInt32) (i : Inode) : Sattr3 where
  mode := if hasBits toSet FuseSetAttr.mode then some (st.stMode &&& ~~~sIfmt) else none
  uid := if hasBits toSet FuseSetAttr.uid then some st.stUid else none
  gid := if hasBits toSet FuseSetAttr.gid then some st.stGid else none
  size := if hasBits toSet FuseSetAttr.size ∧ sIsreg i.iattr.mode ∧ st.stSize ≠ i.iattr.size then
    some (UInt64.ofInt st.stSize) else none
  atime := wantedTime (hasBits toSet FuseSetAttr.atime)
    (hasBits toSet FuseSetAttr.atimeNow) st.stAtim
  mtime := wantedTime (hasBits toSet FuseSetAttr.mtime)
    (hasBits toSet FuseSetAttr.mtimeNow) st.stMtim

/-- Every time that is to be set is to be set to the time of the server. -/
def SetsTimesToNow (toSet : UInt32) : Prop :=
  (hasBits toSet FuseSetAttr.atime = true → hasBits toSet FuseSetAttr.atimeNow = true) ∧
    (hasBits toSet FuseSetAttr.mtime = true → hasBits toSet FuseSetAttr.mtimeNow = true)

instance (toSet : UInt32) : Decidable (SetsTimesToNow toSet) := inferInstanceAs (Decidable (_ ∧ _))

/-! ## What is sent -/

/-- What `hsi_nfs3_setattr` is given for a request, and what it makes of it. -/
def sentSattr (st : Stat) (toSet : UInt32) (i : Inode) : Sattr3 :=
  let attr := hsxFuseStat2iattr st toSet default
  sattr3OfIattr { attr with valid := hsiNfsSetattrValid i attr }

/-- What the bits of `valid` say. -/
structure ValidBits (valid : UInt32) (mode uid gid size atime atimeSet mtime mtimeSet : Bool) :
    Prop where
  mode : hasBits valid HsfsAttr.mode = mode
  uid : hasBits valid HsfsAttr.uid = uid
  gid : hasBits valid HsfsAttr.gid = gid
  size : hasBits valid HsfsAttr.size = size
  atime : hasBits valid HsfsAttr.atime = atime
  atimeSet : hasBits valid HsfsAttr.atimeSet = atimeSet
  mtime : hasBits valid HsfsAttr.mtime = mtime
  mtimeSet : hasBits valid HsfsAttr.mtimeSet = mtimeSet

/-- The bits do not overlap. -/
theorem validBits_orBits (mode uid gid size atime atimeSet mtime mtimeSet : Bool) :
    ValidBits (orBits [(mode, HsfsAttr.mode), (uid, HsfsAttr.uid), (gid, HsfsAttr.gid),
      (size, HsfsAttr.size), (atime, HsfsAttr.atime), (atimeSet, HsfsAttr.atimeSet),
      (mtime, HsfsAttr.mtime), (mtimeSet, HsfsAttr.mtimeSet)])
      mode uid gid size atime atimeSet mtime mtimeSet := by
  constructor
  all_goals
    revert mode uid gid size atime atimeSet mtime mtimeSet
    decide +kernel

/-- The bits that `hsx_fuse_stat2iattr` sets. -/
theorem validBits_stat2iattr (st : Stat) (toSet : UInt32) (attr : HsfsIattr) :
    ValidBits (hsxFuseStat2iattr st toSet attr).valid (hasBits toSet FuseSetAttr.mode)
      (hasBits toSet FuseSetAttr.uid) (hasBits toSet FuseSetAttr.gid)
        (hasBits toSet FuseSetAttr.size)
      (hasBits toSet FuseSetAttr.atime)
      (hasBits toSet FuseSetAttr.atime && !hasBits toSet FuseSetAttr.atimeNow)
      (hasBits toSet FuseSetAttr.mtime)
      (hasBits toSet FuseSetAttr.mtime && !hasBits toSet FuseSetAttr.mtimeNow) := by
  rw [hsxFuseStat2iattr_eq]
  exact validBits_orBits _ _ _ _ _ _ _ _

/-- `hsi_nfs_setattr` changes nothing but the bit of the size. -/
theorem ValidBits.setattr {attr : HsfsIattr}
    {mode uid gid size atime atimeSet mtime mtimeSet : Bool}
    (h : ValidBits attr.valid mode uid gid size atime atimeSet mtime mtimeSet) (i : Inode) :
    ValidBits (hsiNfsSetattrValid i attr) mode uid gid
      (size && (sIsreg i.iattr.mode && decide (attr.size ≠ i.iattr.size))) atime atimeSet mtime
      mtimeSet where
  mode := (hasBits_hsiNfsSetattrValid_of_covers (by decide) (by decide) i attr).trans h.mode
  uid := (hasBits_hsiNfsSetattrValid_of_covers (by decide) (by decide) i attr).trans h.uid
  gid := (hasBits_hsiNfsSetattrValid_of_covers (by decide) (by decide) i attr).trans h.gid
  size := by rw [hasBits_hsiNfsSetattrValid_size, h.size]
  atime := (hasBits_hsiNfsSetattrValid_of_covers (by decide) (by decide) i attr).trans h.atime
  atimeSet := (hasBits_hsiNfsSetattrValid_of_covers (by decide) (by decide) i attr).trans h.atimeSet
  mtime := (hasBits_hsiNfsSetattrValid_of_covers (by decide) (by decide) i attr).trans h.mtime
  mtimeSet := (hasBits_hsiNfsSetattrValid_of_covers (by decide) (by decide) i attr).trans h.mtimeSet

/-- A time that is to be set is sent as "now". -/
theorem setTimeOf_stat2iattr (present now : Bool) (t : Timespec) :
    setTimeOf (present && !now) present t = if present then .serverTime else .dontChange := by
  cases present <;> rfl

/-- A value that is there if its bit is set. -/
theorem ite_some_ite {α : Type} (b : Bool) (x y : α) :
    (if b then some (if b then x else y) else none) = if b then some x else none := by
  cases b <;> rfl

/-- **What is sent is what was asked for, but for the times**: they are always those of the
server. -/
theorem sentSattr_eq (st : Stat) (toSet : UInt32) (i : Inode) :
    sentSattr st toSet i = { wantedSattr st toSet i with
      atime := if hasBits toSet FuseSetAttr.atime then .serverTime else .dontChange
      mtime := if hasBits toSet FuseSetAttr.mtime then .serverTime else .dontChange } := by
  have hattr := hsxFuseStat2iattr_eq st toSet default
  have hsent := (validBits_stat2iattr st toSet default).setattr i
  unfold sentSattr sattr3OfIattr wantedSattr
  generalize hsxFuseStat2iattr st toSet default = attr at hattr hsent ⊢
  simp only [hsent.mode, hsent.uid, hsent.gid, hsent.size, hsent.atime, hsent.atimeSet, hsent.mtime,
    hsent.mtimeSet, setTimeOf_stat2iattr]
  simp only [hattr, ite_some_ite]
  cases hasBits toSet FuseSetAttr.size with
  | false => simp
  | true => simp

/-- What is sent is what was asked for exactly if no time is given. -/
theorem sentSattr_eq_iff (st : Stat) (toSet : UInt32) (i : Inode) :
    sentSattr st toSet i = wantedSattr st toSet i ↔ SetsTimesToNow toSet := by
  have htime (present now : Bool) (t : Timespec) :
      (if present then SetTime.serverTime else .dontChange) = wantedTime present now t ↔
        (present = true → now = true) := by
    cases present <;> cases now <;> simp [wantedTime]
  rw [sentSattr_eq, SetsTimesToNow, ← htime _ _ st.stAtim, ← htime _ _ st.stMtim]
  simp only [wantedSattr, Sattr3.mk.injEq, true_and]

/-! ## The handler -/

section handler

variable {Q : Rpc → Prop}

/-- Without a call, nothing is asked. -/
theorem OnlyAsks.update (p : Addr) (f : Inode → Inode) : Evolves (OnlyAsks Q) (update p f) :=
  evolves_update (composes Q) fun _ _ _ ↦ of_nil rfl

theorem AllocFrame.onlyAsks (Q : Rpc → Prop) : AllocFrame (Evolves (OnlyAsks Q)) where
  closed := (OnlyAsks.composes Q).closed
  malloc := .ask fun _ _ ↦ .of_nil rfl

variable {d : Daemon} {p : Addr} {i : Inode}

/-- **`hsi_nfs3_setattr`** asks for what it makes of the attributes. -/
theorem ends_setattr_asks (hi : d.heap p = some i) (fattr : NfsFattr) (attr : HsfsIattr)
    (hQ : Q (.setattr i.fh (sattr3OfIattr attr))) :
    Ends (fun es _ d' ↦ OnlyAsks Q d es d') (fun es _ d' ↦ OnlyAsks Q d es d')
      (hsiNfs3Setattr p fattr attr) d := by
  have hr := AllocFrame.onlyAsks Q
  have hfree (c : Client) : Evolves (OnlyAsks Q) (clntFreeres c) := .modify fun _ ↦ .of_nil rfl
  refine .ret_bind (x := sbClntp) rfl (.ret_bind (getfh3_run hi) (.of_evolves ?_ d))
  exact hr.bind (OnlyAsks.call hQ _) fun
    | .error _ => hr.pure _
    | .ok (.fail _) => hr.map (hfree _)
    | .ok (.ok _) => hr.map (hfree _)

/-- First something that asks only for `Q`, and then something that does so from any state. -/
theorem ends_asks_bind {α β : Type} {x : Hs α} {f : α → Hs β}
    (hx : Ends (fun es _ d' ↦ OnlyAsks Q d es d') (fun es _ d' ↦ OnlyAsks Q d es d') x d)
    (hf : ∀ a, Evolves (OnlyAsks Q) (f a)) :
    Ends (fun es _ d' ↦ OnlyAsks Q d es d') (fun es _ d' ↦ OnlyAsks Q d es d') (x >>= f) d :=
  hx.bind (fun _ a d' h ↦ (Ends.of_evolves (hf a) d').mono
    (fun _ _ _ h' ↦ (OnlyAsks.composes Q).append h h')
    fun _ _ _ h' ↦ (OnlyAsks.composes Q).append h h') fun _ _ _ h ↦ h

/-- **`hsx_fuse_setattr`** asks for nothing else. -/
theorem ends_hsxFuseSetattr_asks {ino : UInt64} (hfound : d.ilookup ino = some p)
    (hi : d.heap p = some i) (st : Stat) (toSet : UInt32)
    (hQ : Q (.setattr i.fh (sentSattr st toSet i))) :
    Ends (fun es _ d' ↦ OnlyAsks Q d es d') (fun es _ d' ↦ OnlyAsks Q d es d')
      (hsxFuseSetattr ino st toSet) d := by
  have hr := AllocFrame.onlyAsks Q
  have hreply (rep : Reply) : Evolves (OnlyAsks Q) (fuseReply rep) := .modify fun _ ↦ .of_nil rfl
  have hrefresh (fattr : NfsFattr) : Evolves (OnlyAsks Q) (nfsRefreshInode p fattr) :=
    hr.ite (hr.bind (hr.load p) fun _ ↦ hr.ite
      (hr.map (OnlyAsks.update p _)) (hr.pure _)) (hr.pure _)
  refine .ret_bind (hsfsIlookup_run hfound hi) (ends_asks_bind ?_ fun err ↦ ?_)
  · refine .ret_bind (load_run hi) ?_
    dsimp only
    split
    · exact .pure (.of_nil rfl)
    · refine .ret_bind (derefSb_run hi) (ends_asks_bind (ends_setattr_asks hi default _ hQ) ?_)
      rintro ⟨error, fattr⟩
      exact hr.ite (hr.map (hrefresh fattr)) (hr.pure _)
  · exact hr.ite (hreply _) <| hr.bind (hr.load p) fun _ ↦ hr.bind (hr.attrTimeout p) fun _ ↦
      hreply _

end handler

/-- **A request to set attributes sends what was asked for if and only if it gives no time.** -/
theorem setattr_sends_iff {d : Daemon} {ino : UInt64} {p : Addr} {i : Inode}
    (hfound : d.ilookup ino = some p) (hi : d.heap p = some i) (st : Stat) (toSet : UInt32)
    {out : Except Fault Unit} {d' : Daemon} {es : List Event}
    (hx : Prog.Exec Server.record ((hsxFuseSetattr ino st toSet).run d) [] (out, d') es)
    (hissued : asked es ≠ []) :
    (∀ req ∈ asked es, req = .setattr i.fh (wantedSattr st toSet i)) ↔ SetsTimesToNow toSet := by
  have hends := ends_hsxFuseSetattr_asks (Q :=
    (· = .setattr i.fh (sentSattr st toSet i))) hfound hi st
    toSet rfl
  have hsent : ∀ req ∈ asked es, req = .setattr i.fh (sentSattr st toSet i) := by
    cases out with
    | ok a => exact hends.exec_ok hx
    | error e => exact hends.exec_error hx
  rw [← sentSattr_eq_iff st toSet i]
  constructor
  · intro hwanted
    obtain ⟨req, hreq⟩ := List.exists_mem_of_ne_nil _ hissued
    exact (Rpc.setattr.inj ((hsent req hreq).symm.trans (hwanted req hreq))).2
  · intro heq req hreq
    rw [hsent req hreq, heq]

/-- The attributes of the root are set, on a server that does so. -/
def sampleSetattr (st : Stat) (toSet : UInt32) :
    Option (Daemon × Addr × Inode × (Except Fault Unit × Daemon) × List Event) :=
  sampleMount.bind fun d ↦ (d.ilookup 1).bind fun p ↦ (d.heap p).bind fun i ↦
    (((hsxFuseSetattr 1 st toSet).run d).eval
      (Prog.recorded (Change.setattrAnswer (some (sampleDir 1)))) []).map fun r ↦ (d, p, i, r)

theorem of_sampleSetattr {st : Stat} {toSet : UInt32} {d d' : Daemon} {p : Addr} {i : Inode}
    {out : Except Fault Unit} {es : List Event}
    (h : sampleSetattr st toSet = some (d, p, i, (out, d'), es)) :
    d.ilookup 1 = some p ∧ d.heap p = some i ∧
      Prog.Exec Server.record ((hsxFuseSetattr 1 st toSet).run d) [] (out, d') es := by
  obtain ⟨hp, hi, heval⟩ := of_playAtRoot h
  exact ⟨hp, hi, Prog.exec_record_of_eval heval⟩

/-- The mode is set, and the time of the last access to that of the server. -/
theorem setattr_sends_iff_now : ∃ d p i out d' es, d.ilookup 1 = some p ∧ d.heap p = some i ∧
    Prog.Exec Server.record ((hsxFuseSetattr 1 default
      (FuseSetAttr.mode ||| FuseSetAttr.atime ||| FuseSetAttr.atimeNow)).run d) [] (out, d') es ∧
    asked es ≠ [] ∧ ∀ req ∈ asked es, req = .setattr i.fh (wantedSattr default
      (FuseSetAttr.mode ||| FuseSetAttr.atime ||| FuseSetAttr.atimeNow) i) := by
  have hplay : (sampleSetattr default
      (FuseSetAttr.mode ||| FuseSetAttr.atime ||| FuseSetAttr.atimeNow)).any
        (fun q ↦ asked q.2.2.2.2 ≠ []) = true := by decide +kernel
  obtain ⟨⟨d, p, i, ⟨out, d'⟩, es⟩, hplay, hissued⟩ := (Option.any_eq_true _ _).1 hplay
  obtain ⟨hfound, hi, hx⟩ := of_sampleSetattr hplay
  have hissued := of_decide_eq_true hissued
  exact ⟨d, p, i, out, d', es, hfound, hi, hx, hissued,
    (setattr_sends_iff hfound hi _ _ hx hissued).2 (by decide)⟩

/-- The time of the last access is to be set to five seconds, and is not. -/
theorem not_setattr_sends : ¬ ∀ (d d' : Daemon) (ino : UInt64) (p : Addr) (i : Inode) (st : Stat)
    (toSet : UInt32) (out : Except Fault Unit) (es : List Event),
    d.ilookup ino = some p → d.heap p = some i →
    (0 ≤ st.stAtim.tvSec ∧ st.stAtim.tvSec < 2 ^ 32) →
    (0 ≤ st.stMtim.tvSec ∧ st.stMtim.tvSec < 2 ^ 32) →
    Prog.Exec Server.record ((hsxFuseSetattr ino st toSet).run d) [] (out, d') es → asked es ≠ [] →
    ∀ req ∈ asked es, req = .setattr i.fh (wantedSattr st toSet i) := by
  intro h
  have hplay : (sampleSetattr { (default : Stat) with stAtim := ⟨5, 0⟩ } FuseSetAttr.atime).any
      (fun q ↦ (asked q.2.2.2.2).any fun req ↦ req != .setattr q.2.2.1.fh
        (wantedSattr { (default : Stat) with stAtim := ⟨5, 0⟩ } FuseSetAttr.atime q.2.2.1)) =
          true := by
    decide +kernel
  obtain ⟨⟨d, p, i, ⟨out, d'⟩, es⟩, hplay, hother⟩ := (Option.any_eq_true _ _).1 hplay
  obtain ⟨hfound, hi, hx⟩ := of_sampleSetattr hplay
  obtain ⟨req, hreq, hne⟩ := List.any_eq_true.1 hother
  exact bne_iff_ne.1 hne (h d d' 1 p i _ _ out es hfound hi (by decide) (by decide) hx
    (List.ne_nil_of_mem hreq) req hreq)

end Hsfs
