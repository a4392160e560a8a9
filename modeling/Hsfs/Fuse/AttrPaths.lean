import Hsfs.Fuse.Identity

/-!
# From the server's attributes to `stat`

Attributes reach the kernel on two paths.  `getattr` converts the reply of the server directly, with
`hsi_nfs3_fattr2stat`; all other requests store the attributes in the inode and fill the answer from
there.

On the second path the attributes go through `hsi_nfs_fhget` or `nfs_refresh_inode`.  Both leave an
inode as it is that does not accept the attributes, and `hsi_nfs_fhget` returns it nevertheless:
what it returns depends on what the cache has seen before.
-/

namespace Hsfs

open Interact Interact.Act Daemon

/-! ## The attributes in an inode -/

/-- The attributes that an inode keeps. -/
structure CachedAttrs where
  mode : UInt32
  uid : UInt32
  gid : UInt32
  size : Int
  nlink : UInt32
  blocks : UInt64
  atime : Timespec
  mtime : Timespec
  ctime : Timespec
  deriving DecidableEq

/-- The attributes of an inode. -/
def Inode.cachedAttrs (i : Inode) : CachedAttrs :=
  ⟨i.iattr.mode, i.iattr.uid, i.iattr.gid, i.iattr.size, i.iNlink, i.iBlocks, i.iattr.atime,
    i.iattr.mtime, i.iattr.ctime⟩

/-- The attributes that an inode takes from the server. -/
def NfsFattr.cachedAttrs (fattr : NfsFattr) : CachedAttrs :=
  ⟨fattr.mode, fattr.uid, fattr.gid, nfsSizeToOffT fattr.size, fattr.nlink, fattr.blocks,
    fattr.atime, fattr.mtime, fattr.ctime⟩

@[simp] theorem Inode.cachedAttrs_setAttrs (i : Inode) (fattr : NfsFattr) :
    (i.setAttrs fattr).cachedAttrs = fattr.cachedAttrs := by
  simp only [cachedAttrs, setAttrs, NfsFattr.cachedAttrs]

@[simp] theorem cachedAttrs_newInode (sb : Super) (desc : NfsFindDesc) (id : UInt64) :
    (newInode sb desc id).cachedAttrs = desc.fattr.cachedAttrs := Inode.cachedAttrs_setAttrs _ _

/-- The attributes have been offered to an inode: to the inode of an object, by `hsi_nfs_fhget`, or
to one that is known, by `nfs_refresh_inode`.  We note the inode that was there before, and the one
that is there now. -/
inductive Daemon.Offered (d : Daemon) (fattr : NfsFattr) : Option Inode → Inode → Prop
  | fhget {fh : NfsFh} {p : Addr} {es : List Event} {d' : Daemon} {i' : Inode}
      (hx : Prog.Exec Server.record ((hsiNfsFhget fh fattr).run d) [] (.ok p, d') es)
      (hi' : d'.heap p = some i') : Offered d fattr ((d.fhLookup ⟨fh, fattr⟩).bind d.heap) i'
  | refresh {p : Addr} {i i' : Inode} {ret : Int} {d' : Daemon} (hi : d.heap p = some i)
      (hv : fattr.isValid = true) (hrun : (nfsRefreshInode p fattr).run d = .ret (.ok ret, d'))
      (hi' : d'.heap p = some i') : Offered d fattr (some i) i'

/-- What there is to see of an inode after attributes have been offered to it. -/
inductive Inode.Answers (fattr : NfsFattr) : Option Inode → Inode → Prop
  /-- They have been taken. -/
  | taken {old : Option Inode} {i' : Inode} : (∀ i ∈ old, i.accepts fattr = true) → i'.Settled →
      i'.fileid = fattr.fileid → i'.cachedAttrs = fattr.cachedAttrs → Answers fattr old i'
  /-- They have been refused. -/
  | refused {i : Inode} : i.accepts fattr = false → i.Settled → Answers fattr (some i) i

theorem Inode.Answers.of_refreshed {i : Inode} (hi : i.Settled) (fattr : NfsFattr) :
    Inode.Answers fattr (some i) (i.refreshed fattr) := by
  unfold Inode.refreshed
  split
  · next h =>
      have hfileid : i.fileid = fattr.fileid := eq_of_beq (Bool.and_eq_true_iff.1 h).1
      refine .taken ?_ (settled_setAttrs hi) hfileid (i.cachedAttrs_setAttrs fattr)
      rintro _ ⟨⟩
      exact h
  · next h => exact .refused (Bool.eq_false_iff.2 h) hi

/-- **Offered attributes are taken or refused.** -/
theorem Daemon.Offered.answers {d : Daemon} (hd : d.Settled) {fattr : NfsFattr} {old : Option Inode}
    {i' : Inode} (h : d.Offered fattr old i') : Inode.Answers fattr old i' := by
  cases h with
  | @fhget fh p es d' _ hx hi' =>
      have hgot := (hd.ends_hsiNfsFhget fh fattr).exec_ok hx
      have hbad : d.BadPtr p → d.heap p ≠ some i' := by
        intro hbad hi
        have hplace := (hd.place p i' hi).2.2
        rw [hbad.nearBad] at hplace
        exact nomatch hplace
      cases hgot with
      | unusable _ hp => exact absurd hi' (hbad hp)
      | denied _ _ hp => exact absurd hi' (hbad hp)
      | @found _ i _ hfind hi _ _ =>
          rw [d.setInode_heap_self] at hi'
          rw [hfind, Option.bind_some, hi, ← Option.some.inj hi']
          exact .of_refreshed (hd.inodes p i hi) fattr
      | @new a id _ hfind =>
          rw [insert_heap_self] at hi'
          rw [hfind, ← Option.some.inj hi']
          exact .taken (fun _ h ↦ absurd h (Option.not_mem_none _)) (Inode.settled_newInode _ _ id)
            rfl (cachedAttrs_newInode _ _ id)
  | @refresh p i _ ret d' hi hv hrun hi' =>
      obtain ⟨ret', hrun'⟩ := nfsRefreshInode_refreshed hi hv
      cases hrun.symm.trans hrun'
      rw [d.setInode_heap_self] at hi'
      rw [← Option.some.inj hi']
      exact .of_refreshed (hd.inodes p i hi) fattr

/-! ## What `hsi_nfs_fhget` returns -/

/-- The inode of the object, if there is one, has the type that the attributes say. -/
def Daemon.SameType (d : Daemon) (fh : NfsFh) (fattr : NfsFattr) : Prop :=
  ∀ i ∈ (d.fhLookup ⟨fh, fattr⟩).bind d.heap, i.iattr.mode &&& sIfmt = fattr.mode &&& sIfmt

instance (d : Daemon) (fh : NfsFh) (fattr : NfsFattr) : Decidable (d.SameType fh fattr) :=
  inferInstanceAs (Decidable (∀ i ∈ (d.fhLookup ⟨fh, fattr⟩).bind d.heap, _ = _))

/-- The inode that is returned has the attributes that were given exactly if they were not
refused. -/
theorem Daemon.Settled.fhget_attrs_iff {d d' : Daemon} (hd : d.Settled) {fh : NfsFh}
    {fattr : NfsFattr} {p : Addr} {es : List Event} {i : Inode}
    (hx : Prog.Exec Server.record ((hsiNfsFhget fh fattr).run d) [] (.ok p, d') es)
    (hi : d'.heap p = some i) : i.cachedAttrs = fattr.cachedAttrs ↔ d.SameType fh fattr := by
  have hanswers := (Offered.fhget hx hi).answers hd
  unfold SameType
  generalize hold : (d.fhLookup ⟨fh, fattr⟩).bind d.heap = old at hanswers ⊢
  cases hanswers with
  | taken hall _ _ hattrs =>
      refine iff_of_true hattrs fun j hj ↦ ?_
      exact eq_of_beq (Bool.and_eq_true_iff.1 (hall j hj)).2
  | refused hnot _ =>
      obtain ⟨q, hfind, hq⟩ := Option.bind_eq_some_iff.1 hold
      obtain ⟨-, hfileid, -⟩ := key_of_fhLookup hfind hq
      have htype : i.iattr.mode &&& sIfmt ≠ fattr.mode &&& sIfmt := by
        intro htype
        have haccepts : i.accepts fattr = true := by
          rw [Inode.accepts, beq_iff_eq.2 hfileid, beq_iff_eq.2 htype]
          rfl
        rw [hnot] at haccepts
        exact nomatch haccepts
      refine iff_of_false (fun h ↦ htype ?_) fun h ↦ htype (h i rfl)
      exact congrArg (·.mode &&& sIfmt) h

/-- **`hsi_nfs_fhget` is independent of the history of the cache if and only if the object has not
been seen with another type.** -/
theorem Session.fhget_history_free_iff {steps₁ steps₂ : List Step} {d₁ d₂ d₁' d₂' : Daemon}
    (h₁ : Session (fun _ _ ↦ True) steps₁ d₁) (h₂ : Session (fun _ _ ↦ True) steps₂ d₂)
    {fh : NfsFh} {fattr : NfsFattr} {p₁ p₂ : Addr} {es₁ es₂ : List Event} {i₁ i₂ : Inode}
    (hx₁ : Prog.Exec Server.record ((hsiNfsFhget fh fattr).run d₁) [] (.ok p₁, d₁') es₁)
    (hi₁ : d₁'.heap p₁ = some i₁)
    (hx₂ : Prog.Exec Server.record ((hsiNfsFhget fh fattr).run d₂) [] (.ok p₂, d₂') es₂)
    (hi₂ : d₂'.heap p₂ = some i₂) :
    (i₁.cachedAttrs = fattr.cachedAttrs ∧ i₂.cachedAttrs = fattr.cachedAttrs) ↔
      d₁.SameType fh fattr ∧ d₂.SameType fh fattr :=
  and_congr (h₁.settled.fhget_attrs_iff hx₁ hi₁) (h₂.settled.fhget_attrs_iff hx₂ hi₂)

/-- The inode that `hsi_nfs_fhget` returns with the answers of a table. -/
def playFhget (g : (c : Call) → Option c.Res) (fh : NfsFh) (fattr : NfsFattr) (d : Daemon) :
    Option Inode :=
  match ((hsiNfsFhget fh fattr).run d).eval (Prog.recorded g) [] with
  | some ((.ok p, d'), _) => d'.heap p
  | _ => none

theorem exec_of_playFhget {g : (c : Call) → Option c.Res} {fh : NfsFh} {fattr : NfsFattr}
    {d : Daemon} {i : Inode} (h : playFhget g fh fattr d = some i) :
    ∃ p d' es, Prog.Exec Server.record ((hsiNfsFhget fh fattr).run d) [] (.ok p, d') es ∧
      d'.heap p = some i := by
  unfold playFhget at h
  split at h
  · next heval => exact ⟨_, _, _, Prog.exec_record_of_eval heval, h⟩
  · exact nomatch h

/-- The daemon after a mount and the lookup of a file. -/
def sampleLookup : Option (List Step × Daemon) :=
  sampleMount.bind fun d ↦ playSession (fun _ _ ↦ true) sampleAnswer 0 [.init, .lookup 1 [102]] [] d

theorem session_of_sampleLookup {steps : List Step} {d : Daemon}
    (h : sampleLookup = some (steps, d)) : Session (fun _ _ ↦ True) steps d := by
  obtain ⟨d₀, hd₀, hplay⟩ := Option.bind_eq_some_iff.1 h
  exact (Session.of_play (.mounted (mounted_of_play hd₀)) hplay).mono fun _ _ _ ↦ trivial

/-- An object is looked up in two caches: in one right after the mount, and in one that has seen the
file already. -/
def playBoth (fh : NfsFh) (fattr : NfsFattr) :
    Option (Daemon × (List Step × Daemon) × Inode × Inode) :=
  sampleMount.bind fun d₁ ↦ sampleLookup.bind fun r₂ ↦
    (playFhget sampleAnswer fh fattr d₁).bind fun i₁ ↦
      (playFhget sampleAnswer fh fattr r₂.2).map fun i₂ ↦ (d₁, r₂, i₁, i₂)

theorem of_playBoth {fh : NfsFh} {fattr : NfsFattr} {d₁ d₂ : Daemon} {steps₂ : List Step}
    {i₁ i₂ : Inode} (h : playBoth fh fattr = some (d₁, (steps₂, d₂), i₁, i₂)) :
    Session (fun _ _ ↦ True) [] d₁ ∧ Session (fun _ _ ↦ True) steps₂ d₂ ∧
      playFhget sampleAnswer fh fattr d₁ = some i₁ ∧
      playFhget sampleAnswer fh fattr d₂ = some i₂ := by
  obtain ⟨d₁', hd₁, hplay⟩ := Option.bind_eq_some_iff.1 h
  obtain ⟨r₂, hd₂, hplay⟩ := Option.bind_eq_some_iff.1 hplay
  obtain ⟨i₁', hi₁, hplay⟩ := Option.bind_eq_some_iff.1 hplay
  obtain ⟨i₂', hi₂, heq⟩ := Option.map_eq_some_iff.1 hplay
  cases heq
  exact ⟨.mounted (mounted_of_play hd₁), session_of_sampleLookup hd₂, hi₁, hi₂⟩

/-- A file, new in one cache and known in the other. -/
theorem Session.fhget_history_free_iff_file :
    ∃ steps₁ d₁ steps₂ d₂ fh fattr i₁ i₂, Session (fun _ _ ↦ True) steps₁ d₁ ∧
      Session (fun _ _ ↦ True) steps₂ d₂ ∧ playFhget sampleAnswer fh fattr d₁ = some i₁ ∧
      playFhget sampleAnswer fh fattr d₂ = some i₂ ∧ i₁.cachedAttrs = fattr.cachedAttrs ∧
      i₂.cachedAttrs = fattr.cachedAttrs := by
  let fh : NfsFh := ⟨[2], by decide⟩
  let fattr := hsiNfs3Fattr2fattr { sampleFile 2 with mode := 0o600 } .fresh
  have hplay : (playBoth fh fattr).any (fun r ↦
      decide (r.1.SameType fh fattr ∧ r.2.1.2.SameType fh fattr)) = true := by decide +kernel
  obtain ⟨⟨d₁, ⟨steps₂, d₂⟩, i₁, i₂⟩, hplay, hsame⟩ := (Option.any_eq_true _ _).1 hplay
  obtain ⟨h₁, h₂, hi₁, hi₂⟩ := of_playBoth hplay
  obtain ⟨_, _, _, hx₁, hp₁⟩ := exec_of_playFhget hi₁
  obtain ⟨_, _, _, hx₂, hp₂⟩ := exec_of_playFhget hi₂
  exact ⟨[], d₁, steps₂, d₂, fh, fattr, i₁, i₂, h₁, h₂, hi₁, hi₂,
    (Session.fhget_history_free_iff h₁ h₂ hx₁ hp₁ hx₂ hp₂).2 (of_decide_eq_true hsame)⟩

/-- A file that has become a directory: the cache that knows the file returns the file. -/
theorem Session.not_fhget_history_free :
    ¬ ∀ steps₁ d₁ steps₂ d₂ fh (fattr : NfsFattr) p₁ es₁ d₁' i₁ p₂ es₂ d₂' i₂,
      Session (fun _ _ ↦ True) steps₁ d₁ → Session (fun _ _ ↦ True) steps₂ d₂ → fattr.Usable →
      Prog.Exec Server.record ((hsiNfsFhget fh fattr).run d₁) [] (.ok p₁, d₁') es₁ →
      d₁'.heap p₁ = some i₁ →
      Prog.Exec Server.record ((hsiNfsFhget fh fattr).run d₂) [] (.ok p₂, d₂') es₂ →
      d₂'.heap p₂ = some i₂ → i₁.cachedAttrs = i₂.cachedAttrs := by
  intro h
  let fh : NfsFh := ⟨[2], by decide⟩
  let fattr := hsiNfs3Fattr2fattr (sampleDir 2) .fresh
  have hplay : (playBoth fh fattr).any (fun r ↦
      decide (r.2.2.1.cachedAttrs ≠ r.2.2.2.cachedAttrs)) = true := by decide +kernel
  obtain ⟨⟨d₁, ⟨steps₂, d₂⟩, i₁, i₂⟩, hplay, hne⟩ := (Option.any_eq_true _ _).1 hplay
  obtain ⟨h₁, h₂, hi₁, hi₂⟩ := of_playBoth hplay
  obtain ⟨_, _, _, hx₁, hp₁⟩ := exec_of_playFhget hi₁
  obtain ⟨_, _, _, hx₂, hp₂⟩ := exec_of_playFhget hi₂
  exact of_decide_eq_true hne (h [] d₁ steps₂ d₂ fh fattr _ _ _ _ _ _ _ _
    h₁ h₂ (by decide) hx₁ hp₁ hx₂ hp₂)

/-! ## Two paths to `stat` -/

/-- The two structures agree on all that a caller of `stat` compares. -/
structure Stat.Agree (s s' : Stat) : Prop where
  ino : s.stIno = s'.stIno
  mode : s.stMode = s'.stMode
  nlink : s.stNlink = s'.stNlink
  uid : s.stUid = s'.stUid
  gid : s.stGid = s'.stGid
  rdev : s.stRdev = s'.stRdev
  size : s.stSize = s'.stSize
  blocks : s.stBlocks = s'.stBlocks
  atime : s.stAtim = s'.stAtim
  mtime : s.stMtim = s'.stMtim
  ctime : s.stCtim = s'.stCtim

/-- Attributes of a file type that there is, with numbers that are not too large. -/
structure Fattr3.Ordinary (f : Fattr3) : Prop where
  type : 1 ≤ f.type ∧ f.type ≤ 7
  size : f.size.toNat < 2 ^ 63 - 512
  used : f.used.toNat < 2 ^ 63 - 512
  rdev : devMajor (makedev f.rdev.major f.rdev.minor) = f.rdev.major ∧
    devMinor (makedev f.rdev.major f.rdev.minor) = f.rdev.minor

/-- The attributes on which the two conversions agree: no bits in the mode but those of a file mode,
no device number, whole blocks, and nanoseconds that both conversions can guess, given what stands
in the memory of `hsi_nfs3_fattr2stat`. -/
structure Fattr3.Convertible (f : Fattr3) (st : Stat) : Prop where
  mode : f.mode &&& 0xffff0000 = 0
  rdev : f.rdev = ⟨0, 0⟩
  used : f.used % 512 = 0
  mtime : f.mtime.nseconds = f.atime.nseconds
  ctime : (f.ctime.nseconds.toNat : Int) = st.stCtim.tvNsec

/-! ### Modes -/

theorem and_or_distrib_right (x y mask : UInt32) :
    (x ||| y) &&& mask = (x &&& mask) ||| (y &&& mask) :=
  UInt32.toBitVec_inj.1 BitVec.and_or_distrib_right

/-- The format bits of a file type are the same on both paths. -/
theorem exists_statFmt {f : Fattr3} (h : f.Ordinary) :
    ∃ fmt, hsiNfs3StatFmt f.type = some fmt ∧
      nfsType2fmt (if f.type > 7 then 0 else f.type) = fmt ∧ fmt &&& sIfmt = fmt ∧
      fmt &&& 0xffff0000 = 0 := by
  have hcases : f.type = 1 ∨ f.type = 2 ∨ f.type = 3 ∨ f.type = 4 ∨ f.type = 5 ∨ f.type = 6 ∨
      f.type = 7 := by
    obtain ⟨hlo, hhi⟩ := h.type
    simp only [UInt32.le_iff_toNat_le, ← UInt32.toNat_inj] at hlo hhi ⊢
    simp only [UInt32.reduceToNat] at hlo hhi ⊢
    omega
  rcases hcases with ht | ht | ht | ht | ht | ht | ht
  all_goals
    rw [ht]
    exact ⟨_, rfl, rfl, by decide, by decide⟩

theorem mode_eq_iff {mode fmt : UInt32} (hfmt : fmt &&& 0xffff0000 = 0) :
    (mode &&& 0o7777) ||| fmt = (mode &&& ~~~sIfmt) ||| fmt ↔ mode &&& 0xffff0000 = 0 := by
  have hsplit : mode &&& ~~~sIfmt = (mode &&& 0xffff0000) ||| (mode &&& 0o7777) := by
    have hmask : ~~~sIfmt = 0xffff0000 ||| 0o7777 := by decide
    rw [hmask]
    exact UInt32.toBitVec_inj.1 BitVec.and_or_distrib_left
  constructor
  · intro h
    have hhigh := congrArg (· &&& (0xffff0000 : UInt32)) h
    simp only [and_or_distrib_right, hfmt, hsplit, UInt32.and_assoc] at hhigh
    have hlow : (0o7777 : UInt32) &&& 0xffff0000 = 0 := by decide
    simpa [hlow] using hhigh.symm
  · intro h
    rw [hsplit, h, UInt32.zero_or]

/-! ### Sizes -/

theorem size_eq {size : UInt64} (h : size.toNat < 2 ^ 63 - 512) :
    size.toBitVec.toInt = nfsSizeToOffT size := by
  have hcap : ¬ size > 2 ^ 63 - 2 := by
    have hval : (2 ^ 63 - 2 : UInt64) = 0x7ffffffffffffffe := by decide +kernel
    rw [hval, gt_iff_lt, UInt64.lt_iff_toNat_lt]
    simp only [UInt64.reduceToNat]
    omega
  have hint : size.toBitVec.toInt = size.toNat := BitVec.toInt_eq_toNat_of_lt (by
    rw [UInt64.toNat_toBitVec]
    omega)
  rw [nfsSizeToOffT, if_neg hcap, hint]

theorem blocks_eq_iff {used : UInt64} (h : used.toNat < 2 ^ 63 - 512) :
    ((used / 512).toNat : Int) = (nfsCalcBlockSize used).toNat ↔ used % 512 = 0 := by
  have hshift : ((used + 511) >>> 9).toNat = (used.toNat + 511) / 512 := by
    rw [UInt64.toNat_shiftRight, UInt64.toNat_add]
    simp only [UInt64.reduceToNat]
    rw [Nat.mod_eq_of_lt (by omega : used.toNat + 511 < 2 ^ 64), Nat.shiftRight_eq_div_pow]
  have hmod : used % 512 = 0 ↔ used.toNat % 512 = 0 := by
    rw [← UInt64.toNat_inj, UInt64.toNat_mod]
    rfl
  have hdiv : (used / 512).toNat = used.toNat / 512 := UInt64.toNat_div ..
  rw [nfsCalcBlockSize_eq, hshift, hdiv, hmod]
  omega

/-! ### The two paths -/

/-- The block count of attributes that have just been converted. -/
theorem blocks_hsiNfs3Fattr2fattr (f : Fattr3) (t : NfsFattr) :
    (hsiNfs3Fattr2fattr f t).blocks = nfsCalcBlockSize f.used := by
  have hV3 : hasBits nfsAttrFattrV3 (nfsAttrFattrV3 ||| nfsAttrFattrV4) = true := by decide
  have hvalid : hasBits (hsiNfs3Fattr2fattr f t).valid (nfsAttrFattrV3 ||| nfsAttrFattrV4) =
    true := by
    change hasBits (t.valid ||| nfsAttrFattrV3) _ = true
    rw [hasBits_or, hV3, Bool.or_true]
  exact if_pos hvalid

theorem makedev_eq_zero_iff {f : Fattr3} (hf : f.Ordinary) :
    makedev f.rdev.major f.rdev.minor = 0 ↔ f.rdev = ⟨0, 0⟩ := by
  constructor
  · intro hzero
    obtain ⟨hmajor, hminor⟩ := hf.rdev
    rw [hzero] at hmajor hminor
    have hspec : f.rdev = ⟨f.rdev.major, f.rdev.minor⟩ := rfl
    rw [hspec, ← hmajor, ← hminor]
    decide
  · intro hrdev
    rw [hrdev]
    decide

/-- An inode that has taken the attributes is shown like the attributes themselves exactly if they
are convertible. -/
theorem agree_iff_convertible {f : Fattr3} (hf : f.Ordinary) {t : NfsFattr} {i : Inode}
    (hi : i.Settled) (hfileid : i.fileid = f.fileid)
    (hattrs : i.cachedAttrs = (hsiNfs3Fattr2fattr f t).cachedAttrs) (st st' : Stat) :
    (hsiNfs3Fattr2stat f st).2.Agree (hsfsGenericFillattr i st') ↔ f.Convertible st := by
  obtain ⟨fmt, hfmt, hfmt', -, hhigh⟩ := exists_statFmt hf
  obtain ⟨hmode, huid, hgid, hsize, hnlink, hblocks, hatime, hmtime, hctime⟩ :=
    (CachedAttrs.mk.injEq ..).mp hattrs
  rw [blocks_hsiNfs3Fattr2fattr] at hblocks
  have hmode' : i.iattr.mode = (f.mode &&& ~~~sIfmt) ||| fmt := hmode.trans (by rw [← hfmt']; rfl)
  rw [hsiNfs3Fattr2stat, hfmt]
  constructor
  · intro h
    refine ⟨(mode_eq_iff hhigh).1 (h.mode.trans hmode'), ?_, ?_, ?_, ?_⟩
    · exact (makedev_eq_zero_iff hf).1 (h.rdev.trans hi.iRdev)
    · exact (blocks_eq_iff hf.used).1 (h.blocks.trans (congrArg (fun b ↦ (b.toNat : Int)) hblocks))
    · have hnsec := congrArg Timespec.tvNsec (h.mtime.trans hmtime)
      exact UInt32.toNat_inj.1 (Int.ofNat.inj hnsec).symm
    · exact (congrArg Timespec.tvNsec (h.ctime.trans hctime)).symm
  · intro h
    refine ⟨?_, ?_, ?_, huid.symm, hgid.symm, ?_, ?_, ?_, hatime.symm, ?_, ?_⟩
    · exact hfileid.symm.trans hi.realIno.symm
    · exact ((mode_eq_iff hhigh).2 h.mode).trans hmode'.symm
    · exact congrArg UInt32.toUInt64 hnlink.symm
    · exact ((makedev_eq_zero_iff hf).2 h.rdev).trans hi.iRdev.symm
    · exact (size_eq hf.size).trans hsize.symm
    · exact ((blocks_eq_iff hf.used).2 h.used).trans
        (congrArg (fun b ↦ (b.toNat : Int)) hblocks.symm)
    · refine Eq.trans ?_ hmtime.symm
      rw [← h.mtime]
      rfl
    · refine Eq.trans ?_ hctime.symm
      rw [← h.ctime]
      rfl

/-- The type of an inode that is shown like the attributes. -/
theorem Stat.Agree.accepts {f : Fattr3} (hf : f.Ordinary) {t : NfsFattr} {i : Inode}
    (hi : i.Settled) {st st' : Stat}
    (h : (hsiNfs3Fattr2stat f st).2.Agree (hsfsGenericFillattr i st')) :
    i.accepts (hsiNfs3Fattr2fattr f t) = true := by
  obtain ⟨fmt, hfmt, hfmt', hself, -⟩ := exists_statFmt hf
  rw [hsiNfs3Fattr2stat, hfmt] at h
  have hfileid : i.fileid = f.fileid := hi.realIno.symm.trans h.ino.symm
  have htype : i.iattr.mode &&& sIfmt = (hsiNfs3Fattr2fattr f t).mode &&& sIfmt := by
    have hmode : i.iattr.mode = (f.mode &&& 0o7777) ||| fmt := h.mode.symm
    have hmode' : (hsiNfs3Fattr2fattr f t).mode = (f.mode &&& ~~~sIfmt) ||| fmt := by
      rw [← hfmt']
      rfl
    have hlow : (0o7777 : UInt32) &&& sIfmt = 0 := by decide
    have hnot : ~~~sIfmt &&& sIfmt = 0 := by decide
    simp only [hmode, hmode', and_or_distrib_right, UInt32.and_assoc, hlow, hnot]
  rw [Inode.accepts, Bool.and_eq_true_iff, beq_iff_eq, beq_iff_eq]
  exact ⟨hfileid, htype⟩

/-- **The two paths to `stat` agree if and only if the inode takes the attributes and they are
convertible.** -/
theorem Session.stats_agree_iff {steps : List Step} {d : Daemon}
    (h : Session (fun _ _ ↦ True) steps d) {f : Fattr3} (hf : f.Ordinary) {t : NfsFattr}
    {old : Option Inode} {i : Inode} (hoff : d.Offered (hsiNfs3Fattr2fattr f t) old i)
    (st st' : Stat) :
    (hsiNfs3Fattr2stat f st).2.Agree (hsfsGenericFillattr i st') ↔
      (∀ j ∈ old, j.accepts (hsiNfs3Fattr2fattr f t) = true) ∧ f.Convertible st := by
  cases hoff.answers h.settled with
  | taken hall hi hfileid hattrs =>
      rw [agree_iff_convertible hf hi hfileid hattrs]
      exact (and_iff_right hall).symm
  | refused hnot hi =>
      refine iff_of_false (fun hagree ↦ ?_) fun ⟨hall, _⟩ ↦ ?_
      · have haccepts := hagree.accepts hf hi (t := t)
        rw [hnot] at haccepts
        exact nomatch haccepts
      · have haccepts := hall i rfl
        rw [hnot] at haccepts
        exact nomatch haccepts

/-- A file with whole seconds, looked up for the second time. -/
theorem Session.stats_agree_iff_file :
    ∃ steps d f i, Session (fun _ _ ↦ True) steps d ∧ f.Ordinary ∧
      playFhget sampleAnswer ⟨[2], by decide⟩ (hsiNfs3Fattr2fattr f .fresh) d = some i ∧
      (hsiNfs3Fattr2stat f default).2.Agree (hsfsGenericFillattr i default) := by
  have hplay : (sampleLookup.bind fun r ↦ (playFhget sampleAnswer ⟨[2], by decide⟩
      (hsiNfs3Fattr2fattr (sampleFile 2) .fresh) r.2).map fun i ↦ (r, i)).any (fun r ↦
        decide (∀ j ∈ (r.1.2.fhLookup ⟨⟨[2], by decide⟩,
          hsiNfs3Fattr2fattr (sampleFile 2) .fresh⟩).bind r.1.2.heap,
          j.accepts (hsiNfs3Fattr2fattr (sampleFile 2) .fresh) = true)) = true := by decide +kernel
  obtain ⟨⟨⟨steps, d⟩, i⟩, hplay, haccepts⟩ := (Option.any_eq_true _ _).1 hplay
  obtain ⟨r, hd, hplay⟩ := Option.bind_eq_some_iff.1 hplay
  obtain ⟨i', hi, heq⟩ := Option.map_eq_some_iff.1 hplay
  cases heq
  obtain ⟨p, d', es, hx, hp⟩ := exec_of_playFhget hi
  have hs := session_of_sampleLookup hd
  have hf : (sampleFile 2).Ordinary := ⟨by decide, by decide, by decide, by decide⟩
  exact ⟨steps, d, sampleFile 2, i, hs, hf, hi, (Session.stats_agree_iff hs hf (.fhget hx hp) _ _).2
    ⟨of_decide_eq_true haccepts, by decide, by decide, by decide, by decide, by decide⟩⟩

/-- A file whose size is not a multiple of the block size. -/
theorem Session.not_stats_agree :
    ¬ ∀ steps d f t old i st st', Session (fun _ _ ↦ True) steps d → Fattr3.Ordinary f →
      d.Offered (hsiNfs3Fattr2fattr f t) old i →
      (hsiNfs3Fattr2stat f st).2.Agree (hsfsGenericFillattr i st') := by
  intro h
  let f : Fattr3 := { sampleFile 2 with size := 1, used := 1 }
  have hplay : (sampleLookup.bind fun r ↦ (playFhget sampleAnswer ⟨[2], by decide⟩
      (hsiNfs3Fattr2fattr f .fresh) r.2).map fun i ↦ (r, i)).any (fun r ↦
        decide (r.2.iBlocks = 1)) = true := by decide +kernel
  obtain ⟨⟨⟨steps, d⟩, i⟩, hplay, hblocks⟩ := (Option.any_eq_true _ _).1 hplay
  obtain ⟨r, hd, hplay⟩ := Option.bind_eq_some_iff.1 hplay
  obtain ⟨i', hi, heq⟩ := Option.map_eq_some_iff.1 hplay
  cases heq
  obtain ⟨p, d', es, hx, hp⟩ := exec_of_playFhget hi
  have hf : f.Ordinary := ⟨by decide, by decide, by decide, by decide⟩
  have hagree := h steps d f .fresh _ i default default (session_of_sampleLookup hd) hf
    (.fhget hx hp)
  have hzero : (hsiNfs3Fattr2stat f default).2.stBlocks = 0 := by decide
  have hone : (hsfsGenericFillattr i default).stBlocks = 1 := by
    change (i.iBlocks.toNat : Int) = 1
    rw [of_decide_eq_true hblocks]
    rfl
  exact absurd (hzero.symm.trans (hagree.blocks.trans hone)) (by decide)

end Hsfs
