import Hsfs.Nfs3.AclCodec
import Hsfs.Nfs3.AclReports

/-!
# The sizes of attributes

The kernel asks for an attribute twice: with size zero for its length, and then with a buffer of
that length.  `xattrAnswer` says what it should be told.  `hsx_fuse_getxattr` leaves both to
`posix_acl_to_xattr`, which takes a missing buffer for the question for the length; but the buffer
of length zero that `hsx_fuse_getxattr` has allocated need not be missing.
-/

namespace Hsfs

open Interact Interact.Act

/-! ## What the kernel should be told -/

/-- What the kernel should be told when it asks for a list with a buffer of `size` bytes. -/
def xattrAnswer (acl : PosixAcl) (size : Nat) : Reply :=
  if size = 0 then .xattr (4 + 8 * acl.length)
  else if 4 + 8 * acl.length ≤ size then .buf (aclXattr (acl.map PosixAclEntry.encoded))
  else .err Errno.range

/-- **The length that is told is one that is enough.** -/
theorem xattrAnswer_fetch {acl : PosixAcl} {n : Int} (h : xattrAnswer acl 0 = .xattr n) :
    ∃ data, xattrAnswer acl n.toNat = .buf data ∧ (data.length : Int) = n := by
  obtain rfl : (4 + 8 * acl.length : Int) = n := Reply.xattr.inj h
  have hsize : (4 + 8 * acl.length : Int).toNat = 4 + 8 * acl.length := by omega
  refine ⟨aclXattr (acl.map PosixAclEntry.encoded), ?_, ?_⟩
  · rw [hsize, xattrAnswer, if_neg (by omega), if_pos le_rfl]
  · rw [length_aclXattr, List.length_map, posixAclXattrSize]
    omega

theorem xattrAnswer_ne_nomem (acl : PosixAcl) (size : Nat) :
    xattrAnswer acl size ≠ .err Errno.nomem := by
  unfold xattrAnswer
  split
  · exact Reply.noConfusion
  · split
    · exact Reply.noConfusion
    · exact fun h ↦ absurd (Reply.err.inj h) (by decide)

/-! ## What it is told -/

/-- What `hsx_fuse_getxattr` replies once it has the list and has asked for a buffer. -/
def bufferReply (acl : PosixAcl) (buf : Bool) (size : UInt64) : Reply :=
  if !buf ∧ size ≠ 0 then .err Errno.nomem
  else if size = 0 then .xattr (posixAclToXattr acl buf size.toNat).1
  else if (posixAclToXattr acl buf size.toNat).1 = Errno.range then .err Errno.range
  else .buf (posixAclToXattr acl buf size.toNat).2

/-- The length of a list is no error number. -/
theorem posixAclXattrSize_ne_range (count : Nat) :
    (posixAclXattrSize count : Int) ≠ Errno.range := by
  rw [posixAclXattrSize, Errno.range]
  omega

theorem bufferReply_eq_iff (acl : PosixAcl) (buf : Bool) (size : UInt64) :
    bufferReply acl buf size = xattrAnswer acl size.toNat ↔ buf = decide (size ≠ 0) := by
  have hlength : posixAclXattrSize acl.length = 4 + 8 * acl.length := by
    rw [posixAclXattrSize, Nat.mul_comm]
  unfold bufferReply
  by_cases hsize : size = 0
  · have hzero : size.toNat = 0 := by
      rw [hsize]
      rfl
    rw [if_neg (fun h ↦ h.2 hsize), if_pos hsize, hzero, xattrAnswer, if_pos rfl,
      decide_eq_false (fun h ↦ h hsize)]
    cases buf with
    | false =>
        refine iff_of_true (congrArg Reply.xattr ?_) rfl
        change (posixAclXattrSize acl.length : Int) = _
        rw [hlength]
        rfl
    | true =>
        -- a buffer of length zero is too short for any list
        have hrange : (posixAclToXattr acl true 0).1 = Errno.range := by
          rw [posixAclToXattr, if_neg (by decide), if_pos (by omega)]
        refine iff_of_false (fun h ↦ posixAclXattrSize_ne_range acl.length ?_) (by decide)
        rw [← hrange, Reply.xattr.inj h, hlength]
        rfl
  · have hpos : size.toNat ≠ 0 := fun h ↦ hsize (UInt64.toNat_inj.1 h)
    rw [decide_eq_true hsize]
    cases buf with
    | false =>
        rw [if_pos ⟨rfl, hsize⟩]
        exact iff_of_false (xattrAnswer_ne_nomem _ _).symm Bool.false_ne_true
    | true =>
        rw [if_neg (by simp), if_neg hsize, xattrAnswer, if_neg hpos, ← hlength]
        refine iff_of_true ?_ rfl
        by_cases hfits : posixAclXattrSize acl.length ≤ size.toNat
        · rw [posixAclToXattr_eq hfits, if_neg (posixAclXattrSize_ne_range _), if_pos hfits]
        · have hrange : posixAclToXattr acl true size.toNat = (Errno.range, []) :=
            if_pos (Nat.lt_of_not_le hfits)
          rw [hrange, if_pos rfl, if_neg hfits]

/-- What is told about a list that the server has sent. -/
def ListTold (type : AclType) (size : UInt64) (d : Daemon) (es : List Event) (d' : Daemon) : Prop :=
  ∀ acl, picked getaclReply es = [acl] →
    allocations es = [false] ∧ d'.replies = d.replies ++ [.err Errno.nomem] ∨
    ∃ buf, allocations es = [true, buf] ∧
      d'.replies = d.replies ++ [bufferReply (acl.listOf type) buf size]

/-- **`hsx_fuse_getxattr`** tells of a list as `bufferReply` does, if there is memory for it. -/
theorem ends_hsxFuseGetxattr {name : Name} {type : AclType} (htype : aclTypeOf name = some type)
    (ino size : UInt64) (d : Daemon) :
    Ends (fun es _ d' ↦ ListTold type size d es d') (fun _ _ _ ↦ True)
      (hsxFuseGetxattr ino name size) d := by
  have hnone (es : List Event) (hes : picked getaclReply es = []) (r : Reply) {d₁ : Daemon} :
      Ends (fun es' _ d' ↦ ListTold type size d (es ++ es') d') (fun _ _ _ ↦ True)
        (fuseReply r) d₁ := by
    refine .of_ret rfl fun acl hacl ↦ ?_
    rw [List.append_nil, hes] at hacl
    cases hacl
  unfold hsxFuseGetxattr
  rw [htype]
  rcases d.hsfsIlookup_cases ino with ⟨-, hrun⟩ | ⟨p, i, -, hi, hrun⟩ | ⟨p, -, -, hrun⟩
  · exact .ret_bind hrun (hnone [] rfl _)
  · refine .ret_bind hrun ((ends_hsiNfs3Getxattr hi _ type).bind ?_ fun _ _ _ h ↦ h)
    rintro es r d₁ ⟨hfetch, -, honly⟩
    cases hfetch with
    | failed hpicked _ => exact hnone es hpicked _
    | nomem hpicked hmem =>
        refine .of_ret rfl fun acl hacl ↦ .inl ?_
        rw [List.append_nil, hmem, ← honly.replies]
        exact ⟨rfl, rfl⟩
    | @list fetched hpicked hmem =>
        refine ends_malloc_bind fun buf ↦ ?_
        simp only [← apply_ite fuseReply]
        refine .of_ret (a := ()) rfl fun acl hacl ↦ .inr ⟨buf, ?_, ?_⟩
        · rw [allocations_append, hmem]
          rfl
        · rw [picked_append, hpicked] at hacl
          obtain rfl := List.singleton_inj.1 hacl
          rw [← honly.replies]
          rfl
  · exact .fault_bind hrun trivial

/-- **The kernel is told what it should be** exactly if there is memory for the list and the buffer
is missing just when it should be.  By these answers, the length that is told is enough. -/
theorem getxattr_answer_iff {d d' : Daemon} {ino size : UInt64} {name : Name} {type : AclType}
    {acl : Secattr} {es : List Event} (htype : aclTypeOf name = some type)
    (hx : Prog.Exec Server.record ((hsxFuseGetxattr ino name size).run d) [] (.ok (), d') es)
    (hacl : picked getaclReply es = [acl]) :
    (d'.replies = d.replies ++ [xattrAnswer (acl.listOf type) size.toNat] ↔
      allocations es = [true, decide (size ≠ 0)]) ∧
    ∀ n, xattrAnswer (acl.listOf type) 0 = .xattr n →
      ∃ data, xattrAnswer (acl.listOf type) n.toNat = .buf data ∧ (data.length : Int) = n := by
  refine ⟨?_, fun n h ↦ xattrAnswer_fetch h⟩
  rcases (ends_hsxFuseGetxattr htype ino size d).exec_ok hx acl hacl with
    ⟨hmem, hreplies⟩ | ⟨buf, hmem, hreplies⟩
  · rw [hreplies, hmem]
    refine iff_of_false (fun h ↦ ?_) (by rintro ⟨⟩)
    exact xattrAnswer_ne_nomem _ _ (List.singleton_inj.1 (List.append_cancel_left h)).symm
  · rw [hreplies, hmem, List.append_right_inj, List.singleton_inj, bufferReply_eq_iff]
    constructor
    · rintro rfl
      rfl
    · exact fun h ↦ List.singleton_inj.1 (List.cons.inj h).2

/-- A server on which every object has an access list of one entry. -/
private def ownerAclAnswer : (c : Call) → Option c.Res
  | .clntCall _ (.getacl _ mask) => some (.done (.ok ⟨mask, 1, [⟨1, 0, 7⟩], 0, []⟩))
  | c => sampleAnswer c

/-- The access list of the root is asked for, and all allocations succeed. -/
private def playGetxattr (size : UInt64) : Bool :=
  (sampleMount.bind fun d ↦ ((hsxFuseGetxattr 1 posixAclXattrAccess size).run d).eval
    (Prog.recorded ownerAclAnswer) []).any fun r ↦ decide (r.1.1 = .ok () ∧
      (picked getaclReply r.2).map (fun acl ↦ (acl.listOf .access).length) = [1] ∧
      allocations r.2 = [true, true])

private theorem getxattr_sample {size : UInt64} (hplay : playGetxattr size = true) :
    ∃ d d' acl es, d.Mounted ∧
      Prog.Exec Server.record ((hsxFuseGetxattr 1 posixAclXattrAccess size).run d) []
        (.ok (), d') es ∧
      picked getaclReply es = [acl] ∧ (acl.listOf .access).length = 1 ∧
      allocations es = [true, true] := by
  obtain ⟨⟨⟨out, d'⟩, es⟩, hplay, htest⟩ := (Option.any_eq_true _ _).1 hplay
  obtain ⟨hok, hlength, hmem⟩ := of_decide_eq_true htest
  obtain rfl : out = .ok () := hok
  obtain ⟨acl, hacl, hlength⟩ := List.map_eq_singleton_iff.1 hlength
  obtain ⟨d, hd, hplay⟩ := Option.bind_eq_some_iff.1 hplay
  exact ⟨d, d', acl, es, mounted_of_play hd, Prog.exec_record_of_eval hplay, hacl, hlength, hmem⟩

/-- The list is fetched with the size that it has. -/
theorem getxattr_answer_iff_root : ∃ d d' acl es, d.Mounted ∧
    Prog.Exec Server.record ((hsxFuseGetxattr 1 posixAclXattrAccess 12).run d) [] (.ok (), d') es ∧
    picked getaclReply es = [acl] ∧ (acl.listOf .access).length = 1 ∧
    d'.replies = d.replies ++ [xattrAnswer (acl.listOf .access) 12] ∧
    ∀ n, xattrAnswer (acl.listOf .access) 0 = .xattr n →
      ∃ data, xattrAnswer (acl.listOf .access) n.toNat = .buf data ∧ (data.length : Int) = n := by
  obtain ⟨d, d', acl, es, hd, hx, hacl, hlength, hmem⟩ :=
    getxattr_sample (by decide +kernel : playGetxattr 12 = true)
  have htype : aclTypeOf posixAclXattrAccess = some .access := rfl
  obtain ⟨hanswer, hfetch⟩ := getxattr_answer_iff htype hx hacl
  exact ⟨d, d', acl, es, hd, hx, hacl, hlength, hanswer.2 hmem, hfetch⟩

/-- The size that is told is the number `ERANGE`. -/
theorem not_getxattr_answer : ¬ ∀ (d d' : Daemon) (ino size : UInt64) (name : Name) (type : AclType)
    (acl : Secattr) (es : List Event), d.Mounted → aclTypeOf name = some type →
    Prog.Exec Server.record ((hsxFuseGetxattr ino name size).run d) [] (.ok (), d') es →
    picked getaclReply es = [acl] → (acl.listOf type).length ≤ 1024 →
    (allocations es)[0]? = some true → (size ≠ 0 → (allocations es)[1]? = some true) →
    d'.replies = d.replies ++ [xattrAnswer (acl.listOf type) size.toNat] := by
  intro h
  obtain ⟨d, d', acl, es, hd, hx, hacl, hlength, hmem⟩ :=
    getxattr_sample (by decide +kernel : playGetxattr 0 = true)
  have htype : aclTypeOf posixAclXattrAccess = some .access := rfl
  have hreplies := h d d' 1 0 _ _ acl es hd htype hx hacl (by omega) (by rw [hmem]; rfl)
    fun h ↦ absurd rfl h
  rcases (ends_hsxFuseGetxattr htype 1 0 d).exec_ok hx acl hacl with ⟨hmem', -⟩ | ⟨buf, hmem', hbuf⟩
  · rw [hmem] at hmem'
    cases hmem'
  · rw [hmem] at hmem'
    cases hmem'
    rw [hbuf, List.append_right_inj, List.singleton_inj, bufferReply_eq_iff] at hreplies
    cases hreplies

end Hsfs
