import Hsfs.Fuse.Session
import Hsfs.Nfs3.Fetch

/-!
# Success is reported for executed operations

An operation that changes something on the server should return zero exactly if the server has
executed it.  A server need not send attributes or handles with a successful reply, and this is
where the operations differ: `hsi_nfs3_setattr` takes a reply without attributes for a failure, an
exclusive create stumbles over a file without a handle or attributes, and `hsi_nfs3_link` returns
what the refresh of the cached inode makes of the attributes.
-/

namespace Hsfs

open Interact Interact.Act Daemon

/-! ## GETATTR and LINK -/

/-- The attributes in a successful reply to `GETATTR`. -/
def gotBy : (req : Rpc) → req.Res → Option Fattr3
  | .getattr _, .ok attr => some attr
  | _, _ => none

/-- The attributes in the successful replies to `GETATTR`. -/
def getattrs (es : List Event) : List Fattr3 := picked gotBy es

/-- What a reply to `LINK` says if the link has been made. -/
def linkBy : (req : Rpc) → req.Res → Option (Option Fattr3)
  | .link _ _ _, .ok after => some after
  | _, _ => none

/-- What the successful replies to `LINK` say. -/
def links (es : List Event) : List (Option Fattr3) := picked linkBy es

/-- The inode takes the attributes for its own. -/
def Inode.takes (i : Inode) (attr : Fattr3) : Bool :=
  i.accepts (hsiNfs3Fattr2fattr attr NfsFattr.fresh)

/-- What the refresh of an inode with attributes from a reply returns. -/
def Inode.refreshStatus (i : Inode) (attr : Fattr3) : Int :=
  if i.takes attr then 0 else -Errno.stale

theorem Inode.refreshStatus_eq_zero_iff {i : Inode} {attr : Fattr3} :
    i.refreshStatus attr = 0 ↔ i.takes attr = true := by
  unfold refreshStatus
  split
  · next h => exact iff_of_true rfl h
  · next h => exact iff_of_false (by decide) h

/-- The inode after it has been offered the attributes that a reply may bring. -/
def Inode.offered (i : Inode) (post : Option Fattr3) : Inode :=
  post.elim i fun attr ↦ i.refreshed (hsiNfs3Fattr2fattr attr NfsFattr.fresh)

/-- What `hsi_nfs3_getattr` returns. -/
inductive GetStatus (i : Inode) (es : List Event) : Int → Prop
  | refused {err : Int} : err ≠ 0 → getattrs es = [] → GetStatus i es err
  | done {attr : Fattr3} : getattrs es = [attr] → GetStatus i es (i.refreshStatus attr)

/-- What `hsi_nfs3_link` returns: without attributes in the reply it asks for them. -/
inductive LinkStatus (i : Inode) (es : List Event) : Int → Prop
  | refused {err : Int} : err ≠ 0 → links es = [] → getattrs es = [] → LinkStatus i es err
  | done {attr : Fattr3} : links es = [some attr] → getattrs es = [] →
      LinkStatus i es (i.refreshStatus attr)
  | bare {err : Int} : links es = [none] → GetStatus i es err → LinkStatus i es err

/-- Only the replies to `GETATTR` matter. -/
theorem GetStatus.append_left {i : Inode} {es es' : List Event} {err : Int}
    (h : GetStatus i es' err)
    (hes : getattrs es = []) : GetStatus i (es ++ es') err := by
  have happend : getattrs (es ++ es') = getattrs es' := by
    rw [getattrs, picked_append]
    exact congrArg (· ++ getattrs es') hes
  cases h with
  | refused herr hnil => exact .refused herr (happend.trans hnil)
  | done hdone => exact .done (happend.trans hdone)

section operations

variable {d : Daemon} {p q : Addr} {i j : Inode}

/-- A refresh with attributes from a reply. -/
theorem nfsRefreshInode_attr_run (hi : d.heap p = some i) (attr : Fattr3) :
    ∃ d', (nfsRefreshInode p (hsiNfs3Fattr2fattr attr NfsFattr.fresh)).run d =
      .ret (.ok (i.refreshStatus attr), d') := by
  rw [nfsRefreshInode_run hi, isValid_hsiNfs3Fattr2fattr, if_pos rfl, Inode.refreshStatus,
    Inode.takes]
  split
  · exact ⟨_, rfl⟩
  · exact ⟨_, rfl⟩

/-- A refresh with the attributes that a reply may bring. -/
theorem nfsRefreshInode_post_run (hi : d.heap p = some i) (post : Option Fattr3) :
    (nfsRefreshInode p (hsiNfs3Post2fattr post NfsFattr.fresh)).run d =
      .ret (.ok (if post.all i.takes then 0 else -Errno.stale), d.setInode p (i.offered post)) := by
  cases post with
  | none =>
      have hself : d.setInode p (i.offered none) = d := Daemon.setInode_eq_self hi
      rw [nfsRefreshInode_run hi, hself]
      rfl
  | some attr =>
      obtain ⟨ret, hret⟩ :=
        nfsRefreshInode_refreshed hi (isValid_hsiNfs3Fattr2fattr attr NfsFattr.fresh)
      obtain ⟨d', hrun⟩ := nfsRefreshInode_attr_run hi attr
      obtain ⟨-, hd'⟩ := Prod.mk.inj (Prog.ret.inj (hret.symm.trans hrun))
      change (nfsRefreshInode p (hsiNfs3Fattr2fattr attr NfsFattr.fresh)).run d = _
      rw [hrun, ← hd']
      rfl

/-- **`hsi_nfs3_getattr`.** -/
theorem ends_hsiNfs3Getattr (hi : d.heap p = some i) (st : Option Stat) :
    Ends (fun es r _ ↦ GetStatus i es r.1 ∧ links es = []) (fun _ _ _ ↦ False)
      (hsiNfs3Getattr p st) d := by
  refine .ret_bind (getfh3_run hi) ?_
  have hget : Ends (fun es r d' ↦ links es = [] ∧ d'.heap p = some i ∧
      ((r.1 ≠ 0 ∧ getattrs es = []) ∨
        ∃ attr, getattrs es = [attr] ∧ r.1 = 0 ∧ r.2.1 = hsiNfs3Fattr2fattr attr NfsFattr.fresh))
      (fun _ _ _ ↦ False) (hsiNfs3DoGetattr i.fh NfsFattr.fresh st) d := by
    refine ends_call_bind (ends_callSb _) ?_ ?_
    · intro es err d₁ hcall herr honly
      refine .pure ?_
      rw [List.append_nil]
      exact ⟨hcall.picked_error linkBy, honly.heap ▸ hi, .inl ⟨herr, hcall.picked_error gotBy⟩⟩
    · rintro es (attr | status) d₁ hcall honly
      · refine .of_ret rfl ?_
        rw [List.append_nil]
        exact ⟨hcall.picked_ok linkBy, honly.heap ▸ hi,
          .inr ⟨attr, hcall.picked_ok gotBy, rfl, rfl⟩⟩
      · refine .of_ret rfl ?_
        rw [List.append_nil]
        exact ⟨hcall.picked_ok linkBy, honly.heap ▸ hi,
          .inl ⟨hsiNfs3StatToErrno_ne_zero status.2, hcall.picked_ok gotBy⟩⟩
  refine hget.bind ?_ fun _ _ _ h ↦ h
  rintro es ⟨err, fattr, st'⟩ d₁ ⟨hlinks, hi₁, ⟨herr, hnil⟩ | ⟨attr, hattr, rfl, rfl⟩⟩
  · dsimp only at herr ⊢
    rw [if_pos herr]
    refine .pure ?_
    rw [List.append_nil]
    exact ⟨.refused herr hnil, hlinks⟩
  · obtain ⟨d', hrun⟩ := nfsRefreshInode_attr_run hi₁ attr
    dsimp only
    rw [if_neg (fun h ↦ h rfl)]
    refine .ret_bind hrun (.pure ?_)
    rw [List.append_nil]
    exact ⟨.done hattr, hlinks⟩

/-- **`hsi_nfs3_link`.** -/
theorem ends_hsiNfs3Link (hi : d.heap p = some i) (hj : d.heap q = some j) (name : Name) :
    Ends (fun es r _ ↦ LinkStatus i es r) (fun _ _ _ ↦ False) (hsiNfs3Link p q name) d := by
  unfold hsiNfs3Link
  split
  · exact .pure (.refused (by decide) rfl rfl)
  refine .ret_bind (getfh3_run hi) (.ret_bind (getfh3_run hj) (ends_malloc_bind fun got ↦ ?_))
  cases got with
  | false => exact .pure (.refused (by decide) rfl rfl)
  | true =>
      refine .ret_bind (x := sbClntp) rfl (ends_call_bind (ends_call (.inl rfl) _) ?_ ?_)
      · intro es err d₁ hcall herr _
        refine .pure ?_
        rw [List.append_nil]
        exact .refused herr (hcall.picked_error linkBy) (hcall.picked_error gotBy)
      · rintro es ((_ | attr) | status) d₁ hcall honly
        · -- no attributes, so that they are asked for
          have hget := ends_hsiNfs3Getattr (d := d₁) (honly.heap ▸ hi) none
          refine hget.bind ?_ fun _ _ _ h ↦ h
          rintro es' ⟨err, st⟩ d₂ ⟨hstatus, hlinks⟩
          refine .of_ret rfl ?_
          rw [List.append_nil]
          refine .bare ?_ ?_
          · rw [links, picked_malloc, picked_append, hcall.picked_ok linkBy]
            exact congrArg (none :: ·) hlinks
          · have hgot : getattrs (⟨.malloc, true⟩ :: es) = [] := hcall.picked_ok gotBy
            exact hstatus.append_left hgot
        · obtain ⟨d', hrun⟩ := nfsRefreshInode_attr_run (d := d₁) (honly.heap ▸ hi) attr
          change Ends _ _ (if (hsiNfs3Fattr2fattr attr NfsFattr.fresh).isValid then _ else _) d₁
          rw [if_pos (isValid_hsiNfs3Fattr2fattr attr NfsFattr.fresh)]
          refine .ret_bind hrun (.of_ret rfl ?_)
          rw [List.append_nil]
          exact .done (hcall.picked_ok linkBy) (hcall.picked_ok gotBy)
        · refine .of_ret rfl ?_
          rw [List.append_nil]
          exact .refused (hsiNfs3StatToErrno_ne_zero status.2) (hcall.picked_ok linkBy)
            (hcall.picked_ok gotBy)

end operations

/-! ## The operations that change something -/

/-- A call of one of the operations, with its arguments. -/
inductive Change : Type
  | setattr (inode : Addr) (fattr : NfsFattr) (attr : HsfsIattr)
  | create (hi : Addr) (name : Name) (mode : UInt32)
  | mkdir (parent : Addr) (name : Name) (mode : UInt32)
  | mknod (parent : Addr) (name : Name) (mode : UInt32) (rdev : UInt64)
  | symlink (parent : Addr) (target name : Name)
  | link (inode newparent : Addr) (name : Name)

namespace Change

/-- The operation, up to its error number. -/
def exec : Change → Hs Int
  | setattr inode fattr attr => do return (← hsiNfs3Setattr inode fattr attr).1
  | create hi name mode => do return (← hsiNfs3Create hi name mode).1
  | mkdir parent name mode => do return (← hsiNfs3Mkdir parent name mode).1
  | mknod parent name mode rdev => do return (← hsiNfs3Mknod parent name mode rdev).1
  | symlink parent target name => do return (← hsiNfs3Symlink parent target name).1
  | link inode newparent name => hsiNfs3Link inode newparent name

/-- The inodes that the operation is called with. -/
def inodes : Change → List Addr
  | setattr p _ _ | create p _ _ | mkdir p _ _ | mknod p _ _ _ | symlink p _ _ => [p]
  | link p q _ => [p, q]

/-- The file is to be created exclusively. -/
def isExclusive (mode : UInt32) : Bool := (mode &&& 0xF0000) >>> 16 == 2

/-- The server has answered the operation with `NFS3_OK`. -/
def Executed (es : List Event) : Change → Prop
  | setattr _ _ _ => setattrs es ≠ []
  | link _ _ _ => links es ≠ []
  | _ => named es ≠ []

/-- The remote procedure that the operation calls after a successful reply, if it calls one, has
succeeded. -/
def FollowedUp (es : List Event) : Change → Prop
  | create _ _ mode =>
      isExclusive mode = true → named es ≠ [] → harmed es = false → setattrs es ≠ []
  | link _ _ _ => none ∈ links es → getattrs es ≠ []
  | _ => True

/-- The replies are such that the operation can tell success: a reply to `SETATTR` brings
attributes, a file that is created exclusively comes with a handle and attributes and there is
memory for its inode, and the attributes of a file that is linked to are those of the cached
inode. -/
def Informed (d : Daemon) (es : List Event) : Change → Prop
  | setattr _ _ _ => none ∉ setattrs es
  | create _ _ mode => isExclusive mode = true → harmed es = false ∧ none ∉ setattrs es
  | link p _ _ => ∀ i, d.heap p = some i → ∀ attr,
      (some attr ∈ links es ∨ attr ∈ getattrs es) → i.takes attr = true
  | _ => True

/-- What there is to say about the end of an operation that is `ok` if it has returned zero. -/
def Verdict (d : Daemon) (op : Change) (es : List Event) (ok : Prop) : Prop :=
  op.FollowedUp es → ((ok ↔ op.Executed es) ↔ op.Informed d es)

end Change

theorem Naming.eq_zero_iff {es : List Event} {d : Daemon} {err : Int} {new : Addr}
    (h : Naming false es d err new) : err = 0 ↔ named es ≠ [] := by
  cases h with
  | refused herr hnamed => exact iff_of_false herr fun hne ↦ hne hnamed
  | plain _ hnamed => exact iff_of_true rfl (hnamed ▸ List.cons_ne_nil _ _)
  | exclusive hexcl => exact nomatch hexcl

namespace Change

variable {d : Daemon} {p : Addr} {i : Inode}

theorem ends_setattr (hi : d.heap p = some i) (fattr : NfsFattr) (attr : HsfsIattr) :
    Ends (fun es r _ ↦ (setattr p fattr attr).Verdict d es (r = 0)) (fun _ _ _ ↦ False)
      (setattr p fattr attr).exec d := by
  refine ((ends_hsiNfs3Setattr hi fattr attr).mono ?_ fun _ _ _ h ↦ h).map
  rintro es ⟨err, fattr'⟩ d' ⟨hset, -⟩ -
  change (err = 0 ↔ setattrs es ≠ []) ↔ none ∉ setattrs es
  cases hset with
  | refused herr hnil =>
      rw [hnil]
      exact iff_of_true (iff_of_false herr fun h ↦ h rfl) List.not_mem_nil
  | bare hbare =>
      rw [hbare]
      refine iff_of_false (fun h ↦ absurd (h.2 (List.cons_ne_nil _ _)) (by decide)) fun h ↦ h ?_
      exact List.mem_singleton_self none
  | done hdone =>
      rw [hdone]
      refine iff_of_true (iff_of_true rfl (List.cons_ne_nil _ _)) fun h ↦ ?_
      exact nomatch List.mem_singleton.1 h

/-- An operation that yields an object. -/
theorem ends_named {x : Hs (Int × Addr)} (hx : Ends (fun es r d' ↦ Naming false es d' r.1 r.2)
    (Strayed false) x d) {op : Change} (hop : ∀ es, op.Executed es = (named es ≠ []))
    (hinf : ∀ es, op.Informed d es) :
    Ends (fun es r _ ↦ op.Verdict d es (r = 0)) (fun es _ _ ↦ op.Verdict d es False)
      (do return (← x).1) d := by
  refine (hx.mono ?_ fun _ _ _ h ↦ nomatch h.1).map
  rintro es ⟨err, new⟩ d' hnaming -
  rw [hop es]
  exact iff_of_true hnaming.eq_zero_iff (hinf es)

theorem ends_create (hd : d.CacheOk) (hi : d.heap p = some i) (name : Name) (mode : UInt32) :
    Ends (fun es r _ ↦ (create p name mode).Verdict d es (r = 0))
      (fun es _ _ ↦ (create p name mode).Verdict d es False) (create p name mode).exec d := by
  have hx := Hsfs.ends_create hd hi name mode
  cases hexcl : isExclusive mode with
  | false =>
      rw [isExclusive] at hexcl
      rw [hexcl] at hx
      exact ends_named hx (fun _ ↦ rfl) fun es h ↦ nomatch hexcl.symm.trans h
  | true =>
      rw [isExclusive] at hexcl
      rw [hexcl] at hx
      refine (hx.mono ?_ ?_).map
      · rintro es ⟨err, new⟩ d' hnaming hfollow
        change (err = 0 ↔ named es ≠ []) ↔ (_ = true → harmed es = false ∧ none ∉ setattrs es)
        cases hnaming with
        | refused herr hnamed hset hharm =>
            rw [hnamed, hset, hharm]
            exact iff_of_true (iff_of_false herr fun h ↦ h rfl) fun _ ↦ ⟨rfl, List.not_mem_nil⟩
        | plain hfalse => exact nomatch hfalse
        | exclusive _ hnamed hharm _ hset =>
            have hexecuted : named es ≠ [] := hnamed ▸ List.cons_ne_nil _ _
            cases hset with
            | refused _ hnil => exact absurd hnil (hfollow hexcl hexecuted hharm)
            | bare hbare =>
                rw [hbare]
                refine iff_of_false (fun h ↦ absurd (h.2 hexecuted) (by decide)) fun h ↦ ?_
                exact (h hexcl).2 (List.mem_singleton_self none)
            | done hdone =>
                rw [hdone]
                refine iff_of_true (iff_of_true rfl hexecuted) fun _ ↦ ⟨hharm, fun h ↦ ?_⟩
                exact nomatch List.mem_singleton.1 h
      · rintro es e d' ⟨-, hnamed, -, hharm, -⟩ -
        change (False ↔ named es ≠ []) ↔ (_ = true → harmed es = false ∧ none ∉ setattrs es)
        rw [hharm]
        exact iff_of_false (fun h ↦ h.2 hnamed) fun h ↦ nomatch (h hexcl).1

theorem ends_link (hi : d.heap p = some i) {q : Addr} {j : Inode} (hj : d.heap q = some j)
    (name : Name) :
    Ends (fun es r _ ↦ (link p q name).Verdict d es (r = 0)) (fun _ _ _ ↦ False)
      (link p q name).exec d := by
  refine (ends_hsiNfs3Link hi hj name).mono ?_ fun _ _ _ h ↦ h
  intro es err _ hstatus hfollow
  have hinf : (link p q name).Informed d es ↔ ∀ attr,
      (some attr ∈ links es ∨ attr ∈ getattrs es) → i.takes attr = true := by
    constructor
    · exact fun h ↦ h i hi
    · intro h k hk
      obtain rfl := Option.some.inj (hi.symm.trans hk)
      exact h
  rw [hinf]
  change (err = 0 ↔ links es ≠ []) ↔ _
  cases hstatus with
  | refused herr hlinks hgot =>
      rw [hlinks, hgot]
      refine iff_of_true (iff_of_false herr fun h ↦ h rfl) fun attr h ↦ ?_
      exact h.elim (fun h ↦ absurd h List.not_mem_nil) fun h ↦ absurd h List.not_mem_nil
  | @done attr hlinks hgot =>
      rw [hlinks, hgot, iff_true_right (List.cons_ne_nil _ _), Inode.refreshStatus_eq_zero_iff]
      simp
  | bare hlinks hget =>
      have hlinked : links es ≠ [] := hlinks ▸ List.cons_ne_nil _ _
      rw [iff_true_right hlinked, hlinks]
      cases hget with
      | refused _ hgot => exact absurd hgot (hfollow (hlinks ▸ List.mem_singleton_self none))
      | done hgot =>
          rw [hgot, Inode.refreshStatus_eq_zero_iff]
          simp

theorem ends_verdict (hd : d.CacheOk) (op : Change) (hin : ∀ p ∈ op.inodes, p ∈ d.sb.idTable) :
    Ends (fun es r _ ↦ op.Verdict d es (r = 0)) (fun es _ _ ↦ op.Verdict d es False) op.exec d := by
  have hlive {p : Addr} (hp : p ∈ op.inodes) : ∃ i, d.heap p = some i := hd.live p (hin p hp)
  cases op with
  | setattr p fattr attr =>
      obtain ⟨i, hi⟩ := hlive (.head _)
      exact (ends_setattr hi fattr attr).mono (fun _ _ _ h ↦ h) fun _ _ _ h ↦ h.elim
  | create p name mode =>
      obtain ⟨i, hi⟩ := hlive (.head _)
      exact ends_create hd hi name mode
  | mkdir p name mode =>
      obtain ⟨i, hi⟩ := hlive (.head _)
      exact ends_named (ends_mkdir hd hi name mode) (fun _ ↦ rfl) fun _ ↦ trivial
  | mknod p name mode rdev =>
      obtain ⟨i, hi⟩ := hlive (.head _)
      exact ends_named (ends_mknod hd hi name mode rdev) (fun _ ↦ rfl) fun _ ↦ trivial
  | symlink p target name =>
      obtain ⟨i, hi⟩ := hlive (.head _)
      exact ends_named (ends_symlink hd hi target name) (fun _ ↦ rfl) fun _ ↦ trivial
  | link p q name =>
      obtain ⟨i, hi⟩ := hlive (.head _)
      obtain ⟨j, hj⟩ := hlive (.tail _ (.head _))
      exact (ends_link hi hj name).mono (fun _ _ _ h ↦ h) fun _ _ _ h ↦ h.elim

/-- **An operation returns zero exactly if the server has executed it, if and only if the replies
are such that it can tell.** -/
theorem returns_zero_iff_executed {d d' : Daemon} (hd : d.CacheOk) {op : Change}
    (hin : ∀ p ∈ op.inodes, p ∈ d.sb.idTable) {out : Except Fault Int} {es : List Event}
    (hx : Prog.Exec Server.record (op.exec.run d) [] (out, d') es) (hfollow : op.FollowedUp es) :
    (out = .ok 0 ↔ op.Executed es) ↔ op.Informed d es := by
  cases out with
  | ok r =>
      rw [← (ends_verdict hd op hin).exec_ok hx hfollow]
      exact iff_congr ⟨fun h ↦ Except.ok.inj h, fun h ↦ congrArg _ h⟩ Iff.rfl
  | error e =>
      rw [← (ends_verdict hd op hin).exec_error hx hfollow]
      exact iff_congr (iff_of_false nofun id) Iff.rfl

/-- A server that sets attributes, and what it says then. -/
def setattrAnswer (after : Option Fattr3) : (c : Call) → Option c.Res
  | .clntCall _ (.setattr _ _) => some (.done (.ok after))
  | c => sampleAnswer c

/-- The attributes of the root are set, with a reply that brings them. -/
theorem returns_zero_iff_executed_setattr :
    ∃ d es d', sampleMount = some d ∧ d.CacheOk ∧
      (∀ p ∈ (setattr d.sb.root default default).inodes, p ∈ d.sb.idTable) ∧
      Prog.Exec Server.record ((setattr d.sb.root default default).exec.run d) [] (.ok 0, d') es ∧
      (setattr d.sb.root default default).FollowedUp es ∧
      (((.ok 0 : Except Fault Int) = .ok 0 ↔ (setattr d.sb.root default default).Executed es) ↔
        (setattr d.sb.root default default).Informed d es) := by
  have hplay : (sampleMount.bind fun d ↦ ((setattr d.sb.root default default).exec.run d).eval
      (Prog.recorded (setattrAnswer (some (sampleDir 1)))) []).any
        (fun r ↦ decide (r.1.1 = .ok 0)) = true := by decide +kernel
  obtain ⟨⟨⟨out, d'⟩, es⟩, hplay, hout⟩ := (Option.any_eq_true _ _).1 hplay
  obtain ⟨d, hd, hplay⟩ := Option.bind_eq_some_iff.1 hplay
  have hmounted := mounted_of_play hd
  have hin : ∀ p ∈ (setattr d.sb.root default default).inodes, p ∈ d.sb.idTable :=
    fun p hp ↦ List.mem_singleton.1 hp ▸ hmounted.rootOk.mem
  obtain rfl : out = .ok 0 := of_decide_eq_true hout
  have hx := Prog.exec_record_of_eval hplay
  have hcache := hmounted.extends_start.1
  exact ⟨d, _, _, hd, hcache, hin, hx, trivial,
    returns_zero_iff_executed hcache hin hx trivial⟩

/-- The attributes of the root are set, with a reply that does not bring them. -/
theorem not_returns_zero_iff_executed :
    ¬ ∀ (d d' : Daemon) (op : Change) (out : Except Fault Int) (es : List Event), d.Mounted →
      (∀ p ∈ op.inodes, p ∈ d.sb.idTable) →
      Prog.Exec Server.record (op.exec.run d) [] (out, d') es → op.FollowedUp es →
      (out = .ok 0 ↔ op.Executed es) := by
  intro h
  have hplay : (sampleMount.bind fun d ↦ ((setattr d.sb.root default default).exec.run d).eval
      (Prog.recorded (setattrAnswer none)) []).any
        (fun r ↦ decide (r.1.1 ≠ .ok 0 ∧ setattrs r.2 ≠ [])) = true := by decide +kernel
  obtain ⟨⟨⟨out, d'⟩, es⟩, hplay, hout⟩ := (Option.any_eq_true _ _).1 hplay
  obtain ⟨d, hd, hplay⟩ := Option.bind_eq_some_iff.1 hplay
  have hmounted := mounted_of_play hd
  have hiff := h d d' (setattr d.sb.root default default) out es hmounted
    (fun p hp ↦ List.mem_singleton.1 hp ▸ hmounted.rootOk.mem)
      (Prog.exec_record_of_eval hplay) trivial
  obtain ⟨hne, hset⟩ := of_decide_eq_true hout
  exact hne (hiff.2 hset)

end Change

end Hsfs
