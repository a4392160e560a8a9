import Hsfs.Daemon.Rpc
import Hsfs.Fuse.Session
import Hsfs.Nfs3.Quiet

/-!
# Access checks

`hsx_fuse_access` asks the server which of some rights the caller has, and then looks only at
the status of the reply.  So it allows an access that the server has not granted.
-/

namespace Hsfs

open Interact Interact.Act

/-- The rights that the server grants in a reply to `ACCESS`. -/
def accessGranted : Event → Option UInt32
  | ⟨.clntCall _ (.access _ _), .done (.ok access)⟩ => some access
  | _ => none

/-- Every right that `hsx_fuse_access` asks for is among those that are granted. -/
def Inode.Granted (i : Inode) (mask access : UInt32) : Prop :=
  accessMode i mask &&& access = accessMode i mask

/-- The operation succeeds on any reply with the status `NFS3_OK`. -/
theorem wp_hsiNfs3Access {d : Daemon} {p : Addr} {i : Inode} (hi : d.heap p = some i)
    (mode : UInt32) (tr : List Event) :
    wp Server.record (hsiNfs3Access p mode) (fun err _ tr' ↦ ∃ es, tr' = tr ++ es ∧
      ((∃ e ∈ es, (accessGranted e).isSome) → err = 0)) (fun _ _ _ ↦ True) d tr := by
  have hreply (e : Event) (h : (accessGranted e).isSome) : isAttempt e = false := by
    unfold accessGranted at h
    split at h
    · rfl
    · cases h
  unfold hsiNfs3Access hsiNfs3Getfh3 sbClntp
  simp only [wp_bind, wp_pure, wp_of_ret (load_run hi), wp_get]
  refine wp_mono ?_ (fun _ _ _ _ ↦ trivial) (wp_call_record _ _ tr)
  rintro res d' _ ⟨es, rfl, hcall, -⟩
  have hok (h : ∃ e ∈ es, (accessGranted e).isSome) : ∃ access, res = .ok (.ok access) := by
    obtain ⟨e, he, hsome⟩ := h
    obtain ⟨clnt, r, rfl, rfl⟩ := hcall.of_mem he (hreply e hsome)
    cases r with
    | ok access => exact ⟨access, rfl⟩
    | fail status => cases hsome
  rcases res with err | access | status
  · refine ⟨es, rfl, fun h ↦ ?_⟩
    obtain ⟨_, ⟨⟩⟩ := hok h
  · exact ⟨es, rfl, fun _ ↦ rfl⟩
  · refine ⟨es, rfl, fun h ↦ ?_⟩
    obtain ⟨_, ⟨⟩⟩ := hok h

/-- A request is answered with the outcome of the operation. -/
theorem wp_hsxFuseAccess {ino : UInt64} {d : Daemon} {p : Addr} {i : Inode}
    (hp : d.ilookup ino = some p) (hi : d.heap p = some i) (mask : UInt32) :
    wp Server.record (hsxFuseAccess ino mask) (fun _ d' es ↦
      ∃ err, d'.replies = d.replies ++ [.err err] ∧
        ((∃ e ∈ es, (accessGranted e).isSome) → err = 0)) (fun _ _ _ ↦ True) d [] := by
  unfold hsxFuseAccess
  rw [wp_bind, wp_of_ret (hsfsIlookup_run hp hi), wp_bind, wp_of_ret (load_run hi), wp_bind]
  refine wp_mono ?_ (fun _ _ _ _ ↦ trivial)
    (wp_and (wp_hsiNfs3Access hi _ []) (HandleFrame.silent.access p _ d []))
  rintro err d' _ ⟨⟨es, rfl, herr⟩, _, -, hsilent⟩
  refine ⟨err, ?_, fun h ↦ herr (by simpa using h)⟩
  rw [← hsilent.replies]

/-- **A reply with the status `NFS3_OK` is obeyed exactly if it grants every right that was
asked for.** -/
theorem Request.Handled.access_iff {ino : UInt64} {mask access : UInt32} {d d' : Daemon}
    {p : Addr} {i : Inode} {es : List Event} (hp : d.ilookup ino = some p)
    (hi : d.heap p = some i) (h : (Request.access ino mask).Handled d es d')
    (hreply : ∃ e ∈ es, accessGranted e = some access) :
    (∃ err, d'.replies = d.replies ++ [.err err] ∧ (err = 0 ↔ i.Granted mask access)) ↔
      i.Granted mask access := by
  obtain ⟨_, hx⟩ := h
  obtain ⟨err, hr, herr⟩ := (wp_iff_exec.1 (wp_hsxFuseAccess hp hi mask)).1 () d' es hx
  obtain ⟨e, he, hsome⟩ := hreply
  have hzero : err = 0 := herr ⟨e, he, by simp [hsome]⟩
  constructor
  · rintro ⟨err', hr', hiff⟩
    have heq : [Reply.err err] = [.err err'] := List.append_cancel_left (hr.symm.trans hr')
    cases heq
    exact hiff.1 hzero
  · exact fun hg ↦ ⟨err, hr, iff_of_true hzero hg⟩

/-- The root of a mounted file system is checked for the right to read, which the server does
not grant. -/
private theorem access_sample : ∃ d p i es d', sampleMount = some d ∧ d.ilookup 1 = some p ∧
    d.heap p = some i ∧ (Request.access 1 rOk).Handled d es d' ∧
    (∃ e ∈ es, accessGranted e = some 0) ∧ d'.replies = d.replies ++ [.err 0] ∧
    accessMode i rOk = Access3.read := by
  have hplay : (sampleMount.bind fun d ↦ (d.ilookup 1).bind fun p ↦ (d.heap p).bind fun i ↦
      ((Request.access 1 rOk).play sampleAnswer 0 d).map fun r ↦
        r.1.any (accessGranted · == some 0) && r.2.replies == d.replies ++ [.err 0] &&
          accessMode i rOk == Access3.read) = some true := by decide +kernel
  obtain ⟨d, hd, hplay⟩ := Option.bind_eq_some_iff.1 hplay
  obtain ⟨p, hp, hplay⟩ := Option.bind_eq_some_iff.1 hplay
  obtain ⟨i, hi, hplay⟩ := Option.bind_eq_some_iff.1 hplay
  obtain ⟨⟨es, d'⟩, hplay, hall⟩ := Option.map_eq_some_iff.1 hplay
  simp only [Bool.and_eq_true, List.any_eq_true, beq_iff_eq] at hall
  exact ⟨d, p, i, es, d', hd, hp, hi, Request.handled_of_play hplay, hall.1.1, hall.1.2, hall.2⟩

theorem Request.Handled.access_iff_root : ∃ d p i es d', sampleMount = some d ∧
    d.ilookup 1 = some p ∧ d.heap p = some i ∧ (Request.access 1 rOk).Handled d es d' ∧
    ((∃ err, d'.replies = d.replies ++ [.err err] ∧ (err = 0 ↔ i.Granted rOk 0)) ↔
      i.Granted rOk 0) := by
  obtain ⟨d, p, i, es, d', hd, hp, hi, h, hreply, -⟩ := access_sample
  exact ⟨d, p, i, es, d', hd, hp, hi, h, access_iff hp hi h hreply⟩

theorem Request.Handled.not_access_obeyed :
    ¬ ∀ (ino : UInt64) (mask access : UInt32) (d d' : Daemon) (p : Addr) (i : Inode)
      (es : List Event), d.Mounted → d.ilookup ino = some p → d.heap p = some i →
      (Request.access ino mask).Handled d es d' → (∃ e ∈ es, accessGranted e = some access) →
      ∃ err, d'.replies = d.replies ++ [.err err] ∧ (err = 0 ↔ i.Granted mask access) := by
  intro hall
  obtain ⟨d, p, i, es, d', hd, hp, hi, h, hreply, hr, hmode⟩ := access_sample
  obtain ⟨err, hr', hiff⟩ := hall 1 rOk 0 d d' p i es (mounted_of_play hd) hp hi h hreply
  have heq : [Reply.err 0] = [.err err] := List.append_cancel_left (hr.symm.trans hr')
  cases heq
  have hgranted := hiff.1 rfl
  rw [Inode.Granted, hmode] at hgranted
  exact absurd hgranted (by decide)

end Hsfs
