import Hsfs.Daemon.Network
import Hsfs.Nfs3.Quiet

/-!
# Setting the size of a file

The server is a map from handles to file contents.  `hsi_nfs_setattr` asks it for a new size
only if that is not the size of the cached inode.
-/

namespace Hsfs

open Interact Interact.Act

/-! ## The server -/

/-- The contents of each file. -/
abbrev FileStore := NfsFh → List UInt8

/-- Cut contents off, or fill them up with zeros. -/
def resizeTo (n : Nat) (bytes : List UInt8) : List UInt8 :=
  bytes.take n ++ List.replicate (n - bytes.length) 0

/-- Put data at an offset, after zeros if the offset is behind the end. -/
def writeAt (off : Nat) (data bytes : List UInt8) : List UInt8 :=
  resizeTo off bytes ++ data ++ bytes.drop (off + data.length)

theorem length_resizeTo (n : Nat) (bytes : List UInt8) : (resizeTo n bytes).length = n := by
  simp only [resizeTo, List.length_append, List.length_take, List.length_replicate]
  omega

namespace FileStore

/-- Give a file a new size, if there is one. -/
def setSize (s : FileStore) (fh : NfsFh) (size : Option UInt64) : FileStore :=
  match size with
  | none => s
  | some n => Function.update s fh (resizeTo n.toNat (s fh))

/-- Attributes of a regular file that are true as to its size. -/
def Truthful (s : FileStore) (fh : NfsFh) (attr : Fattr3) : Prop :=
  attr.type = 1 → attr.size.toNat = (s fh).length

theorem length_setSize (s : FileStore) (fh : NfsFh) (size : Option UInt64) :
    (s.setSize fh size fh).length = (size.map UInt64.toNat).getD (s fh).length := by
  cases size with
  | none => rfl
  | some n =>
      rw [setSize, Function.update_self, length_resizeTo]
      rfl

end FileStore

/-- The size among the attributes of a new file. -/
def Createhow3.size : Createhow3 → Option UInt64
  | .unchecked attrs => attrs.size
  | .guarded attrs => attrs.size
  | .exclusive _ => none
  | .other _ attrs => attrs.size

/-- What the server does with a request.  It may refuse any, and leave attributes out. -/
def fileServes : (req : Rpc) → FileStore → req.Res → FileStore → Prop
  | .getattr fh, s, .ok attr, s' => s' = s ∧ s.Truthful fh attr
  | .lookup _ _, s, .ok res, s' => s' = s ∧ ∀ attr ∈ res.objAttributes, s.Truthful res.object attr
  | .setattr fh attrs, s, .ok after, s' =>
      s' = s.setSize fh attrs.size ∧ ∀ attr ∈ after, s'.Truthful fh attr
  | .read fh off count, s, .ok res, s' => s' = s ∧ res.count ≤ count ∧
      res.data = ((s fh).drop off.toNat).take res.count.toNat
  | .write fh off count _ data, s, .ok written, s' => written ≤ count ∧
      s' = Function.update s fh (writeAt off.toNat (data.take written.toNat) (s fh))
  -- the name is that of a new file, or of one that is there already
  | .create _ _ how, s, .ok res, s' => ∃ fh, (∀ obj ∈ res.obj, obj = fh) ∧
      (s' = FileStore.setSize (Function.update s fh []) fh how.size ∨ s' = s.setSize fh how.size) ∧
      ∀ attr ∈ res.objAttributes, s'.Truthful fh attr
  | _, s, _, s' => s' = s

/-- The server behind the network. -/
abbrev fileEnv : Server Call Call.Res FileStore := network fileServes

/-! ## The operation -/

section setattr

variable {d : Daemon} {p : Addr} {i : Inode} {s : FileStore}

/-- **`SETATTR` with a size sets the size, and without one it does not.** -/
theorem wp_hsiNfs3Setattr (hi : d.heap p = some i) (fattr : NfsFattr) (attr : HsfsIattr) :
    wp fileEnv (hsiNfs3Setattr p fattr attr)
      (fun r _ s' ↦ r.1 = 0 → (s' i.fh).length =
        ((sattr3OfIattr attr).size.map UInt64.toNat).getD (s i.fh).length)
      (fun _ _ _ ↦ True) d s := by
  -- without a size, the length stays, no matter how many attempts arrive
  let P (s' : FileStore) : Prop :=
    (sattr3OfIattr attr).size = none → (s' i.fh).length = (s i.fh).length
  have hattempts : Attempts fileEnv (.setattr i.fh (sattr3OfIattr attr)) P fun res s' ↦
      (∃ after, res = .ok after) → (s' i.fh).length =
        ((sattr3OfIattr attr).size.map UInt64.toNat).getD (s i.fh).length := by
    refine .network fun s₁ res s₂ hP hS ↦ ?_
    cases res with
    | fail status =>
        obtain rfl : s₂ = s₁ := hS
        exact ⟨hP, fun ⟨_, hok⟩ ↦ nomatch hok⟩
    | ok after =>
        obtain ⟨rfl, -⟩ := hS
        rw [FileStore.length_setSize]
        have hlength : ((sattr3OfIattr attr).size.map UInt64.toNat).getD (s₁ i.fh).length =
            ((sattr3OfIattr attr).size.map UInt64.toNat).getD (s i.fh).length := by
          cases hsize : (sattr3OfIattr attr).size with
          | some n => rfl
          | none => exact hP hsize
        refine ⟨fun hnone ↦ ?_, fun _ ↦ hlength⟩
        rw [FileStore.length_setSize, hnone]
        exact hP hnone
  unfold hsiNfs3Setattr hsiNfs3Getfh3 sbClntp
  simp only [wp_bind, wp_pure, wp_of_ret (load_run hi), wp_get]
  refine wp_mono ?_ (fun _ _ _ _ ↦ trivial) (wp_call_server hattempts _ fun _ ↦ rfl)
  rintro (err | after | status) d' s' hpost
  · exact fun herr ↦ absurd herr hpost.1
  · exact fun _ ↦ hpost.2 ⟨after, rfl⟩
  · exact fun herr ↦ absurd herr (hsiNfs3StatToErrno_ne_zero status.2)

/-- **`hsi_nfs_setattr` sets the size of a regular file unless that is the cached size; then it
leaves the size as it is.** -/
theorem wp_hsiNfsSetattr {attr : HsfsIattr} (hi : d.heap p = some i)
    (hreg : sIsreg i.iattr.mode = true) (hsize : hasBits attr.valid HsfsAttr.size = true) :
    wp fileEnv (hsiNfsSetattr p attr)
      (fun err _ s' ↦ err = 0 → (s' i.fh).length =
        if attr.size = i.iattr.size then (s i.fh).length else (UInt64.ofInt attr.size).toNat)
      (fun _ _ _ ↦ True) d s := by
  have hvalid : hasBits (hsiNfsSetattrValid i attr) HsfsAttr.size =
      decide (attr.size ≠ i.iattr.size) := by
    rw [hasBits_hsiNfsSetattrValid_size, hsize, hreg, Bool.true_and, Bool.true_and]
  unfold hsiNfsSetattr
  rw [wp_bind, wp_of_ret (load_run hi), wp_ite]
  split
  · next hzero =>
      -- no bit is left, so the size has been dropped
      have heq : attr.size = i.iattr.size := by
        by_contra hne
        change hsiNfsSetattrValid i attr = 0 at hzero
        rw [hzero, decide_eq_true hne] at hvalid
        exact absurd hvalid (by decide)
      rw [if_pos heq]
      exact fun _ ↦ rfl
  · rw [wp_bind, wp_of_ret (derefSb_run hi), wp_bind]
    refine wp_mono ?_ (fun _ _ _ h ↦ h) (wp_hsiNfs3Setattr hi default _)
    rintro ⟨error, fattr⟩ d' s' hlength
    have hsent (herr : error = 0) : (s' i.fh).length =
        if attr.size = i.iattr.size then (s i.fh).length else (UInt64.ofInt attr.size).toNat := by
      rw [hlength herr]
      change (Option.map UInt64.toNat (if hasBits (hsiNfsSetattrValid i attr) HsfsAttr.size then
        some (UInt64.ofInt attr.size) else none)).getD _ = _
      rw [hvalid]
      by_cases heq : attr.size = i.iattr.size
      · rw [if_pos heq, if_neg (by simp [heq])]
        rfl
      · rw [if_neg heq, if_pos (by simp [heq])]
        rfl
    change wp fileEnv (if error = 0 then nfsRefreshInode p fattr >>= fun _ ↦ pure error
      else pure error) _ _ d' s'
    rw [wp_ite]
    split
    · next herr =>
        rw [wp_bind]
        refine wp_mono ?_ (fun _ _ _ _ ↦ trivial) (keeps_nfsRefreshInode (P := (· = s')) p fattr
          d' s' rfl)
        rintro _ _ _ rfl
        exact fun _ ↦ hsent herr
    · next herr => exact fun h ↦ absurd h herr

end setattr

end Hsfs
