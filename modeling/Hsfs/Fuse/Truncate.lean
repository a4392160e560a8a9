import Hsfs.Fuse.Session
import Hsfs.Nfs3.FileServer

/-!
# Truncating files

A request to set the size of a file is compared with the cached size, and `hsi_nfs3_write`
does not bring that up to date.  So a file that has been written to can keep its length when
it is truncated to the length it had before.
-/

namespace Hsfs

open Interact Interact.Act

/-! ## The request -/

/-- A size that is requested is handed on. -/
theorem hsxFuseStat2iattr_size (st : Stat) (attr : HsfsIattr) {toSet : UInt32}
    (h : hasBits toSet FuseSetAttr.size = true) :
    (hsxFuseStat2iattr st toSet attr).size = st.stSize ∧
      hasBits (hsxFuseStat2iattr st toSet attr).valid HsfsAttr.size = true := by
  have hbit : hasBits HsfsAttr.size HsfsAttr.size = true := by decide
  rw [hsxFuseStat2iattr_eq]
  refine ⟨if_pos h, ?_⟩
  rw [hasBits_orBits, h]
  exact List.any_eq_true.2 ⟨(true, HsfsAttr.size), by simp, hbit⟩

/-- The request is answered with attributes. -/
def Succeeded (d d' : Daemon) : Prop := ∃ st timeout, d'.replies = d.replies ++ [.attr st timeout]

/-- **A successful request to set the size of a regular file sets it, unless it is the cached
size; then the file keeps its length.** -/
theorem wp_hsxFuseSetattr {ino : UInt64} {attr : Stat} {toSet : UInt32} {d : Daemon} {p : Addr}
    {i : Inode} {s : FileStore} (hsize : hasBits toSet FuseSetAttr.size = true)
    (hp : d.ilookup ino = some p) (hi : d.heap p = some i) (hreg : sIsreg i.iattr.mode = true) :
    wp fileEnv (hsxFuseSetattr ino attr toSet)
      (fun _ d' s' ↦ Succeeded d d' → (s' i.fh).length =
        if attr.stSize = i.iattr.size then (s i.fh).length else (UInt64.ofInt attr.stSize).toNat)
      (fun _ _ _ ↦ True) d s := by
  obtain ⟨hsize', hvalid⟩ := hsxFuseStat2iattr_size attr default hsize
  unfold hsxFuseSetattr hsfsLlSetattr
  rw [wp_bind, wp_of_ret (hsfsIlookup_run hp hi), wp_bind]
  refine wp_mono ?_ (fun _ _ _ _ ↦ trivial) (wp_and (wp_hsiNfsSetattr hi hreg hvalid)
    ((HandleFrame.silent.setattr p _).wp fileEnv d s))
  rw [hsize']
  rintro err d₁ s₁ ⟨hlength, _, hsilent⟩
  rw [wp_ite]
  split
  · rintro ⟨st, timeout, hreply⟩
    change d₁.replies ++ [.err err] = _ at hreply
    rw [hsilent.replies] at hreply
    cases List.append_cancel_left hreply
  · next herr =>
      -- the rest of the handler makes no call
      have hkeeps : Keeps fileEnv (· = s₁) (do
          let i ← load p
          let timeout ← attrTimeout p
          fuseReply (.attr (hsfsGenericFillattr i default) timeout)) :=
        .bind (keeps_load p) fun _ ↦ .bind (.bind (keeps_load p) fun _ ↦ .get_bind fun _ ↦ .pure _)
          fun _ ↦ .modify _
      refine wp_mono ?_ (fun _ _ _ _ ↦ trivial) (hkeeps d₁ s₁ rfl)
      rintro _ d₂ _ rfl _
      exact hlength (not_not.1 herr)

/-! ## Runs -/

/-- The requests that a run is made of. -/
def Request.isFileRequest : Request → Bool
  | .lookup _ _ | .create _ _ _ _ _ _ | .getattr _ | .setattr _ _ _ | .read _ _ _
  | .write _ _ _ _ => true
  | _ => false

/-- A request that has been handled, with the daemon and the files on the server before and
after it. -/
structure FileStep where
  req : Request
  before : Daemon × FileStore
  after : Daemon × FileStore

/-- Requests one after the other, by a daemon that is the only user of the server. -/
inductive FileRun (x₀ : Daemon × FileStore) : List FileStep → Daemon × FileStore → Prop
  | nil : FileRun x₀ [] x₀
  | snoc {steps : List FileStep} {x x' : Daemon × FileStore} {req : Request} {rounds : Nat} :
      FileRun x₀ steps x → req.isFileRequest = true →
      Prog.Exec fileEnv ((req.handle rounds).run x.1) x.2 (.ok (), x'.1) x'.2 →
      FileRun x₀ (steps ++ [⟨req, x, x'⟩]) x'

namespace FileRun

variable {x₀ x : Daemon × FileStore} {steps : List FileStep}

/-- Each step of a run is an execution of a handler. -/
theorem exec_of_mem (h : FileRun x₀ steps x) {step : FileStep} (hstep : step ∈ steps) :
    ∃ rounds, Prog.Exec fileEnv ((step.req.handle rounds).run step.before.1) step.before.2
      (.ok (), step.after.1) step.after.2 := by
  induction h with
  | nil => exact absurd hstep List.not_mem_nil
  | @snoc _ _ _ _ rounds _ _ hx ih =>
      rcases List.mem_append.1 hstep with hstep | hstep
      · exact ih hstep
      · obtain rfl := List.mem_singleton.1 hstep
        exact ⟨rounds, hx⟩

/-- **A truncation that succeeds is carried out exactly if the size that is asked for is not the
cached one, or is that of the file already.** -/
theorem truncated_iff (h : FileRun x₀ steps x) {step : FileStep} (hstep : step ∈ steps)
    {ino : UInt64} {attr : Stat} {toSet : UInt32} {p : Addr} {i : Inode}
    (hreq : step.req = .setattr ino attr toSet) (hsize : hasBits toSet FuseSetAttr.size = true)
    (hp : step.before.1.ilookup ino = some p) (hi : step.before.1.heap p = some i)
    (hreg : sIsreg i.iattr.mode = true) (hok : Succeeded step.before.1 step.after.1) :
    (step.after.2 i.fh).length = (UInt64.ofInt attr.stSize).toNat ↔
      attr.stSize ≠ i.iattr.size ∨
        (step.before.2 i.fh).length = (UInt64.ofInt attr.stSize).toNat := by
  obtain ⟨rounds, hx⟩ := h.exec_of_mem hstep
  rw [hreq] at hx
  have hlength := (wp_iff_exec.1 (wp_hsxFuseSetattr hsize hp hi hreg)).1 () _ _ hx hok
  rw [hlength]
  by_cases heq : attr.stSize = i.iattr.size
  · rw [if_pos heq]
    exact ⟨.inr, fun hor ↦ hor.resolve_left (not_not.2 heq)⟩
  · rw [if_neg heq]
    exact iff_of_true rfl (.inl heq)

/-- The file that a name in the directory of the sample stands for. -/
private def sampleFh : NfsFh := NfsFh.ofByte 2

/-- A server with one file, run. -/
private def fileReply : (req : Rpc) → FileStore → Option (req.Res × FileStore)
  | .lookup _ _, s =>
      if (s sampleFh).length < 2 ^ 64 then
        some (.ok ⟨sampleFh,
          some { sampleFile 2 with size := UInt64.ofNat (s sampleFh).length }⟩, s)
      else none
  | .write fh off count _ data, s =>
      some (.ok count, Function.update s fh (writeAt off.toNat (data.take count.toNat) (s fh)))
  | _, _ => none

private theorem fileServes_of_reply (req : Rpc) (s : FileStore) (res : req.Res) (s' : FileStore)
    (h : fileReply req s = some (res, s')) : fileServes req s res s' := by
  unfold fileReply at h
  split at h
  · split at h
    · next hlt =>
        cases h
        refine ⟨rfl, fun attr hattr _ ↦ ?_⟩
        cases hattr
        exact UInt64.toNat_ofNat_of_lt' hlt
    · exact nomatch h
  · cases h
    exact ⟨UInt32.le_refl _, rfl⟩
  · exact nomatch h

/-- Handle requests by that server. -/
private def playFiles : List Request → List FileStep × (Daemon × FileStore) →
    Option (List FileStep × (Daemon × FileStore))
  | [], r => some r
  | req :: reqs, (steps, x) =>
      match ((req.handle 2).run x.1).eval (networkAnswer fileReply) x.2 with
      | some ((.ok (), d'), s') =>
          if req.isFileRequest then playFiles reqs (steps ++ [⟨req, x, (d', s')⟩],
            (d', s')) else none
      | _ => none

private theorem of_playFiles {reqs : List Request} {steps' : List FileStep}
    {x' : Daemon × FileStore} (h : FileRun x₀ steps x)
    (hplay : playFiles reqs (steps, x) = some (steps', x')) : FileRun x₀ steps' x' := by
  induction reqs generalizing steps x with
  | nil =>
      cases hplay
      exact h
  | cons req reqs ih =>
      simp only [playFiles] at hplay
      split at hplay
      · next heval =>
          split at hplay
          · next hreq =>
              exact ih (h.snoc hreq
                (Prog.exec_of_eval (network_of_answer fileServes_of_reply) heval)) hplay
          · exact nomatch hplay
      · exact nomatch hplay

/-- A file is looked up while it is empty, written to, and truncated to nothing. -/
private theorem truncate_sample : ∃ x₀ steps x step p i, x₀.1.Mounted ∧ FileRun x₀ steps x ∧
    step ∈ steps ∧ step.req = .setattr 2 default FuseSetAttr.size ∧
    step.before.1.ilookup 2 = some p ∧ step.before.1.heap p = some i ∧
    sIsreg i.iattr.mode = true ∧ Succeeded step.before.1 step.after.1 ∧
    (step.after.2 i.fh).length = 1 := by
  have hplay : (sampleMount.bind fun d ↦ (playFiles [.lookup 1 [102], .write 2 [120] 0 false,
      .setattr 2 default FuseSetAttr.size] ([], (d, fun _ ↦ []))).bind fun r ↦
      r.1.getLast?.bind fun step ↦ (step.before.1.ilookup 2).bind fun p ↦
      (step.before.1.heap p).map fun i ↦
        step.req == .setattr 2 default FuseSetAttr.size && sIsreg i.iattr.mode &&
          step.after.1.replies ==
            step.before.1.replies ++ [.attr (hsfsGenericFillattr i default) 3] &&
          (step.after.2 i.fh).length == 1) = some true := by decide +kernel
  obtain ⟨d, hd, hplay⟩ := Option.bind_eq_some_iff.1 hplay
  obtain ⟨⟨steps, x⟩, hsteps, hplay⟩ := Option.bind_eq_some_iff.1 hplay
  obtain ⟨step, hstep, hplay⟩ := Option.bind_eq_some_iff.1 hplay
  obtain ⟨p, hp, hplay⟩ := Option.bind_eq_some_iff.1 hplay
  obtain ⟨i, hi, hall⟩ := Option.map_eq_some_iff.1 hplay
  simp only [Bool.and_eq_true, beq_iff_eq] at hall
  obtain ⟨⟨⟨hreq, hreg⟩, hreply⟩, hlength⟩ := hall
  exact ⟨(d, fun _ ↦ []), steps, x, step, p, i, mounted_of_play hd, of_playFiles .nil hsteps,
    List.mem_of_getLast? hstep, hreq, hp, hi, hreg, ⟨_, _, hreply⟩, hlength⟩

theorem truncated_iff_written : ∃ x₀ steps x step p i, x₀.1.Mounted ∧ FileRun x₀ steps x ∧
    step ∈ steps ∧ step.req = .setattr 2 default FuseSetAttr.size ∧
    step.before.1.heap p = some i ∧
    ((step.after.2 i.fh).length = (UInt64.ofInt (default : Stat).stSize).toNat ↔
      (default : Stat).stSize ≠ i.iattr.size ∨
        (step.before.2 i.fh).length = (UInt64.ofInt (default : Stat).stSize).toNat) := by
  obtain ⟨x₀, steps, x, step, p, i, hd, h, hstep, hreq, hp, hi, hreg, hok, -⟩ := truncate_sample
  exact ⟨x₀, steps, x, step, p, i, hd, h, hstep, hreq, hi,
    truncated_iff h hstep hreq (by decide) hp hi hreg hok⟩

theorem not_truncated : ¬ ∀ (x₀ x : Daemon × FileStore) (steps : List FileStep) (step : FileStep)
    (ino : UInt64) (attr : Stat) (toSet : UInt32) (p : Addr) (i : Inode), x₀.1.Mounted →
    FileRun x₀ steps x → step ∈ steps → step.req = .setattr ino attr toSet →
    hasBits toSet FuseSetAttr.size = true → step.before.1.ilookup ino = some p →
    step.before.1.heap p = some i → sIsreg i.iattr.mode = true →
    Succeeded step.before.1 step.after.1 →
    (step.after.2 i.fh).length = (UInt64.ofInt attr.stSize).toNat := by
  intro hall
  obtain ⟨x₀, steps, x, step, p, i, hd, h, hstep, hreq, hp, hi, hreg, hok, hlength⟩ :=
    truncate_sample
  have hzero := hall x₀ x steps step 2 _ _ p i hd h hstep hreq (by decide) hp hi hreg hok
  rw [hlength] at hzero
  exact absurd hzero (by decide)

end FileRun

end Hsfs
