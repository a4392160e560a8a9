import Hsfs.Daemon.IdLoop
import Hsfs.Mount.Run

/-!
# The deadline of the retry loop

`hsx_fuse_mount` tries to mount until it succeeds, and is to give up at a deadline.  In the
foreground it looks at the clock after each attempt that ran into a timeout.  In the background it
does not: the test that would end the loop is behind one that sends every such attempt back to its
beginning, and asks for the foreground once more.

The surroundings of the loop are a sequence of attempts, each with the answers that the calls in it
are given and the time behind it (`attemptAnswer`).  When the loop leaves is then known from the
attempts alone (`leftWithin_iff`).
-/

namespace Hsfs.Mount

open Interact

/-! ## Attempts -/

/-- What an attempt to mount meets with. -/
structure Attempt where
  /-- Whether there is a client. -/
  opened : Bool
  /-- The reply of the mount daemon. -/
  tres : ClntRes Mountres3
  /-- Whether there is memory for the handle. -/
  tmp : Bool
  /-- What is found in `rpc_createerr` and `errno` behind the attempt. -/
  err : CreateErr
  /-- The time behind the attempt. -/
  clock : Int

namespace Attempt

/-- What `hsi_nfs3_mount` returns, and what it stores. -/
def outcome (a : Attempt) : Int × Option Mountres3 :=
  if a.opened then
    if a.tmp then
      match a.tres with
      | .ok res => (0, some res)
      | .error st => (st.1, some (.ok NfsFh.empty))
    else (Errno.nomem, none)
  else (-1, none)

/-- The status that is found behind the attempt is that of a timeout. -/
def TimedOut (a : Attempt) : Prop :=
  a.err.cfStat = rpcTimedout ∨ a.err.cfStat = rpcSystemerror ∧ a.err.errno = Errno.timedout

instance (a : Attempt) : Decidable a.TimedOut := inferInstanceAs (Decidable (_ ∨ _))

/-- The attempt is the last one: it succeeds, or it fails in the foreground, and then not by a
timeout or too late for another one. -/
def Last (fg : Bool) (timeout : Int) (a : Attempt) : Prop :=
  a.outcome.1 = 0 ∨ fg = true ∧ (a.TimedOut → timeout ≤ a.clock)

end Attempt

/-- The surroundings that meet the attempts in turn.  The state is the number of attempts that have
begun; nothing but the calls of the loop is answered. -/
def attemptAnswer (attempt : Nat → Attempt) :
    (c : Call ⊕ MountCall) → Nat → Option (Sum.elim Call.Res MountCall.Res c × Nat)
  | .inr (.openclnt _ _), n => some ((attempt n).opened, n + 1)
  | .inr (.mnt _ _), n => some ((attempt (n - 1)).tres, n)
  | .inr (.mallocFhandle _), n => some ((attempt (n - 1)).tmp, n)
  | .inr .createerr, n => some ((attempt (n - 1)).err, n)
  | .inr .time, n => some ((attempt (n - 1)).clock, n)
  | .inr (.umnt _ _), _ => none
  | .inr .fuseMount, _ => none
  | .inr .fuseUnmount, _ => none
  | .inl _, _ => none

section

variable {attempt : Nat → Attempt} {fg : Bool} {mntServer : ClntAddr} {dirname : Name}
  {timeout : Int} {n : Nat} {d : Daemon}

/-- One attempt, from one daemon to the next. -/
theorem eval_hsiNfs3Mount (attempt : Nat → Attempt) (mntServer : ClntAddr) (dirname : Name)
    (n : Nat)
    (d : Daemon) : ∃ d', ((hsiNfs3Mount mntServer dirname).run d).eval (attemptAnswer attempt) n =
      some ((.ok ((attempt n).outcome.1, (attempt n).outcome.2), d'), n + 1) := by
  have hopen : attemptAnswer attempt (.inr (.openclnt mntServer .mnt)) n =
    some ((attempt n).opened, n + 1) := rfl
  cases hopened : (attempt n).opened with
  | false =>
      refine ⟨d, ?_⟩
      rw [hopened] at hopen
      have hclnt : ((mntOpenclnt mntServer .mnt).run d).eval (attemptAnswer attempt) n =
          some ((.ok none, d), n + 1) := Act.eval_ask_bind hopen _
      rw [hsiNfs3Mount, Act.eval_bind hclnt, Attempt.outcome, hopened]
      rfl
  | true =>
      rw [hopened] at hopen
      have hclnt : ((mntOpenclnt mntServer .mnt).run d).eval (attemptAnswer attempt) n =
          some ((.ok (some d.clients.opened), { d with clients := d.clients.openNext }), n + 1) :=
        Act.eval_ask_bind hopen _
      rw [hsiNfs3Mount, Act.eval_bind hclnt, Attempt.outcome, hopened]
      have hcall (d : Daemon) (clnt : Client) :
          ((callMnt clnt dirname).run d).eval (attemptAnswer attempt) (n + 1) =
            some ((.ok (attempt n).tres, { d with clients := d.clients.use clnt }), n + 1) := rfl
      have hmalloc (d : Daemon) : ((mallocFhandle (attempt n).tres).run d).eval
          (attemptAnswer attempt) (n + 1) = some ((.ok (attempt n).tmp, d), n + 1) := rfl
      dsimp only
      rw [Act.eval_bind (hcall _ _), Act.eval_bind (hmalloc _)]
      cases htmp : (attempt n).tmp with
      | false => exact ⟨_, rfl⟩
      | true =>
          cases htres : (attempt n).tres with
          | ok res => exact ⟨_, rfl⟩
          | error st => exact ⟨_, rfl⟩

/-! ## Rounds of the loop -/

theorem eval_createerr (d : Daemon) : (createerr.run d).eval (attemptAnswer attempt) (n + 1) =
    some ((.ok (attempt n).err, d), n + 1) := rfl

theorem eval_time (d : Daemon) : (time.run d).eval (attemptAnswer attempt) (n + 1) =
    some ((.ok (attempt n).clock, d), n + 1) := rfl

/-- The loop leaves behind an attempt that is the last one. -/
theorem eval_mountLoop_last (h : (attempt n).Last fg timeout) (rounds : Nat) (d : Daemon) :
    ∃ r d', ((mountLoop fg mntServer dirname timeout (rounds + 1)).run d).eval
      (attemptAnswer attempt) n = some ((.ok r, d'), n + 1) := by
  obtain ⟨d', hmount⟩ := eval_hsiNfs3Mount attempt mntServer dirname n d
  rw [mountLoop, Act.eval_bind hmount]
  dsimp only
  by_cases hret : (attempt n).outcome.1 = 0
  · exact ⟨(attempt n).outcome.2, d', by rw [if_pos hret]; rfl⟩
  · obtain ⟨rfl, hlast⟩ := h.resolve_left hret
    refine ⟨none, d', ?_⟩
    rw [if_neg hret, if_pos rfl, Act.eval_bind (eval_createerr d')]
    by_cases htimed : (attempt n).TimedOut <;> rw [Attempt.TimedOut] at htimed
    · rw [if_pos htimed, Act.eval_bind (eval_time d'), if_pos (hlast htimed)]
      rfl
    · rw [if_neg htimed]
      rfl

/-- Behind any other attempt the loop goes on. -/
theorem eval_mountLoop_again (h : ¬ (attempt n).Last fg timeout) (rounds : Nat) (d : Daemon) :
    ∃ d', ((mountLoop fg mntServer dirname timeout (rounds + 1)).run d).eval
      (attemptAnswer attempt) n =
        ((mountLoop fg mntServer dirname timeout rounds).run d').eval
          (attemptAnswer attempt) (n + 1) := by
  obtain ⟨d', hmount⟩ := eval_hsiNfs3Mount attempt mntServer dirname n d
  obtain ⟨hret, hlast⟩ := not_or.1 h
  refine ⟨d', ?_⟩
  rw [mountLoop, Act.eval_bind hmount]
  dsimp only
  rw [if_neg hret]
  cases fg with
  | false => rfl
  | true =>
      obtain ⟨htimed, hclock⟩ := Classical.not_imp.1 fun himp ↦ hlast ⟨rfl, himp⟩
      rw [Attempt.TimedOut] at htimed
      rw [if_pos rfl, Act.eval_bind (eval_createerr d'), if_pos htimed,
        Act.eval_bind (eval_time d'), if_neg hclock]

/-- The loop has left within a number of attempts, from the attempt `n` on. -/
def LeftWithin (attempt : Nat → Attempt) (fg : Bool) (mntServer : ClntAddr) (dirname : Name)
    (timeout : Int) (rounds n : Nat) (d : Daemon) : Prop :=
  ∃ r d' n', ((mountLoop fg mntServer dirname timeout rounds).run d).eval
    (attemptAnswer attempt) n = some ((.ok r, d'), n')

/-- **The loop leaves with the first attempt that is the last one.** -/
theorem leftWithin_iff {rounds : Nat} :
    LeftWithin attempt fg mntServer dirname timeout rounds n d ↔
      ∃ k < rounds, (attempt (n + k)).Last fg timeout := by
  induction rounds generalizing n d with
  | zero =>
      refine iff_of_false ?_ ?_
      · rintro ⟨r, d', n', h⟩
        exact absurd (congrArg Prod.fst (congrArg Prod.fst (Option.some.inj h))) (by simp)
      · rintro ⟨k, hk, -⟩
        exact Nat.not_lt_zero k hk
  | succ rounds ih =>
      by_cases hlast : (attempt n).Last fg timeout
      · refine iff_of_true ?_ ⟨0, Nat.succ_pos rounds, hlast⟩
        obtain ⟨r, d', h⟩ := eval_mountLoop_last hlast rounds d
        exact ⟨r, d', n + 1, h⟩
      · obtain ⟨d', h⟩ := eval_mountLoop_again hlast rounds d
        rw [LeftWithin, h]
        refine ih.trans ⟨?_, ?_⟩
        · rintro ⟨k, hk, hk'⟩
          exact ⟨k + 1, Nat.succ_lt_succ hk, Nat.add_right_comm n 1 k ▸ hk'⟩
        · rintro ⟨k, hk, hk'⟩
          cases k with
          | zero => exact absurd hk' hlast
          | succ k => exact ⟨k, Nat.lt_of_succ_lt_succ hk, Nat.add_right_comm n 1 k ▸ hk'⟩

end

/-! ## The deadline -/

/-- The loop gives up in time: it leaves, and no later than with the first attempt that fails at the
deadline or behind it.  The deadline is `60 * retry` seconds behind the start; the loop computes
this product as an `int`. -/
structure GivesUp (attempt : Nat → Attempt) (fg : Bool) (mntServer : ClntAddr) (dirname : Name)
    (start retry : Int) (d : Daemon) : Prop where
  leaves : ∃ rounds, LeftWithin attempt fg mntServer dirname
    (start + intOfLong (60 * retry)) rounds 0 d
  inTime : ∀ n, (attempt n).outcome.1 ≠ 0 → start + 60 * retry ≤ (attempt n).clock →
    LeftWithin attempt fg mntServer dirname (start + intOfLong (60 * retry)) (n + 1) 0 d

section

variable {attempt : Nat → Attempt} {fg : Bool} {mntServer : ClntAddr} {dirname : Name}
  {start retry : Int} {d : Daemon}

/-- The loop gives up in time just if an attempt is the last one that is not behind another one at
the deadline. -/
theorem givesUp_iff_last (hreach : ∃ n, start + 60 * retry ≤ (attempt n).clock) :
    GivesUp attempt fg mntServer dirname start retry d ↔
      ∃ k, (∀ j < k, (attempt j).clock < start + 60 * retry) ∧
        (attempt k).Last fg (start + intOfLong (60 * retry)) := by
  constructor
  · intro h
    -- the first attempt at the deadline: it succeeds, or the loop has left by then
    have hfirst := Nat.find_spec hreach
    have hbefore : ∀ j < Nat.find hreach, (attempt j).clock < start + 60 * retry := fun j hj ↦
      Int.lt_of_not_ge (Nat.find_min hreach hj)
    by_cases hret : (attempt (Nat.find hreach)).outcome.1 = 0
    · exact ⟨_, hbefore, .inl hret⟩
    · obtain ⟨k, hk, hlast⟩ := leftWithin_iff.1 (h.inTime _ hret hfirst)
      rw [Nat.zero_add] at hlast
      exact ⟨k, fun j hj ↦ hbefore j (Nat.lt_of_lt_of_le hj (Nat.le_of_lt_succ hk)), hlast⟩
  · rintro ⟨k, hbefore, hlast⟩
    rw [← Nat.zero_add k] at hlast
    refine ⟨⟨k + 1, leftWithin_iff.2 ⟨k, Nat.lt_succ_self k, hlast⟩⟩, fun n _ hclock ↦ ?_⟩
    have hle : k ≤ n := Nat.le_of_not_lt fun hlt ↦ Int.not_lt.2 hclock (hbefore n hlt)
    exact leftWithin_iff.2 ⟨k, Nat.lt_succ_of_le hle, hlast⟩

/-- In the foreground the first attempt at the deadline is the last one, if the deadline is what the
loop takes for it. -/
theorem exists_last_foreground (hreach : ∃ n, start + 60 * retry ≤ (attempt n).clock)
    (hfits : intOfLong (60 * retry) = 60 * retry) :
    ∃ k, (∀ j < k, (attempt j).clock < start + 60 * retry) ∧
      (attempt k).Last true (start + intOfLong (60 * retry)) := by
  refine ⟨Nat.find hreach, fun j hj ↦ Int.lt_of_not_ge (Nat.find_min hreach hj), .inr ⟨rfl, ?_⟩⟩
  rw [hfits]
  exact fun _ ↦ Nat.find_spec hreach

end

/-- **When the retry loop gives up at its deadline.**  In the foreground it does, if the time to go
on trying fits an `int`.  Otherwise it depends on the attempts: one of those up to the first at the
deadline has to be the last one, which in the background it only is by success. -/
theorem mountLoop_givesUp_iff (attempt : Nat → Attempt) (fg : Bool) (mntServer : ClntAddr)
    (dirname : Name) (start retry : Int) (d : Daemon)
    (hreach : ∃ n, start + 60 * retry ≤ (attempt n).clock) :
    GivesUp attempt fg mntServer dirname start retry d ↔
      (fg = true ∧ intOfLong (60 * retry) = 60 * retry) ∨
        ∃ k, (∀ j < k, (attempt j).clock < start + 60 * retry) ∧
          (attempt k).Last fg (start + intOfLong (60 * retry)) := by
  rw [givesUp_iff_last hreach]
  refine ⟨.inr, fun h ↦ h.elim ?_ id⟩
  rintro ⟨rfl, hfits⟩
  exact exists_last_foreground hreach hfits

/-- An attempt that runs into a timeout, at a time. -/
def timedOutAttempt (clock : Int) : Attempt :=
  ⟨false, .ok (.ok NfsFh.empty), true, ⟨rpcTimedout, 0⟩, clock⟩

/-- Attempts in the foreground that all run into a timeout, one each second, for a minute. -/
theorem mountLoop_givesUp_iff_foreground :
    GivesUp (fun n ↦ timedOutAttempt n) true ⟨⟨0, 0, 0⟩, ⟨0, 0, 0, 0⟩⟩ [] 0 1 plainDaemon :=
  (mountLoop_givesUp_iff (fun n ↦ timedOutAttempt n) true ⟨⟨0, 0, 0⟩, ⟨0, 0, 0, 0⟩⟩ [] 0 1
    plainDaemon ⟨60, by decide⟩).2 (.inl ⟨rfl, by decide⟩)

/-- In the background the loop goes on forever with attempts that all run into a timeout. -/
theorem not_mountLoop_givesUp : ¬ ∀ (attempt : Nat → Attempt) (fg : Bool) (mntServer : ClntAddr)
    (dirname : Name) (start retry : Int) (d : Daemon),
    (∀ m n, m ≤ n → (attempt m).clock ≤ (attempt n).clock) → start ≤ (attempt 0).clock →
    (∃ n, start + 60 * retry ≤ (attempt n).clock) →
    GivesUp attempt fg mntServer dirname start retry d := by
  intro h
  have hgives := h (fun n ↦ timedOutAttempt n) false ⟨⟨0, 0, 0⟩, ⟨0, 0, 0, 0⟩⟩ [] 0 1 plainDaemon
    (fun _ _ hmn ↦ Int.ofNat_le.2 hmn) (by decide) ⟨60, by decide⟩
  obtain ⟨rounds, hleft⟩ := hgives.leaves
  obtain ⟨k, -, hlast⟩ := leftWithin_iff.1 hleft
  rcases hlast with hret | ⟨hfg, -⟩
  · exact absurd (show (-1 : Int) = 0 from hret) (by decide)
  · exact absurd hfg (by decide)

end Hsfs.Mount
