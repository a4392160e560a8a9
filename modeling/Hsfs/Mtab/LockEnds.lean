import Hsfs.Mtab.Exclusion

/-!
# `lock_mtab` ends, and leaves nothing behind

`lock_mtab` tries again and again to make the link, but it counts: it looks `lockTries` times for a
lock file that is gone when it opens it, and waits `lockWaits` times for another process.
-/

namespace Hsfs.Mtab

open Interact

/-! ## The end of `lock_mtab` -/

/-- The process is in `lock_mtab`. -/
def Pc.isLocking : Pc → Bool
  | .lockMtab _ | .openTarget _ | .link _ | .created _ | .openLock _ _ => true
  | .claim _ | .unlinkTarget _ | .wait _ | .again _ => true
  | _ => false

/-- So many actions are at most left in `lock_mtab`. -/
def lockRank (l : Proc) : Nat :=
  match l.pc with
  | .lockMtab _ => 5 * (lockTries + (lockWaits - l.waited)) + 6
  | .openTarget _ => 5 * (l.tries + (lockWaits - l.waited)) + 5
  | .link _ => 5 * (l.tries + (lockWaits - l.waited)) + 4
  | .created _ => 5 * (l.tries + (lockWaits - l.waited)) + 3
  | .openLock _ _ => 5 * (l.tries + (lockWaits - l.waited)) + 2
  | .claim _ | .wait _ => 5 * (l.tries + (lockWaits - l.waited)) + 1
  | .again _ | .unlinkTarget _ => 5 * (l.tries + (lockWaits - l.waited))
  | _ => 0

section Rank

variable {p : Pid} {a : Action} {l l' : Proc} {s s' : Etc}

theorem lockRank_untilCreated_lt {n : Nat} {job : Job}
    (h : 5 * (l.tries + (lockWaits - l.waited)) + 4 < n)
    (hin : (l.untilCreated job).pc.isLocking) : lockRank (l.untilCreated job) < n := by
  unfold Proc.untilCreated at hin ⊢
  split
  · rename_i hflag
    rw [if_pos hflag] at hin
    cases hin
  · exact h

theorem Proc.go_lockRank (hl : l.Marked) (hin : l.pc.isLocking) (hin' : l'.pc.isLocking)
    (h : l.go p s = some (l', s')) : lockRank l' < lockRank l := by
  unfold Proc.go at h
  cases hpc : l.pc with
  | lockMtab job =>
      simp only [hpc] at h
      cases h
      simp only [lockRank, hpc, Proc.goto]
      omega
  | openTarget job =>
      simp only [hpc] at h
      cases h
      refine lockRank_untilCreated_lt ?_ hin'
      simp only [lockRank, hpc]
      omega
  | link job =>
      simp only [hpc] at h
      split at h
      · cases h
        cases hin'
      · split at h
        · cases h
          simp only [lockRank, hpc, Proc.goto]
          omega
        · cases h
          simp only [lockRank, hpc, Proc.goto]
          omega
  | created job | claim job | wait job =>
      simp only [hpc] at h
      cases h
      simp only [lockRank, hpc, Proc.goto]
      omega
  | openLock job j =>
      simp only [hpc] at h
      split at h
      · cases h
        cases j <;> simp only [lockRank, hpc, Proc.goto, Bool.false_eq_true, if_true, if_false] <;>
          omega
      · split at h
        · rename_i htries
          cases h
          refine lockRank_untilCreated_lt ?_ hin'
          simp only [lockRank, hpc] at htries ⊢
          omega
        · cases h
          cases hin'
  | unlinkTarget job =>
      simp only [hpc] at h
      cases h
      -- it has made the link, so the loop ends here
      rw [Proc.Marked, hpc] at hl
      rw [Proc.untilCreated, if_pos (show l.weCreatedLockfile = true from hl)] at hin'
      cases hin'
  | again job =>
      simp only [hpc] at h
      cases h
      split at hin'
      · cases hin'
      · rename_i hwaits
        rw [if_neg hwaits]
        refine lockRank_untilCreated_lt ?_ hin'
        simp only [lockRank, hpc] at hwaits ⊢
        omega
  | _ =>
      rw [hpc] at hin
      cases hin

theorem Proc.fail_lockRank (hl : l.Marked) (hin : l.pc.isLocking) (hin' : l'.pc.isLocking)
    (h : l.fail = some l') : lockRank l' < lockRank l := by
  unfold Proc.fail at h
  cases hpc : l.pc with
  | openTarget job =>
      simp only [hpc] at h
      cases h
      unfold Proc.die at hin'
      dsimp only at hin'
      split at hin' <;> cases hin'
  | link job | wait job | openLock job j =>
      simp only [hpc] at h
      cases h
      cases hin'
  | claim job =>
      simp only [hpc] at h
      cases h
      simp only [lockRank, hpc, Proc.goto]
      omega
  | unlinkTarget job =>
      simp only [hpc] at h
      cases h
      rw [Proc.Marked, hpc] at hl
      rw [Proc.untilCreated, if_pos (show l.weCreatedLockfile = true from hl)] at hin'
      cases hin'
  | lockMtab job | created job | again job => simp only [hpc, reduceCtorEq] at h
  | _ =>
      rw [hpc] at hin
      cases hin

/-- Every action of a process in `lock_mtab` brings it nearer to the end. -/
theorem mtabMachine_lockRank (hl : l.Marked) (hin : l.pc.isLocking) (hin' : l'.pc.isLocking)
    (h : mtabMachine p a l s = some (l', s')) : lockRank l' < lockRank l := by
  cases a with
  | go => exact Proc.go_lockRank hl hin hin' h
  | fail =>
      obtain ⟨l₁, hfail, heq⟩ := Option.map_eq_some_iff.1 h
      cases heq
      exact Proc.fail_lockRank hl hin hin' hfail
  | signal =>
      simp only [mtabMachine] at h
      split at h
      · cases h
        unfold Proc.die at hin'
        dsimp only at hin'
        split at hin' <;> cases hin'
      · cases h
  | kill =>
      cases h
      cases hin'
  | start | begin job | quit | part k =>
      -- none of these is possible here
      cases hpc : l.pc <;> rw [hpc] at hin <;>
        first
        | (simp only [mtabMachine, Proc.part, hpc, reduceCtorEq] at h; done)
        | cases hin

end Rank

/-- **A process does not try for ever in `lock_mtab`**: it is out of it after at most 1000006 system
calls and assignments of its own, whatever the other processes do and whatever fails.  How long one
of these calls takes is not said. -/
theorem lock_mtab_ends {ok : Action → Proc → Bool} {p : Pid} {job : Job} {tr : List (Pid × Action)}
    {c c' : Pool Pid Proc Etc} (hpc : (c.loc p).pc = .lockMtab job)
    (hflag : (c.loc p).weCreatedLockfile = false) (hplay : mtabMachine.play ok tr c = some c')
    (hstays : ∀ tr₁ c₁, tr₁ <+: tr → mtabMachine.play ok tr₁ c = some c₁ →
      (c₁.loc p).pc.isLocking) :
    (tr.filter (·.1 = p)).length ≤ 1000006 := by
  by_contra hacts
  have hrank : lockRank (c.loc p) ≤ 1000006 := by
    simp only [lockRank, hpc, lockTries, lockWaits]
    omega
  obtain ⟨tr₁, c₁, hprefix, hplay₁, hout⟩ := Machine.leaves_of_rank (p := p)
    (fun l ↦ l.Marked ∧ l.pc.isLocking) lockRank
    (fun _ h hl hl' ↦ mtabMachine_lockRank hl.1 hl.2 hl'.2 h) tr hplay (by omega)
  have hmarked : (c₁.loc p).Marked := by
    refine Machine.play_keeps (I := fun c ↦ (c.loc p).Marked) ?_ tr₁ hplay₁ ?_
    · intro q a c l s _ hact hmarked
      change (Function.update c.loc q l p).Marked
      by_cases hpq : p = q
      · subst hpq
        rw [Function.update_self]
        exact (mtabMachine_lockStep hact hmarked).1
      · rwa [Function.update_of_ne hpq]
    · rw [Proc.Marked, hpc]
      exact hflag
  exact hout ⟨hmarked, hstays tr₁ c₁ hprefix hplay₁⟩

/-- A process is in `lock_mtab`, and the lock file is another's. -/
def waitingPool : Pool Pid Proc Etc :=
  ⟨fun _ ↦ { Proc.fresh (.lockMtab (.add [])) with waited := 3 },
    ⟨(Etc.bare.dir.create .mountedLock).2, []⟩⟩

/-- The process waits for the lock, and tries again. -/
theorem lock_mtab_ends_waiting :
    (∃ c', mtabMachine.play (fun _ _ ↦ true) (List.replicate 6 (1, .go)) waitingPool = some c' ∧
      (c'.loc 1).pc.isLocking) ∧
    ((List.replicate 6 ((1 : Pid), Action.go)).filter (·.1 = 1)).length ≤ 1000006 := by
  have hplay : ∀ n ≤ 6, ((mtabMachine.play (fun _ _ ↦ true) (List.replicate n (1, .go))
      waitingPool).map fun c ↦ (c.loc 1).pc.isLocking) = some true := by decide
  obtain ⟨c', hc', hin'⟩ := Option.map_eq_some_iff.1 (hplay 6 (by decide))
  refine ⟨⟨c', hc', hin'⟩, lock_mtab_ends (p := 1) (c := waitingPool) rfl rfl hc' ?_⟩
  intro tr₁ c₁ hprefix h₁
  obtain ⟨hlen, heq⟩ := List.prefix_replicate_iff.1 hprefix
  rw [heq] at h₁
  obtain ⟨c₂, h₂, hin⟩ := Option.map_eq_some_iff.1 (hplay tr₁.length hlen)
  obtain rfl := Option.some.inj (h₁.symm.trans h₂)
  exact hin

/-! ## Nothing is left behind -/

/-- The link target of the process may be there. -/
def Pc.hasTarget : Pc → Bool
  | .link _ | .created _ | .openLock _ _ | .claim _ | .unlinkTarget _ => true
  | .wait _ | .again _ | .giveUp _ _ => true
  | _ => false

/-- No process is killed, no signal arrives while there is a link target or where `unlock_mtab` is
about to clear its flag, and the link targets and the lock file can be unlinked. -/
def tidy : Action → Proc → Bool
  | .kill, _ => false
  | .signal, l => !l.pc.hasTarget && !l.pc.isClear .back && !l.pc.isClear .exit
  | .fail, l =>
      match l.pc with
      | .unlinkTarget _ | .giveUp _ _ | .unlockUnlink _ => false
      | _ => true
  | _, _ => true

section Target

variable {p q : Pid} {a : Action} {l l' : Proc} {s s' : Etc} {job : Job}

/-- What an action does to the link targets. -/
structure TargetStep (p : Pid) (l : Proc) (s : Etc) (l' : Proc) (s' : Etc) : Prop where
  /-- Nothing to those of others. -/
  others : ∀ q, q ≠ p → s'.dir.file (.linktarget q) = s.dir.file (.linktarget q)
  /-- The process has no link target where it should not. -/
  own : (l.pc.hasTarget = false → s.dir.file (.linktarget p) = none) →
    l'.pc.hasTarget = false → s'.dir.file (.linktarget p) = none

/-- The directory has the same link targets. -/
def SameTargets (s s' : Etc) : Prop := ∀ q, s'.dir.file (.linktarget q) = s.dir.file (.linktarget q)

theorem TargetStep.of_same (h : SameTargets s s')
    (hl : l'.pc.hasTarget = false → l.pc.hasTarget = false) : TargetStep p l s l' s' :=
  ⟨fun q _ ↦ h q, fun hown hl' ↦ (h p).trans (hown (hl hl'))⟩

/-- With the lock, the link targets are not touched. -/
theorem Section.go_sameTargets {sec : Section} (h : sec.go p job l s = some (l', s')) :
    SameTargets s s' := by
  intro q
  cases sec with
  | setmntent =>
      cases job with
      | update dir instead =>
          simp only [Section.go] at h
          split at h
          · cases h
            rfl
          · cases h
            rfl
      | add line =>
          cases h
          exact Links.file_create_of_ne (by rintro ⟨⟩)
  | reading fd got =>
      simp only [Section.go] at h
      split at h
      · cases h
        rfl
      · cases h
  | makeTemp readError es =>
      cases h
      exact Links.file_create_of_ne (by rintro ⟨⟩)
  | writing readError out es =>
      cases es with
      | nil | cons e es =>
          cases h
          rfl
  | commit readError lost =>
      simp only [Section.go] at h
      split at h
      · rename_i hren
        cases h
        exact Links.file_rename_of_ne hren (by rintro ⟨⟩) (by rintro ⟨⟩)
      · cases h
        rfl
  | appending out =>
      simp only [Section.go] at h
      split at h
      · cases h
        rfl
      · cases h

theorem Section.part_sameTargets {sec : Section} {k : Nat}
    (h : sec.part k p job l s = some (l', s')) : SameTargets s s' := by
  intro q
  cases sec with
  | reading fd got | writing readError out es =>
      cases h
      rfl
  | appending out =>
      cases job with
      | add line =>
          cases h
          rfl
      | update dir instead => cases h
  | _ => cases h

theorem TargetStep.unlinked (l l' : Proc) (s : Etc) (p : Pid) :
    TargetStep p l s l' { s with dir := s.dir.unlink (.linktarget p) } := by
  refine ⟨fun q hqp ↦ Links.file_unlink_of_ne ?_, fun _ _ ↦ Links.file_unlink_self⟩
  exact fun h ↦ hqp (EtcName.linktarget.inj h)

theorem Proc.go_target (hl : l.Marked) (hbusy : l.pc.holds → ¬ s.Unlocked)
    (h : l.go p s = some (l', s')) : TargetStep p l s l' s' := by
  unfold Proc.Marked at hl
  unfold Proc.go at h
  cases hpc : l.pc with
  | getMtabInfo job | lockMtab job | unlockClose after | unlockClear after =>
      simp only [hpc] at h
      cases h
      exact .of_same (fun q ↦ rfl) fun _ ↦ congrArg Pc.hasTarget hpc
  | mtabIsWritable job =>
      simp only [hpc] at h
      cases h
      exact .of_same (fun q ↦ Links.file_create_of_ne (by rintro ⟨⟩))
        fun _ ↦ congrArg Pc.hasTarget hpc
  | openTarget job =>
      simp only [hpc] at h hl
      cases h
      refine ⟨fun q hqp ↦ Links.file_create_of_ne ?_, fun _ hl' ↦ ?_⟩
      · exact fun h ↦ hqp (EtcName.linktarget.inj h)
      · -- it goes on to the loop
        rw [Proc.untilCreated, if_neg (Bool.eq_false_iff.1 hl)] at hl'
        cases hl'
  | link job =>
      simp only [hpc] at h
      split at h
      · cases h
        exact .of_same (fun q ↦ rfl) (by rintro ⟨⟩)
      · split at h
        · rename_i hlink
          cases h
          exact .of_same (fun q ↦ Links.file_link_of_ne hlink (by rintro ⟨⟩)) (by rintro ⟨⟩)
        · cases h
          exact .of_same (fun q ↦ rfl) (by rintro ⟨⟩)
  | created job | claim job | wait job =>
      simp only [hpc] at h
      cases h
      exact .of_same (fun q ↦ rfl) (by rintro ⟨⟩)
  | openLock job j =>
      simp only [hpc] at h hl
      split at h
      · cases h
        cases j <;> exact .of_same (fun q ↦ rfl) (by rintro ⟨⟩)
      · rename_i hnone
        split at h
        · cases h
          refine .of_same (fun q ↦ rfl) fun hl' ↦ ?_
          -- its own lock file cannot be gone
          have hflag : l.weCreatedLockfile = false := by
            refine hl.trans (Bool.eq_false_of_not_eq_true fun hj ↦ ?_)
            exact hbusy (by rw [hpc]; exact hj) hnone
          rw [Proc.untilCreated, if_neg (Bool.eq_false_iff.1 hflag)] at hl'
          cases hl'
        · cases h
          exact .of_same (fun q ↦ rfl) (by rintro ⟨⟩)
  | unlinkTarget job | giveUp job j =>
      simp only [hpc] at h
      cases h
      exact .unlinked l _ s p
  | again job =>
      simp only [hpc] at h hl
      cases h
      refine .of_same (fun q ↦ rfl) fun hl' ↦ ?_
      split at hl'
      · cases hl'
      · rw [Proc.untilCreated, if_neg (Bool.eq_false_iff.1 hl)] at hl'
        cases hl'
  | locked job sec =>
      simp only [hpc] at h
      exact .of_same (Section.go_sameTargets h) fun _ ↦ congrArg Pc.hasTarget hpc
  | unlockUnlink after =>
      simp only [hpc] at h
      cases h
      exact .of_same (fun q ↦ Links.file_unlink_of_ne (by rintro ⟨⟩))
        fun _ ↦ congrArg Pc.hasTarget hpc
  | exiting streams =>
      cases streams with
      | nil | cons out streams =>
          simp only [hpc] at h
          cases h
          exact .of_same (fun q ↦ rfl) fun _ ↦ congrArg Pc.hasTarget hpc
  | _ => simp only [hpc, reduceCtorEq] at h

theorem Proc.fail_target (hok : tidy .fail l) (h : l.fail = some l') : TargetStep p l s l' s := by
  refine .of_same (fun q ↦ rfl) fun hl' ↦ ?_
  unfold Proc.fail at h
  cases hpc : l.pc with
  | link job | wait job | openLock job j | claim job =>
      simp only [hpc] at h
      cases h
      cases hl'
  | unlinkTarget job | giveUp job j => simp only [tidy, hpc, Bool.false_eq_true] at hok
  | again job | created job => simp only [hpc, reduceCtorEq] at h
  | _ => rfl

/-- **What an action does to the link targets.** -/
theorem mtabMachine_target (hok : tidy a l) (hl : l.Marked) (hbusy : l.pc.holds → ¬ s.Unlocked)
    (h : mtabMachine p a l s = some (l', s')) : TargetStep p l s l' s' := by
  cases a with
  | start | quit =>
      simp only [mtabMachine] at h
      split at h
      · rename_i hpc
        cases h
        exact .of_same (fun q ↦ rfl) fun _ ↦ congrArg Pc.hasTarget hpc
      · cases h
  | begin job =>
      simp only [mtabMachine] at h
      split at h
      · rename_i hpc
        cases h
        exact .of_same (fun q ↦ rfl) fun _ ↦ congrArg Pc.hasTarget hpc
      · rename_i hpc
        cases h
        exact .of_same (fun q ↦ rfl) fun _ ↦ congrArg Pc.hasTarget hpc
      · cases h
  | go => exact Proc.go_target hl hbusy h
  | fail =>
      obtain ⟨l₁, hfail, heq⟩ := Option.map_eq_some_iff.1 h
      cases heq
      exact Proc.fail_target hok hfail
  | part k =>
      simp only [mtabMachine, Proc.part] at h
      split at h
      · rename_i hpc
        exact .of_same (Section.part_sameTargets h) fun _ ↦ congrArg Pc.hasTarget hpc
      · rename_i hpc
        cases h
        exact .of_same (fun q ↦ rfl) fun _ ↦ congrArg Pc.hasTarget hpc
      · cases h
  | signal =>
      simp only [mtabMachine] at h
      split at h
      · cases h
        simp only [tidy, Bool.and_eq_true, Bool.not_eq_true'] at hok
        exact .of_same (fun q ↦ rfl) fun _ ↦ hok.1.1
      · cases h
  | kill => cases hok

end Target

/-- Whoever has the lock is there to give it back, and link targets are only where they are in
use. -/
structure Neat (c : Pool Pid Proc Etc) : Prop extends
    Machine.Exclusive Proc.Marked (fun l ↦ l.pc.holds = true) Etc.Unlocked c where
  lock : c.shared.Unlocked ∨ ∃ p, (c.loc p).pc.holds = true
  targets : ∀ p, (c.loc p).pc.hasTarget = false → c.shared.dir.file (.linktarget p) = none

theorem Neat.step {p : Pid} {a : Action} {c : Pool Pid Proc Etc} {l : Proc} {s : Etc}
    (hok : tidy a (c.loc p)) (hact : mtabMachine p a (c.loc p) c.shared = some (l, s))
    (hc : Neat c) : Neat ⟨Function.update c.loc p l, s⟩ := by
  have hsignal : ∀ l after, l.pc = .unlockClear after → tidy .signal l = false := by
    intro l after hpc
    cases after <;> simp [tidy, hpc, Pc.isClear]
  have hexcl := (mtabMachine_guards hsignal).step hok hact hc.toExclusive
  have htarget := mtabMachine_target hok (hc.known p) (hc.busy p) hact
  refine ⟨hexcl, ?_, ?_⟩
  · change s.Unlocked ∨ ∃ q, (Function.update c.loc p l q).pc.holds = true
    rcases (mtabMachine_lockStep hact (hc.known p)).2 with hstep | ⟨-, -, hlost⟩ | ⟨rfl, after, hpc⟩
    · cases hstep with
      | keep hholds hs =>
          rcases hc.lock with hfree | ⟨q, hq⟩
          · exact .inl (hs.trans hfree)
          · refine .inr ⟨q, ?_⟩
            by_cases hqp : q = p
            · subst hqp
              rw [Function.update_self]
              exact hholds.trans hq
            · rwa [Function.update_of_ne hqp]
      | take hholds hholds' hs hs' =>
          refine .inr ⟨p, ?_⟩
          rwa [Function.update_self]
      | give hholds hholds' hs' => exact .inl hs'
    · rcases hlost with rfl | ⟨rfl, job, hpc⟩ | ⟨rfl, after, hpc⟩
      · cases hok
      · simp [tidy, hpc, Pc.hasTarget] at hok
      · simp [tidy, hpc] at hok
    · exact absurd hok (Bool.eq_false_iff.1 (hsignal _ after hpc))
  · refine Machine.forall_update
      (Q := fun q (l : Proc) ↦ l.pc.hasTarget = false → s.dir.file (.linktarget q) = none)
      (htarget.own (hc.targets p)) fun q hqp hq ↦ ?_
    exact (htarget.others q hqp).trans (hc.targets q hq)

end Hsfs.Mtab
