import Hsfs.Mtab.Lock

/-!
# One process at a time

A process that has given its link target the name of the lock file has the lock until it takes that
name away again.
-/

namespace Hsfs.Mtab

open Interact

/-! ## Who has the lock -/

/-- What `we_created_lockfile` is at a place. -/
def Pc.flagged : Pc → Bool
  | .openLock _ j => j
  | .giveUp _ j => j
  | .claim _ | .unlinkTarget _ | .locked _ _ => true
  | .unlockClose _ | .unlockUnlink _ | .unlockClear _ => true
  | _ => false

/-- The process has the lock here: the lock file is its own.  The flag is set a moment later, and
cleared a moment later. -/
def Pc.holds : Pc → Bool
  | .created _ => true
  | .unlockClear _ => false
  | pc => pc.flagged

/-- The flag is as it has to be. -/
def Proc.Marked (l : Proc) : Prop := l.weCreatedLockfile = l.pc.flagged

/-- There is no lock file. -/
def Etc.Unlocked (s : Etc) : Prop := s.dir.file .mountedLock = none

section Step

variable {p : Pid} {a : Action} {l l' : Proc} {s s' : Etc} {job : Job}

/-- What an action does to the lock. -/
inductive LockStep (l : Proc) (s : Etc) (l' : Proc) (s' : Etc) : Prop where
  /-- Nothing. -/
  | keep (hl : l'.pc.holds = l.pc.holds)
      (hs : s'.dir.file .mountedLock = s.dir.file .mountedLock)
  /-- The process takes it. -/
  | take (hl : l.pc.holds = false) (hl' : l'.pc.holds = true) (hs : s.Unlocked)
      (hs' : ¬ s'.Unlocked)
  /-- The process gives it back. -/
  | give (hl : l.pc.holds = true) (hl' : l'.pc.holds = false) (hs' : s'.Unlocked)

theorem LockStep.at {pc : Pc} (hpc : l.pc = pc) (hl : l'.pc.holds = pc.holds)
    (hs : s'.dir.file .mountedLock = s.dir.file .mountedLock) : LockStep l s l' s' :=
  .keep (hl.trans (congrArg Pc.holds hpc.symm)) hs

/-! ### Where the steps of a process lead -/

/-- The flag is as it has to be, and the process has the lock just if it is set. -/
def Proc.Follows (flag : Bool) (l : Proc) : Prop := l.Marked ∧ l.pc.holds = flag

/-- A jump by the flag. -/
theorem Proc.follows_ite {flag : Bool} {l₁ l₂ : Proc} (h₁ : flag = true → l₁.Follows true)
    (h₂ : flag = false → l₂.Follows false) : (if flag then l₁ else l₂).Follows flag := by
  cases flag with
  | true => exact h₁ rfl
  | false => exact h₂ rfl

theorem Proc.follows_die (l : Proc) : l.die.Follows l.weCreatedLockfile :=
  Proc.follows_ite (fun hflag ↦ ⟨hflag, rfl⟩) fun hflag ↦ ⟨hflag, rfl⟩

theorem Proc.follows_unlockMtab (l : Proc) : l.unlockMtab.Follows l.weCreatedLockfile :=
  Proc.follows_ite (fun hflag ↦ ⟨hflag, rfl⟩) fun hflag ↦ ⟨hflag, rfl⟩

theorem Proc.follows_untilCreated (l : Proc) (job : Job) :
    (l.untilCreated job).Follows l.weCreatedLockfile :=
  Proc.follows_ite (fun hflag ↦ ⟨hflag, rfl⟩) fun hflag ↦ ⟨hflag, rfl⟩

theorem Proc.follows_unlocked (after : After) (hflag : l.weCreatedLockfile = false) :
    (l.unlocked after).Follows false := by
  cases after <;> exact ⟨hflag, rfl⟩

/-- With the lock, the lock file is not touched. -/
theorem Section.go_lockStep {sec : Section} (hpc : l.pc = .locked job sec)
    (hflag : l.weCreatedLockfile = true) (h : sec.go p job l s = some (l', s')) :
    l'.Marked ∧ LockStep l s l' s' := by
  have hunlock : l.unlockMtab.pc.holds = true := l.follows_unlockMtab.2.trans hflag
  cases sec with
  | setmntent =>
      cases job with
      | update dir instead =>
          simp only [Section.go] at h
          split at h
          · cases h
            exact ⟨hflag, .at hpc rfl rfl⟩
          · cases h
            exact ⟨l.follows_unlockMtab.1, .at hpc hunlock rfl⟩
      | add line =>
          cases h
          exact ⟨hflag, .at hpc rfl (Links.file_create_of_ne (by decide))⟩
  | reading fd got =>
      simp only [Section.go] at h
      split at h
      · cases h
        exact ⟨hflag, .at hpc rfl rfl⟩
      · cases h
  | makeTemp readError es =>
      cases h
      exact ⟨hflag, .at hpc rfl (Links.file_create_of_ne (by decide))⟩
  | writing readError out es =>
      cases es with
      | nil | cons e es =>
          cases h
          exact ⟨hflag, .at hpc rfl rfl⟩
  | commit readError lost =>
      simp only [Section.go] at h
      split at h
      · rename_i hren
        cases h
        have hfile := Links.file_rename_of_ne hren (k := .mountedLock) (by decide) (by decide)
        exact ⟨l.follows_unlockMtab.1, .at hpc hunlock hfile⟩
      · cases h
        exact ⟨l.follows_unlockMtab.1, .at hpc hunlock rfl⟩
  | appending out =>
      simp only [Section.go] at h
      split at h
      · cases h
        exact ⟨l.follows_unlockMtab.1, .at hpc hunlock rfl⟩
      · cases h

theorem Section.fail_lockStep {sec : Section} (hpc : l.pc = .locked job sec)
    (hflag : l.weCreatedLockfile = true) (h : sec.fail job l = some l') :
    l'.Marked ∧ LockStep l s l' s := by
  have hunlock : l.unlockMtab.pc.holds = true := l.follows_unlockMtab.2.trans hflag
  cases sec with
  | setmntent | makeTemp readError es | commit readError lost =>
      cases h
      exact ⟨l.follows_unlockMtab.1, .at hpc hunlock rfl⟩
  | reading fd got =>
      cases h
      exact ⟨hflag, .at hpc rfl rfl⟩
  | writing readError out es =>
      cases es with
      | nil =>
          cases h
          exact ⟨hflag, .at hpc rfl rfl⟩
      | cons e es =>
          cases h
          exact ⟨l.follows_die.1, .at hpc (l.follows_die.2.trans hflag) rfl⟩
  | appending out =>
      cases h
      exact ⟨(Proc.follows_unlockMtab _).1, .at hpc ((Proc.follows_unlockMtab _).2.trans hflag) rfl⟩

theorem Section.part_lockStep {sec : Section} {k : Nat} (hpc : l.pc = .locked job sec)
    (hflag : l.weCreatedLockfile = true) (h : sec.part k p job l s = some (l', s')) :
    l'.Marked ∧ LockStep l s l' s' := by
  cases sec with
  | reading fd got | writing readError out es =>
      cases h
      exact ⟨hflag, .at hpc rfl rfl⟩
  | appending out =>
      cases job with
      | add line =>
          cases h
          exact ⟨hflag, .at hpc rfl rfl⟩
      | update dir instead => cases h
  | _ => cases h

theorem Proc.go_lockStep (hl : l.Marked) (h : l.go p s = some (l', s')) :
    l'.Marked ∧ LockStep l s l' s' := by
  unfold Proc.Marked at hl
  unfold Proc.go at h
  cases hpc : l.pc with
  | lockMtab job | claim job | wait job | unlockClose after =>
      simp only [hpc] at h hl
      cases h
      exact ⟨hl, .at hpc rfl rfl⟩
  | getMtabInfo job =>
      simp only [hpc] at h hl
      cases h
      split <;> exact ⟨hl, .at hpc rfl rfl⟩
  | mtabIsWritable job =>
      simp only [hpc] at h hl
      cases h
      exact ⟨hl, .at hpc rfl (Links.file_create_of_ne (by decide))⟩
  | openTarget job =>
      simp only [hpc] at h hl
      cases h
      have hfile := Links.file_create_of_ne (d := s.dir) (m := .mountedLock) (n := .linktarget p)
        (by rintro ⟨⟩)
      exact ⟨(l.follows_untilCreated job).1,
        .at hpc ((l.follows_untilCreated job).2.trans hl) hfile⟩
  | link job =>
      simp only [hpc] at h hl
      split at h
      · cases h
        exact ⟨hl, .at hpc rfl rfl⟩
      · split at h
        · rename_i hlink
          cases h
          obtain ⟨hfree, hnew, -⟩ := Links.link_eq_some hlink
          exact ⟨hl, .take (congrArg Pc.holds hpc) rfl hfree hnew⟩
        · cases h
          exact ⟨hl, .at hpc rfl rfl⟩
  | created job =>
      simp only [hpc] at h
      cases h
      exact ⟨rfl, .at hpc rfl rfl⟩
  | openLock job j =>
      simp only [hpc] at h hl
      split at h
      · cases h
        cases j <;> exact ⟨hl, .at hpc rfl rfl⟩
      · split at h
        · cases h
          exact ⟨(Proc.follows_untilCreated _ job).1,
            .at hpc ((Proc.follows_untilCreated _ job).2.trans hl) rfl⟩
        · cases h
          exact ⟨hl, .at hpc rfl rfl⟩
  | unlinkTarget job =>
      simp only [hpc] at h hl
      cases h
      have hfile := Links.file_unlink_of_ne (d := s.dir) (m := .mountedLock) (n := .linktarget p)
        (by rintro ⟨⟩)
      exact ⟨(l.follows_untilCreated job).1,
        .at hpc ((l.follows_untilCreated job).2.trans hl) hfile⟩
  | again job =>
      simp only [hpc] at h hl
      cases h
      split
      · exact ⟨hl, .at hpc rfl rfl⟩
      · exact ⟨(Proc.follows_untilCreated _ job).1,
          .at hpc ((Proc.follows_untilCreated _ job).2.trans hl) rfl⟩
  | giveUp job j =>
      simp only [hpc] at h hl
      cases h
      have hfile := Links.file_unlink_of_ne (d := s.dir) (m := .mountedLock) (n := .linktarget p)
        (by rintro ⟨⟩)
      exact ⟨l.follows_die.1, .at hpc (l.follows_die.2.trans hl) hfile⟩
  | locked job sec =>
      simp only [hpc] at h hl
      exact Section.go_lockStep hpc hl h
  | unlockUnlink after =>
      simp only [hpc] at h hl
      cases h
      exact ⟨hl, .give (congrArg Pc.holds hpc) rfl Links.file_unlink_self⟩
  | unlockClear after =>
      simp only [hpc] at h
      cases h
      obtain ⟨hmarked, hholds⟩ := Proc.follows_unlocked (l := { l with weCreatedLockfile := false })
        after rfl
      exact ⟨hmarked, .at hpc hholds rfl⟩
  | exiting streams =>
      cases streams with
      | nil =>
          simp only [hpc] at h
          cases h
          exact ⟨rfl, .at hpc rfl rfl⟩
      | cons out streams =>
          simp only [hpc] at h hl
          cases h
          exact ⟨hl, .at hpc rfl rfl⟩
  | _ => simp only [hpc, reduceCtorEq] at h

/-- A call that fails does nothing to the lock, but for the `unlink` in `unlock_mtab`: then the
process is done with the lock, and the lock file stays. -/
theorem Proc.fail_lockStep (hl : l.Marked) (h : l.fail = some l') :
    l'.Marked ∧ (LockStep l s l' s ∨
      l'.pc.holds = false ∧ ∃ after, l.pc = .unlockUnlink after) := by
  unfold Proc.Marked at hl
  unfold Proc.fail at h
  cases hpc : l.pc with
  | unlockUnlink after =>
      simp only [hpc] at h hl
      cases h
      exact ⟨hl, .inr ⟨rfl, after, rfl⟩⟩
  | getMtabInfo job =>
      simp only [hpc] at h hl
      cases h
      split <;> exact ⟨hl, .inl (.at hpc rfl rfl)⟩
  | openTarget job | giveUp job j =>
      simp only [hpc] at h hl
      cases h
      exact ⟨l.follows_die.1, .inl (.at hpc (l.follows_die.2.trans hl) rfl)⟩
  | mtabIsWritable job | link job | wait job | openLock job j | claim job | unlockClose after =>
      simp only [hpc] at h hl
      cases h
      exact ⟨hl, .inl (.at hpc rfl rfl)⟩
  | unlinkTarget job =>
      simp only [hpc] at h hl
      cases h
      obtain ⟨hmarked, hholds⟩ := l.follows_untilCreated job
      exact ⟨hmarked, .inl (.at hpc (hholds.trans hl) rfl)⟩
  | locked job sec =>
      simp only [hpc] at h hl
      exact (Section.fail_lockStep hpc hl h).imp_right .inl
  | exiting streams =>
      cases streams with
      | nil => simp only [hpc, reduceCtorEq] at h
      | cons out streams =>
          simp only [hpc] at h hl
          cases h
          exact ⟨hl, .inl (.at hpc rfl rfl)⟩
  | _ => simp only [hpc, reduceCtorEq] at h

theorem Proc.part_lockStep {k : Nat} (hl : l.Marked) (h : l.part k p s = some (l', s')) :
    l'.Marked ∧ LockStep l s l' s' := by
  unfold Proc.Marked at hl
  unfold Proc.part at h
  cases hpc : l.pc with
  | locked job sec =>
      simp only [hpc] at h hl
      exact Section.part_lockStep hpc hl h
  | exiting streams =>
      cases streams with
      | nil => simp only [hpc, reduceCtorEq] at h
      | cons out streams =>
          simp only [hpc] at h hl
          cases h
          exact ⟨hl, .at hpc rfl rfl⟩
  | _ => simp only [hpc, reduceCtorEq] at h

/-- Signals arrive only at some places. -/
def signalsAt (sig : Pc → Bool) : Action → Proc → Bool
  | .signal, l => sig l.pc
  | _, _ => true

/-- **What an action does to the lock.**  A lock file loses its owner only if this is killed, by a
signal before it has set its flag, or if the lock file cannot be unlinked; and if a signal arrives
when `unlock_mtab` is about to clear the flag, it will unlink a lock file that is not its own. -/
theorem mtabMachine_lockStep (h : mtabMachine p a l s = some (l', s')) (hl : l.Marked) :
    l'.Marked ∧ (LockStep l s l' s' ∨
      s' = s ∧ l'.pc.holds = false ∧ (a = .kill ∨ (a = .signal ∧ ∃ job, l.pc = .created job) ∨
        a = .fail ∧ ∃ after, l.pc = .unlockUnlink after) ∨
      a = .signal ∧ ∃ after, l.pc = .unlockClear after) := by
  cases a with
  | start =>
      simp only [mtabMachine] at h
      split at h
      · rename_i hpc
        cases h
        exact ⟨rfl, .inl (.at hpc rfl rfl)⟩
      · cases h
  | begin job =>
      simp only [mtabMachine] at h
      split at h
      · rename_i hpc
        cases h
        rw [Proc.Marked, hpc] at hl
        exact ⟨hl, .inl (.at hpc rfl rfl)⟩
      · rename_i hpc
        cases h
        rw [Proc.Marked, hpc] at hl
        exact ⟨hl, .inl (.at hpc rfl rfl)⟩
      · cases h
  | quit =>
      simp only [mtabMachine] at h
      split at h
      · rename_i hpc
        cases h
        rw [Proc.Marked, hpc] at hl
        exact ⟨hl, .inl (.at hpc rfl rfl)⟩
      · cases h
  | go =>
      obtain ⟨hl', hstep⟩ := Proc.go_lockStep hl h
      exact ⟨hl', .inl hstep⟩
  | fail =>
      obtain ⟨l₁, hfail, heq⟩ := Option.map_eq_some_iff.1 h
      cases heq
      obtain ⟨hl', hstep⟩ := Proc.fail_lockStep hl hfail
      exact ⟨hl', hstep.imp_right fun ⟨hholds, hpc⟩ ↦ .inl ⟨rfl, hholds, .inr (.inr ⟨rfl, hpc⟩)⟩⟩
  | part k =>
      obtain ⟨hl', hstep⟩ := Proc.part_lockStep hl h
      exact ⟨hl', .inl hstep⟩
  | signal =>
      simp only [mtabMachine] at h
      split at h
      · cases h
        refine ⟨(Proc.follows_die _).1, ?_⟩
        have hholds := (Proc.follows_die { l with masked := true }).2.trans hl
        cases hpc : l.pc with
        | created job =>
            rw [hpc] at hholds
            exact .inr (.inl ⟨rfl, hholds, .inr (.inl ⟨rfl, job, rfl⟩)⟩)
        | unlockClear after => exact .inr (.inr ⟨rfl, after, rfl⟩)
        | _ =>
            rw [hpc] at hholds
            exact .inl (.at hpc hholds rfl)
      · cases h
  | kill =>
      cases h
      exact ⟨rfl, .inr (.inl ⟨rfl, rfl, .inl rfl⟩)⟩

end Step

/-! ## Every run -/

/-- The process is between `lock_mtab` and `unlock_mtab`. -/
def Pc.isLocked : Pc → Bool
  | .locked _ _ => true
  | _ => false

theorem Pc.holds_of_isLocked {pc : Pc} (h : pc.isLocked) : pc.holds := by
  cases pc with
  | locked job sec => rfl
  | _ => cases h

/-- Before any process has started. -/
def Etc.boot (s : Etc) : Pool Pid Proc Etc := ⟨fun _ ↦ .fresh .gone, s⟩

/-- The lock is guarded if signals do not arrive where `unlock_mtab` is about to clear its flag. -/
theorem mtabMachine_guards {ok : Action → Proc → Bool}
    (hok : ∀ l after, l.pc = .unlockClear after → ok .signal l = false) :
    mtabMachine.Guards ok Proc.Marked (fun l ↦ l.pc.holds = true) Etc.Unlocked where
  known := fun _ h hl ↦ (mtabMachine_lockStep h hl).1
  take := by
    intro p a l s l' s' ha h hl hl'
    rcases (mtabMachine_lockStep h hl).2 with hstep | ⟨-, hholds', -⟩ | ⟨rfl, after, hpc⟩
    · cases hstep with
      | keep hholds hs => exact .inl (hholds.symm.trans hl')
      | take hholds hholds' hs hs' => exact .inr hs
      | give hholds hholds' hs' => exact .inl hholds
    · exact absurd hl' (Bool.eq_false_iff.1 hholds')
    · exact absurd ha (Bool.eq_false_iff.1 (hok l after hpc))
  busy := by
    intro p a l s l' s' ha h hl hl' hbusy
    rcases (mtabMachine_lockStep h hl).2 with hstep | ⟨-, hholds', -⟩ | ⟨rfl, after, hpc⟩
    · cases hstep with
      | keep hholds hs => exact fun hs' ↦ hbusy (hholds.symm.trans hl') (hs.symm.trans hs')
      | take hholds hholds' hs hs' => exact hs'
      | give hholds hholds' hs' => exact absurd hl' (Bool.eq_false_iff.1 hholds')
    · exact absurd hl' (Bool.eq_false_iff.1 hholds')
    · exact absurd ha (Bool.eq_false_iff.1 (hok l after hpc))
  alone := by
    intro p a l s l' s' ha h hl hnot hs'
    rcases (mtabMachine_lockStep h hl).2 with hstep | ⟨rfl, -, -⟩ | ⟨rfl, after, hpc⟩
    · cases hstep with
      | keep hholds hs => exact hs.symm.trans hs'
      | take hholds hholds' hs hnew => exact hs
      | give hholds hholds' hs' => exact absurd hholds hnot
    · exact hs'
    · exact absurd ha (Bool.eq_false_iff.1 (hok l after hpc))

theorem exclusive_boot (s : Etc) :
    Machine.Exclusive Proc.Marked (fun l ↦ l.pc.holds = true) Etc.Unlocked s.boot where
  known := fun _ ↦ rfl
  busy := by rintro p ⟨⟩
  unique := by rintro p q ⟨⟩

/-! ### A signal at the wrong moment -/

/-- A directory without files. -/
def Etc.bare : Etc := ⟨⟨fun _ ↦ none, fun _ ↦ [], 0, by rintro n i ⟨⟩⟩, []⟩

/-- A process takes a lock that nobody has. -/
def lockTrace (p : Pid) : List (Pid × Action) :=
  [(p, .start), (p, .begin (.add []))] ++ List.replicate 7 (p, .go)

/-- A process has unlinked the lock file, at the end of its job or in `die`. -/
def unlockTrace (p : Pid) : After → List (Pid × Action)
  | .back => lockTrace p ++ List.replicate 4 (p, .go)
  | .exit => (lockTrace p).take 6 ++ [(p, .fail), (p, .go), (p, .go), (p, .go)]

/-- A second process takes the lock.  Now a signal makes the first one unlink the lock file again,
and a third process takes the lock. -/
def intrusion (after : After) : List (Pid × Action) :=
  unlockTrace 1 after ++ lockTrace 2 ++ [(1, .signal), (1, .go), (1, .go)] ++ lockTrace 3

/-- `unlock_mtab` is about to clear its flag. -/
def Pc.isClear (after : After) : Pc → Bool
  | .unlockClear after' => after' = after
  | _ => false

theorem play_intrusion (after : After) :
    (mtabMachine.play (signalsAt (Pc.isClear after)) (intrusion after) Etc.bare.boot).map
      (fun c ↦ ((c.loc 2).pc.isLocked, (c.loc 3).pc.isLocked)) = some (true, true) := by
  cases after <;> decide

/-- **No two processes are between `lock_mtab` and `unlock_mtab`**, in whatever order they act,
whatever fails, and whoever is killed: just if no signal arrives between the `unlink` of
`unlock_mtab` and the assignment behind it. -/
theorem locked_alone_iff (sig : Pc → Bool) :
    (∀ s tr c, mtabMachine.play (signalsAt sig) tr (Etc.boot s) = some c →
      ∀ p q, (c.loc p).pc.isLocked → (c.loc q).pc.isLocked → p = q) ↔
    ∀ after, sig (.unlockClear after) = false := by
  constructor
  · intro halone after
    by_contra hsig
    obtain ⟨c, hplay, hlocked⟩ := Option.map_eq_some_iff.1 (play_intrusion after)
    obtain ⟨h₂, h₃⟩ := Prod.mk.inj hlocked
    have hmono : ∀ a l, signalsAt (Pc.isClear after) a l → signalsAt sig a l := by
      intro a l ha
      cases a with
      | signal =>
          change Pc.isClear after l.pc = true at ha
          change sig l.pc = true
          cases hpc : l.pc with
          | unlockClear after' =>
              rw [hpc] at ha
              rw [of_decide_eq_true ha]
              exact Bool.eq_true_of_not_eq_false hsig
          | _ =>
              rw [hpc] at ha
              cases ha
      | _ => rfl
    have h23 := halone Etc.bare _ c (Machine.play_mono hmono _ hplay) 2 3 h₂ h₃
    exact absurd h23 (by decide)
  · intro hsig s tr c hplay p q hp hq
    have hguards : mtabMachine.Guards (signalsAt sig) Proc.Marked _ Etc.Unlocked :=
      mtabMachine_guards fun l after hpc ↦ (congrArg sig hpc).trans (hsig after)
    have hexcl := hguards.play tr hplay (exclusive_boot s)
    exact hexcl.unique p q (Pc.holds_of_isLocked hp) (Pc.holds_of_isLocked hq)

end Hsfs.Mtab
