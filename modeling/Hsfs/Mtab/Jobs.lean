import Hsfs.Mtab.Serial

/-!
# mtab after the jobs of all processes

If no system call fails and no process gives up, the jobs of all processes leave mtab as if they had
been done one after the other: there is an order of all jobs that keeps the order of each process,
and mtab is what the jobs make of it in this order.
-/

namespace Hsfs.Mtab

open Interact

/-! ## Jobs -/

/-- mtab after a job that nobody disturbs. -/
def Job.apply (file : List UInt8) : Job → List UInt8
  | .update dir instead => updateMtab dir instead false file
  | .add line => file ++ line

/-- The change that a job makes if nothing fails. -/
def Job.whole : Job → Change
  | .update dir instead => .update dir instead none 0
  | .add line => .append line 0

theorem Job.apply_whole (job : Job) (file : List UInt8) :
    job.whole.apply file = job.apply file := by
  cases job with
  | update dir instead => exact withoutTail_zero _
  | add line => exact congrArg _ (withoutTail_zero line)

/-- The job that makes a change. -/
def Change.job : Change → Job
  | .update dir instead _ _ => .update dir instead
  | .append line _ => .add line

/-- All of the change was made. -/
def Change.IsWhole (ch : Change) : Prop := ch = ch.job.whole

/-- The jobs of a process that have changed mtab. -/
def jobsOf (p : Pid) (history : List (Pid × Change)) : List Job :=
  (history.filter (·.1 = p)).map (·.2.job)

/-- The jobs of a process, in an order of all jobs. -/
def jobsIn (p : Pid) (order : List (Pid × Job)) : List Job :=
  (order.filter (·.1 = p)).map Prod.snd

/-- The job that is begun. -/
def Action.job : Action → Option Job
  | .begin job => some job
  | _ => none

/-- The jobs that a process has begun. -/
def begun (p : Pid) (tr : List (Pid × Action)) : List Job :=
  (tr.filter (·.1 = p)).filterMap (·.2.job)

/-- The job that has not changed mtab yet. -/
def Pc.pending : Pc → List Job
  | .getMtabInfo job | .mtabIsWritable job | .lockMtab job | .openTarget job => [job]
  | .link job | .created job | .openLock job _ | .claim job | .unlinkTarget job => [job]
  | .wait job | .again job | .giveUp job _ => [job]
  | .locked _ (.appending _) => []
  | .locked job _ => [job]
  | _ => []

/-- The process is writing to mtab. -/
def Pc.IsAppending (pc : Pc) : Prop := ∃ job out, pc = .locked job (.appending out)

/-- No system call fails, no signal arrives, and no process is killed or gives up. -/
def smooth : Action → Proc → Bool
  | .fail, _ | .signal, _ | .kill, _ => false
  | .go, l =>
      match l.pc with
      | .giveUp _ _ => false
      | _ => true
  | _, _ => true

/-- Nothing has failed so far. -/
def Section.Faultless : Section → Prop
  | .makeTemp readError _ => readError = none
  | .writing readError _ _ => readError = none
  | .commit readError lost => readError = none ∧ lost = 0
  | _ => True

/-- Nothing has failed so far. -/
structure Proc.Faultless (l : Proc) : Prop where
  /-- The process knows that there is a mtab. -/
  info : l.mtabDoesNotExist ≠ some true
  /-- Nothing has failed since it has the lock. -/
  locked : ∀ job sec, l.pc = .locked job sec → sec.Faultless

theorem calm_of_smooth (a : Action) (l : Proc) (h : smooth a l) : calm a l := by
  cases a <;> first | rfl | cases h

section Step

variable {p q : Pid} {a : Action} {l l' : Proc} {s s' : Etc} {job : Job} {first : List UInt8}

/-! ## What a step does to the changes so far -/

/-- What a step does to the changes so far and to the job that is pending. -/
inductive HistStep (p : Pid) (a : Action) (l : Proc) (h : List (Pid × Change)) (l' : Proc)
    (h' : List (Pid × Change)) : Prop where
  /-- Nothing. -/
  | same (ha : a.job = none) (hh : h' = h) (hpend : l'.pc.pending = l.pc.pending)
      (hl : ¬ l.pc.IsAppending)
  /-- A job is begun. -/
  | begin (job : Job) (ha : a.job = some job) (hh : h' = h) (hpend : l.pc.pending = [])
      (hpend' : l'.pc.pending = [job]) (hl : ¬ l.pc.IsAppending)
  /-- A change is made. -/
  | push (ch : Change) (ha : a.job = none) (hh : h' = h ++ [(p, ch)])
      (hpend : l.pc.pending = [ch.job]) (hpend' : l'.pc.pending = [])
      (hwhole : ch.IsWhole ∨ l'.pc.IsAppending) (hholds : l.pc.holds = true)
      (hl : ¬ l.pc.IsAppending)
  /-- A change goes on. -/
  | grow (before : List (Pid × Change)) (ch ch' : Change) (ha : a.job = none)
      (hh : h = before ++ [(p, ch)]) (hh' : h' = before ++ [(p, ch')]) (hjob : ch'.job = ch.job)
      (hpend : l.pc.pending = []) (hpend' : l'.pc.pending = [])
      (hwhole : ch'.IsWhole ∨ l'.pc.IsAppending)

theorem Proc.pending_untilCreated (l : Proc) (job : Job) :
    (l.untilCreated job).pc.pending = [job] := by
  unfold Proc.untilCreated
  split <;> rfl

theorem Proc.pending_unlockMtab (l : Proc) : l.unlockMtab.pc.pending = [] := by
  unfold Proc.unlockMtab
  split <;> rfl

theorem Proc.pending_unlocked (l : Proc) (after : After) : (l.unlocked after).pc.pending = [] := by
  cases after <;> rfl

theorem HistStep.at {pc : Pc} {h : List (Pid × Change)} (hpc : l.pc = pc) (ha : a.job = none)
    (hpend : l'.pc.pending = pc.pending) (hpc' : ∀ job sec, pc ≠ .locked job sec) :
    HistStep p a l h l' h := by
  refine .same ha rfl (hpend.trans (congrArg _ hpc.symm)) ?_
  rintro ⟨job, out, hl⟩
  exact hpc' job _ (hpc.symm.trans hl)

theorem Proc.Faultless.goto {pc : Pc} (h : l.mtabDoesNotExist ≠ some true) (hpc : pc.isPlain) :
    (l.goto pc).Faultless := by
  refine ⟨h, ?_⟩
  rintro job sec rfl
  cases hpc

theorem Proc.Faultless.sec {sec : Section} (h : l.mtabDoesNotExist ≠ some true)
    (hsec : sec.Faultless) : (l.goto (.locked job sec)).Faultless := by
  refine ⟨h, ?_⟩
  rintro job' sec' ⟨⟩
  exact hsec

theorem Proc.Faultless.untilCreated (h : l.mtabDoesNotExist ≠ some true) (job : Job) :
    (l.untilCreated job).Faultless := by
  unfold Proc.untilCreated
  split
  · exact .sec h trivial
  · exact .goto h rfl

theorem Proc.Faultless.unlockMtab (h : l.mtabDoesNotExist ≠ some true) :
    l.unlockMtab.Faultless := by
  unfold Proc.unlockMtab
  split <;> exact .goto h rfl

theorem Proc.Faultless.exit (h : l.mtabDoesNotExist ≠ some true) : l.exit.Faultless :=
  ⟨h, by rintro job sec ⟨⟩⟩

theorem Proc.Faultless.unlocked (h : l.mtabDoesNotExist ≠ some true) (after : After) :
    (l.unlocked after).Faultless := by
  cases after with
  | back => exact .goto h rfl
  | exit => exact .exit h

theorem Section.go_hist {sec : Section} (hl : l.Faultless) (hs : s.view.Good first)
    (hpc : l.pc = .locked job sec) (hsec : sec.Knows p job s.view)
    (h : sec.go p job l s = some (l', s')) :
    l'.Faultless ∧ HistStep p .go l s.history l' s'.history := by
  have hinfo := hl.info
  have hsec' := hl.locked job sec hpc
  have hpend := congrArg Pc.pending hpc
  have hholds := congrArg Pc.holds hpc
  have happ : (∀ out, sec ≠ .appending out) → ¬ l.pc.IsAppending := by
    rintro hsec ⟨job', out, hl⟩
    rw [hpc] at hl
    exact hsec out (Pc.locked.inj hl).2
  cases sec with
  | setmntent =>
      cases job with
      | update dir instead =>
          obtain ⟨i, hi, -⟩ := hs
          simp only [Section.go, Links.file_eq_of_look hi] at h
          cases h
          exact ⟨.sec hinfo trivial, .same rfl rfl hpend.symm (happ (by rintro out ⟨⟩))⟩
      | add line =>
          cases h
          exact ⟨.sec hinfo trivial, .push (.append line line.length) rfl rfl hpend rfl
            (.inr ⟨_, _, rfl⟩) hholds (happ (by rintro out ⟨⟩))⟩
  | reading fd got =>
      simp only [Section.go] at h
      split at h
      · cases h
        exact ⟨.sec hinfo rfl, .same rfl rfl hpend.symm (happ (by rintro out ⟨⟩))⟩
      · cases h
  | makeTemp readError es =>
      cases h
      exact ⟨.sec hinfo hsec', .same rfl rfl hpend.symm (happ (by rintro out ⟨⟩))⟩
  | writing readError out es =>
      cases es with
      | nil =>
          cases h
          exact ⟨.sec hinfo ⟨hsec', rfl⟩, .same rfl rfl hpend.symm (happ (by rintro out ⟨⟩))⟩
      | cons e es =>
          cases h
          exact ⟨.sec hinfo hsec', .same rfl rfl hpend.symm (happ (by rintro out ⟨⟩))⟩
  | commit readError lost =>
      obtain ⟨rfl, rfl⟩ := hsec'
      obtain ⟨dir, instead, i, file, j, rfl, -, htemp⟩ := hsec
      obtain ⟨d, hren⟩ := Links.exists_rename (m := .mounted) htemp
      simp only [Section.go, hren] at h
      cases h
      exact ⟨.unlockMtab hinfo, .push (.update dir instead none 0) rfl rfl hpend
        l.pending_unlockMtab (.inl rfl) hholds (happ (by rintro out ⟨⟩))⟩
  | appending out =>
      obtain ⟨written, file, before, rfl, -, -, hhist⟩ := hsec
      simp only [Section.go] at h
      split at h
      · rename_i hbuffer
        cases h
        -- the whole line has been written
        rw [hbuffer] at hhist
        exact ⟨.unlockMtab hinfo,
          .grow before _ _ rfl hhist hhist rfl hpend l.pending_unlockMtab (.inl rfl)⟩
      · cases h

theorem Section.part_hist {sec : Section} {k : Nat} (hl : l.Faultless)
    (hpc : l.pc = .locked job sec) (hsec : sec.Knows p job s.view)
    (h : sec.part k p job l s = some (l', s')) :
    l'.Faultless ∧ HistStep p (.part k) l s.history l' s'.history := by
  have hinfo := hl.info
  have hsec' := hl.locked job sec hpc
  have hpend := congrArg Pc.pending hpc
  have happ : (∀ out, sec ≠ .appending out) → ¬ l.pc.IsAppending := by
    rintro hsec ⟨job', out, hl⟩
    rw [hpc] at hl
    exact hsec out (Pc.locked.inj hl).2
  cases sec with
  | reading fd got | writing readError out es =>
      cases h
      exact ⟨.sec hinfo hsec', .same rfl rfl hpend.symm (happ (by rintro out ⟨⟩))⟩
  | appending out =>
      obtain ⟨written, file, before, rfl, -, -, hhist⟩ := hsec
      cases h
      have hbefore : s.history.dropLast = before :=
        (congrArg List.dropLast hhist).trans List.dropLast_concat
      refine ⟨.sec hinfo trivial, .grow before _
        (.append (written ++ out.buffer) (out.buffer.drop k).length) rfl hhist
        (congrArg (· ++ _) hbefore) rfl hpend rfl (.inr ⟨_, _, rfl⟩)⟩
  | _ => cases h

/-- A step of a process that is not at work with the lock, and does not give up. -/
theorem Proc.go_hist (hl : l.Faultless) (hs : s.view.Good first)
    (hpc' : ∀ job sec, l.pc ≠ .locked job sec) (hsmooth : smooth .go l)
    (h : l.go p s = some (l', s')) (hclosed : l.Closed) :
    l'.Faultless ∧ HistStep p .go l s.history l' s'.history := by
  have hinfo := hl.info
  unfold Proc.go at h
  cases hpc : l.pc with
  | getMtabInfo job =>
      obtain ⟨i, hi, -⟩ := hs
      -- there is a mtab
      have hthere : l.mtabDoesNotExist.getD (s.dir.file .mounted).isNone = false := by
        rw [Links.file_eq_of_look hi]
        cases hcase : l.mtabDoesNotExist with
        | none => rfl
        | some missing =>
            rw [hcase] at hinfo
            exact Bool.eq_false_of_not_eq_true fun hm ↦ hinfo (congrArg some hm)
      simp only [hpc, hthere] at h
      cases h
      refine ⟨.goto (by rintro ⟨⟩) rfl, .at hpc rfl rfl (by rintro job sec ⟨⟩)⟩
  | mtabIsWritable job | lockMtab job | created job | claim job | wait job =>
      simp only [hpc] at h
      cases h
      exact ⟨.goto hinfo rfl, .at hpc rfl rfl (by rintro job sec ⟨⟩)⟩
  | openTarget job | unlinkTarget job =>
      simp only [hpc] at h
      cases h
      exact ⟨.untilCreated hinfo job,
        .at hpc rfl (l.pending_untilCreated job) (by rintro job sec ⟨⟩)⟩
  | link job =>
      simp only [hpc] at h
      split at h
      · cases h
        exact ⟨.goto hinfo rfl, .at hpc rfl rfl (by rintro job sec ⟨⟩)⟩
      · split at h
        · cases h
          exact ⟨.goto hinfo rfl, .at hpc rfl rfl (by rintro job sec ⟨⟩)⟩
        · cases h
          exact ⟨.goto hinfo rfl, .at hpc rfl rfl (by rintro job sec ⟨⟩)⟩
  | openLock job j =>
      simp only [hpc] at h
      split at h
      · cases h
        split <;> exact ⟨.goto hinfo rfl, .at hpc rfl rfl (by rintro job sec ⟨⟩)⟩
      · split at h
        · cases h
          exact ⟨.untilCreated (by exact hinfo) job,
            .at hpc rfl (Proc.pending_untilCreated _ job) (by rintro job sec ⟨⟩)⟩
        · cases h
          exact ⟨.goto hinfo rfl, .at hpc rfl rfl (by rintro job sec ⟨⟩)⟩
  | again job =>
      simp only [hpc] at h
      cases h
      split
      · exact ⟨.goto hinfo rfl, .at hpc rfl rfl (by rintro job sec ⟨⟩)⟩
      · exact ⟨.untilCreated (by exact hinfo) job,
          .at hpc rfl (Proc.pending_untilCreated _ job) (by rintro job sec ⟨⟩)⟩
  | giveUp job j => simp only [smooth, hpc, Bool.false_eq_true] at hsmooth
  | locked job sec => exact absurd hpc (hpc' job sec)
  | unlockClose after | unlockUnlink after =>
      simp only [hpc] at h
      cases h
      exact ⟨.goto hinfo rfl, .at hpc rfl rfl (by rintro job sec ⟨⟩)⟩
  | unlockClear after =>
      simp only [hpc] at h
      cases h
      exact ⟨.unlocked (by exact hinfo) after,
        .at hpc rfl (Proc.pending_unlocked _ after) (by rintro job sec ⟨⟩)⟩
  | exiting streams =>
      obtain rfl := hclosed.exiting streams hpc
      simp only [hpc] at h
      cases h
      exact ⟨.goto (l := .fresh .gone) (by rintro ⟨⟩) rfl, .at hpc rfl rfl (by rintro job sec ⟨⟩)⟩
  | _ => simp only [hpc, reduceCtorEq] at h

/-- **What a step does to the changes so far**, if nothing fails. -/
theorem mtabMachine_hist (hl : l.Faultless) (hclosed : l.Closed) (hs : s.view.Good first)
    (hknows : l.pc.holds → l.Knows p s.view) (hsmooth : smooth a l)
    (h : mtabMachine p a l s = some (l', s')) :
    l'.Faultless ∧ HistStep p a l s.history l' s'.history := by
  have hinfo := hl.info
  cases a with
  | start =>
      simp only [mtabMachine] at h
      split at h
      · rename_i hpc
        cases h
        exact ⟨.goto (l := .fresh .idle) (by rintro ⟨⟩) rfl, .at hpc rfl rfl (by rintro job sec ⟨⟩)⟩
      · cases h
  | begin job =>
      simp only [mtabMachine] at h
      split at h
      · rename_i hpc
        cases h
        refine ⟨.goto hinfo rfl, .begin _ rfl rfl (congrArg _ hpc) rfl ?_⟩
        rintro ⟨job', out, hl⟩
        cases hpc.symm.trans hl
      · rename_i hpc
        cases h
        refine ⟨.goto hinfo rfl, .begin _ rfl rfl (congrArg _ hpc) rfl ?_⟩
        rintro ⟨job', out, hl⟩
        cases hpc.symm.trans hl
      · cases h
  | quit =>
      simp only [mtabMachine] at h
      split at h
      · rename_i hpc
        cases h
        exact ⟨.exit hinfo, .at hpc rfl rfl (by rintro job sec ⟨⟩)⟩
      · cases h
  | go =>
      by_cases hpc : ∃ job sec, l.pc = .locked job sec
      · obtain ⟨job, sec, hpc⟩ := hpc
        have hsec := hknows (by rw [hpc]; rfl) job sec hpc
        simp only [mtabMachine, Proc.go, hpc] at h
        exact Section.go_hist hl hs hpc hsec h
      · exact Proc.go_hist hl hs (fun job sec h ↦ hpc ⟨job, sec, h⟩) hsmooth h hclosed
  | part k =>
      simp only [mtabMachine, Proc.part] at h
      split at h
      · rename_i job sec hpc
        exact Section.part_hist hl hpc (hknows (by rw [hpc]; rfl) job sec hpc) h
      · rename_i out streams hpc
        cases hclosed.exiting _ hpc
      · cases h
  | fail | signal | kill => cases hsmooth

end Step

/-! ## Every run -/

theorem jobsOf_concat (q p : Pid) (history : List (Pid × Change)) (ch : Change) :
    jobsOf q (history ++ [(p, ch)]) = jobsOf q history ++ if p = q then [ch.job] else [] := by
  rw [jobsOf, List.filter_append, List.map_append]
  by_cases hpq : p = q
  · rw [List.filter_cons_of_pos (by simpa using hpq), if_pos hpq]
    rfl
  · rw [List.filter_cons_of_neg (by simpa using hpq), if_neg hpq]
    rfl

theorem begun_concat (q p : Pid) (tr : List (Pid × Action)) (a : Action) :
    begun q (tr ++ [(p, a)]) = begun q tr ++ if p = q then a.job.toList else [] := by
  rw [begun, List.filter_append, List.filterMap_append]
  by_cases hpq : p = q
  · rw [List.filter_cons_of_pos (by simpa using hpq), if_pos hpq]
    refine congrArg _ ?_
    cases hjob : a.job with
    | none => exact List.filterMap_cons_none hjob
    | some job => exact List.filterMap_cons_some hjob
  · rw [List.filter_cons_of_neg (by simpa using hpq), if_neg hpq]
    rfl

/-- What holds all the time: mtab is what the changes make of it, the jobs that each process has
begun are in the changes or pending, and all changes but the last are whole. -/
structure Kept (first : List UInt8) (tr : List (Pid × Action)) (c : Pool Pid Proc Etc) : Prop where
  safe : Machine.Safe Proc.Marked (fun l ↦ l.pc.holds = true) Etc.Unlocked Etc.view
    (MtabView.Good first) Proc.Closed Proc.Knows c
  faultless : ∀ q, (c.loc q).Faultless
  jobs : ∀ q, jobsOf q c.shared.history ++ (c.loc q).pc.pending = begun q tr
  whole : ∀ e ∈ c.shared.history.dropLast, e.2.IsWhole
  last : ∀ e, c.shared.history.getLast? = some e → e.2.IsWhole ∨ (c.loc e.1).pc.IsAppending

section Run

variable {p : Pid} {a : Action} {l : Proc} {s : Etc} {c : Pool Pid Proc Etc} {first : List UInt8}
  {tr : List (Pid × Action)}

theorem Pc.IsAppending.holds {pc : Pc} (h : pc.IsAppending) : pc.holds = true := by
  obtain ⟨job, out, rfl⟩ := h
  rfl

/-- If the process with the lock is not writing to mtab, all changes are whole. -/
theorem Kept.all_whole (h : Kept first tr c) (hnone : ∀ q, ¬ (c.loc q).pc.IsAppending) :
    ∀ e ∈ c.shared.history, e.2.IsWhole := by
  intro e he
  rcases List.eq_nil_or_concat c.shared.history with hnil | ⟨before, x, hconcat⟩
  · rw [hnil] at he
    cases he
  · rw [List.concat_eq_append] at hconcat
    have hwhole := h.whole
    have hlast := h.last x (by rw [hconcat]; exact List.getLast?_concat)
    rw [hconcat, List.dropLast_concat] at hwhole
    rw [hconcat] at he
    rcases List.mem_append.1 he with he | he
    · exact hwhole e he
    · obtain rfl := List.mem_singleton.1 he
      exact hlast.resolve_right (hnone _)

/-- The jobs that are begun are still in the changes or pending. -/
theorem HistStep.jobs {l' : Proc} {h h' : List (Pid × Change)} (hstep : HistStep p a l h l' h')
    (hjobs : jobsOf p h ++ l.pc.pending = begun p tr) :
    jobsOf p h' ++ l'.pc.pending = begun p (tr ++ [(p, a)]) := by
  rw [begun_concat, if_pos rfl, ← hjobs]
  cases hstep with
  | same ha hh hpend hl => rw [hh, hpend, ha, Option.toList_none, List.append_nil]
  | begin job ha hh hpend hpend' hl =>
      rw [hh, hpend, hpend', ha, Option.toList_some, List.append_nil]
  | push ch ha hh hpend hpend' hwhole hholds hl =>
      rw [hh, jobsOf_concat, if_pos rfl, hpend, hpend', ha, Option.toList_none]
  | grow before ch ch' ha hh hh' hjob hpend hpend' hwhole =>
      rw [hh, hh', jobsOf_concat, jobsOf_concat, hjob, hpend, hpend', ha, Option.toList_none,
        List.append_nil, List.append_nil]

/-- The changes of the other processes are the same. -/
theorem HistStep.others {l' : Proc} {h h' : List (Pid × Change)} (hstep : HistStep p a l h l' h')
    {q : Pid} (hqp : q ≠ p) : jobsOf q h' = jobsOf q h := by
  cases hstep with
  | same ha hh hpend hl => rw [hh]
  | begin job ha hh hpend hpend' hl => rw [hh]
  | push ch ha hh hpend hpend' hwhole hholds hl =>
      rw [hh, jobsOf_concat, if_neg hqp.symm, List.append_nil]
  | grow before ch ch' ha hh hh' hjob hpend hpend' hwhole =>
      rw [hh, hh', jobsOf_concat, jobsOf_concat, if_neg hqp.symm, if_neg hqp.symm]

theorem Kept.step (hsmooth : smooth a (c.loc p))
    (hact : mtabMachine p a (c.loc p) c.shared = some (l, s)) (hc : Kept first tr c) :
    Kept first (tr ++ [(p, a)]) ⟨Function.update c.loc p l, s⟩ := by
  have hsafe := (mtabMachine_protects first).step (calm_of_smooth a _ hsmooth) hact hc.safe
  obtain ⟨hfaultless, hstep⟩ := mtabMachine_hist (hc.faultless p) (hc.safe.each p) hc.safe.always
    (fun hholds ↦ hc.safe.holder p hholds) hsmooth hact
  refine ⟨hsafe, ?_, ?_, ?_, ?_⟩
  · exact Machine.forall_update (Q := fun _ (l : Proc) ↦ l.Faultless) hfaultless
      fun q _ ↦ hc.faultless q
  · refine Machine.forall_update
      (Q := fun q (l : Proc) ↦ jobsOf q s.history ++ l.pc.pending = begun q (tr ++ [(p, a)]))
      (hstep.jobs (hc.jobs p)) fun q hqp ↦ ?_
    rw [hstep.others hqp, begun_concat, if_neg hqp.symm, List.append_nil]
    exact hc.jobs q
  · change ∀ e ∈ s.history.dropLast, e.2.IsWhole
    cases hstep with
    | same ha hh hpend hl => exact hh ▸ hc.whole
    | begin job ha hh hpend hpend' hl => exact hh ▸ hc.whole
    | push ch ha hh hpend hpend' hwhole hholds hl =>
        rw [hh, List.dropLast_concat]
        refine hc.all_whole fun q hq ↦ ?_
        -- the other process would have the lock too
        exact hl (hc.safe.unique q p hq.holds hholds ▸ hq)
    | grow before ch ch' ha hh hh' hjob hpend hpend' hwhole =>
        have hbefore := hc.whole
        rw [hh, List.dropLast_concat] at hbefore
        rwa [hh', List.dropLast_concat]
  · change ∀ e, s.history.getLast? = some e →
      e.2.IsWhole ∨ (Function.update c.loc p l e.1).pc.IsAppending
    have hsame : s.history = c.shared.history → ¬ (c.loc p).pc.IsAppending →
        ∀ e, s.history.getLast? = some e →
          e.2.IsWhole ∨ (Function.update c.loc p l e.1).pc.IsAppending := by
      intro hh hl e he
      rw [hh] at he
      refine (hc.last e he).imp_right fun happ ↦ ?_
      have hne : e.1 ≠ p := fun hep ↦ hl (hep ▸ happ)
      rwa [Function.update_of_ne hne]
    have hnew : ∀ before ch, s.history = before ++ [(p, ch)] → (ch.IsWhole ∨ l.pc.IsAppending) →
        ∀ e, s.history.getLast? = some e →
          e.2.IsWhole ∨ (Function.update c.loc p l e.1).pc.IsAppending := by
      intro before ch hh hwhole e he
      rw [hh, List.getLast?_concat] at he
      obtain rfl := Option.some.inj he
      rwa [Function.update_self]
    cases hstep with
    | same ha hh hpend hl => exact hsame hh hl
    | begin job ha hh hpend hpend' hl => exact hsame hh hl
    | push ch ha hh hpend hpend' hwhole hholds hl => exact hnew _ ch hh hwhole
    | grow before ch ch' ha hh hh' hjob hpend hpend' hwhole => exact hnew _ ch' hh' hwhole

end Run

/-- The process has no job. -/
def Pc.isIdle : Pc → Bool
  | .idle | .gone => true
  | _ => false

theorem foldl_apply_of_whole (first : List UInt8) {history : List (Pid × Change)}
    (h : ∀ e ∈ history, e.2.IsWhole) :
    mtabAfter first history = (history.map (·.2.job)).foldl Job.apply first := by
  induction history using List.reverseRecOn with
  | nil => rfl
  | append_singleton history e ih =>
      have hwhole : e.2 = e.2.job.whole := h e (List.mem_append_right _ (List.mem_singleton_self e))
      rw [mtabAfter_concat, ih fun e' he' ↦ h e' (List.mem_append_left _ he'), List.map_append,
        List.foldl_append, hwhole, Job.apply_whole]
      rfl

section Idle

variable {s : Etc} {c : Pool Pid Proc Etc} {first : List UInt8} {tr : List (Pid × Action)}

theorem Kept.of_play (hs : s.Ready first) (tr : List (Pid × Action))
    (hplay : mtabMachine.play smooth tr s.boot = some c) : Kept first tr c := by
  have hnil : s.boot.shared.history = [] := hs.history
  refine Machine.play_keeps_trace Kept.step tr hplay ⟨hs.safe, ?_, ?_, ?_, ?_⟩
  · exact fun q ↦ ⟨by rintro ⟨⟩, by rintro job sec ⟨⟩⟩
  · intro q
    rw [hnil]
    rfl
  · rw [hnil]
    rintro e ⟨⟩
  · rw [hnil]
    rintro e ⟨⟩

/-- The order in which the jobs have changed mtab. -/
def Etc.order (s : Etc) : List (Pid × Job) := s.history.map fun e ↦ (e.1, e.2.job)

/-- Every job that a process has begun is in the order, in its place. -/
theorem Kept.jobsIn_order (h : Kept first tr c) (hidle : ∀ p, (c.loc p).pc.isIdle) (p : Pid) :
    jobsIn p c.shared.order = begun p tr := by
  have hpend : (c.loc p).pc.pending = [] := by
    have hp := hidle p
    cases hpc : (c.loc p).pc <;> rw [hpc] at hp <;> first | rfl | cases hp
  have hjobs := h.jobs p
  rw [hpend, List.append_nil] at hjobs
  rw [← hjobs, Etc.order, jobsIn, jobsOf, List.filter_map, List.map_map]
  rfl

/-- mtab is what the jobs make of it in this order. -/
theorem Kept.mtab_eq (h : Kept first tr c) (hidle : ∀ p, (c.loc p).pc.isIdle) :
    ∃ i, c.shared.dir.look .mounted =
      some (i, (c.shared.order.map Prod.snd).foldl Job.apply first) := by
  have hnone : ∀ q, ¬ (c.loc q).pc.IsAppending := by
    rintro q ⟨job, out, hpc⟩
    have hq := hidle q
    rw [hpc] at hq
    cases hq
  obtain ⟨i, hi, -⟩ := h.safe.always
  refine ⟨i, hi.trans (congrArg (fun file ↦ some (i, file)) ?_)⟩
  rw [Etc.order, List.map_map]
  exact foldl_apply_of_whole first (h.all_whole hnone)

/-- **The jobs of all processes leave mtab as if they had been done one after the other**, in an
order that keeps the order of each process. -/
theorem mtab_serializable (hs : s.Ready first)
    (hplay : mtabMachine.play smooth tr s.boot = some c) (hidle : ∀ p, (c.loc p).pc.isIdle) :
    ∃ order : List (Pid × Job), (∀ p, jobsIn p order = begun p tr) ∧
      ∃ i, c.shared.dir.look .mounted = some (i, (order.map Prod.snd).foldl Job.apply first) := by
  have hkept := Kept.of_play hs tr hplay
  exact ⟨c.shared.order, hkept.jobsIn_order hidle, hkept.mtab_eq hidle⟩

end Idle

/-- Two processes put a line behind the others at the same time.  The second one finds the lock
taken and waits. -/
def twoLines : List (Pid × Action) :=
  appendTrace 1 [97, 10] ++ (appendTrace 2 [98, 10]).take 8 ++
    [(1, .part 1), (1, .part 1)] ++ List.replicate 4 (1, .go) ++
    List.replicate 6 (2, .go) ++ [(2, .part 2)] ++ List.replicate 4 (2, .go)

theorem mtab_serializable_two :
    ∃ c, mtabMachine.play smooth twoLines (Etc.only []).boot = some c ∧
      (∀ p, (c.loc p).pc.isIdle) ∧
      ∃ order : List (Pid × Job), (∀ p, jobsIn p order = begun p twoLines) ∧
        ∃ i, c.shared.dir.look .mounted = some (i, (order.map Prod.snd).foldl Job.apply []) := by
  have hplay : (mtabMachine.play smooth twoLines (Etc.only []).boot).isSome := by decide
  have hsome := (Option.some_get hplay).symm
  have hidle : ∀ p, (((mtabMachine.play smooth twoLines (Etc.only []).boot).get hplay).loc
      p).pc.isIdle := by
    rintro (_ | _ | _ | n) <;> rfl
  exact ⟨_, hsome, hidle, mtab_serializable (Etc.ready_only []) hsome hidle⟩

end Hsfs.Mtab
