import Hsfs.Mtab.Jobs

/-!
# Mounting and unmounting

A process adds an entry to mtab when it mounts, and takes out the last entry for its directory when
it unmounts.  However many processes do so at the same time, mtab is in the end, byte for byte, what
it was.
-/

namespace Hsfs.Mtab

open Interact

/-- The entry is read back as it was written, and it is not ignored. -/
structure Mntent.Lasts (e : Mntent) : Prop extends e.Survives where
  kept : e.isKept

/-- What a process does to mtab for a mount and the unmount: `hsi_add_mtab` and `hsi_del_mtab`. -/
def mountJobs (e : Mntent) : List Job := [.add (nfsAddmntent e), .update e.dir none]

theorem apply_add (es : List Mntent) (e : Mntent) :
    Job.apply (writeEntries es) (.add (nfsAddmntent e)) = writeEntries (es ++ [e]) := by
  rw [Job.apply, writeEntries, writeEntries, List.flatMap_append, List.flatMap_singleton]

theorem apply_update {es : List Mntent} (h : ∀ e ∈ es, e.Lasts) (dir : CStr) :
    Job.apply (writeEntries es) (.update dir none) = writeEntries (withoutLast dir es) := by
  have hread : entriesOf (writeEntries es) = es :=
    (entriesOf_writeEntries_iff es).2 fun e he ↦ (h e he).toSurvives
  have hkept : es.filter Mntent.isKept = es := List.filter_eq_self.2 fun e he ↦ (h e he).kept
  rw [Job.apply, updateMtab_none, hread, hkept]

section Order

variable {es : List Mntent} {entry : Pid → Mntent} {S : Pid → Prop}

theorem jobsIn_cons_self (p : Pid) (job : Job) (order : List (Pid × Job)) :
    jobsIn p ((p, job) :: order) = job :: jobsIn p order := by
  rw [jobsIn, List.filter_cons_of_pos (by simp)]
  rfl

theorem jobsIn_cons_of_ne {p q : Pid} (h : p ≠ q) (job : Job) (order : List (Pid × Job)) :
    jobsIn q ((p, job) :: order) = jobsIn q order := by
  rw [jobsIn, List.filter_cons_of_neg (by simpa using h)]
  rfl

/-- What a process has still to do: to unmount if it has mounted, and then some more mounts. -/
def StillToDo (entry : Pid → Mntent) (mounted : List Pid) (order : List (Pid × Job)) : Prop :=
  ∀ p, ∃ n, jobsIn p order =
    (if p ∈ mounted then [.update (entry p).dir none] else []) ++
      (List.replicate n (mountJobs (entry p))).flatten

/-- **In whatever order the mounts and unmounts come**, what was mounted before remains. -/
theorem foldl_mounts (hes : ∀ e ∈ es, e.Lasts) (hentry : ∀ p, S p → (entry p).Lasts)
    (hdirs : ∀ p q, S p → S q → (entry p).dir = (entry q).dir → p = q)
    (order : List (Pid × Job)) (mounted : List Pid) (hnodup : mounted.Nodup)
    (hmounted : ∀ p ∈ mounted, S p) (horder : ∀ x ∈ order, S x.1)
    (htodo : StillToDo entry mounted order) :
    (order.map Prod.snd).foldl Job.apply (writeEntries (es ++ mounted.map entry)) =
      writeEntries es := by
  induction order generalizing mounted with
  | nil =>
      -- nobody has anything to unmount
      have hnil : mounted = [] := by
        refine List.eq_nil_iff_forall_not_mem.2 fun p hp ↦ ?_
        obtain ⟨n, hn⟩ := htodo p
        rw [if_pos hp] at hn
        cases hn
      rw [hnil, List.map_nil, List.append_nil]
      rfl
  | cons x order ih =>
      obtain ⟨p, job⟩ := x
      have hp : S p := horder _ List.mem_cons_self
      have horder' : ∀ x ∈ order, S x.1 := fun x hx ↦ horder x (List.mem_cons_of_mem _ hx)
      obtain ⟨n, hn⟩ := htodo p
      rw [jobsIn_cons_self] at hn
      have hothers : ∀ q, q ≠ p → ∃ n, jobsIn q order =
          (if q ∈ mounted then [.update (entry q).dir none] else []) ++
            (List.replicate n (mountJobs (entry q))).flatten := by
        intro q hqp
        rw [← jobsIn_cons_of_ne hqp.symm job order]
        exact htodo q
      by_cases hin : p ∈ mounted
      · -- an unmount takes out the entry of this process
        rw [if_pos hin] at hn
        obtain ⟨rfl, hrest⟩ := List.cons.inj hn
        obtain ⟨l, r, rfl⟩ := List.append_of_mem hin
        have hnodup' : p ∉ l ++ r ∧ (l ++ r).Nodup := List.nodup_cons.1 (List.nodup_middle.1 hnodup)
        have hsub : ∀ q ∈ l ++ r, q ∈ l ++ p :: r := fun q hq ↦
          List.mem_append.2 ((List.mem_append.1 hq).imp_right (List.mem_cons_of_mem p))
        have hall : ∀ e ∈ es ++ (l ++ p :: r).map entry, e.Lasts := by
          intro e he
          rcases List.mem_append.1 he with he | he
          · exact hes e he
          · obtain ⟨q, hq, rfl⟩ := List.mem_map.1 he
            exact hentry q (hmounted q hq)
        have hstep : Job.apply (writeEntries (es ++ (l ++ p :: r).map entry))
            (.update (entry p).dir none) = writeEntries (es ++ (l ++ r).map entry) := by
          rw [apply_update hall, List.map_append, List.map_cons, ← List.append_assoc,
            withoutLast_append rfl, List.map_append, List.append_assoc]
          intro y hy
          obtain ⟨q, hq, rfl⟩ := List.mem_map.1 hy
          intro hdir
          have hqp := hdirs q p (hmounted q (hsub q (List.mem_append_right l hq))) hp hdir
          exact hnodup'.1 (hqp ▸ List.mem_append_right l hq)
        rw [List.map_cons, List.foldl_cons, hstep]
        refine ih (l ++ r) hnodup'.2 (fun q hq ↦ hmounted q (hsub q hq)) horder' fun q ↦ ?_
        by_cases hqp : q = p
        · subst hqp
          rw [if_neg hnodup'.1]
          exact ⟨n, hrest⟩
        · obtain ⟨m, hm⟩ := hothers q hqp
          refine ⟨m, hm.trans ?_⟩
          have hiff : q ∈ l ++ p :: r ↔ q ∈ l ++ r := by
            rw [List.mem_append, List.mem_append, List.mem_cons, or_iff_right hqp]
          simp only [hiff]
      · -- a mount puts it behind the others
        rw [if_neg hin] at hn
        cases n with
        | zero => cases hn
        | succ n =>
            rw [List.replicate_succ, List.flatten_cons] at hn
            obtain ⟨rfl, hrest⟩ := List.cons.inj hn
            have hstep : Job.apply (writeEntries (es ++ mounted.map entry))
                (.add (nfsAddmntent (entry p))) =
                writeEntries (es ++ (mounted ++ [p]).map entry) := by
              rw [apply_add, List.map_append, List.map_singleton, List.append_assoc]
            rw [List.map_cons, List.foldl_cons, hstep]
            refine ih (mounted ++ [p]) ?_ ?_ horder' fun q ↦ ?_
            · rw [List.nodup_middle, List.append_nil]
              exact List.nodup_cons.2 ⟨hin, hnodup⟩
            · intro q hq
              rcases List.mem_append.1 hq with hq | hq
              · exact hmounted q hq
              · exact List.mem_singleton.1 hq ▸ hp
            · by_cases hqp : q = p
              · subst hqp
                rw [if_pos (List.mem_append_right _ (List.mem_singleton_self q))]
                exact ⟨n, hrest⟩
              · obtain ⟨m, hm⟩ := hothers q hqp
                refine ⟨m, hm.trans ?_⟩
                have hiff : q ∈ mounted ++ [p] ↔ q ∈ mounted := by
                  rw [List.mem_append, List.mem_singleton, or_iff_left hqp]
                simp only [hiff]

end Order

/-- **When every process has unmounted what it has mounted, mtab is what it was.** -/
theorem mounts_restore_mtab {s : Etc} {es : List Mntent} (hs : s.Ready (writeEntries es))
    (hes : ∀ e ∈ es, e.Lasts) {tr : List (Pid × Action)} {c : Pool Pid Proc Etc}
    (hplay : mtabMachine.play smooth tr s.boot = some c) (hidle : ∀ p, (c.loc p).pc.isIdle)
    {entry : Pid → Mntent}
    (hjobs : ∀ p, ∃ n, begun p tr = (List.replicate n (mountJobs (entry p))).flatten)
    (hentry : ∀ p, begun p tr ≠ [] → (entry p).Lasts)
    (hdirs : ∀ p q, begun p tr ≠ [] → begun q tr ≠ [] → (entry p).dir = (entry q).dir → p = q) :
    ∃ i, c.shared.dir.look .mounted = some (i, writeEntries es) := by
  have hkept := Kept.of_play hs tr hplay
  obtain ⟨i, hi⟩ := hkept.mtab_eq hidle
  refine ⟨i, hi.trans (congrArg (fun file ↦ some (i, file)) ?_)⟩
  have hall : ∀ x ∈ c.shared.order, begun x.1 tr ≠ [] := by
    intro x hx hnil
    have hjobs' := hkept.jobsIn_order hidle x.1
    rw [hnil, jobsIn, List.map_eq_nil_iff] at hjobs'
    exact List.ne_nil_of_mem (List.mem_filter.2 ⟨hx, by simp⟩) hjobs'
  have hrestored := foldl_mounts (S := fun p ↦ begun p tr ≠ []) hes hentry hdirs c.shared.order []
    List.nodup_nil (by rintro p ⟨⟩) hall fun p ↦ by
      obtain ⟨n, hn⟩ := hjobs p
      exact ⟨n, (hkept.jobsIn_order hidle p).trans hn⟩
  rwa [List.map_nil, List.append_nil] at hrestored

theorem zero_notMem_filter (x : Name) : 0 ∉ x.filter (· ≠ 0) := by
  intro h
  exact absurd rfl (of_decide_eq_true (List.mem_filter.1 h).2)

/-- A text as a string of C. -/
def cstrOf (x : String) : CStr := ⟨(nameOf x).filter (· ≠ 0), zero_notMem_filter _⟩

/-- The entries of two processes. -/
def twoEntries : Pid → Mntent
  | 1 => { sampleEntry with dir := cstrOf "/y" }
  | _ => sampleEntry

/-- A process mounts. -/
def mountTrace (p : Pid) : List (Pid × Action) :=
  appendTrace p (nfsAddmntent (twoEntries p)) ++ [(p, .part 100)] ++ List.replicate 4 (p, .go)

/-- A process unmounts, when mtab has so many other entries. -/
def unmountTrace (p : Pid) (others : Nat) : List (Pid × Action) :=
  (p, .begin (.update (twoEntries p).dir none)) :: List.replicate 10 (p, .go) ++ [(p, .part 100)] ++
    List.replicate (7 + others) (p, .go)

/-- The second process mounts before the first one unmounts. -/
def twoMounts : List (Pid × Action) :=
  mountTrace 1 ++ mountTrace 2 ++ unmountTrace 1 1 ++ unmountTrace 2 0

theorem twoEntries_lasts (p : Pid) : (twoEntries p).Lasts := by
  unfold twoEntries
  split <;>
    exact ⟨⟨⟨⟨by decide, by decide, by decide, by decide⟩, by decide, by decide, by decide⟩,
      by decide⟩, by decide⟩

theorem mounts_restore_mtab_two :
    ∃ c, mtabMachine.play smooth twoMounts (Etc.only []).boot = some c ∧
      (∀ p, (c.loc p).pc.isIdle) ∧ ∃ i, c.shared.dir.look .mounted = some (i, writeEntries []) := by
  have hplay : (mtabMachine.play smooth twoMounts (Etc.only []).boot).isSome := by decide
  have hsome := (Option.some_get hplay).symm
  have hidle : ∀ p, (((mtabMachine.play smooth twoMounts (Etc.only []).boot).get hplay).loc
      p).pc.isIdle := by
    rintro (_ | _ | _ | n) <;> rfl
  have hready : (Etc.only []).Ready (writeEntries []) := Etc.ready_only []
  refine ⟨_, hsome, hidle, mounts_restore_mtab hready (by rintro e ⟨⟩) hsome hidle ?_
    (fun p _ ↦ twoEntries_lasts p) ?_⟩
  · rintro (_ | _ | _ | n)
    · exact ⟨0, rfl⟩
    · exact ⟨1, rfl⟩
    · exact ⟨1, rfl⟩
    · exact ⟨0, rfl⟩
  · rintro (_ | _ | _ | p) (_ | _ | _ | q) hp hq hdir
    all_goals
      first
      | rfl
      | exact absurd rfl hp
      | exact absurd rfl hq
      | exact absurd hdir (by decide)

end Hsfs.Mtab
