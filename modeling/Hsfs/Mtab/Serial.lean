import Hsfs.Mtab.Exclusion

/-!
# No change to mtab is lost

Every change that a process makes to mtab is made to what mtab is at that time, although the process
has read it long before, and although it puts a new file in its place: mtab is always what all
changes so far make of the first one, one after the other.

A process that dies in the middle can break this even after it has given the lock back, as `exit`
writes what is still in the buffer of an open stream, and the next process may be writing to the
same file.  So the runs here are those where no process dies with such a stream, other than by being
killed.
-/

namespace Hsfs.Mtab

open Interact

/-! ## What the lock protects -/

/-- What of the directory only the process with the lock changes. -/
structure MtabView where
  /-- mtab. -/
  mounted : Option (Nat × List UInt8)
  /-- The new file. -/
  temp : Option (Nat × List UInt8)
  /-- The changes so far. -/
  history : List (Pid × Change)

/-- What of the directory only the process with the lock changes. -/
def Etc.view (s : Etc) : MtabView := ⟨s.dir.look .mounted, s.dir.look .mountedTemp, s.history⟩

/-- What the changes make of mtab. -/
def mtabAfter (first : List UInt8) (history : List (Pid × Change)) : List UInt8 :=
  (history.map Prod.snd).foldl Change.apply first

theorem mtabAfter_concat (first : List UInt8) (history : List (Pid × Change)) (p : Pid)
    (ch : Change) :
    mtabAfter first (history ++ [(p, ch)]) = ch.apply (mtabAfter first history) := by
  rw [mtabAfter, List.map_append, List.foldl_append]
  rfl

theorem withoutTail_zero (bytes : List UInt8) : withoutTail 0 bytes = bytes := by
  rw [withoutTail, Nat.sub_zero, List.take_length]

theorem withoutTail_append (written rest : List UInt8) :
    withoutTail rest.length (written ++ rest) = written := by
  rw [withoutTail, List.length_append, Nat.add_sub_cancel, List.take_left]

/-- mtab is there, it is what the changes so far make of the first one, and the new file is not the
same file. -/
def MtabView.Good (first : List UInt8) (d : MtabView) : Prop :=
  ∃ i, d.mounted = some (i, mtabAfter first d.history) ∧ ∀ x, d.temp = some x → x.1 ≠ i

/-- What a process knows with the lock. -/
def Section.Knows (p : Pid) (job : Job) (d : MtabView) : Section → Prop
  | .setmntent => True
  | .reading fd got => ∃ dir instead file, job = .update dir instead ∧ d.mounted = some (fd, file) ∧
      got <+: file
  | .makeTemp readError es => ∃ dir instead i file, job = .update dir instead ∧
      d.mounted = some (i, file) ∧ writeEntries es = newMtab dir instead readError file
  | .writing readError out es => ∃ dir instead i file new, job = .update dir instead ∧
      d.mounted = some (i, file) ∧ d.temp = some (out.fd, new) ∧ out.append = false ∧
      out.pos = new.length ∧
      new ++ out.buffer ++ writeEntries es = newMtab dir instead readError file
  | .commit readError lost => ∃ dir instead i file j, job = .update dir instead ∧
      d.mounted = some (i, file) ∧
      d.temp = some (j, withoutTail lost (newMtab dir instead readError file))
  | .appending out => ∃ written file before, job = .add (written ++ out.buffer) ∧
      out.append = true ∧ d.mounted = some (out.fd, file) ∧
      d.history = before ++ [(p, .append (written ++ out.buffer) out.buffer.length)]

/-- What a process knows. -/
def Proc.Knows (p : Pid) (l : Proc) (d : MtabView) : Prop :=
  ∀ job sec, l.pc = .locked job sec → sec.Knows p job d

/-- No stream was left open. -/
structure Proc.Closed (l : Proc) : Prop where
  /-- By `hsi_add_mtab`. -/
  streams : l.streams = []
  /-- By `die`. -/
  exiting : ∀ streams, l.pc = .exiting streams → streams = []

/-- No process dies with an open stream, no `addmntent` of `hsi_add_mtab` fails, which leaves its
stream open until the process ends, and no signal arrives where `unlock_mtab` is about to clear its
flag. -/
def calm : Action → Proc → Bool
  | .signal, l => l.pc.streams.isEmpty && !l.pc.isClear .back && !l.pc.isClear .exit
  | .fail, l =>
      match l.pc with
      | .locked _ (.writing _ _ (_ :: _)) => false
      | .locked _ (.appending _) => false
      | _ => true
  | _, _ => true

section Step

variable {p : Pid} {a : Action} {l l' : Proc} {s s' : Etc} {job : Job} {pc : Pc}
  {first : List UInt8}

/-! ## Steps without the lock -/

/-- A step that does nothing to mtab, and leads at most to the beginning of the work with the
lock. -/
structure Harmless (s : Etc) (l' : Proc) (s' : Etc) : Prop where
  closed : l'.Closed
  view : s'.view = s.view
  knows : ∀ p d, l'.Knows p d

/-- Neither with the lock nor in `exit`. -/
def Pc.isPlain : Pc → Bool
  | .locked _ _ | .exiting _ => false
  | _ => true

/-- A step to a plain place. -/
theorem Harmless.goto (h : l.streams = []) (hview : s'.view = s.view) (hpc : pc.isPlain) :
    Harmless s (l.goto pc) s' := by
  refine ⟨⟨h, ?_⟩, hview, ?_⟩
  · rintro streams rfl
    cases hpc
  · rintro p d job sec rfl
    cases hpc

theorem Harmless.untilCreated (h : l.streams = []) (hview : s'.view = s.view) (job : Job) :
    Harmless s (l.untilCreated job) s' := by
  unfold Proc.untilCreated
  split
  · refine ⟨⟨h, by rintro streams ⟨⟩⟩, hview, ?_⟩
    rintro p d job' sec ⟨⟩
    exact trivial
  · exact .goto h hview rfl

theorem Harmless.exit (h : l.streams = []) (hview : s'.view = s.view) : Harmless s l.exit s' := by
  refine ⟨⟨rfl, ?_⟩, hview, by rintro p d job sec ⟨⟩⟩
  rintro streams ⟨⟩
  exact h

theorem Harmless.die (h : l.streams = []) (hpc : l.pc.streams = []) (hview : s'.view = s.view) :
    Harmless s l.die s' := by
  have hnone : l.streams ++ l.pc.streams = [] := by rw [h, hpc, List.nil_append]
  unfold Proc.die
  dsimp only
  split
  · exact .goto hnone hview rfl
  · exact .exit hnone hview

theorem Harmless.unlocked (h : l.streams = []) (hview : s'.view = s.view) (after : After) :
    Harmless s (l.unlocked after) s' := by
  cases after with
  | back => exact .goto h hview rfl
  | exit => exact .exit h hview

theorem Harmless.unlockMtab (h : l.streams = []) (hview : s'.view = s.view) :
    Harmless s l.unlockMtab s' := by
  unfold Proc.unlockMtab
  split <;> exact .goto h hview rfl

theorem Harmless.fresh (hview : s'.view = s.view) (hpc : pc.isPlain) :
    Harmless s (.fresh pc) s' :=
  .goto (l := .fresh pc) rfl hview hpc

theorem view_create_linktarget (s : Etc) (p : Pid) :
    Etc.view { s with dir := (s.dir.create (.linktarget p)).2 } = s.view := by
  unfold Etc.view
  rw [Links.look_create_of_ne (by rintro ⟨⟩), Links.look_create_of_ne (by rintro ⟨⟩)]

theorem view_unlink {n : EtcName} (s : Etc) (h : n ≠ .mounted) (h' : n ≠ .mountedTemp) :
    Etc.view { s with dir := s.dir.unlink n } = s.view := by
  unfold Etc.view
  rw [Links.look_unlink_of_ne h.symm, Links.look_unlink_of_ne h'.symm]

theorem create_mounted (h : s.view.Good first) : (s.dir.create .mounted).2 = s.dir := by
  obtain ⟨i, hi, -⟩ := h
  rw [Links.create_of_file (Links.file_eq_of_look hi)]

theorem Proc.go_harmless (hl : l.Closed) (hs : s.view.Good first)
    (hpc' : ∀ job sec, l.pc ≠ .locked job sec) (h : l.go p s = some (l', s')) :
    Harmless s l' s' := by
  have hclosed := hl.streams
  unfold Proc.go at h
  cases hpc : l.pc with
  | getMtabInfo job =>
      simp only [hpc] at h
      cases h
      split <;> exact .goto hclosed rfl rfl
  | mtabIsWritable job =>
      simp only [hpc] at h
      cases h
      rw [create_mounted hs]
      exact .goto hclosed rfl rfl
  | lockMtab job =>
      simp only [hpc] at h
      cases h
      exact .goto hclosed rfl rfl
  | openTarget job =>
      simp only [hpc] at h
      cases h
      exact .untilCreated hclosed (view_create_linktarget s p) job
  | link job =>
      simp only [hpc] at h
      split at h
      · cases h
        exact .goto hclosed rfl rfl
      · split at h
        · rename_i hlink
          cases h
          obtain ⟨-, -, hlook⟩ := Links.link_eq_some hlink
          refine .goto hclosed ?_ rfl
          unfold Etc.view
          rw [hlook _ (by rintro ⟨⟩), hlook _ (by rintro ⟨⟩)]
        · cases h
          exact .goto hclosed rfl rfl
  | created job =>
      simp only [hpc] at h
      cases h
      exact .goto hclosed rfl rfl
  | openLock job j =>
      simp only [hpc] at h
      split at h
      · cases h
        split <;> exact .goto hclosed rfl rfl
      · split at h
        · cases h
          exact .untilCreated (by exact hclosed) rfl job
        · cases h
          exact .goto hclosed rfl rfl
  | claim job | wait job =>
      simp only [hpc] at h
      cases h
      exact .goto hclosed rfl rfl
  | unlinkTarget job =>
      simp only [hpc] at h
      cases h
      exact .untilCreated hclosed (view_unlink s (by rintro ⟨⟩) (by rintro ⟨⟩)) job
  | again job =>
      simp only [hpc] at h
      cases h
      split
      · exact .goto hclosed rfl rfl
      · exact .untilCreated (by exact hclosed) rfl job
  | giveUp job j =>
      simp only [hpc] at h
      cases h
      exact .die hclosed (congrArg Pc.streams hpc) (view_unlink s (by rintro ⟨⟩) (by rintro ⟨⟩))
  | locked job sec => exact absurd hpc (hpc' job sec)
  | unlockClose after =>
      simp only [hpc] at h
      cases h
      exact .goto hclosed rfl rfl
  | unlockUnlink after =>
      simp only [hpc] at h
      cases h
      exact .goto hclosed (view_unlink s (by decide) (by decide)) rfl
  | unlockClear after =>
      simp only [hpc] at h
      cases h
      exact .unlocked (by exact hclosed) rfl after
  | exiting streams =>
      obtain rfl := hl.exiting streams hpc
      simp only [hpc] at h
      cases h
      exact .fresh rfl rfl
  | _ => simp only [hpc, reduceCtorEq] at h

theorem Proc.fail_harmless (hl : l.Closed) (hpc' : ∀ job sec, l.pc ≠ .locked job sec)
    (h : l.fail = some l') : Harmless s l' s := by
  have hclosed := hl.streams
  unfold Proc.fail at h
  cases hpc : l.pc with
  | getMtabInfo job =>
      simp only [hpc] at h
      cases h
      split <;> exact .goto hclosed rfl rfl
  | openTarget job | giveUp job j =>
      simp only [hpc] at h
      cases h
      exact .die hclosed (congrArg Pc.streams hpc) rfl
  | mtabIsWritable job | link job | wait job | openLock job j | claim job | unlockClose after
  | unlockUnlink after =>
      simp only [hpc] at h
      cases h
      exact .goto hclosed rfl rfl
  | unlinkTarget job =>
      simp only [hpc] at h
      cases h
      exact .untilCreated hclosed rfl job
  | locked job sec => exact absurd hpc (hpc' job sec)
  | exiting streams =>
      obtain rfl := hl.exiting streams hpc
      simp only [hpc, reduceCtorEq] at h
  | _ => simp only [hpc, reduceCtorEq] at h

/-! ## Steps with the lock -/

/-- What holds after a step. -/
structure Sound (first : List UInt8) (p : Pid) (l' : Proc) (s' : Etc) : Prop where
  closed : l'.Closed
  good : s'.view.Good first
  knows : l'.Knows p s'.view

theorem Harmless.sound (h : Harmless s l' s') (hs : s.view.Good first) : Sound first p l' s' :=
  ⟨h.closed, h.view ▸ hs, h.knows p _⟩

theorem Sound.locked {sec : Section} (h : l.streams = []) (hs : s.view.Good first)
    (hsec : sec.Knows p job s.view) : Sound first p (l.goto (.locked job sec)) s := by
  refine ⟨⟨h, by rintro streams ⟨⟩⟩, hs, ?_⟩
  rintro job' sec' ⟨⟩
  exact hsec

theorem writeAt_length (data bytes : List UInt8) :
    writeAt bytes.length data bytes = bytes ++ data := by
  rw [writeAt, resizeTo, List.take_length, Nat.sub_self, List.replicate_zero, List.append_nil,
    List.drop_eq_nil_of_le (Nat.le_add_right _ _), List.append_nil]

theorem newMtab_eq_of_prefix {got file : List UInt8} (h : got <+: file) (dir : CStr)
    (instead : Option Mntent) :
    newMtab dir instead (some got.length) file = updateMtab dir instead true got := by
  rw [newMtab, ← List.prefix_iff_eq_take.1 h]

section Temp

variable {fd : Nat} {bs : List UInt8} (f : List UInt8 → List UInt8)

/-- The new file is written. -/
theorem view_modify_temp (hs : s.view.Good first) (htemp : s.view.temp = some (fd, bs)) :
    Etc.view { s with dir := s.dir.modify fd f } =
      { s.view with temp := some (fd, f bs) } := by
  obtain ⟨i, hi, hne⟩ := hs
  have hmounted : s.dir.file .mounted ≠ some fd := by
    rw [Links.file_eq_of_look hi]
    exact fun h ↦ hne _ htemp (Option.some.inj h).symm
  unfold Etc.view
  rw [Links.look_modify_of_ne f hmounted, Links.look_modify f htemp]

/-- mtab itself is written. -/
theorem view_modify_mounted (hs : s.view.Good first) (hmounted : s.view.mounted = some (fd, bs)) :
    Etc.view { s with dir := s.dir.modify fd f } =
      { s.view with mounted := some (fd, f bs) } := by
  obtain ⟨i, hi, hne⟩ := hs
  obtain rfl : fd = i := (Prod.mk.inj (Option.some.inj (hmounted.symm.trans hi))).1
  have htemp : s.dir.file .mountedTemp ≠ some fd := by
    intro h
    exact hne (fd, s.dir.bytes fd) (congrArg (Option.map _) h) rfl
  unfold Etc.view
  rw [Links.look_modify_of_ne f htemp, Links.look_modify f hmounted]

/-- The new file is written and remains another file. -/
theorem good_temp (hs : s.view.Good first) (htemp : s.view.temp = some (fd, bs))
    (bs' : List UInt8) : MtabView.Good first { s.view with temp := some (fd, bs') } := by
  obtain ⟨i, hi, hne⟩ := hs
  refine ⟨i, hi, ?_⟩
  rintro x ⟨⟩
  exact hne (fd, bs) htemp

end Temp

/-- A part of the buffer is written to the new file. -/
theorem view_flush_temp {out : Stream} {new : List UInt8} (hs : s.view.Good first)
    (htemp : s.view.temp = some (out.fd, new)) (happend : out.append = false)
    (hpos : out.pos = new.length) (k : Nat) :
    Etc.view { s with dir := (out.flush k s.dir).2 } =
      { s.view with temp := some (out.fd, new ++ out.buffer.take k) } := by
  have hwrite : (out.flush k s.dir).2 =
      s.dir.modify out.fd (writeAt new.length (out.buffer.take k)) := by
    rw [Stream.flush, happend, hpos]
    rfl
  rw [hwrite, view_modify_temp _ hs htemp, writeAt_length]

theorem pos_flush (out : Stream) (new : List UInt8) (hpos : out.pos = new.length) (k : Nat)
    (d : Links EtcName) : (out.flush k d).1.pos = (new ++ out.buffer.take k).length := by
  rw [Stream.flush, hpos, List.length_append]

/-- The new file is made, without contents. -/
theorem view_makeTemp {fd : Nat} {d : Links EtcName} (hs : s.view.Good first)
    (hcreate : s.dir.create .mountedTemp = (fd, d)) :
    Etc.view { s with dir := d.modify fd (fun _ ↦ []) } = { s.view with temp := some (fd, []) } ∧
    (Etc.view { s with dir := d.modify fd (fun _ ↦ []) }).Good first := by
  obtain ⟨i, hi, hne⟩ := hs
  have hmounted : s.dir.file .mounted = some i := Links.file_eq_of_look hi
  have hother : s.dir.file .mounted ≠ some (s.dir.create .mountedTemp).1 := by
    refine Links.create_ne fun j hj hm ↦ ?_
    obtain rfl := Option.some.inj (hm.symm.trans hmounted)
    exact hne (j, s.dir.bytes j) (congrArg (Option.map _) hj) rfl
  have hkept := Links.file_create_of_ne (d := s.dir) (m := .mounted) (n := .mountedTemp) (by decide)
  have hlook := Links.look_create_of_ne (d := s.dir) (m := .mounted) (n := .mountedTemp) (by decide)
  have hself := Links.file_create_self (d := s.dir) (n := .mountedTemp)
  rw [hcreate] at hother hkept hlook hself
  have hview : Etc.view { s with dir := d.modify fd (fun _ ↦ []) } =
      { s.view with temp := some (fd, []) } := by
    unfold Etc.view
    rw [Links.look_modify_of_ne _ (hkept ▸ hother), hlook,
      Links.look_modify _ (congrArg (Option.map _) hself)]
  refine ⟨hview, ?_⟩
  rw [hview]
  refine ⟨i, hi, ?_⟩
  rintro x ⟨⟩
  exact fun h ↦ hother (h ▸ hmounted)

/-- The new file takes the place of mtab. -/
theorem sound_commit {dir : CStr} {instead : Option Mntent} {readError : Option Nat}
    {lost i j : Nat} {file : List UInt8} {d : Links EtcName} (hl : l.streams = [])
    (hs : s.view.Good first) (hmounted : s.view.mounted = some (i, file))
    (htemp : s.view.temp = some (j, withoutTail lost (newMtab dir instead readError file)))
    (hren : s.dir.rename .mountedTemp .mounted = some d) :
    Sound first p l.unlockMtab ⟨d, s.history ++ [(p, .update dir instead readError lost)]⟩ := by
  obtain ⟨i', hi, hne⟩ := hs
  obtain ⟨rfl, rfl⟩ := Prod.mk.inj (Option.some.inj (hmounted.symm.trans hi))
  have hother : s.dir.file .mounted ≠ some j := by
    rw [Links.file_eq_of_look hi]
    exact fun h ↦ hne _ htemp (Option.some.inj h).symm
  obtain ⟨hnew, hgone, -⟩ := Links.look_rename hren (by decide) htemp hother
  have hharmless : Harmless ⟨d, s.history ++ [(p, .update dir instead readError lost)]⟩ l.unlockMtab
      ⟨d, s.history ++ [(p, .update dir instead readError lost)]⟩ := .unlockMtab hl rfl
  refine hharmless.sound ⟨j, ?_, ?_⟩
  · rw [Etc.view, hnew, mtabAfter_concat]
    rfl
  · intro x hx
    exact absurd (hgone.symm.trans hx) (Option.some_ne_none x).symm

theorem Section.go_sound {sec : Section} (hl : l.Closed) (hs : s.view.Good first)
    (hsec : sec.Knows p job s.view) (h : sec.go p job l s = some (l', s')) :
    Sound first p l' s' := by
  have hclosed := hl.streams
  cases sec with
  | setmntent =>
      obtain ⟨i, hi, hne⟩ := hs
      have hfile : s.dir.file .mounted = some i := Links.file_eq_of_look hi
      cases job with
      | update dir instead =>
          simp only [Section.go, hfile] at h
          cases h
          exact .locked hclosed ⟨i, hi, hne⟩ ⟨dir, instead, _, rfl, hi, List.nil_prefix⟩
      | add line =>
          simp only [Section.go, Links.create_of_file hfile] at h
          cases h
          have hnothing : mtabAfter first (s.history ++ [(p, .append line line.length)]) =
              mtabAfter first s.history := by
            rw [mtabAfter_concat, Change.apply]
            exact (congrArg _ (withoutTail_append [] line)).trans (List.append_nil _)
          refine .locked hclosed ⟨i, ?_, hne⟩ ⟨[], _, s.history, rfl, rfl, hi, rfl⟩
          exact hi.trans (congrArg (fun file ↦ some (i, file)) hnothing.symm)
  | reading fd got =>
      obtain ⟨dir, instead, file, rfl, hmounted, hgot⟩ := hsec
      simp only [Section.go] at h
      split at h
      · rename_i hend
        cases h
        -- nothing is left to be read
        rw [Links.bytes_of_look hmounted] at hend
        obtain rfl : got = file := hgot.eq_of_length_le hend
        exact .locked hclosed hs ⟨dir, instead, fd, got, rfl, hmounted, rfl⟩
      · cases h
  | makeTemp readError es =>
      obtain ⟨dir, instead, i, file, rfl, hmounted, hes⟩ := hsec
      cases h
      obtain ⟨hview, hgood⟩ := view_makeTemp hs rfl
      refine .locked hclosed hgood ⟨dir, instead, i, file, [], rfl, ?_, ?_, rfl, rfl, ?_⟩
      · rw [hview]
        exact hmounted
      · rw [hview]
      · exact hes
  | writing readError out es =>
      obtain ⟨dir, instead, i, file, new, rfl, hmounted, htemp, happend, hpos, hnew⟩ := hsec
      have hview := view_flush_temp hs htemp happend hpos out.buffer.length
      rw [List.take_length] at hview
      have hgood := good_temp hs htemp (new ++ out.buffer)
      rw [← hview] at hgood
      have hmounted' : (Etc.view { s with dir := (out.flush out.buffer.length s.dir).2 }).mounted =
          some (i, file) := hview ▸ hmounted
      have htemp' : (Etc.view { s with dir := (out.flush out.buffer.length s.dir).2 }).temp =
          some (out.fd, new ++ out.buffer) := by rw [hview]
      cases es with
      | nil =>
          cases h
          have hall : withoutTail 0 (newMtab dir instead readError file) = new ++ out.buffer := by
            rw [withoutTail_zero, ← hnew, writeEntries, List.flatMap_nil, List.append_nil]
          refine .locked hclosed hgood ⟨dir, instead, i, file, out.fd, rfl, hmounted', ?_⟩
          exact htemp'.trans (congrArg (fun bs ↦ some (out.fd, bs)) hall.symm)
      | cons e es =>
          cases h
          refine .locked hclosed hgood
            ⟨dir, instead, i, file, new ++ out.buffer, rfl, hmounted', htemp', happend, ?_, ?_⟩
          · exact congrArg List.length (Links.bytes_of_look htemp')
          · have hcons : writeEntries (e :: es) = nfsAddmntent e ++ writeEntries es := rfl
            rw [← hnew, hcons, ← List.append_assoc]
  | commit readError lost =>
      obtain ⟨dir, instead, i, file, j, rfl, hmounted, htemp⟩ := hsec
      simp only [Section.go] at h
      split at h
      · rename_i hjob hren
        obtain ⟨rfl, rfl⟩ := Job.update.inj hjob
        cases h
        exact sound_commit hclosed hs hmounted htemp hren
      · cases h
        exact (Harmless.unlockMtab hclosed rfl).sound hs
  | appending out =>
      simp only [Section.go] at h
      split at h
      · cases h
        exact (Harmless.unlockMtab hclosed rfl).sound hs
      · cases h

theorem Section.fail_sound {sec : Section} (hl : l.Closed) (hs : s.view.Good first)
    (hpc : l.pc = .locked job sec) (hcalm : calm .fail l) (hsec : sec.Knows p job s.view)
    (h : sec.fail job l = some l') : Sound first p l' s := by
  have hclosed := hl.streams
  cases sec with
  | setmntent | makeTemp readError es | commit readError lost =>
      cases h
      exact (Harmless.unlockMtab hclosed rfl).sound hs
  | reading fd got =>
      obtain ⟨dir, instead, file, rfl, hmounted, hgot⟩ := hsec
      cases h
      have hnew := newMtab_eq_of_prefix hgot dir instead
      exact .locked hclosed hs ⟨dir, instead, fd, file, rfl, hmounted, hnew.symm⟩
  | writing readError out es =>
      obtain ⟨dir, instead, i, file, new, rfl, hmounted, htemp, happend, hpos, hnew⟩ := hsec
      cases es with
      | nil =>
          cases h
          have hsome :
              withoutTail out.buffer.length (newMtab dir instead readError file) = new := by
            rw [← hnew, writeEntries, List.flatMap_nil, List.append_nil, withoutTail_append]
          refine .locked hclosed hs ⟨dir, instead, i, file, out.fd, rfl, hmounted, ?_⟩
          exact htemp.trans (congrArg (fun bs ↦ some (out.fd, bs)) hsome.symm)
      | cons e es =>
          simp only [calm, hpc, Bool.false_eq_true] at hcalm
  | appending out => simp only [calm, hpc, Bool.false_eq_true] at hcalm

/-- A part of a line is put behind the entries. -/
theorem sound_append {written file : List UInt8} {before : List (Pid × Change)} {out : Stream}
    (hl : l.streams = []) (hs : s.view.Good first) (happend : out.append = true)
    (hmounted : s.view.mounted = some (out.fd, file))
    (hhist : s.history = before ++ [(p, .append (written ++ out.buffer) out.buffer.length)])
    (k : Nat) :
    Sound first p
      (l.goto (.locked (.add (written ++ out.buffer)) (.appending (out.flush k s.dir).1)))
      ⟨(out.flush k s.dir).2, s.history.dropLast ++
        [(p, .append (written ++ out.buffer) (out.flush k s.dir).1.buffer.length)]⟩ := by
  have hview := view_modify_mounted (· ++ out.buffer.take k) hs hmounted
  have hwrite : (out.flush k s.dir).2 = s.dir.modify out.fd (· ++ out.buffer.take k) := by
    rw [Stream.flush, happend]
    rfl
  have hmounted' : (out.flush k s.dir).2.look .mounted =
      some (out.fd, file ++ out.buffer.take k) := by
    rw [hwrite]
    exact congrArg MtabView.mounted hview
  have htemp' : (out.flush k s.dir).2.look .mountedTemp = s.view.temp := by
    rw [hwrite]
    exact congrArg MtabView.temp hview
  obtain ⟨i, hi, hne⟩ := hs
  obtain ⟨rfl, hfile⟩ := Prod.mk.inj (Option.some.inj (hmounted.symm.trans hi))
  rw [show s.view.history = _ from hhist, mtabAfter_concat, Change.apply, withoutTail_append]
    at hfile
  have hbefore : s.history.dropLast = before := by rw [hhist, List.dropLast_concat]
  -- the line is the same, but more of it is written
  have hline : written ++ out.buffer =
      (written ++ out.buffer.take k) ++ (out.flush k s.dir).1.buffer := by
    rw [List.append_assoc]
    exact congrArg _ (List.take_append_drop k out.buffer).symm
  rw [hbefore, hline]
  refine .locked hl ⟨out.fd, ?_, fun x hx ↦ hne x (htemp'.symm.trans hx)⟩
    ⟨_, file ++ out.buffer.take k, before, rfl, happend, hmounted', rfl⟩
  rw [Etc.view, hmounted', mtabAfter_concat, Change.apply, withoutTail_append, hfile,
    List.append_assoc]

theorem Section.part_sound {sec : Section} {k : Nat} (hl : l.Closed) (hs : s.view.Good first)
    (hsec : sec.Knows p job s.view) (h : sec.part k p job l s = some (l', s')) :
    Sound first p l' s' := by
  have hclosed := hl.streams
  cases sec with
  | reading fd got =>
      obtain ⟨dir, instead, file, rfl, hmounted, hgot⟩ := hsec
      cases h
      refine .locked hclosed hs ⟨dir, instead, file, rfl, hmounted, ?_⟩
      rw [Links.bytes_of_look hmounted]
      obtain ⟨rest, rfl⟩ := hgot
      rw [List.drop_left]
      exact (List.prefix_append_right_inj got).2 (List.take_prefix k rest)
  | writing readError out es =>
      obtain ⟨dir, instead, i, file, new, rfl, hmounted, htemp, happend, hpos, hnew⟩ := hsec
      cases h
      have hview := view_flush_temp hs htemp happend hpos k
      have hgood := good_temp hs htemp (new ++ out.buffer.take k)
      rw [← hview] at hgood
      refine .locked hclosed hgood ⟨dir, instead, i, file, new ++ out.buffer.take k, rfl, ?_, ?_,
        happend, pos_flush out new hpos k s.dir, ?_⟩
      · exact hview ▸ hmounted
      · exact congrArg MtabView.temp hview
      · rw [← hnew, List.append_assoc new]
        exact congrArg (fun x ↦ new ++ x ++ _) (List.take_append_drop k out.buffer)
  | appending out =>
      obtain ⟨written, file, before, rfl, happend, hmounted, hhist⟩ := hsec
      cases h
      exact sound_append hclosed hs happend hmounted hhist k
  | _ => cases h

/-! ## Every run -/

/-- A step of a process that is not at work with the lock. -/
theorem mtabMachine_harmless (hl : l.Closed) (hs : s.view.Good first) (hcalm : calm a l)
    (hpc : ∀ job sec, l.pc ≠ .locked job sec) (h : mtabMachine p a l s = some (l', s')) :
    Harmless s l' s' := by
  have hclosed := hl.streams
  cases a with
  | start =>
      simp only [mtabMachine] at h
      split at h
      · cases h
        exact .fresh rfl rfl
      · cases h
  | begin job =>
      simp only [mtabMachine] at h
      split at h
      · cases h
        exact .goto hclosed rfl rfl
      · cases h
        exact .goto hclosed rfl rfl
      · cases h
  | quit =>
      simp only [mtabMachine] at h
      split at h
      · cases h
        exact .exit hclosed rfl
      · cases h
  | go => exact Proc.go_harmless hl hs hpc h
  | fail =>
      obtain ⟨l₁, hfail, heq⟩ := Option.map_eq_some_iff.1 h
      cases heq
      exact Proc.fail_harmless hl hpc hfail
  | part k =>
      simp only [mtabMachine, Proc.part] at h
      split at h
      · rename_i job sec hpc'
        exact absurd hpc' (hpc job sec)
      · rename_i out streams hpc'
        cases hl.exiting _ hpc'
      · cases h
  | signal =>
      simp only [mtabMachine] at h
      split at h
      · cases h
        simp only [calm, Bool.and_eq_true, List.isEmpty_iff] at hcalm
        exact .die (by exact hclosed) hcalm.1.1 rfl
      · cases h
  | kill =>
      cases h
      exact .fresh rfl rfl

/-- A step of a process that is at work with the lock. -/
theorem mtabMachine_sound {sec : Section} (hl : l.Closed) (hs : s.view.Good first)
    (hcalm : calm a l) (hpc : l.pc = .locked job sec) (hsec : sec.Knows p job s.view)
    (h : mtabMachine p a l s = some (l', s')) : Sound first p l' s' := by
  have hclosed := hl.streams
  cases a with
  | start | begin job | quit => simp only [mtabMachine, hpc, reduceCtorEq] at h
  | go =>
      simp only [mtabMachine, Proc.go, hpc] at h
      exact Section.go_sound hl hs hsec h
  | fail =>
      obtain ⟨l₁, hfail, heq⟩ := Option.map_eq_some_iff.1 h
      cases heq
      simp only [Proc.fail, hpc] at hfail
      exact Section.fail_sound hl hs hpc hcalm hsec hfail
  | part k =>
      simp only [mtabMachine, Proc.part, hpc] at h
      exact Section.part_sound hl hs hsec h
  | signal =>
      simp only [mtabMachine] at h
      split at h
      · cases h
        simp only [calm, Bool.and_eq_true, List.isEmpty_iff] at hcalm
        exact Harmless.sound (.die (by exact hclosed) hcalm.1.1 rfl) hs
      · cases h
  | kill =>
      cases h
      exact (Harmless.fresh rfl rfl).sound hs

end Step

/-- The lock protects mtab and the new file. -/
theorem mtabMachine_protects (first : List UInt8) :
    mtabMachine.Protects calm Proc.Marked (fun l ↦ l.pc.holds = true) Etc.Unlocked Etc.view
      (MtabView.Good first) Proc.Closed Proc.Knows where
  toGuards := by
    refine mtabMachine_guards fun l after hpc ↦ ?_
    cases after <;> simp [calm, hpc, Pc.isClear]
  outside := by
    intro p a l s l' s' hok h hholds hclosed hgood
    have hpc : ∀ job sec, l.pc ≠ .locked job sec := by
      intro job sec hpc
      rw [hpc] at hholds
      exact hholds rfl
    have hstep := mtabMachine_harmless hclosed hgood hok hpc h
    exact ⟨hstep.closed, hstep.view, fun _ ↦ hstep.knows p _⟩
  inside := by
    intro p a l s l' s' hok h hholds hclosed hgood hknows
    have hsound : Sound first p l' s' := by
      by_cases hpc : ∃ job sec, l.pc = .locked job sec
      · obtain ⟨job, sec, hpc⟩ := hpc
        exact mtabMachine_sound hclosed hgood hok hpc (hknows job sec hpc) h
      · refine (mtabMachine_harmless hclosed hgood hok ?_ h).sound hgood
        exact fun job sec h ↦ hpc ⟨job, sec, h⟩
    exact ⟨hsound.closed, hsound.good, fun _ ↦ hsound.knows⟩

/-- A directory with a mtab, where nothing has been changed. -/
structure Etc.Ready (s : Etc) (first : List UInt8) : Prop where
  /-- No change has been made. -/
  history : s.history = []
  /-- mtab, which is not also the new file. -/
  mounted : ∃ i, s.dir.look .mounted = some (i, first) ∧ s.dir.file .mountedTemp ≠ some i

theorem Etc.Ready.safe {s : Etc} {first : List UInt8} (h : s.Ready first) :
    Machine.Safe Proc.Marked (fun l ↦ l.pc.holds = true) Etc.Unlocked Etc.view
      (MtabView.Good first) Proc.Closed Proc.Knows s.boot := by
  obtain ⟨i, hi, htemp⟩ := h.mounted
  refine ⟨exclusive_boot s, ⟨i, ?_, ?_⟩, fun p ↦ ⟨rfl, by rintro streams ⟨⟩⟩, by rintro p ⟨⟩⟩
  · change s.dir.look .mounted = some (i, mtabAfter first s.history)
    rw [h.history]
    exact hi
  · rintro x hx rfl
    exact htemp (Links.file_eq_of_look hx)

/-- **mtab is always what the changes so far make of the first one, one after the other**, in
whatever order the processes act, whatever else fails, and whoever is killed, if no process dies
with an open stream or leaves one open. -/
theorem mtab_eq_foldl_changes {s : Etc} {first : List UInt8} (hs : s.Ready first)
    {tr : List (Pid × Action)} {c : Pool Pid Proc Etc}
    (hplay : mtabMachine.play calm tr s.boot = some c) :
    ∃ i, c.shared.dir.look .mounted = some (i, mtabAfter first c.shared.history) := by
  obtain ⟨i, hi, -⟩ := ((mtabMachine_protects first).play tr hplay hs.safe).always
  exact ⟨i, hi⟩

/-- A directory with a mtab and nothing else. -/
def Etc.only (file : List UInt8) : Etc where
  dir :=
    { file := fun n ↦ if n = .mounted then some 0 else none
      bytes := fun _ ↦ file
      next := 1
      lt_next := by
        intro n i h
        split at h
        · exact Option.some.inj h ▸ Nat.one_pos
        · cases h }
  history := []

theorem Etc.ready_only (file : List UInt8) : (Etc.only file).Ready file :=
  ⟨rfl, 0, rfl, by rintro ⟨⟩⟩

/-- A process begins to put a line behind the others. -/
def appendTrace (p : Pid) (line : List UInt8) : List (Pid × Action) :=
  [(p, .start), (p, .begin (.add line))] ++ List.replicate 8 (p, .go)

/-- A process is killed in the middle of its line. -/
theorem mtab_eq_foldl_changes_killed :
    ∃ c, mtabMachine.play calm (appendTrace 1 [97, 10] ++ [(1, .part 1), (1, .kill)])
        (Etc.only []).boot = some c ∧
      ∃ i, c.shared.dir.look .mounted = some (i, mtabAfter [] c.shared.history) := by
  have hplay : (mtabMachine.play calm (appendTrace 1 [97, 10] ++ [(1, .part 1), (1, .kill)])
      (Etc.only []).boot).isSome := by decide
  have hsome := (Option.some_get hplay).symm
  exact ⟨_, hsome, mtab_eq_foldl_changes (Etc.ready_only []) hsome⟩

end Hsfs.Mtab
