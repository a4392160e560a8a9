import Hsfs.Mtab.Instead

/-!
# Reading mtab in part

Reading mtab can stop before its end: at a read error, at a line that does not fit the buffer, and
behind five lines that are not understood.  `update_mtab` does not ask for the reason, and writes
the new mtab from what it has read, which after a read error is nothing.  So entries are lost unless
nothing of interest stands behind the place where reading stopped (`update_keepsOthers_iff`).

What mtab holds is said apart from reading it: `allEntries` takes the lines one by one, without a
limit to their length or to the number of those that are not understood.
-/

namespace Hsfs.Mtab

/-! ## All entries of a file -/

/-- The entry of a line, if it is one. -/
def Line.toEntry : Line → Option Mntent
  | .blank => none
  | .bad => none
  | .entry e => some e

/-- The entry of a line that is read by itself. -/
def lineEntry (line : List UInt8) : Option Mntent := (readText (chomp (cString line))).toEntry

/-- The entries of all lines of a file. -/
def allEntries (file : List UInt8) : List Mntent := (file.splitOn 10).filterMap lineEntry

theorem allEntries_line {line : List UInt8} (hline : 10 ∉ line) (rest : List UInt8) :
    allEntries (line ++ 10 :: rest) = (lineEntry line).toList ++ allEntries rest := by
  have hsplit : (line ++ 10 :: rest).splitOn 10 = line :: rest.splitOn 10 :=
    List.splitOn_append_cons_self_of_not_mem hline rest
  rw [allEntries, hsplit, List.filterMap_cons]
  cases lineEntry line <;> rfl

theorem allEntries_last {line : List UInt8} (hline : 10 ∉ line) :
    allEntries line = (lineEntry line).toList := by
  rw [allEntries, List.splitOn_eq_singleton hline, List.filterMap_cons]
  cases lineEntry line <;> rfl

/-! ## What is read of them -/

/-- What `fgets` reads: a line with its newline, the end of the file without one, or a part of a
line that does not fit. -/
theorem fgets_cases {rest : List UInt8} (hne : rest ≠ []) :
    (∃ line rest', 10 ∉ line ∧ rest = line ++ 10 :: rest' ∧
      fgets bufSize rest = some (line ++ [10], rest', false)) ∨
    (10 ∉ rest ∧ fgets bufSize rest = some (rest, [], true)) ∨
    ∃ buf rest', 10 ∉ buf ∧ fgets bufSize rest = some (buf, rest', false) := by
  by_cases hmem : 10 ∈ rest
  · obtain ⟨line, rest', rfl, hline⟩ := List.eq_append_cons_of_mem hmem
    by_cases hfits : line.length + 1 < bufSize
    · exact .inl ⟨line, rest', hline, rfl, fgets_line hline hfits rest'⟩
    · have hlong : bufSize - 1 ≤ line.length := by omega
      have hpart : 10 ∉ (line ++ 10 :: rest').take (bufSize - 1) := by
        rw [List.take_append_of_le_length hlong]
        exact fun h ↦ hline (List.mem_of_mem_take h)
      have hlength : bufSize - 1 ≤ (line ++ 10 :: rest').length := by
        rw [List.length_append]
        omega
      obtain ⟨rest'', hget⟩ := fgets_part hpart hlength
      exact .inr (.inr ⟨_, rest'', hpart, hget⟩)
  · by_cases hfits : rest.length < bufSize - 1
    · exact .inr (.inl ⟨hmem, fgets_end hne hmem hfits⟩)
    · have hpart : 10 ∉ rest.take (bufSize - 1) := fun h ↦ hmem (List.mem_of_mem_take h)
      obtain ⟨rest'', hget⟩ := fgets_part hpart (Nat.le_of_not_lt hfits)
      exact .inr (.inr ⟨_, rest'', hpart, hget⟩)

theorem lineText_end {rest : List UInt8} (hline : 10 ∉ rest) :
    lineText rest true = some (chomp (cString rest)) := by
  have hstr : 10 ∉ cString rest := fun h ↦ hline (List.takeWhile_subset _ h)
  unfold lineText
  dsimp only
  rw [if_neg hstr, if_pos rfl]

/-- A zero in a line hides its newline. -/
theorem newline_notMem_cString {line : List UInt8} (hline : 10 ∉ line) (hzero : 0 ∈ line) :
    10 ∉ cString (line ++ [10]) := by
  obtain ⟨front, back, rfl, hfront⟩ := List.eq_append_cons_of_mem hzero
  rw [cString, List.append_assoc, List.cons_append, takeWhile_ne_append hfront]
  exact fun h ↦ hline (List.mem_append_left _ h)

/-- **What is read is the beginning of what there is**, wherever and for whatever reason reading
stops. -/
theorem entriesFrom_prefix (mfp : MntFile) : entriesFrom mfp <+: allEntries mfp.rest := by
  -- by induction on what is left of the file, one line at a time
  induction hn : mfp.rest.length using Nat.strong_induction_on generalizing mfp with
  | _ n ih =>
      obtain ⟨rest, errs, softerrs⟩ := mfp
      by_cases hstop : errs = true ∨ errMax ≤ softerrs
      · rw [entriesFrom_stop hstop]
        exact List.nil_prefix
      · have hnext (mfp' : MntFile) (hlt : mfp'.rest.length < rest.length) :
            entriesFrom mfp' <+: allEntries mfp'.rest := ih _ (hn ▸ hlt) mfp' rfl
        by_cases hne : rest = []
        · obtain rfl : errs = false := Bool.eq_false_iff.2 fun h ↦ hstop (.inl h)
          rw [hne, entriesFrom_nil]
          exact List.nil_prefix
        · rcases fgets_cases hne with ⟨line, rest', hline, rfl, hget⟩ | ⟨hline, hget⟩ |
            ⟨buf, rest', hbuf, hget⟩
          · have hlt : rest'.length < (line ++ 10 :: rest').length := fgets_lt hget
            rw [entriesFrom_line hstop hget, allEntries_line hline]
            by_cases hzero : 0 ∈ line
            · rw [lineText_part (newline_notMem_cString hline hzero)]
              change entriesFrom ⟨rest', true, softerrs + 1⟩ <+: _
              rw [entriesFrom_stop (.inl rfl)]
              exact List.nil_prefix
            · rw [lineText_line hline hzero, lineEntry, cString_of_notMem hzero, Option.map_some]
              cases readText (chomp line) with
              | blank => exact hnext ⟨rest', errs, softerrs⟩ hlt
              | bad => exact hnext ⟨rest', errs, softerrs + 1⟩ hlt
              | entry e =>
                  exact List.cons_prefix_cons.2 ⟨rfl, hnext ⟨rest', errs, softerrs⟩ hlt⟩
          · have hlt : ([] : List UInt8).length < rest.length := List.length_pos_of_ne_nil hne
            rw [entriesFrom_line hstop hget, allEntries_last hline, lineText_end hline, lineEntry,
              Option.map_some]
            cases readText (chomp (cString rest)) with
            | blank => exact hnext ⟨[], errs, softerrs⟩ hlt
            | bad => exact hnext ⟨[], errs, softerrs + 1⟩ hlt
            | entry e => exact List.cons_prefix_cons.2 ⟨rfl, hnext ⟨[], errs, softerrs⟩ hlt⟩
          · rw [entriesFrom_line hstop hget,
              lineText_part fun h ↦ hbuf (List.takeWhile_subset _ h)]
            change entriesFrom ⟨rest', true, softerrs + 1⟩ <+: _
            rw [entriesFrom_stop (.inl rfl)]
            exact List.nil_prefix

/-! ## What a file that was written holds -/

/-- What the line of an entry is read as, if it is read as an entry. -/
def Mntent.reread (e : Mntent) : Option Mntent := (readText (entryText e)).toEntry

theorem lineEntry_entryText (e : Mntent) : lineEntry (entryText e) = e.reread := by
  rw [lineEntry, cString_of_notMem fun h ↦ (plain_of_mem_entryText h).1 rfl, chomp_entryText,
    Mntent.reread]

theorem Mntent.reread_eq_some_self_iff {e : Mntent} : e.reread = some e ↔ e.Sound := by
  rw [← readText_entryText_iff, reread]
  cases readText (entryText e) with
  | blank => exact iff_of_false (Option.some_ne_none e).symm (by rintro ⟨⟩)
  | bad => exact iff_of_false (Option.some_ne_none e).symm (by rintro ⟨⟩)
  | entry e' =>
    exact ⟨fun h ↦ congrArg Line.entry (Option.some.inj h),
      fun h ↦ congrArg some (Line.entry.inj h)⟩

theorem allEntries_writeEntries (es : List Mntent) :
    allEntries (writeEntries es) = es.filterMap Mntent.reread := by
  induction es with
  | nil => rfl
  | cons e es ih =>
      rw [writeEntries, List.flatMap_cons, nfsAddmntent_append,
        allEntries_line newline_notMem_entryText, lineEntry_entryText, ← writeEntries, ih,
        List.filterMap_cons]
      cases e.reread <;> rfl

/-- Entries are all read back just if they are sound. -/
theorem filterMap_reread_eq_self_iff {es : List Mntent} :
    es.filterMap Mntent.reread = es ↔ ∀ e ∈ es, e.Sound := by
  induction es with
  | nil => exact iff_of_true rfl fun e he ↦ absurd he List.not_mem_nil
  | cons e es ih =>
      rw [List.forall_mem_cons, ← Mntent.reread_eq_some_self_iff, ← ih, List.filterMap_cons]
      cases e.reread with
      | none =>
          -- one entry less is read back than was written
          refine iff_of_false (fun h ↦ ?_) fun h ↦ Option.some_ne_none e h.1.symm
          have hle := List.length_filterMap_le Mntent.reread es
          rw [show es.filterMap Mntent.reread = e :: es from h, List.length_cons] at hle
          exact Nat.not_succ_le_self _ hle
      | some e' => rw [Option.some.injEq, List.cons_eq_cons]

theorem sublist_filterMap_reread_iff {es : List Mntent} :
    es.Sublist (es.filterMap Mntent.reread) ↔ ∀ e ∈ es, e.Sound := by
  rw [← filterMap_reread_eq_self_iff]
  refine ⟨fun h ↦ ?_, fun h ↦ h.symm ▸ List.Sublist.refl es⟩
  exact (h.eq_of_length (Nat.le_antisymm h.length_le (List.length_filterMap_le _ es))).symm

/-! ## The update with all that can go wrong -/

/-- What goes wrong in `update_mtab`. -/
structure MtabFaults where
  /-- There is no mtab, or it is not to be written. -/
  unusable : Bool
  /-- It cannot be opened. -/
  noMtab : Bool
  /-- Reading fails behind so many bytes. -/
  readError : Option Nat
  /-- The new file cannot be opened. -/
  noTemp : Bool
  /-- Writing an entry to it fails, and the process ends. -/
  writeError : Bool
  /-- It cannot be given the name of mtab. -/
  noRename : Bool

/-- The new file is not put in the place of mtab. -/
def MtabFaults.leavesMtab (f : MtabFaults) : Bool :=
  f.unusable || f.noMtab || f.noTemp || f.writeError || f.noRename

/-- `update_mtab`: what mtab is afterwards. -/
def updateMtabWith (f : MtabFaults) (dir : CStr) (instead : Option Mntent) (file : List UInt8) :
    List UInt8 :=
  if f.unusable then file
  else if f.noMtab then file
  else
    let new := match f.readError with
      | none => updateMtab dir instead false file
      | some n => updateMtab dir instead true (file.take n)
    if f.noTemp then file else if f.writeError then file else if f.noRename then file else new

/-- The entries that are in the ring when mtab has been read. -/
def entriesKept (readError : Option Nat) (file : List UInt8) : List Mntent :=
  entriesRead readError.isSome ((entriesOf file).filter Mntent.isKept)

/-- The entries that are written from those. -/
def rewritten (dir : CStr) (instead : Option Mntent) (es : List Mntent) : List Mntent :=
  match instead with
  | none => withoutLast dir es
  | some instead => written dir instead es

/-- After a read error there is nothing to take an entry out of. -/
theorem updateMtab_none_of_error (dir : CStr) (file : List UInt8) :
    updateMtab dir none true file = [] := by
  have hprev : (readMntentchn true file).prev .head = none := by
    change (LinkRing.setPrev .head none _).prev .head = none
    rw [LinkRing.prev_setPrev, if_pos rfl]
  have hnxt : (readMntentchn true file).nxt .head = none := by
    change (LinkRing.setPrev .head none _).nxt .head = none
    rw [LinkRing.nxt_setPrev, LinkRing.nxt_setNxt, if_pos rfl]
  have hring : changeRing dir none (readMntentchn true file) = readMntentchn true file := by
    unfold changeRing
    rw [LinkRing.findLast_of_prev_none hprev]
  rw [updateMtab, hring, LinkRing.toList, hnxt]
  cases (readMntentchn true file).size <;> rfl

/-- **What `update_mtab` writes**, from a file that is read to some point. -/
theorem updateMtab_eq (dir : CStr) (instead : Option Mntent) (readError : Option Nat)
    (file : List UInt8) :
    (match readError with
      | none => updateMtab dir instead false file
      | some n => updateMtab dir instead true (file.take n)) =
      writeEntries (rewritten dir instead (entriesKept readError file)) := by
  cases readError with
  | none =>
      cases instead with
      | none => exact updateMtab_none dir file
      | some instead => exact updateMtab_some dir instead false file
  | some n =>
      cases instead with
      | none => exact updateMtab_none_of_error dir (file.take n)
      | some instead => exact updateMtab_some dir instead true (file.take n)

theorem updateMtabWith_eq (f : MtabFaults) (dir : CStr) (instead : Option Mntent)
    (file : List UInt8) : updateMtabWith f dir instead file =
      if f.leavesMtab then file
      else writeEntries (rewritten dir instead (entriesKept f.readError file)) := by
  rw [← updateMtab_eq, updateMtabWith, MtabFaults.leavesMtab]
  cases f.unusable <;> cases f.noMtab <;> cases f.noTemp <;> cases f.writeError <;>
    cases f.noRename <;> rfl

/-! ## What is lost -/

/-- A new mtab is the old one, or it still holds the entries of the old one other than the last one
for a directory. -/
def KeepsOthers (dir : CStr) (file file' : List UInt8) : Prop :=
  file' = file ∨ (withoutLast dir (allEntries file)).Sublist (allEntries file')

theorem withoutLast_sublist (dir : CStr) (es : List Mntent) : (withoutLast dir es).Sublist es := by
  rw [withoutLast, LinkRing.eraseLast, ← List.reverse_sublist, List.reverse_reverse]
  exact List.eraseP_sublist

theorem keepsOthers_iff {dir : CStr} {file file' : List UInt8} : KeepsOthers dir file file' ↔
    (withoutLast dir (allEntries file)).Sublist (allEntries file') := by
  refine ⟨fun h ↦ h.elim ?_ id, .inr⟩
  rintro rfl
  exact withoutLast_sublist dir _

/-- The entries in the ring are some of those of the file. -/
theorem entriesKept_sublist (readError : Option Nat) (file : List UInt8) :
    (entriesKept readError file).Sublist (allEntries file) := by
  cases readError with
  | some n => exact List.nil_sublist _
  | none =>
      have hprefix : entriesOf file <+: allEntries file := entriesFrom_prefix (.ofBytes file)
      exact List.filter_sublist.trans hprefix.sublist

/-- Whatever is put in, the entries other than the last one for the directory are written. -/
theorem withoutLast_sublist_rewritten (dir : CStr) (instead : Option Mntent) (es : List Mntent) :
    (withoutLast dir es).Sublist (rewritten dir instead es) := by
  cases instead with
  | none => exact List.Sublist.refl _
  | some instead =>
      rw [rewritten, written]
      split
      · next hdir =>
          obtain ⟨e, he, hdir⟩ := hdir
          exact LinkRing.eraseLast_sublist_modifyLast ⟨e, he, decide_eq_true hdir⟩ _
      · split
        · next hnil =>
            rw [hnil]
            exact List.nil_sublist _
        · exact withoutLast_sublist dir es

/-- The line that an entry to put in makes of those that were kept, and what stands before and
behind it: the last entry for the directory gets other options, or the entry is added to none. -/
inductive ChangedLine (dir : CStr) (new : Mntent) :
    List Mntent → List Mntent → Mntent → List Mntent → Prop
  | options {before after : List Mntent} {e : Mntent} : e.dir = dir → (∀ x ∈ after, x.dir ≠ dir) →
      ChangedLine dir new (before ++ e :: after) before (new.withOpts e) after
  | added : ChangedLine dir new [] [] new []

/-- The changed line stands in for one of the entries `others`: it reads as this one, and those
before and behind it are read from the lines before and behind the changed one. -/
def StandsIn (dir : CStr) (new : Mntent) (kept others : List Mntent) : Prop :=
  ∃ before line after x, ChangedLine dir new kept before line after ∧ line.reread = some x ∧
    ∃ front back, others = front ++ x :: back ∧ front.Sublist (before.filterMap Mntent.reread) ∧
      back.Sublist (after.filterMap Mntent.reread)

/-- The entries `all` of a file, other than the last one for a directory, are carried over from
those that were `kept`: nothing else was missed, and they are sound.  If there is an entry to put
in, this may also come about by chance: the line that it changes or makes may stand in for one that
was missed, or that is not sound. -/
def CarriedOver (dir : CStr) (instead : Option Mntent) (kept all : List Mntent) : Prop :=
  (withoutLast dir kept = withoutLast dir all ∧ ∀ e ∈ withoutLast dir all, e.Sound) ∨
    ∃ new, instead = some new ∧ StandsIn dir new kept (withoutLast dir all)

section ChangedLine

variable {dir : CStr} {new line : Mntent} {kept before after : List Mntent}

theorem ChangedLine.withoutLast_eq (h : ChangedLine dir new kept before line after) :
    withoutLast dir kept = before ++ after := by
  cases h with
  | options hdir hafter => exact withoutLast_append hdir hafter
  | added => rfl

theorem ChangedLine.written_eq (h : ChangedLine dir new kept before line after) :
    written dir new kept = before ++ line :: after := by
  cases h with
  | @options _ _ e hdir hafter =>
      rw [written, if_pos ⟨e, List.mem_append_right _ List.mem_cons_self, hdir⟩]
      exact LinkRing.modifyLast_append (p := (·.dir = dir)) (decide_eq_true hdir)
        (fun x hx ↦ decide_eq_false (hafter x hx)) _ _
  | added => rfl

variable (dir new kept) in
/-- A line is changed, or everything is written as it was kept. -/
theorem changedLine_or : (∃ before line after, ChangedLine dir new kept before line after) ∨
    written dir new kept = kept ∧ withoutLast dir kept = kept := by
  by_cases hdir : ∃ e ∈ kept, e.dir = dir
  · obtain ⟨e, he, hdir⟩ := hdir
    obtain ⟨before, e', after, rfl, hlast, hafter⟩ :=
      LinkRing.exists_last (p := (·.dir = dir)) ⟨e, he, decide_eq_true hdir⟩
    exact .inl ⟨before, _, after, .options (of_decide_eq_true hlast) fun x hx ↦
      of_decide_eq_false (hafter x hx)⟩
  · by_cases hnil : kept = []
    · subst hnil
      exact .inl ⟨[], new, [], .added⟩
    · refine .inr ⟨?_, LinkRing.eraseLast_of_forall fun e he ↦ ?_⟩
      · rw [written, if_neg hdir, if_neg hnil]
      · exact decide_eq_false fun h ↦ hdir ⟨e, he, h⟩

end ChangedLine

/-- A part of a list with `x` in it passes over `x`, or has it. -/
theorem sublist_append_cons_iff {α : Type} {l xs ys : List α} {x : α} :
    l.Sublist (xs ++ x :: ys) ↔ l.Sublist (xs ++ ys) ∨
      ∃ front back, l = front ++ x :: back ∧ front.Sublist xs ∧ back.Sublist ys := by
  rw [List.sublist_append_iff]
  constructor
  · rintro ⟨front, rest, rfl, hfront, hrest⟩
    rcases List.sublist_cons_iff.1 hrest with hrest | ⟨back, rfl, hback⟩
    · exact .inl (hfront.append hrest)
    · exact .inr ⟨front, back, rfl, hfront, hback⟩
  · rintro (h | ⟨front, back, rfl, hfront, hback⟩)
    · obtain ⟨front, rest, rfl, hfront, hrest⟩ := List.sublist_append_iff.1 h
      exact ⟨front, rest, rfl, hfront, hrest.cons x⟩
    · exact ⟨front, x :: back, rfl, hfront, hback.cons_cons x⟩

/-- What is read from the lines of a part of the entries holds all of them just if nothing is
missing and they are sound. -/
theorem sublist_reread_iff {part es : List Mntent} (hpart : part.Sublist es) :
    es.Sublist (part.filterMap Mntent.reread) ↔ part = es ∧ ∀ e ∈ es, e.Sound := by
  constructor
  · intro h
    have hlen := h.length_le.trans (List.length_filterMap_le _ _)
    obtain rfl : part = es := hpart.eq_of_length (Nat.le_antisymm hpart.length_le hlen)
    exact ⟨rfl, sublist_filterMap_reread_iff.1 h⟩
  · rintro ⟨rfl, hsound⟩
    exact sublist_filterMap_reread_iff.2 hsound

/-- What is written from a part of the entries holds the others just if these are carried over. -/
theorem carriedOver_iff {dir : CStr} {instead : Option Mntent} {kept all : List Mntent}
    (hkept : kept.Sublist all) :
    (withoutLast dir all).Sublist ((rewritten dir instead kept).filterMap Mntent.reread) ↔
      CarriedOver dir instead kept all := by
  have hpart : (withoutLast dir kept).Sublist (withoutLast dir all) :=
    LinkRing.eraseLast_sublist hkept
  rw [CarriedOver, ← sublist_reread_iff hpart]
  cases instead with
  | none => exact (or_iff_left fun ⟨new, hnew, _⟩ ↦ Option.some_ne_none new hnew.symm).symm
  | some new =>
      constructor
      · intro h
        rcases changedLine_or dir new kept with ⟨before, line, after, hline⟩ | ⟨hwritten, hsame⟩
        · rw [rewritten, hline.written_eq, List.filterMap_append, List.filterMap_cons] at h
          rw [hline.withoutLast_eq, List.filterMap_append]
          cases hx : line.reread with
          | none =>
              rw [hx] at h
              exact .inl h
          | some x =>
              rw [hx] at h
              refine (sublist_append_cons_iff.1 h).imp_right ?_
              exact fun hsplit ↦ ⟨new, rfl, before, line, after, x, hline, hx, hsplit⟩
        · rw [rewritten, hwritten] at h
          rw [hsame]
          exact .inl h
      · rintro (h | ⟨_, ⟨⟩, before, line, after, x, hline, hx, hsplit⟩)
        · exact h.trans ((withoutLast_sublist_rewritten dir (some new) kept).filterMap _)
        · rw [rewritten, hline.written_eq, List.filterMap_append, List.filterMap_cons, hx]
          exact sublist_append_cons_iff.2 (.inr hsplit)

/-- **When `update_mtab` loses no entry.**  It does not if it leaves mtab alone.  Otherwise every
entry of mtab, other than the one that is taken out, has to be among those that are read before
reading stops, of which a read error leaves none; unless the line that is changed happens to read as
the one that is missing. -/
theorem update_keepsOthers_iff (f : MtabFaults) (dir : CStr) (instead : Option Mntent)
    (file : List UInt8) :
    KeepsOthers dir file (updateMtabWith f dir instead file) ↔
      f.leavesMtab = true ∨ CarriedOver dir instead (entriesKept f.readError file)
        (allEntries file) := by
  rw [updateMtabWith_eq]
  cases hleaves : f.leavesMtab with
  | true => exact iff_of_true (.inl rfl) (.inl rfl)
  | false =>
      rw [if_neg Bool.false_ne_true, keepsOthers_iff, allEntries_writeEntries,
        carriedOver_iff (entriesKept_sublist f.readError file), or_iff_right Bool.false_ne_true]

/-- A read error empties mtab. -/
theorem not_update_keepsOthers : ¬ ∀ (dir : CStr) (file : List UInt8) (n : Nat),
    KeepsOthers dir file
      (updateMtabWith ⟨false, false, some n, false, false, false⟩ dir none file) := by
  intro h
  have hkeeps := keepsOthers_iff.1 (h ⟨nameOf "/y", by decide⟩ (writeEntries [sampleEntry]) 0)
  have hsound : sampleEntry.reread = some sampleEntry := by decide
  rw [updateMtabWith_eq, if_neg (by decide), allEntries_writeEntries, allEntries_writeEntries,
    List.filterMap_cons_some hsound] at hkeeps
  exact absurd hkeeps.length_le (by decide)

end Hsfs.Mtab
