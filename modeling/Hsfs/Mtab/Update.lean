import Hsfs.Mtab.Entries
import Hsfs.Table.Ring

/-!
# Updating mtab

`update_mtab` reads all entries of mtab into a ring, changes the ring and writes it to a new file.
When a file system is unmounted, the last entry for its directory is taken out.

The entries of the new file are the others of the old one if each of them survives being written and
read again, and if none of them is of the type `ignore`, which is not written (`del_mtab_iff`).
-/

namespace Hsfs.Mtab

open Mount (byteAt)

/-! ## `update_mtab` -/

/-- `MNTTYPE_IGNORE`. -/
def mnttypeIgnore : Name := nameOf "ignore"

/-- The entry is kept in the ring. -/
def Mntent.isKept (e : Mntent) : Bool := e.type.1 ≠ mnttypeIgnore

/-- `read_mntentchn`, with what `ferror` says at the end. -/
def readMntentchn (ferror : Bool) (file : List UInt8) : LinkRing Mntent :=
  let mc0 := LinkRing.ofList ((entriesOf file).filter Mntent.isKept)
  if ferror then (mc0.setNxt .head none).setPrev .head none else mc0

/-- The new entry of `update_mtab`, behind the others. -/
def addAbsent (instead : Mntent) (mc0 : LinkRing Mntent) : LinkRing Mntent :=
  let absent := RingPtr.cell mc0.size
  let mc0 := { mc0 with val := Function.update mc0.val mc0.size instead, size := mc0.size + 1 }
  let mc0 := (mc0.setNxt absent (some .head)).setPrev absent (mc0.prev .head)
  let mc0 := mc0.setPrev .head (some absent)
  if mc0.nxt .head = none then mc0.setNxt .head (some absent) else mc0

/-- The change that `update_mtab` makes to the ring. -/
def changeRing (dir : CStr) (instead : Option Mntent) (mc0 : LinkRing Mntent) : LinkRing Mntent :=
  match mc0.findLast (·.dir = dir), instead with
  | some mc, none => mc0.unlink mc
  | some mc, some instead =>
      { mc0 with val := Function.update mc0.val mc { mc0.val mc with opts := instead.opts } }
  | none, some instead => addAbsent instead mc0
  | none, none => mc0

/-- The file with some entries. -/
def writeEntries (es : List Mntent) : List UInt8 := es.flatMap nfsAddmntent

/-- `update_mtab`, if nothing fails but reading: the new file. -/
def updateMtab (dir : CStr) (instead : Option Mntent) (ferror : Bool) (file : List UInt8) :
    List UInt8 :=
  writeEntries (changeRing dir instead (readMntentchn ferror file)).toList

/-- `hsi_del_mtab`.  Nothing is done to a symbolic link. -/
def hsiDelMtab (nomtab symlink : Bool) (dir : CStr) (file : List UInt8) : List UInt8 :=
  if nomtab || symlink then file else updateMtab dir none false file

/-! ## What a file that was written yields -/

section Text

variable {e : Mntent}

theorem plain_of_mem_entryText {b : UInt8} (hb : b ∈ entryText e) : b ≠ 0 ∧ b ≠ 10 := by
  have hfield : ∀ {x : CStr} {b : UInt8}, b ∈ mangle x → b ≠ 0 ∧ b ≠ 10 := by
    intro x b hb
    exact ⟨fun h ↦ zero_notMem_mangle x.2 (h ▸ hb), fun h ↦ newline_notMem_mangle (h ▸ hb)⟩
  have hnumber : ∀ {n : Int} {b : UInt8}, b ∈ formatInt n → b ≠ 0 ∧ b ≠ 10 := by
    intro n b hb
    obtain ⟨-, -, hzero, hnewline, -⟩ := plain_of_mem_formatInt hb
    exact ⟨hzero, hnewline⟩
  have hblank : (32 : UInt8) ≠ 0 ∧ (32 : UInt8) ≠ 10 := by decide
  simp only [entryText, List.mem_append, List.mem_cons] at hb
  rcases hb with hb | rfl | hb | rfl | hb | rfl | hb | rfl | hb | rfl | hb
  · exact hfield hb
  · exact hblank
  · exact hfield hb
  · exact hblank
  · exact hfield hb
  · exact hblank
  · exact hfield hb
  · exact hblank
  · exact hnumber hb
  · exact hblank
  · exact hnumber hb

theorem newline_notMem_entryText : 10 ∉ entryText e := fun h ↦ (plain_of_mem_entryText h).2 rfl

/-- A line ends with a number, not with a carriage return. -/
theorem chomp_entryText : chomp (entryText e) = entryText e := by
  have hlast : (entryText e).getLast? = (formatInt e.passno.toInt).getLast? := by
    obtain ⟨front, hfront⟩ : ∃ front, entryText e = front ++ formatInt e.passno.toInt := by
      refine ⟨mangle e.fsname ++ 32 ::
        (mangle e.dir ++ 32 :: (mangle e.type ++ 32 :: (mangle e.opts ++
        32 :: (formatInt e.freq.toInt ++ [32])))), ?_⟩
      simp only [entryText, List.append_assoc, List.cons_append, List.nil_append]
    rw [hfront, List.getLast?_append_of_ne_nil _ (formatInt_ne_nil _)]
  unfold chomp
  rw [hlast, if_neg]
  intro h
  exact (plain_of_mem_formatInt (List.mem_of_getLast? h)).2.2.2.2 rfl

/-- The line of an entry fits the buffer. -/
def Mntent.Fits (e : Mntent) : Prop := (nfsAddmntent e).length < bufSize

instance (e : Mntent) : Decidable e.Fits := inferInstanceAs (Decidable (_ < _))

theorem nfsAddmntent_append (e : Mntent) (rest : List UInt8) :
    nfsAddmntent e ++ rest = entryText e ++ 10 :: rest := by
  rw [nfsAddmntent, List.append_assoc, List.singleton_append]

theorem fgets_of_fits (h : e.Fits) (rest : List UInt8) :
    fgets bufSize (nfsAddmntent e ++ rest) = some (nfsAddmntent e, rest, false) := by
  have hfits : (entryText e).length + 1 < bufSize := by
    unfold Mntent.Fits at h
    rwa [nfsAddmntent, List.length_append, List.length_singleton] at h
  rw [nfsAddmntent_append]
  exact fgets_line newline_notMem_entryText hfits rest

theorem fgets_of_not_fits (h : ¬ e.Fits) (rest : List UInt8) :
    ∃ rest', fgets bufSize (nfsAddmntent e ++ rest) =
      some ((entryText e).take (bufSize - 1), rest', false) := by
  have hlen : bufSize - 1 ≤ (entryText e).length := by
    unfold Mntent.Fits at h
    rw [nfsAddmntent, List.length_append, List.length_singleton] at h
    omega
  have hchunk : (entryText e ++ 10 :: rest).take (bufSize - 1) = (entryText e).take (bufSize - 1) :=
    List.take_append_of_le_length hlen
  have hnewline : 10 ∉ (entryText e).take (bufSize - 1) := fun hmem ↦
    newline_notMem_entryText (List.mem_of_mem_take hmem)
  rw [nfsAddmntent_append, ← hchunk]
  rw [← hchunk] at hnewline
  refine fgets_part hnewline ?_
  rw [List.length_append]
  omega

theorem lineText_nfsAddmntent : lineText (nfsAddmntent e) false = some (entryText e) := by
  rw [nfsAddmntent, lineText_line newline_notMem_entryText fun h ↦ (plain_of_mem_entryText h).1 rfl,
    chomp_entryText]

theorem lineText_take (n : Nat) : lineText ((entryText e).take n) false = none :=
  lineText_part fun hmem ↦
    newline_notMem_entryText (List.mem_of_mem_take ((List.takeWhile_subset _) hmem))

/-- **What the line of an entry yields**, if reading has not stopped before. -/
theorem entriesFrom_cons (e : Mntent) (rest : List UInt8) {softerrs : Nat}
    (hsoft : softerrs < errMax) :
    entriesFrom ⟨nfsAddmntent e ++ rest, false, softerrs⟩ =
      if e.Fits then
        match readText (entryText e) with
        | .blank => entriesFrom ⟨rest, false, softerrs⟩
        | .bad => entriesFrom ⟨rest, false, softerrs + 1⟩
        | .entry e' => e' :: entriesFrom ⟨rest, false, softerrs⟩
      else [] := by
  have hgo : ¬ ((⟨nfsAddmntent e ++ rest, false, softerrs⟩ : MntFile).errs ∨
      errMax ≤ (⟨nfsAddmntent e ++ rest, false, softerrs⟩ : MntFile).softerrs) :=
    not_or.2 ⟨Bool.false_ne_true, Nat.not_le.2 hsoft⟩
  split
  · rename_i hfits
    rw [entriesFrom_line hgo (fgets_of_fits hfits rest), lineText_nfsAddmntent, Option.map_some]
    cases readText (entryText e) <;> rfl
  · rename_i hlong
    obtain ⟨rest', hline⟩ := fgets_of_not_fits hlong rest
    rw [entriesFrom_line hgo hline, lineText_take]
    exact entriesFrom_stop (.inl rfl)

end Text

/-! ## What survives -/

/-- An entry that survives being written and read again. -/
structure Mntent.Survives (e : Mntent) : Prop extends e.Sound where
  fits : e.Fits

section Written

variable {es : List Mntent}

theorem entriesFrom_nil (softerrs : Nat) : entriesFrom ⟨[], false, softerrs⟩ = [] := by
  have hget : (nfsGetmntent 1 ⟨[], false, softerrs⟩).1 = none := by
    rw [nfsGetmntent]
    split <;> rfl
  rw [entriesFrom_of_getmntent (Nat.lt_succ_self 0)]
  split
  · rfl
  · rename_i heq
    rw [heq] at hget
    cases hget

/-- A file yields no more entries than were written to it. -/
theorem length_entriesFrom_le (es : List Mntent) (softerrs : Nat) :
    (entriesFrom ⟨writeEntries es, false, softerrs⟩).length ≤ es.length := by
  induction es generalizing softerrs with
  | nil =>
      rw [writeEntries, List.flatMap_nil, entriesFrom_nil]
  | cons e es ih =>
      by_cases hsoft : softerrs < errMax
      · rw [writeEntries, List.flatMap_cons, entriesFrom_cons e _ hsoft, ← writeEntries,
          List.length_cons]
        split
        · cases readText (entryText e) with
          | blank => exact Nat.le_succ_of_le (ih softerrs)
          | bad => exact Nat.le_succ_of_le (ih (softerrs + 1))
          | entry e' => exact Nat.succ_le_succ (ih softerrs)
        · exact Nat.zero_le _
      · rw [entriesFrom_stop (.inr (Nat.not_lt.1 hsoft))]
        exact Nat.zero_le _

/-- **A file yields the entries that were written to it exactly if all of them survive.** -/
theorem entriesOf_writeEntries_iff (es : List Mntent) :
    entriesOf (writeEntries es) = es ↔ ∀ e ∈ es, e.Survives := by
  change entriesFrom ⟨writeEntries es, false, 0⟩ = es ↔ _
  induction es with
  | nil =>
      rw [writeEntries, List.flatMap_nil, entriesFrom_nil]
      exact iff_of_true rfl fun e he ↦ absurd he List.not_mem_nil
  | cons e es ih =>
      rw [writeEntries, List.flatMap_cons, entriesFrom_cons e _ (by decide), ← writeEntries,
        List.forall_mem_cons]
      -- fewer entries than were written
      have hshort : ∀ softerrs, entriesFrom ⟨writeEntries es, false, softerrs⟩ ≠ e :: es := by
        intro softerrs h
        have hle := length_entriesFrom_le es softerrs
        rw [h, List.length_cons] at hle
        omega
      split
      · rename_i hfits
        have hline := readText_entryText_iff e
        cases hread : readText (entryText e) with
        | blank =>
            rw [hread] at hline
            exact iff_of_false (hshort 0) fun h ↦ nomatch hline.2 h.1.toSound
        | bad =>
            rw [hread] at hline
            exact iff_of_false (hshort 1) fun h ↦ nomatch hline.2 h.1.toSound
        | entry e' =>
            rw [hread] at hline
            dsimp only
            rw [List.cons_eq_cons, ih]
            constructor
            · rintro ⟨rfl, hrest⟩
              exact ⟨⟨hline.1 rfl, hfits⟩, hrest⟩
            · rintro ⟨he, hrest⟩
              exact ⟨Line.entry.inj (hline.2 he.toSound), hrest⟩
      · rename_i hlong
        exact iff_of_false (List.cons_ne_nil e es).symm fun h ↦ hlong h.1.fits

end Written

/-! ## Removing an entry -/

open LinkRing (eraseLast length_eraseLast eraseLast_append eraseLast_of_forall)

/-- The entries without the last one for a directory. -/
def withoutLast (dir : CStr) (es : List Mntent) : List Mntent := eraseLast (·.dir = dir) es

/-- The ring after a file system was unmounted. -/
theorem toList_changeRing_none (dir : CStr) (es : List Mntent) :
    (changeRing dir none (LinkRing.ofList es)).toList = withoutLast dir es := by
  rw [withoutLast, ← LinkRing.toList_unlink_findLast]
  unfold changeRing
  cases (LinkRing.ofList es).findLast (·.dir = dir) <;> rfl

theorem updateMtab_none (dir : CStr) (file : List UInt8) :
    updateMtab dir none false file =
      writeEntries (withoutLast dir ((entriesOf file).filter Mntent.isKept)) := by
  unfold updateMtab readMntentchn
  rw [if_neg Bool.false_ne_true, toList_changeRing_none]

/-- Nothing is removed if there is no entry for the directory. -/
theorem withoutLast_eq_self_iff {dir : CStr} {es : List Mntent} :
    withoutLast dir es = es ↔ ∀ e ∈ es, e.dir ≠ dir := by
  constructor
  · intro h
    have hlen := length_eraseLast (·.dir = dir) es
    rw [← withoutLast, h] at hlen
    split at hlen
    · rename_i hany
      obtain ⟨e, he, -⟩ := List.any_eq_true.1 hany
      have hpos := List.length_pos_of_mem he
      omega
    · rename_i hany
      intro e he hdir
      exact hany (List.any_eq_true.2 ⟨e, he, decide_eq_true hdir⟩)
  · intro h
    exact eraseLast_of_forall fun e he ↦ decide_eq_false (h e he)

/-- No entry of the type `ignore` is lost: there is none, or it is the only one for the
directory. -/
def NoneIgnored (dir : CStr) (es : List Mntent) : Prop :=
  ∀ x ∈ es, x.isKept = false → x.dir = dir ∧ ∃ l r, es = l ++ x :: r ∧
    (∀ y ∈ l ++ r, y.isKept = true ∧ y.dir ≠ dir)

theorem withoutLast_append {dir : CStr} {x : Mntent} (hx : x.dir = dir) {l r : List Mntent}
    (hr : ∀ y ∈ r, y.dir ≠ dir) : withoutLast dir (l ++ x :: r) = l ++ r := by
  refine eraseLast_append ?_ ?_ l
  · exact decide_eq_true hx
  · exact fun y hy ↦ decide_eq_false (hr y hy)

/-- What is written is then what should be left. -/
theorem NoneIgnored.withoutLast_filter {dir : CStr} {es : List Mntent} (h : NoneIgnored dir es) :
    withoutLast dir (es.filter Mntent.isKept) = withoutLast dir es := by
  by_cases hall : ∀ e ∈ es, e.isKept = true
  · rw [List.filter_eq_self.2 hall]
  · push Not at hall
    obtain ⟨x, hx, hkept⟩ := hall
    have hkept : x.isKept = false := Bool.eq_false_iff.2 hkept
    obtain ⟨hdir, l, r, rfl, hrest⟩ := h x hx hkept
    have hkeep : (l ++ x :: r).filter Mntent.isKept = l ++ r := by
      rw [List.filter_append, List.filter_cons_of_neg (by rw [hkept]; exact Bool.false_ne_true),
        ← List.filter_append, List.filter_eq_self.2 fun y hy ↦ (hrest y hy).1]
    rw [hkeep, withoutLast_eq_self_iff.2 fun y hy ↦ (hrest y hy).2,
      withoutLast_append hdir fun y hy ↦ (hrest y (List.mem_append_right l hy)).2]

/-- If something is ignored, there are too few entries. -/
theorem noneIgnored_of_length_le {dir : CStr} {es : List Mntent}
    (h : (withoutLast dir es).length ≤ (withoutLast dir (es.filter Mntent.isKept)).length) :
    NoneIgnored dir es := by
  intro x hx hkept
  obtain ⟨l, r, rfl⟩ := List.append_of_mem hx
  have hfilter : (l ++ x :: r).filter Mntent.isKept = (l ++ r).filter Mntent.isKept := by
    rw [List.filter_append, List.filter_cons_of_neg (by rw [hkept]; exact Bool.false_ne_true),
      ← List.filter_append]
  have hle : ((l ++ r).filter Mntent.isKept).length ≤ (l ++ r).length := List.length_filter_le _ _
  rw [withoutLast, withoutLast, hfilter, length_eraseLast, length_eraseLast, List.length_append,
    List.length_cons] at h
  rw [List.length_append] at hle
  by_cases hany : (l ++ x :: r).any (·.dir = dir) = true
  · rw [if_pos hany] at h
    by_cases hkany : ((l ++ r).filter Mntent.isKept).any (·.dir = dir) = true
    · -- an entry for the directory is removed besides
      rw [if_pos hkany] at h
      obtain ⟨y, hy, -⟩ := List.any_eq_true.1 hkany
      have hpos := List.length_pos_of_mem hy
      omega
    · rw [if_neg hkany] at h
      have hall : ∀ y ∈ l ++ r, y.isKept = true :=
        List.length_filter_eq_length_iff.1 (by rw [List.length_append]; omega)
      have hother : ∀ y ∈ l ++ r, y.dir ≠ dir := by
        intro y hy hdir
        exact hkany (List.any_eq_true.2 ⟨y, List.mem_filter.2 ⟨hy, hall y hy⟩, decide_eq_true hdir⟩)
      refine ⟨?_, l, r, rfl, fun y hy ↦ ⟨hall y hy, hother y hy⟩⟩
      obtain ⟨y, hy, hdir⟩ := List.any_eq_true.1 hany
      have hdir : y.dir = dir := of_decide_eq_true hdir
      rcases List.mem_append.1 hy with hy | hy
      · exact absurd hdir (hother y (List.mem_append_left r hy))
      · rcases List.mem_cons.1 hy with rfl | hy
        · exact hdir
        · exact absurd hdir (hother y (List.mem_append_right l hy))
  · rw [if_neg hany] at h
    split at h <;> omega

/-- **When unmounting removes only its own entry.**  The new file yields the entries of the old one
less the last one for the directory exactly if: no entry of the type `ignore` is lost; and each of
the others survives, which means that its first four fields are not empty, that it does not look
like a comment, that its numbers are not negative and that its line fits the buffer.  If mtab is not
to be written, there must be no entry for the directory. -/
theorem del_mtab_iff (nomtab symlink : Bool) (dir : CStr) (file : List UInt8) :
    entriesOf (hsiDelMtab nomtab symlink dir file) = withoutLast dir (entriesOf file) ↔
      if nomtab || symlink then ∀ e ∈ entriesOf file, e.dir ≠ dir
      else NoneIgnored dir (entriesOf file) ∧ ∀ e ∈ withoutLast dir (entriesOf file),
        e.Survives := by
  unfold hsiDelMtab
  split
  · rw [eq_comm]
    exact withoutLast_eq_self_iff
  · rw [updateMtab_none]
    constructor
    · intro h
      have hlen := length_entriesFrom_le
        (withoutLast dir ((entriesOf file).filter Mntent.isKept)) 0
      have hignored : NoneIgnored dir (entriesOf file) := by
        refine noneIgnored_of_length_le ?_
        rw [← h]
        exact hlen
      rw [hignored.withoutLast_filter, entriesOf_writeEntries_iff] at h
      exact ⟨hignored, h⟩
    · rintro ⟨hignored, hsurvive⟩
      rw [hignored.withoutLast_filter, entriesOf_writeEntries_iff]
      exact hsurvive

example : hsiDelMtab false false ⟨nameOf "/a b", by decide⟩
    (nameOf "s:/x /a\\040b nfs rw 0 0\ns:/y /c nfs rw,bg 1 2\n") =
      nameOf "s:/y /c nfs rw,bg 1 2\n" := by
  decide

/-- A file whose lines all fit the buffer, and are blank, comments or good. -/
def WellFormed (file : List UInt8) : Prop :=
  ∀ line ∈ file.splitOn 10, 0 ∉ line ∧ line.length + 1 < bufSize ∧ readText (chomp line) ≠ .bad

instance (file : List UInt8) : Decidable (WellFormed file) :=
  inferInstanceAs (Decidable (∀ _ ∈ _, _))

/-- Other entries are changed: a line without options, as `proc /proc proc`, has the options `0`
afterwards. -/
theorem not_del_mtab : ¬ ∀ (dir : CStr) (file : List UInt8), WellFormed file →
    entriesOf (hsiDelMtab false false dir file) = withoutLast dir (entriesOf file) := by
  intro hall
  have h := hall ⟨nameOf "/mnt", by decide⟩ (nameOf "proc /proc proc\n") (by decide)
  revert h
  decide

end Hsfs.Mtab
