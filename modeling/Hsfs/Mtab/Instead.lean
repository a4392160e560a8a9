import Hsfs.Mtab.Update

/-!
# Putting an entry into mtab

With an entry to put in, `update_mtab` changes the options of the last entry for its directory.  If
there is none, the new entry should stand behind the others.

The entry is made then, and linked backwards, but nothing leads forward to it unless the ring was
empty.  As the ring is written going forward, it is lost (`instead_written_iff`).
-/

namespace Hsfs.Mtab

open LinkRing (modifyLast modifyLast_append Path)

/-! ## What should be written, and what is -/

/-- The ring that `read_mntentchn` makes of the entries it reads, with what `ferror` says at the
end. -/
def readRing (ferror : Bool) (es : List Mntent) : LinkRing Mntent :=
  if ferror then ((LinkRing.ofList es).setNxt .head none).setPrev .head none else LinkRing.ofList es

theorem readMntentchn_eq (ferror : Bool) (file : List UInt8) :
    readMntentchn ferror file = readRing ferror ((entriesOf file).filter Mntent.isKept) := rfl

/-- The entries that are in the ring: none if there was an error. -/
def entriesRead (ferror : Bool) (es : List Mntent) : List Mntent := if ferror then [] else es

/-- An entry with other options. -/
def Mntent.withOpts (instead e : Mntent) : Mntent := { e with opts := instead.opts }

/-- The entries with other options for a directory. -/
def remounted (dir : CStr) (instead : Mntent) (es : List Mntent) : List Mntent :=
  modifyLast (·.dir = dir) instead.withOpts es

/-- The entries that should be there afterwards. -/
def withInstead (dir : CStr) (instead : Mntent) (es : List Mntent) : List Mntent :=
  if ∃ e ∈ es, e.dir = dir then remounted dir instead es else es ++ [instead]

/-- The entries that are there afterwards. -/
def written (dir : CStr) (instead : Mntent) (es : List Mntent) : List Mntent :=
  if ∃ e ∈ es, e.dir = dir then remounted dir instead es else if es = [] then [instead] else es

/-! ## The new entry -/

section Absent

variable (instead : Mntent) (r : LinkRing Mntent)

/-- The ring with the new cell, before it is linked to the head. -/
def linkedBack : LinkRing Mntent :=
  let mc0 := { r with val := Function.update r.val r.size instead, size := r.size + 1 }
  ((mc0.setNxt (.cell r.size) (some .head)).setPrev (.cell r.size) (r.prev .head)).setPrev .head
    (some (.cell r.size))

theorem nxt_linkedBack (p : RingPtr) :
    (linkedBack instead r).nxt p = if p = .cell r.size then some .head else r.nxt p := by
  unfold linkedBack
  dsimp only
  rw [LinkRing.nxt_setPrev, LinkRing.nxt_setPrev, LinkRing.nxt_setNxt]
  rfl

theorem addAbsent_eq : addAbsent instead r =
    if r.nxt .head = none then (linkedBack instead r).setNxt .head (some (.cell r.size))
    else linkedBack instead r := by
  refine if_congr ?_ rfl rfl
  change (linkedBack instead r).nxt .head = none ↔ _
  rw [nxt_linkedBack, if_neg (by rintro ⟨⟩)]

theorem val_addAbsent : (addAbsent instead r).val = Function.update r.val r.size instead := by
  rw [addAbsent_eq]
  split <;> rfl

theorem size_addAbsent : (addAbsent instead r).size = r.size + 1 := by
  rw [addAbsent_eq]
  split <;> rfl

variable {r}

/-- In an empty ring, the new entry is found. -/
theorem holds_addAbsent_of_none (h : r.nxt .head = none) :
    (addAbsent instead r).Holds [instead] := by
  refine ⟨[r.size], .inl ?_, ?_⟩
  · rw [addAbsent_eq, if_pos h, LinkRing.nxt_setNxt, if_pos rfl]
    refine ⟨rfl, ?_⟩
    change ((linkedBack instead r).setNxt _ _).nxt (.cell r.size) = some .head
    rw [LinkRing.nxt_setNxt, if_neg (by rintro ⟨⟩), nxt_linkedBack, if_pos rfl]
  · rw [val_addAbsent, List.map_singleton, Function.update_self]

/-- In another ring, it is not: the way leads past it. -/
theorem holds_addAbsent_of_path {is : List Nat} (hlt : ∀ i ∈ is, i < r.size)
    (h : Path r.nxt (r.nxt .head) is (some .head)) (hhead : r.nxt .head ≠ none) :
    (addAbsent instead r).Holds (is.map r.val) := by
  have hcell : ∀ i ∈ is, RingPtr.cell i ≠ .cell r.size := by
    intro i hi heq
    exact Nat.ne_of_lt (hlt i hi) (RingPtr.cell.inj heq)
  refine ⟨is, .inl ?_, ?_⟩
  · rw [addAbsent_eq, if_neg hhead, nxt_linkedBack, if_neg (by rintro ⟨⟩)]
    refine h.congr fun i hi ↦ ?_
    rw [nxt_linkedBack, if_neg (hcell i hi)]
  · rw [val_addAbsent]
    exact List.map_congr_left fun i hi ↦ Function.update_of_ne (Nat.ne_of_lt (hlt i hi)) ..

end Absent

/-! ## The ring as it is written -/

section Change

variable {r : LinkRing Mntent} {dir : CStr}

theorem changeRing_of_none (h : r.findLast (·.dir = dir) = none) (instead : Mntent) :
    changeRing dir (some instead) r = addAbsent instead r := by
  unfold changeRing
  rw [h]

theorem changeRing_of_some {mc : Nat} (h : r.findLast (·.dir = dir) = some mc) (instead : Mntent) :
    changeRing dir (some instead) r =
      { r with val := Function.update r.val mc (instead.withOpts (r.val mc)) } := by
  unfold changeRing
  rw [h]
  rfl

/-- The last entry for the directory gets the new options. -/
theorem holds_remounted {is : List Nat} (h : r.Linked is) {mc : Nat}
    (hfind : r.findLast (·.dir = dir) = some mc) (instead : Mntent) :
    (changeRing dir (some instead) r).Holds (remounted dir instead (is.map r.val)) := by
  obtain ⟨as, bs, rfl, hmc, hbs⟩ := h.of_findLast_some hfind
  rw [changeRing_of_some hfind]
  refine ⟨as ++ mc :: bs, h.path, ?_⟩
  have hvals : (as ++ mc :: bs).map r.val = as.map r.val ++ r.val mc :: bs.map r.val := by
    rw [List.map_append, List.map_cons]
  have hmodify : modifyLast (·.dir = dir) instead.withOpts
      (as.map r.val ++ r.val mc :: bs.map r.val) =
      as.map r.val ++ instead.withOpts (r.val mc) :: bs.map r.val := by
    refine modifyLast_append ?_ ?_ _ _
    · exact hmc
    · exact List.forall_mem_map.2 hbs
  rw [remounted, hvals, hmodify]
  exact LinkRing.map_update_cell h.nodup r.val (instead.withOpts (r.val mc))

end Change

theorem length_remounted (dir : CStr) (instead : Mntent) (es : List Mntent) :
    (remounted dir instead es).length = es.length := LinkRing.length_modifyLast _ _ es

/-- **What going through the changed ring comes to**, in not more rounds than it has cells. -/
theorem holds_changeRing (dir : CStr) (instead : Mntent) (ferror : Bool) (es : List Mntent) :
    let r := changeRing dir (some instead) (readRing ferror es)
    r.Holds (written dir instead (entriesRead ferror es)) ∧
      (written dir instead (entriesRead ferror es)).length ≤ r.size := by
  intro r
  cases ferror with
  | true =>
      have hprev : (readRing true es).prev .head = none := by
        change (LinkRing.setPrev .head none _).prev .head = none
        rw [LinkRing.prev_setPrev, if_pos rfl]
      have hnxt : (readRing true es).nxt .head = none := by
        change (LinkRing.setPrev .head none _).nxt .head = none
        rw [LinkRing.nxt_setPrev, LinkRing.nxt_setNxt, if_pos rfl]
      have hr : r = addAbsent instead (readRing true es) :=
        changeRing_of_none (LinkRing.findLast_of_prev_none hprev _) instead
      rw [hr, size_addAbsent]
      exact ⟨holds_addAbsent_of_none instead hnxt, Nat.le_add_left 1 _⟩
  | false =>
      change r.Holds (written dir instead es) ∧ (written dir instead es).length ≤ r.size
      obtain ⟨is, hlinked, hvals⟩ := LinkRing.linked_ofList es
      have hlength : es.length ≤ (LinkRing.ofList es).size := by
        have hle := hlinked.length_le
        rwa [← hvals, List.length_map, hvals]
      cases hfind : (LinkRing.ofList es).findLast (·.dir = dir) with
      | none =>
          have hnone : ¬ ∃ e ∈ es, e.dir = dir := by
            rintro ⟨e, he, hdir⟩
            rw [← hvals] at he
            obtain ⟨i, hi, rfl⟩ := List.mem_map.1 he
            exact of_decide_eq_false (hlinked.of_findLast_none hfind i hi) hdir
          have hr : r = addAbsent instead (LinkRing.ofList es) := changeRing_of_none hfind instead
          rw [hr, size_addAbsent, written, if_neg hnone]
          split
          · next hnil =>
              subst hnil
              exact ⟨holds_addAbsent_of_none instead rfl, Nat.le_add_left 1 _⟩
          · next hne =>
              have his : is ≠ [] := by
                rintro rfl
                exact hne hvals.symm
              have hpath := hlinked.fwd.resolve_right fun h ↦ his h.1
              have hhead : (LinkRing.ofList es).nxt .head ≠ none := by
                rw [hpath.start_eq]
                exact Option.some_ne_none _
              have hholds := holds_addAbsent_of_path instead hlinked.lt_size hpath hhead
              rw [hvals] at hholds
              exact ⟨hholds, Nat.le_succ_of_le hlength⟩
      | some mc =>
          have hsome : ∃ e ∈ es, e.dir = dir := by
            obtain ⟨as, bs, his, hmc, -⟩ := hlinked.of_findLast_some hfind
            have hmem : mc ∈ is := his ▸ List.mem_append_right _ List.mem_cons_self
            have hval := List.mem_map_of_mem (f := (LinkRing.ofList es).val) hmem
            rw [hvals] at hval
            exact ⟨_, hval, of_decide_eq_true hmc⟩
          have hholds := holds_remounted hlinked hfind instead
          have hr : r.size = (LinkRing.ofList es).size := by
            change (changeRing dir (some instead) (LinkRing.ofList es)).size = _
            rw [changeRing_of_some hfind]
          rw [hvals] at hholds
          rw [written, if_pos hsome, length_remounted, hr]
          exact ⟨hholds, hlength⟩

/-- **What `update_mtab` writes** when there is an entry to put in. -/
theorem updateMtab_some (dir : CStr) (instead : Mntent) (ferror : Bool) (file : List UInt8) :
    updateMtab dir (some instead) ferror file = writeEntries
      (written dir instead (entriesRead ferror ((entriesOf file).filter Mntent.isKept))) := by
  rw [updateMtab, readMntentchn_eq]
  obtain ⟨hholds, hlength⟩ :=
    holds_changeRing dir instead ferror ((entriesOf file).filter Mntent.isKept)
  exact congrArg writeEntries (hholds.toList_eq hlength)

/-- **When the new entry is written.**  For every list of entries, with an error at its end or
without one: going forward through the ring comes to an end and finds the entries that should be
there, if and only if there were no entries or one of them is for the directory. -/
theorem instead_written_iff (dir : CStr) (instead : Mntent) (ferror : Bool) (es : List Mntent) :
    (changeRing dir (some instead) (readRing ferror es)).Holds
        (withInstead dir instead (entriesRead ferror es)) ↔
      entriesRead ferror es = [] ∨ ∃ e ∈ entriesRead ferror es, e.dir = dir := by
  have hholds := (holds_changeRing dir instead ferror es).1
  generalize entriesRead ferror es = es at hholds ⊢
  constructor
  · intro h
    have heq := hholds.eq h
    by_contra hnot
    rw [not_or] at hnot
    rw [written, withInstead, if_neg hnot.2, if_neg hnot.2, if_neg hnot.1] at heq
    have hlength := congrArg List.length heq
    rw [List.length_append] at hlength
    exact Nat.ne_add_one _ hlength
  · intro h
    have heq : written dir instead es = withInstead dir instead es := by
      by_cases hany : ∃ e ∈ es, e.dir = dir
      · rw [written, withInstead, if_pos hany, if_pos hany]
      · obtain rfl := h.resolve_right hany
        rw [written, withInstead, if_neg hany, if_neg hany, if_pos rfl]
        rfl
    rwa [← heq]

/-- An entry for another directory. -/
def sampleEntry : Mntent where
  fsname := ⟨nameOf "s:/x", by decide⟩
  dir := ⟨nameOf "/x", by decide⟩
  type := ⟨nameOf "nfs", by decide⟩
  opts := ⟨nameOf "rw", by decide⟩
  freq := 0
  passno := 0

/-- The new entry is lost behind another one. -/
theorem not_instead_written :
    ¬ ∀ (dir : CStr) (instead : Mntent) (ferror : Bool) (es : List Mntent),
      (changeRing dir (some instead) (readRing ferror es)).Holds
        (withInstead dir instead (entriesRead ferror es)) := by
  intro h
  have heq := (holds_changeRing ⟨nameOf "/y", by decide⟩ sampleEntry false [sampleEntry]).1.eq
    (h _ _ _ _)
  exact absurd (congrArg List.length heq) (by decide)

end Hsfs.Mtab
