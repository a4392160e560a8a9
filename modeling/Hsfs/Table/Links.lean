import Mathlib.Logic.Function.Basic

/-!
# Names for files

A directory gives names to files, and a file may have several names (`link`).  Files are numbered in
the order in which they were made, and a number that a name stands for has been given to a file,
which is part of the structure: a new file is none of the others.
-/

namespace Hsfs

/-- A directory with hard links. -/
structure Links (N : Type) where
  /-- The file that a name stands for. -/
  file : N → Option Nat
  /-- What the files hold. -/
  bytes : Nat → List UInt8
  /-- The number of the next new file. -/
  next : Nat
  /-- No name stands for a file that is not made yet. -/
  lt_next : ∀ {n i}, file n = some i → i < next

namespace Links

variable {N : Type} [DecidableEq N] (d : Links N) {n m : N} {i : Nat} {bs : List UInt8}

/-- The file of a name, with its contents. -/
def look (n : N) : Option (Nat × List UInt8) := (d.file n).map fun i ↦ (i, d.bytes i)

/-- Change the contents of a file. -/
def modify (i : Nat) (f : List UInt8 → List UInt8) : Links N :=
  { d with bytes := Function.update d.bytes i (f (d.bytes i)) }

/-- From now on the name stands for this file, or for none. -/
def point (n : N) (v : Option Nat) (hv : ∀ i ∈ v, i < d.next) : Links N where
  file := Function.update d.file n v
  bytes := d.bytes
  next := d.next
  lt_next := by
    intro m i hm
    by_cases hmn : m = n
    · subst hmn
      rw [Function.update_self] at hm
      exact hv i hm
    · rw [Function.update_of_ne hmn] at hm
      exact d.lt_next hm

/-- Make a file without contents. -/
def grow : Links N where
  file := d.file
  bytes := Function.update d.bytes d.next []
  next := d.next + 1
  lt_next := fun h ↦ Nat.lt_succ_of_lt (d.lt_next h)

/-- `unlink`. -/
def unlink (n : N) : Links N := d.point n none fun _ h ↦ absurd h (Option.not_mem_none _)

/-- `open` with `O_CREAT`. -/
def create (n : N) : Nat × Links N :=
  match d.file n with
  | some i => (i, d)
  | none =>
      (d.next, d.grow.point n (some d.next) fun _ h ↦ Option.mem_some.1 h ▸ d.next.lt_succ_self)

/-- `link`: a new name `m` for the file of `n`, if `m` is not in use. -/
def link (n m : N) : Option (Links N) :=
  if (d.file n).isSome ∧ d.file m = none then some (d.point m (d.file n) fun _ h ↦ d.lt_next h)
  else none

/-- `rename`, which does nothing to two names of one file. -/
def rename (n m : N) : Option (Links N) :=
  if d.file n = none then none
  else if d.file m = d.file n then some d
  else some ((d.point m (d.file n) fun _ h ↦ d.lt_next h).unlink n)

variable {d} {d' : Links N} {v : Option Nat} {hv : ∀ i ∈ v, i < d.next}

/-! ## What a name stands for afterwards -/

theorem file_point (n m : N) : (d.point n v hv).file m = if m = n then v else d.file m :=
  Function.update_apply _ _ _ _

theorem file_unlink_self : (d.unlink n).file n = none :=
  (file_point n n).trans (if_pos rfl)

theorem file_unlink_of_ne (h : m ≠ n) : (d.unlink n).file m = d.file m :=
  (file_point n m).trans (if_neg h)

theorem look_point_of_ne (h : m ≠ n) : (d.point n v hv).look m = d.look m := by
  rw [look, look, file_point, if_neg h]
  rfl

theorem look_unlink_of_ne (h : m ≠ n) : (d.unlink n).look m = d.look m :=
  look_point_of_ne h

omit [DecidableEq N] in
theorem look_grow (n : N) : d.grow.look n = d.look n := by
  refine Option.map_congr fun i hi ↦ ?_
  -- an old file is not the new one
  have hne : i ≠ d.next := Nat.ne_of_lt (d.lt_next hi)
  exact congrArg (i, ·) (Function.update_of_ne hne _ _)

theorem look_create_of_ne (h : m ≠ n) : (d.create n).2.look m = d.look m := by
  unfold create
  split
  · rfl
  · rw [look_point_of_ne h, look_grow]

omit [DecidableEq N] in
theorem file_eq_of_look (h : d.look n = some (i, bs)) : d.file n = some i := by
  obtain ⟨j, hj, hx⟩ := Option.map_eq_some_iff.1 h
  exact hj.trans (congrArg some (Prod.mk.inj hx).1)

omit [DecidableEq N] in
theorem bytes_of_look (h : d.look n = some (i, bs)) : d.bytes i = bs := by
  obtain ⟨j, hj, hx⟩ := Option.map_eq_some_iff.1 h
  obtain ⟨rfl, rfl⟩ := Prod.mk.inj hx
  rfl

theorem create_of_file (h : d.file n = some i) : d.create n = (i, d) := by
  rw [create, h]

/-- After `create` the name stands for the file that is returned. -/
theorem file_create_self : (d.create n).2.file n = some (d.create n).1 := by
  unfold create
  split
  · assumption
  · rw [file_point, if_pos rfl]

theorem file_create_of_ne (h : m ≠ n) : (d.create n).2.file m = d.file m := by
  unfold create
  split
  · rfl
  · rw [file_point, if_neg h]
    rfl

/-- The file that is returned is not that of another name, if that was no name of the same file. -/
theorem create_ne (hne : ∀ i, d.file n = some i → d.file m ≠ some i) :
    d.file m ≠ some (d.create n).1 := by
  unfold create
  split
  · rename_i i hi
    exact hne i hi
  · intro hm
    exact Nat.lt_irrefl _ (d.lt_next hm)

theorem link_eq_some (h : d.link n m = some d') :
    d.file m = none ∧ d'.file m ≠ none ∧ ∀ k, k ≠ m → d'.look k = d.look k := by
  unfold link at h
  split at h
  · rename_i hif
    obtain ⟨hn, hm⟩ := hif
    obtain rfl := Option.some.inj h
    refine ⟨hm, ?_, fun k hk ↦ look_point_of_ne hk⟩
    rw [file_point, if_pos rfl]
    exact Option.isSome_iff_ne_none.1 hn
  · cases h

theorem file_link_of_ne (h : d.link n m = some d') {k : N} (hk : k ≠ m) : d'.file k = d.file k := by
  unfold link at h
  split at h
  · obtain rfl := Option.some.inj h
    rw [file_point, if_neg hk]
  · cases h

/-- `rename` of a name of another file: the new name stands for it, with its contents. -/
theorem look_rename (h : d.rename n m = some d') (hnm : n ≠ m) {x : Nat × List UInt8}
    (hn : d.look n = some x) (hne : d.file m ≠ some x.1) :
    d'.look m = some x ∧ d'.look n = none ∧ ∀ k, k ≠ n → k ≠ m → d'.look k = d.look k := by
  have hfile : d.file n = some x.1 := file_eq_of_look hn
  rw [rename, if_neg (hfile ▸ Option.some_ne_none _), if_neg (hfile ▸ hne)] at h
  obtain rfl := Option.some.inj h
  refine ⟨?_, ?_, fun k hkn hkm ↦ ?_⟩
  · rw [look_unlink_of_ne hnm.symm, look, file_point, if_pos rfl]
    exact hn
  · rw [look, file_unlink_self]
    rfl
  · rw [look_unlink_of_ne hkn, look_point_of_ne hkm]

theorem exists_rename {x : Nat × List UInt8} (hn : d.look n = some x) :
    ∃ d', d.rename n m = some d' := by
  have hfile : d.file n ≠ none := by
    rw [file_eq_of_look hn]
    exact Option.some_ne_none _
  unfold rename
  rw [if_neg hfile]
  split
  · exact ⟨d, rfl⟩
  · exact ⟨_, rfl⟩

theorem file_rename_of_ne (h : d.rename n m = some d') {k : N} (hkn : k ≠ n) (hkm : k ≠ m) :
    d'.file k = d.file k := by
  unfold rename at h
  split at h
  · cases h
  · split at h
    · exact Option.some.inj h ▸ rfl
    · obtain rfl := Option.some.inj h
      rw [file_unlink_of_ne hkn, file_point, if_neg hkm]

omit [DecidableEq N] in
theorem look_modify (f : List UInt8 → List UInt8) (h : d.look n = some (i, bs)) :
    (d.modify i f).look n = some (i, f bs) := by
  obtain ⟨j, hj, hx⟩ := Option.map_eq_some_iff.1 h
  obtain ⟨rfl, rfl⟩ := Prod.mk.inj hx
  rw [look, show (d.modify j f).file n = some j from hj, Option.map_some]
  exact congrArg (fun x ↦ some (j, x)) (Function.update_self _ _ _)

omit [DecidableEq N] in
theorem look_modify_of_ne (f : List UInt8 → List UInt8) (h : d.file n ≠ some i) :
    (d.modify i f).look n = d.look n := by
  refine Option.map_congr fun j hj ↦ ?_
  have hne : j ≠ i := fun hji ↦ h (hji ▸ hj)
  exact congrArg (j, ·) (Function.update_of_ne hne _ _)

end Links

end Hsfs
