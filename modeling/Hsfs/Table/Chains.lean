import Mathlib.Data.List.Nodup
import Mathlib.Data.Fin.Basic

/-!
# Chained hash tables

A table is an array of chains.  An element is added at the head of the chain its
key selects and is looked for by walking one chain and testing each element on
it.  The table itself knows nothing about keys: which chain an element belongs to
is a function `h` that the user supplies, and `Placed h t` is the invariant that
every element is on the chain `h` gives it, once.

The point of the invariant is `Placed.find_eq_none_iff`: a walk of *one* chain
decides membership in the *whole* table, as long as the test can only succeed on
elements that belong on that chain.
-/

namespace Hsfs.Table

/-- An array of `n` chains. -/
def Chains (n : Nat) (α : Type) : Type := Fin n → List α

namespace Chains

variable {n : Nat} {α : Type}

/-- The table with `n` empty chains. -/
def empty : Chains n α := fun _ ↦ []

/-- Put `a` at the head of chain `i`. -/
def add (t : Chains n α) (i : Fin n) (a : α) : Chains n α :=
  fun j ↦ if j = i then a :: t j else t j

/-- Walk chain `i` up to the first element that passes the test. -/
def find (t : Chains n α) (i : Fin n) (p : α → Bool) : Option α := (t i).find? p

instance instMembership : Membership α (Chains n α) := ⟨fun t a ↦ ∃ i, a ∈ t i⟩

instance instDecidableMem [DecidableEq α] (a : α) (t : Chains n α) : Decidable (a ∈ t) :=
  decidable_of_iff ((List.finRange n).any (fun i ↦ decide (a ∈ t i)) = true) <| by
    rw [List.any_eq_true]
    exact ⟨fun ⟨i, _, h⟩ ↦ ⟨i, of_decide_eq_true h⟩,
      fun ⟨i, h⟩ ↦ ⟨i, List.mem_finRange i, decide_eq_true h⟩⟩

instance instDecidableBallMem (t : Chains n α) (P : α → Prop) [DecidablePred P] :
    Decidable (∀ a ∈ t, P a) :=
  decidable_of_iff ((List.finRange n).all (fun i ↦ (t i).all fun a ↦ decide (P a)) = true) <| by
    simp only [List.all_eq_true, List.mem_finRange, forall_const, decide_eq_true_eq]
    exact ⟨fun h a ⟨i, ha⟩ ↦ h i a ha, fun h i a ha ↦ h a ⟨i, ha⟩⟩

@[simp] theorem notMem_empty (a : α) : a ∉ (empty : Chains n α) := by
  rintro ⟨i, h⟩
  exact List.not_mem_nil h

@[simp] theorem mem_add {t : Chains n α} {i : Fin n} {a b : α} :
    a ∈ t.add i b ↔ a = b ∨ a ∈ t := by
  constructor
  · rintro ⟨j, h⟩
    by_cases hj : j = i
    · rw [add, if_pos hj, List.mem_cons] at h
      exact h.imp_right fun h ↦ ⟨j, h⟩
    · rw [add, if_neg hj] at h
      exact .inr ⟨j, h⟩
  · rintro (rfl | ⟨j, h⟩)
    · exact ⟨i, by simp [add]⟩
    · refine ⟨j, ?_⟩
      by_cases hj : j = i
      · rw [add, if_pos hj]; exact List.mem_cons_of_mem _ h
      · rw [add, if_neg hj]; exact h

/-- What a walk finds is in the table and passes the test. -/
theorem find_eq_some {t : Chains n α} {i : Fin n} {p : α → Bool} {a : α}
    (h : t.find i p = some a) : a ∈ t ∧ p a = true :=
  ⟨⟨i, List.mem_of_find?_eq_some h⟩, List.find?_some h⟩

/-! ## Placement -/

/-- Every element is on the chain `h` gives it, and no chain repeats one. -/
structure Placed (h : α → Fin n) (t : Chains n α) : Prop where
  /-- An element of a chain belongs on it. -/
  bucket : ∀ i, ∀ a ∈ t i, h a = i
  /-- A chain holds each of its elements once. -/
  nodup : ∀ i, (t i).Nodup

namespace Placed

variable {h h' : α → Fin n} {t : Chains n α}

theorem empty : Placed h (Chains.empty : Chains n α) :=
  ⟨fun _ _ ha ↦ absurd ha List.not_mem_nil, fun _ ↦ List.nodup_nil⟩

/-- Placement only depends on where the elements of the table belong. -/
theorem congr (ht : Placed h t) (heq : ∀ a ∈ t, h a = h' a) : Placed h' t :=
  ⟨fun i a ha ↦ (heq a ⟨i, ha⟩).symm.trans (ht.bucket i a ha), ht.nodup⟩

/-- Adding a new element to its own chain keeps the placement. -/
theorem add (ht : Placed h t) {a : α} (ha : a ∉ t) : Placed h (t.add (h a) a) := by
  constructor
  · intro i b hb
    by_cases hi : i = h a
    · rw [Chains.add, if_pos hi, List.mem_cons] at hb
      rcases hb with rfl | hb
      · exact hi.symm
      · exact ht.bucket i b hb
    · rw [Chains.add, if_neg hi] at hb
      exact ht.bucket i b hb
  · intro i
    by_cases hi : i = h a
    · rw [Chains.add, if_pos hi, List.nodup_cons]
      exact ⟨fun hm ↦ ha ⟨i, hm⟩, ht.nodup i⟩
    · rw [Chains.add, if_neg hi]
      exact ht.nodup i

/-- An element of the table is on its own chain. -/
theorem mem_own (ht : Placed h t) {a : α} (ha : a ∈ t) : a ∈ t (h a) := by
  obtain ⟨i, hi⟩ := ha
  exact (ht.bucket i a hi) ▸ hi

/-- An element of the table occurs once, on its own chain, and nowhere else. -/
theorem count_eq [DecidableEq α] (ht : Placed h t) {a : α} (ha : a ∈ t) (i : Fin n) :
    (t i).count a = if i = h a then 1 else 0 := by
  by_cases hi : i = h a
  · rw [if_pos hi, hi]
    exact List.count_eq_one_of_mem (ht.nodup _) (ht.mem_own ha)
  · rw [if_neg hi]
    exact List.count_eq_zero_of_not_mem fun hm ↦ hi (ht.bucket i a hm).symm

/-- **One chain decides the whole table.** -/
theorem find_eq_none_iff (ht : Placed h t) {i : Fin n} {p : α → Bool}
    (hp : ∀ a ∈ t, p a = true → h a = i) :
    t.find i p = none ↔ ∀ a ∈ t, p a = false := by
  rw [find, List.find?_eq_none]
  constructor
  · intro hn a ha
    by_contra hpa
    rw [Bool.not_eq_false] at hpa
    have hi := hp a ha hpa
    exact hn a (hi ▸ ht.mem_own ha) hpa
  · intro hn a ha hpa
    rw [hn a ⟨i, ha⟩] at hpa
    exact absurd hpa Bool.false_ne_true

end Placed

end Chains

end Hsfs.Table
