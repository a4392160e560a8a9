import Mathlib.Data.List.Basic
import Mathlib.Data.List.Infix

/-!
# Lists that are read in pieces

A list is read in pieces by a reader that remembers nothing but the key of the last element it has
seen.  `after key start l c` is what is left of the list `l` behind the element with key `c`, and
the whole list for the key `start`, which no element has.  If no two elements have the same key, a
reader that has seen a piece of what was left goes on with the rest (`after_getLast`).
-/

namespace Hsfs.Pages

variable {ε κ : Type} [DecidableEq κ] {key : ε → κ} {start : κ} {l : List ε}

/-- What is left of a list behind the element with some key. -/
def after (key : ε → κ) (start : κ) (l : List ε) (c : κ) : List ε :=
  if c = start then l else (l.dropWhile fun e ↦ key e ≠ c).tail

theorem after_start : after key start l start = l := if_pos rfl

/-- What is left is at the end of the list. -/
theorem after_suffix (key : ε → κ) (start : κ) (l : List ε) (c : κ) :
    after key start l c <:+ l := by
  unfold after
  split
  · exact List.suffix_refl l
  · exact (List.tail_suffix _).trans (List.dropWhile_suffix _)

/-- Behind an element, the elements after it are left. -/
theorem after_of_split {front rest : List ε} {e : ε} (hkeys : (l.map key).Nodup)
    (hstart : key e ≠ start) (h : l = front ++ e :: rest) : after key start l (key e) = rest := by
  subst h
  rw [after, if_neg hstart]
  rw [List.map_append, List.map_cons, List.nodup_append] at hkeys
  have hfront : ∀ a ∈ front, key a ≠ key e := fun a ha ↦
    hkeys.2.2 (key a) (List.mem_map_of_mem ha) (key e) List.mem_cons_self
  clear hkeys
  induction front with
  | nil => simp
  | cons a front ih =>
      have ha : key a ≠ key e := hfront a List.mem_cons_self
      rw [List.cons_append, List.dropWhile_cons, if_pos (decide_eq_true ha)]
      exact ih fun b hb ↦ hfront b (List.mem_cons_of_mem a hb)

/-- **A reader that has seen a piece of what was left goes on with the rest.** -/
theorem after_getLast {c : κ} {piece rest : List ε} (hkeys : (l.map key).Nodup)
    (hstart : ∀ e ∈ l, key e ≠ start) (h : after key start l c = piece ++ rest) (hne : piece ≠ []) :
    after key start l (key (piece.getLast hne)) = rest := by
  obtain ⟨front, hfront⟩ := after_suffix key start l c
  have hsplit : l = (front ++ piece.dropLast) ++ piece.getLast hne :: rest := by
    calc
      l = front ++ (piece ++ rest) := by rw [← h, hfront]
      _ = front ++ ((piece.dropLast ++ [piece.getLast hne]) ++ rest) := by
        rw [List.dropLast_append_getLast hne]
      _ = (front ++ piece.dropLast) ++ piece.getLast hne :: rest := by simp
  refine after_of_split hkeys (hstart _ ?_) hsplit
  rw [hsplit]
  exact List.mem_append_right _ List.mem_cons_self

end Hsfs.Pages
