import Mathlib.Algebra.Group.Nat.Even
import Mathlib.Data.List.Basic

/-!
# Texts with separators and quotes

A text over any alphabet is cut into pieces at the separators that stand outside of quotes.  A quote
opens or closes; it stays part of the text.

A text that is put together from two with a separator between them is cut there
(`pieces_append_sep`), if the quotes of the first are closed.  What can be put together and cut
again are therefore the texts that are `Whole`.
-/

namespace Hsfs.Text

variable {α : Type} [DecidableEq α] (sep quote : α)

/-- Whether a quote is open after a text, if one is open before it or not. -/
def quotedAfter (quoted : Bool) (text : List α) : Bool :=
  text.foldl (fun quoted c ↦ quoted ^^ c == quote) quoted

@[simp] theorem quotedAfter_nil (quoted : Bool) : quotedAfter quote quoted [] = quoted := rfl

@[simp] theorem quotedAfter_cons (quoted : Bool) (c : α) (text : List α) :
    quotedAfter quote quoted (c :: text) = quotedAfter quote (quoted ^^ c == quote) text := rfl

theorem quotedAfter_append (quoted : Bool) (text text' : List α) :
    quotedAfter quote quoted (text ++ text') =
      quotedAfter quote (quotedAfter quote quoted text) text' := List.foldl_append

/-- A quote is open after an odd number of quotes. -/
theorem quotedAfter_eq_false_iff (text : List α) :
    quotedAfter quote false text = false ↔ Even (text.count quote) := by
  have hgen : ∀ quoted,
    quotedAfter quote quoted text = (quoted ^^ decide (¬ Even (text.count quote))) := by
    induction text with
    | nil => simp
    | cons c text ih =>
        intro quoted
        rw [quotedAfter_cons, ih, List.count_cons]
        by_cases hc : c = quote
        · simp only [hc, beq_self_eq_true, if_true, Nat.even_add_one, decide_not, Bool.not_not]
          cases quoted <;> simp
        · have hne : (c == quote) = false := beq_eq_false_iff_ne.2 hc
          rw [hne, Bool.xor_false, if_neg Bool.false_ne_true, Nat.add_zero]
  rw [hgen, Bool.false_xor, decide_eq_false_iff_not, not_not]

/-- Cut a text at the separators outside of quotes.  There is always at least one piece. -/
def pieces (quoted : Bool) : List α → List (List α)
  | [] => [[]]
  | c :: text =>
      let quoted := quoted ^^ c == quote
      if quoted = false ∧ c = sep then [] :: pieces quoted text
      else (pieces quoted text).modifyHead (c :: ·)

/-- There is a first piece. -/
theorem exists_pieces_eq (quoted : Bool) (text : List α) :
    ∃ w ws, pieces sep quote quoted text = w :: ws := by
  induction text generalizing quoted with
  | nil => exact ⟨[], [], rfl⟩
  | cons c text ih =>
      rw [pieces]
      split
      · exact ⟨[], _, rfl⟩
      · obtain ⟨w, ws, hw⟩ := ih (quoted ^^ c == quote)
        rw [hw]
        exact ⟨c :: w, ws, rfl⟩

variable {sep quote} {quoted : Bool}

/-- **A text behind a separator is cut for itself.** -/
theorem pieces_append_sep (hsep : sep ≠ quote) {text : List α}
    (h : quotedAfter quote quoted text = false)
    (text' : List α) : pieces sep quote quoted (text ++ sep :: text') =
      pieces sep quote quoted text ++ pieces sep quote false text' := by
  have hcut : pieces sep quote false (sep :: text') = [] :: pieces sep quote false text' := by
    have hsame : (false ^^ sep == quote) = false := by simp [hsep]
    rw [pieces, hsame, if_pos ⟨rfl, rfl⟩]
  induction text generalizing quoted with
  | nil =>
      obtain rfl : quoted = false := h
      exact hcut
  | cons c text ih =>
      rw [List.cons_append, pieces, pieces]
      rw [quotedAfter_cons] at h
      rw [ih h]
      split
      · rfl
      · obtain ⟨w, ws, hw⟩ := exists_pieces_eq sep quote (quoted ^^ c == quote) text
        rw [hw]
        rfl

/-- One more character at the end of a text that is one piece. -/
theorem pieces_concat {w : List α} {c : α} (h : pieces sep quote quoted w = [w])
    (hc : ¬ ((quotedAfter quote quoted w ^^ c == quote) = false ∧ c = sep)) :
    pieces sep quote quoted (w ++ [c]) = [w ++ [c]] := by
  induction w generalizing quoted with
  | nil =>
      rw [quotedAfter_nil] at hc
      rw [List.nil_append, pieces, if_neg hc]
      rfl
  | cons a w ih =>
      rw [pieces] at h
      rw [List.cons_append, pieces]
      split at h
      · exact absurd (List.cons.inj h).1 (List.cons_ne_nil a w).symm
      · rename_i ha
        obtain ⟨v, vs, hv⟩ := exists_pieces_eq sep quote (quoted ^^ a == quote) w
        rw [hv, List.modifyHead_cons] at h
        obtain ⟨hhead, rfl⟩ := List.cons.inj h
        obtain rfl := (List.cons.inj hhead).2
        rw [if_neg ha, ih hv hc]
        rfl

/-! ## Pieces that can be put together again -/

variable (sep quote) in
/-- A text that is one piece, with its quotes closed. -/
structure Whole (w : List α) : Prop where
  single : pieces sep quote false w = [w]
  closed : quotedAfter quote false w = false

/-- A whole text behind a text with closed quotes is its last piece. -/
theorem Whole.pieces_append (hsep : sep ≠ quote) {text w : List α} (hw : Whole sep quote w)
    (h : quotedAfter quote false text = false) :
    pieces sep quote false (text ++ sep :: w) = pieces sep quote false text ++ [w] := by
  rw [pieces_append_sep hsep h, hw.single]

/-- The quotes are closed as well. -/
theorem Whole.quotedAfter_append (hsep : sep ≠ quote) {text w : List α} (hw : Whole sep quote w)
    (h : quotedAfter quote false text = false) :
    quotedAfter quote false (text ++ sep :: w) = false := by
  have hsame : (false ^^ sep == quote) = false := by simp [hsep]
  rw [Text.quotedAfter_append, h, quotedAfter_cons, hsame, hw.closed]

/-! ## A last piece that is empty -/

/-- The pieces without the last one, if that is empty. -/
def dropEmptyLast (ws : List (List α)) : List (List α) :=
  if ws.getLast? = some [] then ws.dropLast else ws

theorem dropEmptyLast_cons {ws : List (List α)} (h : ws ≠ []) (w : List α) :
    dropEmptyLast (w :: ws) = w :: dropEmptyLast ws := by
  unfold dropEmptyLast
  rw [List.getLast?_cons_of_ne_nil h, List.dropLast_cons_of_ne_nil h]
  split <;> rfl

/-- Behind pieces that are not empty, the last piece is dropped as it is alone. -/
theorem dropEmptyLast_append {ws : List (List α)} (h : [] ∉ ws) (ws' : List (List α)) :
    dropEmptyLast (ws ++ ws') = ws ++ dropEmptyLast ws' := by
  cases ws' with
  | nil =>
      rw [List.append_nil]
      refine (if_neg fun hlast ↦ h (List.mem_of_getLast? hlast)).trans (List.append_nil ws).symm
  | cons w ws' =>
      unfold dropEmptyLast
      rw [List.getLast?_append_of_ne_nil _ (List.cons_ne_nil w ws'),
        List.dropLast_append_of_ne_nil (List.cons_ne_nil w ws')]
      split <;> rfl

/-- Nothing else is dropped. -/
theorem filter_dropEmptyLast (ws : List (List α)) :
    (dropEmptyLast ws).filter (· ≠ []) = ws.filter (· ≠ []) := by
  unfold dropEmptyLast
  split
  · rename_i h
    obtain ⟨ws', rfl⟩ := List.getLast?_eq_some_iff.1 h
    rw [List.dropLast_concat, List.filter_append]
    exact (List.append_nil _).symm
  · rfl

end Hsfs.Text
