import Mathlib.Algebra.Ring.Nat
import Mathlib.Data.List.Infix

/-!
# Filling a room

Pieces of different sizes are put into a room, one after the other and in their order, until one
does not fit.  What should be put there is the longest prefix that fits (`IsLongestFit`).  A loop
that stops at a piece that would fill the room (`fillLoosely`) does the same unless some of the
prefixes is exactly as large as the room (`isLongestFit_fillLoosely_iff`).
-/

namespace Hsfs

variable {α : Type} {size : α → Nat} {room : Nat} {as pre : List α}

/-- The longest prefix whose pieces fit the room. -/
structure IsLongestFit (size : α → Nat) (room : Nat) (as pre : List α) : Prop where
  isPrefix : pre <+: as
  fits : (pre.map size).sum ≤ room
  longest : ∀ other, other <+: as → (other.map size).sum ≤ room → other.length ≤ pre.length

/-- No prefix fills the room, apart from the empty one. -/
def NeverFull (size : α → Nat) (room : Nat) (as : List α) : Prop :=
  ∀ pre, pre <+: as → pre ≠ [] → (pre.map size).sum ≠ room

/-- Put pieces into a room as long as some of it is left. -/
def fillLoosely (size : α → Nat) : (room : Nat) → List α → List α
  | _, [] => []
  | room, a :: as => if room ≤ size a then [] else a :: fillLoosely size (room - size a) as

/-- **What is put into the room**: all that leaves some of it. -/
theorem prefix_fillLoosely_iff :
    pre <+: fillLoosely size room as ↔ pre <+: as ∧ (pre = [] ∨ (pre.map size).sum < room) := by
  induction as generalizing room pre with
  | nil =>
      rw [fillLoosely, List.prefix_nil]
      exact ⟨fun h ↦ ⟨h, .inl h⟩, fun h ↦ h.1⟩
  | cons a as ih =>
      cases pre with
      | nil => exact iff_of_true (List.nil_prefix) ⟨List.nil_prefix, .inl rfl⟩
      | cons b pre =>
          rw [or_iff_right (List.cons_ne_nil b pre), List.map_cons, List.sum_cons,
            List.cons_prefix_cons]
          unfold fillLoosely
          split
          · next hfull =>
              refine iff_of_false (fun h ↦ List.cons_ne_nil b pre (List.prefix_nil.1 h)) ?_
              rintro ⟨⟨rfl, -⟩, hlt⟩
              omega
          · next hroom =>
              rw [List.cons_prefix_cons, ih]
              constructor
              · rintro ⟨rfl, hpre, hlt⟩
                refine ⟨⟨rfl, hpre⟩, ?_⟩
                rcases hlt with rfl | hlt
                · simpa using hroom
                · omega
              · rintro ⟨⟨rfl, hpre⟩, hlt⟩
                exact ⟨rfl, hpre, .inr (by omega)⟩

/-- **When this is the longest prefix that fits.** -/
theorem isLongestFit_fillLoosely_iff :
    IsLongestFit size room as (fillLoosely size room as) ↔ NeverFull size room as := by
  constructor
  · intro h pre hpre hne hfull
    -- the prefix that fills the room fits it, but has not been put there
    have hlength := h.longest pre hpre hfull.le
    have hput := List.prefix_of_prefix_length_le hpre h.isPrefix hlength
    rcases (prefix_fillLoosely_iff.1 hput).2 with hnil | hlt
    · exact hne hnil
    · omega
  · intro h
    obtain ⟨hpre, hsum⟩ := prefix_fillLoosely_iff.1 (List.prefix_refl (fillLoosely size room as))
    refine ⟨hpre, ?_, fun other hother hfits ↦ ?_⟩
    · rcases hsum with hnil | hlt
      · rw [hnil]
        exact Nat.zero_le _
      · exact hlt.le
    · by_cases hnil : other = []
      · rw [hnil]
        exact Nat.zero_le _
      · have hlt : (other.map size).sum < room := lt_of_le_of_ne hfits (h other hother hnil)
        exact (prefix_fillLoosely_iff.2 ⟨hother, .inr hlt⟩).length_le

end Hsfs
