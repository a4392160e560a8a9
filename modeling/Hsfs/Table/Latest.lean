import Mathlib.Data.List.Induction

/-!
# The latest of several writes

A list of items is stored one after the other, and each of them may write to a place.  What stands
there in the end is what the latest of those items wrote, or what stood there before (`read_foldl`).
-/

namespace Hsfs

variable {α β γ σ : Type}

/-- What the last of the items that have a value under `f` has. -/
def latest (f : α → Option β) (items : List α) : Option β :=
  items.foldl (fun acc a ↦ (f a).or acc) none

theorem latest_concat (f : α → Option β) (items : List α) (a : α) :
    latest f (items ++ [a]) = (f a).or (latest f items) := by
  unfold latest
  rw [List.foldl_append]
  rfl

/-- The latest value is that of one of the items. -/
theorem exists_of_latest {f : α → Option β} {items : List α} {b : β} (h : latest f items = some b) :
    ∃ a ∈ items, f a = some b := by
  induction items using List.reverseRecOn with
  | nil => exact nomatch h
  | append_singleton items a ih =>
      rw [latest_concat] at h
      rcases Option.or_eq_some_iff.1 h with ha | ⟨-, h⟩
      · exact ⟨a, List.mem_append_right items List.mem_cons_self, ha⟩
      · obtain ⟨a', ha', hb⟩ := ih h
        exact ⟨a', List.mem_append_left [a] ha', hb⟩

/-- There is a latest value if one of the items has one. -/
theorem latest_eq_none_iff {f : α → Option β} {items : List α} :
    latest f items = none ↔ ∀ a ∈ items, f a = none := by
  induction items using List.reverseRecOn with
  | nil => exact iff_of_true rfl fun a ha ↦ absurd ha List.not_mem_nil
  | append_singleton items a ih =>
      rw [latest_concat, Option.or_eq_none_iff, ih, List.forall_mem_append,
        List.forall_mem_singleton, and_comm]

/-- Items without a value do not matter. -/
theorem latest_filter {f : α → Option β} {p : α → Bool} (h : ∀ a, p a = false → f a = none)
    (items : List α) : latest f (items.filter p) = latest f items := by
  induction items using List.reverseRecOn with
  | nil => rfl
  | append_singleton items a ih =>
      rw [List.filter_append, latest_concat, ← ih]
      cases hp : p a with
      | true => rw [List.filter_cons_of_pos hp, List.filter_nil, latest_concat]
      | false =>
          rw [List.filter_cons_of_neg (Bool.eq_false_iff.1 hp), List.filter_nil, List.append_nil,
            h a hp, Option.none_or]

/-- The latest value, if values are looked at further. -/
theorem latest_bind {f : α → Option β} {g : β → Option γ} {items : List α} {b : β} {c : γ}
    (h : latest f items = some b) (hb : g b = some c) :
    latest (fun a ↦ (f a).bind g) items = some c := by
  induction items using List.reverseRecOn with
  | nil => exact nomatch h
  | append_singleton items a ih =>
      rw [latest_concat] at h ⊢
      cases ha : f a with
      | none =>
          rw [ha, Option.none_or] at h
          rw [Option.bind_none, Option.none_or]
          exact ih h
      | some b' =>
          rw [ha, Option.some_or] at h
          obtain rfl := Option.some.inj h
          rw [Option.bind_some, hb, Option.some_or]

/-- **What stands in a place after all writes.** -/
theorem read_foldl {store : σ → α → σ} {read : σ → γ} {f : α → Option β} {g : β → γ}
    (h : ∀ s a, read (store s a) = ((f a).map g).getD (read s)) (items : List α) (s : σ) :
    read (items.foldl store s) = ((latest f items).map g).getD (read s) := by
  induction items using List.reverseRecOn with
  | nil => rfl
  | append_singleton items a ih =>
      rw [List.foldl_append, List.foldl_cons, List.foldl_nil, h, ih, latest_concat]
      cases f a <;> rfl

end Hsfs
