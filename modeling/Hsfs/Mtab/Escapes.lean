import Hsfs.Mtab.Entries

/-!
# Decoding a field in place

`unmangle` finds the end of its field first and then decodes up to it.  It recognises an escape by
the three bytes behind a backslash, which may lie behind the end it has found: the loop would then
pass its end and never meet it.  This does not happen, since what ends a field is not an octal
digit, and so the loop does what `unescape` does to the field alone.
-/

namespace Hsfs.Mtab

open Mount (byteAt)

/-- The test of the loop of `unmangle`: an escape begins here. -/
def isEscape (s : Name) : Bool :=
  byteAt s 0 == 92 && isoctal (byteAt s 1) && isoctal (byteAt s 2) && isoctal (byteAt s 3)

/-- The loop of `unmangle` at `s`, up to `ss`: what it writes.  Both are what is left of one string,
so the pointers are equal where the lengths are.  There is no result if the loop is still running
after the rounds it is given. -/
def unmangleLoop (ss : Name) : Nat → Name → Option Name
  | 0, s => if s.length = ss.length then some [] else none
  | rounds + 1, s =>
      if s.length = ss.length then some []
      else if isEscape s then
        (unmangleLoop ss rounds (s.drop 4)).map
          (octal (byteAt s 1) (byteAt s 2) (byteAt s 3) :: ·)
      else (unmangleLoop ss rounds (s.drop 1)).map (byteAt s 0 :: ·)

/-! ## The loop stays in its field -/

theorem isoctal_eq_false_of_blank {b : UInt8} (h : isSpaceOrTab b = true) : isoctal b = false := by
  rw [isSpaceOrTab, Bool.or_eq_true, beq_iff_eq, beq_iff_eq] at h
  rcases h with rfl | rfl
  · rfl
  · rfl

/-- What ends a field is not an octal digit. -/
theorem AtBlank.isoctal_eq_false {rest : Name} (h : AtBlank rest) :
    isoctal (byteAt rest 0) = false := by
  cases rest with
  | nil => rfl
  | cons b rest => exact isoctal_eq_false_of_blank (h b rfl)

/-- Whether an escape begins in a field is decided within the field. -/
theorem isEscape_append {rest : Name} (hrest : AtBlank rest) (b : UInt8) (w : Name) :
    isEscape (b :: w ++ rest) = isEscape (b :: w) := by
  have hend := hrest.isoctal_eq_false
  have hzero : isoctal 0 = false := rfl
  rcases w with _ | ⟨b₁, _ | ⟨b₂, _ | ⟨b₃, w⟩⟩⟩
  · change (b == 92 && isoctal (byteAt rest 0) && _ && _) = (b == 92 && isoctal 0 && _ && _)
    simp only [hend, hzero, Bool.and_false, Bool.false_and]
  · change (b == 92 && isoctal b₁ && isoctal (byteAt rest 0) && _) =
      (b == 92 && isoctal b₁ && isoctal 0 && _)
    simp only [hend, hzero, Bool.and_false, Bool.false_and]
  · change (b == 92 && isoctal b₁ && isoctal b₂ && isoctal (byteAt rest 0)) =
      (b == 92 && isoctal b₁ && isoctal b₂ && isoctal 0)
    rw [hend, hzero]
  · rfl

theorem unescape_of_isEscape {b : UInt8} {w : Name} (h : isEscape (b :: w) = true) :
    ∃ b₁ b₂ b₃ w', w = b₁ :: b₂ :: b₃ :: w' ∧
      unescape (b :: w) = octal b₁ b₂ b₃ :: unescape w' := by
  rw [isEscape, Bool.and_eq_true, Bool.and_eq_true, Bool.and_eq_true, beq_iff_eq] at h
  obtain ⟨⟨⟨h₀, h₁⟩, h₂⟩, h₃⟩ := h
  rcases w with _ | ⟨b₁, _ | ⟨b₂, _ | ⟨b₃, w⟩⟩⟩
  · exact absurd (show isoctal 0 = true from h₁) (by decide)
  · exact absurd (show isoctal 0 = true from h₂) (by decide)
  · exact absurd (show isoctal 0 = true from h₃) (by decide)
  · refine ⟨b₁, b₂, b₃, w, rfl, ?_⟩
    rw [unescape, if_pos ⟨h₀, h₁, h₂, h₃⟩]

theorem unescape_of_not_isEscape {b : UInt8} {w : Name} (h : isEscape (b :: w) = false) :
    unescape (b :: w) = b :: unescape w := by
  rcases w with _ | ⟨b₁, _ | ⟨b₂, _ | ⟨b₃, w⟩⟩⟩
  · rfl
  · rfl
  · rfl
  · rw [unescape, if_neg]
    rintro ⟨h₀, h₁, h₂, h₃⟩
    have hescape : isEscape (b :: b₁ :: b₂ :: b₃ :: w) = true := by
      change (b == 92 && isoctal b₁ && isoctal b₂ && isoctal b₃) = true
      rw [h₀, h₁, h₂, h₃]
      rfl
    exact absurd (hescape.symm.trans h) (by decide)

/-- **The loop of `unmangle` ends at the end of its field.**  It has then written what the field
alone is decoded to. -/
theorem unmangleLoop_eq {rest : Name} (hrest : AtBlank rest) {rounds : Nat} {w : Name}
    (hlen : w.length ≤ rounds) : unmangleLoop rest rounds (w ++ rest) = some (unescape w) := by
  -- By induction on the rounds: an escape takes four bytes of the field, all else takes one.
  induction rounds generalizing w with
  | zero =>
      obtain rfl := List.eq_nil_of_length_eq_zero (Nat.le_zero.1 hlen)
      exact if_pos rfl
  | succ rounds ih =>
      cases w with
      | nil => exact if_pos rfl
      | cons b w =>
          have hne : (b :: w ++ rest).length ≠ rest.length := by
            rw [List.cons_append, List.length_cons, List.length_append]
            omega
          rw [unmangleLoop, if_neg hne, isEscape_append hrest]
          cases h : isEscape (b :: w) with
          | true =>
              obtain ⟨b₁, b₂, b₃, w', rfl, hdecoded⟩ := unescape_of_isEscape h
              rw [List.length_cons, List.length_cons, List.length_cons, List.length_cons] at hlen
              have htail := ih (w := w') (by omega)
              rw [if_pos rfl, hdecoded]
              change (unmangleLoop rest rounds (w' ++ rest)).map _ = _
              rw [htail]
              rfl
          | false =>
              have htail := ih (w := w) (Nat.le_of_succ_le_succ hlen)
              rw [if_neg Bool.false_ne_true, unescape_of_not_isEscape h]
              change (unmangleLoop rest rounds (w ++ rest)).map _ = _
              rw [htail]
              rfl

theorem atBlank_skipNonspaces (s : Name) : AtBlank (skipNonspaces s) := by
  intro b hb
  have hhead := List.head?_dropWhile_not (!isSpaceOrTab ·) s
  rw [skipNonspaces] at hb
  rw [Option.mem_def.1 hb] at hhead
  simpa using hhead

/-- The text of `unmangle`, as its loop writes it. -/
theorem unmangleLoop_skipNonspaces (s : Name) :
    (unmangleLoop (skipNonspaces s) s.length s).map cString = some (unmangle s).1 := by
  have hsplit : s.takeWhile (!isSpaceOrTab ·) ++ skipNonspaces s = s :=
    List.takeWhile_append_dropWhile
  have hlen : (s.takeWhile (!isSpaceOrTab ·)).length ≤ s.length :=
    List.takeWhile_prefix _ |>.length_le
  have hloop := unmangleLoop_eq (atBlank_skipNonspaces s) hlen
  rw [hsplit] at hloop
  rw [hloop]
  rfl

/-! ## The round trip -/

theorem length_escape_le (b : UInt8) : (escape b).length ≤ 4 := by
  unfold escape
  split
  · exact Nat.le_refl 4
  · exact Nat.le_add_left 1 3

theorem length_mangle_le (s : Name) : (mangle s).length ≤ 4 * s.length := by
  induction s with
  | nil => exact Nat.le_refl 0
  | cons b s ih =>
      have hb := length_escape_le b
      rw [mangle, List.flatMap_cons, List.length_append, List.length_cons, ← mangle]
      omega

/-- **Escaping a field is undone by reading it**, whatever stands behind the field.  What is written
has nothing in it that would end the field or the line, and it fits into the memory that is
allocated for it; the loop that decodes it stops at its end and returns the string. -/
theorem mangle_roundtrip (s : CStr) (rest : Name) (hrest : AtBlank rest) :
    (∀ b ∈ mangle s, b ≠ 32 ∧ b ≠ 9 ∧ b ≠ 10) ∧
      (mangle s).length ≤ 4 * s.1.length ∧
      skipNonspaces (mangle s ++ rest) = rest ∧
      unmangleLoop (skipNonspaces (mangle s ++ rest)) (mangle s).length (mangle s ++ rest) =
        some s.1 ∧
      unmangle (mangle s ++ rest) = s := by
  have hend : skipNonspaces (mangle s ++ rest) = rest := skipNonspaces_mangle s.1 hrest
  refine ⟨fun b hb ↦ ?_, length_mangle_le s.1, hend, ?_, unmangle_mangle s hrest⟩
  · have hblank := blank_of_mem_mangle hb
    rw [isSpaceOrTab, Bool.or_eq_false_iff, beq_eq_false_iff_ne, beq_eq_false_iff_ne] at hblank
    exact ⟨hblank.1, hblank.2, fun h ↦ newline_notMem_mangle (h ▸ hb)⟩
  · rw [hend, unmangleLoop_eq hrest (Nat.le_refl _), unescape_mangle]

/-- The string `\0403`, a tab and a byte above 127, in front of a blank and digits. -/
theorem mangle_roundtrip_backslash :
    AtBlank [32, 48, 49] ∧ unmangle (mangle [92, 48, 52, 48, 51, 9, 200] ++ [32, 48, 49]) =
      (⟨[92, 48, 52, 48, 51, 9, 200], by decide⟩ : CStr) :=
  ⟨atBlank_space _, (mangle_roundtrip ⟨[92, 48, 52, 48, 51, 9, 200], by decide⟩ [32, 48, 49]
    (atBlank_space _)).2.2.2.2⟩

end Hsfs.Mtab
