import Hsfs.Mount.Options
import Mathlib.Data.List.TakeWhile
import Mathlib.Tactic.IntervalCases

/-!
# The lines of mtab

`nfs_addmntent` writes an entry as a line of six fields; blanks, newlines and backslashes in the
first four are written as octal escapes.  `nfs_getmntent` reads the next entry and passes over blank
lines, comments and lines it does not understand.

What a line is read as is `readText`; what the whole file yields is `entriesOf`.
-/

namespace Hsfs.Mtab

open Mount (isdigit decimal atoi byteAt)

/-! ## Escapes -/

/-- `need_escaping`. -/
def needEscaping : List UInt8 := [32, 9, 10, 92]

/-- The digit for a number. -/
def digit (n : UInt8) : UInt8 := 48 + n

/-- What `mangle` writes for a byte. -/
def escape (b : UInt8) : Name :=
  if b ∈ needEscaping then
    [92, digit ((b &&& 0o300) >>> 6), digit ((b &&& 0o70) >>> 3), digit (b &&& 0o7)]
  else [b]

/-- `mangle`. -/
def mangle (s : Name) : Name := s.flatMap escape

/-- `is_space_or_tab`. -/
def isSpaceOrTab (b : UInt8) : Bool := b == 32 || b == 9

/-- `skip_spaces`. -/
def skipSpaces (s : Name) : Name := s.dropWhile isSpaceOrTab

/-- `skip_nonspaces`. -/
def skipNonspaces (s : Name) : Name := s.dropWhile (!isSpaceOrTab ·)

/-- `isoctal`. -/
def isoctal (b : UInt8) : Bool := b &&& ~~~7 == 48

/-- The byte for three octal digits. -/
def octal (b₁ b₂ b₃ : UInt8) : UInt8 := 64 * (b₁ &&& 7) + 8 * (b₂ &&& 7) + (b₃ &&& 7)

/-- The loop of `unmangle`.  What stands behind the field is not octal, so the escapes are found
without it. -/
def unescape : List UInt8 → List UInt8
  | [] => []
  | b :: s =>
      match s with
      | b₁ :: b₂ :: b₃ :: rest =>
          if b = 92 ∧ isoctal b₁ ∧ isoctal b₂ ∧ isoctal b₃ then
            octal b₁ b₂ b₃ :: unescape rest
          else
            b :: unescape (b₁ :: b₂ :: b₃ :: rest)
      | [b₁, b₂] => [b, b₁, b₂]
      | [b₁] => [b, b₁]
      | [] => [b]

/-- A string in memory, which ends at its first zero. -/
abbrev CStr := { s : Name // (0 : UInt8) ∉ s }

theorem zero_notMem_cString (s : List UInt8) : 0 ∉ cString s := by
  intro h
  have hzero := List.mem_takeWhile_imp h
  exact absurd hzero (by decide)

theorem cString_of_notMem {s : List UInt8} (hs : 0 ∉ s) : cString s = s := by
  unfold cString
  rw [List.takeWhile_eq_self_iff]
  exact fun b hb ↦ decide_eq_true fun h ↦ hs (h ▸ hb)

/-- `unmangle`. -/
def unmangle (s : Name) : CStr :=
  ⟨cString (unescape (s.takeWhile (!isSpaceOrTab ·))), zero_notMem_cString _⟩

/-! ## Entries -/

/-- `nfs_mntent_t`. -/
structure Mntent where
  fsname : CStr
  dir : CStr
  type : CStr
  opts : CStr
  freq : Int32
  passno : Int32
  deriving DecidableEq

instance : Inhabited Mntent :=
  ⟨⟨⟨[], List.not_mem_nil⟩, ⟨[], List.not_mem_nil⟩, ⟨[], List.not_mem_nil⟩, ⟨[], List.not_mem_nil⟩,
    0, 0⟩⟩

/-- The digits of a number.  The first argument is a bound on their number. -/
def formatNat : Nat → Nat → Name
  | 0, _ => []
  | rounds + 1, n =>
      if n < 10 then [digit n.toUInt8] else formatNat rounds (n / 10) ++ [digit (n % 10).toUInt8]

/-- The format `%d`. -/
def formatInt (n : Int) : Name :=
  if n < 0 then 45 :: formatNat 10 n.natAbs else formatNat 10 n.natAbs

/-- The line that `nfs_addmntent` writes, without the newline. -/
def entryText (e : Mntent) : Name :=
  mangle e.fsname ++ 32 :: (mangle e.dir ++ 32 :: (mangle e.type ++ 32 :: (mangle e.opts ++
    32 :: (formatInt e.freq.toInt ++ 32 :: formatInt e.passno.toInt))))

/-- `nfs_addmntent`: what is added to the file. -/
def nfsAddmntent (e : Mntent) : List UInt8 := entryText e ++ [10]

/-! ## Reading a line -/

/-- A field of a string, and what follows it. -/
def nextField (s : Name) : CStr × Name := (unmangle s, skipSpaces (skipNonspaces s))

/-- A number, and what follows it; nothing if this is not a blank. -/
def nextNumber (s : Name) : Option (Int32 × Name) :=
  let (n, s) :=
    if isdigit (byteAt s 0) then (Int32.ofInt (atoi (decimal s)), s.dropWhile isdigit) else (0, s)
  if s ≠ [] ∧ ¬ isSpaceOrTab (byteAt s 0) then none else some (n, skipSpaces s)

/-- The two numbers at the end of a line. -/
def parseNumbers (s : Name) : Option (Int32 × Int32) := do
  let (freq, s) ← nextNumber s
  let (passno, _) ← nextNumber s
  some (freq, passno)

/-- The end of `nfs_getmntent`: the entry of a line, if it is a good one. -/
def parseEntry (s : Name) : Option Mntent :=
  let (fsname, s) := nextField s
  let (dir, s) := nextField s
  let (type, s) := nextField s
  let (opts, s) := nextField s
  (parseNumbers s).map fun (freq, passno) ↦ { fsname, dir, type, opts, freq, passno }

/-- What a line is read as. -/
inductive Line where
  /-- A blank line or a comment. -/
  | blank
  | bad
  | entry (e : Mntent)
  deriving DecidableEq

/-- What the text of a line is read as. -/
def readText (text : Name) : Line :=
  let s := skipSpaces text
  if s = [] ∨ byteAt s 0 = 35 then .blank
  else
    match parseEntry s with
    | none => .bad
    | some e => .entry e

/-! ## Reading a file -/

/-- `fgets`, with a buffer of `size` bytes: the bytes it stores, what is left of the file, and
whether it came to the end of the file. -/
def fgets (size : Nat) (rest : List UInt8) : Option (List UInt8 × List UInt8 × Bool) :=
  if rest = [] then
    none
  else
    let chunk := rest.take (size - 1)
    if 10 ∈ chunk then
      let line := chunk.takeWhile (· ≠ 10) ++ [10]
      some (line, rest.drop line.length, false)
    else
      some (chunk, rest.drop chunk.length, decide (rest.length < size - 1))

/-- A carriage return at the end is cut off. -/
def chomp (s : Name) : Name := if s.getLast? = some 13 then s.dropLast else s

/-- The text of the line in the buffer; nothing if it has no end. -/
def lineText (buf : List UInt8) (feof : Bool) : Option Name :=
  let s := cString buf
  if 10 ∈ s then some (chomp (s.takeWhile (· ≠ 10)))
  else if feof then some (chomp s)
  else none

/-- `mntFILE`, as far as reading needs it. -/
structure MntFile where
  rest : List UInt8
  errs : Bool
  softerrs : Nat

/-- `nfs_setmntent`, to read a file that can be opened. -/
def MntFile.ofBytes (file : List UInt8) : MntFile := ⟨file, false, 0⟩

def errMax : Nat := 5

/-- `sizeof(buf)`. -/
def bufSize : Nat := 4096

/-- `nfs_getmntent`.  The first argument is a bound on the number of lines. -/
def nfsGetmntent : Nat → MntFile → Option Mntent × MntFile
  | 0, mfp => (none, mfp)
  | rounds + 1, mfp =>
      if mfp.errs ∨ errMax ≤ mfp.softerrs then
        (none, mfp)
      else
        match fgets bufSize mfp.rest with
        | none => (none, mfp)
        | some (buf, rest, feof) =>
            match (lineText buf feof).map readText with
            | none => nfsGetmntent rounds { rest, errs := true, softerrs := mfp.softerrs + 1 }
            | some .blank => nfsGetmntent rounds { mfp with rest }
            | some .bad => nfsGetmntent rounds { mfp with rest, softerrs := mfp.softerrs + 1 }
            | some (.entry e) => (some e, { mfp with rest })

/-- All entries that `nfs_getmntent` yields, one after the other. -/
def readEntries : Nat → MntFile → List Mntent
  | 0, _ => []
  | rounds + 1, mfp =>
      match nfsGetmntent (mfp.rest.length + 1) mfp with
      | (none, _) => []
      | (some e, mfp) => e :: readEntries rounds mfp

/-- The entries of a file. -/
def entriesOf (file : List UInt8) : List Mntent := readEntries (file.length + 1) (.ofBytes file)

/-! ## Escapes are undone -/

/-- An escaped byte is neither a blank nor a newline, and zero only if the byte is. -/
theorem escape_plain {b c : UInt8} (hc : c ∈ escape b) :
    isSpaceOrTab c = false ∧ c ≠ 10 ∧ (b ≠ 0 → c ≠ 0) := by
  by_cases hb : b ∈ needEscaping
  · have hall : ∀ b ∈ needEscaping, ∀ c ∈ escape b, isSpaceOrTab c = false ∧ c ≠ 10 ∧ c ≠ 0 := by
      decide +kernel
    obtain ⟨hblank, hnewline, hzero⟩ := hall b hb c hc
    exact ⟨hblank, hnewline, fun _ ↦ hzero⟩
  · rw [escape, if_neg hb] at hc
    obtain rfl := List.mem_singleton.1 hc
    have hne : c ≠ 32 ∧ c ≠ 9 ∧ c ≠ 10 ∧ c ≠ 92 := by
      simpa only [needEscaping, List.mem_cons, List.not_mem_nil, or_false, not_or] using hb
    obtain ⟨hspace, htab, hnewline, -⟩ := hne
    refine ⟨?_, hnewline, id⟩
    rw [isSpaceOrTab, beq_eq_false_iff_ne.2 hspace, beq_eq_false_iff_ne.2 htab, Bool.or_false]

section Mangle

variable {s : Name} {b : UInt8}

theorem blank_of_mem_mangle (h : b ∈ mangle s) : isSpaceOrTab b = false := by
  obtain ⟨c, _, hb⟩ := List.mem_flatMap.1 h
  exact (escape_plain hb).1

theorem newline_notMem_mangle : 10 ∉ mangle s := by
  intro h
  obtain ⟨c, _, hb⟩ := List.mem_flatMap.1 h
  exact (escape_plain hb).2.1 rfl

theorem zero_notMem_mangle (hs : 0 ∉ s) : 0 ∉ mangle s := by
  intro h
  obtain ⟨c, hc, hb⟩ := List.mem_flatMap.1 h
  exact (escape_plain hb).2.2 (fun hc0 ↦ hs (hc0 ▸ hc)) rfl

theorem mangle_eq_nil_iff : mangle s = [] ↔ s = [] := by
  constructor
  · intro h
    cases s with
    | nil => rfl
    | cons b s =>
        rw [mangle, List.flatMap_cons, List.append_eq_nil_iff, escape] at h
        split at h
        · exact nomatch h.1
        · exact nomatch h.1
  · rintro rfl
    rfl

theorem unescape_cons (hb : b ≠ 92) (s : List UInt8) : unescape (b :: s) = b :: unescape s := by
  rcases s with _ | ⟨b₁, _ | ⟨b₂, _ | ⟨b₃, rest⟩⟩⟩
  · rfl
  · rfl
  · rfl
  · rw [unescape, if_neg fun h ↦ hb h.1]

theorem unescape_escape (b : UInt8) (s : List UInt8) :
    unescape (escape b ++ s) = b :: unescape s := by
  by_cases hb : b ∈ needEscaping
  · have hdigits : ∀ b ∈ needEscaping, isoctal (digit ((b &&& 0o300) >>> 6)) ∧
        isoctal (digit ((b &&& 0o70) >>> 3)) ∧ isoctal (digit (b &&& 0o7)) := by
      decide +kernel
    have hvalue : ∀ b ∈ needEscaping,
      octal (digit ((b &&& 0o300) >>> 6)) (digit ((b &&& 0o70) >>> 3))
        (digit (b &&& 0o7)) = b := by
      decide +kernel
    rw [escape, if_pos hb]
    change unescape (92 :: digit _ :: digit _ :: digit _ :: s) = _
    rw [unescape, if_pos ⟨rfl, hdigits b hb⟩, hvalue b hb]
  · have hne : b ≠ 92 := fun h ↦ hb (h ▸ by decide)
    rw [escape, if_neg hb]
    exact unescape_cons hne s

/-- **`unmangle` undoes `mangle`.** -/
theorem unescape_mangle (s : Name) : unescape (mangle s) = s := by
  induction s with
  | nil => rfl
  | cons b s ih => rw [mangle, List.flatMap_cons, unescape_escape, ← mangle, ih]

end Mangle

/-! ## Fields are read back -/

/-- The text is at its end or at a blank. -/
def AtBlank (rest : Name) : Prop := ∀ b ∈ rest.head?, isSpaceOrTab b = true

theorem atBlank_space (rest : Name) : AtBlank (32 :: rest) := by
  intro b hb
  obtain rfl := Option.mem_some.1 hb
  rfl

section Field

variable {w rest : Name}

theorem takeWhile_append_blank (hw : ∀ b ∈ w, isSpaceOrTab b = false) (hrest : AtBlank rest) :
    (w ++ rest).takeWhile (!isSpaceOrTab ·) = w := by
  rw [List.takeWhile_append_of_pos fun b hb ↦ by rw [hw b hb]; rfl]
  cases rest with
  | nil => exact List.append_nil w
  | cons b rest =>
      rw [List.takeWhile_cons_of_neg (by rw [hrest b rfl]; exact Bool.false_ne_true),
        List.append_nil]

theorem dropWhile_append_blank (hw : ∀ b ∈ w, isSpaceOrTab b = false) (hrest : AtBlank rest) :
    skipNonspaces (w ++ rest) = rest := by
  unfold skipNonspaces
  rw [List.dropWhile_append_of_pos fun b hb ↦ by rw [hw b hb]; rfl]
  cases rest with
  | nil => rfl
  | cons b rest =>
      rw [List.dropWhile_cons_of_neg (by rw [hrest b rfl]; exact Bool.false_ne_true)]

/-- A field is decoded without what stands behind it. -/
theorem unmangle_mangle (x : CStr) (hrest : AtBlank rest) : unmangle (mangle x ++ rest) = x := by
  have hplain : ∀ b ∈ mangle x.1, isSpaceOrTab b = false := fun b hb ↦ blank_of_mem_mangle hb
  refine Subtype.ext ?_
  change cString (unescape ((mangle x ++ rest).takeWhile (!isSpaceOrTab ·))) = x.1
  rw [takeWhile_append_blank hplain hrest, unescape_mangle, cString_of_notMem x.2]

/-- The field is what is passed over. -/
theorem skipNonspaces_mangle (x : Name) (hrest : AtBlank rest) :
    skipNonspaces (mangle x ++ rest) = rest :=
  dropWhile_append_blank (fun _ hb ↦ blank_of_mem_mangle hb) hrest

end Field

theorem skipSpaces_blank (rest : Name) : skipSpaces (32 :: rest) = skipSpaces rest := rfl

/-- Nothing is skipped before a field that is not empty. -/
theorem skipSpaces_field {w : Name} (hw : ∀ b ∈ w, isSpaceOrTab b = false) (hne : w ≠ [])
    (rest : Name) :
    skipSpaces (w ++ rest) = w ++ rest := by
  cases w with
  | nil => exact absurd rfl hne
  | cons b w =>
      unfold skipSpaces
      rw [List.cons_append,
        List.dropWhile_cons_of_neg (by rw [hw b List.mem_cons_self]; exact Bool.false_ne_true)]

/-- **A field is read back.** -/
theorem nextField_mangle (x : CStr) (rest : Name) :
    nextField (mangle x ++ 32 :: rest) = (x, skipSpaces rest) := by
  unfold nextField
  rw [unmangle_mangle x (atBlank_space rest), skipNonspaces_mangle x.1 (atBlank_space rest),
    skipSpaces_blank]

/-- What begins with a field that is not empty, behind blanks. -/
def Solid (s : Name) : Prop := (nextField (skipSpaces s)).1.1 ≠ []

/-- A field in front of such a string, empty or not. -/
theorem Solid.cons_field {s : Name} (h : Solid s) (x : CStr) : Solid (mangle x ++ 32 :: s) := by
  by_cases hx : x.1 = []
  · rw [hx]
    exact h
  · have hne : mangle x.1 ≠ [] := fun hnil ↦ hx (mangle_eq_nil_iff.1 hnil)
    unfold Solid
    rw [skipSpaces_field (fun b hb ↦ blank_of_mem_mangle hb) hne, nextField_mangle]
    exact hx

/-! ## Numbers are read back -/

theorem isdigit_digit {n : Nat} (h : n < 10) : isdigit (digit n.toUInt8) = true := by
  interval_cases n <;> decide

theorem toNat_digit {n : Nat} (h : n < 10) : (digit n.toUInt8).toNat - 48 = n := by
  interval_cases n <;> decide

theorem isdigit_of_mem_formatNat {rounds n : Nat} {b : UInt8} (hb : b ∈ formatNat rounds n) :
    isdigit b = true := by
  induction rounds generalizing n with
  | zero => exact absurd hb List.not_mem_nil
  | succ rounds ih =>
      rw [formatNat] at hb
      split at hb
      · rename_i hn
        rw [List.mem_singleton.1 hb]
        exact isdigit_digit hn
      · rcases List.mem_append.1 hb with hb | hb
        · exact ih hb
        · rw [List.mem_singleton.1 hb]
          exact isdigit_digit (Nat.mod_lt n (by decide))

/-- The number that some digits stand for. -/
def valueOf (digits : Name) : Nat := digits.foldl (fun n b ↦ 10 * n + (b.toNat - 48)) 0

theorem valueOf_formatNat {rounds n : Nat} (h : n < 10 ^ rounds) :
    valueOf (formatNat rounds n) = n := by
  induction rounds generalizing n with
  | zero =>
      obtain rfl : n = 0 := Nat.lt_one_iff.1 h
      rfl
  | succ rounds ih =>
      rw [formatNat]
      split
      · rename_i hn
        change 10 * 0 + ((digit n.toUInt8).toNat - 48) = n
        rw [toNat_digit hn, Nat.mul_zero, Nat.zero_add]
      · have hlt : n / 10 < 10 ^ rounds := by
          rw [Nat.div_lt_iff_lt_mul (by decide)]
          exact h
        have hrest := ih hlt
        unfold valueOf at hrest ⊢
        rw [List.foldl_append, List.foldl_cons, List.foldl_nil, hrest,
          toNat_digit (Nat.mod_lt n (by decide))]
        exact Nat.div_add_mod n 10

theorem formatNat_ne_nil (rounds n : Nat) : formatNat (rounds + 1) n ≠ [] := by
  rw [formatNat]
  split
  · exact List.cons_ne_nil _ _
  · exact List.append_ne_nil_of_right_ne_nil _ (List.cons_ne_nil _ _)

/-- What a number is followed by: nothing, or a blank. -/
def EndsNumber (rest : Name) : Prop := rest = [] ∨ ∃ rest', rest = 32 :: rest'

theorem nextNumber_formatNat {n : Nat} (h : n < 2 ^ 31) {rest : Name} (hrest : EndsNumber rest) :
    nextNumber (formatNat 10 n ++ rest) = some (Int32.ofInt n, skipSpaces rest) := by
  have hdigits : ∀ b ∈ formatNat 10 n, isdigit b = true := fun b hb ↦ isdigit_of_mem_formatNat hb
  have htake : (formatNat 10 n ++ rest).takeWhile isdigit = formatNat 10 n := by
    rw [List.takeWhile_append_of_pos hdigits]
    rcases hrest with rfl | ⟨rest', rfl⟩
    · exact List.append_nil _
    · exact List.append_nil _
  have hdrop : (formatNat 10 n ++ rest).dropWhile isdigit = rest := by
    rw [List.dropWhile_append_of_pos hdigits]
    rcases hrest with rfl | ⟨rest', rfl⟩
    · rfl
    · rfl
  have hfirst : isdigit (byteAt (formatNat 10 n ++ rest) 0) = true := by
    obtain ⟨b, w, hw⟩ := List.exists_cons_of_ne_nil (formatNat_ne_nil 9 n)
    rw [hw]
    exact hdigits b (hw ▸ List.mem_cons_self)
  have hvalue : decimal (formatNat 10 n ++ rest) = n := by
    unfold decimal
    rw [htake]
    exact valueOf_formatNat (Nat.lt_trans h (by decide))
  have hend : ¬ (rest ≠ [] ∧ ¬ isSpaceOrTab (byteAt rest 0)) := by
    rcases hrest with rfl | ⟨rest', rfl⟩
    · exact fun h ↦ h.1 rfl
    · exact fun h ↦ h.2 rfl
  unfold nextNumber
  rw [if_pos hfirst, hvalue, Mount.atoi_of_lt h, hdrop]
  dsimp only
  rw [if_neg hend]

/-- **A number is read back if it is not negative.** -/
theorem nextNumber_formatInt (i : Int32) {rest : Name} (hrest : EndsNumber rest) :
    nextNumber (formatInt i.toInt ++ rest) =
      if i.toInt < 0 then none else some (i, skipSpaces rest) := by
  unfold formatInt
  split
  · rfl
  · rename_i hneg
    have hnat : (i.toInt.natAbs : Int) = i.toInt := Int.natAbs_of_nonneg (Int.not_lt.1 hneg)
    have hlt := i.toInt_lt
    rw [nextNumber_formatNat (by omega) hrest, hnat, Int32.ofInt_toInt]

/-! ## Entries are read back -/

/-- The end of a line, from the options on. -/
def numbersText (e : Mntent) : Name := formatInt e.freq.toInt ++ 32 :: formatInt e.passno.toInt

theorem formatInt_ne_nil (n : Int) : formatInt n ≠ [] := by
  unfold formatInt
  split
  · exact List.cons_ne_nil _ _
  · exact formatNat_ne_nil 9 _

theorem byte_of_mem_formatInt {n : Int} {b : UInt8} (hb : b ∈ formatInt n) :
    b = 45 ∨ isdigit b = true := by
  unfold formatInt at hb
  split at hb
  · rcases List.mem_cons.1 hb with rfl | hb
    · exact .inl rfl
    · exact .inr (isdigit_of_mem_formatNat hb)
  · exact .inr (isdigit_of_mem_formatNat hb)

/-- A byte of a number is none of those that mean something. -/
theorem plain_of_mem_formatInt {n : Int} {b : UInt8} (hb : b ∈ formatInt n) :
    isSpaceOrTab b = false ∧ b ≠ 92 ∧ b ≠ 0 ∧ b ≠ 10 ∧ b ≠ 13 := by
  rcases byte_of_mem_formatInt hb with rfl | hdigit
  · decide
  · refine ⟨?_, ?_, ?_, ?_, ?_⟩
    · unfold isSpaceOrTab
      rw [Bool.or_eq_false_iff, beq_eq_false_iff_ne, beq_eq_false_iff_ne]
      constructor
      · rintro rfl
        exact absurd hdigit (by decide)
      · rintro rfl
        exact absurd hdigit (by decide)
    all_goals
      rintro rfl
      exact absurd hdigit (by decide)

theorem unescape_of_notMem {w : List UInt8} (h : 92 ∉ w) : unescape w = w := by
  induction w with
  | nil => rfl
  | cons b w ih =>
      rw [unescape_cons (fun hb ↦ h (hb ▸ List.mem_cons_self)),
        ih fun hmem ↦ h (List.mem_cons_of_mem b hmem)]

theorem solid_numbersText (e : Mntent) : Solid (numbersText e) := by
  have hplain : ∀ b ∈ formatInt e.freq.toInt, isSpaceOrTab b = false := fun b hb ↦
    (plain_of_mem_formatInt hb).1
  have hdecoded : unescape (formatInt e.freq.toInt) = formatInt e.freq.toInt :=
    unescape_of_notMem fun hmem ↦ (plain_of_mem_formatInt hmem).2.1 rfl
  unfold Solid numbersText
  rw [skipSpaces_field hplain (formatInt_ne_nil _)]
  unfold nextField unmangle
  dsimp only
  rw [takeWhile_append_blank hplain (atBlank_space _), hdecoded]
  obtain ⟨b, w, hw⟩ := List.exists_cons_of_ne_nil (formatInt_ne_nil e.freq.toInt)
  have hb : b ≠ 0 := (plain_of_mem_formatInt
    (hw ▸ List.mem_cons_self : b ∈ formatInt e.freq.toInt)).2.2.1
  rw [hw, cString, List.takeWhile_cons_of_pos (by simpa using hb)]
  exact List.cons_ne_nil _ _

/-- The first four fields of an entry are not empty. -/
structure Mntent.Full (e : Mntent) : Prop where
  fsname : e.fsname.1 ≠ []
  dir : e.dir.1 ≠ []
  type : e.type.1 ≠ []
  opts : e.opts.1 ≠ []

/-- Reading past a field. -/
theorem nextField_skipSpaces {x : CStr} (hx : x.1 ≠ []) (rest : Name) :
    nextField (skipSpaces (mangle x ++ 32 :: rest)) = (x, skipSpaces rest) := by
  rw [skipSpaces_field (fun b hb ↦ blank_of_mem_mangle hb) fun hnil ↦ hx (mangle_eq_nil_iff.1 hnil),
    nextField_mangle]

theorem skipSpaces_numbersText (e : Mntent) : skipSpaces (numbersText e) = numbersText e :=
  skipSpaces_field (fun _ hb ↦ (plain_of_mem_formatInt hb).1) (formatInt_ne_nil _) _

/-- The numbers of a line. -/
theorem parseNumbers_numbersText (e : Mntent) : parseNumbers (numbersText e) =
    if e.freq.toInt < 0 ∨ e.passno.toInt < 0 then none else some (e.freq, e.passno) := by
  unfold parseNumbers numbersText
  rw [nextNumber_formatInt e.freq (.inr ⟨_, rfl⟩)]
  by_cases hfreq : e.freq.toInt < 0
  · rw [if_pos hfreq, if_pos (.inl hfreq)]
    rfl
  · have hskip : skipSpaces (32 :: formatInt e.passno.toInt) = formatInt e.passno.toInt ++ [] := by
      have hfield := skipSpaces_field (fun _ hb ↦ (plain_of_mem_formatInt hb).1)
        (formatInt_ne_nil e.passno.toInt) []
      rw [List.append_nil] at hfield ⊢
      exact hfield
    have hpassno := nextNumber_formatInt e.passno (.inl rfl)
    rw [if_neg hfreq, hskip]
    change ((nextNumber (formatInt e.passno.toInt ++ [])).bind fun p ↦ some (e.freq, p.1)) = _
    rw [hpassno]
    by_cases hneg : e.passno.toInt < 0
    · rw [if_pos hneg, if_pos (.inr hneg)]
      rfl
    · rw [if_neg hneg, if_neg (not_or.2 ⟨hfreq, hneg⟩)]
      rfl

/-- A line with no empty field is read as its entry, unless a number is negative. -/
theorem parseEntry_entryText {e : Mntent} (h : e.Full) :
    parseEntry (skipSpaces (entryText e)) =
      if e.freq.toInt < 0 ∨ e.passno.toInt < 0 then none else some e := by
  unfold parseEntry entryText
  rw [nextField_skipSpaces h.fsname]
  dsimp only
  rw [nextField_skipSpaces h.dir]
  dsimp only
  rw [nextField_skipSpaces h.type]
  dsimp only
  rw [nextField_skipSpaces h.opts]
  dsimp only
  rw [← numbersText, skipSpaces_numbersText, parseNumbers_numbersText]
  split <;> rfl

/-- A line that is read as its entry has no empty field. -/
theorem full_of_parseEntry {e : Mntent} (h : parseEntry (skipSpaces (entryText e)) = some e) :
    e.Full := by
  unfold parseEntry entryText at h
  have hsolid₄ := (solid_numbersText e).cons_field e.opts
  have hsolid₃ := hsolid₄.cons_field e.type
  have hsolid₂ := hsolid₃.cons_field e.dir
  have hsolid₁ := hsolid₂.cons_field e.fsname
  -- each field is read from where the one before it ends, if that one is not empty
  dsimp only at h
  obtain ⟨⟨freq, passno⟩, -, he⟩ := Option.map_eq_some_iff.1 h
  have hfsname : e.fsname.1 ≠ [] := by
    rw [← congrArg Mntent.fsname he]
    exact hsolid₁
  have hdir : e.dir.1 ≠ [] := by
    rw [← congrArg Mntent.dir he]
    dsimp only
    rw [nextField_skipSpaces hfsname]
    exact hsolid₂
  have htype : e.type.1 ≠ [] := by
    rw [← congrArg Mntent.type he]
    dsimp only
    rw [nextField_skipSpaces hfsname]
    dsimp only
    rw [nextField_skipSpaces hdir]
    exact hsolid₃
  have hopts : e.opts.1 ≠ [] := by
    rw [← congrArg Mntent.opts he]
    dsimp only
    rw [nextField_skipSpaces hfsname]
    dsimp only
    rw [nextField_skipSpaces hdir]
    dsimp only
    rw [nextField_skipSpaces htype]
    exact hsolid₄
  exact ⟨hfsname, hdir, htype, hopts⟩

/-- An entry that is read back from its line: no field is empty, the line is not taken for a
comment, and no number is negative. -/
structure Mntent.Sound (e : Mntent) : Prop extends e.Full where
  comment : byteAt e.fsname 0 ≠ 35
  freq : 0 ≤ e.freq.toInt
  passno : 0 ≤ e.passno.toInt

theorem byteAt_mangle_eq_iff (x : Name) (rest : Name) (hx : x ≠ []) :
    byteAt (mangle x ++ rest) 0 = 35 ↔ byteAt x 0 = 35 := by
  cases x with
  | nil => exact absurd rfl hx
  | cons b x =>
      rw [mangle, List.flatMap_cons, List.append_assoc]
      change byteAt (escape b ++ _) 0 = 35 ↔ b = 35
      unfold escape
      split
      · rename_i hb
        have hne : (92 : UInt8) ≠ 35 := by decide
        refine iff_of_false hne ?_
        rintro rfl
        exact absurd hb (by decide)
      · exact Iff.rfl

/-- **What a line is read as.**  It is its entry exactly if the entry is sound. -/
theorem readText_entryText_iff (e : Mntent) : readText (entryText e) = .entry e ↔ e.Sound := by
  unfold readText
  dsimp only
  constructor
  · intro h
    split at h
    · exact nomatch h
    · rename_i hblank
      cases hparse : parseEntry (skipSpaces (entryText e)) with
      | none =>
          rw [hparse] at h
          exact nomatch h
      | some e' =>
          rw [hparse] at h
          obtain rfl := Line.entry.inj h
          have hfull := full_of_parseEntry hparse
          rw [parseEntry_entryText hfull] at hparse
          split at hparse
          · exact nomatch hparse
          · rename_i hneg
            rw [not_or, Int.not_lt, Int.not_lt] at hneg
            refine ⟨hfull, fun hcomment ↦ hblank (.inr ?_), hneg.1, hneg.2⟩
            unfold entryText
            rw [skipSpaces_field (fun b hb ↦ blank_of_mem_mangle hb)
              fun hnil ↦ hfull.fsname (mangle_eq_nil_iff.1 hnil)]
            exact (byteAt_mangle_eq_iff _ _ hfull.fsname).2 hcomment
  · intro h
    have hskip : skipSpaces (entryText e) = entryText e := by
      unfold entryText
      exact skipSpaces_field (fun b hb ↦ blank_of_mem_mangle hb)
        (fun hnil ↦ h.fsname (mangle_eq_nil_iff.1 hnil)) _
    have hneg : ¬ (e.freq.toInt < 0 ∨ e.passno.toInt < 0) :=
      not_or.2 ⟨Int.not_lt.2 h.freq, Int.not_lt.2 h.passno⟩
    rw [parseEntry_entryText h.toFull, if_neg hneg, hskip, if_neg ?_]
    rintro (hnil | hcomment)
    · unfold entryText at hnil
      exact List.append_ne_nil_of_right_ne_nil _ (List.cons_ne_nil _ _) hnil
    · unfold entryText at hcomment
      exact h.comment ((byteAt_mangle_eq_iff _ _ h.fsname).1 hcomment)

/-! ## Reading takes one line after the other -/

theorem takeWhile_ne_append {b : UInt8} {w : List UInt8} (hw : b ∉ w) (rest : List UInt8) :
    (w ++ b :: rest).takeWhile (· ≠ b) = w := by
  have hne : ∀ c ∈ w, decide (c ≠ b) = true := fun c hc ↦ decide_eq_true fun h ↦ hw (h ▸ hc)
  rw [List.takeWhile_append_of_pos hne, List.takeWhile_cons_of_neg (by simp), List.append_nil]

/-- A line that fits the buffer is read with its newline. -/
theorem fgets_line {line : List UInt8} (hline : 10 ∉ line) (hfits : line.length + 1 < bufSize)
    (rest : List UInt8) :
    fgets bufSize (line ++ 10 :: rest) = some (line ++ [10], rest, false) := by
  obtain ⟨n, hn⟩ : ∃ n, bufSize - 1 = line.length + (n + 1) :=
    ⟨bufSize - 1 - line.length - 1, by omega⟩
  have hchunk : (line ++ 10 :: rest).take (bufSize - 1) = line ++ 10 :: rest.take n := by
    rw [hn, List.take_length_add_append, List.take_succ_cons]
  have hdrop : (line ++ 10 :: rest).drop (line ++ [10]).length = rest := by
    have hleft := @List.drop_left _ (line ++ [10]) rest
    rwa [List.append_assoc, List.singleton_append] at hleft
  unfold fgets
  rw [if_neg (List.append_ne_nil_of_right_ne_nil _ (List.cons_ne_nil _ _)), hchunk]
  dsimp only
  rw [if_pos (List.mem_append_right _ List.mem_cons_self), takeWhile_ne_append hline, hdrop]

/-- Of a longer line the buffer is filled. -/
theorem fgets_part {rest : List UInt8} (hline : 10 ∉ rest.take (bufSize - 1))
    (hlong : bufSize - 1 ≤ rest.length) :
    ∃ rest', fgets bufSize rest = some (rest.take (bufSize - 1), rest', false) := by
  have hne : rest ≠ [] := by
    rintro rfl
    exact absurd hlong (by decide)
  unfold fgets
  rw [if_neg hne]
  dsimp only
  rw [if_neg hline, decide_eq_false (Nat.not_lt.2 hlong)]
  exact ⟨_, rfl⟩

/-- At the end of the file there need not be a newline. -/
theorem fgets_end {rest : List UInt8} (hne : rest ≠ []) (hline : 10 ∉ rest)
    (hfits : rest.length < bufSize - 1) : fgets bufSize rest = some (rest, [], true) := by
  unfold fgets
  rw [if_neg hne, List.take_of_length_le (Nat.le_of_lt hfits)]
  dsimp only
  rw [if_neg hline, List.drop_length, decide_eq_true hfits]

theorem lineText_line {line : List UInt8} (hline : 10 ∉ line) (hzero : 0 ∉ line) :
    lineText (line ++ [10]) false = some (chomp line) := by
  have hstr : cString (line ++ [10]) = line ++ [10] := by
    refine cString_of_notMem fun hmem ↦ ?_
    rcases List.mem_append.1 hmem with hmem | hmem
    · exact hzero hmem
    · exact absurd (List.mem_singleton.1 hmem) (by decide)
  unfold lineText
  dsimp only
  rw [hstr, if_pos (List.mem_append_right _ List.mem_cons_self), takeWhile_ne_append hline]

theorem lineText_part {buf : List UInt8} (hbuf : 10 ∉ cString buf) : lineText buf false = none := by
  unfold lineText
  dsimp only
  rw [if_neg hbuf, if_neg Bool.false_ne_true]

/-- Reading a line leaves less of the file. -/
theorem fgets_lt {rest buf rest' : List UInt8} {feof : Bool}
    (h : fgets bufSize rest = some (buf, rest', feof)) : rest'.length < rest.length := by
  unfold fgets at h
  split at h
  · exact nomatch h
  · rename_i hne
    have hpos : 0 < rest.length := List.length_pos_of_ne_nil hne
    dsimp only at h
    split at h
    · obtain rfl := (Prod.mk.inj (Prod.mk.inj (Option.some.inj h)).2).1
      rw [List.length_drop, List.length_append, List.length_singleton]
      omega
    · obtain rfl := (Prod.mk.inj (Prod.mk.inj (Option.some.inj h)).2).1
      rw [List.length_drop, List.length_take, bufSize]
      omega

/-- The rounds do not matter if there are enough of them for the file. -/
theorem nfsGetmntent_rounds {n m : Nat} {mfp : MntFile} (hn : mfp.rest.length < n)
    (hm : mfp.rest.length < m) : nfsGetmntent n mfp = nfsGetmntent m mfp := by
  induction n generalizing m mfp with
  | zero => exact absurd hn (Nat.not_lt_zero _)
  | succ n ih =>
      obtain ⟨m, rfl⟩ : ∃ k, m = k + 1 := Nat.exists_eq_succ_of_ne_zero (by omega)
      rw [nfsGetmntent, nfsGetmntent]
      split
      · rfl
      · cases hline : fgets bufSize mfp.rest with
        | none => rfl
        | some got =>
            obtain ⟨buf, rest, feof⟩ := got
            have hlt := fgets_lt hline
            have hnext : ∀ mfp' : MntFile, mfp'.rest = rest →
              nfsGetmntent n mfp' = nfsGetmntent m mfp' := by
              rintro mfp' hrest
              exact ih (by rw [hrest]; omega) (by rw [hrest]; omega)
            dsimp only
            cases (lineText buf feof).map readText with
            | none => exact hnext _ rfl
            | some line =>
                cases line with
                | blank => exact hnext _ rfl
                | bad => exact hnext _ rfl
                | entry e => rfl

theorem nfsGetmntent_lt {n : Nat} {mfp mfp' : MntFile} {e : Mntent}
    (h : nfsGetmntent n mfp = (some e, mfp')) : mfp'.rest.length < mfp.rest.length := by
  induction n generalizing mfp with
  | zero => exact nomatch h
  | succ n ih =>
      rw [nfsGetmntent] at h
      split at h
      · exact nomatch h
      · cases hline : fgets bufSize mfp.rest with
        | none =>
            rw [hline] at h
            exact nomatch h
        | some got =>
            obtain ⟨buf, rest, feof⟩ := got
            have hlt := fgets_lt hline
            rw [hline] at h
            dsimp only at h
            cases hread : (lineText buf feof).map readText with
            | none =>
                rw [hread] at h
                exact Nat.lt_trans (ih h) hlt
            | some line =>
                rw [hread] at h
                cases line with
                | blank => exact Nat.lt_trans (ih h) hlt
                | bad => exact Nat.lt_trans (ih h) hlt
                | entry e =>
                    obtain rfl := (Prod.mk.inj h).2
                    exact hlt

theorem readEntries_rounds {n m : Nat} {mfp : MntFile} (hn : mfp.rest.length < n)
    (hm : mfp.rest.length < m) : readEntries n mfp = readEntries m mfp := by
  induction n generalizing m mfp with
  | zero => exact absurd hn (Nat.not_lt_zero _)
  | succ n ih =>
      obtain ⟨m, rfl⟩ : ∃ k, m = k + 1 := Nat.exists_eq_succ_of_ne_zero (by omega)
      rw [readEntries, readEntries]
      cases hget : nfsGetmntent (mfp.rest.length + 1) mfp with
      | mk got mfp' =>
          cases got with
          | none => rfl
          | some e =>
              have hlt := nfsGetmntent_lt hget
              exact congrArg (e :: ·) (ih (by omega) (by omega))

/-- What is yielded from a place in the file on. -/
def entriesFrom (mfp : MntFile) : List Mntent := readEntries (mfp.rest.length + 1) mfp

/-- What is yielded if the next call of `nfs_getmntent` is known. -/
theorem entriesFrom_of_getmntent {n : Nat} {mfp : MntFile} (hn : mfp.rest.length < n) :
    entriesFrom mfp = match nfsGetmntent n mfp with
      | (none, _) => []
      | (some e, mfp) => e :: entriesFrom mfp := by
  unfold entriesFrom
  rw [readEntries, nfsGetmntent_rounds (Nat.lt_succ_self _) hn]
  cases hget : nfsGetmntent n mfp with
  | mk got mfp' =>
      cases got with
      | none => rfl
      | some e =>
          have hlt := nfsGetmntent_lt hget
          exact congrArg (e :: ·) (readEntries_rounds hlt (Nat.lt_succ_self _))

/-- **What one line yields.** -/
theorem entriesFrom_line {mfp : MntFile} {buf rest : List UInt8} {feof : Bool}
    (hgo : ¬ (mfp.errs ∨ errMax ≤ mfp.softerrs))
    (hline : fgets bufSize mfp.rest = some (buf, rest, feof)) :
    entriesFrom mfp = match (lineText buf feof).map readText with
      | none => entriesFrom { rest, errs := true, softerrs := mfp.softerrs + 1 }
      | some .blank => entriesFrom { mfp with rest }
      | some .bad => entriesFrom { mfp with rest, softerrs := mfp.softerrs + 1 }
      | some (.entry e) => e :: entriesFrom { mfp with rest } := by
  have hlt := fgets_lt hline
  rw [entriesFrom_of_getmntent (Nat.lt_succ_self _), nfsGetmntent, if_neg hgo, hline]
  dsimp only
  cases (lineText buf feof).map readText with
  | none => exact (entriesFrom_of_getmntent hlt).symm
  | some line =>
      cases line with
      | blank => exact (entriesFrom_of_getmntent hlt).symm
      | bad => exact (entriesFrom_of_getmntent hlt).symm
      | entry e => rfl

theorem entriesFrom_stop {mfp : MntFile} (h : mfp.errs ∨ errMax ≤ mfp.softerrs) :
    entriesFrom mfp = [] := by
  rw [entriesFrom_of_getmntent (Nat.lt_succ_self _), nfsGetmntent, if_pos h]

end Hsfs.Mtab
