import Hsfs.Mount.Settings

/-!
# Which options are known

`IsOption` says what the options of `hsi_nfs3_parse_options` look like.  An item is taken if it is
one of them and shorter than the buffer for items (`known_iff`).

`Says` is what the text of an option stands for, and `Applied` what the settings are when several of
them have been applied, field by field.

What becomes of an item that is not known depends on how it looks.  Without an equals sign, it makes
the whole parsing fail.  With one, or if it is too long, parsing stops there and reports success
(`parse_succeeds_iff`).
-/

namespace Hsfs.Mount

open Text

/-! ## The options -/

/-- The names of the options that take a number, or a value that begins like one. -/
def numberNames : List Name := (numOpts.map Prod.fst ++ ["mounthost", "namlen", "addr"]).map nameOf

/-- The names of the options that take a value that does not begin with a digit. -/
def wordNames : List Name := ["sec", "mounthost", "context"].map nameOf

/-- The values of `proto`. -/
def protocols : List Name := ["udp", "tcp"].map nameOf

/-- The names of the options that take no value, and can have `no` before them. -/
def flagNames : List Name := (ignoredOpts ++ ["tcp", "udp"]).map nameOf

/-- The options of `hsi_nfs3_parse_options`, with a value of the kind they require. -/
inductive IsOption : Name → Prop
  | number {opt value : Name} : opt ∈ numberNames → isdigit (byteAt value 0) = true →
      IsOption (opt ++ equals :: value)
  | word {opt value : Name} : opt ∈ wordNames → isdigit (byteAt value 0) = false →
      IsOption (opt ++ equals :: value)
  | proto {value : Name} : value ∈ protocols → IsOption (nameOf "proto" ++ equals :: value)
  | flag {opt : Name} : opt ∈ flagNames → IsOption opt
  | noFlag {opt : Name} : opt ∈ flagNames → IsOption (nameOf "no" ++ opt)

/-- An option that is shorter than the buffer for items. -/
def Known (opt : Name) : Prop := IsOption opt ∧ opt.length < cbufSize

/-! ## Chains of alternatives -/

section

variable {ε α : Type} {p : Prop} [Decidable p] {a : α} {x : Except ε α}

/-- A chain of alternatives succeeds if its first one applies, or the rest succeeds. -/
theorem exists_ite_ok_iff : (∃ b, (if p then .ok a else x) = .ok b) ↔ p ∨ ∃ b, x = .ok b := by
  split
  · next h => exact iff_of_true ⟨a, rfl⟩ (.inl h)
  · next h => exact (or_iff_right h).symm

/-- A chain of alternatives fails if its first one does not apply, and the rest fails. -/
theorem ite_ok_eq_error_iff {e : ε} :
    (if p then .ok a else x) = .error e ↔ ¬ p ∧ x = .error e := by
  split
  · next h => exact iff_of_false (by rintro ⟨⟩) fun h' ↦ h'.1 h
  · next h => exact (and_iff_right h).symm

end

/-! ## What is taken -/

theorem decodeNumber_ok_iff (opt value : Name) :
    (∃ dec, decodeNumber opt value = .ok dec) ↔ opt ∈ numberNames := by
  have hmem : opt ∈ numberNames ↔ (∃ o ∈ numOpts, opt = nameOf o.1) ∨
      opt = nameOf "mounthost" ∨ opt = nameOf "namlen" ∨ opt = nameOf "addr" := by
    simp only [numberNames, List.map_append, List.mem_append, List.map_map, List.mem_map,
      List.map_cons, List.map_nil, List.mem_cons, List.not_mem_nil, or_false, Function.comp_apply,
        eq_comm]
  rw [hmem]
  unfold decodeNumber
  cases hfind : numOpts.find? (opt = nameOf ·.1) with
  | some o =>
      have hname : opt = nameOf o.1 := by simpa using List.find?_some hfind
      have hopt : ∃ o ∈ numOpts, opt = nameOf o.1 := ⟨o, List.mem_of_find?_eq_some hfind, hname⟩
      refine iff_of_true ?_ (.inl hopt)
      obtain ⟨name, num⟩ := o
      cases num <;> exact ⟨_, rfl⟩
  | none =>
      have hnot : ¬ ∃ o ∈ numOpts, opt = nameOf o.1 := by
        rintro ⟨o, ho, heq⟩
        exact List.find?_eq_none.1 hfind o ho (decide_eq_true heq)
      rw [or_iff_right hnot]
      simp only [exists_ite_ok_iff, reduceCtorEq, exists_false, or_false]

theorem decodeWord_ok_iff (opt value : Name) : (∃ dec, decodeWord opt value = .ok dec) ↔
    opt ∈ wordNames ∨ opt = nameOf "proto" ∧ value ∈ protocols := by
  have hwords : opt ∈ wordNames ↔
      opt = nameOf "sec" ∨ opt = nameOf "mounthost" ∨ opt = nameOf "context" := by
    simp only [wordNames, List.map_cons, List.map_nil, List.mem_cons, List.not_mem_nil, or_false]
  have hprotocols : value ∈ protocols ↔ value = nameOf "udp" ∨ value = nameOf "tcp" := by
    simp only [protocols, List.map_cons, List.map_nil, List.mem_cons, List.not_mem_nil, or_false]
  have hproto : nameOf "proto" ∉ wordNames := by decide
  unfold decodeWord
  split
  · next h =>
      rw [or_iff_right (h ▸ hproto), and_iff_right h, hprotocols]
      simp only [exists_ite_ok_iff, reduceCtorEq, exists_false, or_false]
  · next h =>
      rw [or_iff_left (fun h' ↦ h h'.1), hwords]
      simp only [exists_ite_ok_iff, reduceCtorEq, exists_false, or_false]

/-- A flag has no `no` before it. -/
theorem take_two_ne_no {opt : Name} (h : opt ∈ flagNames) : opt.take 2 ≠ nameOf "no" := by
  have hall : ∀ name ∈ flagNames, name.take 2 ≠ nameOf "no" := by decide
  exact hall opt h

/-- An item without the `no` that it may have before it. -/
def flagOf (opt : Name) : Name := if opt.take 2 ≠ nameOf "no" then opt else opt.drop 2

theorem flagOf_mem_iff (opt : Name) :
    flagOf opt ∈ flagNames ↔ opt ∈ flagNames ∨ ∃ flag ∈ flagNames, opt = nameOf "no" ++ flag := by
  unfold flagOf
  split
  · next hno =>
      refine ⟨.inl, ?_⟩
      rintro (h | ⟨flag, -, rfl⟩)
      · exact h
      · exact absurd rfl hno
  · next hno =>
      have hno := not_not.1 hno
      have hdrop : opt = nameOf "no" ++ opt.drop 2 := by rw [← hno, List.take_append_drop]
      rw [or_iff_right fun h ↦ take_two_ne_no h hno]
      constructor
      · exact fun h ↦ ⟨_, h, hdrop⟩
      · rintro ⟨flag, hflag, heq⟩
        rw [heq]
        exact hflag

theorem decodeFlag_ok_iff (opt : Name) :
    (∃ dec, decodeFlag opt = .ok dec) ↔ flagOf opt ∈ flagNames := by
  have hmem : flagOf opt ∈ flagNames ↔ (∃ name ∈ ignoredOpts, flagOf opt = nameOf name) ∨
      flagOf opt = nameOf "tcp" ∨ flagOf opt = nameOf "udp" := by
    simp only [flagNames, List.map_append, List.mem_append, List.mem_map, List.map_cons,
      List.map_nil, List.mem_cons, List.not_mem_nil, or_false, eq_comm]
  have hflag : (if decide (opt.take 2 ≠ nameOf "no") = true then opt else opt.drop 2) =
    flagOf opt :=
    if_congr decide_eq_true_iff rfl rfl
  rw [hmem]
  unfold decodeFlag
  dsimp only
  rw [hflag]
  simp only [exists_ite_ok_iff, reduceCtorEq, exists_false, or_false]

/-! ## Items with and without a value -/

/-- A name without an equals sign ends at the first one. -/
theorem takeWhile_append_equals {opt : Name} (h : equals ∉ opt) (value : Name) :
    (opt ++ equals :: value).takeWhile (· ≠ equals) = opt := by
  have hopt : ∀ b ∈ opt, decide (b ≠ equals) = true := fun b hb ↦
    decide_eq_true fun heq ↦ h (heq ▸ hb)
  rw [List.takeWhile_append_of_pos hopt]
  exact List.append_nil opt

/-- An item with an equals sign is a name and a value. -/
theorem eq_append_equals {opt : Name} (h : equals ∈ opt) : ∃ name value, equals ∉ name ∧
    opt = name ++ equals :: value := by
  induction opt with
  | nil => exact absurd h List.not_mem_nil
  | cons b opt ih =>
      by_cases hb : b = equals
      · exact ⟨[], opt, List.not_mem_nil, by rw [hb]; rfl⟩
      · obtain ⟨name, value, hname, rfl⟩ := ih ((List.mem_cons.1 h).resolve_left (Ne.symm hb))
        refine ⟨b :: name, value, ?_, rfl⟩
        rw [List.mem_cons, not_or]
        exact ⟨Ne.symm hb, hname⟩

theorem decodeItem_append_equals {opt : Name} (h : equals ∉ opt) {value : Name}
    (hlen : (opt ++ equals :: value).length < cbufSize) : decodeItem (opt ++ equals :: value) =
      if isdigit (byteAt value 0) then decodeNumber opt value else decodeWord opt value := by
  have hdrop : (opt ++ equals :: value).drop (opt.length + 1) = value := by
    rw [← List.drop_drop, List.drop_left]
    rfl
  rw [decodeItem, if_neg (Nat.not_le.2 hlen),
    if_pos (List.mem_append_right _ List.mem_cons_self)]
  dsimp only
  rw [takeWhile_append_equals h, hdrop]

theorem decodeItem_of_notMem {opt : Name} (h : equals ∉ opt) (hlen : opt.length < cbufSize) :
    decodeItem opt = decodeFlag opt := by
  rw [decodeItem, if_neg (Nat.not_le.2 hlen), if_neg h]

/-- No name of an option has an equals sign. -/
theorem equals_notMem {opt : Name}
    (h : opt ∈ numberNames ∨ opt ∈ wordNames ∨ opt = nameOf "proto" ∨ opt ∈ flagNames) :
    equals ∉ opt := by
  have hnumber : ∀ name ∈ numberNames, equals ∉ name := by decide
  have hword : ∀ name ∈ wordNames, equals ∉ name := by decide
  have hflag : ∀ name ∈ flagNames, equals ∉ name := by decide
  rcases h with h | h | rfl | h
  · exact hnumber opt h
  · exact hword opt h
  · decide
  · exact hflag opt h

/-- The name and the value of an item are determined. -/
theorem append_equals_inj {opt opt' value value' : Name} (h : equals ∉ opt) (h' : equals ∉ opt')
    (heq : opt ++ equals :: value = opt' ++ equals :: value') : opt = opt' ∧ value = value' := by
  have hopt : opt = opt' := by
    rw [← takeWhile_append_equals h value, heq, takeWhile_append_equals h']
  subst hopt
  exact ⟨rfl, (List.cons.inj (List.append_cancel_left heq)).2⟩

/-- An option with a value has a name that takes such a value. -/
theorem isOption_append_equals_iff {opt : Name} (h : equals ∉ opt) (value : Name) :
    IsOption (opt ++ equals :: value) ↔ if isdigit (byteAt value 0) then opt ∈ numberNames
      else opt ∈ wordNames ∨ opt = nameOf "proto" ∧ value ∈ protocols := by
  have hprotocols : ∀ value ∈ protocols, isdigit (byteAt value 0) = false := by decide
  constructor
  · intro hopt
    have hequals : equals ∈ opt ++ equals :: value := List.mem_append_right _ List.mem_cons_self
    generalize htext : opt ++ equals :: value = text at hopt hequals
    cases hopt with
    | number hname hdigit =>
        obtain ⟨rfl, rfl⟩ := append_equals_inj h (equals_notMem (.inl hname)) htext
        rwa [if_pos hdigit]
    | word hname hdigit =>
        obtain ⟨rfl, rfl⟩ := append_equals_inj h (equals_notMem (.inr (.inl hname))) htext
        rw [hdigit, if_neg Bool.false_ne_true]
        exact .inl hname
    | proto hvalue =>
        obtain ⟨rfl, rfl⟩ := append_equals_inj h (equals_notMem (.inr (.inr (.inl rfl)))) htext
        rw [hprotocols _ hvalue, if_neg Bool.false_ne_true]
        exact .inr ⟨rfl, hvalue⟩
    | flag hname => exact absurd hequals (equals_notMem (.inr (.inr (.inr hname))))
    | noFlag hname =>
        rcases List.mem_append.1 hequals with hno | hmem
        · exact absurd hno (by decide)
        · exact absurd hmem (equals_notMem (.inr (.inr (.inr hname))))
  · intro hname
    split at hname
    · next hdigit => exact .number hname hdigit
    · next hdigit =>
        rcases hname with hname | ⟨rfl, hvalue⟩
        · exact .word hname (Bool.eq_false_of_not_eq_true hdigit)
        · exact .proto hvalue

/-- An option without a value is a flag. -/
theorem isOption_iff_of_notMem {opt : Name} (h : equals ∉ opt) :
    IsOption opt ↔ flagOf opt ∈ flagNames := by
  have hmem {name value : Name} : equals ∈ name ++ equals :: value :=
    List.mem_append_right _ List.mem_cons_self
  rw [flagOf_mem_iff]
  constructor
  · intro hopt
    cases hopt with
    | number _ _ => exact absurd hmem h
    | word _ _ => exact absurd hmem h
    | proto _ => exact absurd hmem h
    | flag hname => exact .inl hname
    | noFlag hname => exact .inr ⟨_, hname, rfl⟩
  · rintro (hname | ⟨flag, hname, rfl⟩)
    · exact .flag hname
    · exact .noFlag hname

/-- **The items that are taken are the known ones.** -/
theorem known_iff (opt : Name) : Known opt ↔ ∃ dec, decodeItem opt = .ok dec := by
  by_cases hlen : opt.length < cbufSize
  · rw [Known, and_iff_left hlen]
    by_cases hequals : equals ∈ opt
    · obtain ⟨name, value, hname, rfl⟩ := eq_append_equals hequals
      rw [isOption_append_equals_iff hname, decodeItem_append_equals hname hlen]
      split
      · exact (decodeNumber_ok_iff name value).symm
      · exact (decodeWord_ok_iff name value).symm
    · rw [isOption_iff_of_notMem hequals, decodeItem_of_notMem hequals hlen, decodeFlag_ok_iff]
  · refine iff_of_false (fun h ↦ hlen h.2) ?_
    rintro ⟨dec, hdec⟩
    rw [decodeItem, if_pos (Nat.le_of_not_lt hlen)] at hdec
    cases hdec

instance Known.decidable : DecidablePred Known := fun opt ↦
  decidable_of_iff ((decodeItem opt).toOption.isSome = true) <| by
    rw [known_iff]
    cases decodeItem opt with
    | error e => exact iff_of_false Bool.false_ne_true (by rintro ⟨dec, ⟨⟩⟩)
    | ok dec => exact iff_of_true rfl ⟨dec, rfl⟩

/-! ## How an item is refused -/

theorem eq_badParameter_of_decodeNumber {opt value : Name} {e : Reject}
    (h : decodeNumber opt value = .error e) : e = .badParameter := by
  unfold decodeNumber at h
  split at h
  · cases h
  · cases h
  · simp only [ite_ok_eq_error_iff] at h
    exact (Except.error.inj h.2.2.2).symm

theorem eq_badParameter_of_decodeWord {opt value : Name} {e : Reject}
    (h : decodeWord opt value = .error e) : e = .badParameter := by
  unfold decodeWord at h
  split at h
  · simp only [ite_ok_eq_error_iff] at h
    exact (Except.error.inj h.2.2).symm
  · simp only [ite_ok_eq_error_iff] at h
    exact (Except.error.inj h.2.2.2).symm

theorem eq_outBad_of_decodeFlag {opt : Name} {e : Reject} (h : decodeFlag opt = .error e) :
    e = .outBad := by
  unfold decodeFlag at h
  simp only [ite_ok_eq_error_iff] at h
  exact (Except.error.inj h.2.2.2).symm

/-- **Only an item without an equals sign that is not too long makes the parsing fail.** -/
theorem eq_outBad_iff {opt : Name} {e : Reject} (h : decodeItem opt = .error e) :
    e = .outBad ↔ equals ∉ opt ∧ opt.length < cbufSize := by
  have hbad : Reject.badParameter ≠ .outBad := by decide
  by_cases hlen : opt.length < cbufSize
  · rw [and_iff_left hlen]
    by_cases hequals : equals ∈ opt
    · refine iff_of_false ?_ (not_not_intro hequals)
      obtain ⟨name, value, hname, rfl⟩ := eq_append_equals hequals
      rw [decodeItem_append_equals hname hlen] at h
      split at h
      · rwa [eq_badParameter_of_decodeNumber h]
      · rwa [eq_badParameter_of_decodeWord h]
    · rw [decodeItem_of_notMem hequals hlen] at h
      exact iff_of_true (eq_outBad_of_decodeFlag h) hequals
  · refine iff_of_false ?_ fun h' ↦ hlen h'.2
    rw [decodeItem, if_pos (Nat.le_of_not_lt hlen)] at h
    rwa [← Except.error.inj h]

/-! ## What is applied -/

/-- What the text of an option stands for. -/
inductive Says : Name → Item → Prop
  | number {name : String} {opt : NumOpt} {value : Name} : (name, opt) ∈ numOpts →
      isdigit (byteAt value 0) = true →
      Says (nameOf name ++ equals :: value) (.num opt (decimal value))
  | mounthost {value : Name} :
      Says (nameOf "mounthost" ++ equals :: value) (.mounthost (hostOf value))
  | protoUdp : Says (nameOf "proto=udp") (.transport .protoUdp)
  | protoTcp : Says (nameOf "proto=tcp") (.transport .protoTcp)
  | udp : Says (nameOf "udp") (.transport .udp)
  | noudp : Says (nameOf "noudp") (.transport .noudp)
  | tcp : Says (nameOf "tcp") (.transport .tcp)
  | notcp : Says (nameOf "notcp") (.transport .notcp)
  /-- A number that is not used. -/
  | noNumber {name : String} {value : Name} : name ∈ ["namlen", "addr"] →
      isdigit (byteAt value 0) = true → Says (nameOf name ++ equals :: value) .ignored
  /-- A word that is not used. -/
  | noWord {name : String} {value : Name} : name ∈ ["sec", "context"] →
      isdigit (byteAt value 0) = false → Says (nameOf name ++ equals :: value) .ignored
  | flag {name : String} : name ∈ ignoredOpts → Says (nameOf name) .ignored
  | noFlag {name : String} : name ∈ ignoredOpts → Says (nameOf "no" ++ nameOf name) .ignored

/-- A successful chain of alternatives: its first one applies, or the rest is successful. -/
theorem ite_ok_eq_ok {ε α : Type} {p : Prop} [Decidable p] {a b : α} {x : Except ε α}
    (h : (if p then .ok a else x) = .ok b) : p ∧ a = b ∨ x = .ok b := by
  split at h
  · next hp => exact .inl ⟨hp, Except.ok.inj h⟩
  · exact .inr h

theorem says_of_decodeNumber {opt value : Name} {dec : Decoded}
    (hdigit : isdigit (byteAt value 0) = true) (h : decodeNumber opt value = .ok dec) :
    Says (opt ++ equals :: value) dec.item := by
  unfold decodeNumber at h
  split at h
  · next hfind =>
      have hname := List.find?_some hfind
      rw [of_decide_eq_true hname]
      obtain rfl := Except.ok.inj h
      exact .number (List.mem_of_find?_eq_some hfind) hdigit
  · next hfind =>
      have hname := List.find?_some hfind
      rw [of_decide_eq_true hname]
      obtain rfl := Except.ok.inj h
      exact .number (List.mem_of_find?_eq_some hfind) hdigit
  · rcases ite_ok_eq_ok h with ⟨rfl, rfl⟩ | h
    · exact .mounthost
    rcases ite_ok_eq_ok h with ⟨rfl, rfl⟩ | h
    · exact .noNumber (by decide) hdigit
    rcases ite_ok_eq_ok h with ⟨rfl, rfl⟩ | h
    · exact .noNumber (by decide) hdigit
    · cases h

theorem says_of_decodeWord {opt value : Name} {dec : Decoded}
    (hdigit : isdigit (byteAt value 0) = false) (h : decodeWord opt value = .ok dec) :
    Says (opt ++ equals :: value) dec.item := by
  unfold decodeWord at h
  split at h
  · next hopt =>
      subst hopt
      rcases ite_ok_eq_ok h with ⟨rfl, rfl⟩ | h
      · exact .protoUdp
      rcases ite_ok_eq_ok h with ⟨rfl, rfl⟩ | h
      · exact .protoTcp
      · cases h
  · rcases ite_ok_eq_ok h with ⟨rfl, rfl⟩ | h
    · exact .noWord (by decide) hdigit
    rcases ite_ok_eq_ok h with ⟨rfl, rfl⟩ | h
    · exact .mounthost
    rcases ite_ok_eq_ok h with ⟨rfl, rfl⟩ | h
    · exact .noWord (by decide) hdigit
    · cases h

theorem says_of_decodeFlag {opt : Name} {dec : Decoded} (h : decodeFlag opt = .ok dec) :
    Says opt dec.item := by
  unfold decodeFlag at h
  by_cases hno : opt.take 2 = nameOf "no"
  · have hopt : opt = nameOf "no" ++ opt.drop 2 := by rw [← hno, List.take_append_drop]
    have hval : decide (opt.take 2 ≠ nameOf "no") = false := decide_eq_false (not_not_intro hno)
    simp only [hval, Bool.false_eq_true, if_false] at h
    rw [hopt]
    generalize opt.drop 2 = flag at h
    rcases ite_ok_eq_ok h with ⟨⟨name, hname, rfl⟩, rfl⟩ | h
    · exact .noFlag hname
    rcases ite_ok_eq_ok h with ⟨rfl, rfl⟩ | h
    · exact .notcp
    rcases ite_ok_eq_ok h with ⟨rfl, rfl⟩ | h
    · exact .noudp
    · cases h
  · have hval : decide (opt.take 2 ≠ nameOf "no") = true := decide_eq_true hno
    simp only [hval, if_true] at h
    rcases ite_ok_eq_ok h with ⟨⟨name, hname, rfl⟩, rfl⟩ | h
    · exact .flag hname
    rcases ite_ok_eq_ok h with ⟨rfl, rfl⟩ | h
    · exact .tcp
    rcases ite_ok_eq_ok h with ⟨rfl, rfl⟩ | h
    · exact .udp
    · cases h

/-- **What an item is taken for is what its text stands for.** -/
theorem says_of_decodeItem {opt : Name} {dec : Decoded} (h : decodeItem opt = .ok dec) :
    Says opt dec.item := by
  have hlen : opt.length < cbufSize := ((known_iff opt).2 ⟨dec, h⟩).2
  by_cases hequals : equals ∈ opt
  · obtain ⟨name, value, hname, rfl⟩ := eq_append_equals hequals
    rw [decodeItem_append_equals hname hlen] at h
    split at h
    · next hdigit => exact says_of_decodeNumber hdigit h
    · next hdigit => exact says_of_decodeWord (Bool.eq_false_of_not_eq_true hdigit) h
  · rw [decodeItem_of_notMem hequals hlen] at h
    exact says_of_decodeFlag h

theorem says_given {opts : List Name} (hknown : ∀ opt ∈ opts, Known opt) :
    List.Forall₂ Says opts (given opts) := by
  induction opts with
  | nil => exact .nil
  | cons opt opts ih =>
      obtain ⟨dec, hdec⟩ := (known_iff opt).1 (hknown opt List.mem_cons_self)
      rw [given_cons hdec]
      exact .cons (says_of_decodeItem hdec) (ih fun o ho ↦ hknown o (List.mem_cons_of_mem opt ho))

/-- The settings `data` are `d` with the items `gave` applied: a field is what the latest item that
gives a value for it says, and what it was if there is none.  In the flags, this is the bit
`NFS_MOUNT_TCP`. -/
structure Applied (resolve : Resolver) (gave : List Item) (d data : MountData) : Prop where
  numbers : ∀ x : Setting,
    x.read data = ((latest (Item.gives x) gave).map x.stored).getD (x.read d)
  mountvers : data.mnt.pmap.vers =
    ((latest Item.mountvers gave).map fun v ↦ UInt64.ofInt (atoi v)).getD d.mnt.pmap.vers
  nfsvers : data.nfs.pmap.vers =
    ((latest Item.nfsvers gave).map fun v ↦ UInt64.ofInt (atoi v)).getD d.nfs.pmap.vers
  mntProt : data.mnt.pmap.prot =
    ((latest Item.requests gave).map Transport.prot).getD d.mnt.pmap.prot
  nfsProt : data.nfs.pmap.prot =
    ((latest Item.requests gave).map Transport.prot).getD d.nfs.pmap.prot
  flags : data.flags = setTcp (latest Item.bit gave) d.flags
  host : ∀ host, latest Item.host gave = some host → ∃ addr, resolve host = .ok addr ∧
    data.mnt.saddr = { d.mnt.saddr with family := 2, addr := addr }
  noHost : latest Item.host gave = none → data.mnt.saddr = d.mnt.saddr
  bsize : data.bsize = d.bsize
  bsizeBits : data.bsizeBits = d.bsizeBits
  addr : data.addr = d.addr
  nfsSaddr : data.nfs.saddr = d.nfs.saddr

/-- Every one of the items says something, and all of it has been applied to `d`. -/
def AllApplied (resolve : Resolver) (opts : List Name) (d data : MountData) : Prop :=
  ∃ gave : List Item, List.Forall₂ Says opts gave ∧ Applied resolve gave d data

/-- What no item changes. -/
theorem Item.store_rest (s : Parsing) (item : Item) :
    (item.store s).data.mnt.saddr = s.data.mnt.saddr ∧
      (item.store s).data.bsize = s.data.bsize ∧
      (item.store s).data.bsizeBits = s.data.bsizeBits ∧
      (item.store s).data.nfs.saddr = s.data.nfs.saddr := by
  cases item with
  | num opt val => cases opt <;> exact ⟨rfl, rfl, rfl, rfl⟩
  | mounthost host => exact ⟨rfl, rfl, rfl, rfl⟩
  | transport t => cases t <;> exact ⟨rfl, rfl, rfl, rfl⟩
  | ignored => exact ⟨rfl, rfl, rfl, rfl⟩

/-- All of the items are applied when they have been stored, and the host has been looked up. -/
theorem applied_foldl {resolve : Resolver} {gave : List Item} {d : MountData} {saddr : SockaddrIn}
    (hhost : ∀ host, latest Item.host gave = some host → ∃ addr, resolve host = .ok addr ∧
      saddr = { d.mnt.saddr with family := 2, addr := addr })
    (hnone : latest Item.host gave = none → saddr = d.mnt.saddr) :
    Applied resolve gave d
      ((gave.foldl Item.store ⟨d, none, []⟩).data.withMntSaddr saddr) where
  numbers x := by
    refine Eq.trans ?_ (read_given x.read (read_store x) gave ⟨d, none, []⟩)
    cases x <;> rfl
  mntProt := read_given (·.mnt.pmap.prot) (fun s item ↦ (fields_store s item).1) gave _
  nfsProt := read_given (·.nfs.pmap.prot) (fun s item ↦ (fields_store s item).2.1) gave _
  mountvers := read_given (·.mnt.pmap.vers) (fun s item ↦ (fields_store s item).2.2.1) gave _
  nfsvers := read_given (·.nfs.pmap.vers) (fun s item ↦ (fields_store s item).2.2.2.1) gave _
  flags := flags_given gave _
  host := hhost
  noHost := hnone
  bsize := kept_given (·.bsize) (fun s item ↦ (item.store_rest s).2.1) gave _
  bsizeBits := kept_given (·.bsizeBits) (fun s item ↦ (item.store_rest s).2.2.1) gave _
  addr := kept_given (·.addr) (fun s item ↦ (fields_store s item).2.2.2.2) gave _
  nfsSaddr := kept_given (·.nfs.saddr) (fun s item ↦ (item.store_rest s).2.2.2) gave _

/-! ## Parsing -/

/-- The text that an item adds to the new options. -/
def textOf (opt : Name) : Name := ((decodeItem opt).toOption.bind Decoded.cbuf).getD []

/-- The options as they are put together again. -/
def reassembled (opts : List Name) : Name := opts.flatMap textOf

theorem textOf_of_ok {opt : Name} {dec : Decoded} (h : decodeItem opt = .ok dec) :
    textOf opt = dec.cbuf.getD [] := by
  rw [textOf, h]
  rfl

theorem reassembled_cons (opt : Name) (opts : List Name) :
    reassembled (opt :: opts) = textOf opt ++ reassembled opts := List.flatMap_cons

/-- Parsing goes through the items that are known, as long as their text fits. -/
theorem forM_known {optSize : Nat} {front : List Name} (hknown : ∀ opt ∈ front, Known opt)
    (rest : List Name) {s : Parsing}
    (hlen : s.newOpts.length + (reassembled front).length < optSize) :
    ((front ++ rest).forM (parseItem optSize)).run s = (rest.forM (parseItem optSize)).run
      { (given front).foldl Item.store s with newOpts := s.newOpts ++ reassembled front } := by
  induction front generalizing s with
  | nil =>
      change _ = (rest.forM (parseItem optSize)).run { s with newOpts := s.newOpts ++ [] }
      rw [List.append_nil]
      rfl
  | cons opt front ih =>
      have ih := @ih fun o ho ↦ hknown o (List.mem_cons_of_mem opt ho)
      obtain ⟨⟨item, cbuf⟩, hdec⟩ := (known_iff opt).1 (hknown opt List.mem_cons_self)
      rw [reassembled_cons, textOf_of_ok hdec, List.length_append] at hlen
      rw [reassembled_cons, textOf_of_ok hdec, given_cons hdec, List.cons_append]
      cases cbuf with
      | none =>
          rw [forM_run_ok (parseItem_run_none hdec)]
          rw [← item.newOpts_store s] at hlen ⊢
          exact ih (Nat.lt_of_le_of_lt (Nat.add_le_add_left (Nat.le_add_left _ _) _) hlen)
      | some cbuf =>
          change s.newOpts.length + (cbuf.length + _) < _ at hlen
          have hrun := parseItem_run_some optSize s hdec
          rw [if_neg (by omega)] at hrun
          rw [forM_run_ok hrun, ih (by rw [List.length_append]; omega), foldl_store_newOpts,
            List.append_assoc]
          rfl

/-- The host is that of the latest item with one. -/
theorem mounthost_given (gave : List Item) (s : Parsing) :
    (gave.foldl Item.store s).mounthost = ((latest Item.host gave).map some).getD s.mounthost :=
  read_foldl (fun s item ↦ by cases item <;> rfl) gave s

/-- **Parsing succeeds if all items are known**, and then all of them are applied. -/
theorem parse_of_known {resolve : Resolver} {optSize : Nat} {oldOpts : Name} (hzero : 0 ∉ oldOpts)
    (hlen : (reassembled (items oldOpts)).length < optSize)
    (hhost : ∀ host, latest Item.host (given (items oldOpts)) = some host →
      ∃ addr, resolve host = .ok addr)
    (hknown : ∀ opt ∈ items oldOpts, Known opt) (d : MountData) :
    (hsiNfs3ParseOptions resolve optSize oldOpts d).1 = 0 ∧
      AllApplied resolve (items oldOpts) d
        (hsiNfs3ParseOptions resolve optSize oldOpts d).2.data := by
  have hbudget : (⟨d, none, []⟩ : Parsing).newOpts.length + (reassembled (items oldOpts)).length <
      optSize := by rwa [List.length_nil, Nat.zero_add]
  have hrun := forM_known hknown [] hbudget
  rw [List.append_nil] at hrun
  replace hrun : _ = EStateM.Result.ok () _ := hrun
  have hend := mounthost_given (given (items oldOpts)) ⟨d, none, []⟩
  have hsaddr : (((given (items oldOpts)).foldl Item.store ⟨d, none, []⟩).data.mnt.saddr =
      d.mnt.saddr) := kept_given (·.mnt.saddr) (fun s item ↦ (item.store_rest s).1) _ _
  unfold hsiNfs3ParseOptions AllApplied
  rw [forEachItem_eq _ hzero, hrun]
  dsimp only
  cases hlatest : latest Item.host (given (items oldOpts)) with
  | none =>
      rw [hlatest] at hend
      replace hend : Parsing.mounthost _ = none := hend
      rw [hend]
      refine ⟨rfl, _, says_given hknown, applied_foldl (fun host hhost ↦ ?_) fun _ ↦ hsaddr⟩
      rw [hlatest] at hhost
      exact absurd hhost.symm (Option.some_ne_none host)
  | some host =>
      rw [hlatest] at hend
      replace hend : Parsing.mounthost _ = some host := hend
      obtain ⟨addr, haddr⟩ := hhost host hlatest
      have hlookup (saddr : SockaddrIn) : hsiGethostbyname resolve host saddr =
          (0, { saddr with family := 2, addr := addr }) := by
        rw [hsiGethostbyname, haddr]
      rw [hend]
      dsimp only
      rw [hlookup, hsaddr]
      refine ⟨rfl, _, says_given hknown, applied_foldl (fun host' hhost ↦ ?_) fun hnone ↦ ?_⟩
      · obtain rfl := Option.some.inj (hlatest.symm.trans hhost)
        exact ⟨addr, haddr, rfl⟩
      · exact absurd (hlatest.symm.trans hnone) (Option.some_ne_none host)

/-- **How parsing ends at an item that is not known.** -/
theorem parse_of_unknown {resolve : Resolver} {optSize : Nat} {oldOpts : Name} (hzero : 0 ∉ oldOpts)
    {front rest : List Name} {opt : Name} (hitems : items oldOpts = front ++ opt :: rest)
    (hlen : (reassembled (items oldOpts)).length < optSize) (hfront : ∀ opt ∈ front, Known opt)
    (hopt : ¬ Known opt) (d : MountData) :
    (hsiNfs3ParseOptions resolve optSize oldOpts d).1 ≠ 0 ↔
      equals ∉ opt ∧ opt.length < cbufSize := by
  have hbudget : (reassembled front).length < optSize := by
    rw [hitems, reassembled, List.flatMap_append, List.length_append] at hlen
    exact Nat.lt_of_le_of_lt (Nat.le_add_right _ _) hlen
  cases hdec : decodeItem opt with
  | ok dec => exact absurd ((known_iff opt).2 ⟨dec, hdec⟩) hopt
  | error e =>
      rw [← eq_outBad_iff hdec]
      unfold hsiNfs3ParseOptions
      rw [forEachItem_eq _ hzero, hitems,
        forM_known hfront _ (by rwa [List.length_nil, Nat.zero_add]),
        forM_run_error (parseItem_run_error hdec)]
      cases e with
      | badParameter => exact iff_of_false (fun hne ↦ hne rfl) (by decide)
      | outBad => exact iff_of_true Int.one_ne_zero rfl

/-- The first item that is not known, if there is one, is one that makes parsing fail: it has no
equals sign and is shorter than the buffer for items. -/
def FirstUnknownFails (opts : List Name) : Prop :=
  ∀ front opt rest, opts = front ++ opt :: rest → (∀ o ∈ front, Known o) → ¬ Known opt →
    equals ∉ opt ∧ opt.length < cbufSize

/-- Items that are not all known have a first one that is not. -/
theorem exists_first_unknown {opts : List Name} (h : ¬ ∀ opt ∈ opts, Known opt) :
    ∃ front opt rest, opts = front ++ opt :: rest ∧ (∀ o ∈ front, Known o) ∧ ¬ Known opt := by
  induction opts with
  | nil => exact absurd (fun opt hopt ↦ absurd hopt List.not_mem_nil) h
  | cons opt opts ih =>
      by_cases hopt : Known opt
      · have hrest : ¬ ∀ o ∈ opts, Known o := fun hall ↦ h (List.forall_mem_cons.2 ⟨hopt, hall⟩)
        obtain ⟨front, bad, rest, rfl, hfront, hbad⟩ := ih hrest
        exact ⟨opt :: front, bad, rest, rfl, List.forall_mem_cons.2 ⟨hopt, hfront⟩, hbad⟩
      · exact ⟨[], opt, opts, rfl, fun _ ho ↦ absurd ho List.not_mem_nil, hopt⟩

/-- **When success means that all options are known.**  For a string with an even number of quotes,
whose options fit the buffer when they are put together again, and whose `mounthost` resolves:
parsing succeeds just if all items are known, and then applies them all, if and only if the first
item that is not known, if there is one, has no equals sign and is shorter than the buffer for
items. -/
theorem parse_succeeds_iff (resolve : Resolver) (optSize : Nat) (oldOpts : Name) (d : MountData)
    (hzero : 0 ∉ oldOpts) (hquotes : Even (oldOpts.count quote)) :
    let opts := dropEmptyLast (pieces comma quote false oldOpts)
    (reassembled opts).length < optSize →
    (∀ host, latest Item.host (given opts) = some host → ∃ addr, resolve host = .ok addr) →
    let r := hsiNfs3ParseOptions resolve optSize oldOpts d
    (((r.1 = 0 ↔ ∀ opt ∈ opts, Known opt) ∧ (r.1 = 0 → AllApplied resolve opts d r.2.data)) ↔
      FirstUnknownFails opts) := by
  intro opts hlen hhost r
  have hitems : items oldOpts = opts :=
    items_eq_pieces ((quotedAfter_eq_false_iff quote oldOpts).2 hquotes)
  rw [← hitems] at hlen hhost ⊢
  constructor
  · rintro ⟨hsucceeds, -⟩ front opt rest hsplit hfront hopt
    rw [← parse_of_unknown hzero hsplit hlen hfront hopt d]
    intro hok
    refine hopt (hsucceeds.1 hok opt ?_)
    rw [hsplit]
    exact List.mem_append_right _ List.mem_cons_self
  · intro hfails
    by_cases hknown : ∀ opt ∈ items oldOpts, Known opt
    · obtain ⟨hok, happlied⟩ := parse_of_known hzero hlen hhost hknown d
      exact ⟨iff_of_true hok hknown, fun _ ↦ happlied⟩
    · obtain ⟨front, opt, rest, hsplit, hfront, hopt⟩ := exists_first_unknown hknown
      have hbad : r.1 ≠ 0 :=
        (parse_of_unknown hzero hsplit hlen hfront hopt d).2 (hfails _ _ _ hsplit hfront hopt)
      exact ⟨iff_of_false hbad hknown, fun hok ↦ absurd hok hbad⟩

/-- Options that are all known, with a host. -/
def knownOptions : Name := nameOf "rsize=8192,mounthost=srv,noudp"

theorem parse_succeeds_iff_known :
    let opts := dropEmptyLast (pieces comma quote false knownOptions)
    let r := hsiNfs3ParseOptions (fun _ ↦ .ok 7) 1024 knownOptions (.start 0 ⟨0, 0, 0⟩)
    (r.1 = 0 ↔ ∀ opt ∈ opts, Known opt) ∧
      (r.1 = 0 → AllApplied (fun _ ↦ .ok 7) opts (.start 0 ⟨0, 0, 0⟩) r.2.data) := by
  have hknown : ∀ opt ∈ dropEmptyLast (pieces comma quote false knownOptions), Known opt := by
    decide
  refine (parse_succeeds_iff (fun _ ↦ .ok 7) 1024 knownOptions (.start 0 ⟨0, 0, 0⟩) (by decide)
    (by decide) (by decide) (fun _ _ ↦ ⟨7, rfl⟩)).2 ?_
  intro front opt rest hsplit _ hopt
  refine absurd (hknown opt ?_) hopt
  rw [hsplit]
  exact List.mem_append_right _ List.mem_cons_self

/-- Options with one in the middle that is not known. -/
def bogusOptions : Name := nameOf "rsize=8192,bogus=1,retrans=5"

/-- Success does not mean that all options are known: parsing stops at `bogus=1` and returns 0. -/
theorem not_parse_succeeds :
    ¬ ∀ (resolve : Resolver) (optSize : Nat) (oldOpts : Name) (d : MountData), 0 ∉ oldOpts →
      Even (oldOpts.count quote) →
      let opts := dropEmptyLast (pieces comma quote false oldOpts)
      (reassembled opts).length < optSize →
      (∀ host, latest Item.host (given opts) = some host → ∃ addr, resolve host = .ok addr) →
      let r := hsiNfs3ParseOptions resolve optSize oldOpts d
      (r.1 = 0 ↔ ∀ opt ∈ opts, Known opt) ∧ (r.1 = 0 → AllApplied resolve opts d r.2.data) := by
  intro h
  obtain ⟨hsucceeds, -⟩ := h (fun _ ↦ .ok 7) 1024 bogusOptions (.start 0 ⟨0, 0, 0⟩) (by decide)
    (by decide) (by decide) (fun _ _ ↦ ⟨7, rfl⟩)
  have hok : (hsiNfs3ParseOptions (fun _ ↦ .ok 7) 1024 bogusOptions (.start 0 ⟨0, 0, 0⟩)).1 =
    0 := by
    decide +kernel
  have hunknown : ¬ ∀ opt ∈ dropEmptyLast (pieces comma quote false bogusOptions), Known opt := by
    decide
  exact hunknown (hsucceeds.1 hok)

end Hsfs.Mount
