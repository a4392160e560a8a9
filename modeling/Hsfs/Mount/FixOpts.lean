import Hsfs.Mount.Pipeline
import Hsfs.Word.Flags

/-!
# The options in mtab

`hsi_add_mtab` writes the options of a mount to mtab as `hsi_fix_opts_string` puts them together,
from the flags and from the options that were left over.  If one mounts with these options again,
one gets the same flags and the same other options (`parse_fixed_opts`).
-/

namespace Hsfs.Mount

open Text Word

/-! ## `hsi_fix_opts_string` -/

/-- `skip`: the option is not in the string of mtab. -/
def OptMap.skip (om : OptMap) : Bool :=
  om.nfsOpt = nameOf "ro" ∨ om.nfsOpt = nameOf "rw" ∨ om.nfsOpt = nameOf "loop"

/-- The loop of `hsi_fix_opts_string`. -/
def fixLoop : List OptMap → UInt32 → Name → Name
  | [], _, newOpts => newOpts
  | om :: rest, flags, newOpts =>
      if om.skip then fixLoop rest flags newOpts
      else if om.inv ∨ om.mask = 0 ∨ flags &&& om.mask ≠ om.mask then fixLoop rest flags newOpts
      else fixLoop rest (flags &&& ~~~om.mask) (newOpts ++ comma :: om.nfsOpt)

/-- `hsi_fix_opts_string`, with the name of the user if `getpwuid` finds one. -/
def hsiFixOptsString (pwName : Option Name) (flags : UInt32) (extraOpts : Option Name) : Name :=
  let newOpts := if flags &&& msRdonly ≠ 0 then nameOf "ro" else nameOf "rw"
  let newOpts :=
    if flags &&& msUser ≠ 0 then
      match pwName with
      | some name => newOpts ++ nameOf ",user=" ++ name
      | none => newOpts
    else newOpts
  let newOpts := fixLoop optMap flags newOpts
  match extraOpts with
  | some extra => if extra ≠ [] then newOpts ++ comma :: extra else newOpts
  | none => newOpts

/-! ## What is in the string -/

/-- The option may be in the string. -/
def OptMap.Printable (om : OptMap) : Prop := om.skip = false ∧ om.inv = false ∧ om.mask ≠ 0

instance (om : OptMap) : Decidable om.Printable := inferInstanceAs (Decidable (_ ∧ _))

/-- The options that the loop puts into the string. -/
def printed : List OptMap → UInt32 → List OptMap
  | [], _ => []
  | om :: rest, flags =>
      if om.Printable ∧ flags &&& om.mask = om.mask then
        om :: printed rest (flags &&& ~~~om.mask)
      else printed rest flags

/-- Options one behind the other. -/
def withOpts (text : Name) (opts : List Name) : Name :=
  opts.foldl (fun text opt ↦ text ++ comma :: opt) text

theorem fixLoop_eq (oms : List OptMap) (flags : UInt32) (newOpts : Name) :
    fixLoop oms flags newOpts = withOpts newOpts ((printed oms flags).map (·.nfsOpt)) := by
  induction oms generalizing flags newOpts with
  | nil => rfl
  | cons om rest ih =>
      rw [fixLoop, printed]
      by_cases hskip : om.skip = true
      · rw [if_pos hskip, if_neg (fun h ↦ by rw [h.1.1] at hskip; cases hskip), ih]
      · rw [if_neg hskip]
        by_cases hleft : om.inv = true ∨ om.mask = 0 ∨ flags &&& om.mask ≠ om.mask
        · rw [if_pos hleft, if_neg ?_, ih]
          rintro ⟨⟨-, hinv, hmask⟩, hflags⟩
          rcases hleft with h | h | h
          · rw [hinv] at h
            cases h
          · exact hmask h
          · exact h hflags
        · rw [if_neg hleft]
          obtain ⟨hinv, hmask, hflags⟩ := not_or.1 hleft |>.imp_right not_or.1
          rw [if_pos ⟨⟨Bool.eq_false_of_not_eq_true hskip, Bool.eq_false_of_not_eq_true hinv,
            hmask⟩, not_not.1 hflags⟩, ih]
          rfl

/-- The option for the name of the user. -/
def userOpt (pwName : Option Name) (flags : UInt32) : List Name :=
  if flags &&& msUser ≠ 0 then (pwName.map (nameOf "user=" ++ ·)).toList else []

/-- What the string begins with. -/
def modeOpt (flags : UInt32) : Name := if flags &&& msRdonly ≠ 0 then nameOf "ro" else nameOf "rw"

/-- The other options behind that. -/
def withExtra (text extra : Name) : Name := if extra ≠ [] then text ++ comma :: extra else text

theorem hsiFixOptsString_eq (pwName : Option Name) (flags : UInt32) (extra : Name) :
    hsiFixOptsString pwName flags (some extra) = withExtra (withOpts (modeOpt flags)
      (userOpt pwName flags ++ (printed optMap flags).map (·.nfsOpt))) extra := by
  have huser : nameOf ",user=" = comma :: nameOf "user=" := by decide
  rw [withOpts, List.foldl_append, ← withOpts, ← withOpts, ← fixLoop_eq]
  unfold hsiFixOptsString userOpt modeOpt
  dsimp only
  rw [huser]
  by_cases hflag : flags &&& msUser ≠ 0
  · rw [if_pos hflag, if_pos hflag]
    cases pwName with
    | none => rfl
    | some name =>
        dsimp only
        rw [List.append_assoc]
        rfl
  · rw [if_neg hflag, if_neg hflag]
    rfl

theorem pieces_withOpts {text : Name} (hclosed : quotedAfter quote false text = false)
    {opts : List Name} (h : ∀ opt ∈ opts, Whole comma quote opt) :
    pieces comma quote false (withOpts text opts) = pieces comma quote false text ++ opts ∧
      quotedAfter quote false (withOpts text opts) = false := by
  induction opts generalizing text with
  | nil => exact ⟨(List.append_nil _).symm, hclosed⟩
  | cons opt opts ih =>
      have hopt := h opt List.mem_cons_self
      have hstep := ih (hopt.quotedAfter_append comma_ne_quote hclosed)
        fun o ho ↦ h o (List.mem_cons_of_mem opt ho)
      rw [hopt.pieces_append comma_ne_quote hclosed, List.append_assoc] at hstep
      exact hstep

/-- A text without commas and quotes is whole. -/
theorem whole_of_plain {w : Name} (hcomma : comma ∉ w) (hquote : quote ∉ w) :
    Whole comma quote w := by
  induction w using List.reverseRecOn with
  | nil => exact ⟨rfl, rfl⟩
  | append_singleton w b ih =>
      rw [List.mem_append, List.mem_singleton, not_or] at hcomma hquote
      have hw := ih hcomma.1 hquote.1
      refine ⟨pieces_concat hw.single fun hb ↦ hcomma.2 hb.2.symm, ?_⟩
      rw [Text.quotedAfter_append, hw.closed]
      simp [quotedAfter, Ne.symm hquote.2]

/-- The names of the map are different, whole and without an equals sign. -/
theorem nodup_optMap : (optMap.map (·.nfsOpt)).Nodup := by decide

theorem plain_optMap :
    ∀ om ∈ optMap, comma ∉ om.nfsOpt ∧ quote ∉ om.nfsOpt ∧ (61 : UInt8) ∉ om.nfsOpt := by decide

theorem printed_subset (oms : List OptMap) (flags : UInt32) :
    ∀ om ∈ printed oms flags, om ∈ oms ∧ om.Printable ∧ flags &&& om.mask = om.mask := by
  induction oms generalizing flags with
  | nil => rintro om ⟨⟩
  | cons om rest ih =>
      rw [printed]
      split
      · rename_i hif
        rintro om' hom'
        rcases List.mem_cons.1 hom' with rfl | hom'
        · exact ⟨List.mem_cons_self, hif⟩
        · obtain ⟨hmem, hprint, hmask⟩ := ih _ om' hom'
          refine ⟨List.mem_cons_of_mem om hmem, hprint, and_eq_right_iff.2 fun i hi hbit ↦ ?_⟩
          have hleft := and_eq_right_iff.1 hmask i hi hbit
          rw [bit_and_not _ _ hi, Bool.and_eq_true] at hleft
          exact hleft.1
      · intro om' hom'
        obtain ⟨hmem, hrest⟩ := ih _ om' hom'
        exact ⟨List.mem_cons_of_mem om hmem, hrest⟩

/-! ## The flags -/

/-- The flags after an option. -/
def optEffect (flags : UInt32) (opt : Name) : UInt32 :=
  match optMap.find? (·.nfsOpt = opt) with
  | some om => if om.fuseOpt.isSome then om.apply flags else flags
  | none => flags

theorem flags_claimOpt {isLibOption : Name → Bool} {opt : Name} (hlib : isLibOption opt = false)
    (oms : List OptMap) (s : OptState) :
    (claimOpt isLibOption opt oms s).map (·.flags) = (oms.find? (·.nfsOpt = opt)).map
      fun om ↦ if om.fuseOpt.isSome then om.apply s.flags else s.flags := by
  induction oms with
  | nil => rfl
  | cons om rest ih =>
      rw [claimOpt]
      by_cases hopt : opt = om.nfsOpt
      · rw [if_pos hopt, List.find?_cons_of_pos (by simpa using hopt.symm)]
        cases hfuse : om.fuseOpt <;> simp [hfuse]
      · rw [if_neg hopt, hlib, List.find?_cons_of_neg (by simpa using Ne.symm hopt)]
        exact ih

theorem flags_hsiParseOpt {isLibOption : Name → Bool} {opt : Name} (hlib : isLibOption opt = false)
    (len : UInt64) (s : OptState) :
    (hsiParseOpt isLibOption len opt s).flags = optEffect s.flags opt := by
  have hclaim := flags_claimOpt hlib optMap s
  unfold hsiParseOpt optEffect
  cases hfind : optMap.find? (·.nfsOpt = opt) with
  | none =>
      rw [hfind, Option.map_none, Option.map_eq_none_iff] at hclaim
      rw [hclaim]
  | some om =>
      rw [hfind, Option.map_some, Option.map_eq_some_iff] at hclaim
      obtain ⟨s', hs', hflags⟩ := hclaim
      rw [hs']
      exact hflags

theorem find?_of_nodup {oms : List OptMap} (hnodup : (oms.map (·.nfsOpt)).Nodup) {om : OptMap}
    (h : om ∈ oms) : oms.find? (·.nfsOpt = om.nfsOpt) = some om := by
  induction oms with
  | nil => cases h
  | cons om' rest ih =>
      rw [List.map_cons, List.nodup_cons] at hnodup
      rcases List.mem_cons.1 h with rfl | h
      · exact List.find?_cons_of_pos (by simp)
      · have hne : om'.nfsOpt ≠ om.nfsOpt := fun heq ↦ hnodup.1 (heq ▸ List.mem_map_of_mem h)
        rw [List.find?_cons_of_neg (by simpa using hne), ih hnodup.2 h]

theorem optEffect_of_mem {om : OptMap} (h : om ∈ optMap) (flags : UInt32) :
    optEffect flags om.nfsOpt = if om.fuseOpt.isSome then om.apply flags else flags := by
  rw [optEffect, find?_of_nodup nodup_optMap h]

theorem optEffect_of_not_mem {opt : Name} (h : ¬ ∃ om ∈ optMap, opt = om.nfsOpt) (flags : UInt32) :
    optEffect flags opt = flags := by
  have hnone : optMap.find? (·.nfsOpt = opt) = none := by
    rw [List.find?_eq_none]
    intro om hom heq
    exact h ⟨om, hom, (of_decide_eq_true heq).symm⟩
  rw [optEffect, hnone]

/-- Put in the flags of some options. -/
def addMasks (flags : UInt32) (oms : List OptMap) : UInt32 :=
  oms.foldl (fun flags om ↦ flags ||| om.mask) flags

/-- The flags that options of the map can set. -/
def supportedFlags : UInt32 := addMasks 0 (optMap.filter (·.fuseOpt.isSome))

/-- What the loop prints of supported flags can be parsed again. -/
theorem isSome_fuseOpt_of_supported : ∀ om ∈ optMap, om.Printable →
    supportedFlags &&& om.mask = om.mask → om.fuseOpt.isSome := by decide

/-- Each supported flag but `MS_RDONLY` is printed as an option of its own. -/
theorem exists_option_of_supported : ∀ i < 32, bit supportedFlags i →
    i = 0 ∨ ∃ om ∈ optMap, om.Printable ∧ ∀ j < 32, bit om.mask j = decide (j = i) := by decide

theorem bit_addMasks (oms : List OptMap) (flags : UInt32) (i : Nat) :
    bit (addMasks flags oms) i = (bit flags i || oms.any fun om ↦ bit om.mask i) := by
  induction oms generalizing flags with
  | nil => exact (Bool.or_false _).symm
  | cons om oms ih => rw [addMasks, List.foldl_cons, ← addMasks, ih, bit_or, Bool.or_assoc,
      List.any_cons]

/-- A flag with an option of its own is printed. -/
theorem any_printed {oms : List OptMap} {flags : UInt32} {om : OptMap} {i : Nat} (hi : i < 32)
    (hom : om ∈ oms) (hprint : om.Printable) (hmask : ∀ j < 32, bit om.mask j = decide (j = i))
    (hflag : bit flags i) : (printed oms flags).any fun om ↦ bit om.mask i := by
  induction oms generalizing flags with
  | nil => cases hom
  | cons om' rest ih =>
      have hbit : bit om.mask i = true := (hmask i hi).trans (decide_eq_true rfl)
      rw [printed]
      split
      · rw [List.any_cons, Bool.or_eq_true]
        by_cases hom' : bit om'.mask i
        · exact .inl hom'
        · refine .inr ?_
          rcases List.mem_cons.1 hom with rfl | hom
          · exact absurd hbit hom'
          · refine ih hom ?_
            rw [bit_and_not _ _ hi, hflag, Bool.eq_false_of_not_eq_true hom']
            rfl
      · rename_i hif
        rcases List.mem_cons.1 hom with rfl | hom
        · refine absurd ⟨hprint, and_eq_right_iff.2 fun j hj hbit ↦ ?_⟩ hif
          rw [hmask j hj] at hbit
          rw [of_decide_eq_true hbit]
          exact hflag
        · exact ih hom hflag

/-- **The flags that are parsed from what the loop prints**, next to `MS_RDONLY`. -/
theorem addMasks_printed {flags : UInt32} (hflags : flags &&& ~~~supportedFlags = 0) :
    addMasks (flags &&& msRdonly) (printed optMap flags) = flags := by
  apply ext_bits
  intro i hi
  rw [bit_addMasks, bit_and]
  cases hflag : bit flags i with
  | false =>
      rw [Bool.false_and, Bool.false_or, List.any_eq_false]
      intro om hom hbit
      obtain ⟨-, -, hmask⟩ := printed_subset optMap flags om hom
      rw [and_eq_right_iff.1 hmask i hi hbit] at hflag
      cases hflag
  | true =>
      rw [Bool.true_and, Bool.or_eq_true]
      rcases exists_option_of_supported i hi (and_not_eq_zero_iff.1 hflags i hi hflag) with
        rfl | ⟨om, hom, hprint, hmask⟩
      · exact .inl (by decide)
      · exact .inr (any_printed hi hom hprint hmask hflag)

/-- Only supported flags are ever set. -/
theorem supported_claimOpt {isLibOption : Name → Bool} {opt : Name} {oms : List OptMap}
    (homs : ∀ om ∈ oms, om.fuseOpt.isSome → supportedFlags &&& om.mask = om.mask)
    {s s' : OptState} (h : claimOpt isLibOption opt oms s = some s')
    (hs : s.flags &&& ~~~supportedFlags = 0) : s'.flags &&& ~~~supportedFlags = 0 := by
  induction oms with
  | nil => cases h
  | cons om rest ih =>
      rw [claimOpt] at h
      split at h
      · cases hfuse : om.fuseOpt with
        | none =>
            rw [hfuse] at h
            exact Option.some.inj h ▸ hs
        | some fuseOpt =>
            rw [hfuse] at h
            obtain rfl := Option.some.inj h
            have hmask := homs om List.mem_cons_self (by rw [hfuse]; rfl)
            rw [and_not_eq_zero_iff] at hs ⊢
            intro i hi hbit
            change bit (om.apply s.flags) i = true at hbit
            unfold OptMap.apply at hbit
            split at hbit
            · rw [bit_and_not _ _ hi, Bool.and_eq_true] at hbit
              exact hs i hi hbit.1
            · rw [bit_or, Bool.or_eq_true] at hbit
              exact hbit.elim (hs i hi) (and_eq_right_iff.1 hmask i hi)
      · split at h
        · exact Option.some.inj h ▸ hs
        · exact ih (fun om' hom' ↦ homs om' (List.mem_cons_of_mem om hom')) h

theorem supported_optMap : ∀ om ∈ optMap, om.fuseOpt.isSome →
    supportedFlags &&& om.mask = om.mask := by
  decide

theorem supported_hsiParseOpts (isLibOption : Name → Bool) (options : OptString) {flags : UInt32}
    (hflags : flags &&& ~~~supportedFlags = 0) (args : List Name) :
    (hsiParseOpts isLibOption options flags args).flags &&& ~~~supportedFlags = 0 := by
  rw [hsiParseOpts_eq]
  refine List.foldlRecOn (motive := fun s : OptState ↦ s.flags &&& ~~~supportedFlags = 0) _ _ hflags
    fun s hs opt _ ↦ ?_
  unfold hsiParseOpt
  split
  · rename_i hclaim
    exact supported_claimOpt supported_optMap hclaim hs
  · exact hs

/-! ## The round trip -/

section RoundTrip

variable {isLibOption : Name → Bool} {len : UInt64}

/-- The flags after some options. -/
theorem flags_foldl {opts : List Name} (hlib : ∀ opt ∈ opts, isLibOption opt = false)
    (s : OptState) :
    (opts.foldl (fun s opt ↦ hsiParseOpt isLibOption len opt s) s).flags =
      opts.foldl optEffect s.flags := by
  induction opts generalizing s with
  | nil => rfl
  | cons opt opts ih =>
      rw [List.foldl_cons, List.foldl_cons, ih fun o ho ↦ hlib o (List.mem_cons_of_mem opt ho),
        flags_hsiParseOpt (hlib opt List.mem_cons_self)]

/-- Options that are not in the map change no flags. -/
theorem foldl_optEffect_of_not_mem {opts : List Name}
    (h : ∀ opt ∈ opts, ¬ ∃ om ∈ optMap, opt = om.nfsOpt) (flags : UInt32) :
    opts.foldl optEffect flags = flags := by
  induction opts with
  | nil => rfl
  | cons opt opts ih =>
      rw [List.foldl_cons, optEffect_of_not_mem (h opt List.mem_cons_self)]
      exact ih fun o ho ↦ h o (List.mem_cons_of_mem opt ho)

/-- The options that were printed set their flags. -/
theorem foldl_optEffect_printed {oms : List OptMap} (h : ∀ om ∈ oms, om ∈ optMap ∧ om.Printable ∧
    om.fuseOpt.isSome) (flags : UInt32) :
    (oms.map (·.nfsOpt)).foldl optEffect flags = addMasks flags oms := by
  induction oms generalizing flags with
  | nil => rfl
  | cons om oms ih =>
      obtain ⟨hmem, hprint, hfuse⟩ := h om List.mem_cons_self
      rw [List.map_cons, List.foldl_cons, optEffect_of_mem hmem, if_pos hfuse,
        ih fun om' hom' ↦ h om' (List.mem_cons_of_mem om hom')]
      rw [OptMap.apply, hprint.2.1]
      rfl

theorem nil_not_mem_optMap : ¬ ∃ om ∈ optMap, ([] : Name) = om.nfsOpt := by decide

theorem mem_of_mem_dropEmptyLast {ws : List Name} {w : Name} (h : w ∈ dropEmptyLast ws) :
    w ∈ ws := by
  unfold dropEmptyLast at h
  split at h
  · exact List.mem_of_mem_dropLast h
  · exact h

/-- The first option of the string sets the mode. -/
theorem optEffect_modeOpt (flags : UInt32) : optEffect 0 (modeOpt flags) = flags &&& msRdonly := by
  have hro : optEffect 0 (nameOf "ro") = msRdonly := by decide
  have hrw : optEffect 0 (nameOf "rw") = 0 := by decide
  have hbits : ∀ i < 32, bit msRdonly i = decide (i = 0) := by decide
  unfold modeOpt
  split
  · rename_i hmode
    rw [hro]
    refine (and_eq_right_iff.2 fun i hi hbit ↦ ?_).symm
    rw [hbits i hi] at hbit
    obtain rfl := of_decide_eq_true hbit
    by_contra hflag
    refine hmode (ext_bits fun j hj ↦ ?_)
    rw [bit_and, hbits j hj, bit_zero]
    by_cases hj0 : j = 0
    · rw [hj0, Bool.eq_false_of_not_eq_true hflag, Bool.false_and]
    · rw [decide_eq_false hj0, Bool.and_false]
  · rename_i hmode
    rw [hrw, not_not.1 hmode]

/-- The name of the user is not an option of the map. -/
theorem user_not_mem_optMap (name : Name) : ¬ ∃ om ∈ optMap,
    nameOf "user=" ++ name = om.nfsOpt := by
  rintro ⟨om, hom, heq⟩
  have hmem : (61 : UInt8) ∈ om.nfsOpt := heq ▸ List.mem_append_left name (by decide)
  exact (plain_optMap om hom).2.2 hmem

theorem exists_of_mem_userOpt {pwName : Option Name} {flags : UInt32} {opt : Name}
    (h : opt ∈ userOpt pwName flags) : ∃ name ∈ pwName, opt = nameOf "user=" ++ name := by
  unfold userOpt at h
  split at h
  · rw [Option.mem_toList, Option.map_eq_some_iff] at h
    obtain ⟨name, hname, rfl⟩ := h
    exact ⟨name, hname, rfl⟩
  · cases h

theorem modeOpt_mem_optMap (flags : UInt32) : ∃ om ∈ optMap, modeOpt flags = om.nfsOpt := by
  have hro : ∃ om ∈ optMap, nameOf "ro" = om.nfsOpt := by decide
  have hrw : ∃ om ∈ optMap, nameOf "rw" = om.nfsOpt := by decide
  unfold modeOpt
  split
  · exact hro
  · exact hrw

/-- The pieces of what was left over, if there is something. -/
def extraPieces (extra : Name) : List Name :=
  if extra ≠ [] then pieces comma quote false extra else []

theorem items_withExtra {text extra : Name} (htext : quotedAfter quote false text = false)
    (hextra : quotedAfter quote false extra = false) :
    items (withExtra text extra) =
      dropEmptyLast (pieces comma quote false text ++ extraPieces extra) := by
  have hcomma : (false ^^ comma == quote) = false := by decide
  unfold withExtra extraPieces
  split
  · rw [← pieces_append_sep comma_ne_quote htext, items_eq_pieces]
    rw [Text.quotedAfter_append, htext, quotedAfter_cons, hcomma, hextra]
  · rw [items_eq_pieces htext, List.append_nil]

/-- The options of the string, before those that were left over. -/
def fixedOpts (pwName : Option Name) (flags : UInt32) : List Name :=
  modeOpt flags :: (userOpt pwName flags ++ (printed optMap flags).map (·.nfsOpt))

/-- What is cut out of the string. -/
theorem items_hsiFixOptsString {pwName : Option Name}
    (hpw : ∀ name ∈ pwName, comma ∉ name ∧ quote ∉ name) (flags : UInt32) {extra : Name}
    (hextra : quotedAfter quote false extra = false) :
    items (hsiFixOptsString pwName flags (some extra)) =
      dropEmptyLast (fixedOpts pwName flags ++ extraPieces extra) := by
  have hro : Whole comma quote (nameOf "ro") := whole_of_plain (by decide) (by decide)
  have hrw : Whole comma quote (nameOf "rw") := whole_of_plain (by decide) (by decide)
  have hmode : Whole comma quote (modeOpt flags) := by
    unfold modeOpt
    split
    · exact hro
    · exact hrw
  have hopts : ∀ opt ∈ userOpt pwName flags ++ (printed optMap flags).map (·.nfsOpt),
      Whole comma quote opt := by
    intro opt hopt
    rcases List.mem_append.1 hopt with hopt | hopt
    · obtain ⟨name, hname, rfl⟩ := exists_of_mem_userOpt hopt
      obtain ⟨hcomma, hquote⟩ := hpw name hname
      have huser : comma ∉ nameOf "user=" ∧ quote ∉ nameOf "user=" := by decide
      apply whole_of_plain
      · exact fun hmem ↦ (List.mem_append.1 hmem).elim huser.1 hcomma
      · exact fun hmem ↦ (List.mem_append.1 hmem).elim huser.2 hquote
    · obtain ⟨om, hom, rfl⟩ := List.mem_map.1 hopt
      obtain ⟨hcomma, hquote, -⟩ := plain_optMap om (printed_subset optMap flags om hom).1
      exact whole_of_plain hcomma hquote
  obtain ⟨hpieces, hclosed⟩ := pieces_withOpts hmode.closed hopts
  rw [hsiFixOptsString_eq, items_withExtra hclosed hextra, hpieces, hmode.single]
  rfl

/-- The flags that are parsed from the string. -/
theorem foldl_optEffect_fixedOpts (pwName : Option Name) {flags : UInt32}
    (hflags : flags &&& ~~~supportedFlags = 0) :
    (fixedOpts pwName flags).foldl optEffect 0 = flags := by
  have huser : ∀ opt ∈ userOpt pwName flags, ¬ ∃ om ∈ optMap, opt = om.nfsOpt := by
    intro opt hopt
    obtain ⟨name, -, rfl⟩ := exists_of_mem_userOpt hopt
    exact user_not_mem_optMap name
  have hprinted : ∀ om ∈ printed optMap flags, om ∈ optMap ∧ om.Printable ∧ om.fuseOpt.isSome := by
    intro om hom
    obtain ⟨hmem, hprint, hmask⟩ := printed_subset optMap flags om hom
    refine ⟨hmem, hprint, isSome_fuseOpt_of_supported om hmem hprint ?_⟩
    refine and_eq_right_iff.2 fun i hi hbit ↦ ?_
    exact and_not_eq_zero_iff.1 hflags i hi (and_eq_right_iff.1 hmask i hi hbit)
  rw [fixedOpts, List.foldl_cons, optEffect_modeOpt, List.foldl_append,
    foldl_optEffect_of_not_mem huser, foldl_optEffect_printed hprinted, addMasks_printed hflags]

/-- Only the name of the user is not claimed. -/
theorem filter_fixedOpts {pwName : Option Name}
    (hpw : ∀ name ∈ pwName, isLibOption (nameOf "user=" ++ name) = false) (flags : UInt32) :
    (fixedOpts pwName flags).filter (¬ Claimed isLibOption ·) = userOpt pwName flags := by
  have hmode : Claimed isLibOption (modeOpt flags) := .inl (modeOpt_mem_optMap flags)
  have huser : ∀ opt ∈ userOpt pwName flags, ¬ Claimed isLibOption opt := by
    intro opt hopt
    obtain ⟨name, hname, rfl⟩ := exists_of_mem_userOpt hopt
    rintro (hmap | hlib)
    · exact user_not_mem_optMap name hmap
    · rw [hpw name hname] at hlib
      cases hlib
  have hprinted : ∀ opt ∈ (printed optMap flags).map (·.nfsOpt), Claimed isLibOption opt := by
    intro opt hopt
    obtain ⟨om, hom, rfl⟩ := List.mem_map.1 hopt
    exact .inl ⟨om, (printed_subset optMap flags om hom).1, rfl⟩
  rw [fixedOpts, List.filter_cons_of_neg (by simpa using hmode), List.filter_append,
    List.filter_eq_self.2 (by simpa using huser),
      List.filter_eq_nil_iff.2 (by simpa using hprinted),
    List.append_nil]

/-- No option of the string is one of the FUSE library. -/
theorem isLibOption_fixedOpts (hlib : ∀ om ∈ optMap, isLibOption om.nfsOpt = false)
    {pwName : Option Name} (hpw : ∀ name ∈ pwName, isLibOption (nameOf "user=" ++ name) = false)
    (flags : UInt32) : ∀ opt ∈ fixedOpts pwName flags, isLibOption opt = false := by
  intro opt hopt
  rcases List.mem_cons.1 hopt with rfl | hopt
  · obtain ⟨om, hom, heq⟩ := modeOpt_mem_optMap flags
    rw [heq]
    exact hlib om hom
  · rcases List.mem_append.1 hopt with hopt | hopt
    · obtain ⟨name, hname, rfl⟩ := exists_of_mem_userOpt hopt
      exact hpw name hname
    · obtain ⟨om, hom, rfl⟩ := List.mem_map.1 hopt
      exact hlib om (printed_subset optMap flags om hom).1

theorem nil_not_mem_fixedOpts (pwName : Option Name) (flags : UInt32) :
    [] ∉ fixedOpts pwName flags := by
  intro hnil
  rcases List.mem_cons.1 hnil with hnil | hnil
  · exact nil_not_mem_optMap (hnil ▸ modeOpt_mem_optMap flags)
  · rcases List.mem_append.1 hnil with hnil | hnil
    · obtain ⟨name, -, heq⟩ := exists_of_mem_userOpt hnil
      cases heq
    · obtain ⟨om, hom, heq⟩ := List.mem_map.1 hnil
      exact nil_not_mem_optMap ⟨om, (printed_subset optMap flags om hom).1, heq.symm⟩

/-- What was left over is claimed by nobody. -/
theorem not_claimed_extraPieces {options rest : List Name} {u : Udata}
    (h : Joined len (options.filter (¬ Claimed isLibOption ·)) rest u) :
    ∀ opt ∈ extraPieces u.text, ¬ Claimed isLibOption opt := by
  intro opt hopt
  unfold extraPieces at hopt
  split at hopt
  · rename_i htext
    rw [h.kept htext] at hopt
    have hmem := (List.dropWhile_sublist _).subset hopt
    exact of_decide_eq_true (List.mem_filter.1 hmem).2
  · cases hopt

theorem dropEmptyLast_extraPieces {text : Name} (h : quotedAfter quote false text = false) :
    dropEmptyLast (extraPieces text) = items text := by
  unfold extraPieces
  split
  · exact (items_eq_pieces h).symm
  · rename_i htext
    rw [not_not.1 htext]
    rfl

/-- What was left over does not begin with an empty option. -/
theorem dropWhile_items {done rest : List Name} {u : Udata} (h : Joined len done rest u) :
    (items u.text).dropWhile (· = []) = items u.text := by
  rw [h.items_eq]
  cases hdone : done.dropWhile (· = []) with
  | nil => rfl
  | cons w ws =>
      have hw : w ≠ [] := by
        have hsome : done.dropWhile (· = []) ≠ [] := hdone ▸ List.cons_ne_nil w ws
        simpa [hdone] using List.head_dropWhile_not (fun w : Name ↦ decide (w = [])) hsome
      have hnot : [] ∉ [w] := by simpa using Ne.symm hw
      have hsplit := dropEmptyLast_append hnot ws
      rw [List.singleton_append] at hsplit
      rw [hsplit]
      exact List.dropWhile_cons_of_neg (by simpa using hw)

end RoundTrip

/-- **What is parsed from the options in mtab**: the flags, and the options that were left over, but
for the name of the user before them. -/
theorem parse_fixed_opts {isLibOption : Name → Bool}
    (hlib : ∀ om ∈ optMap, isLibOption om.nfsOpt = false) {pwName : Option Name}
    (hpw : ∀ name ∈ pwName, comma ∉ name ∧ quote ∉ name)
    (huser : ∀ name ∈ pwName, isLibOption (nameOf "user=" ++ name) = false)
    {flags : UInt32} (hflags : flags &&& ~~~supportedFlags = 0) {len : UInt64}
    {options rest : List Name} {u : Udata}
    (hjoined : Joined len (options.filter (¬ Claimed isLibOption ·)) rest u) {mtabOpts : OptString}
    (hmtab : mtabOpts.bytes = hsiFixOptsString pwName flags (some u.text)) (args : List Name) :
    (hsiParseOpts isLibOption mtabOpts 0 args).flags = flags ∧
      items (hsiParseOpts isLibOption mtabOpts 0 args).udata.text =
        dropEmptyLast (userOpt pwName flags ++ items u.text) := by
  have hextra := not_claimed_extraPieces hjoined
  have hitems : items mtabOpts.bytes = fixedOpts pwName flags ++ items u.text := by
    rw [hmtab, items_hsiFixOptsString hpw flags hjoined.closed,
      dropEmptyLast_append (nil_not_mem_fixedOpts pwName flags),
      dropEmptyLast_extraPieces hjoined.closed]
  have hleft : ∀ opt ∈ items u.text, ¬ Claimed isLibOption opt := by
    intro opt hopt
    rw [← dropEmptyLast_extraPieces hjoined.closed] at hopt
    exact hextra opt (mem_of_mem_dropEmptyLast hopt)
  constructor
  · have hnone : ∀ opt ∈ items mtabOpts.bytes, isLibOption opt = false := by
      intro opt hopt
      rw [hitems] at hopt
      rcases List.mem_append.1 hopt with hopt | hopt
      · exact isLibOption_fixedOpts hlib huser flags opt hopt
      · exact Bool.eq_false_of_not_eq_true fun hyes ↦ hleft opt hopt (.inr hyes)
    rw [hsiParseOpts_eq, flags_foldl hnone, hitems, List.foldl_append,
      foldl_optEffect_fixedOpts pwName hflags]
    exact foldl_optEffect_of_not_mem (fun opt hopt hmap ↦ hleft opt hopt (.inl hmap)) flags
  · have hkept : (items u.text).filter (¬ Claimed isLibOption ·) = items u.text :=
      List.filter_eq_self.2 (by simpa using hleft)
    rw [(joined_hsiParseOpts isLibOption mtabOpts 0 args).items_eq, hitems, List.filter_append,
      filter_fixedOpts huser, hkept]
    congr 1
    -- the list does not begin with an empty option
    cases huserOpt : userOpt pwName flags with
    | nil => exact dropWhile_items hjoined
    | cons opt opts =>
        obtain ⟨name, -, heq⟩ := exists_of_mem_userOpt (huserOpt ▸ List.mem_cons_self)
        rw [List.cons_append, heq]
        rfl

end Hsfs.Mount
