import Hsfs.Mount.Options

/-!
# From the command line to the mount

The options that nobody claims on the command line are put together in a string, and this string is
cut again when the file system is mounted.  Nothing is lost or added on the way
(`options_reach_mount`), up to empty items.

What one option does to the string is `addExtraOpt_eq`; what holds of the string after any number of
options is `Joined`.
-/

namespace Hsfs.Mount

open Text

/-! ## Who claims an option -/

/-- The option is one of `opt_map`, or one of the FUSE library. -/
def Claimed (isLibOption : Name → Bool) (opt : Name) : Prop :=
  (∃ om ∈ optMap, opt = om.nfsOpt) ∨ isLibOption opt = true

instance (isLibOption : Name → Bool) (opt : Name) : Decidable (Claimed isLibOption opt) :=
  inferInstanceAs (Decidable (_ ∨ _))

theorem optMap_ne_nil : optMap ≠ [] := List.cons_ne_nil _ _

theorem claimOpt_eq_none_iff {isLibOption : Name → Bool} {opt : Name} {oms : List OptMap}
    {s : OptState}
    (homs : oms ≠ []) : claimOpt isLibOption opt oms s = none ↔
      ¬ ((∃ om ∈ oms, opt = om.nfsOpt) ∨ isLibOption opt = true) := by
  induction oms with
  | nil => exact absurd rfl homs
  | cons om oms ih =>
      rw [claimOpt]
      split
      · rename_i heq
        refine iff_of_false ?_ fun h ↦ h (.inl ⟨om, List.mem_cons_self, heq⟩)
        cases om.fuseOpt <;> exact fun h ↦ nomatch h
      · rename_i hne
        split
        · rename_i hlib
          exact iff_of_false (fun h ↦ nomatch h) fun h ↦ h (.inr hlib)
        · rename_i hlib
          cases oms with
          | nil =>
              refine iff_of_true rfl ?_
              rintro (⟨om', hom', heq⟩ | hyes)
              · exact hne (List.mem_singleton.1 hom' ▸ heq)
              · exact hlib hyes
          | cons om' oms =>
              rw [ih (List.cons_ne_nil _ _), List.exists_mem_cons_iff _ om, or_iff_right hne]

theorem claimOpt_udata {isLibOption : Name → Bool} {opt : Name} {oms : List OptMap}
    {s s' : OptState}
    (h : claimOpt isLibOption opt oms s = some s') : s'.udata = s.udata := by
  induction oms with
  | nil => exact nomatch h
  | cons om oms ih =>
      rw [claimOpt] at h
      split at h
      · cases hfuse : om.fuseOpt with
        | none =>
            rw [hfuse] at h
            obtain rfl := Option.some.inj h
            rfl
        | some fuseOpt =>
            rw [hfuse] at h
            obtain rfl := Option.some.inj h
            rfl
      · split at h
        · obtain rfl := Option.some.inj h
          rfl
        · exact ih h

/-- An option that is claimed leaves the string as it is. -/
theorem hsiParseOpt_of_claimed {isLibOption : Name → Bool} {opt : Name}
    (h : Claimed isLibOption opt)
    (len : UInt64) (s : OptState) : (hsiParseOpt isLibOption len opt s).udata = s.udata := by
  unfold hsiParseOpt
  cases hclaim : claimOpt isLibOption opt optMap s with
  | none => exact absurd h ((claimOpt_eq_none_iff optMap_ne_nil).1 hclaim)
  | some s' => exact claimOpt_udata hclaim

/-- An option that is not claimed changes nothing but the string. -/
theorem hsiParseOpt_of_not_claimed {isLibOption : Name → Bool} {opt : Name}
    (h : ¬ Claimed isLibOption opt) (len : UInt64) (s : OptState) :
    hsiParseOpt isLibOption len opt s = { s with udata := addExtraOpt len opt s.udata } := by
  unfold hsiParseOpt
  rw [(claimOpt_eq_none_iff optMap_ne_nil).2 h]

/-! ## One more option -/

/-- A string with one more option. -/
def joinOpt (text opt : Name) : Name := if text = [] then opt else text ++ comma :: opt

/-- The part of a buffer that a string and the comma behind it need. -/
def used (text : Name) : Nat := if text = [] then 0 else text.length + 1

theorem used_joinOpt_le (text opt : Name) :
    used (joinOpt text opt) ≤ used text + (opt.length + 1) := by
  unfold joinOpt used
  by_cases htext : text = []
  · rw [if_pos htext, if_pos htext]
    split <;> omega
  · rw [if_neg htext, if_neg htext, if_neg (List.append_ne_nil_of_left_ne_nil htext _),
      List.length_append, List.length_cons]
    omega

theorem toNat_strlen {s : Name} (h : s.length < 2 ^ 64) : (strlen s).toNat = s.length := by
  unfold strlen
  rw [UInt64.toNat_ofNat']
  exact Nat.mod_eq_of_lt h

theorem toNat_sub_strlen {a : UInt64} {s : Name} (h : s.length ≤ a.toNat) :
    (a - strlen s).toNat = a.toNat - s.length := by
  have hs := toNat_strlen (Nat.lt_of_le_of_lt h a.toNat_lt)
  rw [UInt64.toNat_sub_of_le _ _ (UInt64.le_iff_toNat_le.2 (by rwa [hs])), hs]

theorem strlen_le {a : UInt64} {s : Name} (h : s.length ≤ a.toNat) : strlen s ≤ a := by
  rwa [UInt64.le_iff_toNat_le, toNat_strlen (Nat.lt_of_le_of_lt h a.toNat_lt)]

theorem Udata.sub_of_le (u : Udata) {a b : UInt64} (h : b ≤ a) : u.sub a b = u := by
  unfold Udata.sub
  rw [decide_eq_false (UInt64.not_lt.2 h), Bool.or_false]

theorem Udata.strcat_of_fits {size : UInt64} {u : Udata} {s : Name}
    (h : (u.text ++ s).length + 1 ≤ size.toNat) :
    u.strcat size s = { u with text := u.text ++ s } := by
  unfold Udata.strcat
  rw [decide_eq_false (Nat.not_lt.2 h), Bool.or_false]

/-- **If there is room, an option is put behind the others**, and nothing wraps or is written behind
the buffer. -/
theorem addExtraOpt_eq {len : UInt64} {opt : Name} {u : Udata}
    (hroom : used u.text + (opt.length + 1) ≤ len.toNat) :
    addExtraOpt len opt u = { u with text := joinOpt u.text opt } := by
  -- the last two statements of the function
  have hend : ∀ {left : UInt64} {v : Udata}, opt.length + 1 ≤ left.toNat →
      v.text.length + (opt.length + 1) ≤ len.toNat →
      (if left - strlen opt > 0 then (v.sub left (strlen opt)).strcat len opt
        else v.sub left (strlen opt)) = { v with text := v.text ++ opt } := by
    intro left v hleft hv
    have hpos : left - strlen opt > 0 := by
      rw [gt_iff_lt, UInt64.lt_iff_toNat_lt, toNat_sub_strlen (Nat.le_of_succ_le hleft)]
      exact Nat.sub_pos_of_lt hleft
    have hfits : (v.text ++ opt).length + 1 ≤ len.toNat := by
      rw [List.length_append]
      omega
    rw [if_pos hpos, v.sub_of_le (strlen_le (Nat.le_of_succ_le hleft)), Udata.strcat_of_fits hfits]
  unfold used at hroom
  unfold addExtraOpt joinOpt
  by_cases htext : u.text = []
  · rw [if_pos htext, Nat.zero_add] at hroom
    have hzero : strlen u.text = 0 := by rw [htext]; rfl
    have hnil : ¬ u.text ≠ [] := not_not.2 htext
    rw [hzero, u.sub_of_le UInt64.zero_le, UInt64.sub_zero, if_pos htext]
    dsimp only
    rw [if_neg hnil]
    dsimp only
    rw [hend hroom (by rwa [htext, List.length_nil, Nat.zero_add]), htext, List.nil_append]
  · rw [if_neg htext] at hroom
    have htextlen : u.text.length ≤ len.toNat := by omega
    have hleft : (len - strlen u.text).toNat = len.toNat - u.text.length :=
      toNat_sub_strlen htextlen
    have hone : (1 : UInt64) ≤ len - strlen u.text := by
      rw [UInt64.le_iff_toNat_le, hleft]
      change 1 ≤ _
      omega
    have hleft1 : (len - strlen u.text - 1).toNat = len.toNat - u.text.length - 1 := by
      rw [UInt64.toNat_sub_of_le _ _ hone, hleft]
      rfl
    have hpos : len - strlen u.text - 1 > 0 := by
      rw [gt_iff_lt, UInt64.lt_iff_toNat_lt, hleft1]
      change 0 < _
      omega
    have hcomma : (u.text ++ [comma]).length + 1 ≤ len.toNat := by
      rw [List.length_append, List.length_singleton]
      omega
    rw [u.sub_of_le (strlen_le htextlen), if_neg htext]
    dsimp only
    rw [if_pos (show u.text ≠ [] from htext)]
    dsimp only
    rw [u.sub_of_le hone, if_pos hpos, Udata.strcat_of_fits hcomma, hend (by omega) ?_]
    · rw [List.append_assoc]
      rfl
    · rw [List.length_append, List.length_singleton]
      omega

/-! ## Any number of options -/

/-- What holds of the string in a buffer of `len` bytes after some options, if others are still to
come. -/
structure Joined (len : UInt64) (done rest : List Name) (u : Udata) : Prop where
  wrapped : u.wrapped = false
  overrun : u.overrun = false
  zero_free : 0 ∉ u.text
  closed : quotedAfter quote false u.text = false
  empty_iff : u.text = [] ↔ done.dropWhile (· = []) = []
  /-- The string is cut into the options, but for empty ones at the beginning. -/
  kept : u.text ≠ [] → pieces comma quote false u.text = done.dropWhile (· = [])
  room : used u.text + room rest ≤ len.toNat

section Joined

variable {len : UInt64} {done rest : List Name} {opt : Name} {u : Udata}

theorem joined_nil (h : room rest ≤ len.toNat) : Joined len [] rest .empty where
  wrapped := rfl
  overrun := rfl
  zero_free := List.not_mem_nil
  closed := rfl
  empty_iff := iff_of_true rfl rfl
  kept := fun h ↦ absurd rfl h
  room := (Nat.zero_add _).trans_le h

/-- An option that is claimed leaves more room. -/
theorem Joined.skip (h : Joined len done (opt :: rest) u) : Joined len done rest u :=
  { h with
    room := by
      have hroom := h.room
      rw [room_cons] at hroom
      omega }

/-- The step for an option that is put behind the others. -/
theorem Joined.add (h : Joined len done (opt :: rest) u) (hzero : 0 ∉ opt)
    (hopt : Whole comma quote opt) :
    Joined len (done ++ [opt]) rest (addExtraOpt len opt u) := by
  have hroom := h.room
  rw [room_cons] at hroom
  have hone : used u.text + (opt.length + 1) ≤ len.toNat := by omega
  have hused := used_joinOpt_le u.text opt
  rw [addExtraOpt_eq hone]
  have hrest : used (joinOpt u.text opt) + Mount.room rest ≤ len.toNat := by omega
  have hdone : (done ++ [opt]).dropWhile (· = []) =
      if (done.dropWhile (· = [])).isEmpty then [opt].dropWhile (· = [])
      else done.dropWhile (· = []) ++ [opt] := List.dropWhile_append
  unfold joinOpt at hrest ⊢
  by_cases htext : u.text = []
  · rw [if_pos htext] at hrest ⊢
    rw [h.empty_iff.1 htext, List.isEmpty_nil, if_pos rfl] at hdone
    refine ⟨h.wrapped, h.overrun, hzero, hopt.closed, ?_, ?_, hrest⟩
    · rw [hdone]
      by_cases hempty : opt = []
      · rw [hempty]
        exact iff_of_true rfl rfl
      · rw [List.dropWhile_cons_of_neg (by simpa using hempty)]
        exact iff_of_false hempty (List.cons_ne_nil opt [])
    · intro hne
      change opt ≠ [] at hne
      rw [hdone, List.dropWhile_cons_of_neg (by simpa using hne)]
      exact hopt.single
  · have hsome : done.dropWhile (· = []) ≠ [] := fun hnil ↦ htext (h.empty_iff.2 hnil)
    rw [if_neg htext] at hrest ⊢
    rw [List.isEmpty_eq_false_iff.2 hsome, if_neg Bool.false_ne_true] at hdone
    refine ⟨h.wrapped, h.overrun, ?_, hopt.quotedAfter_append comma_ne_quote h.closed, ?_, ?_,
      hrest⟩
    · intro hmem
      rcases List.mem_append.1 hmem with hmem | hmem
      · exact h.zero_free hmem
      · rcases List.mem_cons.1 hmem with hmem | hmem
        · exact absurd hmem (by decide)
        · exact hzero hmem
    · rw [hdone]
      exact iff_of_false (List.append_ne_nil_of_left_ne_nil htext _)
        (List.append_ne_nil_of_left_ne_nil hsome _)
    · intro _
      rw [hdone, ← h.kept htext]
      exact hopt.pieces_append comma_ne_quote h.closed

/-- The step for any option. -/
theorem Joined.step (isLibOption : Name → Bool) {s : OptState}
    (h : Joined len done (opt :: rest) s.udata) (hzero : 0 ∉ opt) (hopt : Whole comma quote opt) :
    Joined len (done ++ [opt].filter (¬ Claimed isLibOption ·)) rest
      (hsiParseOpt isLibOption len opt s).udata := by
  by_cases hclaimed : Claimed isLibOption opt
  · rw [hsiParseOpt_of_claimed hclaimed, List.filter_singleton, decide_not, decide_eq_true hclaimed]
    exact (List.append_nil done).symm ▸ h.skip
  · rw [hsiParseOpt_of_not_claimed hclaimed, List.filter_singleton, decide_eq_true hclaimed]
    exact h.add hzero hopt

/-- The run over all options. -/
theorem Joined.run {isLibOption : Name → Bool} {s : OptState} (h : Joined len done rest s.udata)
    (hzero : ∀ opt ∈ rest, 0 ∉ opt) (hwhole : ∀ opt ∈ rest, Whole comma quote opt) :
    Joined len (done ++ rest.filter (¬ Claimed isLibOption ·)) []
      (rest.foldl (fun s opt ↦ hsiParseOpt isLibOption len opt s) s).udata := by
  induction rest generalizing done s with
  | nil =>
      rw [List.filter_nil, List.append_nil]
      exact h
  | cons opt rest ih =>
      have hstep := h.step isLibOption (hzero opt List.mem_cons_self)
        (hwhole opt List.mem_cons_self)
      have hrun := ih hstep (fun v hv ↦ hzero v (List.mem_cons_of_mem opt hv))
        fun v hv ↦ hwhole v (List.mem_cons_of_mem opt hv)
      rw [List.append_assoc, ← List.filter_append, List.singleton_append] at hrun
      exact hrun

/-- **What is cut out of the string**: the options, but for empty ones at the beginning and at the
end. -/
theorem Joined.items_eq (h : Joined len done rest u) :
    items u.text = dropEmptyLast (done.dropWhile (· = [])) := by
  by_cases htext : u.text = []
  · rw [htext, h.empty_iff.1 htext]
    rfl
  · rw [items_eq_pieces h.closed, h.kept htext]

end Joined

/-! ## The whole way -/

theorem filter_dropWhile_nil (ws : List Name) :
    (ws.dropWhile (· = [])).filter (· ≠ []) = ws.filter (· ≠ []) := by
  induction ws with
  | nil => rfl
  | cons w ws ih =>
      by_cases hw : w = []
      · rw [List.dropWhile_cons_of_pos (by simpa using hw), ih,
          List.filter_cons_of_neg (by simpa using hw)]
      · rw [List.dropWhile_cons_of_neg (by simpa using hw)]

theorem forM_modify_run {σ : Type} (f : Name → σ → σ) (opts : List Name) (s : σ) :
    ((opts.forM fun opt ↦ (modify (f opt) : StateM σ Unit)).run s).2 =
      opts.foldl (fun s opt ↦ f opt s) s := by
  induction opts generalizing s with
  | nil => rfl
  | cons opt opts ih => exact ih (f opt s)

/-- `hsi_parse_opts` passes the items on, one after the other. -/
theorem hsiParseOpts_eq (isLibOption : Name → Bool) (options : OptString) (flags : UInt32)
    (args : List Name) :
    hsiParseOpts isLibOption options flags args = (items options.bytes).foldl
      (fun s opt ↦ hsiParseOpt isLibOption (strlen options.bytes + 1) opt s)
        ⟨flags, args, .empty⟩ := by
  unfold hsiParseOpts
  dsimp only
  rw [forEachItem_eq _ options.zero_free]
  exact forM_modify_run _ _ _

/-- The size of the buffer. -/
theorem OptString.toNat_size (options : OptString) :
    (strlen options.bytes + 1).toNat = options.bytes.length + 1 := by
  have hfits := options.fits
  rw [UInt64.toNat_add, toNat_strlen (by omega)]
  exact Nat.mod_eq_of_lt hfits

/-- The string that `hsi_parse_opts` puts together. -/
theorem joined_hsiParseOpts (isLibOption : Name → Bool) (options : OptString) (flags : UInt32)
    (args : List Name) :
    Joined (strlen options.bytes + 1) ((items options.bytes).filter (¬ Claimed isLibOption ·)) []
      (hsiParseOpts isLibOption options flags args).udata := by
  have hstart : Joined (strlen options.bytes + 1) [] (items options.bytes)
      (⟨flags, args, .empty⟩ : OptState).udata :=
    joined_nil (by rw [options.toNat_size]; exact room_items options.bytes)
  rw [hsiParseOpts_eq]
  exact Joined.run hstart (fun opt hopt hzero ↦ options.zero_free (mem_of_mem_items hopt hzero))
    fun opt hopt ↦ whole_of_mem_items hopt

/-- **Options reach the mount.**  For every string with an even number of quotes, `hsi_parse_opts`
passes on its pieces, less an empty last one; the string it puts together fits its buffer; and what
is cut out of this string for the mount, whatever is done with it, are the options that nobody
claimed, up to empty ones. -/
theorem options_reach_mount (isLibOption : Name → Bool) (options : OptString)
    (hquotes : Even (options.bytes.count quote)) (flags : UInt32) (args : List Name) :
    let passed := dropEmptyLast (pieces comma quote false options.bytes)
    let udata := (hsiParseOpts isLibOption options flags args).udata
    ((∀ {m : Type → Type} [Monad m] (visit : Name → m Unit),
        forEachItem visit options.bytes = passed.forM visit) ∧
      hsiParseOpts isLibOption options flags args =
        passed.foldl (fun s opt ↦ hsiParseOpt isLibOption (strlen options.bytes + 1) opt s)
          ⟨flags, args, .empty⟩) ∧
    (udata.wrapped = false ∧ udata.overrun = false ∧
      udata.text.length + 1 ≤ options.bytes.length + 1) ∧
    ∃ cut : List Name,
      (∀ {m : Type → Type} [Monad m] (visit : Name → m Unit),
        forEachItem visit udata.text = cut.forM visit) ∧
      cut.filter (· ≠ []) = passed.filter fun opt ↦ opt ≠ [] ∧ ¬ Claimed isLibOption opt := by
  intro passed udata
  have hitems : items options.bytes = passed :=
    items_eq_pieces ((quotedAfter_eq_false_iff quote options.bytes).2 hquotes)
  have hjoined := joined_hsiParseOpts isLibOption options flags args
  rw [hitems] at hjoined
  refine ⟨⟨fun visit ↦ ?_, ?_⟩, ⟨hjoined.wrapped, hjoined.overrun, ?_⟩, items udata.text,
    fun visit ↦ forEachItem_eq visit hjoined.zero_free, ?_⟩
  · rw [forEachItem_eq visit options.zero_free, hitems]
  · rw [hsiParseOpts_eq, hitems]
  · have hroom := hjoined.room
    rw [options.toNat_size, room_nil, used] at hroom
    split at hroom
    · rename_i htext
      change udata.text.length + 1 ≤ _
      rw [htext]
      exact Nat.le_add_left _ _
    · exact hroom
  · rw [hjoined.items_eq, filter_dropEmptyLast, filter_dropWhile_nil, List.filter_filter]
    exact List.filter_congr fun opt _ ↦ (Bool.decide_and _ _).symm

/-- The options `ro,vers=3,,context="a,b",`. -/
def sampleOptions : OptString where
  bytes := nameOf "ro,vers=3,,context=\"a,b\","
  zero_free := by decide
  fits := by decide

theorem options_reach_mount_sample :
    Even (sampleOptions.bytes.count quote) ∧
    (hsiParseOpts (fun _ ↦ false) sampleOptions 0 []).udata.overrun = false ∧
    ∃ cut : List Name,
      (∀ visit : Name → EStateM Reject Parsing Unit,
        forEachItem visit (hsiParseOpts (fun _ ↦ false) sampleOptions 0 []).udata.text =
          cut.forM visit) ∧
      cut.filter (· ≠ []) = [nameOf "vers=3", nameOf "context=\"a,b\""] := by
  have hquotes : Even (sampleOptions.bytes.count quote) := by decide
  obtain ⟨-, ⟨-, hfits, -⟩, cut, hcut, hkept⟩ :=
    options_reach_mount (fun _ ↦ false) sampleOptions hquotes 0 []
  refine ⟨hquotes, hfits, cut, hcut, hkept.trans ?_⟩
  decide

end Hsfs.Mount
