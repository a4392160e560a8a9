import Hsfs.Mount.Known

/-!
# The buffers for the options

`hsi_nfs3_parse_options` writes each option that it keeps into `cbuf`, and from there to the end of
`new_opts`.  It checks the length of an item before it takes it apart, and the length of `new_opts`
before it adds to it.

`parseItemLogged` is the body of its loop with everything that is written.  What `new_opts` holds
always fits.  What `cbuf` holds is longer than the item, by the comma at its end and three more
bytes where `vers` becomes `nfsvers`, and need not fit (`buffers_hold_iff`).
-/

namespace Hsfs.Mount

open Text

/-! ## How long the text of an item is -/

/-- How many bytes longer an item becomes when its name changes. -/
def renamed (opt : Name) : Nat := if nameOf "vers=" <+: opt then 3 else 0

theorem renamed_append_equals {name : Name} (h : equals ∉ name) (value : Name) :
    renamed (name ++ equals :: value) = if name = nameOf "vers" then 3 else 0 := by
  have hvers : nameOf "vers=" = nameOf "vers" ++ [equals] := by decide
  have hnot : equals ∉ nameOf "vers" := by decide
  refine if_congr ⟨?_, ?_⟩ rfl rfl
  · rintro ⟨rest, hrest⟩
    rw [hvers, List.append_assoc] at hrest
    exact (append_equals_inj hnot h hrest).1.symm
  · rintro rfl
    refine ⟨value, ?_⟩
    rw [hvers, List.append_assoc]
    rfl

theorem renamed_of_notMem {opt : Name} (h : equals ∉ opt) : renamed opt = 0 :=
  if_neg fun hvers ↦ h (hvers.subset (by decide))

theorem length_assignText (opt value : Name) :
    (assignText opt value).length = (opt ++ equals :: value).length + 1 :=
  List.length_append

/-- The names under which a version is stored. -/
theorem nfsvers_iff : ∀ o ∈ numOpts,
    o.2 = .nfsvers ↔ nameOf o.1 = nameOf "nfsvers" ∨ nameOf o.1 = nameOf "vers" := by
  decide

theorem cbuf_decodeNumber {name value cbuf : Name} {item : Item}
    (h : decodeNumber name value = .ok ⟨item, some cbuf⟩) :
    cbuf.length = (name ++ equals :: value).length + 1 + if name = nameOf "vers" then 3 else 0 := by
  have hmem {o : String × NumOpt} (hfind : numOpts.find? (name = nameOf ·.1) = some o) :
      o ∈ numOpts ∧ name = nameOf o.1 := by
    have hname := List.find?_some hfind
    exact ⟨List.mem_of_find?_eq_some hfind, of_decide_eq_true hname⟩
  have hsame (hname : name ≠ nameOf "vers") (hcbuf : cbuf = assignText name value) :
      cbuf.length =
        (name ++ equals :: value).length + 1 + if name = nameOf "vers" then 3 else 0 := by
    rw [hcbuf, length_assignText, if_neg hname]
  unfold decodeNumber at h
  split at h
  · next o hfind =>
      obtain ⟨ho, rfl⟩ := hmem hfind
      cases h
      rcases (nfsvers_iff _ ho).1 rfl with hname | hname
      · rw [hname, length_assignText, if_neg (by decide)]
      · have hlong : (nameOf "nfsvers").length = (nameOf "vers").length + 3 := by decide
        rw [hname, if_pos rfl, length_assignText, List.length_append, List.length_append, hlong]
        omega
  · next o num hne hfind =>
      obtain ⟨ho, rfl⟩ := hmem hfind
      cases h
      exact hsame (fun hname ↦ hne ((nfsvers_iff _ ho).2 (.inr hname))) rfl
  · split at h
    · next hname =>
        cases h
        exact hsame (hname ▸ by decide) rfl
    · split at h
      · cases h
      · split at h
        · cases h
        · cases h

theorem cbuf_decodeWord {name value cbuf : Name} {item : Item}
    (h : decodeWord name value = .ok ⟨item, some cbuf⟩) :
    cbuf = assignText name value ∧ name ≠ nameOf "vers" := by
  unfold decodeWord at h
  split at h
  · next hname =>
      have hvers : name ≠ nameOf "vers" := hname ▸ by decide
      split at h
      · cases h
        exact ⟨rfl, hvers⟩
      · split at h
        · cases h
          exact ⟨rfl, hvers⟩
        · cases h
  · split at h
    · cases h
    · split at h
      · next hname =>
          cases h
          exact ⟨rfl, hname ▸ by decide⟩
      · split at h
        · next hname =>
            cases h
            exact ⟨rfl, hname ▸ by decide⟩
        · cases h

theorem cbuf_decodeFlag {opt cbuf : Name} {item : Item}
    (h : decodeFlag opt = .ok ⟨item, some cbuf⟩) :
    cbuf = opt ++ [comma] := by
  -- what is written is the item again: a flag, behind the `no` if there was one
  have htext : (if decide (opt.take 2 ≠ nameOf "no") = true then
        if decide (opt.take 2 ≠ nameOf "no") = true then opt else opt.drop 2
      else nameOf "no" ++ if decide (opt.take 2 ≠ nameOf "no") = true then opt else opt.drop 2) =
      opt := by
    by_cases hno : opt.take 2 ≠ nameOf "no"
    · rw [decide_eq_true hno, if_pos rfl, if_pos rfl]
    · rw [decide_eq_false hno, if_neg Bool.false_ne_true, if_neg Bool.false_ne_true,
        ← not_not.1 hno, List.take_append_drop]
  unfold decodeFlag at h
  dsimp only at h
  rw [htext] at h
  generalize (if decide (opt.take 2 ≠ nameOf "no") = true then opt else opt.drop 2) = flag at h
  generalize decide (opt.take 2 ≠ nameOf "no") = val at h
  split at h
  · cases h
  · split at h
    · cases h
      rfl
    · split at h
      · cases h
        rfl
      · cases h

/-- **The text of an item is longer than the item**: by the comma, and what its name becomes
longer. -/
theorem length_cbuf {opt cbuf : Name} {item : Item} (h : decodeItem opt = .ok ⟨item, some cbuf⟩) :
    cbuf.length = opt.length + 1 + renamed opt := by
  have hlen := ((known_iff opt).2 ⟨_, h⟩).2
  by_cases hequals : equals ∈ opt
  · obtain ⟨name, value, hname, rfl⟩ := eq_append_equals hequals
    rw [decodeItem_append_equals hname hlen] at h
    rw [renamed_append_equals hname]
    split at h
    · exact cbuf_decodeNumber h
    · obtain ⟨rfl, hvers⟩ := cbuf_decodeWord h
      rw [length_assignText, if_neg hvers]
  · rw [decodeItem_of_notMem hequals hlen] at h
    rw [cbuf_decodeFlag h, List.length_append, renamed_of_notMem hequals]
    rfl

theorem cbuf_ne_nil {opt cbuf : Name} {item : Item} (h : decodeItem opt = .ok ⟨item, some cbuf⟩) :
    cbuf ≠ [] := by
  rintro rfl
  have hlen := length_cbuf h
  rw [List.length_nil] at hlen
  omega

/-! ## What is written -/

/-- The state of the parsing, with what has been written: every text that `sprintf` has put into
`cbuf`, and every text that `strcat` has left in `new_opts`. -/
structure Logged where
  parsing : Parsing
  cbufs : List Name
  newOpts : List Name
  deriving DecidableEq

/-- The body of the loop of `hsi_nfs3_parse_options`, with what it writes. -/
def parseItemLogged (optSize : Nat) (opt : Name) : EStateM Reject Logged Unit := do
  match decodeItem opt with
  | .error e => throw e
  | .ok ⟨item, cbuf⟩ => do
      modify fun s ↦ { s with parsing := item.store s.parsing }
      match cbuf with
      | none => pure ()
      | some cbuf => do
          modify fun s ↦ { s with cbufs := s.cbufs ++ [cbuf] }
          let s ← get
          if optSize ≤ s.parsing.newOpts.length + cbuf.length then
            throw .outBad
          else
            let newOpts := s.parsing.newOpts ++ cbuf
            set { s with parsing := { s.parsing with newOpts }, newOpts := s.newOpts ++ [newOpts] }

/-- The state that logged parsing ends with. -/
def endOf : EStateM.Result Reject Logged Unit → Logged
  | .ok _ s => s
  | .error _ s => s

/-- What `hsi_nfs3_parse_options` writes until it ends. -/
def optionWrites (optSize : Nat) (oldOpts : Name) (d : MountData) : Logged :=
  endOf ((forEachItem (parseItemLogged optSize) oldOpts).run ⟨⟨d, none, []⟩, [], []⟩)

/-! ## The log says what the function does -/

/-- What is left when the log is dropped. -/
def erase : EStateM.Result Reject Logged Unit → EStateM.Result Reject Parsing Unit
  | .ok a s => .ok a s.parsing
  | .error e s => .error e s.parsing

section Step

variable {optSize : Nat} {opt : Name} {s : Logged} {item : Item}

theorem parseItemLogged_run_error {e : Reject} (h : decodeItem opt = .error e) :
    (parseItemLogged optSize opt).run s = .error e s := by
  unfold parseItemLogged
  rw [h]
  rfl

theorem parseItemLogged_run_none (h : decodeItem opt = .ok ⟨item, none⟩) :
    (parseItemLogged optSize opt).run s =
      .ok () { s with parsing := item.store s.parsing } := by
  unfold parseItemLogged
  rw [h]
  rfl

variable (optSize s) in
theorem parseItemLogged_run_some {cbuf : Name} (h : decodeItem opt = .ok ⟨item, some cbuf⟩) :
    (parseItemLogged optSize opt).run s =
      if optSize ≤ s.parsing.newOpts.length + cbuf.length then
        .error .outBad ⟨item.store s.parsing, s.cbufs ++ [cbuf], s.newOpts⟩
      else
        .ok () ⟨{ item.store s.parsing with newOpts := s.parsing.newOpts ++ cbuf },
          s.cbufs ++ [cbuf], s.newOpts ++ [s.parsing.newOpts ++ cbuf]⟩ := by
  rw [← item.newOpts_store s.parsing]
  unfold parseItemLogged
  rw [h]
  change (if _ then _ else _ : EStateM Reject Logged Unit).run
    ⟨item.store s.parsing, s.cbufs ++ [cbuf], s.newOpts⟩ = _
  split <;> rfl

end Step

/-- Without the log, the body does what the body of the loop does. -/
theorem erase_parseItemLogged (optSize : Nat) (opt : Name) (s : Logged) :
    erase ((parseItemLogged optSize opt).run s) = (parseItem optSize opt).run s.parsing := by
  cases hdec : decodeItem opt with
  | error e => rw [parseItemLogged_run_error hdec, parseItem_run_error hdec]; rfl
  | ok dec =>
      obtain ⟨item, cbuf⟩ := dec
      cases cbuf with
      | none => rw [parseItemLogged_run_none hdec, parseItem_run_none hdec]; rfl
      | some cbuf =>
          rw [parseItemLogged_run_some optSize s hdec, parseItem_run_some optSize s.parsing hdec]
          split <;> rfl

/-- Without the log, the loop does what it does. -/
theorem erase_forM (optSize : Nat) (opts : List Name) (s : Logged) :
    erase ((opts.forM (parseItemLogged optSize)).run s) =
      (opts.forM (parseItem optSize)).run s.parsing := by
  induction opts generalizing s with
  | nil => rfl
  | cons opt opts ih =>
      have hstep := erase_parseItemLogged optSize opt s
      cases hrun : (parseItemLogged optSize opt).run s with
      | ok a s' =>
          rw [hrun] at hstep
          rw [forM_run_ok hrun, forM_run_ok hstep.symm, ih]
      | error e s' =>
          rw [hrun] at hstep
          rw [forM_run_error hrun, forM_run_error hstep.symm]
          rfl

/-- **The log is that of `hsi_nfs3_parse_options`**: what it leaves in `new_opts` is what the logged
parsing leaves there. -/
theorem newOpts_optionWrites (resolve : Resolver) (optSize : Nat) {oldOpts : Name}
    (hzero : 0 ∉ oldOpts)
    (d : MountData) :
    (hsiNfs3ParseOptions resolve optSize oldOpts d).2.newOpts =
      (optionWrites optSize oldOpts d).parsing.newOpts := by
  have herase := erase_forM optSize (items oldOpts) ⟨⟨d, none, []⟩, [], []⟩
  unfold hsiNfs3ParseOptions optionWrites
  rw [forEachItem_eq _ hzero, forEachItem_eq _ hzero, ← herase]
  cases ((items oldOpts).forM (parseItemLogged optSize)).run ⟨⟨d, none, []⟩, [], []⟩ with
  | error e s => cases e <;> rfl
  | ok a s =>
      dsimp only [erase, endOf]
      split <;> rfl

/-! ## The items that are reached -/

/-- Parsing comes to an item if all items before it are known and their text fits behind the `len`
bytes that are there. -/
def Reached (optSize len : Nat) (opts : List Name) (opt : Name) : Prop :=
  ∃ front rest, opts = front ++ opt :: rest ∧ (∀ o ∈ front, Known o) ∧
    (reassembled front = [] ∨ len + (reassembled front).length < optSize)

/-- Parsing comes to the first item, and to the others if it goes on. -/
theorem reached_cons_iff {optSize len : Nat} {o opt : Name} {opts : List Name} :
    Reached optSize len (o :: opts) opt ↔ opt = o ∨
      (Known o ∧ (textOf o = [] ∨ len + (textOf o).length < optSize) ∧
        Reached optSize (len + (textOf o).length) opts opt) := by
  constructor
  · rintro ⟨front, rest, hsplit, hknown, hfits⟩
    cases front with
    | nil => exact .inl (List.cons.inj hsplit).1.symm
    | cons o' front =>
        obtain ⟨rfl, rfl⟩ := List.cons.inj hsplit
        rw [List.forall_mem_cons] at hknown
        rw [reassembled_cons, List.append_eq_nil_iff, List.length_append, ← Nat.add_assoc] at hfits
        refine .inr ⟨hknown.1, ?_, front, rest, rfl, hknown.2, hfits.imp_left And.right⟩
        exact hfits.imp And.left (Nat.lt_of_le_of_lt (Nat.le_add_right _ _))
  · rintro (rfl | ⟨ho, htext, front, rest, rfl, hknown, hfits⟩)
    · exact ⟨[], opts, rfl, fun _ h ↦ absurd h List.not_mem_nil, .inl rfl⟩
    · refine ⟨o :: front, rest, rfl, List.forall_mem_cons.2 ⟨ho, hknown⟩, ?_⟩
      rw [reassembled_cons, List.append_eq_nil_iff, List.length_append, ← Nat.add_assoc]
      rcases hfits with hnil | hfits
      · refine htext.imp (fun h ↦ ⟨h, hnil⟩) fun h ↦ ?_
        rwa [hnil, List.length_nil, Nat.add_zero]
      · exact .inr hfits

/-- An item with a text is written to `cbuf`. -/
theorem exists_of_textOf_ne_nil {opt : Name} (h : textOf opt ≠ []) :
    ∃ item, decodeItem opt = .ok ⟨item, some (textOf opt)⟩ := by
  cases hdec : decodeItem opt with
  | error e =>
      rw [textOf, hdec] at h
      exact absurd rfl h
  | ok dec =>
      rw [textOf_of_ok hdec] at h ⊢
      obtain ⟨item, cbuf⟩ := dec
      cases cbuf with
      | none => exact absurd rfl h
      | some cbuf => exact ⟨item, rfl⟩

theorem not_reached_nil {optSize len : Nat} {opt : Name} : ¬ Reached optSize len [] opt := by
  rintro ⟨front, rest, hsplit, -⟩
  exact List.append_ne_nil_of_right_ne_nil front (List.cons_ne_nil opt rest) hsplit.symm

/-- Parsing comes to an item for which `cbuf` is written. -/
def Writes (optSize len : Nat) (opts : List Name) (cbuf : Name) : Prop :=
  ∃ opt item, Reached optSize len opts opt ∧ decodeItem opt = .ok ⟨item, some cbuf⟩

section Writes

variable {optSize len : Nat} {o cbuf : Name} {opts : List Name}

theorem not_writes_nil : ¬ Writes optSize len [] cbuf := by
  rintro ⟨opt, item, hreached, -⟩
  exact not_reached_nil hreached

theorem writes_cons_iff : Writes optSize len (o :: opts) cbuf ↔
    (∃ item, decodeItem o = .ok ⟨item, some cbuf⟩) ∨
      (Known o ∧ (textOf o = [] ∨ len + (textOf o).length < optSize) ∧
        Writes optSize (len + (textOf o).length) opts cbuf) := by
  constructor
  · rintro ⟨opt, item, hreached, hopt⟩
    rcases reached_cons_iff.1 hreached with rfl | ⟨hknown, hfits, hrest⟩
    · exact .inl ⟨item, hopt⟩
    · exact .inr ⟨hknown, hfits, opt, item, hrest, hopt⟩
  · rintro (⟨item, ho⟩ | ⟨hknown, hfits, opt, item, hrest, hopt⟩)
    · exact ⟨o, item, reached_cons_iff.2 (.inl rfl), ho⟩
    · exact ⟨opt, item, reached_cons_iff.2 (.inr ⟨hknown, hfits, hrest⟩), hopt⟩

theorem not_writes_cons {e : Reject} (h : decodeItem o = .error e) :
    ¬ Writes optSize len (o :: opts) cbuf := by
  rw [writes_cons_iff, known_iff, h]
  rintro (⟨item, ⟨⟩⟩ | ⟨⟨dec, ⟨⟩⟩, -⟩)

variable {item : Item}

theorem writes_cons_none (h : decodeItem o = .ok ⟨item, none⟩) :
    Writes optSize len (o :: opts) cbuf ↔ Writes optSize len opts cbuf := by
  have htext : textOf o = [] := textOf_of_ok h
  rw [writes_cons_iff, htext, and_iff_right ((known_iff o).2 ⟨_, h⟩), and_iff_right (.inl rfl), h]
  refine or_iff_right ?_
  rintro ⟨item, ⟨⟩⟩

theorem writes_cons_some {text : Name} (h : decodeItem o = .ok ⟨item, some text⟩) :
    Writes optSize len (o :: opts) cbuf ↔
      cbuf = text ∨ len + text.length < optSize ∧ Writes optSize (len + text.length) opts cbuf := by
  have htext : textOf o = text := textOf_of_ok h
  rw [writes_cons_iff, htext, and_iff_right ((known_iff o).2 ⟨_, h⟩), or_iff_right (cbuf_ne_nil h),
    h]
  refine or_congr_left ⟨?_, ?_⟩
  · rintro ⟨item, ⟨⟩⟩
    rfl
  · rintro rfl
    exact ⟨item, rfl⟩

end Writes

/-! ## A whole run -/

/-- **`cbuf` holds the texts of the items that are reached**, and nothing else. -/
theorem mem_cbufs_iff (optSize : Nat) (opts : List Name) (s : Logged) (cbuf : Name) :
    cbuf ∈ (endOf ((opts.forM (parseItemLogged optSize)).run s)).cbufs ↔
      cbuf ∈ s.cbufs ∨ Writes optSize s.parsing.newOpts.length opts cbuf := by
  induction opts generalizing s with
  | nil => exact (or_iff_left not_writes_nil).symm
  | cons o opts ih =>
      cases hdec : decodeItem o with
      | error e =>
          rw [forM_run_error (parseItemLogged_run_error hdec)]
          exact (or_iff_left (not_writes_cons hdec)).symm
      | ok dec =>
          obtain ⟨item, text⟩ := dec
          cases text with
          | none =>
              rw [forM_run_ok (parseItemLogged_run_none hdec), ih, writes_cons_none hdec]
              dsimp only
              rw [item.newOpts_store]
          | some text =>
              have hrun := parseItemLogged_run_some optSize s hdec
              rw [writes_cons_some hdec]
              split at hrun
              · next hlong =>
                  have hstop : ¬ (s.parsing.newOpts.length + text.length < optSize ∧
                      Writes optSize (s.parsing.newOpts.length + text.length) opts cbuf) :=
                    fun h ↦ Nat.not_lt.2 hlong h.1
                  rw [forM_run_error hrun, or_iff_left hstop]
                  change cbuf ∈ s.cbufs ++ [text] ↔ _
                  rw [List.mem_append, List.mem_singleton]
              · next hlong =>
                  rw [forM_run_ok hrun, ih, and_iff_right (Nat.lt_of_not_le hlong), ← or_assoc]
                  dsimp only
                  rw [List.mem_append, List.mem_singleton, List.length_append]

/-- **What `new_opts` holds fits**, with its terminating zero. -/
theorem length_newOpts (optSize : Nat) (opts : List Name) (s : Logged)
    (hs : ∀ newOpts ∈ s.newOpts, newOpts.length < optSize) :
    ∀ newOpts ∈ (endOf ((opts.forM (parseItemLogged optSize)).run s)).newOpts,
      newOpts.length < optSize := by
  induction opts generalizing s with
  | nil => exact hs
  | cons o opts ih =>
      cases hdec : decodeItem o with
      | error e =>
          rw [forM_run_error (parseItemLogged_run_error hdec)]
          exact hs
      | ok dec =>
          obtain ⟨item, text⟩ := dec
          cases text with
          | none =>
              rw [forM_run_ok (parseItemLogged_run_none hdec)]
              exact ih _ hs
          | some text =>
              have hrun := parseItemLogged_run_some optSize s hdec
              split at hrun
              · rw [forM_run_error hrun]
                exact hs
              · next hlong =>
                  rw [forM_run_ok hrun]
                  refine ih _ (List.forall_mem_append.2 ⟨hs, List.forall_mem_singleton.2 ?_⟩)
                  rw [List.length_append]
                  exact Nat.lt_of_not_le hlong

/-- **When the buffers hold the options.**  For every string: what is written to `cbuf` and to
`new_opts` fits, with its terminating zero, if and only if every item that parsing comes to and
writes again has two bytes less than `cbuf`, or five if it begins with `vers=`. -/
theorem buffers_hold_iff (optSize : Nat) (oldOpts : Name) (hzero : 0 ∉ oldOpts) (d : MountData) :
    let log := optionWrites optSize oldOpts d
    ((∀ cbuf ∈ log.cbufs, cbuf.length + 1 ≤ cbufSize) ∧
      ∀ newOpts ∈ log.newOpts, newOpts.length + 1 ≤ optSize) ↔
    ∀ opt, Reached optSize 0 (items oldOpts) opt → textOf opt ≠ [] →
      opt.length + 2 + renamed opt ≤ cbufSize := by
  intro log
  have hlog : log = endOf (((items oldOpts).forM (parseItemLogged optSize)).run
      ⟨⟨d, none, []⟩, [], []⟩) := by
    rw [← forEachItem_eq _ hzero]
    rfl
  have hnew : ∀ newOpts ∈ log.newOpts, newOpts.length + 1 ≤ optSize := by
    rw [hlog]
    exact length_newOpts optSize (items oldOpts) _ fun _ h ↦ absurd h List.not_mem_nil
  have hcbufs (cbuf : Name) : cbuf ∈ log.cbufs ↔ Writes optSize 0 (items oldOpts) cbuf := by
    rw [hlog, mem_cbufs_iff]
    exact or_iff_right List.not_mem_nil
  rw [and_iff_left hnew]
  constructor
  · intro hfits opt hreached htext
    obtain ⟨item, hopt⟩ := exists_of_textOf_ne_nil htext
    have hcbuf := hfits _ ((hcbufs _).2 ⟨opt, item, hreached, hopt⟩)
    rw [length_cbuf hopt] at hcbuf
    omega
  · intro hshort cbuf hcbuf
    obtain ⟨opt, item, hreached, hopt⟩ := (hcbufs cbuf).1 hcbuf
    have hlen := length_cbuf hopt
    have htext : textOf opt ≠ [] := by
      rw [textOf_of_ok hopt]
      exact cbuf_ne_nil hopt
    have hopt := hshort opt hreached htext
    omega

theorem buffers_hold_iff_known :
    let log := optionWrites 1024 knownOptions (.start 0 ⟨0, 0, 0⟩)
    (∀ cbuf ∈ log.cbufs, cbuf.length + 1 ≤ cbufSize) ∧
      ∀ newOpts ∈ log.newOpts, newOpts.length + 1 ≤ 1024 := by
  have hshort : ∀ opt ∈ items knownOptions, opt.length + 2 + renamed opt ≤ cbufSize := by
    decide
  refine (buffers_hold_iff 1024 knownOptions (by decide) (.start 0 ⟨0, 0, 0⟩)).2 ?_
  rintro opt ⟨front, rest, hsplit, -⟩ -
  refine hshort opt ?_
  rw [hsplit]
  exact List.mem_append_right _ List.mem_cons_self

/-- A host with a name of 117 bytes, in an item of 127 bytes. -/
def longHost : Name := nameOf "mounthost=" ++ List.replicate 117 97

/-- `cbuf` need not hold an item that is shorter than it: there is no place for the comma. -/
theorem not_buffers_hold :
    ¬ ∀ (optSize : Nat) (oldOpts : Name), 0 ∉ oldOpts → ∀ d : MountData,
      let log := optionWrites optSize oldOpts d
      (∀ cbuf ∈ log.cbufs, cbuf.length + 1 ≤ cbufSize) ∧
        ∀ newOpts ∈ log.newOpts, newOpts.length + 1 ≤ optSize := by
  intro h
  have hlong : ¬ ∀ cbuf ∈ (optionWrites 1024 longHost (.start 0 ⟨0, 0, 0⟩)).cbufs,
      cbuf.length + 1 ≤ cbufSize := by decide +kernel
  exact hlong (h 1024 longHost (by decide) (.start 0 ⟨0, 0, 0⟩)).1

end Hsfs.Mount
