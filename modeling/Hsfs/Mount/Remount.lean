import Hsfs.Mount.FixOpts
import Hsfs.Mount.Known
import Hsfs.Mount.Transport

/-!
# Mounting again

The flags that `hsi_add_mtab` writes are those of the superblock, and `hsi_nfs3_parse_options` has
set them as well.  If the options in mtab are given to the program again, it goes through the same
two parsers, with the flags that came out the first time.  The settings are the same as before,
unless the name of the user is in mtab; then no option of the mount is honoured (`remount_eq`).

This is about the settings that the two parsers make, not about the arguments for FUSE.  Options
that the FUSE library claims are not written to mtab; and because `NFS_MOUNT_TCP` and `MS_RDONLY`
are the same bit, a mount with `tcp` is in mtab with `ro`, which FUSE is told when it is mounted
again.
-/

namespace Hsfs.Mount

open Text Word

/-! ## The flag of the transport -/

theorem supported_setTcp (b : Option Bool) {flags : UInt32}
    (h : flags &&& ~~~supportedFlags = 0) : setTcp b flags &&& ~~~supportedFlags = 0 := by
  have hzero : bit supportedFlags 0 = true := by decide
  rw [and_not_eq_zero_iff] at h ⊢
  intro i hi hbit
  rw [bit_setTcp _ _ hi] at hbit
  split at hbit
  · rename_i h0
    rw [h0, hzero]
  · exact h i hi hbit

/-! ## Parsing with other flags -/

/-- Other flags. -/
def Parsing.withFlags (flags : UInt32) (s : Parsing) : Parsing :=
  { s with data := { s.data with flags } }

@[simp] theorem Parsing.withFlags_self (s : Parsing) : s.withFlags s.data.flags = s := rfl

@[simp] theorem Parsing.flags_withFlags (flags : UInt32) (s : Parsing) :
    (s.withFlags flags).data.flags = flags := rfl

/-- An item looks at no flag. -/
theorem Item.store_withFlags (flags : UInt32) (s : Parsing) (item : Item) :
    item.store (s.withFlags flags) = (item.store s).withFlags (setTcp item.bit flags) := by
  cases item with
  | num opt val => cases opt <;> rfl
  | mounthost host => rfl
  | ignored => rfl
  | transport t =>
      cases t with
      | noudp =>
          have hflags := setTcp_setTcp (some false) (some true) flags
          exact congrArg (Parsing.withFlags · (Item.store s (.transport .noudp))) hflags
      | _ => rfl

/-- Change the state that parsing ends with. -/
def mapState (g : Parsing → Parsing) :
    EStateM.Result Reject Parsing Unit → EStateM.Result Reject Parsing Unit
  | .ok a s => .ok a (g s)
  | .error e s => .error e (g s)

/-- **Parsing with other flags** ends in the same way, and in the same state but for the flags. -/
theorem run_withFlags (optSize : Nat) (opts : List Name) (flags : UInt32) (s : Parsing) :
    (opts.forM (parseItem optSize)).run (s.withFlags flags) =
      mapState (Parsing.withFlags
        (setTcp (latest Item.bit (applied optSize s.newOpts.length opts)) flags))
        ((opts.forM (parseItem optSize)).run s) := by
  rw [← foldl_setTcp]
  induction opts generalizing s flags with
  | nil => rfl
  | cons opt opts ih =>
      rw [applied]
      cases hdec : decodeItem opt with
      | error e =>
          rw [forM_run_error (parseItem_run_error hdec), forM_run_error (parseItem_run_error hdec)]
          rfl
      | ok dec =>
          obtain ⟨item, cbuf⟩ := dec
          cases cbuf with
          | none =>
              rw [forM_run_ok (parseItem_run_none hdec), forM_run_ok (parseItem_run_none hdec),
                item.store_withFlags, ih, item.newOpts_store]
              rfl
          | some cbuf =>
              have hrun := parseItem_run_some optSize s hdec
              have hrun' := parseItem_run_some optSize (s.withFlags flags) hdec
              dsimp only
              by_cases hlong : optSize ≤ s.newOpts.length + cbuf.length
              · rw [if_pos hlong] at hrun
                rw [if_pos (show optSize ≤
                  (s.withFlags flags).newOpts.length + cbuf.length from hlong),
                    item.store_withFlags] at hrun'
                rw [forM_run_error hrun, forM_run_error hrun', if_pos hlong]
                rfl
              · rw [if_neg hlong] at hrun
                rw [if_neg (show ¬ optSize ≤
                  (s.withFlags flags).newOpts.length + cbuf.length from hlong),
                    item.store_withFlags] at hrun'
                rw [forM_run_ok hrun, forM_run_ok hrun', if_neg hlong, ← List.length_append]
                exact ih (setTcp item.bit flags) { item.store s with newOpts := s.newOpts ++ cbuf }

/-- The end of `hsi_nfs3_parse_options`, behind the loop. -/
def endParse (resolve : Resolver) : EStateM.Result Reject Parsing Unit → Int × Parsing
  | .error .badParameter s => (0, s)
  | .error .outBad s => (1, s)
  | .ok _ s =>
      match s.mounthost with
      | none => (0, s)
      | some mounthost =>
          let (err, saddr) := hsiGethostbyname resolve mounthost s.data.mnt.saddr
          (if err ≠ 0 then 1 else 0,
            { s with data := { s.data with mnt := { s.data.mnt with saddr } } })

theorem hsiNfs3ParseOptions_eq (resolve : Resolver) (optSize : Nat) {oldOpts : Name}
    (hzero : 0 ∉ oldOpts) (d : MountData) :
    hsiNfs3ParseOptions resolve optSize oldOpts d =
      endParse resolve (((items oldOpts).forM (parseItem optSize)).run ⟨d, none, []⟩) := by
  rw [← forEachItem_eq _ hzero]
  unfold hsiNfs3ParseOptions endParse
  rfl

theorem endParse_withFlags (resolve : Resolver) (flags : UInt32)
    (r : EStateM.Result Reject Parsing Unit) :
    endParse resolve (mapState (Parsing.withFlags flags) r) =
      ((endParse resolve r).1, (endParse resolve r).2.withFlags flags) := by
  rcases r with ⟨-, s⟩ | ⟨_ | _, s⟩
  · obtain ⟨data, mounthost, newOpts⟩ := s
    cases mounthost <;> rfl
  · rfl
  · rfl

/-- The second parser does not know the name of the user. -/
theorem decodeItem_user (name : Name) :
    decodeItem (nameOf "user=" ++ name) = .error .badParameter := by
  have hsplit : nameOf "user=" ++ name = nameOf "user" ++ equals :: name := rfl
  have hnumber : numOpts.find? (nameOf "user" = nameOf ·.1) = none := by decide
  have hequals : equals ∉ nameOf "user" := by decide
  rw [hsplit]
  by_cases hlen : (nameOf "user" ++ equals :: name).length < cbufSize
  · rw [decodeItem_append_equals hequals hlen]
    split
    · unfold decodeNumber
      rw [hnumber]
      rfl
    · rfl
  · exact if_pos (Nat.not_lt.1 hlen)

section Again

variable (resolve : Resolver) (optSize : Nat) (opts : List Name) (flags : UInt32)
    (addr : SockaddrIn)

/-- What the second parser makes of some items. -/
def parseItems : Int × Parsing :=
  endParse resolve ((opts.forM (parseItem optSize)).run ⟨.start flags addr, none, []⟩)

/-- The flags that come out. -/
theorem flags_parseItems : (parseItems resolve optSize opts flags addr).2.data.flags =
    setTcp (latest Item.bit (applied optSize 0 opts)) flags := by
  have hrun := run_withFlags optSize opts flags ⟨.start flags addr, none, []⟩
  have hend := congrArg (endParse resolve) hrun
  rw [endParse_withFlags] at hend
  exact congrArg (fun r : Int × Parsing ↦ r.2.data.flags) hend

/-- **To parse the same items again, with the flags that came out, changes nothing.** -/
theorem parseItems_again :
    parseItems resolve optSize opts (parseItems resolve optSize opts flags addr).2.data.flags addr =
      parseItems resolve optSize opts flags addr := by
  have hflags := flags_parseItems resolve optSize opts flags addr
  have hrun := run_withFlags optSize opts (parseItems resolve optSize opts flags addr).2.data.flags
    ⟨.start flags addr, none, []⟩
  have hend := congrArg (endParse resolve) hrun
  rw [endParse_withFlags] at hend
  refine hend.trans ?_
  have hsame : setTcp (latest Item.bit (applied optSize 0 opts))
      (parseItems resolve optSize opts flags addr).2.data.flags =
        (parseItems resolve optSize opts flags addr).2.data.flags := by
    rw [hflags, setTcp_setTcp, Option.or_self]
  change ((parseItems resolve optSize opts flags addr).1,
    (parseItems resolve optSize opts flags addr).2.withFlags (setTcp (latest Item.bit
      (applied optSize 0 opts)) (parseItems resolve optSize opts flags addr).2.data.flags)) = _
  rw [hsame, Parsing.withFlags_self]

variable {resolve optSize opts flags addr}

/-- An empty item at the end is not reached, or it is an error. -/
theorem run_concat_nil (s : Parsing) :
    ((opts ++ [[]]).forM (parseItem optSize)).run s = (opts.forM (parseItem optSize)).run s ∨
      ∃ s', ((opts ++ [[]]).forM (parseItem optSize)).run s = .error .outBad s' := by
  induction opts generalizing s with
  | nil =>
      have hempty : decodeItem [] = .error .outBad := by decide
      exact .inr ⟨s, forM_run_error (parseItem_run_error hempty)⟩
  | cons opt opts ih =>
      rw [List.cons_append]
      cases hrun : (parseItem optSize opt).run s with
      | ok _ s' =>
          rw [forM_run_ok hrun, forM_run_ok hrun]
          exact ih s'
      | error e s' =>
          rw [forM_run_error hrun, forM_run_error hrun]
          exact .inl rfl

/-- Without an error, there was no empty item to stop at. -/
theorem parseItems_dropEmptyLast (hok : (parseItems resolve optSize opts flags addr).1 = 0) :
    parseItems resolve optSize (dropEmptyLast opts) flags addr =
      parseItems resolve optSize opts flags addr := by
  unfold dropEmptyLast
  split
  · rename_i hlast
    obtain ⟨front, rfl⟩ := List.getLast?_eq_some_iff.1 hlast
    unfold parseItems at hok ⊢
    rw [List.dropLast_concat]
    rcases run_concat_nil (.mk (.start flags addr) none []) with hsame | ⟨s', herror⟩
    · rw [hsame]
    · rw [herror] at hok
      cases hok
  · rfl

/-- The second parser stops at the name of the user, without an error. -/
theorem parseItems_user (name : Name) (rest : List Name) :
    parseItems resolve optSize ((nameOf "user=" ++ name) :: rest) flags addr =
      (0, ⟨.start flags addr, none, []⟩) := by
  unfold parseItems
  rw [forM_run_error (parseItem_run_error (decodeItem_user name))]
  rfl

end Again

/-! ## From one command line to the next -/

section Remount

variable {lib : FuseLib} {progname : Name} {cmd : CommandLine} {parsed : Parsed}

theorem supported_foldlM_read {switches : List Switch} {p p' : Process}
    (h : switches.foldlM Switch.read p = some p') (hp : p.flags &&& ~~~supportedFlags = 0) :
    p'.flags &&& ~~~supportedFlags = 0 := by
  induction switches generalizing p with
  | nil => exact Option.some.inj h ▸ hp
  | cons sw switches ih =>
      obtain ⟨q, hq, hrest⟩ := Option.bind_eq_some_iff.1 h
      refine ih hrest ?_
      cases sw with
      | r => exact Option.some.inj hq ▸ supported_setTcp (some true) hp
      | w => exact Option.some.inj hq ▸ supported_setTcp (some false) hp
      | V => cases hq
      | h => cases hq
      | _ => exact Option.some.inj hq ▸ hp

/-- What the first parser hands on to mtab. -/
theorem exists_joined (h : hsiParseCmdline lib progname cmd 0 = .ok parsed) :
    parsed.process.flags &&& ~~~supportedFlags = 0 ∧
      ∃ (len : UInt64) (options : List Name) (u : Udata),
        Joined len (options.filter (¬ Claimed lib.isLibOption ·)) [] u ∧ parsed.oldOpts = u.text ∧
        ∀ pwName flags, hsiFixOptsString pwName flags (parsed.udata.map (·.text)) =
          hsiFixOptsString pwName flags (some u.text) := by
  obtain ⟨p, args, hp, rfl⟩ := hsiParseCmdline_cases h
  have hflags := supported_foldlM_read hp (by decide)
  unfold Process.parseTdata
  cases p.tdata with
  | none =>
      refine ⟨hflags, 0, [], .empty, joined_nil (Nat.zero_le _), rfl, fun pwName flags ↦ ?_⟩
      unfold hsiFixOptsString
      exact (if_neg (not_not.2 rfl)).symm
  | some options =>
      exact ⟨supported_hsiParseOpts lib.isLibOption options hflags args, _, _, _,
        joined_hsiParseOpts lib.isLibOption options p.flags args, rfl, fun _ _ ↦ rfl⟩

/-- What the first parser makes of `-o`. -/
theorem parsed_of_o {options : OptString}
    (h : hsiParseCmdline lib progname ⟨[.o options], false⟩ 0 = .ok parsed) :
    ∃ args, parsed.process.flags = (hsiParseOpts lib.isLibOption options 0 args).flags ∧
      parsed.oldOpts = (hsiParseOpts lib.isLibOption options 0 args).udata.text := by
  obtain ⟨p, args, hp, rfl⟩ := hsiParseCmdline_cases h
  obtain rfl := Option.some.inj hp
  exact ⟨args, rfl, rfl⟩

/-- What both parsers leave behind. -/
theorem parseBoth_eq_parseItems {resolve : Resolver} {optSize : Nat} {addr : SockaddrIn} {ret : Int}
    {d : MountData} (h : parseBoth lib progname resolve optSize addr cmd = .ok (ret, d)) :
    ∃ parsed, hsiParseCmdline lib progname cmd 0 = .ok parsed ∧
      ret = (parseItems resolve optSize (items parsed.oldOpts) parsed.process.flags addr).1 ∧
      d = (parseItems resolve optSize (items parsed.oldOpts) parsed.process.flags addr).2.data := by
  unfold parseBoth at h
  cases hcmd : hsiParseCmdline lib progname cmd 0 with
  | error e =>
      rw [hcmd] at h
      cases h
  | ok parsed =>
      rw [hcmd] at h
      obtain ⟨hret, hd⟩ := Prod.mk.inj (Except.ok.inj h)
      have heq := hsiNfs3ParseOptions_eq resolve optSize (hsiParseCmdline_ok hcmd).2.1
        (.start parsed.process.flags addr)
      exact ⟨parsed, rfl, hret.symm.trans (congrArg Prod.fst heq),
        hd.symm.trans (congrArg (·.2.data) heq)⟩

end Remount

/-- **With the options in mtab, the settings of a mount are as before**, if the name of the user is
not among them.  If it is, none of the options of the mount is honoured, and there is no error. -/
theorem remount_eq {lib : FuseLib} (hlib : ∀ om ∈ optMap, lib.isLibOption om.nfsOpt = false)
    {pwName : Option Name} (hpw : ∀ name ∈ pwName, comma ∉ name ∧ quote ∉ name)
    (huser : ∀ name ∈ pwName, lib.isLibOption (nameOf "user=" ++ name) = false)
    {progname progname' : Name} {resolve : Resolver} {optSize : Nat} {addr : SockaddrIn}
    {cmd : CommandLine} {parsed : Parsed} {d d' : MountData} {ret' : Int} {mtabOpts : OptString}
    (hcmd : hsiParseCmdline lib progname cmd 0 = .ok parsed)
    (hmount : parseBoth lib progname resolve optSize addr cmd = .ok (0, d))
    (hmtab : mtabOpts.bytes = hsiFixOptsString pwName d.flags (parsed.udata.map (·.text)))
    (hagain : parseBoth lib progname' resolve optSize addr ⟨[.o mtabOpts], false⟩ = .ok (ret', d'))
      :
    ret' = 0 ∧ d' = if userOpt pwName d.flags = [] then d else .start d.flags addr := by
  obtain ⟨parsed₁, hcmd₁, hret, hd⟩ := parseBoth_eq_parseItems hmount
  obtain rfl := Except.ok.inj (hcmd₁.symm.trans hcmd)
  obtain ⟨parsed', hcmd', hret', hd'⟩ := parseBoth_eq_parseItems hagain
  obtain ⟨hsupported, len, options, u, hjoined, htext, hstring⟩ := exists_joined hcmd
  have hflags := congrArg MountData.flags hd
  rw [flags_parseItems] at hflags
  -- the options in mtab are parsed
  obtain ⟨args, hflags', htext'⟩ := parsed_of_o hcmd'
  rw [hstring] at hmtab
  obtain ⟨hsame, hitems⟩ := parse_fixed_opts hlib hpw huser
    (hflags ▸ supported_setTcp _ hsupported) hjoined hmtab args
  rw [← htext', ← htext] at hitems
  rw [hflags', hsame, hitems] at hret' hd'
  -- the items that are parsed again
  cases huserOpt : userOpt pwName d.flags with
  | nil =>
      have hagain' : parseItems resolve optSize (dropEmptyLast (items parsed₁.oldOpts)) d.flags addr
        =
          parseItems resolve optSize (items parsed₁.oldOpts) parsed₁.process.flags addr := by
        have htwice := parseItems_again resolve optSize (items parsed₁.oldOpts)
          parsed₁.process.flags addr
        rw [← hd] at htwice
        rw [parseItems_dropEmptyLast (by rw [htwice, hret]), htwice]
      rw [huserOpt, List.nil_append, hagain'] at hret' hd'
      rw [if_pos rfl]
      exact ⟨hret'.trans hret.symm, hd'.trans hd.symm⟩
  | cons opt opts =>
      obtain ⟨name, -, heq⟩ := exists_of_mem_userOpt (huserOpt ▸ List.mem_cons_self)
      have hnot : [] ∉ [opt] := by rw [heq]; simp [nameOf]
      have hfront : dropEmptyLast (opt :: opts ++ items parsed₁.oldOpts) =
          opt :: dropEmptyLast (opts ++ items parsed₁.oldOpts) := dropEmptyLast_append hnot _
      rw [huserOpt, hfront, heq, parseItems_user] at hret' hd'
      rw [if_neg (List.cons_ne_nil opt opts)]
      exact ⟨hret', hd'⟩

/-- The options in mtab of a mount with `tcp`. -/
example : hsiFixOptsString none nfsMountTcp (some (nameOf "tcp")) = nameOf "ro,tcp" := by decide

/-- FUSE is told `rw` the first time, and `ro` behind it the second time. -/
example :
    (hsiParseCmdline plainLib [] ⟨[optSwitch "tcp" (by decide)], false⟩ 0).toOption.map (·.args) =
      some (["-osubtype=", "rw"].map nameOf) ∧
    (hsiParseCmdline plainLib [] ⟨[optSwitch "ro,tcp" (by decide)], false⟩ 0).toOption.map
      (·.args) = some (["-osubtype=", "rw", "ro"].map nameOf) := by
  decide +kernel

/-- With `-o` alone, both parsers come to an end. -/
theorem exists_sampleParse (options : OptString) :
    ∃ parsed r, hsiParseCmdline plainLib [] ⟨[.o options], false⟩ 0 = .ok parsed ∧
      sampleParse ⟨[.o options], false⟩ = .ok r := ⟨_, _, rfl, rfl⟩

/-- The options `user,tcp`. -/
def userOptions : OptString where
  bytes := nameOf "user,tcp"
  zero_free := by decide
  fits := by decide

/-- What is in mtab then. -/
def userMtab : OptString where
  bytes := nameOf "ro,user=me,user,tcp"
  zero_free := by decide
  fits := by decide

theorem remount_eq_user : ∃ d d' : MountData, sampleParse ⟨[.o userOptions], false⟩ = .ok (0, d) ∧
    sampleParse ⟨[.o userMtab], false⟩ = .ok (0, d') ∧ d.nfs.pmap.prot = ipprotoTcp ∧
    d'.nfs.pmap.prot = 0 := by
  obtain ⟨parsed, ⟨ret, d⟩, hcmd, hmount⟩ := exists_sampleParse userOptions
  obtain ⟨-, ⟨ret', d'⟩, -, hagain⟩ := exists_sampleParse userMtab
  have htext : (hsiParseCmdline plainLib [] ⟨[.o userOptions], false⟩ 0).toOption.map
      (·.udata.map (·.text)) = some (some (nameOf "tcp")) := by decide +kernel
  have hdata : (sampleParse ⟨[.o userOptions], false⟩).toOption.map
      (fun r ↦ (r.1, r.2.flags, r.2.nfs.pmap.prot)) =
        some (0, msUser ||| nfsMountTcp, ipprotoTcp) := by decide +kernel
  rw [hcmd] at htext
  rw [hmount] at hdata
  obtain ⟨rfl, hrest⟩ := Prod.mk.inj (Option.some.inj hdata)
  obtain ⟨hflags, hprot⟩ := Prod.mk.inj hrest
  have hmtab : userMtab.bytes = hsiFixOptsString (some (nameOf "me")) d.flags
      (parsed.udata.map (·.text)) := by
    have hudata : parsed.udata.map (·.text) = some (nameOf "tcp") := Option.some.inj htext
    rw [show d.flags = msUser ||| nfsMountTcp from hflags, hudata]
    decide
  have hpw : ∀ name ∈ some (nameOf "me"), comma ∉ name ∧ quote ∉ name := by
    rintro _ ⟨⟩
    decide
  obtain ⟨rfl, hd'⟩ := remount_eq (fun _ _ ↦ rfl) hpw (fun _ _ ↦ rfl) hcmd hmount hmtab hagain
  have huser : userOpt (some (nameOf "me")) d.flags ≠ [] := by
    rw [show d.flags = msUser ||| nfsMountTcp from hflags]
    decide
  refine ⟨d, d', hmount, hagain, hprot, ?_⟩
  rw [hd', if_neg huser]
  rfl

end Hsfs.Mount
