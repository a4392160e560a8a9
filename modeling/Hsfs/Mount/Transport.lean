import Hsfs.Base.Attr
import Hsfs.Mount.Pipeline
import Hsfs.Mount.Settings

/-!
# Transport and the read-only flag

The flags of the superblock are set by both parsers, with masks that are defined in two places.
Those of the command line have the values of `<sys/mount.h>`, where `MS_RDONLY` is 1;
`NFS_MOUNT_TCP` is 1 as well. So the bit says what was said last, about either of the two
(`rdonly_parsed`).

Two things follow: when transport options leave the read-only flag alone (`rdonly_unaffected_iff`),
and when a file system is unmounted over the transport it was mounted with
(`unmount_transport_iff`).
-/

namespace Hsfs.Mount

open Text

/-- The `MS_RDONLY` bit of the flags. -/
def rdonly (flags : UInt32) : Bool := hasBits flags msRdonly

theorem rdonly_or (flags mask : UInt32) : rdonly (flags ||| mask) = (rdonly flags || rdonly mask) :=
  hasBits_or flags mask msRdonly

theorem rdonly_or_one (flags : UInt32) : rdonly (flags ||| 1) = true := by
  rw [rdonly_or]
  exact Bool.or_true _

theorem rdonly_and_not_one (flags : UInt32) : rdonly (flags &&& ~~~1) = false :=
  hasBits_and_of_disjoint (by decide) flags

/-! ## What a command line says about writing -/

/-- What a switch says. -/
def Switch.selects : Switch → Option Bool
  | .r => some true
  | .w => some false
  | _ => none

/-- The argument of `-o`. -/
def Switch.optarg : Switch → Option OptString
  | .o optarg => some optarg
  | _ => none

/-- What an item says. -/
def roItem (opt : Name) : Option Bool :=
  if opt = nameOf "ro" then some true else if opt = nameOf "rw" then some false else none

namespace CommandLine

/-- The options: those of the last `-o`. -/
def options (cmd : CommandLine) : Option OptString := latest Switch.optarg cmd.switches

/-- The items of the options. -/
def optItems (cmd : CommandLine) : List Name :=
  match cmd.options with
  | none => []
  | some options => items options.bytes

/-- The command line selects read-only: the last of the switches, and then the last of the items. -/
def readOnly (cmd : CommandLine) : Bool :=
  ((latest roItem cmd.optItems).or (latest Switch.selects cmd.switches)).getD false

end CommandLine

/-! ## What the first parser does with it -/

/-- What an item does to the flag: nothing if the FUSE library claims it. -/
def roEffect (isLibOption : Name → Bool) (opt : Name) : Option Bool :=
  if isLibOption opt then none else roItem opt

theorem rdonly_claimOpt {isLibOption : Name → Bool} {opt : Name} (hro : opt ≠ nameOf "ro")
    (hrw : opt ≠ nameOf "rw") {oms : List OptMap}
    (homs : ∀ om ∈ oms, om.nfsOpt = nameOf "ro" ∨ om.nfsOpt = nameOf "rw" ∨
      rdonly om.mask = false ∧ ~~~om.mask &&& msRdonly = msRdonly) {s s' : OptState}
    (h : claimOpt isLibOption opt oms s = some s') : rdonly s'.flags = rdonly s.flags := by
  induction oms with
  | nil => exact nomatch h
  | cons om oms ih =>
      rw [claimOpt] at h
      split at h
      · rename_i heq
        have hmask : rdonly om.mask = false ∧ ~~~om.mask &&& msRdonly = msRdonly := by
          rcases homs om List.mem_cons_self with h | h | h
          · exact absurd (heq.trans h) hro
          · exact absurd (heq.trans h) hrw
          · exact h
        have happly : rdonly (om.apply s.flags) = rdonly s.flags := by
          unfold OptMap.apply
          split
          · exact hasBits_and_of_covers hmask.2 s.flags
          · rw [rdonly_or, hmask.1, Bool.or_false]
        cases hfuse : om.fuseOpt with
        | none =>
            rw [hfuse] at h
            obtain rfl := Option.some.inj h
            rfl
        | some fuseOpt =>
            rw [hfuse] at h
            obtain rfl := Option.some.inj h
            exact happly
      · split at h
        · obtain rfl := Option.some.inj h
          rfl
        · exact ih (fun om' hom' ↦ homs om' (List.mem_cons_of_mem om hom')) h

/-- The masks of the map, but for those of `ro` and `rw`, leave the flag alone. -/
theorem optMap_masks : ∀ om ∈ optMap, om.nfsOpt = nameOf "ro" ∨ om.nfsOpt = nameOf "rw" ∨
    rdonly om.mask = false ∧ ~~~om.mask &&& msRdonly = msRdonly := by
  decide

section Claim

variable {isLibOption : Name → Bool} {opt : Name} {om : OptMap} {oms : List OptMap} {s : OptState}

theorem claimOpt_here {fuseOpt : Name} (h : opt = om.nfsOpt) (hfuse : om.fuseOpt = some fuseOpt) :
    claimOpt isLibOption opt (om :: oms) s =
      some { s with flags := om.apply s.flags, args := s.args ++ [fuseOpt] } := by
  rw [claimOpt, if_pos h, hfuse]

theorem claimOpt_lib (h : opt ≠ om.nfsOpt) (hlib : isLibOption opt = true) :
    claimOpt isLibOption opt (om :: oms) s = some { s with args := s.args ++ [opt] } := by
  rw [claimOpt, if_neg h, if_pos hlib]

theorem claimOpt_later (h : opt ≠ om.nfsOpt) (hlib : isLibOption opt = false) :
    claimOpt isLibOption opt (om :: oms) s = claimOpt isLibOption opt oms s := by
  rw [claimOpt, if_neg h, hlib, if_neg Bool.false_ne_true]

theorem hsiParseOpt_of_claim {s' : OptState} (h : claimOpt isLibOption opt optMap s = some s')
    (len : UInt64) : hsiParseOpt isLibOption len opt s = s' := by
  rw [hsiParseOpt, h]

end Claim

/-- What one option does to the flag. -/
theorem rdonly_hsiParseOpt (isLibOption : Name → Bool) (len : UInt64) (s : OptState) (opt : Name) :
    rdonly (hsiParseOpt isLibOption len opt s).flags =
      ((roEffect isLibOption opt).map id).getD (rdonly s.flags) := by
  unfold roEffect
  by_cases hro : opt = nameOf "ro"
  · subst hro
    cases hlib : isLibOption (nameOf "ro") with
    | true =>
        rw [hsiParseOpt_of_claim (claimOpt_lib (by decide) hlib)]
        rfl
    | false =>
        rw [hsiParseOpt_of_claim ((claimOpt_later (by decide) hlib).trans (claimOpt_here rfl rfl))]
        exact rdonly_or_one s.flags
  · by_cases hrw : opt = nameOf "rw"
    · subst hrw
      cases hlib : isLibOption (nameOf "rw") with
      | true =>
          rw [hsiParseOpt_of_claim (claimOpt_lib (by decide) hlib)]
          rfl
      | false =>
          rw [hsiParseOpt_of_claim ((claimOpt_later (by decide) hlib).trans
            ((claimOpt_later (by decide) hlib).trans (claimOpt_here rfl rfl)))]
          exact rdonly_and_not_one s.flags
    · have hnone : (if isLibOption opt then none else roItem opt) = none := by
        unfold roItem
        rw [if_neg hro, if_neg hrw, ite_self]
      rw [hnone]
      unfold hsiParseOpt
      cases hclaim : claimOpt isLibOption opt optMap s with
      | none => rfl
      | some s' => exact rdonly_claimOpt hro hrw optMap_masks hclaim

theorem rdonly_hsiParseOpts (isLibOption : Name → Bool) (options : OptString) (flags : UInt32)
    (args : List Name) : rdonly (hsiParseOpts isLibOption options flags args).flags =
      (latest (roEffect isLibOption) (items options.bytes)).getD (rdonly flags) := by
  have hrun := @read_foldl _ _ _ _
    (fun s opt ↦ hsiParseOpt isLibOption (strlen options.bytes + 1) opt s)
    (fun s ↦ rdonly s.flags) _ _ (rdonly_hsiParseOpt isLibOption (strlen options.bytes + 1))
    (items options.bytes) ⟨flags, args, .empty⟩
  rw [hsiParseOpts_eq]
  rwa [Option.map_id] at hrun

/-- What the loop over the switches does. -/
theorem foldlM_read {switches : List Switch} {p p' : Process}
    (h : switches.foldlM Switch.read p = some p') :
    rdonly p'.flags = (latest Switch.selects switches).getD (rdonly p.flags) ∧
      p'.tdata = (latest Switch.optarg switches).or p.tdata := by
  induction switches using List.reverseRecOn generalizing p' with
  | nil =>
      obtain rfl := Option.some.inj h
      exact ⟨rfl, rfl⟩
  | append_singleton switches sw ih =>
      rw [List.foldlM_append] at h
      obtain ⟨q, hq, hlast⟩ := Option.bind_eq_some_iff.1 h
      obtain ⟨hflag, htdata⟩ := ih hq
      have hstep : sw.read q = some p' := by
        obtain ⟨r, hr, hpure⟩ := Option.bind_eq_some_iff.1 hlast
        exact hr.trans hpure
      rw [latest_concat, latest_concat]
      cases sw with
      | r =>
          obtain rfl := Option.some.inj hstep
          exact ⟨rdonly_or_one q.flags, htdata⟩
      | w =>
          obtain rfl := Option.some.inj hstep
          exact ⟨rdonly_and_not_one q.flags, htdata⟩
      | o optarg =>
          obtain rfl := Option.some.inj hstep
          exact ⟨hflag, rfl⟩
      | v =>
          obtain rfl := Option.some.inj hstep
          exact ⟨hflag, htdata⟩
      | f =>
          obtain rfl := Option.some.inj hstep
          exact ⟨hflag, htdata⟩
      | n =>
          obtain rfl := Option.some.inj hstep
          exact ⟨hflag, htdata⟩
      | V => exact nomatch hstep
      | h => exact nomatch hstep

/-- The options for the mount. -/
def Parsed.oldOpts (parsed : Parsed) : Name :=
  match parsed.udata with
  | none => []
  | some udata => udata.text

/-- The items that reach the mount: those that nobody claims, but for empty ones at the beginning
and at the end. -/
def CommandLine.mountItems (lib : FuseLib) (cmd : CommandLine) : List Name :=
  dropEmptyLast ((cmd.optItems.filter (¬ Claimed lib.isLibOption ·)).dropWhile (· = []))

/-- What the first parser makes of the read-only flag: the last item or switch that has an
effect. -/
def CommandLine.rdonlyBefore (lib : FuseLib) (cmd : CommandLine) : Bool :=
  ((latest (roEffect lib.isLibOption) cmd.optItems).or (latest Switch.selects cmd.switches)).getD
    false

/-- `hsi_parse_cmdline` goes on to the options if nothing before them fails. -/
theorem hsiParseCmdline_cases {lib : FuseLib} {progname : Name} {cmd : CommandLine} {flags : UInt32}
    {parsed : Parsed} (h : hsiParseCmdline lib progname cmd flags = .ok parsed) :
    ∃ p args, cmd.switches.foldlM Switch.read ⟨flags, 0, false, false, none⟩ = some p ∧
      parsed = p.parseTdata lib.isLibOption args := by
  unfold hsiParseCmdline at h
  cases hp : cmd.switches.foldlM Switch.read ⟨flags, 0, false, false, none⟩ with
  | none =>
      rw [hp] at h
      exact nomatch h
  | some p =>
      rw [hp] at h
      dsimp only at h
      generalize (if p.flags &&& msRdonly ≠ 0 then nameOf "ro" else nameOf "rw") = opt at h
      split at h
      · exact nomatch h
      · split at h
        · exact nomatch h
        · split at h
          · exact nomatch h
          · split at h
            · exact nomatch h
            · exact ⟨p, _, rfl, (Except.ok.inj h).symm⟩

/-- **What `hsi_parse_cmdline` leaves behind.** -/
theorem hsiParseCmdline_ok {lib : FuseLib} {progname : Name} {cmd : CommandLine} {parsed : Parsed}
    (h : hsiParseCmdline lib progname cmd 0 = .ok parsed) :
    rdonly parsed.process.flags = cmd.rdonlyBefore lib ∧ 0 ∉ parsed.oldOpts ∧
      items parsed.oldOpts = cmd.mountItems lib := by
  obtain ⟨p, args, hp, rfl⟩ := hsiParseCmdline_cases h
  obtain ⟨hflag, htdata⟩ := foldlM_read hp
  have hoptions : p.tdata = cmd.options := htdata.trans (Option.or_none)
  unfold Process.parseTdata CommandLine.rdonlyBefore CommandLine.mountItems CommandLine.optItems
  rw [← hoptions]
  cases p.tdata with
  | none => exact ⟨hflag, List.not_mem_nil, rfl⟩
  | some options =>
      have hjoined := joined_hsiParseOpts lib.isLibOption options p.flags args
      refine ⟨?_, hjoined.zero_free, hjoined.items_eq⟩
      dsimp only
      rw [rdonly_hsiParseOpts, hflag]
      cases latest (roEffect lib.isLibOption) (items options.bytes) <;> rfl

/-! ## What the second parser does with it -/

theorem rdonly_store (s : Parsing) (item : Item) :
    rdonly (item.store s).data.flags = (item.bit.map id).getD (rdonly s.data.flags) := by
  cases item with
  | num opt val => cases opt <;> rfl
  | mounthost host => rfl
  | ignored => rfl
  | transport t =>
      cases t with
      | tcp => exact rdonly_or_one s.data.flags
      | protoTcp => exact rdonly_or_one s.data.flags
      | noudp => exact rdonly_or_one (s.data.flags &&& ~~~1)
      | udp => exact rdonly_and_not_one s.data.flags
      | protoUdp => exact rdonly_and_not_one s.data.flags
      | notcp => rfl

/-! ## Both of them -/

/-- The settings when both parsers are through. -/
def parseBoth (lib : FuseLib) (progname : Name) (resolve : Resolver) (optSize : Nat)
    (addr : SockaddrIn)
    (cmd : CommandLine) : Except Refusal (Int × MountData) := do
  let parsed ← hsiParseCmdline lib progname cmd 0
  let (ret, s) := hsiNfs3ParseOptions resolve optSize parsed.oldOpts
    (.start parsed.process.flags addr)
  pure (ret, s.data)

/-- The items of a command line whose changes are made by the second parser. -/
def CommandLine.applied (lib : FuseLib) (optSize : Nat) (cmd : CommandLine) : List Item :=
  Mount.applied optSize 0 (cmd.mountItems lib)

section Both

variable {lib : FuseLib} {progname : Name} {resolve : Resolver} {optSize : Nat} {addr : SockaddrIn}
  {cmd : CommandLine} {ret : Int} {d : MountData}

theorem parseBoth_ok (h : parseBoth lib progname resolve optSize addr cmd = .ok (ret, d)) :
    ∃ flags saddr, rdonly flags = cmd.rdonlyBefore lib ∧
      d = ((cmd.applied lib optSize).foldl Item.store
        ⟨.start flags addr, none, []⟩).data.withMntSaddr
        saddr := by
  unfold parseBoth at h
  cases hcmd : hsiParseCmdline lib progname cmd 0 with
  | error e =>
      rw [hcmd] at h
      exact nomatch h
  | ok parsed =>
      obtain ⟨hflag, hzero, hitems⟩ := hsiParseCmdline_ok hcmd
      rw [hcmd] at h
      obtain rfl : _ = d := (Prod.mk.inj (Except.ok.inj h)).2
      obtain ⟨saddr, hdata⟩ :=
        data_hsiNfs3ParseOptions resolve optSize hzero (.start parsed.process.flags addr)
      rw [hitems] at hdata
      exact ⟨parsed.process.flags, saddr, hflag, hdata⟩

/-- **The flag says what was said last**, about the transport or about writing. -/
theorem rdonly_parsed (h : parseBoth lib progname resolve optSize addr cmd = .ok (ret, d)) :
    rdonly d.flags = (latest Item.bit (cmd.applied lib optSize)).getD (cmd.rdonlyBefore lib) := by
  obtain ⟨flags, saddr, hflag, rfl⟩ := parseBoth_ok h
  have hread := read_given (fun d ↦ rdonly d.flags) rdonly_store (cmd.applied lib optSize)
    ⟨.start flags addr, none, []⟩
  rw [Option.map_id] at hread
  exact hread.trans (congrArg _ hflag)

end Both

/-! ## Transport options and writing -/

/-- The options that choose a transport. -/
def transportOpts : List String := ["tcp", "udp", "notcp", "noudp", "proto=tcp", "proto=udp"]

/-- The item chooses a transport. -/
def IsTransport (opt : Name) : Prop := ∃ name ∈ transportOpts, opt = nameOf name

instance (opt : Name) : Decidable (IsTransport opt) := inferInstanceAs (Decidable (∃ name ∈ _, _))

namespace CommandLine

/-- Two command lines differ only in transport options. -/
structure SameButTransport (cmd₁ cmd₂ : CommandLine) : Prop where
  more : cmd₁.more = cmd₂.more
  switches : cmd₁.switches.filter (·.optarg.isNone) = cmd₂.switches.filter (·.optarg.isNone)
  items : cmd₁.optItems.filter (¬ IsTransport ·) = cmd₂.optItems.filter (¬ IsTransport ·)

/-- What is said last, about the transport or about writing, is what is said last about writing. -/
def Agrees (lib : FuseLib) (optSize : Nat) (cmd : CommandLine) : Prop :=
  (latest Item.bit (cmd.applied lib optSize)).getD (cmd.rdonlyBefore lib) = cmd.readOnly

instance (lib : FuseLib) (optSize : Nat) (cmd : CommandLine) : Decidable (cmd.Agrees lib optSize) :=
  inferInstanceAs (Decidable (_ = _))

theorem roItem_of_isTransport {opt : Name} (h : IsTransport opt) : roItem opt = none := by
  obtain ⟨name, hname, rfl⟩ := h
  revert name
  decide

/-- What a command line says about writing does not depend on its transport options. -/
theorem SameButTransport.readOnly_eq {cmd₁ cmd₂ : CommandLine} (h : SameButTransport cmd₁ cmd₂) :
    cmd₁.readOnly = cmd₂.readOnly := by
  have hswitch : ∀ sw : Switch, sw.optarg.isNone = false → sw.selects = none := by
    intro sw hsw
    cases sw with
    | o optarg => rfl
    | _ => exact nomatch hsw
  have hitem : ∀ opt, decide (¬ IsTransport opt) = false → roItem opt = none := by
    intro opt hopt
    exact roItem_of_isTransport (not_not.1 (of_decide_eq_false hopt))
  unfold readOnly
  rw [← latest_filter hswitch cmd₁.switches, ← latest_filter hswitch cmd₂.switches, h.switches,
    ← latest_filter hitem cmd₁.optItems, ← latest_filter hitem cmd₂.optItems, h.items]

end CommandLine

/-- **When transport options leave the read-only flag alone.**  For any two command lines that
differ only in transport options, the flag is the same in both and says what the command lines say
about writing exactly if in both of them the last word about either is that about writing. -/
theorem rdonly_unaffected_iff (lib : FuseLib) (progname : Name) (resolve : Resolver) (optSize : Nat)
    (addr : SockaddrIn) {cmd₁ cmd₂ : CommandLine} (hsame : cmd₁.SameButTransport cmd₂)
    {ret₁ ret₂ : Int} {d₁ d₂ : MountData}
    (h₁ : parseBoth lib progname resolve optSize addr cmd₁ = .ok (ret₁, d₁))
    (h₂ : parseBoth lib progname resolve optSize addr cmd₂ = .ok (ret₂, d₂)) :
    (rdonly d₁.flags = rdonly d₂.flags ∧ rdonly d₁.flags = cmd₁.readOnly) ↔
      cmd₁.Agrees lib optSize ∧ cmd₂.Agrees lib optSize := by
  unfold CommandLine.Agrees
  rw [← rdonly_parsed h₁, ← rdonly_parsed h₂, ← hsame.readOnly_eq]
  constructor
  · rintro ⟨heq, hro⟩
    exact ⟨hro, heq.symm.trans hro⟩
  · rintro ⟨hro₁, hro₂⟩
    exact ⟨hro₁.trans hro₂.symm, hro₁⟩

/-- A FUSE library that knows no options of its own. -/
def plainLib : FuseLib where
  isLibOption _ := false
  addArg _ := 0
  addOpt _ := 0
  daemonize _ := 0

/-- The switch `-o` with the given text. -/
def optSwitch (text : String) (h : 0 ∉ nameOf text ∧ (nameOf text).length + 1 < 2 ^ 64) : Switch :=
  .o ⟨nameOf text, h.1, h.2⟩

/-- `-o ro`. -/
def roCommand : CommandLine := ⟨[optSwitch "ro" (by decide)], false⟩

/-- `-o tcp,ro`. -/
def tcpRoCommand : CommandLine := ⟨[optSwitch "tcp,ro" (by decide)], false⟩

/-- `-o rw,tcp`. -/
def rwTcpCommand : CommandLine := ⟨[optSwitch "rw,tcp" (by decide)], false⟩

/-- `-o rw`. -/
def rwCommand : CommandLine := ⟨[optSwitch "rw" (by decide)], false⟩

theorem exists_ok {ε α : Type} {x : Except ε α} (h : x.isOk = true) : ∃ a, x = .ok a := by
  cases x with
  | error e => exact nomatch h
  | ok a => exact ⟨a, rfl⟩

/-- With a host name service that does not answer, and a server at the address 1. -/
def sampleParse (cmd : CommandLine) : Except Refusal (Int × MountData) :=
  parseBoth plainLib [] (fun _ ↦ .error 2) 1024 ⟨2, 0, 1⟩ cmd

theorem rdonly_unaffected_iff_ro : ∃ d₁ d₂ : Int × MountData,
    sampleParse roCommand = .ok d₁ ∧ sampleParse tcpRoCommand = .ok d₂ ∧
      rdonly d₁.2.flags = rdonly d₂.2.flags ∧ rdonly d₁.2.flags = true := by
  obtain ⟨d₁, h₁⟩ := exists_ok (show (sampleParse roCommand).isOk = true by decide)
  obtain ⟨d₂, h₂⟩ := exists_ok (show (sampleParse tcpRoCommand).isOk = true by decide)
  have hsame : roCommand.SameButTransport tcpRoCommand := ⟨rfl, rfl, by decide⟩
  have hro : roCommand.readOnly = true := by decide
  obtain ⟨heq, hset⟩ :=
    (rdonly_unaffected_iff plainLib [] (fun _ ↦ .error 2) 1024 ⟨2, 0, 1⟩ hsame h₁ h₂).2
    ⟨by decide, by decide⟩
  exact ⟨d₁, d₂, h₁, h₂, heq, hset.trans hro⟩

/-- A transport option interferes: `-o rw,tcp` sets the read-only flag. -/
theorem not_rdonly_unaffected : ¬ ∀ (lib : FuseLib) (progname : Name) (resolve : Resolver)
    (optSize : Nat)
    (addr : SockaddrIn) (cmd₁ cmd₂ : CommandLine), cmd₁.SameButTransport cmd₂ →
    ∀ (ret₁ ret₂ : Int) (d₁ d₂ : MountData),
      parseBoth lib progname resolve optSize addr cmd₁ = .ok (ret₁, d₁) →
      parseBoth lib progname resolve optSize addr cmd₂ = .ok (ret₂, d₂) →
      rdonly d₁.flags = rdonly d₂.flags ∧ rdonly d₁.flags = cmd₁.readOnly := by
  intro hall
  obtain ⟨d₁, h₁⟩ := exists_ok (show (sampleParse rwTcpCommand).isOk = true by decide)
  obtain ⟨d₂, h₂⟩ := exists_ok (show (sampleParse rwCommand).isOk = true by decide)
  have hsame : rwTcpCommand.SameButTransport rwCommand := ⟨rfl, rfl, by decide⟩
  have hset := (hall plainLib [] (fun _ ↦ .error 2) 1024 ⟨2, 0, 1⟩ _ _ hsame _ _ _ _ h₁ h₂).2
  rw [rdonly_parsed h₁] at hset
  revert hset
  decide

/-! ## Mounting and unmounting -/

/-- When the flag says which transport was asked for: read-only if none was; and if the last one was
`notcp`, which does not touch the flag, the flag is cleared by what was said before. -/
def CommandLine.Recorded (lib : FuseLib) (optSize : Nat) (cmd : CommandLine) : Prop :=
  match latest Item.requests (cmd.applied lib optSize) with
  | none => cmd.rdonlyBefore lib = true
  | some .notcp => (latest Item.bit (cmd.applied lib optSize)).getD (cmd.rdonlyBefore lib) = false
  | some _ => True

theorem Item.bit_eq : Item.bit = fun item ↦ item.requests.bind Transport.bit := by
  funext item
  cases item <;> rfl

theorem prot_umountPmap (flags : UInt32) :
    (umountPmap flags).prot = if rdonly flags then ipprotoTcp else ipprotoUdp := by
  unfold umountPmap rdonly hasBits
  change (if flags &&& 1 ≠ 0 then _ else _) = if (flags &&& 1 != 0) = true then _ else _
  simp only [bne_iff_ne]

/-- **When a file system is unmounted over the transport it was mounted with.** -/
theorem unmount_transport_iff (lib : FuseLib) (progname : Name) (resolve : Resolver) (optSize : Nat)
    (addr : SockaddrIn) {cmd : CommandLine} {d : MountData}
    (h : parseBoth lib progname resolve optSize addr cmd = .ok (0, d)) :
    (umountPmap (hsiValidateMountData d).flags).prot = (hsiValidateMountData d).mnt.pmap.prot ↔
      cmd.Recorded lib optSize := by
  have hflag := rdonly_parsed h
  obtain ⟨flags, saddr, -, hd⟩ := parseBoth_ok h
  have hstored := storedAs_foldl (cmd.applied lib optSize) flags addr saddr
  rw [← hd] at hstored
  rw [hstored.prot_validated.1, prot_umountPmap]
  change (if rdonly d.flags then _ else _) = _ ↔ _
  rw [hflag]
  unfold protOf CommandLine.Recorded
  generalize cmd.applied lib optSize = gave
  generalize cmd.rdonlyBefore lib = before
  cases hlast : latest Item.requests gave with
  | none =>
      have hbit : latest Item.bit gave = none := by
        rw [Item.bit_eq, latest_eq_none_iff]
        intro item hitem
        rw [latest_eq_none_iff.1 hlast item hitem, Option.bind_none]
      rw [hbit]
      cases before <;> decide
  | some t =>
      have hbit : ∀ b, t.bit = some b → latest Item.bit gave = some b := by
        intro b hb
        rw [Item.bit_eq]
        exact latest_bind hlast hb
      cases t with
      | notcp =>
          dsimp only
          cases (latest Item.bit gave).getD before <;> decide
      | tcp => exact iff_of_true (by rw [hbit true rfl]; rfl) trivial
      | noudp => exact iff_of_true (by rw [hbit true rfl]; rfl) trivial
      | protoTcp => exact iff_of_true (by rw [hbit true rfl]; rfl) trivial
      | udp => exact iff_of_true (by rw [hbit false rfl]; rfl) trivial
      | protoUdp => exact iff_of_true (by rw [hbit false rfl]; rfl) trivial

/-- `-o udp`. -/
def udpCommand : CommandLine := ⟨[optSwitch "udp" (by decide)], false⟩

theorem unmount_transport_iff_udp : ∃ d : MountData, sampleParse udpCommand = .ok (0, d) ∧
    (umountPmap (hsiValidateMountData d).flags).prot = (hsiValidateMountData d).mnt.pmap.prot := by
  obtain ⟨⟨ret, d⟩, h⟩ := exists_ok (show (sampleParse udpCommand).isOk = true by decide)
  have hret : (sampleParse udpCommand).toOption.map Prod.fst = some 0 := by decide
  rw [h] at hret
  obtain rfl := Option.some.inj hret
  refine ⟨d, h, (unmount_transport_iff plainLib [] (fun _ ↦ .error 2) 1024 ⟨2, 0, 1⟩ h).2 ?_⟩
  have hlast : latest Item.requests (udpCommand.applied plainLib 1024) = some .udp := by decide
  unfold CommandLine.Recorded
  rw [hlast]
  trivial

/-- A command line without options. -/
def bareCommand : CommandLine := ⟨[], false⟩

/-- The transport is not recorded: without options, a file system is mounted over TCP and unmounted
over UDP. -/
theorem not_unmount_transport : ¬ ∀ (lib : FuseLib) (progname : Name) (resolve : Resolver)
    (optSize : Nat)
    (addr : SockaddrIn) (cmd : CommandLine) (d : MountData),
    parseBoth lib progname resolve optSize addr cmd = .ok (0, d) →
    (umountPmap (hsiValidateMountData d).flags).prot = (hsiValidateMountData d).mnt.pmap.prot := by
  intro hall
  have hparse : sampleParse bareCommand = .ok (0, .start 0 ⟨2, 0, 1⟩) := by decide
  have hsame := hall plainLib [] (fun _ ↦ .error 2) 1024 ⟨2, 0, 1⟩ bareCommand _ hparse
  revert hsame
  decide

end Hsfs.Mount
