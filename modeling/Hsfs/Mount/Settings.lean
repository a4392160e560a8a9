import Hsfs.Mount.Options
import Hsfs.Table.Latest
import Hsfs.Word.Flags

/-!
# Options and defaults

What the options say should be what the file system is mounted with; defaults are for what they do
not say.  `Honoured` says so for the settings after `hsi_validate_mount_data`.

It is not always so: this function sets the transfer sizes, the programs and the address of the
mount server unconditionally, it puts in the defaults of both cache times if one of them is not
given and the other is on the wrong side of its default, and `hsi_nfsmnt_check_compat` refuses every
`mountvers`. `options_honoured_iff` says exactly when it is.
-/

namespace Hsfs.Mount

open Word

/-! ## Settings -/

/-- What can be set with a number. -/
inductive Setting where
  | rsize
  | wsize
  | timeo
  | retrans
  | acregmin
  | acregmax
  | acdirmin
  | acdirmax
  | retry
  | port
  | mountport
  | mountprog
  | nfsprog
  deriving DecidableEq

/-- The settings of an option. -/
def NumOpt.settings : NumOpt → List Setting
  | .rsize => [.rsize]
  | .wsize => [.wsize]
  | .timeo => [.timeo]
  | .retrans => [.retrans]
  | .acregmin => [.acregmin]
  | .acregmax => [.acregmax]
  | .acdirmin => [.acdirmin]
  | .acdirmax => [.acdirmax]
  | .actimeo => [.acregmin, .acregmax, .acdirmin, .acdirmax]
  | .retry => [.retry]
  | .port => [.port]
  | .mountport => [.mountport]
  | .mountprog => [.mountprog]
  | .nfsprog => [.nfsprog]
  | .mountvers => []
  | .nfsvers => []

/-- The number that an item gives for a setting. -/
def Item.gives (x : Setting) : Item → Option Nat
  | .num opt val => if x ∈ opt.settings then some val else none
  | _ => none

/-- The value of a setting. -/
def Setting.read (d : MountData) : Setting → Int
  | .rsize => d.rsize.toNat
  | .wsize => d.wsize.toNat
  | .timeo => d.timeo
  | .retrans => d.retrans
  | .acregmin => d.acregmin
  | .acregmax => d.acregmax
  | .acdirmin => d.acdirmin
  | .acdirmax => d.acdirmax
  | .retry => d.retry
  | .port => d.nfs.pmap.port.toNat
  | .mountport => d.mnt.pmap.port.toNat
  | .mountprog => d.mnt.pmap.prog.toNat
  | .nfsprog => d.nfs.pmap.prog.toNat

/-- What is read back of a number that was stored: the fields of the superblock are `int` or
`unsigned int`, those of a `pmap` are `unsigned long`. -/
def Setting.stored (val : Nat) : Setting → Int
  | .rsize | .wsize => (UInt32.ofInt (atoi val)).toNat
  | .port | .mountport | .mountprog | .nfsprog => (UInt64.ofInt (atoi val)).toNat
  | _ => atoi val

theorem read_store (x : Setting) (s : Parsing) (item : Item) :
    x.read (item.store s).data = ((item.gives x).map x.stored).getD (x.read s.data) := by
  cases item with
  | num opt val => cases opt <;> cases x <;> rfl
  | mounthost host => cases x <;> rfl
  | transport t => cases t <;> cases x <;> rfl
  | ignored => cases x <;> rfl

/-! ## The flag of the transport -/

/-- What a transport does to `NFS_MOUNT_TCP`: `notcp` leaves it alone. -/
def Transport.bit : Transport → Option Bool
  | .tcp | .noudp | .protoTcp => some true
  | .udp | .protoUdp => some false
  | .notcp => none

/-- What an item does to `NFS_MOUNT_TCP`. -/
def Item.bit : Item → Option Bool
  | .transport t => t.bit
  | _ => none

/-- Set or clear the bit that `MS_RDONLY` and `NFS_MOUNT_TCP` share. -/
def setTcp : Option Bool → UInt32 → UInt32
  | none, flags => flags
  | some true, flags => flags ||| nfsMountTcp
  | some false, flags => flags &&& ~~~nfsMountTcp

theorem bit_nfsMountTcp : ∀ i < 32, bit nfsMountTcp i = decide (i = 0) := by decide

theorem bit_setTcp (b : Option Bool) (flags : UInt32) {i : Nat} (hi : i < 32) :
    bit (setTcp b flags) i = if i = 0 then b.getD (bit flags i) else bit flags i := by
  have htcp := bit_nfsMountTcp i hi
  rcases b with _ | _ | _
  · exact (ite_self _).symm
  · rw [setTcp, bit_and_not _ _ hi, htcp]
    by_cases h0 : i = 0 <;> simp [h0]
  · rw [setTcp, bit_or, htcp]
    by_cases h0 : i = 0 <;> simp [h0]

/-- The later word counts. -/
theorem setTcp_setTcp (b b' : Option Bool) (flags : UInt32) :
    setTcp b' (setTcp b flags) = setTcp (b'.or b) flags := by
  apply ext_bits
  intro i hi
  rw [bit_setTcp _ _ hi, bit_setTcp _ _ hi, bit_setTcp _ _ hi]
  by_cases h0 : i = 0
  · rw [if_pos h0, if_pos h0, if_pos h0]
    cases b' <;> rfl
  · rw [if_neg h0, if_neg h0, if_neg h0]

theorem foldl_setTcp (gave : List Item) (flags : UInt32) :
    gave.foldl (fun flags item ↦ setTcp item.bit flags) flags =
      setTcp (latest Item.bit gave) flags := by
  induction gave using List.reverseRecOn with
  | nil => rfl
  | append_singleton gave item ih =>
      rw [List.foldl_append, ih, List.foldl_cons, List.foldl_nil, setTcp_setTcp, latest_concat]

theorem Item.flags_store (s : Parsing) (item : Item) :
    (item.store s).data.flags = setTcp item.bit s.data.flags := by
  cases item with
  | num opt val => cases opt <;> rfl
  | mounthost host => rfl
  | ignored => rfl
  | transport t =>
      cases t with
      | noudp => exact setTcp_setTcp (some false) (some true) s.data.flags
      | _ => rfl

/-- The flags when the options have been read. -/
theorem flags_given (gave : List Item) (s : Parsing) :
    (gave.foldl Item.store s).data.flags = setTcp (latest Item.bit gave) s.data.flags := by
  rw [← foldl_setTcp]
  induction gave generalizing s with
  | nil => rfl
  | cons item gave ih => rw [List.foldl_cons, List.foldl_cons, ih, item.flags_store]

/-! ## Numbers -/

theorem atoi_lt (n : Nat) : atoi n < 2 ^ 31 := Int.bmod_lt (by decide)

/-- The greatest `long` becomes `-1`, and `-1` becomes the greatest `unsigned long`. -/
theorem ofInt_atoi_eq_iff {n : Nat} :
    ((UInt64.ofInt (atoi n)).toNat : Int) = n ↔ n < 2 ^ 31 ∨ n = 2 ^ 64 - 1 := by
  have hread : ((UInt64.ofInt (atoi n)).toNat : Int) = atoi n % 2 ^ 64 := by
    rw [UInt64.ofInt, UInt64.toNat_ofNat']
    omega
  rw [hread]
  unfold atoi intOfLong
  rw [Int.bmod_def]
  split <;> omega

/-! ## Cache times -/

/-- A number that counts: the one given, or the default if it is zero or there is none. -/
def orDefault (dflt : Nat) : Option Nat → Nat
  | some val => if val = 0 then dflt else val
  | none => dflt

/-- What is stored for a number that may be given. -/
def storedOr (val : Option Nat) : Int := (val.map atoi).getD 0

section AcTimes

variable {defMin defMax : Nat} {lo hi : Option Nat}

theorem storedOr_orDefault {val : Option Nat} (h : ∀ v, val = some v → v < 2 ^ 31) (dflt : Nat) :
    (if storedOr val = 0 then (dflt : Int) else storedOr val) = orDefault dflt val := by
  cases val with
  | none => rfl
  | some v =>
      change (if atoi v = 0 then (dflt : Int) else atoi v) =
        ((if v = 0 then dflt else v : Nat) : Int)
      rw [atoi_of_lt (h v rfl)]
      split <;> split <;> omega

/-- With numbers that fit an `int`, the cache times are the numbers that count, if these are in
order. -/
theorem acTimes_storedOr (hlo : ∀ v, lo = some v → v < 2 ^ 31)
    (hhi : ∀ v, hi = some v → v < 2 ^ 31) :
    acTimes defMin defMax (storedOr lo, storedOr hi) =
      if orDefault defMin lo ≤ orDefault defMax hi then
        ((orDefault defMin lo : Int), (orDefault defMax hi : Int))
      else ((defMin : Int), (defMax : Int)) := by
  unfold acTimes
  dsimp only
  rw [storedOr_orDefault hlo, storedOr_orDefault hhi]
  split <;> split <;> first | rfl | omega

theorem storedOr_lt (val : Option Nat) : storedOr val < 2 ^ 31 := by
  cases val with
  | none => decide
  | some v => exact atoi_lt v

variable (lo hi) in
theorem acTimes_lt (hmin : defMin < 2 ^ 31) (hmax : defMax < 2 ^ 31) :
    (acTimes defMin defMax (storedOr lo, storedOr hi)).1 < 2 ^ 31 ∧
      (acTimes defMin defMax (storedOr lo, storedOr hi)).2 < 2 ^ 31 := by
  have hcounts : ∀ {dflt : Nat}, dflt < 2 ^ 31 → ∀ val,
      (if storedOr val = 0 then (dflt : Int) else storedOr val) < 2 ^ 31 := by
    intro dflt hdflt val
    have hval := storedOr_lt val
    split <;> omega
  have hlo := hcounts hmin lo
  have hhi := hcounts hmax hi
  unfold acTimes
  dsimp only
  by_cases horder : (if storedOr lo = 0 then (defMin : Int) else storedOr lo) >
      if storedOr hi = 0 then (defMax : Int) else storedOr hi
  · rw [if_pos horder]
    exact ⟨by omega, by omega⟩
  · rw [if_neg horder]
    exact ⟨hlo, hhi⟩

theorem orDefault_some (dflt : Nat) {v : Nat} (h : 1 ≤ v) : orDefault dflt (some v) = v :=
  if_neg (Nat.one_le_iff_ne_zero.1 h)

/-- A number that counts is the default, or it is given. -/
theorem orDefault_eq {dflt : Nat} {val : Option Nat} (h : ∀ v, val = some v → 1 ≤ v → dflt = v) :
    orDefault dflt val = dflt := by
  cases val with
  | none => rfl
  | some v =>
      rcases Nat.eq_zero_or_pos v with rfl | hv
      · rfl
      · rw [orDefault_some dflt hv]
        exact (h v rfl hv).symm

/-- **A pair of cache times is kept if the numbers fit an `int` and those that count are in
order.** -/
theorem acTimes_keeps_iff (hmin : defMin < 2 ^ 31) (hmax : defMax < 2 ^ 31)
    (hdef : defMin ≤ defMax) :
    ((∀ v, lo = some v → 1 ≤ v → (acTimes defMin defMax (storedOr lo, storedOr hi)).1 = v) ∧
      ∀ v, hi = some v → 1 ≤ v → (acTimes defMin defMax (storedOr lo, storedOr hi)).2 = v) ↔
    ((∀ v, lo = some v → 1 ≤ v → v < 2 ^ 31) ∧ ∀ v, hi = some v → 1 ≤ v → v < 2 ^ 31) ∧
      orDefault defMin lo ≤ orDefault defMax hi := by
  have hall : ∀ {val : Option Nat}, (∀ v, val = some v → 1 ≤ v → v < 2 ^ 31) →
      ∀ v, val = some v → v < 2 ^ 31 := by
    intro val h v hv
    rcases Nat.eq_zero_or_pos v with rfl | hpos
    · decide
    · exact h v hv hpos
  constructor
  · rintro ⟨hlo, hhi⟩
    obtain ⟨hbound, hbound'⟩ := acTimes_lt lo hi hmin hmax
    have hfits : ∀ v, lo = some v → 1 ≤ v → v < 2 ^ 31 := by
      intro v hv hpos
      rw [hlo v hv hpos] at hbound
      omega
    have hfits' : ∀ v, hi = some v → 1 ≤ v → v < 2 ^ 31 := by
      intro v hv hpos
      rw [hhi v hv hpos] at hbound'
      omega
    refine ⟨⟨hfits, hfits'⟩, ?_⟩
    rw [acTimes_storedOr (hall hfits) (hall hfits')] at hlo hhi
    by_contra horder
    -- both are the defaults, which are in order
    rw [if_neg horder] at hlo hhi
    have hone : orDefault defMin lo = defMin :=
      orDefault_eq fun v hv hpos ↦ Int.ofNat.inj (hlo v hv hpos)
    have htwo : orDefault defMax hi = defMax :=
      orDefault_eq fun v hv hpos ↦ Int.ofNat.inj (hhi v hv hpos)
    omega
  · rintro ⟨⟨hfits, hfits'⟩, horder⟩
    rw [acTimes_storedOr (hall hfits) (hall hfits'), if_pos horder]
    constructor
    · rintro v rfl hpos
      rw [orDefault_some defMin hpos]
    · rintro v rfl hpos
      rw [orDefault_some defMax hpos]

end AcTimes

/-! ## The result -/

/-- The protocol that an option asks for. -/
def Transport.prot : Transport → UInt64
  | .tcp | .noudp | .protoTcp => ipprotoTcp
  | .udp | .notcp | .protoUdp => ipprotoUdp

/-- The transport that an item asks for. -/
def Item.requests : Item → Option Transport
  | .transport t => some t
  | _ => none

/-- The host that an item names. -/
def Item.host : Item → Option Name
  | .mounthost host => some host
  | _ => none

/-- The version of the mount protocol that an item gives. -/
def Item.mountvers : Item → Option Nat
  | .num .mountvers val => some val
  | _ => none

/-- The version of NFS that an item gives. -/
def Item.nfsvers : Item → Option Nat
  | .num .nfsvers val => some val
  | _ => none

/-- The options `gave` are what a file system is mounted with, if they were stored as `d`. -/
structure Honoured (resolve : Resolver) (gave : List Item) (d : MountData) : Prop where
  compat : hsiNfsmntCheckCompat d.nfs.pmap d.mnt.pmap = 0
  numbers : ∀ x val, latest (Item.gives x) gave = some val → 1 ≤ val →
    x.read (hsiValidateMountData d) = val
  transport : ∀ t, latest Item.requests gave = some t →
    (hsiValidateMountData d).mnt.pmap.prot = t.prot ∧ (hsiValidateMountData d).nfs.pmap.prot =
      t.prot
  host : ∀ host, latest Item.host gave = some host →
    resolve host = .ok (hsiValidateMountData d).mnt.saddr.addr

/-- The protocol that is asked for, or the default. -/
def protOf (gave : List Item) : UInt64 :=
  ((latest Item.requests gave).map Transport.prot).getD ipprotoTcp

/-- The numbers that a setting can be given, if `prot` is the protocol. -/
def Setting.Takes (prot : UInt64) (val : Nat) : Setting → Prop
  | .rsize | .wsize => val = (transferSize prot).toNat
  | .mountprog => val = Mount.mountprog.toNat
  | .nfsprog => val = nfsProgram.toNat
  | .port | .mountport => val < 2 ^ 31 ∨ val = 2 ^ 64 - 1
  | _ => val < 2 ^ 31

instance (prot : UInt64) (val : Nat) : (x : Setting) → Decidable (x.Takes prot val)
  | .rsize | .wsize | .mountprog | .nfsprog => inferInstanceAs (Decidable (_ = _))
  | .port | .mountport => inferInstanceAs (Decidable (_ ∨ _))
  | .timeo | .retrans | .acregmin | .acregmax | .acdirmin | .acdirmax | .retry =>
      inferInstanceAs (Decidable (_ < _))

/-- When the options are honoured by a mount from a server at `addr`. -/
structure Tolerated (resolve : Resolver) (gave : List Item) (addr : SockaddrIn) : Prop where
  mountvers : latest Item.mountvers gave = none
  numbers : ∀ x val, latest (Item.gives x) gave = some val → 1 ≤ val → x.Takes (protOf gave) val
  acreg : orDefault 3 (latest (Item.gives .acregmin) gave) ≤
    orDefault 60 (latest (Item.gives .acregmax) gave)
  acdir : orDefault 30 (latest (Item.gives .acdirmin) gave) ≤
    orDefault 60 (latest (Item.gives .acdirmax) gave)
  host : ∀ host, latest Item.host gave = some host → resolve host = .ok addr.addr

/-- What stands in a field when the options have been read. -/
theorem read_given {β γ : Type} (read : MountData → γ) {f : Item → Option β} {g : β → γ}
    (h : ∀ s item, read (Item.store s item).data = ((f item).map g).getD (read s.data))
    (gave : List Item) (s : Parsing) :
    read (gave.foldl Item.store s).data = ((latest f gave).map g).getD (read s.data) :=
  @read_foldl _ _ _ _ Item.store (fun s ↦ read s.data) f g h gave s

/-- A field that no item changes. -/
theorem kept_given {γ : Type} (read : MountData → γ)
    (h : ∀ (s : Parsing) (item : Item), read (item.store s).data = read s.data) (gave : List Item)
    (s : Parsing) : read (gave.foldl Item.store s).data = read s.data := by
  induction gave generalizing s with
  | nil => rfl
  | cons item gave ih => exact (ih (item.store s)).trans (h s item)

/-- What is stored for the options, in the settings `d`. -/
structure StoredAs (gave : List Item) (flags : UInt32) (addr : SockaddrIn) (d : MountData) :
    Prop where
  read : ∀ x : Setting,
    x.read d = ((latest (Item.gives x) gave).map x.stored).getD (x.read (.start flags addr))
  mntProt : d.mnt.pmap.prot = ((latest Item.requests gave).map Transport.prot).getD 0
  nfsProt : d.nfs.pmap.prot = ((latest Item.requests gave).map Transport.prot).getD 0
  mountvers : d.mnt.pmap.vers =
    ((latest Item.mountvers gave).map fun v ↦ UInt64.ofInt (atoi v)).getD 0
  nfsvers : d.nfs.pmap.vers = ((latest Item.nfsvers gave).map fun v ↦ UInt64.ofInt (atoi v)).getD 0
  addr : d.addr = addr

/-- What an item changes besides numbers. -/
theorem fields_store (s : Parsing) (item : Item) :
    (item.store s).data.mnt.pmap.prot = (item.requests.map Transport.prot).getD s.data.mnt.pmap.prot
      ∧
    (item.store s).data.nfs.pmap.prot = (item.requests.map Transport.prot).getD s.data.nfs.pmap.prot
      ∧
    (item.store s).data.mnt.pmap.vers =
      (item.mountvers.map fun v ↦ UInt64.ofInt (atoi v)).getD s.data.mnt.pmap.vers ∧
    (item.store s).data.nfs.pmap.vers =
      (item.nfsvers.map fun v ↦ UInt64.ofInt (atoi v)).getD s.data.nfs.pmap.vers ∧
    (item.store s).data.addr = s.data.addr := by
  rcases item with ⟨opt, val⟩ | host | t | _
  · cases opt <;> exact ⟨rfl, rfl, rfl, rfl, rfl⟩
  · exact ⟨rfl, rfl, rfl, rfl, rfl⟩
  · cases t <;> exact ⟨rfl, rfl, rfl, rfl, rfl⟩
  · exact ⟨rfl, rfl, rfl, rfl, rfl⟩

theorem storedAs_foldl (gave : List Item) (flags : UInt32) (addr saddr : SockaddrIn) :
    StoredAs gave flags addr
      ((gave.foldl Item.store ⟨.start flags addr, none, []⟩).data.withMntSaddr saddr) where
  read x := by
    refine Eq.trans ?_ (read_given x.read (read_store x) gave ⟨.start flags addr, none, []⟩)
    cases x <;> rfl
  mntProt := read_given (·.mnt.pmap.prot) (fun s item ↦ (fields_store s item).1) gave _
  nfsProt := read_given (·.nfs.pmap.prot) (fun s item ↦ (fields_store s item).2.1) gave _
  mountvers := read_given (·.mnt.pmap.vers) (fun s item ↦ (fields_store s item).2.2.1) gave _
  nfsvers := read_given (·.nfs.pmap.vers) (fun s item ↦ (fields_store s item).2.2.2.1) gave _
  addr := kept_given (·.addr) (fun s item ↦ (fields_store s item).2.2.2.2) gave _

section Result

variable {resolve : Resolver} {gave : List Item} {flags : UInt32} {addr : SockaddrIn}
    {d : MountData}

theorem Transport.prot_ne_zero (t : Transport) : t.prot ≠ 0 := by
  cases t <;> decide

/-- The protocol after the defaults have been put in. -/
theorem StoredAs.prot_validated (h : StoredAs gave flags addr d) :
    (hsiValidateMountData d).mnt.pmap.prot = protOf gave ∧
      (hsiValidateMountData d).nfs.pmap.prot = protOf gave := by
  have hinit : ∀ p, p = ((latest Item.requests gave).map Transport.prot).getD 0 →
      (if p = 0 then ipprotoTcp else p) = protOf gave := by
    rintro p rfl
    unfold protOf
    cases latest Item.requests gave with
    | none => rfl
    | some t => exact if_neg t.prot_ne_zero
  exact ⟨hinit _ h.mntProt, hinit _ h.nfsProt⟩

theorem mem_of_latest_nfsvers {val : Nat} (h : latest Item.nfsvers gave = some val) :
    .num .nfsvers val ∈ gave := by
  obtain ⟨item, hmem, hitem⟩ := exists_of_latest h
  unfold Item.nfsvers at hitem
  split at hitem
  · exact Option.some.inj hitem ▸ hmem
  · exact nomatch hitem

theorem mem_of_latest_mountvers {val : Nat} (h : latest Item.mountvers gave = some val) :
    .num .mountvers val ∈ gave := by
  obtain ⟨item, hmem, hitem⟩ := exists_of_latest h
  unfold Item.mountvers at hitem
  split at hitem
  · exact Option.some.inj hitem ▸ hmem
  · exact nomatch hitem

/-- Versions that are 3 are accepted, if none of them is that of the mount protocol. -/
theorem StoredAs.compat_iff (h : StoredAs gave flags addr d)
    (hmount : ∀ val, .num .mountvers val ∈ gave → val = 3)
    (hnfs : ∀ val, .num .nfsvers val ∈ gave → val = 3) :
    hsiNfsmntCheckCompat d.nfs.pmap d.mnt.pmap = 0 ↔ latest Item.mountvers gave = none := by
  have hthree : UInt64.ofInt (atoi 3) = 3 := by decide
  have hnfs3 : ¬ (d.nfs.pmap.vers ≠ 0 ∧ d.nfs.pmap.vers ≠ 3) := by
    rw [h.nfsvers]
    cases hlast : latest Item.nfsvers gave with
    | none => exact fun hne ↦ hne.1 rfl
    | some val =>
        obtain rfl := hnfs val (mem_of_latest_nfsvers hlast)
        exact fun hne ↦ hne.2 hthree
  unfold hsiNfsmntCheckCompat
  rw [if_neg hnfs3, h.mountvers]
  cases hlast : latest Item.mountvers gave with
  | none => exact iff_of_true rfl rfl
  | some val =>
      obtain rfl := hmount val (mem_of_latest_mountvers hlast)
      exact iff_of_false (by decide) (Option.some_ne_none 3)

/-- The settings that are one of a pair of cache times. -/
def Setting.isAcTime : Setting → Bool
  | .acregmin | .acregmax | .acdirmin | .acdirmax => true
  | _ => false

/-- A number is kept by any other setting if the setting can be given it. -/
theorem StoredAs.read_validated_iff (h : StoredAs gave flags addr d) {x : Setting}
    (hx : x.isAcTime = false) {val : Nat} (hval : latest (Item.gives x) gave = some val)
    (hpos : 1 ≤ val) : x.read (hsiValidateMountData d) = val ↔ x.Takes (protOf gave) val := by
  have hread := h.read x
  rw [hval, Option.map_some, Option.getD_some] at hread
  have hsize : ((transferSize (hsiValidateMountData d).nfs.pmap.prot).toNat : Int) = val ↔
      val = (transferSize (protOf gave)).toNat := by
    rw [h.prot_validated.2, Int.ofNat_inj]
    exact eq_comm
  -- the defaults for single numbers are for those that are not set
  have hdflt : ∀ {n unset dflt : Int}, n = atoi val → unset ≤ 0 → dflt < 2 ^ 31 →
      ((if n = unset then dflt else n) = val ↔ val < 2 ^ 31) := by
    rintro n unset dflt rfl hunset hdflt
    by_cases hfits : val < 2 ^ 31
    · rw [atoi_of_lt hfits, if_neg (by omega)]
      exact iff_of_true rfl hfits
    · have hlt := atoi_lt val
      refine iff_of_false ?_ hfits
      split <;> omega
  cases x with
  | rsize => exact hsize
  | wsize => exact hsize
  | timeo => exact hdflt hread (by decide) (by decide)
  | retrans => exact hdflt hread (by decide) (by decide)
  | retry => exact hdflt hread (by decide) (by decide)
  | port =>
      change (d.nfs.pmap.port.toNat : Int) = val ↔ _
      rw [show (d.nfs.pmap.port.toNat : Int) = _ from hread]
      exact ofInt_atoi_eq_iff
  | mountport =>
      change (d.mnt.pmap.port.toNat : Int) = val ↔ _
      rw [show (d.mnt.pmap.port.toNat : Int) = _ from hread]
      exact ofInt_atoi_eq_iff
  | mountprog => exact Int.ofNat_inj.trans eq_comm
  | nfsprog => exact Int.ofNat_inj.trans eq_comm
  | acregmin => exact nomatch hx
  | acregmax => exact nomatch hx
  | acdirmin => exact nomatch hx
  | acdirmax => exact nomatch hx

/-- The cache times of files are kept if the numbers fit and those that count are in order. -/
theorem StoredAs.acreg_iff (h : StoredAs gave flags addr d) :
    ((∀ v, latest (Item.gives .acregmin) gave = some v → 1 ≤ v →
        (hsiValidateMountData d).acregmin = v) ∧
      ∀ v, latest (Item.gives .acregmax) gave = some v → 1 ≤ v →
        (hsiValidateMountData d).acregmax = v) ↔
    ((∀ v, latest (Item.gives .acregmin) gave = some v → 1 ≤ v → v < 2 ^ 31) ∧
      ∀ v, latest (Item.gives .acregmax) gave = some v → 1 ≤ v → v < 2 ^ 31) ∧
    orDefault 3 (latest (Item.gives .acregmin) gave) ≤
      orDefault 60 (latest (Item.gives .acregmax) gave) := by
  have hmin : d.acregmin = storedOr (latest (Item.gives .acregmin) gave) := h.read .acregmin
  have hmax : d.acregmax = storedOr (latest (Item.gives .acregmax) gave) := h.read .acregmax
  unfold hsiValidateMountData
  dsimp only
  rw [hmin, hmax]
  exact acTimes_keeps_iff (by decide) (by decide) (by decide)

/-- The cache times of directories are kept if the numbers fit and those that count are in order. -/
theorem StoredAs.acdir_iff (h : StoredAs gave flags addr d) :
    ((∀ v, latest (Item.gives .acdirmin) gave = some v → 1 ≤ v →
        (hsiValidateMountData d).acdirmin = v) ∧
      ∀ v, latest (Item.gives .acdirmax) gave = some v → 1 ≤ v →
        (hsiValidateMountData d).acdirmax = v) ↔
    ((∀ v, latest (Item.gives .acdirmin) gave = some v → 1 ≤ v → v < 2 ^ 31) ∧
      ∀ v, latest (Item.gives .acdirmax) gave = some v → 1 ≤ v → v < 2 ^ 31) ∧
    orDefault 30 (latest (Item.gives .acdirmin) gave) ≤
      orDefault 60 (latest (Item.gives .acdirmax) gave) := by
  have hmin : d.acdirmin = storedOr (latest (Item.gives .acdirmin) gave) := h.read .acdirmin
  have hmax : d.acdirmax = storedOr (latest (Item.gives .acdirmax) gave) := h.read .acdirmax
  unfold hsiValidateMountData
  dsimp only
  rw [hmin, hmax]
  exact acTimes_keeps_iff (by decide) (by decide) (by decide)

theorem StoredAs.honoured_iff (h : StoredAs gave flags addr d)
    (hmount : ∀ val, .num .mountvers val ∈ gave → val = 3)
    (hnfs : ∀ val, .num .nfsvers val ∈ gave → val = 3) :
    Honoured resolve gave d ↔ Tolerated resolve gave addr := by
  have haddr : (hsiValidateMountData d).mnt.saddr = addr := h.addr
  constructor
  · intro hh
    obtain ⟨hreg, hregOrder⟩ := h.acreg_iff.1 ⟨hh.numbers .acregmin, hh.numbers .acregmax⟩
    obtain ⟨hdir, hdirOrder⟩ := h.acdir_iff.1 ⟨hh.numbers .acdirmin, hh.numbers .acdirmax⟩
    refine ⟨(h.compat_iff hmount hnfs).1 hh.compat, ?_, hregOrder, hdirOrder, ?_⟩
    · intro x val hval hpos
      cases hx : x.isAcTime with
      | false => exact (h.read_validated_iff hx hval hpos).1 (hh.numbers x val hval hpos)
      | true =>
          cases x with
          | acregmin => exact hreg.1 val hval hpos
          | acregmax => exact hreg.2 val hval hpos
          | acdirmin => exact hdir.1 val hval hpos
          | acdirmax => exact hdir.2 val hval hpos
          | _ => exact nomatch hx
    · rw [← haddr]
      exact hh.host
  · intro ht
    obtain ⟨hmin, hmax⟩ := h.acreg_iff.2
      ⟨⟨ht.numbers .acregmin, ht.numbers .acregmax⟩, ht.acreg⟩
    obtain ⟨hdmin, hdmax⟩ := h.acdir_iff.2
      ⟨⟨ht.numbers .acdirmin, ht.numbers .acdirmax⟩, ht.acdir⟩
    refine ⟨(h.compat_iff hmount hnfs).2 ht.mountvers, ?_, ?_, ?_⟩
    · intro x val hval hpos
      cases hx : x.isAcTime with
      | false => exact (h.read_validated_iff hx hval hpos).2 (ht.numbers x val hval hpos)
      | true =>
          cases x with
          | acregmin => exact hmin val hval hpos
          | acregmax => exact hmax val hval hpos
          | acdirmin => exact hdmin val hval hpos
          | acdirmax => exact hdmax val hval hpos
          | _ => exact nomatch hx
    · intro t hlast
      have hprot : protOf gave = t.prot := by
        unfold protOf
        rw [hlast]
        rfl
      rw [h.prot_validated.1, h.prot_validated.2, hprot]
      exact ⟨rfl, rfl⟩
    · rw [haddr]
      exact ht.host

end Result

/-- **When options are honoured.**  For every option string that is accepted with all of its items
known and with no version but 3, what it says is what the file system is mounted with exactly if: it
gives no `mountvers`; the transfer sizes it gives are those of the protocol, and the programs are
the usual ones; the other numbers fit; a cache time that is given without the other of its pair is
on the right side of the default; and `mounthost` is at the address of the server. -/
theorem options_honoured_iff (resolve : Resolver) (optSize : Nat) (oldOpts : OptString)
    (flags : UInt32)
    (addr : SockaddrIn) (hknown : ∀ opt ∈ items oldOpts.bytes, ∃ dec, decodeItem opt = .ok dec)
    (hok : (hsiNfs3ParseOptions resolve optSize oldOpts.bytes (.start flags addr)).1 = 0)
    (hmount : ∀ val, .num .mountvers val ∈ given (items oldOpts.bytes) → val = 3)
    (hnfs : ∀ val, .num .nfsvers val ∈ given (items oldOpts.bytes) → val = 3) :
    Honoured resolve (given (items oldOpts.bytes))
        (hsiNfs3ParseOptions resolve optSize oldOpts.bytes (.start flags addr)).2.data ↔
      Tolerated resolve (given (items oldOpts.bytes)) addr := by
  obtain ⟨saddr, hdata⟩ :=
    data_hsiNfs3ParseOptions resolve optSize oldOpts.zero_free (.start flags addr)
  rw [applied_eq_given oldOpts.zero_free hknown hok] at hdata
  rw [hdata]
  exact (storedAs_foldl _ flags addr saddr).honoured_iff hmount hnfs

/-- The options `timeo=7,rsize=65536,actimeo=30,tcp`. -/
def keptOptions : OptString where
  bytes := nameOf "timeo=7,rsize=65536,actimeo=30,tcp"
  zero_free := by decide
  fits := by decide

theorem options_honoured_iff_kept :
    Honoured (fun _ ↦ .error 2) (given (items keptOptions.bytes))
      (hsiNfs3ParseOptions (fun _ ↦ .error 2) 1024 keptOptions.bytes
        (.start 0 ⟨2, 0, 1⟩)).2.data := by
  have hgiven : given (items keptOptions.bytes) =
      [.num .timeo 7, .num .rsize 65536, .num .actimeo 30, .transport .tcp] := by
    decide
  have hknown : ∀ opt ∈ items keptOptions.bytes, (decodeItem opt).isOk = true := by decide
  refine (options_honoured_iff (fun _ ↦ .error 2) 1024 keptOptions 0 ⟨2, 0, 1⟩ ?_ ?_ ?_ ?_).2 ?_
  · intro opt hopt
    cases hdec : decodeItem opt with
    | ok dec => exact ⟨dec, rfl⟩
    | error e => exact absurd (hknown opt hopt) (by rw [hdec]; exact Bool.false_ne_true)
  · decide +kernel
  · rw [hgiven]
    intro val hval
    exact absurd hval (by simp)
  · rw [hgiven]
    intro val hval
    exact absurd hval (by simp)
  · rw [hgiven]
    refine ⟨rfl, ?_, by decide, by decide, fun _ h ↦ nomatch h⟩
    intro x val hval _
    cases x with
    | timeo => exact Option.some.inj hval ▸ by decide
    | rsize => exact Option.some.inj hval ▸ by decide
    | acregmin => exact Option.some.inj hval ▸ by decide
    | acregmax => exact Option.some.inj hval ▸ by decide
    | acdirmin => exact Option.some.inj hval ▸ by decide
    | acdirmax => exact Option.some.inj hval ▸ by decide
    | _ => exact nomatch hval

/-- The options `rsize=8192`. -/
def smallReads : OptString where
  bytes := nameOf "rsize=8192"
  zero_free := by decide
  fits := by decide

/-- Options are overridden: with `rsize=8192`, a file system is mounted with a read size of
65536. -/
theorem not_options_honoured : ¬ ∀ (resolve : Resolver) (optSize : Nat) (oldOpts : OptString)
    (flags : UInt32) (addr : SockaddrIn),
    (∀ opt ∈ items oldOpts.bytes, ∃ dec, decodeItem opt = .ok dec) →
    (hsiNfs3ParseOptions resolve optSize oldOpts.bytes (.start flags addr)).1 = 0 →
    (∀ val, .num .mountvers val ∈ given (items oldOpts.bytes) → val = 3) →
    (∀ val, .num .nfsvers val ∈ given (items oldOpts.bytes) → val = 3) →
    (∀ lo hi : Item, lo ∈ given (items oldOpts.bytes) → hi ∈ given (items oldOpts.bytes) →
      (∀ low high, lo.gives .acregmin = some low → hi.gives .acregmax = some high → low ≤ high) ∧
      ∀ low high, lo.gives .acdirmin = some low → hi.gives .acdirmax = some high → low ≤ high) →
    Honoured resolve (given (items oldOpts.bytes))
      (hsiNfs3ParseOptions resolve optSize oldOpts.bytes (.start flags addr)).2.data := by
  intro hall
  have hgiven : given (items smallReads.bytes) = [.num .rsize 8192] := by decide
  have hitems : items smallReads.bytes = [nameOf "rsize=8192"] := by decide
  have hread : Setting.rsize.read (hsiValidateMountData
      (hsiNfs3ParseOptions (fun _ ↦ .error 2) 1024 smallReads.bytes (.start 0 ⟨2, 0, 1⟩)).2.data) ≠
      8192 := by
    decide +kernel
  have hhonoured := hall (fun _ ↦ .error 2) 1024 smallReads 0 ⟨2, 0, 1⟩ ?_
    (by decide +kernel) ?_ ?_ ?_
  · rw [hgiven] at hhonoured
    exact hread (hhonoured.numbers .rsize 8192 rfl (by decide))
  · rw [hitems]
    intro opt hopt
    rw [List.mem_singleton.1 hopt]
    exact ⟨⟨.num .rsize 8192, some (nameOf "rsize=8192,")⟩, by decide⟩
  · rw [hgiven]
    intro val hval
    exact absurd hval (by simp)
  · rw [hgiven]
    intro val hval
    exact absurd hval (by simp)
  · rw [hgiven]
    intro lo hi hlo _
    rw [List.mem_singleton.1 hlo]
    exact ⟨fun _ _ h ↦ (nomatch h), fun _ _ h ↦ (nomatch h)⟩

end Hsfs.Mount
