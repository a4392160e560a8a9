import Hsfs.Mount.CmdLine
import Hsfs.Nfs3.Mount

/-!
# The options of a mount

`hsi_nfs3_parse_options` reads the options that nobody claimed on the command line.  What an item
says is `decodeItem`; what it changes is `Item.store`.  `hsi_nfsmnt_check_compat` then looks at the
versions, and `hsi_validate_mount_data` puts in the defaults.
-/

namespace Hsfs.Mount

/-! ## What is set -/

/-- `struct pmap`. -/
structure Pmap where
  prog : UInt64
  vers : UInt64
  prot : UInt64
  port : UInt64
  deriving DecidableEq

/-- `struct sockaddr_in`. -/
structure SockaddrIn where
  family : UInt16
  port : UInt16
  addr : UInt32
  deriving DecidableEq

/-- `clnt_addr_t`, without the name of the host. -/
structure ClntAddr where
  saddr : SockaddrIn
  pmap : Pmap
  deriving DecidableEq

/-- What the options set: fields of the superblock, the time to go on trying and the addresses of
the two servers. -/
structure MountData where
  flags : UInt32
  rsize : UInt32
  wsize : UInt32
  timeo : Int
  retrans : Int
  acregmin : Int
  acregmax : Int
  acdirmin : Int
  acdirmax : Int
  bsize : UInt32
  bsizeBits : UInt8
  /-- `super->addr`. -/
  addr : SockaddrIn
  retry : Int
  /-- `mnt_server`. -/
  mnt : ClntAddr
  /-- `nfs_server`. -/
  nfs : ClntAddr
  deriving DecidableEq

/-- An address that is all zero. -/
def ClntAddr.zero : ClntAddr := ⟨⟨0, 0, 0⟩, ⟨0, 0, 0, 0⟩⟩

/-- The settings when `hsx_fuse_mount` begins to read the options: everything is zero, up to the
flags of the command line, the address of the server and `retry`. -/
def MountData.start (flags : UInt32) (addr : SockaddrIn) : MountData where
  flags := flags
  rsize := 0
  wsize := 0
  timeo := 0
  retrans := 0
  acregmin := 0
  acregmax := 0
  acdirmin := 0
  acdirmax := 0
  bsize := 0
  bsizeBits := 0
  addr := addr
  retry := -1
  mnt := .zero
  nfs := .zero

def ipprotoTcp : UInt64 := 6
def ipprotoUdp : UInt64 := 17

/-- `NFS_MOUNT_TCP`. -/
def nfsMountTcp : UInt32 := 0x0001

/-- Set the protocol of both servers. -/
def MountData.setProt (prot : UInt64) (d : MountData) : MountData :=
  { d with
    nfs := { d.nfs with pmap := { d.nfs.pmap with prot := prot } }
    mnt := { d.mnt with pmap := { d.mnt.pmap with prot := prot } } }

/-! ## Items -/

/-- The options with a number. -/
inductive NumOpt where
  | rsize
  | wsize
  | timeo
  | retrans
  | acregmin
  | acregmax
  | acdirmin
  | acdirmax
  | actimeo
  | retry
  | port
  | mountport
  | mountprog
  | mountvers
  | nfsprog
  | nfsvers
  deriving DecidableEq

/-- Their names. -/
def numOpts : List (String × NumOpt) :=
  [("rsize", .rsize), ("wsize", .wsize), ("timeo", .timeo), ("retrans", .retrans),
   ("acregmin", .acregmin), ("acregmax", .acregmax), ("acdirmin", .acdirmin),
     ("acdirmax", .acdirmax),
   ("actimeo", .actimeo), ("retry", .retry), ("port", .port), ("mountport", .mountport),
   ("mountprog", .mountprog), ("mountvers", .mountvers), ("nfsprog", .nfsprog),
     ("nfsvers", .nfsvers),
   ("vers", .nfsvers)]

/-- Store a number. -/
def NumOpt.store (val : Int) (d : MountData) : NumOpt → MountData
  | .rsize => { d with rsize := UInt32.ofInt val }
  | .wsize => { d with wsize := UInt32.ofInt val }
  | .timeo => { d with timeo := val }
  | .retrans => { d with retrans := val }
  | .acregmin => { d with acregmin := val }
  | .acregmax => { d with acregmax := val }
  | .acdirmin => { d with acdirmin := val }
  | .acdirmax => { d with acdirmax := val }
  | .actimeo => { d with acregmin := val, acregmax := val, acdirmin := val, acdirmax := val }
  | .retry => { d with retry := val }
  | .port => { d with nfs := { d.nfs with pmap := { d.nfs.pmap with port := UInt64.ofInt val } } }
  | .mountport => { d with mnt :=
      { d.mnt with pmap := { d.mnt.pmap with port := UInt64.ofInt val } } }
  | .mountprog => { d with mnt :=
      { d.mnt with pmap := { d.mnt.pmap with prog := UInt64.ofInt val } } }
  | .mountvers => { d with mnt :=
      { d.mnt with pmap := { d.mnt.pmap with vers := UInt64.ofInt val } } }
  | .nfsprog => { d with nfs :=
      { d.nfs with pmap := { d.nfs.pmap with prog := UInt64.ofInt val } } }
  | .nfsvers => { d with nfs :=
      { d.nfs with pmap := { d.nfs.pmap with vers := UInt64.ofInt val } } }

/-- The options that choose a transport. -/
inductive Transport where
  | tcp
  | notcp
  | udp
  | noudp
  | protoTcp
  | protoUdp
  deriving DecidableEq

/-- Store a transport. -/
def Transport.store (d : MountData) : Transport → MountData
  | .protoUdp => { d.setProt ipprotoUdp with flags := d.flags &&& ~~~nfsMountTcp }
  | .protoTcp => { d.setProt ipprotoTcp with flags := d.flags ||| nfsMountTcp }
  | .tcp => { d.setProt ipprotoTcp with flags := d.flags ||| nfsMountTcp }
  | .notcp => d.setProt ipprotoUdp
  | .noudp => { d.setProt ipprotoTcp with flags := (d.flags &&& ~~~nfsMountTcp) ||| nfsMountTcp }
  | .udp => { d.setProt ipprotoUdp with flags := d.flags &&& ~~~nfsMountTcp }

/-- What an item says. -/
inductive Item where
  /-- A number, as it is written. -/
  | num (opt : NumOpt) (val : Nat)
  | mounthost (host : Name)
  | transport (t : Transport)
  /-- An option that is known and changes nothing. -/
  | ignored
  deriving DecidableEq

/-- How parsing ends early. -/
inductive Reject where
  /-- The label `bad_parameter`. -/
  | badParameter
  /-- The label `out_bad`. -/
  | outBad
  deriving DecidableEq

/-- An item that is known, and what `cbuf` holds behind it, if it comes to that. -/
structure Decoded where
  item : Item
  cbuf : Option Name
  deriving DecidableEq

/-- The byte `'='`. -/
abbrev equals : UInt8 := 61

/-- `isdigit`. -/
def isdigit (b : UInt8) : Bool := 48 ≤ b && b ≤ 57

/-- The number at the beginning of a string. -/
def decimal (s : Name) : Nat :=
  (s.takeWhile isdigit).foldl (fun n b ↦ 10 * n + (b.toNat - 48)) 0

/-- What `atoi` makes of a number without a sign: `strtol`, which stops at the greatest `long`, and
the cast to an `int`. -/
def atoi (n : Nat) : Int := intOfLong (min n (2 ^ 63 - 1))

/-- `atoi` reads a number that fits an `int`. -/
theorem atoi_of_lt {n : Nat} (h : n < 2 ^ 31) : atoi n = n := by
  unfold atoi intOfLong
  rw [min_eq_left (by omega), Int.bmod_eq_of_le (by omega) (by omega)]

/-- The bytes `strcspn` stops at, behind `mounthost=`. -/
def hostEnd : List UInt8 := nameOf " \t\n\r,"

/-- The value of `mounthost`. -/
def hostOf (value : Name) : Name := value.takeWhile (· ∉ hostEnd)

/-- The format `"%s=%s,"`. -/
def assignText (opt value : Name) : Name := opt ++ equals :: value ++ [comma]

/-- An item with a value that begins with a digit. -/
def decodeNumber (opt value : Name) : Except Reject Decoded :=
  match numOpts.find? (opt = nameOf ·.1) with
  | some (_, .nfsvers) => .ok ⟨.num .nfsvers (decimal value),
      some (assignText (nameOf "nfsvers") value)⟩
  | some (_, num) => .ok ⟨.num num (decimal value), some (assignText opt value)⟩
  | none =>
      if opt = nameOf "mounthost" then .ok ⟨.mounthost (hostOf value), some (assignText opt value)⟩
      else if opt = nameOf "namlen" then .ok ⟨.ignored, none⟩
      else if opt = nameOf "addr" then .ok ⟨.ignored, none⟩
      else .error .badParameter

/-- An item with another value. -/
def decodeWord (opt value : Name) : Except Reject Decoded :=
  if opt = nameOf "proto" then
    if value = nameOf "udp" then .ok ⟨.transport .protoUdp, some (assignText opt value)⟩
    else if value = nameOf "tcp" then .ok ⟨.transport .protoTcp, some (assignText opt value)⟩
    else .error .badParameter
  else if opt = nameOf "sec" then .ok ⟨.ignored, none⟩
  else if opt = nameOf "mounthost" then .ok ⟨.mounthost (hostOf value), some (assignText opt value)⟩
  else if opt = nameOf "context" then .ok ⟨.ignored, some (assignText opt value)⟩
  else .error .badParameter

/-- The options without a value that change nothing. -/
def ignoredOpts : List String :=
  ["bg", "fg", "soft", "hard", "intr", "posix", "cto", "ac", "lock", "broken_suid", "acl",
    "rdirplus",
   "sharecache"]

/-- An item without a value. -/
def decodeFlag (opt : Name) : Except Reject Decoded :=
  let val := decide (opt.take 2 ≠ nameOf "no")
  let opt := if val then opt else opt.drop 2
  let cbuf := (if val then opt else nameOf "no" ++ opt) ++ [comma]
  if ∃ name ∈ ignoredOpts, opt = nameOf name then .ok ⟨.ignored, none⟩
  else if opt = nameOf "tcp" then .ok ⟨.transport (if val then .tcp else .notcp), some cbuf⟩
  else if opt = nameOf "udp" then .ok ⟨.transport (if val then .udp else .noudp), some cbuf⟩
  else .error .outBad

/-- `sizeof(cbuf)`. -/
def cbufSize : Nat := 128

/-- What the body of the loop in `hsi_nfs3_parse_options` makes of an item. -/
def decodeItem (opt : Name) : Except Reject Decoded :=
  if cbufSize ≤ opt.length then
    .error .badParameter
  else if equals ∈ opt then
    let name := opt.takeWhile (· ≠ equals)
    let value := opt.drop (name.length + 1)
    if isdigit (byteAt value 0) then decodeNumber name value else decodeWord name value
  else
    decodeFlag opt

/-! ## Parsing -/

/-- What `hsi_nfs3_parse_options` changes.  Its variable `len` is the length of `new_opts`. -/
structure Parsing where
  data : MountData
  mounthost : Option Name
  newOpts : Name
  deriving DecidableEq

/-- Store an item. -/
def Item.store (s : Parsing) : Item → Parsing
  | .num opt val => { s with data := opt.store (atoi val) s.data }
  | .mounthost host => { s with mounthost := some host }
  | .transport t => { s with data := t.store s.data }
  | .ignored => s

/-- The body of the loop.  What an item has changed stays, also if parsing ends with it. -/
def parseItem (optSize : Nat) (opt : Name) : EStateM Reject Parsing Unit := do
  match decodeItem opt with
  | .error e => throw e
  | .ok ⟨item, cbuf⟩ => do
      modify item.store
      match cbuf with
      | none => pure ()
      | some cbuf => do
          let s ← get
          if optSize ≤ s.newOpts.length + cbuf.length then
            throw .outBad
          else
            set { s with newOpts := s.newOpts ++ cbuf }

/-- What the resolver says about a host: its address, or the value of `errno`. -/
abbrev Resolver := Name → Except Int UInt32

/-- `hsi_gethostbyname`. -/
def hsiGethostbyname (resolve : Resolver) (hostname : Name) (saddr : SockaddrIn) :
    Int × SockaddrIn :=
  let saddr := { saddr with family := 2 }
  match resolve hostname with
  | .error errno => (errno, saddr)
  | .ok addr => (0, { saddr with addr := addr })

/-- `hsi_nfs3_parse_options`. -/
def hsiNfs3ParseOptions (resolve : Resolver) (optSize : Nat) (oldOpts : Name) (d : MountData) :
    Int × Parsing :=
  match (forEachItem (parseItem optSize) oldOpts).run ⟨d, none, []⟩ with
  | .error .badParameter s => (0, s)
  | .error .outBad s => (1, s)
  | .ok _ s =>
      match s.mounthost with
      | none => (0, s)
      | some mounthost =>
          let (err, saddr) := hsiGethostbyname resolve mounthost s.data.mnt.saddr
          (if err ≠ 0 then 1 else 0,
            { s with data := { s.data with mnt := { s.data.mnt with saddr } } })

/-! ## Versions and defaults -/

/-- `hsi_nfsmnt_check_compat`. -/
def hsiNfsmntCheckCompat (nfsPmap mntPmap : Pmap) : Int :=
  if nfsPmap.vers ≠ 0 ∧ nfsPmap.vers ≠ 3 then 1
  -- there is a message for versions other than 3, but none is let through
  else if mntPmap.vers ≠ 0 then 1
  else 0

def mountprog : UInt64 := 100005
def mountversNfsv3 : UInt64 := 3
def nfsProgram : UInt64 := 100003
def nfsV3 : UInt64 := 3
def udpmsgsize : UInt32 := 8800
def rpcMaxdatasize : UInt32 := 9000

/-- The defaults for a pair of cache times: for one that is not set, and for both if they are in the
wrong order. -/
def acTimes (defMin defMax : Int) (times : Int × Int) : Int × Int :=
  let min := if times.1 = 0 then defMin else times.1
  let max := if times.2 = 0 then defMax else times.2
  if min > max then (defMin, defMax) else (min, max)

/-- The end of `hsi_validate_mount_data` for one of the servers: its address, program and
version. -/
def ClntAddr.init (addr : SockaddrIn) (prog vers : UInt64) (s : ClntAddr) : ClntAddr :=
  { saddr := addr
    pmap :=
      { s.pmap with
        prog := prog
        vers := vers
        prot := if s.pmap.prot = 0 then ipprotoTcp else s.pmap.prot } }

/-- The transfer size for a protocol. -/
def transferSize (prot : UInt64) : UInt32 :=
  if prot = ipprotoTcp then 64 * 1024 else if prot = ipprotoUdp then udpmsgsize else rpcMaxdatasize

/-- `hsi_validate_mount_data`. -/
def hsiValidateMountData (d : MountData) : MountData :=
  let acreg := acTimes 3 60 (d.acregmin, d.acregmax)
  let acdir := acTimes 30 60 (d.acdirmin, d.acdirmax)
  let block := hsfsBlockSizeNr d.bsize.toUInt64
  let nfs := d.nfs.init d.addr nfsProgram nfsV3
  { d with
    timeo := if d.timeo = 0 then 600 else d.timeo
    retrans := if d.retrans = 0 then 3 else d.retrans
    acregmin := acreg.1
    acregmax := acreg.2
    acdirmin := acdir.1
    acdirmax := acdir.2
    bsize := block.1.toUInt32
    bsizeBits := block.2
    mnt := d.mnt.init d.addr mountprog mountversNfsv3
    nfs := nfs
    rsize := transferSize nfs.pmap.prot
    wsize := transferSize nfs.pmap.prot
    retry := if d.retry = -1 then 10000 else d.retry }

/-- The `pmap` with which `hsx_fuse_unmount` talks to the mount server. -/
def umountPmap (flags : UInt32) : Pmap where
  prog := mountprog
  vers := mountversNfsv3
  prot := if flags &&& nfsMountTcp ≠ 0 then ipprotoTcp else ipprotoUdp
  port := 0

/-! ## What parsing changes -/

/-- The items whose changes are made: those up to the first one that ends the parsing, which is
among them if it is known. -/
def applied (optSize : Nat) : Nat → List Name → List Item
  | _, [] => []
  | len, opt :: rest =>
      match decodeItem opt with
      | .error _ => []
      | .ok ⟨item, none⟩ => item :: applied optSize len rest
      | .ok ⟨item, some cbuf⟩ =>
          item :: if optSize ≤ len + cbuf.length then [] else applied optSize
            (len + cbuf.length) rest

/-- The state that parsing ends with. -/
def stateOf : EStateM.Result Reject Parsing Unit → Parsing
  | .ok _ s => s
  | .error _ s => s

theorem Item.store_newOpts (s : Parsing) (item : Item) (newOpts : Name) :
    Item.store { s with newOpts } item = { Item.store s item with newOpts } := by
  cases item <;> rfl

theorem foldl_store_newOpts (given : List Item) (s : Parsing) (newOpts : Name) :
    given.foldl Item.store { s with newOpts } = { given.foldl Item.store s with newOpts } := by
  induction given generalizing s with
  | nil => rfl
  | cons item given ih => rw [List.foldl_cons, List.foldl_cons, Item.store_newOpts, ih]

theorem Item.newOpts_store (s : Parsing) (item : Item) : (item.store s).newOpts = s.newOpts := by
  cases item <;> rfl

section Run

variable {optSize : Nat} {opt : Name} {s : Parsing}

theorem parseItem_run_error {e : Reject} (h : decodeItem opt = .error e) :
    (parseItem optSize opt).run s = .error e s := by
  unfold parseItem
  rw [h]
  rfl

theorem parseItem_run_none {item : Item} (h : decodeItem opt = .ok ⟨item, none⟩) :
    (parseItem optSize opt).run s = .ok () (item.store s) := by
  unfold parseItem
  rw [h]
  rfl

variable (optSize s) in
theorem parseItem_run_some {item : Item} {cbuf : Name}
    (h : decodeItem opt = .ok ⟨item, some cbuf⟩) :
    (parseItem optSize opt).run s =
      if optSize ≤ s.newOpts.length + cbuf.length then .error .outBad (item.store s)
      else .ok () { item.store s with newOpts := s.newOpts ++ cbuf } := by
  rw [← item.newOpts_store s]
  unfold parseItem
  rw [h]
  change (if _ then _ else _ : EStateM Reject Parsing Unit).run (item.store s) = _
  split <;> rfl

variable {ε σ : Type} {f : Name → EStateM ε σ Unit} {opts : List Name} {t t' : σ}

theorem forM_run_ok (h : (f opt).run t = .ok () t') :
    ((opt :: opts).forM f).run t = (opts.forM f).run t' := by
  change EStateM.bind (f opt) (fun _ ↦ opts.forM f) t = _
  unfold EStateM.bind
  rw [show f opt t = .ok () t' from h]
  rfl

theorem forM_run_error {e : ε} (h : (f opt).run t = .error e t') :
    ((opt :: opts).forM f).run t = .error e t' := by
  change EStateM.bind (f opt) (fun _ ↦ opts.forM f) t = _
  unfold EStateM.bind
  rw [show f opt t = .error e t' from h]

end Run

/-- **Parsing makes the changes of the applied items**, one after the other. -/
theorem stateOf_parse (optSize : Nat) (opts : List Name) (s : Parsing) :
    ∃ newOpts, stateOf ((opts.forM (parseItem optSize)).run s) =
      { (applied optSize s.newOpts.length opts).foldl Item.store s with newOpts } := by
  induction opts generalizing s with
  | nil => exact ⟨s.newOpts, rfl⟩
  | cons opt opts ih =>
      rw [applied]
      cases hdec : decodeItem opt with
      | error e =>
          rw [forM_run_error (parseItem_run_error hdec)]
          exact ⟨s.newOpts, rfl⟩
      | ok dec =>
          obtain ⟨item, cbuf⟩ := dec
          cases cbuf with
          | none =>
              rw [forM_run_ok (parseItem_run_none hdec), ← item.newOpts_store s]
              exact ih (item.store s)
          | some cbuf =>
              have hrun := parseItem_run_some optSize s hdec
              dsimp only
              split at hrun
              · rename_i hlong
                rw [forM_run_error hrun, if_pos hlong]
                exact ⟨s.newOpts, by rw [← item.newOpts_store s]; rfl⟩
              · rename_i hlong
                rw [forM_run_ok hrun, if_neg hlong]
                obtain ⟨newOpts, hrest⟩ := ih { item.store s with newOpts := s.newOpts ++ cbuf }
                refine ⟨newOpts, hrest.trans ?_⟩
                rw [foldl_store_newOpts, List.length_append]
                rfl

/-- Another address of the mount server. -/
def MountData.withMntSaddr (saddr : SockaddrIn) (d : MountData) : MountData :=
  { d with mnt := { d.mnt with saddr } }

/-- **What `hsi_nfs3_parse_options` stores**, whatever it returns. -/
theorem data_hsiNfs3ParseOptions (resolve : Resolver) (optSize : Nat) {oldOpts : Name}
    (hzero : 0 ∉ oldOpts) (d : MountData) :
    ∃ saddr, (hsiNfs3ParseOptions resolve optSize oldOpts d).2.data =
      ((applied optSize 0 (items oldOpts)).foldl Item.store ⟨d, none, []⟩).data.withMntSaddr
        saddr := by
  obtain ⟨newOpts, hstate⟩ := stateOf_parse optSize (items oldOpts) ⟨d, none, []⟩
  unfold hsiNfs3ParseOptions
  rw [forEachItem_eq _ hzero]
  cases hrun : ((items oldOpts).forM (parseItem optSize)).run ⟨d, none, []⟩ with
  | error e s =>
      rw [hrun] at hstate
      have hdata := congrArg Parsing.data hstate
      cases e <;> exact ⟨_, hdata⟩
  | ok _ s =>
      rw [hrun] at hstate
      have hdata := congrArg Parsing.data hstate
      dsimp only
      cases s.mounthost with
      | none => exact ⟨_, hdata⟩
      | some host => exact ⟨_, congrArg (MountData.withMntSaddr _) hdata⟩

/-- What the items of a string say, as far as they are known. -/
def given (opts : List Name) : List Item :=
  opts.filterMap fun opt ↦ (decodeItem opt).toOption.map Decoded.item

theorem given_cons {opt : Name} {dec : Decoded} (h : decodeItem opt = .ok dec) (opts : List Name) :
    given (opt :: opts) = dec.item :: given opts := by
  unfold given
  rw [List.filterMap_cons, h]
  rfl

/-- If all items are known, they are all applied, unless the new options become too long. -/
theorem applied_eq_given_or {optSize : Nat} {opts : List Name}
    (hknown : ∀ opt ∈ opts, ∃ dec, decodeItem opt = .ok dec) (s : Parsing) :
    applied optSize s.newOpts.length opts = given opts ∨
      ∃ s', (opts.forM (parseItem optSize)).run s = .error .outBad s' := by
  induction opts generalizing s with
  | nil => exact .inl rfl
  | cons opt opts ih =>
      obtain ⟨⟨item, cbuf⟩, hdec⟩ := hknown opt List.mem_cons_self
      have ih := ih fun v hv ↦ hknown v (List.mem_cons_of_mem opt hv)
      rw [applied, hdec, given_cons hdec]
      cases cbuf with
      | none =>
          rw [forM_run_ok (parseItem_run_none hdec), ← item.newOpts_store s]
          exact (ih (item.store s)).imp_left (congrArg (item :: ·))
      | some cbuf =>
          have hrun := parseItem_run_some optSize s hdec
          dsimp only
          split at hrun
          · rw [forM_run_error hrun]
            exact .inr ⟨_, rfl⟩
          · rename_i hlong
            rw [forM_run_ok hrun, if_neg hlong, ← List.length_append]
            exact (ih { item.store s with newOpts := s.newOpts ++ cbuf }).imp_left
              (congrArg (item :: ·))

/-- **If all items are known and parsing succeeds, they are all applied.** -/
theorem applied_eq_given {resolve : Resolver} {optSize : Nat} {oldOpts : Name} (hzero : 0 ∉ oldOpts)
    (hknown : ∀ opt ∈ items oldOpts, ∃ dec, decodeItem opt = .ok dec) {d : MountData}
    (hok : (hsiNfs3ParseOptions resolve optSize oldOpts d).1 = 0) :
    applied optSize 0 (items oldOpts) = given (items oldOpts) := by
  rcases applied_eq_given_or hknown ⟨d, none, []⟩ with h | ⟨s', hrun⟩
  · exact h
  · unfold hsiNfs3ParseOptions at hok
    rw [forEachItem_eq _ hzero, hrun] at hok
    exact absurd (show (1 : Int) = 0 from hok) Int.one_ne_zero

end Hsfs.Mount
