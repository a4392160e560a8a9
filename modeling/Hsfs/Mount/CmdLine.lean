import Hsfs.Mount.Items

/-!
# The command line

`hsi_parse_cmdline` reads the switches and gives the argument of the last `-o` to `hsi_parse_opts`.
An item of it that `opt_map` or the FUSE library knows is dealt with there; the others are put
together again, as the options of the mount.

The string they are put together in has as many bytes as the argument.  `Udata` notes whether the
arithmetic on what is left of them went below zero, and whether something was written behind them.
-/

namespace Hsfs.Mount

/-! ## Strings in buffers -/

/-- A string that a program can hold in memory. -/
structure OptString where
  bytes : Name
  zero_free : 0 ∉ bytes
  fits : bytes.length + 1 < 2 ^ 64

/-- `strlen`. -/
def strlen (s : Name) : UInt64 := UInt64.ofNat s.length

/-- A string in a buffer that is too short for some strings. -/
structure Udata where
  text : Name
  /-- A subtraction from the room that is left went below zero. -/
  wrapped : Bool
  /-- The string was longer than the buffer at some time. -/
  overrun : Bool
  deriving DecidableEq

namespace Udata

/-- The empty string. -/
def empty : Udata := ⟨[], false, false⟩

/-- `strcat`, in a buffer of `size` bytes. -/
def strcat (size : UInt64) (u : Udata) (s : Name) : Udata :=
  { u with
    text := u.text ++ s
    overrun := u.overrun || decide (size.toNat < (u.text ++ s).length + 1) }

/-- Note a subtraction `a - b`. -/
def sub (u : Udata) (a b : UInt64) : Udata := { u with wrapped := u.wrapped || decide (a < b) }

end Udata

/-- The end of `hsi_parse_opt`: an option that nobody claims, behind the others of that kind.  `len`
is the size of the buffer. -/
def addExtraOpt (len : UInt64) (opt : Name) (u : Udata) : Udata :=
  let left := len - strlen u.text
  let u := u.sub len (strlen u.text)
  let (left, u) :=
    if u.text ≠ [] then
      let u := u.sub left 1
      let left := left - 1
      (left, if left > 0 then u.strcat len [comma] else u)
    else
      (left, u)
  let u := u.sub left (strlen opt)
  let left := left - strlen opt
  if left > 0 then u.strcat len opt else u

/-! ## `opt_map` -/

def msRdonly : UInt32 := 1
def msNosuid : UInt32 := 2
def msNodev : UInt32 := 4
def msNoexec : UInt32 := 8
def msSynchronous : UInt32 := 16
def msRemount : UInt32 := 32
def msMandlock : UInt32 := 64
def msDirsync : UInt32 := 128
def msNoatime : UInt32 := 1024
def msNodiratime : UInt32 := 2048
def msBind : UInt32 := 4096
def msRec : UInt32 := 16384
def msSilent : UInt32 := 32768
def msDummy : UInt32 := 0
def msUsers : UInt32 := 0x40000000
def msUser : UInt32 := 0x20000000

/-- `struct opt_map`. -/
structure OptMap where
  nfsOpt : Name
  /-- True if the flag value should be inverted. -/
  inv : Bool
  mask : UInt32
  /-- For fuse args mapping. -/
  fuseOpt : Option Name

/-- A line of the map. -/
def OptMap.of (nfsOpt : String) (inv : Bool) (mask : UInt32) (fuseOpt : Option String) : OptMap :=
  ⟨nameOf nfsOpt, inv, mask, fuseOpt.map nameOf⟩

/-- `opt_map`. -/
def optMap : List OptMap :=
  [.of "defaults" false 0 none,
   .of "ro" false msRdonly "ro",
   .of "rw" true msRdonly "rw",
   .of "exec" true msNoexec "exec",
   .of "noexec" false msNoexec "noexec",
   .of "suid" true msNosuid "suid",
   .of "nosuid" false msNosuid "nosuid",
   .of "dev" true msNodev "dev",
   .of "nodev" false msNodev "nodev",
   .of "sync" false msSynchronous "sync",
   .of "async" true msSynchronous "async",
   .of "dirsync" false msDirsync "dirsync",
   .of "remount" false msRemount none,
   .of "bind" false msBind none,
   .of "rbind" false (msBind ||| msRec) none,
   .of "auto" false msDummy none,
   .of "noauto" false msDummy none,
   .of "users" false msUsers "allow_other",
   .of "nousers" true msUsers "allow_root",
   .of "user" false msUser "allow_other",
   .of "nouser" true msUser "allow_root",
   .of "owner" false msDummy none,
   .of "noowner" false msDummy none,
   .of "group" false msDummy none,
   .of "nogroup" false msDummy none,
   .of "_netdev" false msDummy none,
   .of "comment" false msDummy none,
   .of "quiet" false msSilent none,
   .of "loud" true msSilent none,
   .of "mand" false msMandlock none,
   .of "nomand" true msMandlock none,
   .of "loop" false msDummy none,
   .of "atime" true msNoatime "atime",
   .of "noatime" false msNoatime "noatime",
   .of "diratime" true msNodiratime none,
   .of "nodiratime" false msNodiratime none]

/-- The flags after an option of the map. -/
def OptMap.apply (om : OptMap) (flags : UInt32) : UInt32 :=
  if om.inv then flags &&& ~~~om.mask else flags ||| om.mask

/-! ## Parsing options -/

/-- What `hsi_parse_opt` changes: the flags of the superblock, the options for the FUSE library and
the options for the mount. -/
structure OptState where
  flags : UInt32
  args : List Name
  udata : Udata
  deriving DecidableEq

/-- The loop of `hsi_parse_opt` over the map, if the option is claimed.  The library is asked after
every entry that does not match. -/
def claimOpt (isLibOption : Name → Bool) (opt : Name) : List OptMap → OptState → Option OptState
  | [], _ => none
  | om :: rest, s =>
      if opt = om.nfsOpt then
        match om.fuseOpt with
        | some fuseOpt => some { s with flags := om.apply s.flags, args := s.args ++ [fuseOpt] }
        | none => some s
      else if isLibOption opt then
        some { s with args := s.args ++ [opt] }
      else
        claimOpt isLibOption opt rest s

/-- `hsi_parse_opt`. -/
def hsiParseOpt (isLibOption : Name → Bool) (len : UInt64) (opt : Name) (s : OptState) : OptState :=
  match claimOpt isLibOption opt optMap s with
  | some s => s
  | none => { s with udata := addExtraOpt len opt s.udata }

/-- `hsi_parse_opts`. -/
def hsiParseOpts (isLibOption : Name → Bool) (options : OptString) (flags : UInt32)
    (args : List Name) :
    OptState :=
  let len := strlen options.bytes + 1
  let parse : StateM OptState Unit :=
    forEachItem (fun opt ↦ modify (hsiParseOpt isLibOption len opt)) options.bytes
  (parse.run ⟨flags, args, .empty⟩).2

/-! ## The switches -/

/-- What `getopt_long` finds: a switch, in its short or its long form. -/
inductive Switch where
  | r
  | v
  | V
  | w
  | f
  | n
  | o (optarg : OptString)
  /-- `-h` and everything that is not known. -/
  | h

/-- A command line, behind the remote target and the directory. -/
structure CommandLine where
  switches : List Switch
  /-- There are arguments that belong to no switch. -/
  more : Bool

/-- What the FUSE library knows and returns. -/
structure FuseLib where
  /-- `fuse_lowlevel_is_lib_option`. -/
  isLibOption : Name → Bool
  /-- `fuse_opt_add_arg`. -/
  addArg : Name → Int
  /-- `fuse_opt_add_opt`. -/
  addOpt : Name → Int
  /-- `fuse_daemonize`. -/
  daemonize : Bool → Int

/-- The settings of the process. -/
structure Process where
  flags : UInt32
  verbose : Nat
  fg : Bool
  nomtab : Bool
  tdata : Option OptString

/-- One round of the loop in `hsi_parse_cmdline`, or nothing if the process exits. -/
def Switch.read (p : Process) : Switch → Option Process
  | .r => some { p with flags := p.flags ||| msRdonly }
  | .v => some { p with verbose := p.verbose + 1 }
  | .V => none
  | .w => some { p with flags := p.flags &&& ~~~msRdonly }
  | .f => some { p with fg := true }
  | .n => some { p with nomtab := true }
  | .o optarg => some { p with tdata := some optarg }
  | .h => none

/-- Why a program does not go on to mount. -/
inductive Refusal where
  | exited
  | returned (ret : Int)
  deriving DecidableEq

/-- What `hsi_parse_cmdline` leaves behind. -/
structure Parsed where
  process : Process
  args : List Name
  /-- Null if there was no `-o`. -/
  udata : Option Udata

/-- The call of `hsi_parse_opts` in `hsi_parse_cmdline`, where the options may be null. -/
def Process.parseTdata (isLibOption : Name → Bool) (args : List Name) (p : Process) : Parsed :=
  match p.tdata with
  | none => ⟨p, args, none⟩
  | some tdata =>
      let s := hsiParseOpts isLibOption tdata p.flags args
      ⟨{ p with flags := s.flags }, s.args, some s.udata⟩

/-- `hsi_parse_cmdline`. -/
def hsiParseCmdline (lib : FuseLib) (progname : Name) (cmd : CommandLine) (flags : UInt32) :
    Except Refusal Parsed := do
  match cmd.switches.foldlM Switch.read ⟨flags, 0, false, false, none⟩ with
  | none => throw .exited
  | some p => do
      if cmd.more then throw .exited
      let subtypeOpt := nameOf "-osubtype=" ++ progname
      let ret := lib.addArg subtypeOpt
      if ret ≠ 0 then throw (.returned ret)
      let opt := if p.flags &&& msRdonly ≠ 0 then nameOf "ro" else nameOf "rw"
      let ret := lib.addOpt opt
      if ret ≠ 0 then throw (.returned ret)
      let parsed := p.parseTdata lib.isLibOption [subtypeOpt, opt]
      let ret := lib.daemonize p.fg
      if ret ≠ 0 then throw (.returned ret)
      pure parsed

end Hsfs.Mount
