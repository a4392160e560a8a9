import Hsfs.Interact.Pool
import Hsfs.Mtab.Truncation
import Hsfs.Nfs3.FileServer
import Hsfs.Table.Links

/-!
# Processes that change mtab

Every `hsfs` process adds an entry to mtab when it mounts and takes it out when it unmounts, and
other programs with the same code do so too.  `lock_mtab` keeps them apart: a process makes a file
of its own, the link target, and goes on when it was the one to give that file the name of the lock
file.

Here the processes act one system call at a time, in any order.  Any system call may fail, a signal
may arrive between any two of them, and a process may be killed at any time.

## What is not in the model

* `fcntl` locks and `alarm`: whether a lock is granted and how long a process waits for it are left
  open, so that a process may come back from the wait at any time, with the lock or without.
* The owner and the mode of the files.
* A mtab that is a symbolic link.
-/

namespace Hsfs.Mtab

open Interact

/-! ## The files -/

/-- A process number. -/
abbrev Pid := Nat

/-- The names that the processes use. -/
inductive EtcName where
  /-- `MOUNTED`. -/
  | mounted
  /-- `MOUNTED_LOCK`. -/
  | mountedLock
  /-- `MOUNTED_TEMP`. -/
  | mountedTemp
  /-- `MOUNTLOCK_LINKTARGET`. -/
  | linktarget (pid : Pid)
deriving DecidableEq

/-- A change that was made to mtab. -/
inductive Change where
  /-- A new file took its place, from `update_mtab`.  `readError` tells where reading failed, and
  the last `lost` bytes of the new file were not written. -/
  | update (dir : CStr) (instead : Option Mntent) (readError : Option Nat) (lost : Nat)
  /-- A line was put behind the others, but for the last `lost` bytes of it. -/
  | append (line : List UInt8) (lost : Nat)

/-- What `update_mtab` writes when it has read the old file so far. -/
def newMtab (dir : CStr) (instead : Option Mntent) (readError : Option Nat) (file : List UInt8) :
    List UInt8 :=
  match readError with
  | none => updateMtab dir instead false file
  | some n => updateMtab dir instead true (file.take n)

/-- Without the last bytes. -/
def withoutTail (lost : Nat) (bytes : List UInt8) : List UInt8 := bytes.take (bytes.length - lost)

/-- mtab after a change. -/
def Change.apply (file : List UInt8) : Change → List UInt8
  | .update dir instead readError lost => withoutTail lost (newMtab dir instead readError file)
  | .append line lost => file ++ withoutTail lost line

/-- What the processes share. -/
structure Etc where
  /-- The directory. -/
  dir : Links EtcName
  /-- The changes that were made to mtab, and by whom.  No process reads this. -/
  history : List (Pid × Change)

/-! ## A process -/

/-- What a process is about to do. -/
inductive Job where
  /-- `update_mtab`. -/
  | update (dir : CStr) (instead : Option Mntent)
  /-- The rest of `hsi_add_mtab`, with the line that `addmntent` prints. -/
  | add (line : List UInt8)

/-- A stdio stream for output. -/
structure Stream where
  /-- The file. -/
  fd : Nat
  /-- Opened with `"a+"`. -/
  append : Bool
  /-- The position in the file, which does not matter with `append`. -/
  pos : Nat
  /-- What is not written yet. -/
  buffer : List UInt8

/-- Write the first bytes of the buffer. -/
def Stream.flush (k : Nat) (out : Stream) (d : Links EtcName) : Stream × Links EtcName :=
  let data := out.buffer.take k
  ({ out with pos := out.pos + data.length, buffer := out.buffer.drop k },
    d.modify out.fd (if out.append then (· ++ data) else writeAt out.pos data))

/-- `nfs_addmntent`: `fseek` to the end, which writes the buffer first, then `fprintf`. -/
def Stream.addmntent (e : Mntent) (out : Stream) (d : Links EtcName) : Stream × Links EtcName :=
  let r := out.flush out.buffer.length d
  ({ r.1 with pos := (r.2.bytes out.fd).length, buffer := nfsAddmntent e }, r.2)

/-- Where a process is between `lock_mtab` and `unlock_mtab`. -/
inductive Section where
  /-- At `setmntent`. -/
  | setmntent
  /-- In `read_mntentchn`, with what was read. -/
  | reading (fd : Nat) (got : List UInt8)
  /-- The chain has been changed; these entries are to be written. -/
  | makeTemp (readError : Option Nat) (es : List Mntent)
  /-- In the loop that writes them. -/
  | writing (readError : Option Nat) (out : Stream) (es : List Mntent)
  /-- At `rename`, when so many bytes were not written. -/
  | commit (readError : Option Nat) (lost : Nat)
  /-- In `addmntent` of `hsi_add_mtab`. -/
  | appending (out : Stream)

/-- What follows `unlock_mtab`. -/
inductive After where
  /-- The function that was called returns. -/
  | back
  /-- `die` goes on to `exit`. -/
  | exit
deriving DecidableEq

/-- Where a process is: the system call or assignment that comes next. -/
inductive Pc where
  /-- Between the jobs. -/
  | idle
  /-- `get_mtab_info`. -/
  | getMtabInfo (job : Job)
  /-- `mtab_is_writable`. -/
  | mtabIsWritable (job : Job)
  /-- The beginning of `lock_mtab`. -/
  | lockMtab (job : Job)
  /-- `open` of the link target. -/
  | openTarget (job : Job)
  /-- `link`. -/
  | link (job : Job)
  /-- `link` has succeeded, and `we_created_lockfile` is to be set. -/
  | created (job : Job)
  /-- `open` of the lock file, with `j == 0`. -/
  | openLock (job : Job) (j : Bool)
  /-- `fcntl` with `F_SETLK`. -/
  | claim (job : Job)
  /-- `unlink` of the link target. -/
  | unlinkTarget (job : Job)
  /-- `fcntl` with `F_SETLKW`. -/
  | wait (job : Job)
  /-- The lock was granted, so the file is free. -/
  | again (job : Job)
  /-- `unlink` of the link target before `die`, with `we_created_lockfile`. -/
  | giveUp (job : Job) (j : Bool)
  /-- With the lock. -/
  | locked (job : Job) (sec : Section)
  /-- `close` in `unlock_mtab`. -/
  | unlockClose (after : After)
  /-- `unlink` in `unlock_mtab`. -/
  | unlockUnlink (after : After)
  /-- `unlock_mtab` is to clear `we_created_lockfile`. -/
  | unlockClear (after : After)
  /-- In `exit`, which writes what is left in the buffers of these streams. -/
  | exiting (streams : List Stream)
  /-- The process has ended. -/
  | gone

/-- A process. -/
structure Proc where
  /-- Where it is. -/
  pc : Pc
  /-- `we_created_lockfile`. -/
  weCreatedLockfile : Bool
  /-- `lockfile_fd`. -/
  lockfileFd : Option Nat
  /-- `tries` of the call of `lock_mtab`. -/
  tries : Nat
  /-- The static `tries`, which counts the times it waited. -/
  waited : Nat
  /-- `signals_have_been_setup`. -/
  signalsHaveBeenSetup : Bool
  /-- It is in the signal handler, where signals are blocked. -/
  masked : Bool
  /-- `var_mtab_does_not_exist`, with `have_mtab_info`. -/
  mtabDoesNotExist : Option Bool
  /-- Streams that were not closed. -/
  streams : List Stream

/-- A process with no past. -/
def Proc.fresh (pc : Pc) : Proc where
  pc := pc
  weCreatedLockfile := false
  lockfileFd := none
  tries := 0
  waited := 0
  signalsHaveBeenSetup := false
  masked := false
  mtabDoesNotExist := none
  streams := []

/-- The streams that are open at a place, beside those that were never closed. -/
def Pc.streams : Pc → List Stream
  | .locked _ (.writing _ out _) => [out]
  | .locked _ (.appending out) => [out]
  | .exiting streams => streams
  | _ => []

/-- How often `lock_mtab` looks again for a lock file that is gone. -/
def lockTries : Nat := 100000

/-- How often a process waits for the lock. -/
def lockWaits : Nat := 100000

namespace Proc

variable (l : Proc)

/-- Go to another place. -/
def goto (pc : Pc) : Proc := { l with pc := pc }

/-- `exit`. -/
def exit : Proc := { l with streams := [] }.goto (.exiting l.streams)

/-- `die`, with `unlock_mtab` as `at_die`. -/
def die : Proc :=
  let l := { l with streams := l.streams ++ l.pc.streams }
  if l.weCreatedLockfile then l.goto (.unlockClose .exit) else l.exit

/-- `unlock_mtab` at the end of a job. -/
def unlockMtab : Proc :=
  if l.weCreatedLockfile then l.goto (.unlockClose .back) else l.goto .idle

/-- `unlock_mtab` has returned. -/
def unlocked (after : After) : Proc :=
  match after with
  | .back => l.goto .idle
  | .exit => l.exit

/-- The test of the loop in `lock_mtab`. -/
def untilCreated (job : Job) : Proc :=
  if l.weCreatedLockfile then l.goto (.locked job .setmntent) else l.goto (.link job)

end Proc

/-! ## What a process does -/

/-- What happens next to a process. -/
inductive Action where
  /-- A new process with its number. -/
  | start
  /-- It begins with a job. -/
  | begin (job : Job)
  /-- It calls `exit`. -/
  | quit
  /-- The next system call succeeds, as far as the files allow. -/
  | go
  /-- The next system call fails for another reason. -/
  | fail
  /-- So many bytes are read or written. -/
  | part (k : Nat)
  /-- A signal arrives. -/
  | signal
  /-- It is killed. -/
  | kill

/-- The entries that are written when `read_mntentchn` has ended. -/
def chainOf (job : Job) (ferror : Bool) (got : List UInt8) : List Mntent :=
  match job with
  | .update dir instead => (changeRing dir instead (readMntentchn ferror got)).toList
  | .add _ => []

/-- The next system call with the lock, if nothing is wrong with it. -/
def Section.go (p : Pid) (job : Job) (l : Proc) (s : Etc) : Section → Option (Proc × Etc)
  | .setmntent =>
      match job with
      | .update _ _ =>
          match s.dir.file .mounted with
          | some fd => some (l.goto (.locked job (.reading fd [])), s)
          | none => some (l.unlockMtab, s)
      | .add line =>
          let (fd, d) := s.dir.create .mounted
          some (l.goto (.locked job (.appending ⟨fd, true, 0, line⟩)),
            ⟨d, s.history ++ [(p, .append line line.length)]⟩)
  | .reading fd got =>
      if (s.dir.bytes fd).length ≤ got.length then
        some (l.goto (.locked job (.makeTemp none (chainOf job false got))), s)
      else none
  | .makeTemp readError es =>
      let (fd, d) := s.dir.create .mountedTemp
      some (l.goto (.locked job (.writing readError ⟨fd, false, 0, []⟩ es)),
        { s with dir := d.modify fd fun _ ↦ [] })
  | .writing readError out (e :: es) =>
      let (out, d) := out.addmntent e s.dir
      some (l.goto (.locked job (.writing readError out es)), { s with dir := d })
  | .writing readError out [] =>
      some (l.goto (.locked job (.commit readError 0)),
        { s with dir := (out.flush out.buffer.length s.dir).2 })
  | .commit readError lost =>
      match job, s.dir.rename .mountedTemp .mounted with
      | .update dir instead, some d =>
          some (l.unlockMtab, ⟨d, s.history ++ [(p, .update dir instead readError lost)]⟩)
      | _, _ => some (l.unlockMtab, s)
  | .appending out => if out.buffer = [] then some (l.unlockMtab, s) else none

/-- The next system call with the lock fails. -/
def Section.fail (job : Job) (l : Proc) : Section → Option Proc
  | .setmntent => some l.unlockMtab
  | .reading _ got =>
      some (l.goto (.locked job (.makeTemp (some got.length) (chainOf job true got))))
  | .makeTemp _ _ => some l.unlockMtab
  | .writing _ _ (_ :: _) => some l.die
  -- nobody asks whether the last `fclose` succeeded
  | .writing readError out [] => some (l.goto (.locked job (.commit readError out.buffer.length)))
  | .commit _ _ => some l.unlockMtab
  -- the stream is not closed
  | .appending out => some { l with streams := l.streams ++ [out] }.unlockMtab

/-- Some bytes are read or written with the lock. -/
def Section.part (k : Nat) (p : Pid) (job : Job) (l : Proc) (s : Etc) :
    Section → Option (Proc × Etc)
  | .reading fd got =>
      let got := got ++ ((s.dir.bytes fd).drop got.length).take k
      some (l.goto (.locked job (.reading fd got)), s)
  | .writing readError out es =>
      let (out, d) := out.flush k s.dir
      some (l.goto (.locked job (.writing readError out es)), { s with dir := d })
  | .appending out =>
      let (out, d) := out.flush k s.dir
      match job with
      | .add line =>
          some (l.goto (.locked job (.appending out)),
            ⟨d, s.history.dropLast ++ [(p, .append line out.buffer.length)]⟩)
      | .update _ _ => none
  | _ => none

/-- The next system call or assignment, if nothing is wrong with it. -/
def Proc.go (p : Pid) (l : Proc) (s : Etc) : Option (Proc × Etc) :=
  match l.pc with
  | .idle => none
  | .getMtabInfo job =>
      let missing := l.mtabDoesNotExist.getD (s.dir.file .mounted).isNone
      let l := { l with mtabDoesNotExist := some missing }
      some (if missing then l.goto .idle else l.goto (.mtabIsWritable job), s)
  | .mtabIsWritable job =>
      some (l.goto (.lockMtab job), { s with dir := (s.dir.create .mounted).2 })
  | .lockMtab job =>
      some ({ l with signalsHaveBeenSetup := true, tries := lockTries }.goto (.openTarget job), s)
  | .openTarget job =>
      some (l.untilCreated job, { s with dir := (s.dir.create (.linktarget p)).2 })
  | .link job =>
      if s.dir.file (.linktarget p) = none then some (l.goto (.giveUp job false), s)
      else
        match s.dir.link (.linktarget p) .mountedLock with
        | some d => some (l.goto (.created job), { s with dir := d })
        | none => some (l.goto (.openLock job false), s)
  | .created job => some ({ l with weCreatedLockfile := true }.goto (.openLock job true), s)
  | .openLock job j =>
      match s.dir.file .mountedLock with
      | some fd =>
          let l := { l with lockfileFd := some fd }
          some (if j then l.goto (.claim job) else l.goto (.wait job), s)
      | none =>
          let l := { l with lockfileFd := none }
          if 0 < l.tries then some ({ l with tries := l.tries - 1 }.untilCreated job, s)
          else some (l.goto (.giveUp job j), s)
  | .claim job => some (l.goto (.unlinkTarget job), s)
  | .unlinkTarget job =>
      some (l.untilCreated job, { s with dir := s.dir.unlink (.linktarget p) })
  | .wait job => some (l.goto (.again job), s)
  | .again job =>
      let l := { l with waited := l.waited + 1, lockfileFd := none }
      some (if lockWaits < l.waited then l.goto (.giveUp job false) else l.untilCreated job, s)
  | .giveUp _ _ => some (l.die, { s with dir := s.dir.unlink (.linktarget p) })
  | .locked job sec => sec.go p job l s
  | .unlockClose after => some ({ l with lockfileFd := none }.goto (.unlockUnlink after), s)
  | .unlockUnlink after =>
      some (l.goto (.unlockClear after), { s with dir := s.dir.unlink .mountedLock })
  | .unlockClear after => some ({ l with weCreatedLockfile := false }.unlocked after, s)
  | .exiting (out :: streams) =>
      some (l.goto (.exiting streams), { s with dir := (out.flush out.buffer.length s.dir).2 })
  | .exiting [] => some (.fresh .gone, s)
  | .gone => none

/-- The next system call fails. -/
def Proc.fail (l : Proc) : Option Proc :=
  match l.pc with
  | .getMtabInfo job =>
      let missing := l.mtabDoesNotExist.getD true
      let l := { l with mtabDoesNotExist := some missing }
      some (if missing then l.goto .idle else l.goto (.mtabIsWritable job))
  | .mtabIsWritable _ => some (l.goto .idle)
  | .openTarget _ => some l.die
  | .link job => some (l.goto (.giveUp job false))
  | .openLock job j => some ({ l with lockfileFd := none }.goto (.giveUp job j))
  -- it goes on without the `fcntl` lock
  | .claim job => some (l.goto (.unlinkTarget job))
  | .unlinkTarget job => some (l.untilCreated job)
  | .wait job => some (l.goto (.giveUp job false))
  | .giveUp _ _ => some l.die
  | .locked job sec => sec.fail job l
  -- nobody asks whether `close` and `unlink` succeeded, so the lock file stays
  | .unlockClose after => some ({ l with lockfileFd := none }.goto (.unlockUnlink after))
  | .unlockUnlink after => some (l.goto (.unlockClear after))
  | .exiting (_ :: streams) => some (l.goto (.exiting streams))
  | _ => none

/-- Some bytes are read or written. -/
def Proc.part (k : Nat) (p : Pid) (l : Proc) (s : Etc) : Option (Proc × Etc) :=
  match l.pc with
  | .locked job sec => sec.part k p job l s
  | .exiting (out :: streams) =>
      let (out, d) := out.flush k s.dir
      some (l.goto (.exiting (out :: streams)), { s with dir := d })
  | _ => none

/-- What a process does. -/
def mtabMachine : Machine Pid Action Proc Etc := fun p a l s ↦
  match a with
  | .start =>
      match l.pc with
      | .gone => some (.fresh .idle, s)
      | _ => none
  | .begin job =>
      match l.pc, job with
      | .idle, .update _ _ => some (l.goto (.getMtabInfo job), s)
      | .idle, .add _ => some (l.goto (.lockMtab job), s)
      | _, _ => none
  | .quit =>
      match l.pc with
      | .idle => some (l.exit, s)
      | _ => none
  | .go => l.go p s
  | .fail => l.fail.map (·, s)
  | .part k => l.part k p s
  | .signal =>
      if l.signalsHaveBeenSetup && !l.masked then some ({ l with masked := true }.die, s) else none
  | .kill => some (.fresh .gone, s)

end Hsfs.Mtab
