import Mathlib.Data.List.Basic
import Mathlib.Tactic.NormNum

/-!
# Error numbers

The error numbers of the host (Linux), the status codes of NFS version 3 and the
table by which the client turns the second into the first.  Both are plain
integers, as in the source: the client hands a status around as an `int`, negates
some of them, and a server may put any integer into a reply.
-/

namespace Hsfs

/-! ## Host errors -/

namespace Errno

def perm : Int := 1
def noent : Int := 2
def io : Int := 5
def nxio : Int := 6
def again : Int := 11
def nomem : Int := 12
def acces : Int := 13
def exist : Int := 17
def xdev : Int := 18
def nodev : Int := 19
def notdir : Int := 20
def isdir : Int := 21
def inval : Int := 22
def fbig : Int := 27
def nospc : Int := 28
def rofs : Int := 30
def mlink : Int := 31
def range : Int := 34
def nametoolong : Int := 36
def notempty : Int := 39
def remote : Int := 66
def notsup : Int := 95
def connreset : Int := 104
def notconn : Int := 107
def timedout : Int := 110
def stale : Int := 116
def dquot : Int := 122

end Errno

/-! ## NFS statuses -/

/-- A reply of an NFS procedure: its result, or a status other than `NFS3_OK`.
What a reply carries beside a failure status is not read by this client. -/
inductive Nfs3res (α : Type) : Type
  /-- The status is `NFS3_OK`. -/
  | ok (resok : α)
  /-- The status is anything else. -/
  | fail (status : { st : Int // st ≠ 0 })
  deriving DecidableEq, Repr

/-- `nfs_errtbl`: the statuses that have a host error of their own.  `EWFLUSH` is
not defined on the host, so `NFS3ERR_WFLUSH` has no row. -/
def nfsErrtbl : List (Int × Int) :=
  [(0, 0), (1, Errno.perm), (2, Errno.noent), (5, Errno.io), (6, Errno.nxio),
   (13, Errno.acces), (17, Errno.exist), (18, Errno.xdev), (19, Errno.nodev),
   (20, Errno.notdir), (21, Errno.isdir), (22, Errno.inval), (27, Errno.fbig),
   (28, Errno.nospc), (30, Errno.rofs), (31, Errno.mlink), (63, Errno.nametoolong),
   (66, Errno.notempty), (69, Errno.dquot), (70, Errno.stale), (71, Errno.remote)]

/-- The host error of an NFS status; a status without a row is an I/O error. -/
def hsiNfs3StatToErrno (stat : Int) : Int := (nfsErrtbl.lookup stat).getD Errno.io

@[simp] theorem hsiNfs3StatToErrno_zero : hsiNfs3StatToErrno 0 = 0 := rfl

/-- The table maps no status but `NFS3_OK` to success. -/
theorem hsiNfs3StatToErrno_ne_zero {stat : Int} (h : stat ≠ 0) : hsiNfs3StatToErrno stat ≠ 0 := by
  unfold hsiNfs3StatToErrno
  cases hl : nfsErrtbl.lookup stat with
  | none => exact fun h ↦ absurd h (by decide)
  | some e =>
      have hmem : (stat, e) ∈ nfsErrtbl := by
        obtain ⟨l₁, l₂, htbl, -⟩ := List.lookup_eq_some_iff.1 hl
        rw [htbl]
        exact List.mem_append_right _ List.mem_cons_self
      have hrow : ∀ row ∈ nfsErrtbl, row.1 ≠ 0 → row.2 ≠ 0 := by decide
      exact hrow _ hmem h

end Hsfs
