import Hsfs.Daemon.Fhget
import Hsfs.Daemon.Rpc

/-!
# Inodes in any state of the cache

The invariant of the cache does not survive a put that frees an inode, since the inode stays in the
tables.  What is said here does: every inode in memory has been set up, and `hsi_nfs_fhget` still
returns the inode of the object that was asked for, unless the process stumbles over a freed inode
on the way.
-/

namespace Hsfs

open Interact Interact.Act Table

/-- What holds of an inode from the moment it can be seen. -/
structure Inode.Settled (i : Inode) : Prop where
  /-- Its attributes have been filled in. -/
  notNew : hasBits i.iState iNew = false
  /-- The number for `stat` is the number of the object. -/
  realIno : i.realIno = i.fileid
  /-- Nothing sets the device number. -/
  iRdev : i.iRdev = 0

namespace Daemon

/-- All inodes in memory have been set up, away from the error pointers. -/
structure Settled (d : Daemon) : Prop where
  inodes : ∀ p i, d.heap p = some i → i.Settled
  place : ∀ p i, d.heap p = some i → Allocatable d.layout p

/-- What a call of `hsi_nfs_fhget` asks the allocator, returns and leaves behind. -/
inductive Fhgot (d : Daemon) (fh : NfsFh) (fattr : NfsFattr) : List Event → Addr → Daemon → Prop
  /-- The attributes are refused. -/
  | unusable {e : Addr} : ¬ fattr.Usable → d.BadPtr e → Fhgot d fh fattr [] e d
  /-- There is no memory for a new inode. -/
  | denied {e : Addr} : fattr.Usable → d.fhLookup ⟨fh, fattr⟩ = none → d.BadPtr e →
      Fhgot d fh fattr
        [⟨.mallocInode fattr.fileid fh d.inUse, (none : Option (FreeAddr d.inUse))⟩] e d
  /-- The inode of the object is found. -/
  | found {p : Addr} {i : Inode} : fattr.Usable → d.fhLookup ⟨fh, fattr⟩ = some p →
      d.heap p = some i → i.fileid = fattr.fileid → i.fh = fh →
      Fhgot d fh fattr [] p (d.setInode p (i.refreshed fattr))
  /-- There is a new inode. -/
  | new {a : FreeAddr d.inUse} {id : UInt64} : fattr.Usable → d.fhLookup ⟨fh, fattr⟩ = none →
      Fhgot d fh fattr [⟨.mallocInode fattr.fileid fh d.inUse, some a⟩] a.1
        (d.insert a.1 (newInode d.sb ⟨fh, fattr⟩ id))

/-- What a call that ends in a fault leaves behind: the chain of the object leads to a freed inode,
or the search for a number does not get to an end. -/
inductive FhgetFault (d : Daemon) (fh : NfsFh) (fattr : NfsFattr) : List Event → Daemon → Prop
  | chain : FhgetFault d fh fattr [] d
  | number {a : FreeAddr d.inUse} {id : UInt64} :
      FhgetFault d fh fattr [⟨.mallocInode fattr.fileid fh d.inUse, some a⟩]
        ((d.setInode a.1 (initInode d.sb ⟨fh, fattr⟩)).setCurrId id)

/-- **`hsi_nfs_fhget` in any state of the cache.** -/
theorem Settled.ends_hsiNfsFhget {d : Daemon} (h : d.Settled) (fh : NfsFh) (fattr : NfsFattr) :
    Ends (d.Fhgot fh fattr) (fun es _ ↦ d.FhgetFault fh fattr es) (hsiNfsFhget fh fattr) d := by
  by_cases hu : fattr.Usable
  · rcases hashFind_cases d d.sb.fhTable fattr.fileid (nfsFindActor ⟨fh, fattr⟩) with
      ⟨hfind, hrun⟩ | ⟨p, i, hfind, hi, hrun⟩ | ⟨p, hfind, hfree, hrun⟩
    · obtain ⟨k, hget, ⟨e, he, hk0⟩, hk⟩ := hsiNfsFhget_new hu hrun
      intro tr
      rw [wp, hget]
      rintro (r : Option (FreeAddr d.inUse)) _ rfl
      cases r with
      | none =>
          rw [hk0]
          exact ⟨_, rfl, .denied hu hfind he⟩
      | some a =>
          obtain ⟨out, id, hloop⟩ :=
            idLoop_cases idRounds (d.setInode a.1 (initInode d.sb ⟨fh, fattr⟩))
          rw [hk a _ out id rfl hloop]
          cases out with
          | ok u => exact ⟨_, rfl, .new hu hfind⟩
          | error e => exact ⟨_, rfl, .number⟩
    · obtain ⟨-, hfileid, hfh⟩ :=
        key_of_fhLookup (show d.fhLookup ⟨fh, fattr⟩ = some p from hfind) hi
      exact .of_ret (hsiNfsFhget_found hu hrun hi (h.inodes p i hi).notNew)
        (.found hu hfind hi hfileid hfh)
    · have hfault : (hsiNfsFhget fh fattr).run d = .ret (.error .segv, d) := by
        have hfind' : (fhIfind fattr.fileid (nfsFindActor ⟨fh, fattr⟩)).run d =
            .ret (.error .segv, d) := hrun
        simp [hsiNfsFhget, hu.1, hu.2, hsfsIget5Locked, hfind', Act.run_bind]
      exact .of_fault hfault .chain
  · obtain ⟨e, he, hrun⟩ := d.hsiNfsFhget_unusable fh hu
    exact .of_ret hrun (.unusable hu he)

end Daemon

end Hsfs
