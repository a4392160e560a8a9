import Hsfs.Daemon.CacheRun
import Hsfs.Daemon.Scope
import Hsfs.Nfs3.Frame

/-!
# The operations and the cache

No operation answers the kernel, and every operation keeps the invariant of the inode cache
and only adds to the cache.
-/

namespace Hsfs

open Interact Interact.Act Daemon

/-- **No operation answers the kernel.** -/
theorem HandleFrame.silent : HandleFrame (Evolves Silent) fun _ ↦ True where
  closed := Silent.composes.closed
  malloc := .ask fun _ _ ↦ ⟨rfl, rfl, rfl, rfl⟩
  callSb := fun req _ ↦ .get_bind fun d ↦ (ClientsOnly.call d.sb.clntp req).mono fun _ _ _ h ↦
    h.toSilent
  freeresSb := .get_bind fun d ↦ (ClientsOnly.freeres d.sb.clntp).mono fun _ _ _ h ↦ h.toSilent
  fhget := fun fh fattr ↦ (CacheOnly.fhget fh fattr).mono fun _ _ _ h ↦ h.toSilent
  refresh := fun p fattr ↦ (CacheOnly.refresh p fattr).mono fun _ _ _ h ↦ h.toSilent
  setCookieVerf := fun p _ ↦ (CacheOnly.update p _).mono fun _ _ _ h ↦ h.toSilent
  super := fun _ hf ↦ .modify fun d ↦ ⟨rfl, rfl, rfl, (hf d.sb).root⟩
  clntp := fun _ hf ↦ .get_bind fun d ↦ hf d.sb.clntp trivial
  aclClntp := fun _ hf ↦ .get_bind fun d ↦ hf d.sb.aclClntp fun _ _ ↦ trivial
  call := fun c _ req _ ↦ (ClientsOnly.call c req).mono fun _ _ _ h ↦ h.toSilent
  list := fun c _ req _ ↦ (ClientsOnly.call c req).mono fun _ _ _ h ↦ h.toSilent
  freeres := fun c _ ↦ (ClientsOnly.freeres c).mono fun _ _ _ h ↦ h.toSilent

theorem Silent.iput (p : Addr) : Evolves Silent (hsfsIput p) :=
  (CacheOnly.iput p).mono fun _ _ _ h ↦ h.toSilent

/-- What is done to the clients does not matter to the cache. -/
theorem ClientsOnly.cacheOk {d d' : Daemon} {es : List Event} (h : ClientsOnly d es d')
    (hd : d.CacheOk) : d'.CacheOk :=
  hd.congr h.layout h.heap h.idTable h.fhTable

/-- If the invariant of the cache holds, it goes on to hold, and the cache grows. -/
def Grows (d : Daemon) (_ : List Event) (d' : Daemon) : Prop :=
  d.CacheOk → d'.CacheOk ∧ d.Extends d'

namespace Grows

theorem composes : Composes Grows where
  nil := fun d h ↦ ⟨h, .refl d⟩
  append := by
    intro d d' d'' _ _ h h' hd
    obtain ⟨hd', hx⟩ := h hd
    obtain ⟨hd'', hx'⟩ := h' hd'
    exact ⟨hd'', hx.trans hx'⟩

theorem of_clientsOnly {d d' : Daemon} {es : List Event} (h : ClientsOnly d es d') :
    Grows d es d' :=
  fun hd ↦ ⟨h.cacheOk hd, .of_eq h.layout h.heap h.idTable⟩

theorem fhget (fh : NfsFh) (fattr : NfsFattr) : Evolves Grows (hsiNfsFhget fh fattr) := by
  intro d tr
  by_cases hd : d.CacheOk
  · refine wp_mono ?_ ?_ (wp_and (CacheOnly.fhget fh fattr d tr) hd.wp_hsiNfsFhget)
    · rintro p d' _ ⟨⟨es, rfl, -⟩, h⟩
      exact ⟨es, rfl, fun _ ↦ ⟨h.cacheOk hd, h.extends_⟩⟩
    · rintro _ _ _ ⟨-, h⟩
      exact h.elim
  · refine wp_mono ?_ ?_ (CacheOnly.fhget fh fattr d tr)
    all_goals
      rintro _ d' _ ⟨es, rfl, -⟩
      exact ⟨es, rfl, fun h ↦ absurd h hd⟩

theorem setInode {d : Daemon} {p : Addr} {i j : Inode} (hi : d.heap p = some i)
    (hj : i.SameId j) (hp : j.priv = i.priv) : Grows d [] (d.setInode p j) :=
  fun h ↦ ⟨h.setInode hi hj, .setInode hi hj hp⟩

end Grows

/-- **Every operation keeps the invariant of the cache and only adds to it.** -/
theorem HandleFrame.grows : HandleFrame (Evolves Grows) fun _ ↦ True where
  closed := Grows.composes.closed
  malloc := .ask fun d _ ↦ Grows.composes.nil d
  callSb := fun req _ ↦ .get_bind fun d ↦
    (ClientsOnly.call d.sb.clntp req).mono fun _ _ _ ↦ Grows.of_clientsOnly
  freeresSb := .get_bind fun d ↦
    (ClientsOnly.freeres d.sb.clntp).mono fun _ _ _ ↦ Grows.of_clientsOnly
  fhget := Grows.fhget
  refresh := fun _ _ ↦ evolves_refresh Grows.composes fun _ i hi _ ↦
    .setInode hi (i.setAttrs_sameId _) rfl
  setCookieVerf := fun _ _ ↦ evolves_update Grows.composes fun _ _ hi ↦
    .setInode hi ⟨rfl, rfl, rfl, rfl, rfl⟩ rfl
  super := fun _ hf ↦ .modify fun d h ↦
    ⟨h.congr rfl rfl (hf d.sb).idTable (hf d.sb).fhTable, .of_eq rfl rfl (hf d.sb).idTable⟩
  clntp := fun _ hf ↦ .get_bind fun d ↦ hf d.sb.clntp trivial
  aclClntp := fun _ hf ↦ .get_bind fun d ↦ hf d.sb.aclClntp fun _ _ ↦ trivial
  call := fun c _ req _ ↦ (ClientsOnly.call c req).mono fun _ _ _ ↦ Grows.of_clientsOnly
  list := fun c _ req _ ↦ (ClientsOnly.call c req).mono fun _ _ _ ↦ Grows.of_clientsOnly
  freeres := fun c _ ↦ (ClientsOnly.freeres c).mono fun _ _ _ ↦ Grows.of_clientsOnly

end Hsfs
