import Mathlib.Data.Finset.Option
import Hsfs.Daemon.Rpc

/-!
# Which clients are held

A client is to be destroyed once.  `Clients.Holds` says that this has been done for all clients that
were opened but some, and for no others.  A superblock in good order holds its own clients
(`Daemon.Held`); after a reconnect that fails, the client for NFS has been destroyed and is still
there (`Daemon.Lost`).
-/

namespace Hsfs

namespace Clients

variable {c c' : Clients} {held held' : Finset Client} {x : Client}

@[simp] theorem use_opened : (c.use x).opened = c.opened := by
  unfold use
  split <;> rfl

@[simp] theorem use_closed : (c.use x).closed = c.closed := by
  unfold use
  split <;> rfl

@[simp] theorem close_opened : (c.close x).opened = c.opened := use_opened

@[simp] theorem close_closed : (c.close x).closed = x :: c.closed := rfl

@[simp] theorem openNext_opened : c.openNext.opened = c.opened + 1 := rfl

@[simp] theorem openNext_closed : c.openNext.closed = c.closed := rfl

@[simp] theorem isOpen_use {y : Client} : (c.use x).IsOpen y ↔ c.IsOpen y := by
  unfold IsOpen
  rw [use_opened, use_closed]

@[simp] theorem isOpen_close {y : Client} : (c.close x).IsOpen y ↔ c.IsOpen y ∧ y ≠ x := by
  unfold IsOpen
  rw [close_opened, close_closed, List.mem_cons, not_or, and_assoc, and_comm (a := y ≠ x)]

theorem eq_or_isOpen_of_openNext (h : c.openNext.IsOpen x) : x = c.opened ∨ c.IsOpen x := by
  rcases Nat.lt_succ_iff_lt_or_eq.1 h.1 with hlt | heq
  · exact .inr ⟨hlt, h.2⟩
  · exact .inl heq

/-- The clients in `held` are open; every other client that was opened has been destroyed once, and
nothing else has been destroyed. -/
structure Holds (c : Clients) (held : Finset Client) : Prop where
  lt : ∀ x ∈ held, x < c.opened
  count : ∀ x, c.closed.count x = if x < c.opened ∧ x ∉ held then 1 else 0

/-- If no client is held, then every client has been destroyed once. -/
theorem holds_empty_iff :
    c.Holds ∅ ↔ (∀ x < c.opened, c.closed.count x = 1) ∧ ∀ x ∈ c.closed, x < c.opened := by
  constructor
  · intro h
    refine ⟨fun x hx ↦ ?_, fun x hx ↦ ?_⟩
    · rw [h.count, if_pos ⟨hx, Finset.notMem_empty x⟩]
    · by_contra hlt
      have hcount := h.count x
      rw [if_neg fun h ↦ hlt h.1] at hcount
      exact List.count_eq_zero.1 hcount hx
  · rintro ⟨hone, hlt⟩
    refine ⟨fun x hx ↦ absurd hx (Finset.notMem_empty x), fun x ↦ ?_⟩
    by_cases hx : x < c.opened
    · rw [if_pos ⟨hx, Finset.notMem_empty x⟩, hone x hx]
    · rw [if_neg fun h ↦ hx h.1]
      exact List.count_eq_zero.2 fun hmem ↦ hx (hlt x hmem)

namespace Holds

theorem isOpen_iff (h : c.Holds held) : c.IsOpen x ↔ x ∈ held := by
  unfold IsOpen
  rw [← List.count_eq_zero, h.count]
  constructor
  · rintro ⟨hlt, hcount⟩
    by_contra hx
    rw [if_pos ⟨hlt, hx⟩] at hcount
    exact absurd hcount Nat.one_ne_zero
  · exact fun hx ↦ ⟨h.lt x hx, if_neg fun hnot ↦ hnot.2 hx⟩

/-- There is only one set of clients that are held. -/
theorem unique (h : c.Holds held) (h' : c.Holds held') : held = held' := by
  ext x
  rw [← h.isOpen_iff, h'.isOpen_iff]

theorem congr (h : c.Holds held) (hopened : c'.opened = c.opened) (hclosed : c'.closed = c.closed) :
    c'.Holds held :=
  ⟨by rw [hopened]; exact h.lt, by rw [hopened, hclosed]; exact h.count⟩

theorem use (h : c.Holds held) (x : Client) : (c.use x).Holds held := h.congr use_opened use_closed

/-- A client that has been opened is held. -/
theorem openNext (h : c.Holds held) : c.openNext.Holds (insert c.opened held) where
  lt := by
    intro x hx
    rcases Finset.mem_insert.1 hx with rfl | hx
    · exact Nat.lt_succ_self _
    · exact Nat.lt_succ_of_lt (h.lt x hx)
  count := by
    intro x
    rw [openNext_closed, h.count, openNext_opened]
    refine if_congr ⟨?_, ?_⟩ rfl rfl
    · rintro ⟨hlt, hx⟩
      exact ⟨Nat.lt_succ_of_lt hlt, fun hor ↦ (Finset.mem_insert.1 hor).elim (Nat.ne_of_lt hlt) hx⟩
    · rintro ⟨hlt, hx⟩
      obtain ⟨hne, hx⟩ := not_or.1 (mt Finset.mem_insert.2 hx)
      exact ⟨Nat.lt_of_le_of_ne (Nat.le_of_lt_succ hlt) hne, hx⟩

/-- A client that has been destroyed is no longer held. -/
theorem close (h : c.Holds held) (hx : x ∈ held) : (c.close x).Holds (held.erase x) where
  lt := by
    intro y hy
    rw [close_opened]
    exact h.lt y (Finset.mem_of_mem_erase hy)
  count := by
    intro y
    rw [close_closed, close_opened, List.count_cons, h.count]
    by_cases hy : y = x
    · subst hy
      rw [if_neg fun hnot ↦ hnot.2 hx, if_pos (beq_self_eq_true _),
        if_pos ⟨h.lt _ hx, Finset.notMem_erase _ _⟩]
    · rw [if_neg (show ¬ (x == y) = true from fun heq ↦ hy (beq_iff_eq.1 heq).symm), Nat.add_zero]
      refine if_congr (and_congr_right fun _ ↦ not_congr ?_) rfl rfl
      rw [Finset.mem_erase, and_iff_right hy]

/-- The number of the next client is not in use. -/
theorem opened_notMem (h : c.Holds held) : c.opened ∉ held :=
  fun hmem ↦ Nat.lt_irrefl _ (h.lt _ hmem)

/-- A client that has just been opened is destroyed. -/
theorem erase_opened (h : c.Holds held) (h' : c'.Holds (insert c.opened held)) :
    (c'.close c.opened).Holds held := by
  have hclose := h'.close (Finset.mem_insert_self _ _)
  rwa [Finset.erase_insert h.opened_notMem] at hclose

end Holds

/-- Some client has been destroyed more than once. -/
def Twice (c : Clients) : Prop := ∃ x, 2 ≤ c.closed.count x

theorem Twice.not_holds (h : c.Twice) : ¬ c.Holds held := by
  rintro hholds
  obtain ⟨x, hx⟩ := h
  rw [hholds.count] at hx
  split at hx
  · exact absurd hx (by decide)
  · exact absurd hx (by decide)

/-- What has been destroyed stays so. -/
theorem Twice.mono (h : c.Twice) (xs : List Client) (hclosed : c'.closed = xs ++ c.closed) :
    c'.Twice := by
  obtain ⟨x, hx⟩ := h
  refine ⟨x, ?_⟩
  rw [hclosed, List.count_append]
  exact Nat.le_add_left_of_le hx

/-- Destroying a client that is not held. -/
theorem Holds.twice (h : c.Holds held) (hlt : x < c.opened) (hx : x ∉ held) :
    (c.close x).Twice := by
  refine ⟨x, ?_⟩
  rw [close_closed, List.count_cons_self, h.count, if_pos ⟨hlt, hx⟩]

end Clients

/-! ## The clients of the superblock -/

namespace Daemon

variable {d : Daemon}

/-- The superblock holds its clients, which are different. -/
structure Held (d : Daemon) : Prop where
  holds : d.clients.Holds (Insert.insert d.sb.clntp d.sb.aclClntp.toFinset)
  ne : d.sb.clntp ∉ d.sb.aclClntp.toFinset

/-- The client for NFS has been destroyed, and is still in the superblock. -/
structure Lost (d : Daemon) : Prop where
  holds : d.clients.Holds d.sb.aclClntp.toFinset
  lt : d.sb.clntp < d.clients.opened
  ne : d.sb.clntp ∉ d.sb.aclClntp.toFinset

/-- Only the clients matter. -/
theorem Held.congr {d' : Daemon} (h : d.Held) (hopened : d'.clients.opened = d.clients.opened)
    (hclosed : d'.clients.closed = d.clients.closed) (hclntp : d'.sb.clntp = d.sb.clntp)
    (hacl : d'.sb.aclClntp = d.sb.aclClntp) : d'.Held := by
  refine ⟨?_, ?_⟩
  · rw [hclntp, hacl]
    exact h.holds.congr hopened hclosed
  · rw [hclntp, hacl]
    exact h.ne

/-- A reconnect begins with the client being destroyed. -/
theorem Held.close (h : d.Held) : (d.closeClient d.sb.clntp).Lost where
  holds := by
    have hclose := h.holds.close (Finset.mem_insert_self _ _)
    rwa [Finset.erase_insert h.ne] at hclose
  lt := by
    change _ < (d.clients.close _).opened
    rw [Clients.close_opened]
    exact h.holds.lt _ (Finset.mem_insert_self _ _)
  ne := h.ne

namespace Lost

theorem holds_openClient (h : d.Lost) :
    d.openClient.clients.Holds (Insert.insert d.clients.opened d.sb.aclClntp.toFinset) :=
  h.holds.openNext.use _

/-- A new client that does not answer is destroyed. -/
theorem open_close (h : d.Lost) : (d.openClient.closeClient d.clients.opened).Lost where
  holds := h.holds.erase_opened h.holds_openClient
  lt := by
    change _ < ((d.clients.openNext.use _).close _).opened
    rw [Clients.close_opened, Clients.use_opened]
    exact Nat.lt_succ_of_lt h.lt
  ne := h.ne

/-- A new client that answers takes the place of the one that is lost. -/
theorem replace (h : d.Lost) :
    ({ d.openClient with sb :=
      { d.openClient.sb with clntp := d.clients.opened } } : Daemon).Held :=
  ⟨h.holds_openClient, h.holds.opened_notMem⟩

end Lost

/-- The clients after those of the superblock have been destroyed. -/
def destroyed (d : Daemon) : Clients :=
  (d.sb.aclClntp.elim d.clients d.clients.close).close d.sb.clntp

theorem Held.holds_destroyed (h : d.Held) : d.destroyed.Holds ∅ := by
  have hholds := h.holds
  have hne := h.ne
  unfold destroyed
  cases hacl : d.sb.aclClntp with
  | none =>
      rw [hacl] at hholds hne
      have hclose := hholds.close (Finset.mem_insert_self _ _)
      rwa [Finset.erase_insert hne] at hclose
  | some clnt =>
      rw [hacl, Option.toFinset_some] at hholds hne
      have hclose := hholds.close (Finset.mem_insert_of_mem (Finset.mem_singleton_self clnt))
      rw [Finset.erase_insert_of_ne fun heq ↦ hne (Finset.mem_singleton.2 heq),
        Finset.erase_singleton] at hclose
      have hclose' := hclose.close (Finset.mem_insert_self _ _)
      rwa [Finset.erase_insert (Finset.notMem_empty _)] at hclose'

/-- A client that is lost is destroyed again. -/
theorem Lost.twice_destroyed (h : d.Lost) : d.destroyed.Twice := by
  have hholds := h.holds
  have hlt := h.lt
  unfold destroyed
  cases hacl : d.sb.aclClntp with
  | none =>
      rw [hacl] at hholds
      exact hholds.twice hlt (Finset.notMem_empty _)
  | some clnt =>
      rw [hacl, Option.toFinset_some] at hholds
      have hclose := hholds.close (Finset.mem_singleton_self clnt)
      rw [Finset.erase_singleton] at hclose
      exact hclose.twice (by rwa [Clients.close_opened]) (Finset.notMem_empty _)

end Daemon

/-! ## Making a client -/

section rules

open Interact Interact.Act

variable {d : Daemon}

/-- The events of making a client, and the client. -/
inductive Creates (acl : Bool) (d : Daemon) : List Event → Option Client → Daemon → Prop
  /-- It cannot be opened. -/
  | unopened : Creates acl d [⟨.openclnt acl, false⟩] none d
  /-- It does not answer. -/
  | silent {c : Client} : Creates acl d [⟨.openclnt acl, true⟩, ⟨.ping c, false⟩] none
      (d.openClient.closeClient d.clients.opened)
  | made {c : Client} : Creates acl d [⟨.openclnt acl, true⟩, ⟨.ping c, true⟩]
      (some d.clients.opened) d.openClient

theorem ends_hsiNfs3ClntCreate (acl : Bool) :
    Ends (Creates acl d) (fun _ _ _ ↦ False) (hsiNfs3ClntCreate acl) d := by
  refine fun tr ↦ wp_hsiNfs3ClntCreate ?_ ?_ ?_
  · rintro _ rfl
    exact ⟨_, rfl, .unopened⟩
  · rintro _ _ rfl rfl
    exact ⟨_, List.append_assoc .., .silent⟩
  · rintro _ _ rfl rfl
    exact ⟨_, List.append_assoc .., .made⟩

/-- The superblock holds its clients after the second one has been made, or could not be made. -/
theorem Creates.held {acl : Bool} {d' : Daemon} {es : List Event} {new : Option Client}
    (h : Creates acl d es new d') (hholds : d.clients.Holds {d.sb.clntp}) :
    ({ d' with sb := { d'.sb with aclClntp := new } } : Daemon).Held := by
  cases h with
  | unopened => exact ⟨hholds, Finset.notMem_empty _⟩
  | silent => exact ⟨hholds.erase_opened (hholds.openNext.use _), Finset.notMem_empty _⟩
  | made =>
      refine ⟨?_, fun hmem ↦ hholds.opened_notMem ?_⟩
      · have hopen := hholds.openNext.use d.clients.opened
        rwa [Finset.pair_comm] at hopen
      · rw [Option.toFinset_some, Finset.mem_singleton] at hmem
        exact Finset.mem_singleton.2 hmem.symm

theorem Creates.heap_eq {acl : Bool} {d' : Daemon} {es : List Event} {new : Option Client}
    (h : Creates acl d es new d') : d'.heap = d.heap := by
  cases h <;> rfl

end rules

end Hsfs
