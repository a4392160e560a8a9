import Hsfs.Table.Chains
import Mathlib.Logic.Function.Basic

/-!
# Chains in memory

The chains of a table as they are in memory.  An array holds a pointer to the first node of each
chain.  A node holds a pointer to the next one, and the place of the pointer that leads to itself.

`Hlists.Holds m t` says that the memory `m` holds the table `t`.  A node that is on no chain may be
put before a chain (`Holds.addHead`), and a walk finds what `Chains.find` finds (`Holds.walk_eq`).
If the node is on the chain already, the chain is closed to a ring, and a walk ends only if it finds
something before the end of the ring (`Leads.exists_walk_addHead_iff`).
-/

namespace Hsfs.Table

variable {I N : Type}

/-- A place where there is a pointer to a node. -/
inductive Place (I N : Type) where
  /-- In the array. -/
  | first (i : I)
  /-- In a node. -/
  | next (n : N)

/-- What a node holds.  A null pointer is `none`. -/
structure Node (I N : Type) where
  next : Option N
  pprev : Option (Place I N)

/-- The array and the nodes. -/
structure Hlists (I N : Type) where
  first : I → Option N
  node : N → Node I N

namespace Hlists

variable {m m' : Hlists I N} {n k : N} {i : I} {p : Option N} {ns : List N} {stop : N → Bool}

/-- The node behind a node. -/
def next (m : Hlists I N) (n : N) : Option N := (m.node n).next

/-- Empty chains, whatever the nodes hold. -/
def init (m : Hlists I N) : Hlists I N := { m with first := fun _ ↦ none }

/-! ## Where pointers lead -/

/-- A pointer leads through these nodes, and then nowhere. -/
inductive Leads (m : Hlists I N) : Option N → List N → Prop
  | nil : Leads m none []
  | cons {n : N} {ns : List N} : Leads m (m.next n) ns → Leads m (some n) (n :: ns)

/-- Only the pointers in these nodes matter. -/
theorem Leads.congr (h : m.Leads p ns) (hnext : ∀ n ∈ ns, m'.next n = m.next n) :
    m'.Leads p ns := by
  induction h with
  | nil => exact .nil
  | @cons n ns _ ih =>
      apply Leads.cons
      rw [hnext n List.mem_cons_self]
      exact ih fun k hk ↦ hnext k (List.mem_cons_of_mem n hk)

theorem Leads.head_mem (h : m.Leads (some n) ns) : n ∈ ns := by
  cases h with
  | cons _ => exact List.mem_cons_self

/-- Up to a node on a chain, every node leads to one of these. -/
theorem Leads.exists_next {front back : List N} (h : m.Leads p (front ++ n :: back)) :
    (∃ f, p = some f ∧ f ∈ front ++ [n]) ∧
      ∀ k ∈ front, ∃ k', m.next k = some k' ∧ k' ∈ front ++ [n] := by
  induction front generalizing p with
  | nil =>
      cases h with
      | cons _ => exact ⟨⟨n, rfl, List.mem_singleton_self n⟩, fun k hk ↦ absurd hk List.not_mem_nil⟩
  | cons f front ih =>
      cases h with
      | cons h =>
          obtain ⟨⟨f', hf', hmem⟩, hrest⟩ := ih h
          refine ⟨⟨f, rfl, List.mem_cons_self⟩, fun k hk ↦ ?_⟩
          rcases List.mem_cons.1 hk with rfl | hk
          · exact ⟨f', hf', List.mem_cons_of_mem k hmem⟩
          · obtain ⟨k', hk', hmem'⟩ := hrest k hk
            exact ⟨k', hk', List.mem_cons_of_mem f hmem'⟩

/-! ## Walks -/

/-- Walk on from a pointer, up to the first node that passes the test; `none` if this takes more
rounds. -/
def walk (m : Hlists I N) (stop : N → Bool) : Nat → Option N → Option (Option N)
  | _, none => some none
  | 0, some _ => none
  | rounds + 1, some n => if stop n then some (some n) else m.walk stop rounds (m.next n)

theorem walk_none (rounds : Nat) : m.walk stop rounds none = some none := by
  cases rounds <;> rfl

theorem walk_succ_some (rounds : Nat) : m.walk stop (rounds + 1) (some n) =
    if stop n then some (some n) else m.walk stop rounds (m.next n) := rfl

/-- **A walk finds the first node that passes the test.** -/
theorem Leads.walk_eq (h : m.Leads p ns) {rounds : Nat} (hrounds : ns.length ≤ rounds) :
    m.walk stop rounds p = some (ns.find? stop) := by
  induction h generalizing rounds with
  | nil => exact walk_none rounds
  | @cons n ns _ ih =>
      cases rounds with
      | zero => exact absurd hrounds (Nat.not_succ_le_zero _)
      | succ rounds =>
          rw [walk_succ_some, List.find?_cons]
          cases stop n with
          | true => rfl
          | false => exact ih (Nat.le_of_succ_le_succ hrounds)

/-- A walk does not leave nodes that lead to one another. -/
theorem walk_eq_none_of_closed {inside : N → Prop}
    (hclosed : ∀ n, inside n → ∃ k, m.next n = some k ∧ inside k)
    (hstop : ∀ n, inside n → stop n = false) (rounds : Nat) (hn : inside n) :
    m.walk stop rounds (some n) = none := by
  induction rounds generalizing n with
  | zero => rfl
  | succ rounds ih =>
      obtain ⟨k, hnext, hk⟩ := hclosed n hn
      rw [walk_succ_some, hstop n hn, if_neg Bool.false_ne_true, hnext]
      exact ih hk

/-- A walk along the beginning of a chain ends if it finds something there. -/
theorem Leads.exists_walk {front back : List N} (h : m.Leads p (front ++ back))
    (hnext : ∀ n ∈ front, m'.next n = m.next n) (hstop : ∃ n ∈ front, stop n = true) :
    ∃ rounds, (m'.walk stop rounds p).isSome := by
  induction front generalizing p with
  | nil =>
      obtain ⟨n, hn, -⟩ := hstop
      cases hn
  | cons f front ih =>
      cases h with
      | cons h =>
          by_cases hf : stop f = true
          · refine ⟨1, ?_⟩
            rw [walk_succ_some, if_pos hf]
            rfl
          · obtain ⟨n, hn, hsn⟩ := hstop
            have hn' : n ∈ front :=
              (List.mem_cons.1 hn).resolve_left fun heq ↦ hf (heq ▸ hsn)
            obtain ⟨rounds, hwalk⟩ := ih h (fun k hk ↦ hnext k (List.mem_cons_of_mem f hk))
              ⟨n, hn', hsn⟩
            refine ⟨rounds + 1, ?_⟩
            rw [walk_succ_some, if_neg hf, hnext f List.mem_cons_self]
            exact hwalk

/-! ## Changing nodes -/

section Node

variable [DecidableEq N]

def setNext (n : N) (p : Option N) (m : Hlists I N) : Hlists I N :=
  { m with node := Function.update m.node n { m.node n with next := p } }

def setPprev (n : N) (place : Option (Place I N)) (m : Hlists I N) : Hlists I N :=
  { m with node := Function.update m.node n { m.node n with pprev := place } }

@[simp] theorem first_setNext : (m.setNext n p).first = m.first := rfl

@[simp] theorem first_setPprev (place : Option (Place I N)) :
    (m.setPprev n place).first = m.first := rfl

@[simp] theorem next_setNext : (m.setNext n p).next = Function.update m.next n p := by
  funext k
  by_cases hk : k = n
  · simp [next, setNext, hk]
  · simp [next, setNext, hk]

@[simp] theorem next_setPprev (place : Option (Place I N)) :
    (m.setPprev n place).next = m.next := by
  funext k
  by_cases hk : k = n
  · simp [next, setPprev, hk]
  · simp [next, setPprev, hk]

/-- Fill a node with zeros. -/
def clear (n : N) (m : Hlists I N) : Hlists I N := (m.setNext n none).setPprev n none

@[simp] theorem first_clear : (m.clear n).first = m.first := rfl

@[simp] theorem next_clear : (m.clear n).next = Function.update m.next n none := by
  rw [clear, next_setPprev, next_setNext]

theorem Leads.clear (h : m.Leads p ns) (hn : n ∉ ns) : (m.clear n).Leads p ns := by
  refine h.congr fun k hk ↦ ?_
  have hkn : k ≠ n := fun heq ↦ hn (heq ▸ hk)
  rw [next_clear, Function.update_of_ne hkn]

end Node

/-! ## Adding nodes -/

section Add

variable [DecidableEq I] [DecidableEq N]

/-- Put a node before a chain. -/
def addHead (n : N) (i : I) (m : Hlists I N) : Hlists I N :=
  let first := m.first i
  let m := m.setNext n first
  let m := match first with
    | some f => m.setPprev f (some (.next n))
    | none => m
  let m := { m with first := Function.update m.first i (some n) }
  m.setPprev n (some (.first i))

@[simp] theorem first_addHead : (m.addHead n i).first = Function.update m.first i (some n) := by
  unfold addHead
  cases m.first i <;> rfl

@[simp] theorem next_addHead : (m.addHead n i).next = Function.update m.next n (m.first i) := by
  have hfirst (m : Hlists I N) (f : I → Option N) : ({ m with first := f } : Hlists I N).next =
      m.next := rfl
  unfold addHead
  cases m.first i <;> simp [hfirst]

/-- The other nodes lead where they led. -/
theorem Leads.addHead (h : m.Leads p ns) (hn : n ∉ ns) : (m.addHead n i).Leads p ns := by
  refine h.congr fun k hk ↦ ?_
  have hkn : k ≠ n := fun heq ↦ hn (heq ▸ hk)
  rw [next_addHead, Function.update_of_ne hkn]

theorem Leads.addHead_self (h : m.Leads (m.first i) ns) (hn : n ∉ ns) :
    (m.addHead n i).Leads ((m.addHead n i).first i) (n :: ns) := by
  rw [first_addHead, Function.update_self]
  apply Leads.cons
  rw [next_addHead, Function.update_self]
  exact h.addHead hn

/-- A node that is put before its own chain closes a ring, which a walk does not leave. -/
theorem Leads.walk_addHead_eq_none {front back : List N}
    (h : m.Leads (m.first i) (front ++ n :: back)) (hstop : ∀ k ∈ front ++ [n], stop k = false)
    (rounds : Nat) : (m.addHead n i).walk stop rounds ((m.addHead n i).first i) = none := by
  obtain ⟨⟨f, hf, hfmem⟩, hnext⟩ := h.exists_next
  rw [first_addHead, Function.update_self]
  refine walk_eq_none_of_closed (fun k hk ↦ ?_) hstop rounds
    (List.mem_append_right front (List.mem_singleton_self n))
  by_cases hkn : k = n
  · rw [hkn, next_addHead, Function.update_self, hf]
    exact ⟨f, rfl, hfmem⟩
  · rw [next_addHead, Function.update_of_ne hkn]
    exact hnext k ((List.mem_append.1 hk).resolve_right fun hmem ↦
      hkn (List.mem_singleton.1 hmem))

/-- **When a walk ends**, after a node has been put before a chain: if the node was not on the
chain, or if the walk finds something up to where it was. -/
theorem Leads.exists_walk_addHead_iff (h : m.Leads (m.first i) ns) :
    (∃ rounds, ((m.addHead n i).walk stop rounds ((m.addHead n i).first i)).isSome) ↔
      n ∉ ns ∨ ∃ k ∈ ns.takeWhile (· ≠ n) ++ [n], stop k = true := by
  by_cases hn : n ∈ ns
  · obtain ⟨front, back, rfl, hfront⟩ := List.eq_append_cons_of_mem hn
    have hne : ∀ k ∈ front, k ≠ n := fun k hk heq ↦ hfront (heq ▸ hk)
    have htake : (front ++ n :: back).takeWhile (· ≠ n) = front := by
      rw [List.takeWhile_append_of_pos fun k hk ↦ decide_eq_true (hne k hk)]
      simp
    rw [htake, or_iff_right (not_not.2 hn)]
    constructor
    · rintro ⟨rounds, hwalk⟩
      by_contra hnone
      rw [h.walk_addHead_eq_none fun k hk ↦
        Bool.eq_false_of_not_eq_true fun hk' ↦ hnone ⟨k, hk, hk'⟩] at hwalk
      cases hwalk
    · -- the walk comes by the new place of the node first
      rintro ⟨k, hk, hstop⟩
      rw [first_addHead, Function.update_self]
      by_cases hsn : stop n = true
      · refine ⟨1, ?_⟩
        rw [walk_succ_some, if_pos hsn]
        rfl
      · have hk' : k ∈ front := (List.mem_append.1 hk).resolve_right fun hmem ↦
          hsn (List.mem_singleton.1 hmem ▸ hstop)
        have hsame : ∀ k ∈ front, (m.addHead n i).next k = m.next k := by
          intro k hk
          rw [next_addHead, Function.update_of_ne (hne k hk)]
        obtain ⟨rounds, hwalk⟩ := h.exists_walk hsame ⟨k, hk', hstop⟩
        refine ⟨rounds + 1, ?_⟩
        rw [walk_succ_some, if_neg hsn, next_addHead, Function.update_self]
        exact hwalk
  · refine iff_of_true ⟨(n :: ns).length, ?_⟩ (.inl hn)
    rw [(h.addHead_self hn).walk_eq le_rfl]
    rfl

end Add

/-! ## Tables -/

/-- The memory holds a table. -/
def Holds {c : Nat} (m : Hlists (Fin c) N) (t : Chains c N) : Prop :=
  ∀ i, m.Leads (m.first i) (t i)

namespace Holds

variable {c : Nat} {m : Hlists (Fin c) N} {t : Chains c N} {i : Fin c}

theorem init (m : Hlists (Fin c) N) : m.init.Holds Chains.empty := fun _ ↦ .nil

/-- **A walk of a chain finds what the table finds.** -/
theorem walk_eq (h : m.Holds t) {rounds : Nat} (hrounds : (t i).length ≤ rounds) :
    m.walk stop rounds (m.first i) = some (t.find i stop) :=
  (h i).walk_eq hrounds

variable [DecidableEq N]

theorem clear (h : m.Holds t) (hn : n ∉ t) : (m.clear n).Holds t :=
  fun i ↦ (h i).clear fun hmem ↦ hn ⟨i, hmem⟩

/-- **A node that is on no chain may be put before a chain.** -/
theorem addHead (h : m.Holds t) (hn : n ∉ t) (i : Fin c) :
    (m.addHead n i).Holds (t.add i n) := by
  intro j
  rw [Chains.add]
  by_cases hj : j = i
  · rw [if_pos hj, hj]
    exact (h i).addHead_self fun hmem ↦ hn ⟨i, hmem⟩
  · rw [if_neg hj, first_addHead, Function.update_of_ne hj]
    exact (h j).addHead fun hmem ↦ hn ⟨j, hmem⟩

end Holds

end Hlists

end Hsfs.Table
