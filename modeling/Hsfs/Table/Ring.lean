import Mathlib.Data.List.Induction
import Mathlib.Data.List.Nodup
import Mathlib.Data.List.Perm.Subperm
import Mathlib.Logic.Function.Basic

/-!
# Rings of cells

Cells that are linked in both directions, around a head that holds no value.  A link can be null.

What the links of a ring mean is said by `Linked`: the forward links lead from the head through a
list of cells, and the backward links through the same cells in the opposite order.  The walks of a
program over the ring then visit these cells (`Linked.walk_nxt`, `Linked.walk_prev`).  Making a ring
from a list of values links one cell for each of them (`linked_ofList`), and unlinking a cell takes
it out of the list (`Linked.unlink`).  What going round a ring comes to, however it is linked, is
`Holds`.
-/

namespace Hsfs

/-- Where a link that is not null leads. -/
inductive RingPtr where
  | head
  | cell (i : Nat)
  deriving DecidableEq

/-- The links of the head or of a cell. -/
structure RingLinks where
  nxt : Option RingPtr
  prev : Option RingPtr

/-- A head and cells with their links. -/
structure LinkRing (α : Type) where
  links : RingPtr → RingLinks
  val : Nat → α
  /-- How many cells have been made. -/
  size : Nat

namespace LinkRing

variable {α : Type}

/-- A head whose links are null. -/
def empty [Inhabited α] : LinkRing α := ⟨fun _ ↦ ⟨none, none⟩, fun _ ↦ default, 0⟩

def nxt (r : LinkRing α) (p : RingPtr) : Option RingPtr := (r.links p).nxt

def prev (r : LinkRing α) (p : RingPtr) : Option RingPtr := (r.links p).prev

def setNxt (p : RingPtr) (q : Option RingPtr) (r : LinkRing α) : LinkRing α :=
  { r with links := Function.update r.links p { r.links p with nxt := q } }

def setPrev (p : RingPtr) (q : Option RingPtr) (r : LinkRing α) : LinkRing α :=
  { r with links := Function.update r.links p { r.links p with prev := q } }

section Links

variable (r : LinkRing α) (p p' : RingPtr) (q : Option RingPtr)

theorem nxt_setNxt : (r.setNxt p q).nxt p' = if p' = p then q else r.nxt p' := by
  unfold nxt setNxt
  dsimp only
  rw [Function.update_apply]
  split <;> rfl

theorem prev_setPrev : (r.setPrev p q).prev p' = if p' = p then q else r.prev p' := by
  unfold prev setPrev
  dsimp only
  rw [Function.update_apply]
  split <;> rfl

@[simp] theorem prev_setNxt : (r.setNxt p q).prev p' = r.prev p' := by
  unfold prev setNxt
  dsimp only
  rw [Function.update_apply]
  split
  · rename_i h
    rw [h]
  · rfl

@[simp] theorem nxt_setPrev : (r.setPrev p q).nxt p' = r.nxt p' := by
  unfold nxt setPrev
  dsimp only
  rw [Function.update_apply]
  split
  · rename_i h
    rw [h]
  · rfl

end Links

/-! ## Paths -/

section Path

variable {next next' : RingPtr → Option RingPtr} {a b c : Option RingPtr} {is js : List Nat}
    {i : Nat}

/-- The links lead from `a` through the cells to `b`. -/
def Path (next : RingPtr → Option RingPtr) : Option RingPtr → List Nat → Option RingPtr → Prop
  | a, [], b => a = b
  | a, i :: is, b => a = some (.cell i) ∧ Path next (next (.cell i)) is b

theorem path_append : Path next a (is ++ js) b ↔ ∃ c, Path next a is c ∧ Path next c js b := by
  induction is generalizing a with
  | nil => exact ⟨fun h ↦ ⟨a, rfl, h⟩, fun ⟨c, hc, h⟩ ↦ (show a = c from hc) ▸ h⟩
  | cons i is ih =>
      rw [List.cons_append, Path, ih]
      constructor
      · rintro ⟨ha, c, hc, h⟩
        exact ⟨c, ⟨ha, hc⟩, h⟩
      · rintro ⟨c, ⟨ha, hc⟩, h⟩
        exact ⟨ha, c, hc, h⟩

theorem path_concat : Path next a (is ++ [i]) b ↔ Path next a is (some (.cell i)) ∧
    next (.cell i) = b := by
  rw [path_append]
  constructor
  · rintro ⟨c, h, rfl, hb⟩
    exact ⟨h, hb⟩
  · rintro ⟨h, hb⟩
    exact ⟨_, h, rfl, hb⟩

/-- A path depends on the links of its cells only. -/
theorem Path.congr (h : Path next a is b) (hsame : ∀ i ∈ is, next' (.cell i) = next (.cell i)) :
    Path next' a is b := by
  induction is generalizing a with
  | nil => exact h
  | cons i is ih =>
      refine ⟨h.1, ?_⟩
      rw [hsame i List.mem_cons_self]
      exact ih h.2 fun j hj ↦ hsame j (List.mem_cons_of_mem i hj)

/-- The last of some cells, or the head. -/
def lastPtr (is : List Nat) : RingPtr :=
  match is.getLast? with
  | none => .head
  | some i => .cell i

theorem lastPtr_concat (is : List Nat) (i : Nat) : lastPtr (is ++ [i]) = .cell i := by
  unfold lastPtr
  rw [List.getLast?_concat]

theorem cell_ne_lastPtr (h : i ∉ is) : RingPtr.cell i ≠ lastPtr is := by
  unfold lastPtr
  cases hlast : is.getLast? with
  | none => exact fun h' ↦ nomatch h'
  | some j =>
      intro h'
      obtain rfl := RingPtr.cell.inj h'
      exact h (List.mem_of_getLast? hlast)

/-- A path to the head begins at its first cell. -/
theorem Path.start_eq (h : Path next a is (some .head)) : a = some (lastPtr is.reverse) := by
  cases is with
  | nil => exact h
  | cons i is =>
      rw [List.reverse_cons, lastPtr_concat]
      exact h.1

/-- A path from the head, if the link at its end is set to something else. -/
theorem Path.redirect (h : Path next (next .head) is b) (hnodup : is.Nodup)
    (hlast : next' (lastPtr is) = c) (hhead : .head ≠ lastPtr is → next' .head = next .head)
    (hcells : ∀ i ∈ is, .cell i ≠ lastPtr is → next' (.cell i) = next (.cell i)) :
    Path next' (next' .head) is c := by
  induction is using List.reverseRecOn with
  | nil => exact hlast
  | append_singleton is i _ =>
      rw [lastPtr_concat] at hlast hhead hcells
      rw [path_concat] at h ⊢
      rw [List.nodup_append] at hnodup
      refine ⟨?_, hlast⟩
      rw [hhead fun h' ↦ nomatch h']
      refine h.1.congr fun j hj ↦ hcells j (List.mem_append_left [i] hj) fun h' ↦ ?_
      exact hnodup.2.2 j hj i List.mem_cons_self (RingPtr.cell.inj h')

/-- The cells on the way from `a`, up to the head or to a null link.  The first argument is the
number of rounds. -/
def walk (next : RingPtr → Option RingPtr) : Nat → Option RingPtr → List Nat
  | rounds + 1, some (.cell i) => i :: walk next rounds (next (.cell i))
  | _, _ => []

theorem Path.walk_eq (h : Path next a is b) (hb : ∀ i, b ≠ some (.cell i)) {rounds : Nat}
    (hrounds : is.length ≤ rounds) : walk next rounds a = is := by
  induction is generalizing a rounds with
  | nil =>
      obtain rfl : a = b := h
      unfold walk
      split
      · exact absurd rfl (hb _)
      · rfl
  | cons i is ih =>
      obtain ⟨rounds, rfl⟩ : ∃ r, rounds = r + 1 := Nat.exists_eq_succ_of_ne_zero
        (Nat.ne_of_gt (Nat.lt_of_lt_of_le (Nat.succ_pos _) hrounds))
      obtain ⟨rfl, h⟩ := h
      rw [walk, ih h (Nat.le_of_succ_le_succ hrounds)]

end Path

/-! ## What the links mean -/

/-- The cells of a ring, in order. -/
structure Linked (r : LinkRing α) (is : List Nat) : Prop where
  nodup : is.Nodup
  lt_size : ∀ i ∈ is, i < r.size
  /-- The forward links; that of an empty ring can be null. -/
  fwd : Path r.nxt (r.nxt .head) is (some .head) ∨ is = [] ∧ r.nxt .head = none
  bwd : Path r.prev (r.prev .head) is.reverse (some .head)

/-- The values of a ring, from the first to the last. -/
def toList (r : LinkRing α) : List α := (walk r.nxt r.size (r.nxt .head)).map r.val

/-- The last cell with a value that satisfies `p`. -/
def findLast (p : α → Bool) (r : LinkRing α) : Option Nat :=
  (walk r.prev r.size (r.prev .head)).find? fun i ↦ p (r.val i)

section Linked

variable {r : LinkRing α} {is : List Nat}

theorem Linked.length_le (h : r.Linked is) : is.length ≤ r.size := by
  have hsub : is ⊆ List.range r.size := fun i hi ↦ List.mem_range.2 (h.lt_size i hi)
  have hle := (List.subperm_of_subset h.nodup hsub).length_le
  rwa [List.length_range] at hle

theorem Linked.toList_eq (h : r.Linked is) : r.toList = is.map r.val := by
  unfold toList
  congr 1
  rcases h.fwd with hfwd | ⟨rfl, hnull⟩
  · exact hfwd.walk_eq (fun _ h ↦ nomatch h) h.length_le
  · rw [hnull]
    unfold walk
    split
    · rename_i h'
      exact nomatch h'
    · rfl

theorem Linked.findLast_eq (h : r.Linked is) (p : α → Bool) :
    r.findLast p = is.reverse.find? fun i ↦ p (r.val i) := by
  unfold findLast
  rw [h.bwd.walk_eq (fun _ h ↦ nomatch h) (by rw [List.length_reverse]; exact h.length_le)]

/-- Nothing is found if the backward link of the head is null. -/
theorem findLast_of_prev_none (h : r.prev .head = none) (p : α → Bool) : r.findLast p = none := by
  unfold findLast
  rw [h]
  cases r.size <;> rfl

theorem Linked.path (h : r.Linked is) :
    Path r.nxt (r.nxt .head) is (some .head) ∨ Path r.nxt (r.nxt .head) is none := by
  rcases h.fwd with hfwd | ⟨rfl, hnull⟩
  · exact .inl hfwd
  · exact .inr hnull

theorem Linked.of_findLast_none (h : r.Linked is) {p : α → Bool} (hfind : r.findLast p = none) :
    ∀ i ∈ is, p (r.val i) = false := by
  rw [h.findLast_eq] at hfind
  exact fun i hi ↦ Bool.eq_false_iff.2 (List.find?_eq_none.1 hfind i (List.mem_reverse.2 hi))

theorem Linked.of_findLast_some (h : r.Linked is) {p : α → Bool} {i : Nat}
    (hfind : r.findLast p = some i) :
    ∃ as bs, is = as ++ i :: bs ∧ p (r.val i) = true ∧ ∀ j ∈ bs, p (r.val j) = false := by
  rw [h.findLast_eq] at hfind
  obtain ⟨hi, as, bs, hsplit, has⟩ := List.find?_eq_some_iff_append.1 hfind
  refine ⟨bs.reverse, as.reverse, ?_, hi, ?_⟩
  · rw [← List.reverse_reverse is, hsplit, List.reverse_append, List.reverse_cons,
      List.append_assoc, List.singleton_append]
  · intro j hj
    have hj := has j (List.mem_reverse.1 hj)
    rwa [Bool.not_eq_true'] at hj

end Linked

/-! ## Making a ring -/

/-- A new cell behind `mc`, the last one so far. -/
def push (mc : RingPtr) (v : α) (r : LinkRing α) : LinkRing α :=
  let new := RingPtr.cell r.size
  let r := (r.setNxt mc (some new)).setPrev new (some mc)
  let r := { r with val := Function.update r.val r.size v }
  let r := r.setNxt new (some .head)
  { r with size := r.size + 1 }

/-- New cells behind `mc`.  At the end, the head is linked to the last one. -/
def pushAll : List α → RingPtr → LinkRing α → LinkRing α
  | [], mc, r => r.setPrev .head (some mc)
  | v :: vs, mc, r => pushAll vs (.cell r.size) (r.push mc v)

/-- What holds while cells are added behind `mc`. -/
structure Growing (r : LinkRing α) (is : List Nat) (mc : RingPtr) : Prop where
  nodup : is.Nodup
  lt_size : ∀ i ∈ is, i < r.size
  last : mc = lastPtr is
  fwd : Path r.nxt (r.nxt .head) is (some .head) ∨ is = [] ∧ r.nxt .head = none
  bwd : Path r.prev (some mc) is.reverse (some .head)

section Push

variable {r : LinkRing α} {is : List Nat} {mc : RingPtr}

theorem nxt_push (r : LinkRing α) (mc p : RingPtr) (v : α) : (r.push mc v).nxt p =
    if p = .cell r.size then some .head else if p = mc then some (.cell r.size) else r.nxt p := by
  change ((((r.setNxt mc _).setPrev _ _).setNxt (.cell r.size) (some .head)).nxt p) = _
  rw [nxt_setNxt, nxt_setPrev, nxt_setNxt]

theorem prev_push (r : LinkRing α) (mc p : RingPtr) (v : α) : (r.push mc v).prev p =
    if p = .cell r.size then some mc else r.prev p := by
  change ((((r.setNxt mc _).setPrev _ _).setNxt (.cell r.size) (some .head)).prev p) = _
  rw [prev_setNxt, prev_setPrev, prev_setNxt]

theorem Growing.push (h : r.Growing is mc) (v : α) :
    (r.push mc v).Growing (is ++ [r.size]) (.cell r.size) := by
  have hfresh : r.size ∉ is := fun hmem ↦ Nat.lt_irrefl _ (h.lt_size _ hmem)
  have hne : ∀ i ∈ is, RingPtr.cell i ≠ .cell r.size := by
    rintro i hi h'
    exact hfresh (RingPtr.cell.inj h' ▸ hi)
  have hmc : mc ≠ .cell r.size := by
    rw [h.last]
    exact (cell_ne_lastPtr hfresh).symm
  refine ⟨?_, ?_, (lastPtr_concat is r.size).symm, .inl ?_, ?_⟩
  · rw [List.nodup_append]
    exact ⟨h.nodup, List.nodup_singleton _, fun i hi j hj hij ↦ hfresh (by
      rw [← List.mem_singleton.1 hj, ← hij]
      exact hi)⟩
  · intro i hi
    change i < r.size + 1
    rcases List.mem_append.1 hi with hi | hi
    · exact Nat.lt_succ_of_lt (h.lt_size i hi)
    · rw [List.mem_singleton.1 hi]
      exact Nat.lt_succ_self _
  · have hend : (r.push mc v).nxt (.cell r.size) = some .head := by rw [nxt_push, if_pos rfl]
    have hold : ∃ b, Path r.nxt (r.nxt .head) is b := by
      rcases h.fwd with hfwd | ⟨rfl, hnull⟩
      · exact ⟨_, hfwd⟩
      · exact ⟨none, hnull⟩
    obtain ⟨b, hold⟩ := hold
    refine path_concat.2 ⟨hold.redirect h.nodup ?_ ?_ ?_, hend⟩
    · rw [← h.last, nxt_push, if_neg hmc, if_pos rfl]
    · intro hhead
      rw [nxt_push, if_neg (fun h' ↦ nomatch h'), if_neg (by rwa [h.last])]
    · intro i hi hlast
      rw [nxt_push, if_neg (hne i hi), if_neg (by rwa [h.last])]
  · rw [List.reverse_append]
    refine ⟨rfl, ?_⟩
    rw [prev_push, if_pos rfl]
    refine h.bwd.congr fun i hi ↦ ?_
    rw [prev_push, if_neg (hne i (List.mem_reverse.1 hi))]

/-- The values of the cells that are there already stay as they are. -/
theorem map_val_push {r : LinkRing α} {is : List Nat} (h : ∀ i ∈ is, i < r.size) (mc : RingPtr)
    (v : α) :
    (is ++ [r.size]).map (r.push mc v).val = is.map r.val ++ [v] := by
  have hval : ∀ i, (r.push mc v).val i = if i = r.size then v else r.val i := fun i ↦
    Function.update_apply r.val r.size v i
  rw [List.map_append, List.map_singleton, hval, if_pos rfl]
  congr 1
  refine List.map_congr_left fun i hi ↦ ?_
  rw [hval, if_neg (Nat.ne_of_lt (h i hi))]

theorem Growing.pushAll (h : r.Growing is mc) (vs : List α) :
    ∃ js, (pushAll vs mc r).Linked js ∧ js.map (LinkRing.pushAll vs mc r).val =
      is.map r.val ++ vs := by
  induction vs generalizing r is mc with
  | nil =>
      refine ⟨is, ⟨h.nodup, h.lt_size, ?_, ?_⟩, (List.append_nil _).symm⟩
      · have hsame : ∀ p, (r.setPrev .head (some mc)).nxt p = r.nxt p := fun p ↦ nxt_setPrev ..
        unfold LinkRing.pushAll
        rw [hsame]
        exact h.fwd.imp_left fun hfwd ↦ hfwd.congr fun i _ ↦ hsame (.cell i)
      · unfold LinkRing.pushAll
        rw [prev_setPrev, if_pos rfl]
        refine h.bwd.congr fun i _ ↦ ?_
        rw [prev_setPrev, if_neg fun h' ↦ nomatch h']
  | cons v vs ih =>
      obtain ⟨js, hjs, hvals⟩ := ih (h.push v)
      rw [map_val_push h.lt_size, List.append_assoc] at hvals
      exact ⟨js, hjs, hvals⟩

end Push

/-- A ring with the given values. -/
def ofList [Inhabited α] (vs : List α) : LinkRing α := pushAll vs .head empty

theorem growing_empty [Inhabited α] : (empty : LinkRing α).Growing [] .head where
  nodup := List.nodup_nil
  lt_size _ hi := absurd hi List.not_mem_nil
  last := rfl
  fwd := .inr ⟨rfl, rfl⟩
  bwd := rfl

/-- **A ring that is made from a list holds its values.** -/
theorem linked_ofList [Inhabited α] (vs : List α) :
    ∃ is, (ofList vs).Linked is ∧ is.map (ofList vs).val = vs :=
  growing_empty.pushAll vs

/-! ## Taking a cell out -/

/-- Unlink a cell.  A null link of it would be followed. -/
def unlink (i : Nat) (r : LinkRing α) : LinkRing α :=
  match r.prev (.cell i), r.nxt (.cell i) with
  | some p, some q => (r.setNxt p (some q)).setPrev q (some p)
  | _, _ => r

/-- **Unlinking takes a cell out of the list.** -/
theorem Linked.unlink {r : LinkRing α} {is js : List Nat} {i : Nat} (h : r.Linked (is ++ i :: js)) :
    (r.unlink i).Linked (is ++ js) ∧ (r.unlink i).val = r.val := by
  have hfwd : Path r.nxt (r.nxt .head) (is ++ i :: js) (some .head) :=
    h.fwd.resolve_right fun hnil ↦ List.append_ne_nil_of_right_ne_nil is
      (List.cons_ne_nil i js) hnil.1
  have hbwd := h.bwd
  rw [List.reverse_append, List.reverse_cons, List.append_assoc, List.singleton_append] at hbwd
  obtain ⟨_, hfwd₁, rfl, hfwd₂⟩ := path_append.1 hfwd
  obtain ⟨_, hbwd₁, rfl, hbwd₂⟩ := path_append.1 hbwd
  -- the neighbours of the cell
  have hnxt : r.nxt (.cell i) = some (lastPtr js.reverse) := hfwd₂.start_eq
  have hprev : r.prev (.cell i) = some (lastPtr is) := by
    rw [hbwd₂.start_eq, List.reverse_reverse]
  obtain ⟨his, hrest, hdisj⟩ := List.nodup_append.1 h.nodup
  obtain ⟨-, hjs⟩ := List.nodup_cons.1 hrest
  have hapart : ∀ j ∈ js, j ∉ is := fun j hj hi ↦ hdisj j hi j (List.mem_cons_of_mem i hj) rfl
  have hring : r.unlink i =
      (r.setNxt (lastPtr is) (r.nxt (.cell i))).setPrev (lastPtr js.reverse)
        (r.prev (.cell i)) := by
    unfold LinkRing.unlink
    rw [hnxt, hprev]
  rw [hring]
  have hnxt' : ∀ p, ((r.setNxt (lastPtr is) (r.nxt (.cell i))).setPrev (lastPtr js.reverse)
      (r.prev (.cell i))).nxt p = if p = lastPtr is then r.nxt (.cell i) else r.nxt p := by
    intro p
    rw [nxt_setPrev, nxt_setNxt]
  have hprev' : ∀ p, ((r.setNxt (lastPtr is) (r.nxt (.cell i))).setPrev (lastPtr js.reverse)
      (r.prev (.cell i))).prev p = if p = lastPtr js.reverse then r.prev
        (.cell i) else r.prev p := by
    intro p
    rw [prev_setPrev, prev_setNxt]
  refine ⟨⟨?_, ?_, .inl ?_, ?_⟩, rfl⟩
  · exact List.nodup_append.2 ⟨his, hjs, fun a ha b hb hab ↦ hapart b hb (hab ▸ ha)⟩
  · intro j hj
    refine h.lt_size j ?_
    rcases List.mem_append.1 hj with hj | hj
    · exact List.mem_append_left _ hj
    · exact List.mem_append_right is (List.mem_cons_of_mem i hj)
  · refine path_append.2 ⟨r.nxt (.cell i), hfwd₁.redirect his ?_ ?_ ?_, ?_⟩
    · rw [hnxt', if_pos rfl]
    · intro hhead
      rw [hnxt', if_neg hhead]
    · intro j _ hlast
      rw [hnxt', if_neg hlast]
    · refine hfwd₂.congr fun j hj ↦ ?_
      rw [hnxt', if_neg (cell_ne_lastPtr (hapart j hj))]
  · rw [List.reverse_append]
    refine path_append.2 ⟨r.prev (.cell i), hbwd₁.redirect (List.nodup_reverse.2 hjs) ?_ ?_ ?_, ?_⟩
    · rw [hprev', if_pos rfl]
    · intro hhead
      rw [hprev', if_neg hhead]
    · intro j _ hlast
      rw [hprev', if_neg hlast]
    · refine hbwd₂.congr fun j hj ↦ ?_
      have hout : j ∉ js.reverse :=
        fun hj' ↦ hapart j (List.mem_reverse.1 hj') (List.mem_reverse.1 hj)
      rw [hprev', if_neg (cell_ne_lastPtr hout)]

/-- A list without the last value that satisfies `p`. -/
def eraseLast (p : α → Bool) (vs : List α) : List α := (vs.reverse.eraseP p).reverse

theorem eraseLast_append {p : α → Bool} {v : α} (hv : p v = true) {ws : List α}
    (hws : ∀ w ∈ ws, p w = false) (vs : List α) : eraseLast p (vs ++ v :: ws) = vs ++ ws := by
  have hnone : ∀ w ∈ ws.reverse, ¬ p w = true := by
    intro w hw
    rw [hws w (List.mem_reverse.1 hw)]
    exact Bool.false_ne_true
  unfold eraseLast
  rw [List.reverse_append, List.reverse_cons, List.append_assoc, List.singleton_append,
    List.eraseP_append_right _ hnone, List.eraseP_cons_of_pos hv, List.reverse_append,
    List.reverse_reverse, List.reverse_reverse]

theorem eraseLast_of_forall {p : α → Bool} {vs : List α} (h : ∀ v ∈ vs, p v = false) :
    eraseLast p vs = vs := by
  have hnone : ∀ v ∈ vs.reverse, ¬ p v = true := by
    intro v hv
    rw [h v (List.mem_reverse.1 hv)]
    exact Bool.false_ne_true
  unfold eraseLast
  rw [List.eraseP_of_forall_not hnone, List.reverse_reverse]

/-- What is left of a part is a part of what is left. -/
theorem eraseLast_sublist {p : α → Bool} {vs ws : List α} (h : vs.Sublist ws) :
    (eraseLast p vs).Sublist (eraseLast p ws) :=
  (h.reverse.eraseP (p := p)).reverse

theorem length_eraseLast (p : α → Bool) (vs : List α) :
    (eraseLast p vs).length = if vs.any p then vs.length - 1 else vs.length := by
  unfold eraseLast
  rw [List.length_reverse, List.length_eraseP, List.any_reverse, List.length_reverse]

/-- **Unlinking the last cell with a value that satisfies `p`**, if there is one. -/
theorem toList_unlink_findLast [Inhabited α] (p : α → Bool) (vs : List α) :
    (match (ofList vs).findLast p with
      | some i => (ofList vs).unlink i
      | none => ofList vs).toList = eraseLast p vs := by
  obtain ⟨is, hlinked, hvals⟩ := linked_ofList vs
  generalize ofList vs = r at hlinked hvals ⊢
  subst hvals
  cases hfind : r.findLast p with
  | none =>
      dsimp only
      rw [hlinked.toList_eq]
      exact (eraseLast_of_forall (List.forall_mem_map.2 (hlinked.of_findLast_none hfind))).symm
  | some i =>
      dsimp only
      obtain ⟨as, bs, rfl, hi, hbs⟩ := hlinked.of_findLast_some hfind
      obtain ⟨hunlinked, hval⟩ := hlinked.unlink
      rw [hunlinked.toList_eq, hval, List.map_append, List.map_append, List.map_cons]
      exact (eraseLast_append hi (List.forall_mem_map.2 hbs) _).symm

/-! ## Changing a value -/

/-- A list with another value in the place of the last one that satisfies `p`. -/
def modifyLast (p : α → Bool) (f : α → α) : List α → List α
  | [] => []
  | v :: vs => if vs.any p then v :: modifyLast p f vs else if p v then f v :: vs else v :: vs

theorem modifyLast_append {p : α → Bool} {v : α} (hv : p v = true) {ws : List α}
    (hws : ∀ w ∈ ws, p w = false) (f : α → α) (vs : List α) :
    modifyLast p f (vs ++ v :: ws) = vs ++ f v :: ws := by
  induction vs with
  | nil =>
      have hany : ¬ ws.any p = true := by
        rw [List.any_eq_true]
        rintro ⟨w, hw, hpw⟩
        rw [hws w hw] at hpw
        cases hpw
      rw [List.nil_append, modifyLast, if_neg hany, if_pos hv]
      rfl
  | cons u vs ih =>
      have hany : (vs ++ v :: ws).any p = true :=
        List.any_eq_true.2 ⟨v, List.mem_append_right _ List.mem_cons_self, hv⟩
      rw [List.cons_append, modifyLast, if_pos hany, ih]
      rfl

/-- There is a last one of the values that satisfy `p`. -/
theorem exists_last {p : α → Bool} {vs : List α} (h : ∃ v ∈ vs, p v = true) :
    ∃ us v ws, vs = us ++ v :: ws ∧ p v = true ∧ ∀ w ∈ ws, p w = false := by
  induction vs with
  | nil =>
      obtain ⟨v, hv, -⟩ := h
      exact absurd hv List.not_mem_nil
  | cons v vs ih =>
      by_cases hrest : ∃ w ∈ vs, p w = true
      · obtain ⟨us, w, ws, rfl, hw, hws⟩ := ih hrest
        exact ⟨v :: us, w, ws, rfl, hw, hws⟩
      · have hnone : ∀ w ∈ vs, p w = false := fun w hw ↦
          Bool.eq_false_iff.2 fun hpw ↦ hrest ⟨w, hw, hpw⟩
        obtain ⟨w, hw, hpw⟩ := h
        rcases List.mem_cons.1 hw with rfl | hw
        · exact ⟨[], w, vs, rfl, hpw, hnone⟩
        · exact absurd ⟨w, hw, hpw⟩ hrest

/-- Changing a value leaves the others. -/
theorem eraseLast_sublist_modifyLast {p : α → Bool} {vs : List α} (h : ∃ v ∈ vs, p v = true)
    (f : α → α) : (eraseLast p vs).Sublist (modifyLast p f vs) := by
  obtain ⟨us, v, ws, rfl, hv, hws⟩ := exists_last h
  rw [eraseLast_append hv hws, modifyLast_append hv hws]
  exact (List.Sublist.refl us).append (List.sublist_cons_self (f v) ws)

theorem length_modifyLast (p : α → Bool) (f : α → α) (vs : List α) :
    (modifyLast p f vs).length = vs.length := by
  induction vs with
  | nil => rfl
  | cons v vs ih =>
      rw [modifyLast]
      split
      · rw [List.length_cons, ih, List.length_cons]
      · split <;> rfl

/-- The values when that of a cell is changed. -/
theorem map_update_cell {as bs : List Nat} {i : Nat} (h : (as ++ i :: bs).Nodup) (val : Nat → α)
    (v : α) :
    (as ++ i :: bs).map (Function.update val i v) = as.map val ++ v :: bs.map val := by
  obtain ⟨-, hnodup, hdisj⟩ := List.nodup_append.1 h
  have has : ∀ j ∈ as, Function.update val i v j = val j := fun j hj ↦
    Function.update_of_ne (hdisj j hj i List.mem_cons_self) v val
  have hbs : ∀ j ∈ bs, Function.update val i v j = val j := by
    intro j hj
    refine Function.update_of_ne ?_ v val
    rintro rfl
    exact (List.nodup_cons.1 hnodup).1 hj
  rw [List.map_append, List.map_cons, Function.update_self, List.map_congr_left has,
    List.map_congr_left hbs]

/-! ## Going round -/

/-- The forward links lead from the head through cells with the values `vs`, and then to the head
again or to a null link. -/
def Holds (r : LinkRing α) (vs : List α) : Prop :=
  ∃ is, (Path r.nxt (r.nxt .head) is (some .head) ∨ Path r.nxt (r.nxt .head) is none) ∧
    is.map r.val = vs

section Holds

variable {r : LinkRing α} {vs ws : List α} {is : List Nat}

/-- Enough rounds of a walk are the way through the cells. -/
theorem Holds.walk_eq (h : r.Holds vs) : ∀ rounds, vs.length ≤ rounds →
    (walk r.nxt rounds (r.nxt .head)).map r.val = vs := by
  obtain ⟨is, hpath, rfl⟩ := h
  intro rounds hrounds
  rw [List.length_map] at hrounds
  congr 1
  rcases hpath with hpath | hpath
  · exact hpath.walk_eq (by rintro i ⟨⟩) hrounds
  · exact hpath.walk_eq (by rintro i ⟨⟩) hrounds

/-- There is only one way. -/
theorem Holds.eq (hvs : r.Holds vs) (hws : r.Holds ws) : vs = ws := by
  rw [← hvs.walk_eq (max vs.length ws.length) (Nat.le_max_left _ _),
    hws.walk_eq (max vs.length ws.length) (Nat.le_max_right _ _)]

theorem Holds.toList_eq (h : r.Holds vs) (hlen : vs.length ≤ r.size) : r.toList = vs :=
  h.walk_eq r.size hlen

end Holds

end LinkRing

end Hsfs
