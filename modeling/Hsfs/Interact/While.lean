import Hsfs.Interact.Ends

/-!
# Loops

A loop tests its state, runs its body and goes on with the state that the body leaves, unless the
body says otherwise: it may end the loop, or fail.  How often the body is run is bounded, and a loop
that is still going then ends in a fault.

What is claimed about the rounds of a loop is a claim about `Rounds`, the rounds that it can make
with some calls and their answers.  Every execution of the loop makes such rounds
(`ends_whileLoop`).
-/

namespace Hsfs.Interact.Act

variable {C : Type} {R : C → Type} {D F : Type} {σ τ ε : Type}

/-- The loop `while (goes s) …`.  The body returns the next state and whether to go on, or an
error. -/
def whileLoop (stuck : F) (goes : σ → Bool) (body : σ → Act C R D F (Except ε (σ × Bool))) :
    Nat → σ → Act C R D F (Except ε σ)
  | 0, _ => throw stuck
  | rounds + 1, s =>
      if goes s then do
        match ← body s with
        | .error e => pure (.error e)
        | .ok (s, again) => if again then whileLoop stuck goes body rounds s else pure (.ok s)
      else
        pure (.ok s)

/-- A round that did not fail: the state before it and after it, and whether the body wants to go
on. -/
structure Round (σ : Type) where
  before : σ
  after : σ
  again : Bool

/-- The rounds that a loop can make from a state, with the calls of their bodies.  The loop need not
be at its end with them. -/
inductive Rounds (goes : σ → Bool) (body : σ → Act C R D F (Except ε (σ × Bool))) :
    σ → D → List ((c : C) × R c) → List (Round σ) → Prop
  | nil (s : σ) (d : D) : Rounds goes body s d [] []
  /-- The body ends the loop. -/
  | last {s s' : σ} {d d' : D} {es : List ((c : C) × R c)} : goes s = true →
      Prog.Exec Server.record ((body s).run d) [] (.ok (.ok (s', false)), d') es →
      Rounds goes body s d es [⟨s, s', false⟩]
  /-- The loop goes on behind the round. -/
  | cons {s s' : σ} {d d' : D} {es es' : List ((c : C) × R c)} {rs : List (Round σ)} :
      goes s = true →
      Prog.Exec Server.record ((body s).run d) [] (.ok (.ok (s', true)), d') es →
      Rounds goes body s' d' es' rs → Rounds goes body s d (es ++ es') (⟨s, s', true⟩ :: rs)

/-- The state behind some rounds. -/
def Round.final (s : σ) (rs : List (Round σ)) : σ := (rs.getLast?.map Round.after).getD s

theorem Round.final_cons (s s' : σ) (again : Bool) (rs : List (Round σ)) :
    final s (⟨s, s', again⟩ :: rs) = final s' rs := by
  cases rs with
  | nil => rfl
  | cons r rs =>
      obtain ⟨last, hlast⟩ : ∃ last, (r :: rs).getLast? = some last :=
        ⟨_, List.getLast?_eq_some_getLast (List.cons_ne_nil r rs)⟩
      rw [final, final, List.getLast?_cons_cons, hlast]
      rfl

section

variable {stuck : F} {goes : σ → Bool} {body : σ → Act C R D F (Except ε (σ × Bool))}

/-- **An execution of the loop makes rounds**, and if it returns a state, that is the last one.  A
call that is not of these rounds is of one that failed, or ended in a fault. -/
theorem ends_whileLoop (rounds : Nat) (s : σ) (d : D) :
    Ends (fun es r _ ↦ ∃ es₁ es₂ rs, es = es₁ ++ es₂ ∧ Rounds goes body s d es₁ rs ∧
        ∀ s', r = .ok s' → es₂ = [] ∧ s' = Round.final s rs)
      (fun es _ _ ↦ ∃ es₁ es₂ rs, es = es₁ ++ es₂ ∧ Rounds goes body s d es₁ rs)
      (whileLoop stuck goes body rounds s) d := by
  induction rounds generalizing s d with
  | zero => exact .of_fault rfl ⟨[], [], [], rfl, .nil s d⟩
  | succ rounds ih =>
      unfold whileLoop
      split
      · rename_i hgoes
        refine (Ends.exec (body s) d).bind ?_ ?_
        · rintro es (e | ⟨s', again⟩) d' hx
          · refine .pure ⟨[], es, [], List.append_nil es, .nil s d, ?_⟩
            rintro s' ⟨⟩
          · cases again with
            | true =>
                refine (ih s' d').mono ?_ ?_
                · rintro _ r d'' ⟨es₁, es₂, rs, rfl, hrs, hlast⟩
                  refine ⟨es ++ es₁, es₂, _, (List.append_assoc ..).symm, .cons hgoes hx hrs, ?_⟩
                  rwa [Round.final_cons]
                · rintro _ e d'' ⟨es₁, es₂, rs, rfl, hrs⟩
                  exact ⟨es ++ es₁, es₂, _, (List.append_assoc ..).symm, .cons hgoes hx hrs⟩
            | false =>
                refine .pure ⟨es, [], _, rfl, .last hgoes hx, ?_⟩
                rintro _ ⟨⟩
                exact ⟨rfl, rfl⟩
        · intro es e d' _
          exact ⟨[], es, [], rfl, .nil s d⟩
      · refine .pure ⟨[], [], [], rfl, .nil s d, ?_⟩
        rintro _ ⟨⟩
        exact ⟨rfl, rfl⟩

end

end Hsfs.Interact.Act
