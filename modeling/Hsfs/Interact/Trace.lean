import Hsfs.Interact.Act

/-!
# What a server does along a trace

An execution against a server leaves a trace, and the server goes through the events of that trace
one after the other (`Prog.Exec.exists_steps`).  So a fact about the traces of a piece of code,
whatever it is answered, says something about the states of any server.  Conversely, a server that
can go through the events of a trace can have left it (`Prog.Exec.of_steps`).
-/

namespace Hsfs.Interact

variable {C : Type} {R : C → Type} {σ α : Type}

/-- The server goes through these events. -/
inductive Server.Steps (S : Server C R σ) : σ → List ((c : C) × R c) → σ → Prop
  | nil (s : σ) : Steps S s [] s
  | cons {c : C} {r : R c} {s s' s'' : σ} {es : List ((c : C) × R c)} :
      S c s r s' → Steps S s' es s'' → Steps S s (⟨c, r⟩ :: es) s''

/-- **An execution leaves a trace that the server has gone through.** -/
theorem Prog.Exec.exists_steps {S : Server C R σ} {p : Prog C R α} {s s' : σ} {a : α}
    (h : Exec S p s a s') (tr : List ((c : C) × R c)) :
    ∃ es, Exec Server.record p tr a (tr ++ es) ∧ S.Steps s es s' := by
  induction h generalizing tr with
  | ret a s => exact ⟨[], (List.append_nil tr).symm ▸ .ret a tr, .nil s⟩
  | @call c k s s' s'' r a hS _ ih =>
      obtain ⟨es, hes, hsteps⟩ := ih (tr ++ [⟨c, r⟩])
      rw [List.append_assoc] at hes
      exact ⟨[⟨c, r⟩] ++ es, .call rfl hes, .cons hS hsteps⟩

/-- **A server that can go through a trace can have been the one that left it.** -/
theorem Prog.Exec.of_steps {S : Server C R σ} {p : Prog C R α} {tr tr' : List ((c : C) × R c)}
    {a : α} (h : Exec Server.record p tr a tr') {es : List ((c : C) × R c)} (htr : tr' = tr ++ es)
    {s s' : σ} (hsteps : S.Steps s es s') : Exec S p s a s' := by
  induction h generalizing es s with
  | ret a tr =>
      obtain rfl : es = [] := List.append_cancel_left (htr.symm.trans (List.append_nil tr).symm)
      cases hsteps
      exact .ret a s'
  | @call c k tr tr₁ tr' r a hrec hrest ih =>
      obtain rfl : tr₁ = tr ++ [(⟨c, r⟩ : (c : C) × R c)] := hrec
      obtain ⟨es', hes'⟩ := hrest.record_append
      have hes : es = ⟨c, r⟩ :: es' := by
        rw [hes', List.append_assoc] at htr
        exact (List.append_cancel_left htr).symm
      subst hes
      cases hsteps with
      | cons hS hsteps => exact .call hS (ih hes' hsteps)

/-- One run after another. -/
theorem Server.Steps.append {S : Server C R σ} {es es' : List ((c : C) × R c)} {s s' s'' : σ}
    (h : S.Steps s es s') (h' : S.Steps s' es' s'') : S.Steps s (es ++ es') s'' := by
  induction h with
  | nil => exact h'
  | cons hs _ ih => exact .cons hs (ih h')

/-- The events of one trace after those of another. -/
theorem Server.steps_append {S : Server C R σ} {es es' : List ((c : C) × R c)} {s s'' : σ}
    (h : S.Steps s (es ++ es') s'') : ∃ s', S.Steps s es s' ∧ S.Steps s' es' s'' := by
  induction es generalizing s with
  | nil => exact ⟨s, .nil s, h⟩
  | cons e es ih =>
      cases h with
      | cons hS hsteps =>
          obtain ⟨s', hfirst, hrest⟩ := ih hsteps
          exact ⟨s', .cons hS hfirst, hrest⟩

end Hsfs.Interact
