import Hsfs.Interact.Ends

/-!
# Programs over more calls

Code that makes the calls `C` can be a part of code that makes other calls as well.  `Prog.inl` and
`Act.inl` read it as such; its events are then among those of the larger code, as `leftEvents` has
them. What is known about the ends of the smaller code is thereby known in the larger one.
-/

namespace Hsfs.Interact

variable {C C' : Type} {R : C → Type} {R' : C' → Type} {D F α β : Type}

/-- A program, as one that may make other calls as well. -/
def Prog.inl : Prog C R α → Prog (C ⊕ C') (Sum.elim R R') α
  | .ret a => .ret a
  | .call c k => .call (.inl c) fun r ↦ (k r).inl

/-- Calls with their answers, among others. -/
def leftEvents (es : List ((c : C) × R c)) : List ((c : C ⊕ C') × Sum.elim R R' c) :=
  es.map fun e ↦ ⟨.inl e.1, e.2⟩

/-- What is recorded of a program that could make other calls is what is recorded of it. -/
theorem Prog.Exec.of_inl {p : Prog C R α} {tr tr' : List ((c : C ⊕ C') × Sum.elim R R' c)} {a : α}
    (h : Exec Server.record p.inl tr a tr') :
    ∃ es, tr' = tr ++ leftEvents es ∧ ∀ tr₀, Exec Server.record p tr₀ a (tr₀ ++ es) := by
  induction p generalizing tr with
  | ret b =>
      cases h with
      | ret =>
          refine ⟨[], (List.append_nil _).symm, fun tr₀ ↦ ?_⟩
          rw [List.append_nil]
          exact .ret _ tr₀
  | call c k ih =>
      cases h with
      | @call _ _ _ s' _ r _ hr hk =>
          obtain rfl : s' = tr ++ [(⟨.inl c, r⟩ : (c : C ⊕ C') × Sum.elim R R' c)] := hr
          obtain ⟨es, rfl, hes⟩ := ih r hk
          refine ⟨⟨c, r⟩ :: es, List.append_assoc .., fun tr₀ ↦ ?_⟩
          have hnext := hes (tr₀ ++ [⟨c, r⟩])
          rw [List.append_assoc] at hnext
          exact .call rfl hnext

namespace Act

/-- A computation, as one that may make other calls as well. -/
def inl (x : Act C R D F α) : Act (C ⊕ C') (Sum.elim R R') D F α := ⟨fun d ↦ (x.run d).inl⟩

namespace Ends

variable {P : List ((c : C) × R c) → α → D → Prop} {E' : List ((c : C) × R c) → F → D → Prop}
  {x : Act C R D F α} {d : D}

/-- The ends of a computation that could make other calls. -/
theorem inl (h : Ends P E' x d) :
    Ends (fun es a d' ↦ ∃ es₀, es = leftEvents es₀ ∧ P es₀ a d')
      (fun es e d' ↦ ∃ es₀, es = leftEvents es₀ ∧ E' es₀ e d')
      (x.inl : Act (C ⊕ C') (Sum.elim R R') D F α) d := by
  refine fun tr ↦ wp_iff_exec.2 ⟨fun a d' tr' hx ↦ ?_, fun e d' tr' hx ↦ ?_⟩
  · obtain ⟨es, rfl, hes⟩ := hx.of_inl
    exact ⟨_, rfl, es, rfl, h.exec_ok (hes [])⟩
  · obtain ⟨es, rfl, hes⟩ := hx.of_inl
    exact ⟨_, rfl, es, rfl, h.exec_error (hes [])⟩

/-- First a computation that makes none of the other calls. -/
theorem inl_bind {f : α → Act (C ⊕ C') (Sum.elim R R') D F β}
    {Q : List ((c : C ⊕ C') × Sum.elim R R' c) → β → D → Prop}
    {E : List ((c : C ⊕ C') × Sum.elim R R' c) → F → D → Prop} (hx : Ends P E' x d)
    (hf : ∀ es a d', P es a d' → Ends (fun es' ↦ Q (leftEvents es ++ es'))
      (fun es' ↦ E (leftEvents es ++ es')) (f a) d')
    (hE : ∀ es e d', E' es e d' → E (leftEvents es) e d') : Ends Q E (x.inl >>= f) d := by
  refine hx.inl.bind ?_ ?_
  · rintro _ a d' ⟨es, rfl, hP⟩
    exact hf es a d' hP
  · rintro _ e d' ⟨es, rfl, hP⟩
    exact hE es e d' hP

end Ends

end Act

end Hsfs.Interact
