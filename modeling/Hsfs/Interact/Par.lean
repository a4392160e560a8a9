import Hsfs.Interact.Prog

/-!
# Programs side by side

`Par S p q` runs two programs against one server, whose calls come in any order that keeps the
order of each program.  What one program does between two calls the other cannot see, so calls
are the grain of the interleaving.

To reason about such a run one does not need the states in between, if what matters is
*lasting*: a property of the server that no call can undo.  Then it is enough that some call of
one of the programs, with the answer it got, brings the property about (`Par.events`).
-/

namespace Hsfs.Interact

variable {C : Type} {R : C → Type} {σ α β : Type} {S : Server C R σ}

/-- `Par S p q s a b s'`: from the state `s` of the server, `p` and `q` may return `a` and `b`
and leave the server in the state `s'`. -/
inductive Par (S : Server C R σ) : Prog C R α → Prog C R β → σ → α → β → σ → Prop
  /-- Both programs have ended. -/
  | ret (a : α) (b : β) (s : σ) : Par S (.ret a) (.ret b) s a b s
  /-- The next call is one of the left program. -/
  | left {c : C} {k : R c → Prog C R α} {q : Prog C R β} {s s' s'' : σ} {r : R c} {a : α} {b : β} :
      S c s r s' → Par S (k r) q s' a b s'' → Par S (.call c k) q s a b s''
  /-- The next call is one of the right program. -/
  | right {c : C} {p : Prog C R α} {k : R c → Prog C R β} {s s' s'' : σ} {r : R c} {a : α} {b : β} :
      S c s r s' → Par S p (k r) s' a b s'' → Par S p (.call c k) s a b s''

namespace Par

variable {p : Prog C R α} {q : Prog C R β} {s s' s'' : σ} {a : α} {b : β}

/-- One program may run after the other. -/
theorem of_exec (hp : Prog.Exec S p s a s') (hq : Prog.Exec S q s' b s'') :
    Par S p q s a b s'' := by
  induction hp with
  | ret a s =>
      induction hq with
      | ret b s => exact .ret a b s
      | call hS _ ih => exact .right hS ih
  | call hS _ ih => exact .left hS (ih hq)

/-- A property of the server that no call undoes. -/
def Lasting (S : Server C R σ) (P : σ → Prop) : Prop := ∀ c s r s', S c s r s' → P s → P s'

/-- The call, if it is answered like this, brings the property about. -/
def Establishes (S : Server C R σ) (P : σ → Prop) (e : (c : C) × R c) : Prop :=
  ∀ s s', S e.1 s e.2 s' → P s'

theorem lasting (h : Par S p q s a b s') {P : σ → Prop} (hP : Lasting S P) (hs : P s) : P s' := by
  induction h with
  | ret a b s => exact hs
  | left hS _ ih => exact ih (hP _ _ _ _ hS hs)
  | right hS _ ih => exact ih (hP _ _ _ _ hS hs)

/-- **Each program has an execution of its own, and every lasting property that a call of either
of them establishes holds in the end.** -/
theorem events (h : Par S p q s a b s') (tr₁ tr₂ : List ((c : C) × R c)) :
    ∃ es₁ es₂, Prog.Exec Server.record p tr₁ a (tr₁ ++ es₁) ∧
      Prog.Exec Server.record q tr₂ b (tr₂ ++ es₂) ∧
      ∀ P, Lasting S P → ∀ e, e ∈ es₁ ∨ e ∈ es₂ → Establishes S P e → P s' := by
  induction h generalizing tr₁ tr₂ with
  | ret a b s =>
      refine ⟨[], [], ?_, ?_, fun P _ e he ↦ ?_⟩
      · exact (List.append_nil tr₁).symm ▸ .ret a tr₁
      · exact (List.append_nil tr₂).symm ▸ .ret b tr₂
      · exact absurd he (by simp)
  | @left c k q s s₁ s' r a b hS hpar ih =>
      obtain ⟨es₁, es₂, hp, hq, hlast⟩ := ih (tr₁ ++ [⟨c, r⟩]) tr₂
      rw [List.append_assoc] at hp
      refine ⟨⟨c, r⟩ :: es₁, es₂, .call rfl hp, hq, fun P hP e he hest ↦ ?_⟩
      rcases he with he | he
      · rcases List.mem_cons.1 he with rfl | he
        · exact hpar.lasting hP (hest s s₁ hS)
        · exact hlast P hP e (.inl he) hest
      · exact hlast P hP e (.inr he) hest
  | @right c p k s s₁ s' r a b hS hpar ih =>
      obtain ⟨es₁, es₂, hp, hq, hlast⟩ := ih tr₁ (tr₂ ++ [⟨c, r⟩])
      rw [List.append_assoc] at hq
      refine ⟨es₁, ⟨c, r⟩ :: es₂, hp, .call rfl hq, fun P hP e he hest ↦ ?_⟩
      rcases he with he | he
      · exact hlast P hP e (.inl he) hest
      · rcases List.mem_cons.1 he with rfl | he
        · exact hpar.lasting hP (hest s s₁ hS)
        · exact hlast P hP e (.inr he) hest

end Par

end Hsfs.Interact
