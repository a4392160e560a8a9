import Mathlib.Logic.Relation

/-!
# Interaction programs

A `Prog C R α` is a computation that stops now and then to ask its environment
something: a *call* `c : C`, answered by a value of `R c`.  It is a well-founded
tree, so a program always ends once enough answers are given; a loop of
unbounded length is a program only after it has been given a budget.

What the environment may answer is not part of the program.  It is a `Server`: a
relation saying, for each call and each state of the server, which answers may
come back and which state they leave behind.  The same program can so be read
against a server that answers anything (`Server.any`), against one that records
what it answered (`Server.record`), against a model of a real one, or against two of
them at once (`Server.prod`).

`Exec` is the operational reading of a program, `wp` the predicate-transformer
reading, and `wp_iff_exec` says that they agree.
-/

namespace Hsfs.Interact

/-- A computation over the calls `C`, each answered in `R c`, that returns an `α`. -/
inductive Prog (C : Type) (R : C → Type) (α : Type) : Type
  /-- The computation has ended. -/
  | ret (a : α) : Prog C R α
  /-- The computation makes a call and goes on with the answer. -/
  | call (c : C) (k : R c → Prog C R α) : Prog C R α

/-- What an environment may answer: `S c s r s'` when the call `c`, made in the
server state `s`, may be answered by `r`, leaving the state `s'`. -/
abbrev Server (C : Type) (R : C → Type) (σ : Type) := (c : C) → σ → R c → σ → Prop

namespace Server

variable {C : Type} {R : C → Type}

/-- The environment that may answer anything at any time. -/
def any : Server C R Unit := fun _ _ _ _ ↦ True

/-- The environment that may answer anything and whose state is the list of the
calls made so far, with their answers, the latest last. -/
def record : Server C R (List ((c : C) × R c)) := fun c tr r tr' ↦ tr' = tr ++ [⟨c, r⟩]

/-- Two environments that agree on every answer. -/
def prod {σ τ : Type} (S : Server C R σ) (T : Server C R τ) : Server C R (σ × τ) :=
  fun c s r s' ↦ S c s.1 r s'.1 ∧ T c s.2 r s'.2

end Server

namespace Prog

variable {C : Type} {R : C → Type} {σ : Type} {α β : Type}

/-- Run one program after the other. -/
def bind : Prog C R α → (α → Prog C R β) → Prog C R β
  | .ret a, f => f a
  | .call c k, f => .call c fun r ↦ (k r).bind f

@[simp] theorem bind_ret (a : α) (f : α → Prog C R β) : (Prog.ret a).bind f = f a := rfl

@[simp] theorem bind_call (c : C) (k : R c → Prog C R α) (f : α → Prog C R β) :
    (Prog.call c k).bind f = .call c fun r ↦ (k r).bind f := rfl

theorem bind_assoc {γ : Type} (p : Prog C R α) (f : α → Prog C R β) (g : β → Prog C R γ) :
    (p.bind f).bind g = p.bind fun a ↦ (f a).bind g := by
  induction p with
  | ret a => rfl
  | call c k ih => exact congrArg (Prog.call c) (funext fun r ↦ ih r)

/-- Run a program against a stateful table of answers, which may refuse a call. -/
def eval (f : (c : C) → σ → Option (R c × σ)) : Prog C R α → σ → Option (α × σ)
  | .ret a, s => some (a, s)
  | .call c k, s => match f c s with
    | none => none
    | some (r, s') => (k r).eval f s'

/-- The evaluations of two programs, one after the other. -/
theorem eval_bind {f : (c : C) → σ → Option (R c × σ)} {p : Prog C R α} {s s' : σ} {a : α}
    (h : p.eval f s = some (a, s')) (k : α → Prog C R β) :
    (p.bind k).eval f s = (k a).eval f s' := by
  induction p generalizing s with
  | ret b =>
      obtain ⟨rfl, rfl⟩ := Prod.mk.inj (Option.some.inj h)
      rfl
  | call c q ih =>
      rw [eval] at h
      rw [Prog.bind, eval]
      cases hc : f c s with
      | none =>
          rw [hc] at h
          exact absurd h.symm (Option.some_ne_none _)
      | some x =>
          rw [hc] at h
          exact ih x.1 h

/-! ## Executions -/

/-- `Exec S p s a s'`: against the server `S` in state `s`, the program `p` may
return `a` and leave the server in state `s'`. -/
inductive Exec (S : Server C R σ) : Prog C R α → σ → α → σ → Prop
  /-- A finished program returns what it has. -/
  | ret (a : α) (s : σ) : Exec S (.ret a) s a s
  /-- A call goes on with any answer the server may give. -/
  | call {c : C} {k : R c → Prog C R α} {s s' s'' : σ} {r : R c} {a : α} :
      S c s r s' → Exec S (k r) s' a s'' → Exec S (.call c k) s a s''

/-- The executions of two programs, one after the other. -/
theorem Exec.bind {S : Server C R σ} {p : Prog C R α} {f : α → Prog C R β} {s s' s'' : σ} {a : α}
    {b : β} (h : Exec S p s a s') (hf : Exec S (f a) s' b s'') : Exec S (p.bind f) s b s'' := by
  induction h with
  | ret a s => exact hf
  | call hS _ ih => exact .call hS (ih hf)

/-- An evaluation against a table of answers that the server allows is an
execution. -/
theorem exec_of_eval {S : Server C R σ} {f : (c : C) → σ → Option (R c × σ)}
    (hf : ∀ c s r s', f c s = some (r, s') → S c s r s') {p : Prog C R α} {s s' : σ} {a : α}
    (h : p.eval f s = some (a, s')) : Exec S p s a s' := by
  induction p generalizing s with
  | ret b =>
      simp only [eval, Option.some.injEq, Prod.mk.injEq] at h
      obtain ⟨rfl, rfl⟩ := h
      exact .ret _ _
  | call c k ih =>
      simp only [eval] at h
      cases hc : f c s with
      | none => simp [hc] at h
      | some x =>
          obtain ⟨r, t⟩ := x
          rw [hc] at h
          exact .call (hf c s r t hc) (ih r h)

/-- What `Server.record` has noted stays noted. -/
theorem Exec.record_append {p : Prog C R α} {tr tr' : List ((c : C) × R c)} {a : α}
    (h : Exec Server.record p tr a tr') : ∃ es, tr' = tr ++ es := by
  induction h with
  | ret a s => exact ⟨[], (List.append_nil s).symm⟩
  | @call c k s s' s'' r a hr hk ih =>
      obtain rfl : s' = s ++ [(⟨c, r⟩ : (c : C) × R c)] := hr
      obtain ⟨es, rfl⟩ := ih
      exact ⟨[⟨c, r⟩] ++ es, List.append_assoc ..⟩

/-- What is noted does not depend on what was noted before. -/
theorem Exec.record_shift {p : Prog C R α} {tr tr' : List ((c : C) × R c)} {a : α}
    (h : Exec Server.record p tr a tr') (tr₁ : List ((c : C) × R c)) :
    ∃ es, tr' = tr ++ es ∧ Exec Server.record p tr₁ a (tr₁ ++ es) := by
  induction h generalizing tr₁ with
  | ret a s => exact ⟨[], (List.append_nil s).symm, (List.append_nil tr₁).symm ▸ .ret a tr₁⟩
  | @call c k s s' s'' r a hr hk ih =>
      obtain rfl : s' = s ++ [(⟨c, r⟩ : (c : C) × R c)] := hr
      obtain ⟨es, rfl, hes⟩ := ih (tr₁ ++ [⟨c, r⟩])
      rw [List.append_assoc] at hes
      exact ⟨[⟨c, r⟩] ++ es, List.append_assoc .., .call rfl hes⟩

/-- Answers from a table, noted as `Server.record` notes them. -/
def recorded (g : (c : C) → Option (R c)) (c : C) (tr : List ((c : C) × R c)) :
    Option (R c × List ((c : C) × R c)) :=
  (g c).map fun r ↦ (r, tr ++ [⟨c, r⟩])

theorem exec_record_of_eval {g : (c : C) → Option (R c)} {p : Prog C R α}
    {tr tr' : List ((c : C) × R c)} {a : α} (h : p.eval (recorded g) tr = some (a, tr')) :
    Exec Server.record p tr a tr' := by
  refine exec_of_eval (fun c s r s' hg ↦ ?_) h
  obtain ⟨r', -, hr⟩ := Option.map_eq_some_iff.1 hg
  obtain ⟨rfl, rfl⟩ := Prod.mk.inj hr
  rfl

/-- Answers from a stateful table, noted as `Server.record` notes them. -/
def logged (f : (c : C) → σ → Option (R c × σ)) (c : C) (x : σ × List ((c : C) × R c)) :
    Option (R c × (σ × List ((c : C) × R c))) :=
  (f c x.1).map fun r ↦ (r.1, r.2, x.2 ++ [⟨c, r.1⟩])

theorem exec_prod_record_of_eval {S : Server C R σ} {f : (c : C) → σ → Option (R c × σ)}
    (hf : ∀ c s r s', f c s = some (r, s') → S c s r s') {p : Prog C R α}
    {x x' : σ × List ((c : C) × R c)} {a : α} (h : p.eval (logged f) x = some (a, x')) :
    Exec (S.prod Server.record) p x a x' := by
  refine exec_of_eval (fun c s r s' hg ↦ ?_) h
  obtain ⟨⟨r', t⟩, hr', hr⟩ := Option.map_eq_some_iff.1 hg
  cases hr
  exact ⟨hf c s.1 _ _ hr', rfl⟩

/-- A program can always be answered, if every call has an answer. -/
theorem exists_exec_record [∀ c, Nonempty (R c)] (p : Prog C R α) (tr : List ((c : C) × R c)) :
    ∃ a tr', Exec Server.record p tr a tr' := by
  induction p generalizing tr with
  | ret a => exact ⟨a, tr, .ret a tr⟩
  | call c k ih =>
      obtain ⟨r⟩ := ‹∀ c, Nonempty (R c)› c
      obtain ⟨a, tr', h⟩ := ih r (tr ++ [⟨c, r⟩])
      exact ⟨a, tr', .call rfl h⟩

/-! ## Weakest preconditions -/

/-- The weakest precondition of `p` for the postcondition `Q`: whatever the
server answers, `Q` holds of the result and of the state the server is left in. -/
def wp (S : Server C R σ) : Prog C R α → (α → σ → Prop) → σ → Prop
  | .ret a, Q, s => Q a s
  | .call c k, Q, s => ∀ r s', S c s r s' → (k r).wp S Q s'

variable {S : Server C R σ} {Q Q' : α → σ → Prop} {s : σ}

@[simp] theorem wp_ret (a : α) : (Prog.ret a : Prog C R α).wp S Q s ↔ Q a s := Iff.rfl

@[simp] theorem wp_call (c : C) (k : R c → Prog C R α) :
    (Prog.call c k).wp S Q s ↔ ∀ r s', S c s r s' → (k r).wp S Q s' := Iff.rfl

/-- The precondition of a composite is the precondition of its first part for
the precondition of its second. -/
theorem wp_bind (p : Prog C R α) (f : α → Prog C R β) (Q : β → σ → Prop) (s : σ) :
    (p.bind f).wp S Q s ↔ p.wp S (fun a s' ↦ (f a).wp S Q s') s := by
  induction p generalizing s with
  | ret a => exact Iff.rfl
  | call c k ih =>
    exact forall_congr' fun r ↦ forall_congr' fun s' ↦ imp_congr_right fun _ ↦
      ih r s'

/-- A weaker postcondition has a weaker precondition. -/
theorem wp_mono {p : Prog C R α} (h : ∀ a s', Q a s' → Q' a s') (hp : p.wp S Q s) :
    p.wp S Q' s := by
  induction p generalizing s with
  | ret a => exact h a s hp
  | call c k ih => exact fun r s' hS ↦ ih r (hp r s' hS)

/-- The precondition of a conjunction is the conjunction of the preconditions. -/
theorem wp_and {p : Prog C R α} (hp : p.wp S Q s) (hp' : p.wp S Q' s) :
    p.wp S (fun a s' ↦ Q a s' ∧ Q' a s') s := by
  induction p generalizing s with
  | ret a => exact ⟨hp, hp'⟩
  | call c k ih => exact fun r s' hS ↦ ih r (hp r s' hS) (hp' r s' hS)

/-- **The two readings agree**: the precondition of `Q` is that `Q` holds after
every execution. -/
theorem wp_iff_exec {p : Prog C R α} :
    p.wp S Q s ↔ ∀ a s', Exec S p s a s' → Q a s' := by
  constructor
  · intro h a s' hx
    induction hx with
    | ret a s => exact h
    | call hS _ ih => exact ih (h _ _ hS)
  · intro h
    induction p generalizing s with
    | ret a => exact h a s (.ret a s)
    | call c k ih => exact fun r s' hS ↦ ih r fun a s'' hx ↦ h a s'' (.call hS hx)

/-- Every execution against any server can be recorded. -/
theorem Exec.record {p : Prog C R α} {a : α} {s' : σ} (h : Exec S p s a s')
    (tr : List ((c : C) × R c)) : ∃ es, Exec Server.record p tr a (tr ++ es) := by
  induction h generalizing tr with
  | ret a s => exact ⟨[], (List.append_nil tr).symm ▸ .ret a tr⟩
  | @call c k s s' s'' r a hS hk ih =>
      obtain ⟨es, hes⟩ := ih (tr ++ [⟨c, r⟩])
      rw [List.append_assoc] at hes
      exact ⟨[⟨c, r⟩] ++ es, .call rfl hes⟩

end Prog

end Hsfs.Interact
