import Hsfs.Interact.Prog

/-!
# Stateful interactions

An `Act C R D F α` is an interaction program that also carries a state `D` of its
own and may end in a *fault* `F` instead of a value.  The state survives a fault,
so that one can ask what had happened by the time of it.

There are two ways to reason about one.  `Act.wp` has one postcondition for the
value and one for the fault, with a rule for each primitive.  `Act.Evolves r` says
that every execution moves the state along the relation `r`, which may also speak of
the calls that were made and their answers.  If `r` can be composed, then so can
evolutions, without a word about the states in between; that is what a frame
condition or an argument about an invariant needs.
-/

namespace Hsfs.Interact

variable {C : Type} {R : C → Type} {D F : Type} {σ α β : Type}

/-- A computation with state `D` and faults `F` over the calls `C`. -/
structure Act (C : Type) (R : C → Type) (D F α : Type) : Type where
  /-- The program that the computation is, started in a state. -/
  run : D → Prog C R (Except F α × D)

namespace Act

/-- Go on with a value; stop at a fault. -/
def cont (f : α → Act C R D F β) : Except F α × D → Prog C R (Except F β × D)
  | (.ok a, d) => (f a).run d
  | (.error e, d) => .ret (.error e, d)

instance instMonad : Monad (Act C R D F) where
  pure a := ⟨fun d ↦ .ret (.ok a, d)⟩
  bind x f := ⟨fun d ↦ (x.run d).bind (cont f)⟩

/-- The current state. -/
def get : Act C R D F D := ⟨fun d ↦ .ret (.ok d, d)⟩

/-- Change the state. -/
def modify (f : D → D) : Act C R D F Unit := ⟨fun d ↦ .ret (.ok (), f d)⟩

/-- End in a fault. -/
def throw (e : F) : Act C R D F α := ⟨fun d ↦ .ret (.error e, d)⟩

/-- Make a call and return its answer. -/
def ask (c : C) : Act C R D F (R c) := ⟨fun d ↦ .call c fun r ↦ .ret (.ok r, d)⟩

/-! ## Running -/

section run

variable {d : D}

@[simp] theorem cont_ok (f : α → Act C R D F β) (a : α) : cont f (.ok a, d) = (f a).run d := rfl

@[simp] theorem cont_error (f : α → Act C R D F β) (e : F) :
    cont f (.error e, d) = .ret (.error e, d) := rfl

@[simp] theorem run_pure (a : α) : (pure a : Act C R D F α).run d = .ret (.ok a, d) := rfl

@[simp] theorem run_bind (x : Act C R D F α) (f : α → Act C R D F β) :
    (x >>= f).run d = (x.run d).bind (cont f) := rfl

@[simp] theorem run_get : (get : Act C R D F D).run d = .ret (.ok d, d) := rfl

@[simp] theorem run_modify (f : D → D) :
    (modify f : Act C R D F Unit).run d = .ret (.ok (), f d) := rfl

@[simp] theorem run_throw (e : F) : (throw e : Act C R D F α).run d = .ret (.error e, d) := rfl

@[simp] theorem run_ask (c : C) :
    (ask c : Act C R D F (R c)).run d = .call c fun r ↦ .ret (.ok r, d) := rfl

@[simp] theorem run_ite (c : Prop) [Decidable c] (x y : Act C R D F α) :
    (if c then x else y).run d = if c then x.run d else y.run d := by
  by_cases h : c <;> simp [h]

/-- Running a composite whose first part makes no call. -/
theorem run_bind_of_ret {x : Act C R D F α} {a : α} {d' : D} (h : x.run d = .ret (.ok a, d'))
    (f : α → Act C R D F β) : (x >>= f).run d = (f a).run d' := by
  rw [run_bind, h, Prog.bind_ret, cont_ok]

/-- What comes after two computations comes after the second of them. -/
theorem bind_bind {γ : Type} (x : Act C R D F α) (f : α → Act C R D F β) (g : β → Act C R D F γ) :
    x >>= f >>= g = x >>= fun a ↦ f a >>= g := by
  change Act.mk _ = Act.mk _
  congr 1
  funext d
  change ((x.run d).bind (cont f)).bind (cont g) = (x.run d).bind (cont fun a ↦ f a >>= g)
  rw [Prog.bind_assoc]
  congr 1
  funext out
  obtain ⟨e | a, d'⟩ := out <;> rfl

end run

/-! ## Executions -/

section exec

variable {S : Server C R σ} {d d' : D} {s s' s'' : σ} {x : Act C R D F α} {a : α}

theorem exec_of_ret (h : x.run d = .ret (.ok a, d')) : Prog.Exec S (x.run d) s (.ok a, d') s :=
  h ▸ .ret _ s

theorem exec_bind {f : α → Act C R D F β} {out : Except F β × D}
    (h : Prog.Exec S (x.run d) s (.ok a, d') s') (hf : Prog.Exec S ((f a).run d') s' out s'') :
    Prog.Exec S ((x >>= f).run d) s out s'' := Prog.Exec.bind h hf

/-- Evaluating a composite, behind its first part. -/
theorem eval_bind {g : (c : C) → σ → Option (R c × σ)}
    (h : (x.run d).eval g s = some ((.ok a, d'), s')) (f : α → Act C R D F β) :
    ((x >>= f).run d).eval g s = ((f a).run d').eval g s' :=
  Prog.eval_bind h (cont f)

/-- Evaluating a composite that begins with a call. -/
theorem eval_ask_bind {g : (c : C) → σ → Option (R c × σ)} {c : C} {r : R c}
    (h : g c s = some (r, s')) (f : R c → Act C R D F β) :
    ((ask c >>= f).run d).eval g s = ((f r).run d).eval g s' := by
  refine eval_bind ?_ f
  rw [run_ask, Prog.eval, h]
  rfl

end exec

/-! ## Weakest preconditions -/

/-- The postcondition of the underlying program for a postcondition `Q` on values
and a postcondition `E` on faults. -/
def post (Q : α → D → σ → Prop) (E : F → D → σ → Prop) : Except F α × D → σ → Prop
  | (.ok a, d), s => Q a d s
  | (.error e, d), s => E e d s

/-- The weakest precondition of `x` for `Q` if it returns and `E` if it faults. -/
def wp (S : Server C R σ) (x : Act C R D F α) (Q : α → D → σ → Prop) (E : F → D → σ → Prop)
    (d : D) (s : σ) : Prop := (x.run d).wp S (post Q E) s

section rules

variable {S : Server C R σ} {Q Q' : α → D → σ → Prop} {E E' : F → D → σ → Prop} {d : D} {s : σ}

@[simp] theorem post_ok (a : α) : post Q E (.ok a, d) s ↔ Q a d s := Iff.rfl

@[simp] theorem post_error (e : F) : post Q E (.error e, d) s ↔ E e d s := Iff.rfl

@[simp] theorem wp_pure (a : α) : wp S (pure a) Q E d s ↔ Q a d s := Iff.rfl

@[simp] theorem wp_get {Q : D → D → σ → Prop} : wp S get Q E d s ↔ Q d d s := Iff.rfl

@[simp] theorem wp_modify (f : D → D) {Q : Unit → D → σ → Prop} :
    wp S (modify f) Q E d s ↔ Q () (f d) s := Iff.rfl

@[simp] theorem wp_throw (e : F) : wp S (throw e) Q E d s ↔ E e d s := Iff.rfl

@[simp] theorem wp_ask (c : C) {Q : R c → D → σ → Prop} :
    wp S (ask c) Q E d s ↔ ∀ r s', S c s r s' → Q r d s' := Iff.rfl

@[simp] theorem wp_bind (x : Act C R D F α) (f : α → Act C R D F β) {Q : β → D → σ → Prop} :
    wp S (x >>= f) Q E d s ↔ wp S x (fun a d' s' ↦ wp S (f a) Q E d' s') E d s := by
  change ((x.run d).bind (cont f)).wp S (post Q E) s ↔ (x.run d).wp S _ s
  rw [Prog.wp_bind]
  have h : (fun r s' ↦ (cont f r).wp S (post Q E) s')
      = post (fun a d' s' ↦ wp S (f a) Q E d' s') E := by
    funext r s'
    obtain ⟨_ | _, _⟩ := r <;> rfl
  exact iff_of_eq (congrArg (fun P ↦ (x.run d).wp S P s) h)

@[simp] theorem wp_ite (c : Prop) [Decidable c] (x y : Act C R D F α) :
    wp S (if c then x else y) Q E d s ↔ if c then wp S x Q E d s else wp S y Q E d s := by
  by_cases h : c <;> simp [h]

/-- A computation that makes no call has one outcome. -/
theorem wp_of_ret {x : Act C R D F α} {a : α} {d' : D} (h : x.run d = .ret (.ok a, d')) :
    wp S x Q E d s ↔ Q a d' s := by
  rw [wp, h, Prog.wp_ret, post_ok]

/-- Weaker postconditions have a weaker precondition. -/
theorem wp_mono {x : Act C R D F α} (hQ : ∀ a d' s', Q a d' s' → Q' a d' s')
    (hE : ∀ e d' s', E e d' s' → E' e d' s') (h : wp S x Q E d s) : wp S x Q' E' d s := by
  refine Prog.wp_mono ?_ h
  rintro ⟨_ | a, d'⟩ s' hp
  · exact hE _ _ _ hp
  · exact hQ _ _ _ hp

/-- Two facts about the same execution hold together. -/
theorem wp_and {x : Act C R D F α} (h : wp S x Q E d s) (h' : wp S x Q' E' d s) :
    wp S x (fun a d' s' ↦ Q a d' s' ∧ Q' a d' s') (fun e d' s' ↦ E e d' s' ∧ E' e d' s') d s := by
  refine Prog.wp_mono ?_ (Prog.wp_and h h')
  rintro ⟨_ | a, d'⟩ s' hp <;> exact hp

/-- The precondition is that the postconditions hold after every execution. -/
theorem wp_iff_exec {x : Act C R D F α} :
    wp S x Q E d s ↔ (∀ a d' s', Prog.Exec S (x.run d) s (.ok a, d') s' → Q a d' s') ∧
      ∀ e d' s', Prog.Exec S (x.run d) s (.error e, d') s' → E e d' s' := by
  rw [wp, Prog.wp_iff_exec]
  constructor
  · exact fun h ↦ ⟨fun a d' s' ↦ h (.ok a, d') s', fun e d' s' ↦ h (.error e, d') s'⟩
  · rintro ⟨hQ, hE⟩ ⟨_ | a, d'⟩ s' hx
    · exact hE _ _ _ hx
    · exact hQ _ _ _ hx

end rules

/-! ## Evolution of the state -/

/-- A relation between a state, the calls made from there with their answers, and the
state reached, that can be composed. -/
structure Composes (r : D → List ((c : C) × R c) → D → Prop) : Prop where
  nil : ∀ d, r d [] d
  append : ∀ {d d' d'' es es'}, r d es d' → r d' es' d'' → r d (es ++ es') d''

/-- Every execution of `x`, whatever it is answered and however it ends, moves the
state along `r`. -/
def Evolves (r : D → List ((c : C) × R c) → D → Prop) (x : Act C R D F α) : Prop :=
  ∀ d tr, wp Server.record x (fun _ d' tr' ↦ ∃ es, tr' = tr ++ es ∧ r d es d')
    (fun _ d' tr' ↦ ∃ es, tr' = tr ++ es ∧ r d es d') d tr

namespace Evolves

variable {r r' : D → List ((c : C) × R c) → D → Prop} {x : Act C R D F α}

theorem mono (h : Evolves r x) (hr : ∀ d es d', r d es d' → r' d es d') : Evolves r' x :=
  fun d tr ↦ wp_mono (fun _ _ _ ⟨es, he, h⟩ ↦ ⟨es, he, hr _ _ _ h⟩)
    (fun _ _ _ ⟨es, he, h⟩ ↦ ⟨es, he, hr _ _ _ h⟩) (h d tr)

theorem of_forall (h : ∀ d es d', r d es d') (x : Act C R D F α) : Evolves r x := by
  refine fun d tr ↦ wp_iff_exec.2 ⟨fun a d' tr' hx ↦ ?_, fun e d' tr' hx ↦ ?_⟩
  all_goals
    obtain ⟨es, rfl⟩ := hx.record_append
    exact ⟨es, rfl, h d es d'⟩

theorem and (h : Evolves r x) (h' : Evolves r' x) :
    Evolves (fun d es d' ↦ r d es d' ∧ r' d es d') x := by
  intro d tr
  refine wp_mono ?_ ?_ (wp_and (h d tr) (h' d tr))
  all_goals
    rintro _ d' _ ⟨⟨es, rfl, hr⟩, es', he, hr'⟩
    obtain rfl := List.append_cancel_left he
    exact ⟨es, rfl, hr, hr'⟩

/-- An execution moves the state along the relation. -/
theorem of_exec (h : Evolves r x) {d d' : D} {out : Except F α} {tr tr' : List ((c : C) × R c)}
    (hx : Prog.Exec Server.record (x.run d) tr (out, d') tr') :
      ∃ es, tr' = tr ++ es ∧ r d es d' := by
  cases out with
  | ok a => exact (wp_iff_exec.1 (h d tr)).1 a d' tr' hx
  | error e => exact (wp_iff_exec.1 (h d tr)).2 e d' tr' hx

/-- The state evolves against any server. -/
theorem wp (h : Evolves r x) (S : Server C R σ) (d : D) (s : σ) :
    Act.wp S x (fun _ d' _ ↦ ∃ es, r d es d') (fun _ d' _ ↦ ∃ es, r d es d') d s := by
  refine wp_iff_exec.2 ⟨fun a d' s' hx ↦ ?_, fun e d' s' hx ↦ ?_⟩
  · obtain ⟨es, hes⟩ := hx.record []
    obtain ⟨es', -, hr⟩ := (wp_iff_exec.1 (h d [])).1 a d' _ hes
    exact ⟨es', hr⟩
  · obtain ⟨es, hes⟩ := hx.record []
    obtain ⟨es', -, hr⟩ := (wp_iff_exec.1 (h d [])).2 e d' _ hes
    exact ⟨es', hr⟩

theorem modify {f : D → D} (h : ∀ d, r d [] (f d)) :
    Evolves r (Act.modify f : Act C R D F Unit) :=
  fun d tr ↦ ⟨[], (List.append_nil tr).symm, h d⟩

theorem ask {c : C} (h : ∀ d a, r d [⟨c, a⟩] d) : Evolves r (Act.ask c : Act C R D F (R c)) := by
  rintro d tr a _ rfl
  exact ⟨_, rfl, h d a⟩

theorem ite {c : Prop} [Decidable c] {y : Act C R D F α} (hx : Evolves r x)
    (hy : Evolves r y) : Evolves r (if c then x else y) := by
  by_cases h : c <;> simpa [h]

/-- The state may be read on the way. -/
theorem get_bind {f : D → Act C R D F α} (h : ∀ a, Evolves r (f a)) : Evolves r (Act.get >>= f) :=
  fun d tr ↦ h d d tr

theorem pure (hr : Composes r) (a : α) : Evolves r (Pure.pure a : Act C R D F α) :=
  fun d tr ↦ ⟨[], (List.append_nil tr).symm, hr.nil d⟩

theorem throw (hr : Composes r) (e : F) : Evolves r (Act.throw e : Act C R D F α) :=
  fun d tr ↦ ⟨[], (List.append_nil tr).symm, hr.nil d⟩

/-- First along one relation and then along another. -/
theorem seq {r₁ r₂ : D → List ((c : C) × R c) → D → Prop} {f : α → Act C R D F β}
    (hx : Evolves r₁ x) (hf : ∀ a, Evolves r₂ (f a))
    (happend : ∀ {d d' d'' es es'}, r₁ d es d' → r₂ d' es' d'' → r d (es ++ es') d'')
    (hfail : ∀ {d d' es}, r₁ d es d' → r d es d') : Evolves r (x >>= f) := by
  intro d tr
  rw [wp_bind]
  refine wp_mono ?_ (fun _ _ _ ⟨es, he, h⟩ ↦ ⟨es, he, hfail h⟩) (hx d tr)
  rintro a d' _ ⟨es, rfl, h⟩
  refine wp_mono ?_ ?_ (hf a d' (tr ++ es))
  all_goals
    rintro _ d'' _ ⟨es', rfl, h'⟩
    exact ⟨es ++ es', List.append_assoc .., happend h h'⟩

theorem bind (hr : Composes r) {f : α → Act C R D F β} (hx : Evolves r x)
    (hf : ∀ a, Evolves r (f a)) : Evolves r (x >>= f) :=
  seq hx hf hr.append id

end Evolves

/-! ## Properties of all parts of a program -/

/-- A property of programs that passes from the parts of a program to the whole. -/
structure Closed (P : {α : Type} → Act C R D F α → Prop) : Prop where
  pure : ∀ {α : Type} (a : α), P (Pure.pure a : Act C R D F α)
  throw : ∀ {α : Type} (e : F), P (Act.throw e : Act C R D F α)
  get_bind : ∀ {α : Type} {f : D → Act C R D F α}, (∀ d, P (f d)) → P (Act.get >>= f)
  bind : ∀ {α β : Type} {x : Act C R D F α} {f : α → Act C R D F β}, P x → (∀ a, P (f a)) →
    P (x >>= f)

theorem Closed.ite {P : {α : Type} → Act C R D F α → Prop} (_ : Closed @P) {c : Prop} [Decidable c]
    {x y : Act C R D F α} (hx : P x) (hy : P y) : P (if c then x else y) := by
  split
  · exact hx
  · exact hy

theorem Composes.closed {r : D → List ((c : C) × R c) → D → Prop} (hr : Composes r) :
    Closed (Evolves (F := F) r) where
  pure := .pure hr
  throw := .throw hr
  get_bind := .get_bind
  bind := .bind hr

/-! ## Invariants of the server -/

/-- Every execution of `x` keeps the property `P` of the server's state. -/
def Keeps (S : Server C R σ) (P : σ → Prop) (x : Act C R D F α) : Prop :=
  ∀ d s, P s → wp S x (fun _ _ s' ↦ P s') (fun _ _ s' ↦ P s') d s

namespace Keeps

variable {S : Server C R σ} {P : σ → Prop} {x : Act C R D F α}

theorem pure (a : α) : Keeps S P (Pure.pure a : Act C R D F α) := fun _ _ h ↦ h

theorem throw (e : F) : Keeps S P (Act.throw e : Act C R D F α) := fun _ _ h ↦ h

theorem modify (f : D → D) : Keeps S P (Act.modify f : Act C R D F Unit) := fun _ _ h ↦ h

theorem get_bind {f : D → Act C R D F α} (h : ∀ a, Keeps S P (f a)) :
    Keeps S P (Act.get >>= f) := fun d s hs ↦ h d d s hs

theorem ite {c : Prop} [Decidable c] {y : Act C R D F α} (hx : Keeps S P x) (hy : Keeps S P y) :
    Keeps S P (if c then x else y) := by
  by_cases h : c <;> simpa [h]

theorem bind {f : α → Act C R D F β} (hx : Keeps S P x) (hf : ∀ a, Keeps S P (f a)) :
    Keeps S P (x >>= f) := by
  intro d s hs
  rw [wp_bind]
  exact wp_mono (fun a d' s' hs' ↦ hf a d' s' hs') (fun _ _ _ h ↦ h) (hx d s hs)

end Keeps

end Act

end Hsfs.Interact
