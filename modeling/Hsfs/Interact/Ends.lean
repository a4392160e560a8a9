import Hsfs.Interact.Act

/-!
# How executions end

A specification of a piece of code often relates its result to the calls it has made and the answers
it got.  `Ends P E x d` says of every execution of `x` from `d` that it ends as `P` says if it
returns, and as `E` says if it faults, where both may speak of the recorded calls.  A bind is taken
apart by passing on what the first half has recorded.
-/

namespace Hsfs.Interact.Act

variable {C : Type} {R : C → Type} {D F α β : Type}

/-- Every execution of `x` from `d` ends as `P` or `E` says, in terms of its calls and their
answers. -/
def Ends (P : List ((c : C) × R c) → α → D → Prop) (E : List ((c : C) × R c) → F → D → Prop)
    (x : Act C R D F α) (d : D) : Prop :=
  ∀ tr, wp Server.record x (fun a d' tr' ↦ ∃ es, tr' = tr ++ es ∧ P es a d')
    (fun e d' tr' ↦ ∃ es, tr' = tr ++ es ∧ E es e d') d tr

namespace Ends

variable {P P' : List ((c : C) × R c) → α → D → Prop} {E E' : List ((c : C) × R c) → F → D → Prop}
  {x : Act C R D F α} {d : D}

theorem mono (h : Ends P E x d) (hP : ∀ es a d', P es a d' → P' es a d')
    (hE : ∀ es e d', E es e d' → E' es e d') : Ends P' E' x d :=
  fun tr ↦ wp_mono (fun _ _ _ ⟨es, he, h⟩ ↦ ⟨es, he, hP _ _ _ h⟩)
    (fun _ _ _ ⟨es, he, h⟩ ↦ ⟨es, he, hE _ _ _ h⟩) (h tr)

/-- Two facts about the same execution hold together. -/
theorem and (h : Ends P E x d) (h' : Ends P' E' x d) :
    Ends (fun es a d' ↦ P es a d' ∧ P' es a d') (fun es e d' ↦ E es e d' ∧ E' es e d') x d := by
  intro tr
  refine wp_mono ?_ ?_ (wp_and (h tr) (h' tr))
  all_goals
    rintro _ d' _ ⟨⟨es, rfl, hP⟩, es', he, hP'⟩
    obtain rfl := List.append_cancel_left he
    exact ⟨es, rfl, hP, hP'⟩

theorem of_evolves {r : D → List ((c : C) × R c) → D → Prop} (h : Evolves r x) (d : D) :
    Ends (fun es _ d' ↦ r d es d') (fun es _ d' ↦ r d es d') x d := h d

theorem of_forall (hP : ∀ es a d', P es a d') (hE : ∀ es e d', E es e d') : Ends P E x d := by
  refine fun tr ↦ wp_iff_exec.2 ⟨fun a d' tr' hx ↦ ?_, fun e d' tr' hx ↦ ?_⟩
  · obtain ⟨es, rfl⟩ := hx.record_append
    exact ⟨es, rfl, hP es a d'⟩
  · obtain ⟨es, rfl⟩ := hx.record_append
    exact ⟨es, rfl, hE es e d'⟩

/-- Every execution ends as it does. -/
theorem exec (x : Act C R D F α) (d : D) :
    Ends (fun es a d' ↦ Prog.Exec Server.record (x.run d) [] (.ok a, d') es)
      (fun es e d' ↦ Prog.Exec Server.record (x.run d) [] (.error e, d') es) x d := by
  refine fun tr ↦ wp_iff_exec.2 ⟨fun a d' tr' hx ↦ ?_, fun e d' tr' hx ↦ ?_⟩
  · obtain ⟨es, rfl, hes⟩ := hx.record_shift []
    exact ⟨es, rfl, hes⟩
  · obtain ⟨es, rfl, hes⟩ := hx.record_shift []
    exact ⟨es, rfl, hes⟩

theorem pure {a : α} (h : P [] a d) : Ends P E (Pure.pure a) d :=
  fun tr ↦ ⟨[], (List.append_nil tr).symm, h⟩

/-- A computation that makes no call. -/
theorem of_ret {a : α} {d' : D} (hx : x.run d = .ret (.ok a, d')) (h : P [] a d') :
    Ends P E x d := by
  intro tr
  rw [wp_of_ret hx]
  exact ⟨[], (List.append_nil tr).symm, h⟩

/-- A computation that makes no call and faults. -/
theorem of_fault {e : F} {d' : D} (hx : x.run d = .ret (.error e, d')) (h : E [] e d') :
    Ends P E x d := by
  intro tr
  rw [wp, hx]
  exact ⟨[], (List.append_nil tr).symm, h⟩

section bind

variable {Q : List ((c : C) × R c) → β → D → Prop} {f : α → Act C R D F β}

/-- One computation after the other. -/
theorem bind (hx : Ends P E' x d)
    (hf : ∀ es a d', P es a d' → Ends (fun es' ↦ Q (es ++ es')) (fun es' ↦ E (es ++ es')) (f a) d')
    (hE : ∀ es e d', E' es e d' → E es e d') : Ends Q E (x >>= f) d := by
  intro tr
  rw [wp_bind]
  refine wp_mono ?_ (fun _ _ _ ⟨es, he, h⟩ ↦ ⟨es, he, hE _ _ _ h⟩) (hx tr)
  rintro a d' _ ⟨es, rfl, hP⟩
  refine wp_mono ?_ ?_ (hf es a d' hP (tr ++ es))
  all_goals
    rintro _ d'' _ ⟨es', rfl, hQ⟩
    exact ⟨es ++ es', List.append_assoc .., hQ⟩

/-- First something that makes no call. -/
theorem ret_bind {a : α} {d' : D} (hx : x.run d = .ret (.ok a, d')) (hf : Ends Q E (f a) d') :
    Ends Q E (x >>= f) d := by
  intro tr
  rw [wp_bind, wp_of_ret hx]
  exact hf tr

/-- First something that faults without making a call. -/
theorem fault_bind {e : F} {d' : D} (hx : x.run d = .ret (.error e, d')) (h : E [] e d') :
    Ends Q E (x >>= f) d :=
  (of_fault (P := fun _ _ _ ↦ False) hx h).bind (fun _ _ _ hno ↦ hno.elim) fun _ _ _ h ↦ h

/-- A function of the result. -/
theorem map {g : α → β} (hx : Ends (fun es a ↦ Q es (g a)) E x d) :
    Ends Q E (x >>= fun a ↦ Pure.pure (g a)) d := by
  refine hx.bind (fun es a d' h ↦ pure ?_) fun _ _ _ h ↦ h
  rwa [List.append_nil]

/-- First a call. -/
theorem ask_bind {c : C} {f : R c → Act C R D F β}
    (hf : ∀ r, Ends (fun es' ↦ Q (⟨c, r⟩ :: es')) (fun es' ↦ E (⟨c, r⟩ :: es')) (f r) d) :
    Ends Q E (ask c >>= f) d := by
  intro tr
  rw [wp_bind, wp_ask]
  rintro r _ rfl
  refine wp_mono ?_ ?_ (hf r (tr ++ [⟨c, r⟩]))
  all_goals
    rintro _ d'' _ ⟨es', rfl, hQ⟩
    exact ⟨⟨c, r⟩ :: es', List.append_assoc .., hQ⟩

end bind

/-- An execution that returns. -/
theorem exec_ok (h : Ends P E x d) {a : α} {d' : D} {es : List ((c : C) × R c)}
    (hx : Prog.Exec Server.record (x.run d) [] (.ok a, d') es) : P es a d' := by
  obtain ⟨es', rfl, hP⟩ := (wp_iff_exec.1 (h [])).1 a d' es hx
  exact hP

/-- An execution that faults. -/
theorem exec_error (h : Ends P E x d) {e : F} {d' : D} {es : List ((c : C) × R c)}
    (hx : Prog.Exec Server.record (x.run d) [] (.error e, d') es) : E es e d' := by
  obtain ⟨es', rfl, hE⟩ := (wp_iff_exec.1 (h [])).2 e d' es hx
  exact hE

end Ends

/-! ## Executions that return -/

/-- Every execution of `x` that returns moves the state along `r`. -/
def Returns (r : D → List ((c : C) × R c) → D → Prop) (x : Act C R D F α) : Prop :=
  ∀ d, Ends (fun es _ d' ↦ r d es d') (fun _ _ _ ↦ True) x d

namespace Returns

variable {r : D → List ((c : C) × R c) → D → Prop} {x : Act C R D F α}

theorem of_evolves (h : Evolves r x) : Returns r x :=
  fun d ↦ Ends.mono (.of_evolves h d) (fun _ _ _ h ↦ h) fun _ _ _ _ ↦ trivial

theorem modify {f : D → D} (h : ∀ d, r d [] (f d)) : Returns r (Act.modify f : Act C R D F Unit) :=
  of_evolves (.modify h)

theorem closed (hr : Composes r) : Closed (Returns (F := F) r) where
  pure := fun a ↦ of_evolves (.pure hr a)
  throw := fun e ↦ of_evolves (.throw hr e)
  get_bind := fun h d ↦ h d d
  bind := by
    intro α β x f hx hf d
    refine (hx d).bind (fun es a d' h ↦ ?_) fun _ _ _ h ↦ h
    exact (hf a d').mono (fun es' _ d'' h' ↦ hr.append h h') fun _ _ _ h ↦ h

end Returns

end Hsfs.Interact.Act
