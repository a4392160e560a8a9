import Hsfs.Interact.Act

/-!
# Two programs side by side

Two interaction programs may differ in the state they keep and still do the same, as far as anyone
can see: they make the same calls, whatever the answers are, and end in related results
(`Prog.Rel`).  Then every execution of the one is one of the other (`Prog.Rel.exec`).

`Act.Relates P x y Q` is a triple for two stateful interactions: from states that `P` relates, they
make the same calls and end with the same fault, or with results and states that `Q` relates.
-/

namespace Hsfs.Interact

variable {C : Type} {R : C → Type} {D E F : Type} {σ α β α' β' : Type}

namespace Prog

/-- The programs make the same calls, and end in related results. -/
inductive Rel (Q : α → β → Prop) : Prog C R α → Prog C R β → Prop
  | ret {a : α} {b : β} : Q a b → Rel Q (.ret a) (.ret b)
  | call {c : C} {k : R c → Prog C R α} {k' : R c → Prog C R β} :
      (∀ r, Rel Q (k r) (k' r)) → Rel Q (.call c k) (.call c k')

namespace Rel

variable {Q : α → β → Prop} {Q' : α' → β' → Prop} {p : Prog C R α} {q : Prog C R β}

theorem bind {f : α → Prog C R α'} {g : β → Prog C R β'} (h : Rel Q p q)
    (hf : ∀ a b, Q a b → Rel Q' (f a) (g b)) : Rel Q' (p.bind f) (q.bind g) := by
  induction h with
  | ret hQ => exact hf _ _ hQ
  | call _ ih => exact .call ih

/-- Something is done with the second result. -/
theorem map_right {Q' : α → β' → Prop} {g : β → β'} (h : Rel Q p q)
    (hg : ∀ a b, Q a b → Q' a (g b)) : Rel Q' p (q.bind fun b ↦ .ret (g b)) := by
  induction h with
  | ret hab => exact .ret (hg _ _ hab)
  | call _ ih => exact .call ih

theorem mono {Q' : α → β → Prop} (h : Rel Q p q) (hQ : ∀ a b, Q a b → Q' a b) : Rel Q' p q := by
  induction h with
  | ret hab => exact .ret (hQ _ _ hab)
  | call _ ih => exact .call ih

/-- **An execution of the second program is one of the first.** -/
theorem exec {S : Server C R σ} {s s' : σ} {b : β} (h : Rel Q p q) (hx : Exec S q s b s') :
    ∃ a, Q a b ∧ Exec S p s a s' := by
  induction h generalizing s with
  | ret hQ =>
      cases hx with
      | ret => exact ⟨_, hQ, .ret _ _⟩
  | call _ ih =>
      cases hx with
      | call hS hk =>
          obtain ⟨a, hQ, hp⟩ := ih _ hk
          exact ⟨a, hQ, .call hS hp⟩

end Rel

end Prog

namespace Act

/-- The interactions end with the same fault, or in results and states that `Q` relates. -/
inductive Outcomes (Q : α → D → β → E → Prop) : Except F α × D → Except F β × E → Prop
  | ok {a : α} {d : D} {b : β} {e : E} : Q a d b e → Outcomes Q (.ok a, d) (.ok b, e)
  | error (f : F) (d : D) (e : E) : Outcomes Q (.error f, d) (.error f, e)

/-- Two interactions that are over end alike. -/
theorem rel_ret {Q : α → D → α → E → Prop} {d : D} {e : E} (h : ∀ a, Q a d a e)
    (out : Except F α) :
    Prog.Rel (Outcomes Q) (.ret (out, d) : Prog C R (Except F α × D)) (.ret (out, e)) := by
  apply Prog.Rel.ret
  cases out with
  | error f => exact .error f d e
  | ok a => exact .ok (h a)

/-- From states that `P` relates, the interactions make the same calls and end alike. -/
def Relates (P : D → E → Prop) (x : Act C R D F α) (y : Act C R E F β)
    (Q : α → D → β → E → Prop) : Prop :=
  ∀ d e, P d e → Prog.Rel (Outcomes Q) (x.run d) (y.run e)

namespace Relates

variable {P P' : D → E → Prop} {Q Q' : α → D → β → E → Prop} {x : Act C R D F α} {y : Act C R E F β}

theorem pure {a : α} {b : β} (h : ∀ d e, P d e → Q a d b e) :
    Relates P (Pure.pure a : Act C R D F α) (Pure.pure b : Act C R E F β) Q :=
  fun d e hP ↦ .ret (.ok (h d e hP))

theorem throw (f : F) : Relates P (Act.throw f : Act C R D F α) (Act.throw f : Act C R E F β) Q :=
  fun d e _ ↦ .ret (.error f d e)

theorem modify {f : D → D} {g : E → E} {Q : Unit → D → Unit → E → Prop}
    (h : ∀ d e, P d e → Q () (f d) () (g e)) :
    Relates P (Act.modify f : Act C R D F Unit) (Act.modify g : Act C R E F Unit) Q :=
  fun d e hP ↦ .ret (.ok (h d e hP))

/-- First one computation, then another. -/
theorem bind {Q' : α' → D → β' → E → Prop} {f : α → Act C R D F α'} {g : β → Act C R E F β'}
    (h : Relates P x y Q) (hf : ∀ a b, Relates (fun d e ↦ Q a d b e) (f a) (g b) Q') :
    Relates P (x >>= f) (y >>= g) Q' := by
  intro d e hP
  refine (h d e hP).bind fun out out' hout ↦ ?_
  cases hout with
  | ok hQ => exact hf _ _ _ _ hQ
  | error f d' e' => exact .ret (.error f d' e')

/-- First the states are read. -/
theorem get_bind {Q : α → D → β → E → Prop} {f : D → Act C R D F α} {g : E → Act C R E F β}
    (h : ∀ d e, P d e → Relates P (f d) (g e) Q) :
    Relates P (Act.get >>= f) (Act.get >>= g) Q :=
  fun d e hP ↦ h d e hP d e hP

theorem mono (h : Relates P' x y Q') (hpre : ∀ d e, P d e → P' d e)
    (hpost : ∀ a d b e, Q' a d b e → Q a d b e) : Relates P x y Q := by
  intro d e hP
  refine (h d e (hpre d e hP)).mono fun out out' hout ↦ ?_
  cases hout with
  | ok hQ => exact .ok (hpost _ _ _ _ hQ)
  | error f d' e' => exact .error f d' e'

end Relates

end Act

end Hsfs.Interact
