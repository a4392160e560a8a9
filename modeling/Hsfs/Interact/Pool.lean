import Mathlib.Logic.Function.Basic

/-!
# Many processes and one shared state

A `Machine` says what an action of a process does to its own state and to the state that all
processes share.  A `Pool` has one process for each name, and `Machine.play` lets them act in any
order.  Which actions may happen is a parameter of a run, so that one can speak of the runs without
some of them.

Two rules derive what holds in every run from what a single action does:

* `Machine.Guards`: a token that is taken only while it is free, and given back only by the process
  that has it, is never with two processes (`Guards.play`);
* `Machine.Protects`: what only the process with the token changes is, whenever it acts, what it has
  made of it itself (`Protects.play`).
-/

namespace Hsfs.Interact

/-- What an action of a process does; nothing if it is not possible in these states. -/
def Machine (P A L σ : Type) : Type := P → A → L → σ → Option (L × σ)

/-- The states of all processes and the state they share. -/
structure Pool (P L σ : Type) where
  /-- The state of each process. -/
  loc : P → L
  /-- The shared state. -/
  shared : σ

namespace Machine

variable {P A L σ D : Type} [DecidableEq P] {M : Machine P A L σ} {ok : A → L → Bool}
  {W has : L → Prop} {free : σ → Prop} {c c' : Pool P L σ} {p : P} {a : A}

/-- One process acts. -/
def step (M : Machine P A L σ) (p : P) (a : A) (c : Pool P L σ) : Option (Pool P L σ) :=
  (M p a (c.loc p) c.shared).map fun r ↦ ⟨Function.update c.loc p r.1, r.2⟩

/-- Processes act one after the other, each time in a way that may happen. -/
def play (M : Machine P A L σ) (ok : A → L → Bool) :
    List (P × A) → Pool P L σ → Option (Pool P L σ)
  | [], c => some c
  | (p, a) :: tr, c => if ok a (c.loc p) then (M.step p a c).bind (M.play ok tr) else none

theorem step_eq_some_iff : M.step p a c = some c' ↔
    ∃ l s, M p a (c.loc p) c.shared = some (l, s) ∧ c' = ⟨Function.update c.loc p l, s⟩ := by
  rw [step, Option.map_eq_some_iff]
  constructor
  · rintro ⟨⟨l, s⟩, hact, rfl⟩
    exact ⟨l, s, hact, rfl⟩
  · rintro ⟨l, s, hact, rfl⟩
    exact ⟨(l, s), hact, rfl⟩

theorem play_cons_eq_some_iff {tr : List (P × A)} : M.play ok ((p, a) :: tr) c = some c' ↔
    ok a (c.loc p) ∧ ∃ c₁, M.step p a c = some c₁ ∧ M.play ok tr c₁ = some c' := by
  rw [play]
  by_cases hok : ok a (c.loc p)
  · rw [if_pos hok, Option.bind_eq_some_iff]
    exact ⟨fun h ↦ ⟨hok, h⟩, fun h ↦ h.2⟩
  · rw [if_neg hok]
    exact iff_of_false (Option.some_ne_none c').symm fun h ↦ hok h.1

/-- A run is also a run if more may happen. -/
theorem play_mono {ok' : A → L → Bool} (hok : ∀ a l, ok a l → ok' a l) (tr : List (P × A))
    (h : M.play ok tr c = some c') : M.play ok' tr c = some c' := by
  induction tr generalizing c with
  | nil => exact h
  | cons pa tr ih =>
      obtain ⟨hpa, c₁, h₁, htr⟩ := play_cons_eq_some_iff.1 h
      exact play_cons_eq_some_iff.2 ⟨hok _ _ hpa, c₁, h₁, ih htr⟩

/-- What every action keeps of the actions so far and the states, every run keeps. -/
theorem play_keeps_trace {I : List (P × A) → Pool P L σ → Prop}
    (hstep : ∀ {tr p a c l s}, ok a (c.loc p) → M p a (c.loc p) c.shared = some (l, s) → I tr c →
      I (tr ++ [(p, a)]) ⟨Function.update c.loc p l, s⟩)
    (tr : List (P × A)) (h : M.play ok tr c = some c') (hc : I [] c) : I tr c' := by
  suffices hall : ∀ before c, M.play ok tr c = some c' → I before c → I (before ++ tr) c' from
    hall [] c h hc
  clear h hc
  induction tr with
  | nil =>
      intro before c h hc
      rw [List.append_nil]
      exact Option.some.inj h ▸ hc
  | cons pa tr ih =>
      intro before c h hc
      obtain ⟨hok, c₁, h₁, htr⟩ := play_cons_eq_some_iff.1 h
      obtain ⟨l, s, hact, rfl⟩ := step_eq_some_iff.1 h₁
      rw [List.append_cons]
      exact ih _ _ htr (hstep hok hact hc)

/-- **What every action keeps, every run keeps.** -/
theorem play_keeps {I : Pool P L σ → Prop}
    (hstep : ∀ {p a c l s}, ok a (c.loc p) → M p a (c.loc p) c.shared = some (l, s) → I c →
      I ⟨Function.update c.loc p l, s⟩)
    (tr : List (P × A)) (h : M.play ok tr c = some c') (hc : I c) : I c' :=
  play_keeps_trace (I := fun _ c ↦ I c) (fun hok hact hc ↦ hstep hok hact hc) tr h hc

/-- A property of each process next to the shared state holds after a step of `p`, if it holds
for `p` and all others keep it. -/
theorem forall_update {Q : P → L → Prop} {loc : P → L} {l : L} (hp : Q p l)
    (hq : ∀ q, q ≠ p → Q q (loc q)) (q : P) : Q q (Function.update loc p l q) := by
  by_cases hqp : q = p
  · subst hqp
    rwa [Function.update_self]
  · rw [Function.update_of_ne hqp]
    exact hq q hqp

/-! ## A process that does not stay for long -/

/-- **A process that goes down in rank with every action leaves after so many actions**, whatever
the others do. -/
theorem leaves_of_rank (inside : L → Prop) (rank : L → Nat)
    (hdown : ∀ {a l s l' s'}, ok a l → M p a l s = some (l', s') → inside l → inside l' →
      rank l' < rank l)
    (tr : List (P × A)) (hplay : M.play ok tr c = some c')
    (hacts : rank (c.loc p) < (tr.filter (·.1 = p)).length) :
    ∃ tr₁ c₁, tr₁ <+: tr ∧ M.play ok tr₁ c = some c₁ ∧ ¬ inside (c₁.loc p) := by
  induction tr generalizing c with
  | nil => exact absurd hacts (Nat.not_lt_zero _)
  | cons qa tr ih =>
      obtain ⟨q, a⟩ := qa
      by_cases hin : inside (c.loc p)
      · obtain ⟨hok, c₁, h₁, htr⟩ := play_cons_eq_some_iff.1 hplay
        obtain ⟨l, s, hact, rfl⟩ := step_eq_some_iff.1 h₁
        -- a run from here on that ends outside is one from the beginning
        have hlonger : (∃ tr₁ c₁, tr₁ <+: tr ∧
            M.play ok tr₁ ⟨Function.update c.loc q l, s⟩ = some c₁ ∧ ¬ inside (c₁.loc p)) →
            ∃ tr₁ c₁, tr₁ <+: (q, a) :: tr ∧ M.play ok tr₁ c = some c₁ ∧ ¬ inside (c₁.loc p) := by
          rintro ⟨tr₁, c₁, hprefix, hplay₁, hout⟩
          exact ⟨(q, a) :: tr₁, c₁, (List.prefix_cons_inj _).2 hprefix,
            play_cons_eq_some_iff.2 ⟨hok, _, h₁, hplay₁⟩, hout⟩
        apply hlonger
        by_cases hqp : q = p
        · subst hqp
          rw [List.filter_cons_of_pos (by simp), List.length_cons] at hacts
          by_cases hin' : inside l
          · refine ih htr ?_
            have hlt := hdown hok hact hin hin'
            rw [show (⟨Function.update c.loc q l, s⟩ : Pool P L σ).loc q = l from
              Function.update_self ..]
            omega
          · refine ⟨[], _, List.nil_prefix, rfl, ?_⟩
            rwa [show (⟨Function.update c.loc q l, s⟩ : Pool P L σ).loc q = l from
              Function.update_self ..]
        · rw [List.filter_cons_of_neg (by simpa using hqp)] at hacts
          refine ih htr ?_
          rwa [show (⟨Function.update c.loc q l, s⟩ : Pool P L σ).loc p = c.loc p from
            Function.update_of_ne (Ne.symm hqp) ..]
      · exact ⟨[], c, List.nil_prefix, rfl, hin⟩

/-! ## A token that one process has -/

/-- The token is taken only while it is free, and only the process that has it makes it free.
`W` is what is known of the state of each process. -/
structure Guards (M : Machine P A L σ) (ok : A → L → Bool) (W has : L → Prop) (free : σ → Prop) :
    Prop where
  /-- What is known of a process stays. -/
  known : ∀ {p a l s l' s'}, ok a l → M p a l s = some (l', s') → W l → W l'
  /-- A process that has the token had it, or took it when it was free. -/
  take : ∀ {p a l s l' s'}, ok a l → M p a l s = some (l', s') → W l → has l' → has l ∨ free s
  /-- With a process, the token is not free. -/
  busy : ∀ {p a l s l' s'}, ok a l → M p a l s = some (l', s') → W l → has l' →
    (has l → ¬ free s) → ¬ free s'
  /-- A process that does not have the token does not make it free. -/
  alone : ∀ {p a l s l' s'}, ok a l → M p a l s = some (l', s') → W l → ¬ has l → free s' → free s

/-- At most one process has the token, and then it is not free. -/
structure Exclusive (W has : L → Prop) (free : σ → Prop) (c : Pool P L σ) : Prop where
  /-- What is known of each process. -/
  known : ∀ p, W (c.loc p)
  /-- With a process, the token is not free. -/
  busy : ∀ p, has (c.loc p) → ¬ free c.shared
  /-- Two processes with the token are the same. -/
  unique : ∀ p q, has (c.loc p) → has (c.loc q) → p = q

theorem Guards.step (h : M.Guards ok W has free) {l : L} {s : σ} (hok : ok a (c.loc p))
    (hact : M p a (c.loc p) c.shared = some (l, s)) (hc : Exclusive W has free c) :
    Exclusive W has free ⟨Function.update c.loc p l, s⟩ := by
  have hW := hc.known p
  -- while another process has the token, this one does not, so it stays taken
  have hother : ∀ q, q ≠ p → has (c.loc q) → ¬ has l ∧ ¬ free s := by
    intro q hqp hq
    have hfree := hc.busy q hq
    have hp : ¬ has (c.loc p) := fun hp ↦ hqp (hc.unique q p hq hp)
    exact ⟨fun hl ↦ (h.take hok hact hW hl).elim hp hfree,
      fun hs ↦ hfree (h.alone hok hact hW hp hs)⟩
  refine ⟨?_, ?_, ?_⟩
  · exact forall_update (Q := fun _ l ↦ W l) (h.known hok hact hW) fun q _ ↦ hc.known q
  · exact forall_update (Q := fun _ l ↦ has l → ¬ free s)
      (fun hl ↦ h.busy hok hact hW hl (hc.busy p)) fun q hqp hq ↦ (hother q hqp hq).2
  · intro q r hq hr
    change has (Function.update c.loc p l q) at hq
    change has (Function.update c.loc p l r) at hr
    by_cases hqp : q = p <;> by_cases hrp : r = p
    · rw [hqp, hrp]
    · rw [hqp, Function.update_self] at hq
      rw [Function.update_of_ne hrp] at hr
      exact absurd hq (hother r hrp hr).1
    · rw [Function.update_of_ne hqp] at hq
      rw [hrp, Function.update_self] at hr
      exact absurd hr (hother q hqp hq).1
    · rw [Function.update_of_ne hqp] at hq
      rw [Function.update_of_ne hrp] at hr
      exact hc.unique q r hq hr

/-- **In every run at most one process has the token.** -/
theorem Guards.play (h : M.Guards ok W has free) (tr : List (P × A))
    (hrun : M.play ok tr c = some c') (hc : Exclusive W has free c) : Exclusive W has free c' :=
  play_keeps (fun hok hact hc ↦ h.step hok hact hc) tr hrun hc

/-! ## What the token protects -/

/-- Only the process with the token changes what `view` shows of the shared state.  `G` holds of it
all the time, `V` of each process, and `T` tells what the process with the token knows. -/
structure Protects (M : Machine P A L σ) (ok : A → L → Bool) (W has : L → Prop) (free : σ → Prop)
    (view : σ → D) (G : D → Prop) (V : L → Prop) (T : P → L → D → Prop) : Prop extends
    M.Guards ok W has free where
  /-- A process without the token changes nothing, and this is what it knows if it takes it. -/
  outside : ∀ {p a l s l' s'}, ok a l → M p a l s = some (l', s') → ¬ has l → V l → G (view s) →
    V l' ∧ view s' = view s ∧ (has l' → T p l' (view s))
  /-- A step with the token. -/
  inside : ∀ {p a l s l' s'}, ok a l → M p a l s = some (l', s') → has l → V l → G (view s) →
    T p l (view s) → V l' ∧ G (view s') ∧ (has l' → T p l' (view s'))

/-- The token is with one process, which knows what it protects. -/
structure Safe (W has : L → Prop) (free : σ → Prop) (view : σ → D) (G : D → Prop) (V : L → Prop)
    (T : P → L → D → Prop) (c : Pool P L σ) : Prop extends Exclusive W has free c where
  /-- This holds all the time. -/
  always : G (view c.shared)
  /-- This holds of each process. -/
  each : ∀ p, V (c.loc p)
  /-- What the process with the token knows. -/
  holder : ∀ p, has (c.loc p) → T p (c.loc p) (view c.shared)

variable {view : σ → D} {G : D → Prop} {V : L → Prop} {T : P → L → D → Prop}

theorem Protects.step (h : M.Protects ok W has free view G V T) {l : L} {s : σ}
    (hok : ok a (c.loc p)) (hact : M p a (c.loc p) c.shared = some (l, s))
    (hc : Safe W has free view G V T c) :
    Safe W has free view G V T ⟨Function.update c.loc p l, s⟩ := by
  have hexcl := h.toGuards.step hok hact hc.toExclusive
  by_cases hp : has (c.loc p)
  · obtain ⟨hV, hG, hT⟩ := h.inside hok hact hp (hc.each p) hc.always (hc.holder p hp)
    refine ⟨hexcl, hG, forall_update (Q := fun _ l ↦ V l) hV fun q _ ↦ hc.each q, ?_⟩
    exact forall_update (Q := fun q l ↦ has l → T q l (view s)) hT
      fun q hqp hq ↦ absurd (hc.unique q p hq hp) hqp
  · obtain ⟨hV, hview, hT⟩ := h.outside hok hact hp (hc.each p) hc.always
    rw [← hview] at hT
    refine ⟨hexcl, show G (view s) from hview ▸ hc.always,
      forall_update (Q := fun _ l ↦ V l) hV fun q _ ↦ hc.each q, ?_⟩
    exact forall_update (Q := fun q l ↦ has l → T q l (view s)) hT
      fun q _ hq ↦ hview ▸ hc.holder q hq

/-- **In every run, the process with the token knows what it protects.** -/
theorem Protects.play (h : M.Protects ok W has free view G V T) (tr : List (P × A))
    (hrun : M.play ok tr c = some c') (hc : Safe W has free view G V T c) :
    Safe W has free view G V T c' :=
  play_keeps (fun hok hact hc ↦ h.step hok hact hc) tr hrun hc

end Machine

end Hsfs.Interact
