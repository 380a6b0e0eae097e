import Mathlib.Logic.Basic

/-!
# Transition systems with guarded runs

A system is an initial condition and an executable, partial step function:
`step a s` is `some s'` when action `a` is enabled in `s`. Nondeterminism of
the modelled program lives in the choice of action, so one definition serves
replay (`run`, checked by `decide`) and proof (`Reach`).

`Reach ok` is reachability through steps that all meet a side condition
`ok s a` on the state before the step and the action taken. A statement about
"every run in which ..." is a statement about `Reach ok`; the unconditional
one is `Reach always`.

`Reach.project` is the rule for a system made of many instances of one small
machine: an invariant of the projections is established on the small machine.
`Reach.simulate` is the rule for two levels of one design: what the upper one reaches.
-/

namespace Transition

/-- An initial condition and a partial step function. -/
structure System (σ α : Type) where
  init : σ → Prop
  step : α → σ → Option σ

/-- The side condition that admits every step. -/
def always {σ α : Type} (_ : σ) (_ : α) : Prop := True

namespace System

variable {σ α : Type} (M : System σ α)

/-- States reachable through steps that all satisfy `ok`. -/
inductive Reach (ok : σ → α → Prop) : σ → Prop where
  | init {s} : M.init s → Reach ok s
  | step {s a s'} : Reach ok s → ok s a → M.step a s = some s' → Reach ok s'

/-- Replay a list of actions; `none` as soon as one is disabled. -/
def run : List α → σ → Option σ
  | [], s => some s
  | a :: rest, s => (M.step a s).bind (run rest)

/-- Replay that also checks the side condition before every step. -/
def runWhere (ok : σ → α → Prop) [∀ s a, Decidable (ok s a)] : List α → σ → Option σ
  | [], s => some s
  | a :: rest, s =>
      if ok s a then (M.step a s).bind (runWhere ok rest) else none

variable {M}

/-- A weaker side condition reaches at least as much. -/
theorem Reach.mono {ok ok' : σ → α → Prop} (hok : ∀ s a, ok s a → ok' s a) {s : σ}
    (h : M.Reach ok s) : M.Reach ok' s := by
  induction h with
  | init hi => exact .init hi
  | step _ ha hs ih => exact .step ih (hok _ _ ha) hs

/-- The side condition may be traded for one that follows from it along the run. -/
theorem Reach.strengthen {ok ok' : σ → α → Prop}
    (hok : ∀ s a, M.Reach ok s → ok s a → ok' s a) {s : σ} (h : M.Reach ok s) :
    M.Reach ok' s := by
  induction h with
  | init hi => exact .init hi
  | step hr ha hs ih => exact .step ih (hok _ _ hr ha) hs

theorem Reach.forget {ok : σ → α → Prop} {s : σ} (h : M.Reach ok s) : M.Reach always s :=
  h.mono (fun _ _ _ => trivial)

/-- **The invariant rule.** The step premise may use that the state before the
step is itself reachable, so earlier invariants are available by name. -/
theorem Reach.invariant {ok : σ → α → Prop} {P : σ → Prop}
    (hinit : ∀ s, M.init s → P s)
    (hstep : ∀ s a s', M.Reach ok s → P s → ok s a → M.step a s = some s' → P s')
    {s : σ} (h : M.Reach ok s) : P s := by
  induction h with
  | init hi => exact hinit _ hi
  | step hr ha hs ih => exact hstep _ _ _ hr ih ha hs

/-- **The projection rule.** Every global step moves the view of instance `i`
along `local`, so what `local` preserves holds of every view of every
reachable state. -/
theorem Reach.project {ι ν : Type} {ok : σ → α → Prop} (view : σ → ι → ν)
    (move : σ → α → ι → ν → ν → Prop) {I : ι → ν → Prop}
    (hinit : ∀ s i, M.init s → I i (view s i))
    (hsim : ∀ s a s' i, M.Reach ok s → ok s a → M.step a s = some s' →
      move s a i (view s i) (view s' i))
    (hkeep : ∀ s a i v, M.Reach ok s → ok s a → v = view s i → I i v →
      ∀ v', move s a i v v' → I i v')
    {s : σ} (h : M.Reach ok s) (i : ι) : I i (view s i) := by
  induction h generalizing i with
  | init hi => exact hinit _ i hi
  | step hr ha hs ih =>
      exact hkeep _ _ i _ hr ha rfl (ih i) _ (hsim _ _ _ i hr ha hs)

/-- **The simulation rule.** Where every step is a step of `N` between the views, or none,
`N` reaches the views. -/
theorem Reach.simulate {τ β : Type} {N : System τ β} {ok : σ → α → Prop} {okN : τ → β → Prop}
    (view : σ → τ) (hinit : ∀ s, M.init s → N.init (view s))
    (hsim : ∀ s a s', M.Reach ok s → ok s a → M.step a s = some s' →
      view s' = view s ∨ ∃ b, okN (view s) b ∧ N.step b (view s) = some (view s'))
    {s : σ} (h : M.Reach ok s) : N.Reach okN (view s) := by
  induction h with
  | init hi => exact .init (hinit _ hi)
  | step hr ha hs ih =>
      rcases hsim _ _ _ hr ha hs with hsame | ⟨b, hb, hstep⟩
      · rw [hsame]
        exact ih
      · exact .step ih hb hstep

theorem run_reach {s s' : σ} {as : List α} (hs : M.Reach always s)
    (h : M.run as s = some s') : M.Reach always s' := by
  induction as generalizing s with
  | nil =>
      cases h
      exact hs
  | cons a rest ih =>
      simp only [run, Option.bind_eq_some_iff] at h
      obtain ⟨s₁, hs₁, hrest⟩ := h
      exact ih (.step hs trivial hs₁) hrest

theorem runWhere_reach {ok : σ → α → Prop} [∀ s a, Decidable (ok s a)] {s s' : σ}
    {as : List α} (hs : M.Reach ok s) (h : M.runWhere ok as s = some s') :
    M.Reach ok s' := by
  induction as generalizing s with
  | nil =>
      cases h
      exact hs
  | cons a rest ih =>
      simp only [runWhere] at h
      split at h
      · rename_i hok
        obtain ⟨s₁, hs₁, hrest⟩ := Option.bind_eq_some_iff.mp h
        exact ih (.step hs hok hs₁) hrest
      · cases h

theorem run_append (as bs : List α) (s : σ) :
    M.run (as ++ bs) s = (M.run as s).bind (M.run bs) := by
  induction as generalizing s with
  | nil => rfl
  | cons a rest ih =>
      simp only [List.cons_append, run, Option.bind_assoc]
      congr 1
      funext s₁
      exact ih s₁

variable (M) in
/-- `P` holds in every state a run passes through. -/
def Throughout (P : σ → Prop) : List α → σ → Prop
  | [], s => P s
  | a :: rest, s => P s ∧ ∀ s', M.step a s = some s' → Throughout P rest s'

variable (M) in
/-- Every step of a run meets the side condition in the state it is taken in. -/
def StepsMeet (ok : σ → α → Prop) : List α → σ → Prop
  | [], _ => True
  | a :: rest, s => ok s a ∧ ∀ s', M.step a s = some s' → StepsMeet ok rest s'

/-- The invariant rule along a run whose steps all meet a side condition. -/
theorem run_invariant {ok : σ → α → Prop} {P : σ → Prop}
    (hstep : ∀ s a s', P s → ok s a → M.step a s = some s' → P s') {s s' : σ} {as : List α}
    (hs : P s) (hrun : M.run as s = some s') (hok : M.StepsMeet ok as s) : P s' := by
  induction as generalizing s with
  | nil =>
      cases hrun
      exact hs
  | cons a rest ih =>
      obtain ⟨s₁, hs₁, hrest⟩ := Option.bind_eq_some_iff.mp hrun
      exact ih (hstep s a s₁ hs hok.1 hs₁) hrest (hok.2 s₁ hs₁)

/-- **The counting rule.** A rank that no step raises, and the counted ones lower, bounds
how many of these a run takes. -/
theorem run_countP_le {counted : α → Bool} {rank : σ → Nat}
    (hstep : ∀ s a s', M.step a s = some s' → rank s' + (counted a).toNat ≤ rank s)
    {s s' : σ} {as : List α} (hrun : M.run as s = some s') :
    as.countP counted + rank s' ≤ rank s := by
  induction as generalizing s with
  | nil =>
      cases hrun
      exact Nat.le_of_eq (Nat.zero_add _)
  | cons a rest ih =>
      obtain ⟨s₁, hs₁, hrest⟩ := Option.bind_eq_some_iff.mp hrun
      have hfirst := hstep s a s₁ hs₁
      have hlater := ih hrest
      rw [List.countP_cons]
      cases hcounted : counted a with
      | false =>
          rw [hcounted, Bool.toNat_false] at hfirst
          rw [if_neg Bool.false_ne_true]
          omega
      | true =>
          rw [hcounted, Bool.toNat_true] at hfirst
          rw [if_pos rfl]
          omega

/-- A guarded replay is a replay whose steps all meet the guard. -/
theorem runWhere_some {ok : σ → α → Prop} [∀ s a, Decidable (ok s a)] {s s' : σ}
    {as : List α} (h : M.runWhere ok as s = some s') :
    M.run as s = some s' ∧ M.StepsMeet ok as s := by
  induction as generalizing s with
  | nil => exact ⟨h, trivial⟩
  | cons a rest ih =>
      simp only [runWhere] at h
      split at h
      · rename_i hok
        obtain ⟨s₁, hs₁, hrest⟩ := Option.bind_eq_some_iff.mp h
        obtain ⟨hrun, hmeets⟩ := ih hrest
        refine ⟨Option.bind_eq_some_iff.mpr ⟨s₁, hs₁, hrun⟩, hok, ?_⟩
        intro s₂ hs₂
        obtain rfl : s₁ = s₂ := Option.some.inj (hs₁.symm.trans hs₂)
        exact hmeets
      · cases h

/-- **An exact side condition.** `ok` keeps the invariant behind `P`, and a step that
does not meet it ends in a state without `P`. -/
theorem throughout_iff {ok : σ → α → Prop} {I P : σ → Prop} (hP : ∀ s, I s → P s)
    (hkeep : ∀ s a s', I s → ok s a → M.step a s = some s' → I s')
    (hbreak : ∀ s a s', I s → ¬ ok s a → M.step a s = some s' → ¬ P s')
    {s s' : σ} {as : List α} (hs : I s) (hrun : M.run as s = some s') :
    M.Throughout P as s ↔ M.StepsMeet ok as s := by
  induction as generalizing s with
  | nil => exact ⟨fun _ => trivial, fun _ => hP s hs⟩
  | cons a rest ih =>
      obtain ⟨s₁, hs₁, hrest⟩ := Option.bind_eq_some_iff.mp hrun
      constructor
      · intro hall
        have hok : ok s a := by
          apply Classical.byContradiction
          intro hnot
          have hlater := hall.2 s₁ hs₁
          apply hbreak s a s₁ hs hnot hs₁
          cases rest with
          | nil => exact hlater
          | cons b tail => exact hlater.1
        refine ⟨hok, ?_⟩
        intro s₂ hs₂
        obtain rfl : s₁ = s₂ := Option.some.inj (hs₁.symm.trans hs₂)
        exact (ih (hkeep s a s₁ hs hok hs₁) hrest).mp (hall.2 s₁ hs₁)
      · intro hmeets
        refine ⟨hP s hs, ?_⟩
        intro s₂ hs₂
        obtain rfl : s₁ = s₂ := Option.some.inj (hs₁.symm.trans hs₂)
        exact (ih (hkeep s a s₁ hs hmeets.1 hs₁) hrest).mpr (hmeets.2 s₁ hs₁)

/-- A replay that ends in a state satisfying a decidable test gives a
reachable state satisfying it. -/
theorem exists_of_run {s₀ : σ} (h₀ : M.init s₀) (as : List α) (p : σ → Bool)
    (h : (M.run as s₀).any p = true) : ∃ s, M.Reach always s ∧ p s = true := by
  cases hr : M.run as s₀ with
  | none => simp [hr] at h
  | some s =>
      rw [hr] at h
      exact ⟨s, run_reach (.init h₀) hr, h⟩

/-- The guarded form of `exists_of_run`. -/
theorem exists_of_runWhere (ok : σ → α → Prop) [∀ s a, Decidable (ok s a)] {s₀ : σ}
    (h₀ : M.init s₀) (as : List α) (p : σ → Bool)
    (h : (M.runWhere ok as s₀).any p = true) : ∃ s, M.Reach ok s ∧ p s = true := by
  cases hr : M.runWhere ok as s₀ with
  | none => simp [hr] at h
  | some s =>
      rw [hr] at h
      exact ⟨s, runWhere_reach (.init h₀) hr, h⟩

end System

end Transition
