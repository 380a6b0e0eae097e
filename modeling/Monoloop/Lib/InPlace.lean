import Mathlib.Control.Lawful
import Mathlib.Data.List.Induction
import Mathlib.Data.List.Nodup

/-!
# Methods over mutable state that return early

A method of the modelled program mutates its receiver and may return an error.
`InPlace ε σ` is such a method: what it wrote before an early return stays
written, so "an error changes nothing" is a fact to prove and not a property of
the type. `call` runs a method; its equations execute a method statement by
statement under `simp`.
-/

/-- A method over `&mut σ` that may return early with an `ε`. -/
abbrev InPlace (ε σ : Type) := ExceptT ε (StateM σ)

namespace InPlace

variable {ε σ α β : Type}

/-- Result of the call and the state after it. -/
def call (method : InPlace ε σ α) (s : σ) : Except ε α × σ := method.run.run s

variable (s : σ)

@[simp] theorem call_get_bind (f : σ → InPlace ε σ α) : call (get >>= f) s = call (f s) s := rfl

@[simp] theorem call_get : call (get : InPlace ε σ σ) s = (.ok s, s) := rfl

@[simp] theorem call_modify_bind (g : σ → σ) (f : Unit → InPlace ε σ α) :
    call (modify g >>= f) s = call (f ()) (g s) := rfl

@[simp] theorem call_modify (g : σ → σ) :
    call (modify g : InPlace ε σ Unit) s = (.ok (), g s) := rfl

@[simp] theorem call_map_modify (g : σ → σ) (f : Unit → α) :
    call (f <$> modify g : InPlace ε σ α) s = (.ok (f ()), g s) := rfl

@[simp] theorem call_throw (e : ε) : call (throw e : InPlace ε σ α) s = (.error e, s) := rfl

@[simp] theorem call_pure (a : α) : call (pure a : InPlace ε σ α) s = (.ok a, s) := rfl

/-- A call inside a method: an error returns at once, a result is passed on. -/
theorem call_bind (method : InPlace ε σ α) (f : α → InPlace ε σ β) :
    call (method >>= f) s =
      match call method s with
      | (.ok a, s') => call (f a) s'
      | (.error e, s') => (.error e, s') := by
  show (match call method s with
    | (r, s') => StateT.run (ExceptT.run (ExceptT.mk (ExceptT.bindCont f r))) s') = _
  rcases call method s with ⟨r, s'⟩
  cases r <;> rfl

/-! ## Loops -/

/-- A loop over a list whose body may return early. -/
def forEach (f : α → InPlace ε σ Unit) : List α → InPlace ε σ Unit
  | [] => pure ()
  | x :: xs => do
      f x
      forEach f xs

section Loops

variable {f : α → InPlace ε σ Unit}

@[simp] theorem call_forEach_nil : call (forEach f []) s = (.ok (), s) := rfl

theorem call_forEach_cons (x : α) (xs : List α) :
    call (forEach f (x :: xs)) s =
      match call (f x) s with
      | (.ok (), s') => call (forEach f xs) s'
      | (.error e, s') => (.error e, s') := by
  rw [forEach, call_bind]
  rcases call (f x) s with ⟨_ | _, s'⟩ <;> rfl

theorem call_forEach_singleton (x : α) : call (forEach f [x]) s = call (f x) s := by
  rw [call_forEach_cons]
  rcases call (f x) s with ⟨_ | _, s'⟩ <;> rfl

theorem call_forEach_append (xs ys : List α) :
    call (forEach f (xs ++ ys)) s =
      match call (forEach f xs) s with
      | (.ok (), s') => call (forEach f ys) s'
      | (.error e, s') => (.error e, s') := by
  induction xs generalizing s with
  | nil => rfl
  | cons x xs ih =>
      rw [List.cons_append, call_forEach_cons, call_forEach_cons]
      rcases call (f x) s with ⟨_ | _, s'⟩
      · rfl
      · exact ih s'

variable {s}

/-- **The run lemma of a loop**: what holds at the start and is preserved by
every turn that the loop comes to holds when it stops, early or not. -/
theorem forEach_invariant {P : σ → Prop} {xs : List α} (hs : P s)
    (hstep : ∀ p x q s', xs = p ++ x :: q → call (forEach f p) s = (.ok (), s') → P s' →
      P (call (f x) s').2) :
    P (call (forEach f xs) s).2 := by
  induction xs using List.reverseRecOn with
  | nil => exact hs
  | append_singleton xs x ih =>
      have hxs : P (call (forEach f xs) s).2 := by
        apply ih
        intro p y q s' hp
        exact hstep p y (q ++ [x]) s' (by simp [hp])
      rw [call_forEach_append]
      rcases h : call (forEach f xs) s with ⟨_ | _, s'⟩
      · rw [h] at hxs
        exact hxs
      · rw [h] at hxs
        simp only [call_forEach_singleton]
        exact hstep xs x [] s' rfl h hxs

/-- Two loops whose turns agree wherever the first one comes agree. -/
theorem forEach_congr {g : α → InPlace ε σ Unit} {xs : List α}
    (h : ∀ p x q s', xs = p ++ x :: q → call (forEach f p) s = (.ok (), s') →
      call (f x) s' = call (g x) s') :
    call (forEach f xs) s = call (forEach g xs) s := by
  induction xs using List.reverseRecOn with
  | nil => rfl
  | append_singleton xs x ih =>
      have hxs : call (forEach f xs) s = call (forEach g xs) s := by
        apply ih
        intro p y q s' hp
        exact h p y (q ++ [x]) s' (by simp [hp])
      rw [call_forEach_append, call_forEach_append, ← hxs]
      rcases hrun : call (forEach f xs) s with ⟨_ | _, s'⟩
      · rfl
      · simp only [call_forEach_singleton]
        exact h xs x [] s' rfl hrun

/-- A loop all of whose turns do nothing. -/
theorem forEach_idle {xs : List α} (h : ∀ x ∈ xs, call (f x) s = (.ok (), s)) :
    call (forEach f xs) s = (.ok (), s) := by
  induction xs with
  | nil => rfl
  | cons x xs ih =>
      rw [call_forEach_cons, h x List.mem_cons_self]
      exact ih (fun y hy => h y (List.mem_cons_of_mem _ hy))

/-- A loop in which only `r` does anything, and leaves it at that. -/
theorem forEach_only [DecidableEq α] {r : α} {xs : List α} (hnodup : xs.Nodup)
    (hidle : ∀ x ∈ xs, x ≠ r → call (f x) s = (.ok (), s))
    (hafter : ∀ x ∈ xs, x ≠ r → call (f x) (call (f r) s).2 = (.ok (), (call (f r) s).2)) :
    call (forEach f xs) s = if r ∈ xs then call (f r) s else (.ok (), s) := by
  induction xs with
  | nil => rfl
  | cons x xs ih =>
      obtain ⟨hx, hxs⟩ := List.nodup_cons.mp hnodup
      rw [call_forEach_cons]
      by_cases hr : x = r
      · subst hr
        rw [if_pos List.mem_cons_self]
        have hne : ∀ y ∈ xs, y ≠ x := by
          rintro y hy rfl
          exact hx hy
        have hrest : call (forEach f xs) (call (f x) s).2 = (.ok (), (call (f x) s).2) :=
          forEach_idle (fun y hy => hafter y (List.mem_cons_of_mem _ hy) (hne y hy))
        rcases hcall : call (f x) s with ⟨_ | _, s'⟩
        · rfl
        · rw [hcall] at hrest
          exact hrest
      · rw [hidle x List.mem_cons_self hr]
        simp only [List.mem_cons, Ne.symm hr, false_or]
        exact ih hxs (fun y hy => hidle y (List.mem_cons_of_mem _ hy))
          (fun y hy => hafter y (List.mem_cons_of_mem _ hy))

/-- **The order of a loop cannot be seen** when at most one of its turns does
anything. -/
theorem forEach_perm [DecidableEq α] {xs ys : List α} (hperm : xs.Perm ys) (hnodup : xs.Nodup)
    {Busy : α → Prop} (hone : ∀ x ∈ xs, ∀ y ∈ xs, Busy x → Busy y → x = y)
    (hidle : ∀ x ∈ xs, ¬ Busy x → call (f x) s = (.ok (), s))
    (hafter : ∀ r ∈ xs, ∀ x ∈ xs, x ≠ r → ¬ Busy x →
      call (f x) (call (f r) s).2 = (.ok (), (call (f r) s).2)) :
    call (forEach f xs) s = call (forEach f ys) s := by
  by_cases hbusy : ∃ r ∈ xs, Busy r
  · obtain ⟨r, hr, hb⟩ := hbusy
    have hquiet : ∀ x ∈ xs, x ≠ r → ¬ Busy x := by
      intro x hx hne hbx
      exact hne (hone x hx r hr hbx hb)
    rw [forEach_only hnodup (fun x hx hne => hidle x hx (hquiet x hx hne))
        (fun x hx hne => hafter r hr x hx hne (hquiet x hx hne)),
      forEach_only (hperm.nodup_iff.mp hnodup)
        (fun x hx hne => hidle x (hperm.mem_iff.mpr hx) (hquiet x (hperm.mem_iff.mpr hx) hne))
        (fun x hx hne => hafter r hr x (hperm.mem_iff.mpr hx) hne
          (hquiet x (hperm.mem_iff.mpr hx) hne)),
      if_pos hr, if_pos (hperm.mem_iff.mp hr)]
  · have hquiet : ∀ x ∈ xs, ¬ Busy x := by
      intro x hx hb
      exact hbusy ⟨x, hx, hb⟩
    rw [forEach_idle (fun x hx => hidle x hx (hquiet x hx)),
      forEach_idle (fun x hx => hidle x (hperm.mem_iff.mpr hx) (hquiet x (hperm.mem_iff.mpr hx)))]

end Loops

/-! ## The states before and after -/

/-- Whatever the result, a call takes every state to a related one. -/
def Moves (R : σ → σ → Prop) (method : InPlace ε σ α) : Prop := ∀ s, R s (call method s).2

section Moves

variable {R : σ → σ → Prop} {method : InPlace ε σ α} {f : α → InPlace ε σ β}

theorem Moves.bind (htrans : ∀ s t u, R s t → R t u → R s u) (h : Moves R method)
    (hf : ∀ a, Moves R (f a)) : Moves R (method >>= f) := by
  intro s
  have hs := h s
  rw [call_bind]
  rcases hcall : call method s with ⟨e | a, s'⟩
  · rw [hcall] at hs
    exact hs
  · rw [hcall] at hs
    exact htrans s s' _ hs (hf a s')

theorem Moves.forEach (hrefl : ∀ s, R s s) (htrans : ∀ s t u, R s t → R t u → R s u)
    {g : α → InPlace ε σ Unit} (xs : List α) (h : ∀ x ∈ xs, Moves R (g x)) :
    Moves R (forEach g xs) := by
  induction xs with
  | nil => exact hrefl
  | cons x xs ih =>
      exact Moves.bind htrans (h x List.mem_cons_self)
        (fun _ => ih (fun y hy => h y (List.mem_cons_of_mem _ hy)))

end Moves

end InPlace

/-! ## Checks that return early -/

namespace Except

variable {ε α β : Type}

theorem bind_eq_ok {x : Except ε α} {f : α → Except ε β} {b : β} :
    x >>= f = .ok b ↔ ∃ a, x = .ok a ∧ f a = .ok b := by
  cases x with
  | ok a => simp [bind, Except.bind]
  | error e => simp [bind, Except.bind]

theorem bind_eq_error {x : Except ε α} {f : α → Except ε β} {e : ε} :
    x >>= f = .error e ↔ x = .error e ∨ ∃ a, x = .ok a ∧ f a = .error e := by
  cases x with
  | ok a => simp [bind, Except.bind]
  | error e' => simp [bind, Except.bind]

end Except
