import Monoloop.Lib.InPlace

/-!
# Pre- and postconditions of methods

A method over mutable state ends in one of two ways, and both leave a state behind:
`Triple P method Q E` says that from `P` the method returns with `Q`, or leaves early
with `E`. One rule for each form a method can have, and the rule of a loop carries an
invariant of the elements done so far.
-/

namespace InPlace

variable {ε σ α β : Type}

/-- From `P` the method returns with `Q` or leaves early with `E`. -/
def Triple (P : σ → Prop) (method : InPlace ε σ α) (Q : α → σ → Prop) (E : σ → Prop) : Prop :=
  ∀ s, P s →
    match call method s with
    | (.ok a, s') => Q a s'
    | (.error _, s') => E s'

variable {P P' : σ → Prop} {Q Q' : α → σ → Prop} {R : β → σ → Prop} {E E' : σ → Prop}
  {method : InPlace ε σ α}

theorem Triple.ok {s s' : σ} {a : α} (h : Triple P method Q E) (hs : P s)
    (hcall : call method s = (.ok a, s')) : Q a s' := by
  have hpost := h s hs
  rw [hcall] at hpost
  exact hpost

theorem Triple.error {s s' : σ} {e : ε} (h : Triple P method Q E) (hs : P s)
    (hcall : call method s = (.error e, s')) : E s' := by
  have hpost := h s hs
  rw [hcall] at hpost
  exact hpost

theorem Triple.consequence (h : Triple P method Q E) (hpre : ∀ s, P' s → P s)
    (hpost : ∀ a s, Q a s → Q' a s) (herror : ∀ s, E s → E' s) : Triple P' method Q' E' := by
  intro s hs
  rcases hcall : call method s with ⟨_ | a, s'⟩
  · exact herror s' (h.error (hpre s hs) hcall)
  · exact hpost a s' (h.ok (hpre s hs) hcall)

theorem Triple.and (h : Triple P method Q E) (h' : Triple P' method Q' E') :
    Triple (fun s => P s ∧ P' s) method (fun a s => Q a s ∧ Q' a s) (fun s => E s ∧ E' s) := by
  rintro s ⟨hs, hs'⟩
  rcases hcall : call method s with ⟨_ | a, s'⟩
  · exact ⟨h.error hs hcall, h'.error hs' hcall⟩
  · exact ⟨h.ok hs hcall, h'.ok hs' hcall⟩

theorem triple_pure {a : α} (h : ∀ s, P s → Q a s) :
    Triple P (pure a : InPlace ε σ α) Q E := h

theorem triple_throw {e : ε} (h : ∀ s, P s → E s) : Triple P (throw e : InPlace ε σ α) Q E := h

theorem triple_get {f : σ → InPlace ε σ α} (h : ∀ s, P s → Triple (Eq s) (f s) Q E) :
    Triple P (get >>= f) Q E := by
  intro s hs
  rw [call_get_bind]
  exact h s hs s rfl

theorem triple_modify {g : σ → σ} {Q : Unit → σ → Prop} (h : ∀ s, P s → Q () (g s)) :
    Triple P (modify g : InPlace ε σ Unit) Q E := h

theorem Triple.bind {f : α → InPlace ε σ β} (h : Triple P method Q E)
    (hf : ∀ a, Triple (Q a) (f a) R E) : Triple P (method >>= f) R E := by
  intro s hs
  rw [call_bind]
  rcases hcall : call method s with ⟨_ | a, s'⟩
  · exact h.error hs hcall
  · exact hf a s' (h.ok hs hcall)

/-- **The rule of a loop**: an invariant of the elements done so far. -/
theorem Triple.forEach {I : List α → σ → Prop} {f : α → InPlace ε σ Unit} {xs : List α}
    (h : ∀ done x todo, xs = done ++ x :: todo →
      Triple (I done) (f x) (fun _ => I (done ++ [x])) E) :
    Triple (I []) (forEach f xs) (fun _ => I xs) E := by
  have hall : ∀ todo done, xs = done ++ todo →
      Triple (I done) (InPlace.forEach f todo) (fun _ => I xs) E := by
    intro todo
    induction todo with
    | nil =>
        intro done hxs
        rw [List.append_nil] at hxs
        rw [hxs]
        exact triple_pure (fun _ hs => hs)
    | cons x todo ih =>
        intro done hxs
        refine (h done x todo hxs).bind (fun _ => ih (done ++ [x]) ?_)
        rw [hxs, List.append_assoc, List.singleton_append]
  exact hall xs [] rfl

end InPlace
