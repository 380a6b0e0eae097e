import Mathlib.Data.List.Induction

/-!
# Fallible transducers fed in chunks

A transducer consumes one symbol at a time, gives out some items or fails. Its
user feeds it chunks, and two things make the chunks visible. The items given
out inside a chunk are handed on only when the whole chunk went through, so an
error takes the chunk's items with it. And the transducer may have reached its
end, which is looked at before a chunk and not inside it.

`feed_independent_iff` says exactly when neither is seen: nothing was given out
before an error, and past the end the remaining symbols do nothing.
-/

namespace Transducer

variable {σ α ε φ : Type}

/-- Go on with what was given out so far; an error takes it along. -/
def andThen (r : Except ε (σ × List φ)) (k : σ → Except ε (σ × List φ)) :
    Except ε (σ × List φ) :=
  match r with
  | .error e => .error e
  | .ok (s, out) =>
      match k s with
      | .error e => .error e
      | .ok (s', out') => .ok (s', out ++ out')

@[simp] theorem andThen_error (e : ε) (k : σ → Except ε (σ × List φ)) :
    andThen (.error e) k = .error e := rfl

@[simp] theorem andThen_ok_nil (s : σ) (k : σ → Except ε (σ × List φ)) :
    andThen (.ok (s, [])) k = k s := by
  simp only [andThen]
  cases k s <;> rfl

@[simp] theorem andThen_ok_right (r : Except ε (σ × List φ)) :
    andThen r (fun s => .ok (s, [])) = r := by
  cases r with
  | error e => rfl
  | ok r => simp [andThen]

theorem andThen_assoc (r : Except ε (σ × List φ)) (k l : σ → Except ε (σ × List φ)) :
    andThen (andThen r k) l = andThen r (fun s => andThen (k s) l) := by
  cases r with
  | error e => rfl
  | ok r =>
      simp only [andThen]
      cases k r.1 with
      | error e => rfl
      | ok r' =>
          simp only
          cases l r'.1 with
          | error e => rfl
          | ok r'' => simp only [List.append_assoc]

theorem andThen_eq_ok {r : Except ε (σ × List φ)} {k : σ → Except ε (σ × List φ)} {s : σ}
    {out : List φ} (h : andThen r k = .ok (s, out)) :
    ∃ s₁ out₁ out₂, r = .ok (s₁, out₁) ∧ k s₁ = .ok (s, out₂) ∧ out = out₁ ++ out₂ := by
  cases r with
  | error e => cases h
  | ok r =>
      simp only [andThen] at h
      cases hk : k r.1 with
      | error e =>
          rw [hk] at h
          cases h
      | ok r' =>
          rw [hk] at h
          cases h
          exact ⟨r.1, r.2, r'.2, rfl, hk, rfl⟩

/-- One fallible step with output. -/
abbrev Step (σ α ε φ : Type) := σ → α → Except ε (σ × List φ)

/-- The steps of a list of symbols, their output collected. -/
def run (step : Step σ α ε φ) (s : σ) : List α → Except ε (σ × List φ)
  | [] => .ok (s, [])
  | x :: xs => andThen (step s x) (fun s' => run step s' xs)

/-- Feed chunks. What is handed on, and the final state or the error. -/
def feed (step : Step σ α ε φ) (ended : σ → Bool) (s : σ) :
    List (List α) → List φ × Except ε σ
  | [] => ([], .ok s)
  | c :: cs =>
      if ended s then feed step ended s cs
      else
        match run step s c with
        | .error e => ([], .error e)
        | .ok (s', out) =>
            let r := feed step ended s' cs
            (out ++ r.1, r.2)

section Run

variable (step : Step σ α ε φ)

theorem run_append (s : σ) (xs ys : List α) :
    run step s (xs ++ ys) = andThen (run step s xs) (fun s' => run step s' ys) := by
  induction xs generalizing s with
  | nil => simp [run]
  | cons x xs ih => simp only [List.cons_append, run, ih, andThen_assoc]

theorem run_singleton (s : σ) (x : α) : run step s [x] = step s x := by simp [run]

variable {step}

/-- What every step preserves, a run preserves. -/
theorem run_invariant {P : σ → Prop} (hstep : ∀ s x s' out, P s → step s x = .ok (s', out) → P s')
    {s s' : σ} {xs : List α} {out : List φ} (hs : P s) (h : run step s xs = .ok (s', out)) :
    P s' := by
  induction xs generalizing s out with
  | nil =>
      cases h
      exact hs
  | cons x xs ih =>
      obtain ⟨s₁, out₁, out₂, hx, hrest, -⟩ := andThen_eq_ok h
      exact ih (hstep _ _ _ _ hs hx) hrest

theorem run_map {β : Type} (f : β → α) (s : σ) (xs : List β) :
    run step s (xs.map f) = run (fun s x => step s (f x)) s xs := by
  induction xs generalizing s with
  | nil => rfl
  | cons x xs ih => simp only [List.map_cons, run, ih]

/-- A step that is itself a run of smaller steps, repeated, is one run of them. -/
theorem run_flatMap {β : Type} {big : Step σ β ε φ} {f : β → List α} {P : σ → Prop}
    (hbig : ∀ s b, P s → big s b = run step s (f b))
    (hP : ∀ s b s' out, P s → big s b = .ok (s', out) → P s') {s : σ} (hs : P s)
    (bs : List β) : run big s bs = run step s (bs.flatMap f) := by
  induction bs generalizing s with
  | nil => rfl
  | cons b bs ih =>
      rw [run, List.flatMap_cons, run_append, ← hbig s b hs]
      cases hb : big s b with
      | error e => rfl
      | ok r => simp only [andThen, ih (hP _ _ _ _ hs hb)]

/-- An error happens at some symbol, the ones before it having gone through. -/
theorem run_error {s : σ} {xs : List α} {e : ε} (h : run step s xs = .error e) :
    ∃ p x q s' out, xs = p ++ x :: q ∧ run step s p = .ok (s', out) ∧ step s' x = .error e := by
  induction xs generalizing s with
  | nil => cases h
  | cons x xs ih =>
      simp only [run] at h
      cases hx : step s x with
      | error e' =>
          rw [hx] at h
          cases h
          exact ⟨[], x, xs, s, [], rfl, rfl, hx⟩
      | ok r =>
          rw [hx] at h
          cases hxs : run step r.1 xs with
          | ok r' =>
              simp only [andThen, hxs] at h
              cases h
          | error e' =>
              simp only [andThen, hxs] at h
              cases h
              obtain ⟨p, y, q, s', out, rfl, hp, hy⟩ := ih hxs
              refine ⟨x :: p, y, q, s', r.2 ++ out, rfl, ?_, hy⟩
              simp only [run, hx, andThen, hp]

/-- Two runs whose steps agree wherever the first one comes agree. -/
theorem run_congr {step' : Step σ α ε φ} {s : σ} {xs : List α}
    (h : ∀ p x q s' out, xs = p ++ x :: q → run step s p = .ok (s', out) →
      step s' x = step' s' x) : run step s xs = run step' s xs := by
  induction xs generalizing s with
  | nil => rfl
  | cons x xs ih =>
      have hx := h [] x xs s [] rfl rfl
      rw [run, run, ← hx]
      cases hs : step s x with
      | error e => rfl
      | ok r =>
          have hrest : run step r.1 xs = run step' r.1 xs := by
            apply ih
            intro p y q s' out hxs hp
            apply h (x :: p) y q s' (r.2 ++ out) (by rw [hxs]; rfl)
            simp only [run, hs, andThen, hp]
          simp only [andThen, hrest]

/-- A run all of whose steps do nothing. -/
theorem run_idle {s : σ} {xs : List α} (h : ∀ x ∈ xs, step s x = .ok (s, [])) :
    run step s xs = .ok (s, []) := by
  induction xs with
  | nil => rfl
  | cons x xs ih =>
      rw [run, h x List.mem_cons_self, andThen_ok_nil]
      exact ih (fun y hy => h y (List.mem_cons_of_mem _ hy))

/-- A run in which only `r` does anything, and leaves it at that. -/
theorem run_only [DecidableEq α] {s : σ} {r : α} {xs : List α} (hnodup : xs.Nodup)
    (hidle : ∀ x ∈ xs, x ≠ r → step s x = .ok (s, []))
    (hafter : ∀ s' out, step s r = .ok (s', out) → ∀ x ∈ xs, x ≠ r → step s' x = .ok (s', [])) :
    run step s xs = if r ∈ xs then step s r else .ok (s, []) := by
  induction xs with
  | nil => rfl
  | cons x xs ih =>
      obtain ⟨hx, hxs⟩ := List.nodup_cons.mp hnodup
      rw [run]
      by_cases hr : x = r
      · subst hr
        rw [if_pos List.mem_cons_self]
        cases hs : step s x with
        | error e => rfl
        | ok p =>
            obtain ⟨s', out⟩ := p
            have hrest : run step s' xs = .ok (s', []) := by
              apply run_idle
              intro y hy
              apply hafter s' out hs y (List.mem_cons_of_mem _ hy)
              rintro rfl
              exact hx hy
            simp only [andThen, hrest, List.append_nil]
      · rw [hidle x List.mem_cons_self hr, andThen_ok_nil]
        simp only [List.mem_cons, Ne.symm hr, false_or]
        exact ih hxs (fun y hy => hidle y (List.mem_cons_of_mem _ hy))
          (fun s' out hs y hy => hafter s' out hs y (List.mem_cons_of_mem _ hy))

/-- What goes wrong in a part goes wrong in the whole. -/
theorem run_append_error {s : σ} {xs : List α} {e : ε} (h : run step s xs = .error e)
    (ys : List α) : run step s (xs ++ ys) = .error e := by
  rw [run_append, h, andThen_error]

end Run

/-- Cutting the symbols differently cannot be seen: nothing was given out before
an error, and past the end the symbols do nothing. -/
structure Smooth (step : Step σ α ε φ) (ended : σ → Bool) (s : σ) (xs : List α) : Prop where
  silent : ∀ p x q s' out e, xs = p ++ x :: q → run step s p = .ok (s', out) →
    ended s' = false → step s' x = .error e → out = []
  inert : ∀ p x q s' out, xs = p ++ x :: q → run step s p = .ok (s', out) →
    ended s' = true → step s' x = .ok (s', [])

variable {step : Step σ α ε φ} {ended : σ → Bool}

/-- What is left after a part that went through. -/
theorem Smooth.drop {s s' : σ} {xs ys : List α} {out : List φ}
    (h : Smooth step ended s (xs ++ ys)) (hrun : run step s xs = .ok (s', out)) :
    Smooth step ended s' ys where
  silent := by
    intro p x q s'' out' e hys hp hend hx
    have hall : run step s (xs ++ p) = .ok (s'', out ++ out') := by
      rw [run_append, hrun]
      simp only [andThen, hp]
    have hout := h.silent (xs ++ p) x q s'' (out ++ out') e (by rw [hys, List.append_assoc]) hall
      hend hx
    exact (List.append_eq_nil_iff.mp hout).2
  inert := by
    intro p x q s'' out' hys hp hend
    have hall : run step s (xs ++ p) = .ok (s'', out ++ out') := by
      rw [run_append, hrun]
      simp only [andThen, hp]
    exact h.inert (xs ++ p) x q s'' (out ++ out') (by rw [hys, List.append_assoc]) hall hend

/-- Past the end nothing happens any more. -/
theorem Smooth.run_ended {s : σ} {xs : List α} (h : Smooth step ended s xs)
    (hend : ended s = true) : run step s xs = .ok (s, []) := by
  induction xs with
  | nil => rfl
  | cons x xs ih =>
      have hx := h.inert [] x xs s [] rfl rfl hend
      have hone : run step s [x] = .ok (s, []) := by rw [run_singleton, hx]
      have hrest : Smooth step ended s xs := h.drop hone
      rw [run, hx, andThen_ok_nil, ih hrest]

/-- An error of a smooth list comes before anything is given out. -/
theorem Smooth.error_silent {s s' : σ} {xs ys : List α} {out : List φ} {e : ε}
    (h : Smooth step ended s (xs ++ ys)) (hrun : run step s xs = .ok (s', out))
    (herr : run step s' ys = .error e) : out = [] := by
  obtain ⟨p, x, q, s'', out', rfl, hp, hx⟩ := run_error herr
  have hall : run step s (xs ++ p) = .ok (s'', out ++ out') := by
    rw [run_append, hrun]
    simp only [andThen, hp]
  cases hend : ended s'' with
  | true =>
      -- past the end the symbol would have done nothing
      have hok := h.inert (xs ++ p) x q s'' _ (by rw [List.append_assoc]) hall hend
      rw [hx] at hok
      cases hok
  | false =>
      have hout := h.silent (xs ++ p) x q s'' _ e (by rw [List.append_assoc]) hall hend hx
      exact (List.append_eq_nil_iff.mp hout).1

theorem feed_ended {s : σ} (hend : ended s = true) (cs : List (List α)) :
    feed step ended s cs = ([], .ok s) := by
  induction cs with
  | nil => rfl
  | cons c cs ih => rw [feed, if_pos hend, ih]

/-- The chunks of a smooth list may be joined. -/
theorem Smooth.feed_eq {s : σ} {cs : List (List α)} (h : Smooth step ended s cs.flatten) :
    feed step ended s cs = feed step ended s [cs.flatten] := by
  induction cs generalizing s with
  | nil =>
      by_cases hend : ended s = true
      · rw [feed_ended hend, feed_ended hend]
      · simp [feed, hend, run]
  | cons c cs ih =>
      by_cases hend : ended s = true
      · rw [feed_ended hend, feed_ended hend]
      · rw [List.flatten_cons] at h ⊢
        rw [feed, if_neg hend, feed, if_neg hend]
        cases hc : run step s c with
        | error e => rw [run_append_error hc]
        | ok r =>
            obtain ⟨s', out⟩ := r
            rw [run_append, hc]
            simp only [andThen, ih (h.drop hc)]
            by_cases hend' : ended s' = true
            · rw [feed_ended hend', (h.drop hc).run_ended hend']
              simp [feed]
            · rw [feed, if_neg hend']
              cases hrest : run step s' cs.flatten with
              | error e => simp [h.error_silent hc hrest]
              | ok r => simp [feed]

/-- The end is not reached before the last symbol. -/
def EndsLast (step : Step σ α ε φ) (ended : σ → Bool) (s : σ) (xs : List α) : Prop :=
  ∀ p q t out, xs = p ++ q → q ≠ [] → run step s p = .ok (t, out) → ended t = false

/-- A part that goes through without the end, and one more symbol. -/
theorem endsLast_snoc (hmono : ∀ s x s' out, ended s = true → step s x = .ok (s', out) →
      ended s' = true) {s t : σ} {xs : List α} {out : List φ} (hrun : run step s xs = .ok (t, out))
    (hopen : ended t = false) (x : α) : EndsLast step ended s (xs ++ [x]) := by
  intro p q t' out' hxs hq hp
  obtain ⟨q', rfl⟩ : ∃ q', xs = p ++ q' := by
    cases q using List.reverseRecOn with
    | nil => exact absurd rfl hq
    | append_singleton q' y =>
        rw [← List.append_assoc] at hxs
        exact ⟨q', (List.append_inj' hxs rfl).1⟩
  cases hend : ended t' with
  | false => rfl
  | true =>
      -- the end would have stayed
      rw [run_append, hp] at hrun
      obtain ⟨_, _, _, hfirst, hrest, -⟩ := andThen_eq_ok hrun
      cases hfirst
      have hstay := run_invariant (P := fun s => ended s = true) hmono hend hrest
      rw [hopen] at hstay
      cases hstay

theorem EndsLast.append {s : σ} {xs ys : List α} (h : EndsLast step ended s xs)
    (hrest : ∀ t out, run step s xs = .ok (t, out) → ended t = false ∧ EndsLast step ended t ys) :
    EndsLast step ended s (xs ++ ys) := by
  intro p q t out hpq hq hp
  rcases List.append_eq_append_iff.mp hpq with ⟨p', rfl, hys⟩ | ⟨q', rfl, hys⟩
  · rw [run_append] at hp
    obtain ⟨t₁, out₁, out₂, hfirst, hlast, -⟩ := andThen_eq_ok hp
    exact (hrest t₁ out₁ hfirst).2 p' q t out₂ hys hq hlast
  · cases q' with
    | nil =>
        rw [List.append_nil] at hrest
        exact (hrest t out hp).1
    | cons x q' => exact h p (x :: q') t out rfl (by simp) hp

/-- **Where the end comes last, every way to cut a list that goes through feeds the
same.** -/
theorem EndsLast.feed_ok {s t : σ} {out : List φ} {cs : List (List α)}
    (h : EndsLast step ended s cs.flatten) (hrun : run step s cs.flatten = .ok (t, out)) :
    feed step ended s cs = (out, .ok t) := by
  have hsmooth : Smooth step ended s cs.flatten := by
    constructor
    · intro p x q s' out' e hxs hp _ hx
      have hbad : run step s (p ++ x :: q) = .error e := by
        rw [run_append, hp]
        simp only [andThen, run, hx]
      rw [← hxs, hrun] at hbad
      cases hbad
    · intro p x q s' out' hxs hp hend
      rw [h p (x :: q) s' out' hxs (by simp) hp] at hend
      cases hend
  rw [hsmooth.feed_eq]
  by_cases hend : ended s = true
  · rw [hsmooth.run_ended hend] at hrun
    cases hrun
    exact feed_ended hend _
  · simp [feed, hend, hrun]

/-- Nor can the cut change how it ends. -/
theorem EndsLast.feed_snd {s : σ} {cs : List (List α)} (h : EndsLast step ended s cs.flatten) :
    (feed step ended s cs).2 = (run step s cs.flatten).map Prod.fst := by
  induction cs generalizing s with
  | nil => rfl
  | cons c cs ih =>
      rw [List.flatten_cons] at h ⊢
      by_cases hend : ended s = true
      · have hnil : c ++ cs.flatten = [] := by
          by_contra hne
          have hopen := h [] _ s [] rfl hne rfl
          rw [hend] at hopen
          cases hopen
        rw [feed_ended hend, hnil]
        rfl
      · rw [feed, if_neg hend, run_append]
        cases hc : run step s c with
        | error e => rfl
        | ok r =>
            have hrest : EndsLast step ended r.1 cs.flatten := by
              intro p q t out hpq hq hp
              refine h (c ++ p) q t (r.2 ++ out) (by rw [hpq, List.append_assoc]) hq ?_
              rw [run_append, hc]
              simp only [andThen, hp]
            simp only [andThen, ih hrest]
            cases run step r.1 cs.flatten with
            | error e => rfl
            | ok r' => rfl

/-- **When the chunks cannot be seen.** The end, once reached, must stay. -/
theorem feed_independent_iff (hmono : ∀ s x s' out, ended s = true → step s x = .ok (s', out) →
      ended s' = true) {s : σ} (hstart : ended s = false) (xs : List α) :
    (∀ cs ds : List (List α), cs.flatten = xs → ds.flatten = xs →
      feed step ended s cs = feed step ended s ds) ↔ Smooth step ended s xs := by
  constructor
  · intro h
    constructor
    · intro p x q s' out e hxs hp hend hx
      -- cut before the failing symbol, or not at all
      have hcut := h [p, x :: q] [p ++ x :: q] (by simp [hxs]) (by simp [hxs])
      have hbad : run step s' (x :: q) = .error e := by rw [run, hx, andThen_error]
      simp only [feed, hstart, hend, hp, hbad, run_append, andThen, Bool.false_eq_true,
        if_false, List.append_nil] at hcut
      exact (Prod.mk.inj hcut).1
    · intro p x q s' out hxs hp hend
      -- cut right at the end, or one symbol later
      have hcut := h [p, x :: q] [p ++ [x], q] (by simp [hxs]) (by simp [hxs])
      have hleft : feed step ended s [p, x :: q] = (out, .ok s') := by
        rw [feed, if_neg (by simp [hstart]), hp]
        simp only [feed_ended hend, List.append_nil]
      have hright : feed step ended s [p ++ [x], q] =
          match step s' x with
          | .error e => ([], .error e)
          | .ok (s'', out') => (out ++ out', .ok s'') := by
        rw [feed, if_neg (by simp [hstart]), run_append, hp]
        simp only [run_singleton, andThen]
        cases hx : step s' x with
        | error e => rfl
        | ok r => simp only [feed_ended (hmono _ _ _ _ hend hx), List.append_nil]
      rw [hleft, hright] at hcut
      cases hx : step s' x with
      | error e =>
          rw [hx] at hcut
          cases (Prod.mk.inj hcut).2
      | ok r =>
          rw [hx] at hcut
          obtain ⟨hout, hstate⟩ := Prod.mk.inj hcut
          cases hstate
          exact congrArg Except.ok (Prod.ext rfl (List.self_eq_append_right.mp hout))
  · intro h cs ds hcs hds
    subst hcs
    rw [h.feed_eq, (hds ▸ h : Smooth step ended s ds.flatten).feed_eq, hds]

end Transducer
