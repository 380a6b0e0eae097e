import Mathlib.Data.List.Induction

/-!
# Logs numbered by lane

An entry of a log has a key, a lane, and an ordinal in its lane. Some entries
advance the counter of their lane and the others carry its present value
(`Numbered`). An entry is new when its key is; the ordinals of new entries
strictly increase by lane (`Strict`) exactly when every new entry that does not
advance opens its lane (`Opening`).
-/

namespace Numbering

/-- What is read off an entry. -/
structure Scheme (ε κ γ : Type) where
  key : ε → κ
  lane : ε → γ
  ordinal : ε → Nat
  advances : ε → Bool

theorem split_concat {α : Type} {log p q : List α} {x e : α} (h : log ++ [x] = p ++ e :: q) :
    (p = log ∧ e = x ∧ q = []) ∨ ∃ r, q = r ++ [x] ∧ log = p ++ e :: r := by
  rcases List.eq_nil_or_concat q with rfl | ⟨r, y, rfl⟩
  · obtain ⟨hp, he⟩ := List.append_inj' h rfl
    cases he
    exact .inl ⟨hp.symm, rfl, rfl⟩
  · rw [List.concat_eq_append, ← List.cons_append, ← List.append_assoc] at h
    obtain ⟨hlog, hx⟩ := List.append_inj' h rfl
    cases hx
    exact .inr ⟨r, List.concat_eq_append, hlog⟩

namespace Scheme

variable {ε κ γ : Type} (S : Scheme ε κ γ)

/-- No entry before it has its key. -/
def New (p : List ε) (e : ε) : Prop := ∀ e' ∈ p, S.key e' ≠ S.key e

/-- New entries of one lane have strictly increasing ordinals. -/
def Strict (log : List ε) : Prop :=
  ∀ p e q e' r, log = p ++ e :: q ++ e' :: r → S.New p e → S.New (p ++ e :: q) e' →
    S.lane e = S.lane e' → S.ordinal e < S.ordinal e'

/-- Nothing stands in the lane so far. -/
def Clear (log : List ε) (lane : γ) : Prop := ∀ e ∈ log, S.lane e ≠ lane

/-- A new entry that does not advance is the first of its lane. -/
def Opening (log : List ε) : Prop :=
  ∀ p e q, log = p ++ e :: q → S.New p e → S.advances e = false → S.Clear p (S.lane e)

/-- Advancing entries are new, and a key keeps to its lane. -/
structure Keyed (log : List ε) : Prop where
  advancing : ∀ p e q, log = p ++ e :: q → S.advances e = true → S.New p e
  lanes : ∀ e ∈ log, ∀ e' ∈ log, S.key e = S.key e' → S.lane e = S.lane e'

variable {S}

theorem opening_nil : S.Opening [] := by
  intro p e q h
  simp at h

theorem keyed_nil : S.Keyed [] where
  advancing := by
    intro p e q h
    simp at h
  lanes := by simp

theorem Opening.concat {log : List ε} {e : ε} (h : S.Opening log)
    (he : S.New log e → S.advances e = false → S.Clear log (S.lane e)) : S.Opening (log ++ [e]) := by
  intro p e' q heq
  rcases split_concat heq with ⟨rfl, rfl, -⟩ | ⟨r, -, hlog⟩
  · exact he
  · exact h p e' r hlog

/-- Entries of known keys open nothing. -/
theorem Opening.append {log out : List ε} (h : S.Opening log)
    (hknown : ∀ e ∈ out, ∃ e' ∈ log, S.key e' = S.key e) : S.Opening (log ++ out) := by
  intro p e q heq
  rcases List.append_eq_append_iff.mp heq with ⟨r, rfl, hr⟩ | ⟨r, rfl, hr⟩
  · intro hnew
    obtain ⟨e', he', hkey⟩ := hknown e (by rw [hr]; simp)
    exact absurd hkey (hnew e' (List.mem_append_left _ he'))
  · cases r with
    | nil =>
        intro hnew
        obtain ⟨e', he', hkey⟩ := hknown e (by rw [← List.nil_append out, ← hr]; simp)
        rw [List.append_nil] at he'
        exact absurd hkey (hnew e' he')
    | cons x r =>
        obtain ⟨rfl, -⟩ := List.cons.inj hr
        exact h p e r rfl

theorem Keyed.concat {log : List ε} {e : ε} (h : S.Keyed log)
    (hadvancing : S.advances e = true → S.New log e)
    (hlane : ∀ e' ∈ log, S.key e' = S.key e → S.lane e' = S.lane e) : S.Keyed (log ++ [e]) where
  advancing := by
    intro p e' q heq
    rcases split_concat heq with ⟨rfl, rfl, -⟩ | ⟨r, -, hlog⟩
    · exact hadvancing
    · exact h.advancing p e' r hlog
  lanes := by
    intro e₁ he₁ e₂ he₂ hkey
    rcases List.mem_append.mp he₁ with he₁ | he₁
    · rcases List.mem_append.mp he₂ with he₂ | he₂
      · exact h.lanes e₁ he₁ e₂ he₂ hkey
      · rw [List.mem_singleton.mp he₂] at hkey ⊢
        exact hlane e₁ he₁ hkey
    · rcases List.mem_append.mp he₂ with he₂ | he₂
      · rw [List.mem_singleton.mp he₁] at hkey ⊢
        exact (hlane e₂ he₂ hkey.symm).symm
      · rw [List.mem_singleton.mp he₁, List.mem_singleton.mp he₂]

/-- The log so far of a strict log is strict. -/
theorem Strict.of_append {p q : List ε} (h : S.Strict (p ++ q)) : S.Strict p := by
  intro p₁ e p₂ e' r heq
  apply h p₁ e p₂ e' (r ++ q)
  rw [heq, List.append_assoc]
  rfl

theorem Opening.of_append {p q : List ε} (h : S.Opening (p ++ q)) : S.Opening p := by
  intro p' e q' heq
  exact h p' e (q' ++ q) (by rw [heq, List.append_assoc]; rfl)

theorem Keyed.of_append {p q : List ε} (h : S.Keyed (p ++ q)) : S.Keyed p where
  advancing := by
    intro p' e q' heq
    exact h.advancing p' e (q' ++ q) (by rw [heq, List.append_assoc]; rfl)
  lanes := by
    intro e he e' he'
    exact h.lanes e (List.mem_append_left _ he) e' (List.mem_append_left _ he')

/-! ## The ordinals -/

section Ordinals

variable [DecidableEq γ]

variable (S) in
/-- The advancing entries of a lane. -/
def count (lane : γ) (log : List ε) : Nat := log.countP fun e => S.advances e && S.lane e = lane

variable (S) in
/-- Every ordinal counts the advancing entries of its lane so far. -/
def Numbered (log : List ε) : Prop :=
  ∀ p e q, log = p ++ e :: q → S.ordinal e = S.count (S.lane e) (p ++ [e])

theorem count_append (lane : γ) (p q : List ε) :
    S.count lane (p ++ q) = S.count lane p + S.count lane q := List.countP_append

theorem numbered_nil : S.Numbered [] := by
  intro p e q h
  simp at h

theorem Numbered.concat {log : List ε} {e : ε} (h : S.Numbered log)
    (he : S.ordinal e = S.count (S.lane e) (log ++ [e])) : S.Numbered (log ++ [e]) := by
  intro p e' q heq
  rcases split_concat heq with ⟨rfl, rfl, -⟩ | ⟨r, -, hlog⟩
  · exact he
  · exact h p e' r hlog

theorem Numbered.of_append {p q : List ε} (h : S.Numbered (p ++ q)) : S.Numbered p := by
  intro p' e q' heq
  exact h p' e (q' ++ q) (by rw [heq, List.append_assoc]; rfl)

/-- **Opening entries keep the ordinals strict.** -/
theorem Opening.strict {log : List ε} (hnumbered : S.Numbered log) (h : S.Opening log) :
    S.Strict log := by
  intro p e q e' r heq hnew hnew' hlane
  have hsplit : log = p ++ e :: (q ++ e' :: r) := by rw [heq, List.append_assoc]; rfl
  rw [hnumbered p e _ hsplit, hnumbered _ e' r heq]
  cases hadvances : S.advances e' with
  | false =>
      -- it would open a lane that `e` stands in
      exact absurd hlane (h _ e' r heq hnew' hadvances e (by simp))
  | true =>
      have hone : S.count (S.lane e') [e'] = 1 := by simp [count, hadvances]
      have hmono : p ++ e :: q = p ++ [e] ++ q := by simp
      rw [hlane, count_append (S.lane e') (p ++ e :: q), hone, hmono,
        count_append (S.lane e') (p ++ [e])]
      omega

/-- Some new entry carries the count of a lane that is not clear. -/
theorem exists_last {log : List ε} (hnumbered : S.Numbered log) (hkeyed : S.Keyed log) {lane : γ}
    (h : ¬ S.Clear log lane) :
    ∃ p e q, log = p ++ e :: q ∧ S.New p e ∧ S.lane e = lane ∧ S.ordinal e = S.count lane log := by
  induction log using List.reverseRecOn with
  | nil => exact absurd (by simp [Clear]) h
  | append_singleton log x ih =>
      -- an entry that does not count leaves the earlier one in its place
      have hwiden : ¬ S.Clear log lane → S.count lane [x] = 0 →
          ∃ p e q, log ++ [x] = p ++ e :: q ∧ S.New p e ∧ S.lane e = lane ∧
            S.ordinal e = S.count lane (log ++ [x]) := by
        intro hclear hnone
        obtain ⟨p, e, q, hlog, he, hel, hord⟩ := ih hnumbered.of_append hkeyed.of_append hclear
        refine ⟨p, e, q ++ [x], ?_, he, hel, ?_⟩
        · rw [hlog, List.append_assoc]
          rfl
        · rw [hord, count_append, hnone, Nat.add_zero]
      have hx := hnumbered log x [] rfl
      by_cases hlane : S.lane x = lane
      · subst hlane
        by_cases hnew : S.New log x
        · exact ⟨log, x, [], rfl, hnew, rfl, hx⟩
        · -- an earlier entry has its key, and so its lane
          have hold : S.advances x = false := by
            cases hadvances : S.advances x with
            | false => rfl
            | true => exact absurd (hkeyed.advancing log x [] rfl hadvances) hnew
          have hclear : ¬ S.Clear log (S.lane x) := by
            intro hclear
            apply hnew
            intro e he hkey
            exact hclear e he (hkeyed.lanes e (List.mem_append_left _ he) x (by simp) hkey)
          exact hwiden hclear (by simp [count, hold])
      · have hclear : ¬ S.Clear log lane := by
          intro hclear
          apply h
          intro e he
          rcases List.mem_append.mp he with he | he
          · exact hclear e he
          · rw [List.mem_singleton.mp he]
            exact hlane
        exact hwiden hclear (by simp [count, hlane])

/-- **Strict ordinals leave no other way.** -/
theorem Strict.opening {log : List ε} (hnumbered : S.Numbered log) (hkeyed : S.Keyed log)
    (h : S.Strict log) : S.Opening log := by
  intro p e q heq hnew hadvances
  apply Classical.byContradiction
  intro hclear
  subst heq
  obtain ⟨p', e', q', rfl, hnew', hlane, hord⟩ :=
    exists_last hnumbered.of_append hkeyed.of_append hclear
  have hlt := h p' e' q' e q rfl hnew' hnew hlane
  have hnone : S.count (S.lane e) [e] = 0 := by simp [count, hadvances]
  rw [hord, hnumbered _ e q rfl, count_append (S.lane e) (p' ++ e' :: q')] at hlt
  omega

end Ordinals

end Scheme

end Numbering
