import Mathlib.Algebra.GroupWithZero.Nat
import Mathlib.Data.List.Perm.Basic

/-!
# Counting by key

Two counts over lists agree when they agree key by key. The rule turns a
statement about every instance of a system into one about its totals.
-/

namespace Counting

variable {α κ : Type} [DecidableEq κ]

/-- The entries of one key. -/
def fiber (key : α → κ) (k : κ) (l : List α) : List α := l.filter (fun a => key a = k)

theorem count_map_filter (key : α → κ) (p : α → Bool) (l : List α) (k : κ) :
    ((l.filter p).map key).count k = (fiber key k l).countP p := by
  rw [List.count, List.countP_map, List.countP_filter, fiber, List.countP_filter]
  refine List.countP_congr (fun a _ => ?_)
  simp only [Function.comp_apply, Bool.and_eq_true, beq_iff_eq, decide_eq_true_eq]
  exact and_comm

/-- **Totals from fibers.** -/
theorem countP_eq_of_fibers (key : α → κ) {p q : α → Bool} {l l' : List α}
    (h : ∀ k, (fiber key k l).countP p = (fiber key k l').countP q) :
    l.countP p = l'.countP q := by
  have hperm : ((l.filter p).map key).Perm ((l'.filter q).map key) := by
    rw [List.perm_iff_count]
    intro k
    rw [count_map_filter, count_map_filter, h]
  simpa [List.countP_eq_length_filter] using hperm.length_eq

/-- Replacing one entry moves the count by that entry's share. -/
theorem countP_set_toNat {α : Type} (p : α → Bool) {l : List α} {n : Nat} {a : α} (b : α)
    (h : l[n]? = some a) : (l.set n b).countP p + (p a).toNat = l.countP p + (p b).toNat := by
  obtain ⟨hn, ha⟩ := List.getElem?_eq_some_iff.mp h
  have hle := List.boole_getElem_le_countP (p := p) hn
  rw [List.countP_set hn]
  rw [ha] at hle ⊢
  cases ha : p a with
  | false =>
      rw [ha] at hle
      cases p b <;> simp_all
  | true =>
      rw [ha] at hle
      cases p b <;> simp_all

/-- Replacing one entry moves the sum by what the entry contributes. -/
theorem sum_map_set {α : Type} (f : α → Nat) {l : List α} {n : Nat} {a : α} (b : α)
    (h : l[n]? = some a) : ((l.set n b).map f).sum + f a = (l.map f).sum + f b := by
  induction l generalizing n with
  | nil => simp at h
  | cons x rest ih =>
      cases n with
      | zero =>
          simp only [List.getElem?_cons_zero, Option.some.injEq] at h
          simp only [List.set_cons_zero, List.map_cons, List.sum_cons, h]
          omega
      | succ m =>
          simp only [List.getElem?_cons_succ] at h
          have hrest := ih h
          simp only [List.set_cons_succ, List.map_cons, List.sum_cons]
          omega

/-- Two entries at different places count twice. -/
theorem two_le_countP {α : Type} {p : α → Bool} {l : List α} {i j : Nat} {a b : α} (hij : i ≠ j)
    (ha : l[i]? = some a) (hb : l[j]? = some b) (hpa : p a = true) (hpb : p b = true) :
    2 ≤ l.countP p := by
  induction l generalizing i j with
  | nil => simp at ha
  | cons x rest ih =>
      have hrest : ∀ {n : Nat} {c : α}, rest[n]? = some c → p c = true → 1 ≤ rest.countP p :=
        fun hc hpc => List.countP_pos_iff.mpr ⟨_, List.mem_of_getElem? hc, hpc⟩
      cases i with
      | zero =>
          cases j with
          | zero => exact absurd rfl hij
          | succ n =>
              simp only [List.getElem?_cons_zero, Option.some.injEq] at ha
              simp only [List.getElem?_cons_succ] at hb
              have htail := hrest hb hpb
              rw [List.countP_cons, ha, hpa]
              simp only [if_true]
              omega
      | succ m =>
          simp only [List.getElem?_cons_succ] at ha
          cases j with
          | zero =>
              simp only [List.getElem?_cons_zero, Option.some.injEq] at hb
              have htail := hrest ha hpa
              rw [List.countP_cons, hb, hpb]
              simp only [if_true]
              omega
          | succ n =>
              simp only [List.getElem?_cons_succ] at hb
              have htail := ih (fun h => hij (congrArg (· + 1) h)) ha hb
              rw [List.countP_cons]
              omega

/-- Some entry counts for `q` and not for `p`. -/
theorem countP_lt_countP {α : Type} {p q : α → Bool} {l : List α} {a : α}
    (himp : ∀ b ∈ l, p b = true → q b = true) (ha : a ∈ l) (hp : p a = false) (hq : q a = true) :
    l.countP p < l.countP q := by
  obtain ⟨l₁, l₂, rfl⟩ := List.append_of_mem ha
  have h₁ : l₁.countP p ≤ l₁.countP q :=
    List.countP_mono_left (fun b hb => himp b (by simp [hb]))
  have h₂ : l₂.countP p ≤ l₂.countP q :=
    List.countP_mono_left (fun b hb => himp b (by simp [hb]))
  simp only [List.countP_append, List.countP_cons, hp, hq]
  simp
  omega

end Counting
