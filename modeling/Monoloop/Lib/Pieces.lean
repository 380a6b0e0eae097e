import Mathlib.Data.List.Basic

/-!
# Pieces of a list between separators

A segmenter gives out contiguous pieces of what it reads, in order, and drops
nothing but separators between them. `Pieces sep whole pieces rest` says so, with
`rest` what it has not given out yet. A segmenter that works on its input bit by bit
is put together from such steps (`Pieces.append`), and one that stops early has still
given out pieces of the whole (`Pieces.split`).
-/

variable {α : Type}

/-- `whole` is the pieces in order, with separators before and after each, and `rest`. -/
inductive Pieces (sep : α → Bool) : List α → List (List α) → List α → Prop where
  | nil {gap} (rest : List α) : (∀ x ∈ gap, sep x = true) → Pieces sep (gap ++ rest) [] rest
  | cons {gap whole pieces rest} (piece : List α) : (∀ x ∈ gap, sep x = true) →
      Pieces sep whole pieces rest → Pieces sep (gap ++ (piece ++ whole)) (piece :: pieces) rest

namespace Pieces

variable {sep : α → Bool} {whole more rest rest' gap : List α} {pieces pieces' : List (List α)}

/-- Nothing given out yet. -/
theorem start (whole : List α) : Pieces sep whole [] whole := by
  have h : Pieces sep ([] ++ whole) [] whole := .nil whole (by simp)
  exact h

/-- Separators in front are dropped. -/
theorem lead (hgap : ∀ x ∈ gap, sep x = true) (h : Pieces sep whole pieces rest) :
    Pieces sep (gap ++ whole) pieces rest := by
  cases h with
  | @nil gap' _ hgap' =>
      rw [← List.append_assoc]
      refine .nil rest ?_
      intro x hx
      exact (List.mem_append.mp hx).elim (hgap x) (hgap' x)
  | @cons gap' whole' pieces' _ piece hgap' hrest =>
      rw [← List.append_assoc]
      refine .cons piece ?_ hrest
      intro x hx
      exact (List.mem_append.mp hx).elim (hgap x) (hgap' x)

/-- **Steps compose**: what was left may give out more when more comes in. -/
theorem append (h : Pieces sep whole pieces rest) (h' : Pieces sep (rest ++ more) pieces' rest') :
    Pieces sep (whole ++ more) (pieces ++ pieces') rest' := by
  induction h with
  | nil rest hgap =>
      rw [List.append_assoc]
      exact h'.lead hgap
  | cons piece hgap _ ih =>
      rw [List.append_assoc, List.append_assoc]
      exact .cons piece hgap (ih h')

theorem trans (h : Pieces sep whole pieces rest) (h' : Pieces sep rest pieces' rest') :
    Pieces sep whole (pieces ++ pieces') rest' := by
  have hnone : Pieces sep (rest ++ []) pieces' rest' := by rwa [List.append_nil]
  have happend := h.append hnone
  rwa [List.append_nil] at happend

/-- What comes in is left at first. -/
theorem extend (h : Pieces sep whole pieces rest) (more : List α) :
    Pieces sep (whole ++ more) pieces (rest ++ more) := by
  have happend := h.append (start (rest ++ more))
  rwa [List.append_nil] at happend

/-- The pieces so far, and what the later ones are made of. -/
theorem split (h : Pieces sep whole (pieces ++ pieces') rest) :
    ∃ middle, Pieces sep whole pieces middle ∧ Pieces sep middle pieces' rest := by
  induction pieces generalizing whole with
  | nil => exact ⟨whole, .start whole, h⟩
  | cons piece pieces ih =>
      cases h with
      | cons _ hgap hrest =>
          obtain ⟨middle, hfirst, hlast⟩ := ih hrest
          exact ⟨middle, .cons piece hgap hfirst, hlast⟩

/-- Separators that are left are worth no piece. -/
theorem finish (h : Pieces sep whole pieces rest) (hrest : ∀ x ∈ rest, sep x = true) :
    Pieces sep whole pieces [] := by
  have hnil : Pieces sep (rest ++ []) [] [] := .nil [] hrest
  rw [List.append_nil] at hnil
  have h' := h.trans hnil
  rwa [List.append_nil] at h'

/-- What is left is the end of the whole. -/
theorem rest_suffix (h : Pieces sep whole pieces rest) : rest <:+ whole := by
  induction h with
  | nil rest _ => exact List.suffix_append _ rest
  | cons piece _ _ ih => exact (ih.trans (List.suffix_append _ _)).trans (List.suffix_append _ _)

end Pieces
