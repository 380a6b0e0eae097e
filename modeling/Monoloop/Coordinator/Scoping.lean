import Monoloop.Coordinator.Transcript

/-!
# The laws of exchange scoping

`session_identity.rs` writes an exchange id and a colon before a provider's call id;
`loop_dispatch.rs` does so only to an id that does not look scoped already, because the
coordinator and the pass both scope the units of an exchange.

The text of an exchange id has 36 characters, so a written id determines both of its
parts. The test is what breaks the laws: the id of an action is the provider's, and an
empty one never looks scoped while one that begins like the exchange does at once.
-/

namespace Monoloop.Coordinator

open ToolLoop Publisher

/-! ## Texts of exchange ids -/

variable {x x' : ExchangeId} {tool tool' : ToolActionEvent} {s : String}

theorem stripLeading_eq_some {lead rest : String} :
    stripLeading lead s = some rest ↔ s = lead ++ rest := by
  constructor
  · intro h
    unfold stripLeading at h
    split at h
    · rename_i hlead
      obtain ⟨tail, htail⟩ := List.isPrefixOf_iff_prefix.mp hlead
      apply String.toList_injective
      rw [← Option.some.inj h, ← htail]
      simp
    · cases h
  · rintro rfl
    exact stripLeading_append lead rest

/-- The provider id of an action is not empty and does not look scoped. -/
def Plain (x : ExchangeId) (tool : ToolActionEvent) : Prop :=
  tool.toolActionId.value ≠ "" ∧ ∀ s ≠ "", tool.toolActionId.value ≠ exchangeTag x ++ s

end Monoloop.Coordinator
