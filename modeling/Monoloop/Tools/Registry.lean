import Monoloop.Lib.HashMap
import Monoloop.Lifecycle.Admission
import Monoloop.Outbound.OpenAiEncoder
import Monoloop.ToolDispatch.Validation

/-!
# Registered tools

`tool.rs`, `host_tools.rs` and `resolved_tools.rs`: the specification of a tool, the
registry of a runtime and the tools that a transaction has selected from it.

A `RegisteredTool` can be stopped as its execution class says; its constructors see to
it, and so does the type. Handlers stay abstract: `H` is what runs, and `traits` what it
says about itself.
-/

namespace Monoloop.Tools

open Monoloop.Interpreter (Json)
open ToolDispatch (ToolHandler supportsRequiredTermination)
open Lifecycle (AdmissionError validateTools)

/-! ## Specifications -/

/-- The errors of a specification. -/
inductive ToolContractError where
  | schemaNotObject
  | descriptionTooLong
  | controlCharacter
  | invalidLimits
  | invalidCancellationGrace
deriving DecidableEq, Repr

/-- A schema, whose root is an object. -/
structure JsonSchema where
  value : Json
  object : ∃ fields, value = .object fields

def JsonSchema.tryNew : Json → Except ToolContractError JsonSchema
  | .object fields => .ok ⟨.object fields, fields, rfl⟩
  | _ => .error .schemaNotObject

structure ToolLimits where
  maxConcurrent : Nat
  maxInputBytes : Nat
  maxOutputBytes : Nat
  executionDeadline : Nat

/-- How a tool is stopped; times in nanoseconds. -/
inductive ToolExecutionClass where
  | cooperativeInProcess (grace : Nat)
  | abortableAtYield (grace : Nat)
  | processIsolated (grace killDeadline : Nat)
deriving DecidableEq, Repr

/-- The class without its times. -/
def ToolExecutionClass.kind : ToolExecutionClass → ToolDispatch.ToolExecutionClass
  | .cooperativeInProcess _ => .cooperativeInProcess
  | .abortableAtYield _ => .abortableAtYield
  | .processIsolated _ _ => .processIsolated

structure ToolSpec where
  id : ToolId
  name : ToolName
  description : String
  inputSchema : JsonSchema
  outputContract : Validation.ToolOutputContract
  limits : ToolLimits
  executionClass : ToolExecutionClass

/-- What the encoders read of a tool. -/
def ToolSpec.outbound (spec : ToolSpec) : Outbound.ToolSpec :=
  ⟨spec.name, spec.description, spec.inputSchema.value⟩

def checkGrace : ToolExecutionClass → Except ToolContractError Unit
  | .cooperativeInProcess grace | .abortableAtYield grace =>
      if grace = 0 then .error .invalidCancellationGrace else .ok ()
  | .processIsolated grace killDeadline =>
      if grace = 0 ∨ killDeadline = 0 then .error .invalidCancellationGrace else .ok ()

def ToolSpec.tryNew (id : ToolId) (name : ToolName) (description : String)
    (inputSchema : JsonSchema) (outputContract : Validation.ToolOutputContract)
    (limits : ToolLimits) (executionClass : ToolExecutionClass) :
    Except ToolContractError ToolSpec :=
  if 4 * 1024 < description.utf8ByteSize then .error .descriptionTooLong
  else if description.toList.any isControl then .error .controlCharacter
  else if limits.maxConcurrent = 0 ∨ limits.maxInputBytes = 0 ∨ limits.maxOutputBytes = 0 ∨
      limits.executionDeadline = 0 then
    .error .invalidLimits
  else do
    checkGrace executionClass
    return ⟨id, name, description, inputSchema, outputContract, limits, executionClass⟩

/-! ## The registry -/

inductive StartupError where
  | toolRegistry (what : String)
deriving DecidableEq, Repr

/-- A tool with a handler that can be stopped as its class says. -/
structure RegisteredTool {H : Type} (traits : H → ToolHandler) where
  spec : ToolSpec
  handler : H
  stoppable : supportsRequiredTermination (traits handler) spec.executionClass.kind = true

section Registry

variable {H : Type} {traits : H → ToolHandler}

theorem stoppable_cooperative {spec : ToolSpec} {grace : Nat} (handler : H)
    (h : spec.executionClass = .cooperativeInProcess grace) :
    supportsRequiredTermination (traits handler) spec.executionClass.kind = true := by
  rw [h]
  rfl

theorem stoppable_abortable {spec : ToolSpec} {grace : Nat} {handler : H}
    (h : spec.executionClass = .abortableAtYield grace)
    (hcan : ((traits handler).runtimeOwnsAbortableDrive && (traits handler).supportsAbort) = true) :
    supportsRequiredTermination (traits handler) spec.executionClass.kind = true := by
  rw [h]
  exact hcan

theorem stoppable_process {spec : ToolSpec} {grace killDeadline : Nat} {handler : H}
    (h : spec.executionClass = .processIsolated grace killDeadline)
    (hcan : ((traits handler).osProcessIsolated && (traits handler).supportsIsolatedKill) = true) :
    supportsRequiredTermination (traits handler) spec.executionClass.kind = true := by
  rw [h]
  exact hcan

namespace RegisteredTool

/-- For cooperative tools alone: the other classes have factories of their own. -/
def tryNew (spec : ToolSpec) (handler : H) : Except StartupError (RegisteredTool traits) :=
  match h : spec.executionClass with
  | .abortableAtYield _ =>
      .error (.toolRegistry "AbortableAtYield requires try_new_abortable(AbortableAtYieldHandler)")
  | .processIsolated _ _ =>
      .error (.toolRegistry
        "ProcessIsolated requires try_new_process_isolated(ProcessIsolatedToolHandler)")
  | .cooperativeInProcess _ => .ok ⟨spec, handler, stoppable_cooperative handler h⟩

def tryNewAbortable (spec : ToolSpec) (handler : H) : Except StartupError (RegisteredTool traits) :=
  match h : spec.executionClass with
  | .abortableAtYield _ =>
      if hcan : (traits handler).runtimeOwnsAbortableDrive && (traits handler).supportsAbort then
        .ok ⟨spec, handler, stoppable_abortable h hcan⟩
      else
        .error (.toolRegistry
          "AbortableAtYieldHandler must expose runtime_owns_abortable_drive + supports_abort")
  | _ =>
      .error (.toolRegistry "try_new_abortable requires ToolExecutionClass::AbortableAtYield")

def tryNewProcessIsolated (spec : ToolSpec) (handler : H) :
    Except StartupError (RegisteredTool traits) :=
  match h : spec.executionClass with
  | .processIsolated _ _ =>
      if hcan : (traits handler).osProcessIsolated && (traits handler).supportsIsolatedKill then
        .ok ⟨spec, handler, stoppable_process h hcan⟩
      else
        .error (.toolRegistry
          "ProcessIsolatedToolHandler must expose os_process_isolated + supports_isolated_kill")
  | _ =>
      .error (.toolRegistry
        "try_new_process_isolated requires ToolExecutionClass::ProcessIsolated")

end RegisteredTool

structure HostToolRegistry (traits : H → ToolHandler) where
  byId : HashMap ToolId (RegisteredTool traits)
  byName : HashMap ToolName ToolId

namespace HostToolRegistry

def empty : HostToolRegistry traits := ⟨∅, ∅⟩

/-- `max_tool_schema_bytes` of the default transaction limits. -/
def defaultMaxToolSchemaBytes : Nat := 64 * 1024

/-- A schema that cannot be written counts for nothing. -/
def schemaBytes (serde : SerdeJson Json) (schema : JsonSchema) : Nat :=
  ((serde.render schema.value).map (·.utf8ByteSize)).getD 0

/-- The claim of a handler to its class, made again. -/
def lacksHandler (tool : RegisteredTool traits) : Option String :=
  match tool.spec.executionClass with
  | .processIsolated _ _ =>
      if (traits tool.handler).osProcessIsolated then none
      else some "ProcessIsolated entry lacks os_process_isolated handler"
  | .abortableAtYield _ =>
      if (traits tool.handler).runtimeOwnsAbortableDrive then none
      else some "AbortableAtYield entry lacks runtime_owns_abortable_drive handler"
  | .cooperativeInProcess _ => none

/-- The loop of `build`. -/
def addAll (serde : SerdeJson Json) : List (RegisteredTool traits) → HostToolRegistry traits →
    Except StartupError (HostToolRegistry traits)
  | [], registry => .ok registry
  | tool :: rest, registry =>
      match lacksHandler tool with
      | some what => .error (.toolRegistry what)
      | none =>
          if defaultMaxToolSchemaBytes < schemaBytes serde tool.spec.inputSchema then
            .error (.toolRegistry "tool schema too large")
          else if (registry.byId.lookup tool.spec.id).isSome then
            .error (.toolRegistry "duplicate ToolId")
          else if (registry.byName.lookup tool.spec.name).isSome then
            .error (.toolRegistry "duplicate ToolName")
          else addAll serde rest
            ⟨registry.byId.insert tool.spec.id tool,
              registry.byName.insert tool.spec.name tool.spec.id⟩

def build (serde : SerdeJson Json) (tools : List (RegisteredTool traits)) :
    Except StartupError (HostToolRegistry traits) := addAll serde tools empty

variable (registry : HostToolRegistry traits)

def get (id : ToolId) : Option (RegisteredTool traits) := registry.byId.lookup id

/-- What admission knows of the registry. -/
def ids : List ToolId := registry.byId.keys

end HostToolRegistry

/-! ## The tools of a transaction -/

structure ResolvedTool (H : Type) where
  spec : ToolSpec
  handler : H

structure ResolvedToolSet (H : Type) where
  byId : HashMap ToolId (ResolvedTool H)
  byName : HashMap ToolName ToolId
  ordered : List ToolId

def RegisteredTool.resolved (tool : RegisteredTool traits) : ResolvedTool H :=
  ⟨tool.spec, tool.handler⟩

namespace ResolvedToolSet

def empty : ResolvedToolSet H := ⟨∅, ∅, []⟩

def push (set : ResolvedToolSet H) (tool : RegisteredTool traits) : ResolvedToolSet H where
  byId := set.byId.insert tool.spec.id tool.resolved
  byName := set.byName.insert tool.spec.name tool.spec.id
  ordered := set.ordered ++ [tool.spec.id]

def fromRegistered (tools : List (RegisteredTool traits)) : ResolvedToolSet H :=
  tools.foldl push empty

variable (set : ResolvedToolSet H)

def isEmpty : Bool := set.byId.keys.isEmpty

def getByName (name : ToolName) : Option (ResolvedTool H) :=
  (set.byName.lookup name).bind fun id => set.byId.lookup id

def containsName (name : ToolName) : Bool := (set.byName.lookup name).isSome

end ResolvedToolSet

/-- Ids lead to their tools, names to the one tool of that name. -/
structure Coherent (registry : HostToolRegistry traits) (tools : List (RegisteredTool traits)) :
    Prop where
  byId : ∀ id tool, registry.byId.lookup id = some tool ↔ tool ∈ tools ∧ tool.spec.id = id
  byName : ∀ name id, registry.byName.lookup name = some id ↔
    ∃ tool ∈ tools, tool.spec.name = name ∧ tool.spec.id = id

theorem Coherent.add {registry : HostToolRegistry traits} {tools : List (RegisteredTool traits)}
    (h : Coherent registry tools) {tool : RegisteredTool traits}
    (hid : registry.byId.lookup tool.spec.id = none)
    (hname : registry.byName.lookup tool.spec.name = none) :
    Coherent ⟨registry.byId.insert tool.spec.id tool,
      registry.byName.insert tool.spec.name tool.spec.id⟩ (tools ++ [tool]) where
  byId := by
    intro id tool'
    have hfresh : ∀ t ∈ tools, t.spec.id ≠ tool.spec.id := by
      intro t ht heq
      rw [(h.byId tool.spec.id t).mpr ⟨ht, heq⟩] at hid
      cases hid
    rw [HashMap.lookup_insert_ite, List.mem_append, List.mem_singleton]
    split
    · rename_i heq
      subst heq
      constructor
      · intro hsome
        cases hsome
        exact ⟨.inr rfl, rfl⟩
      · rintro ⟨hmem | rfl, heq⟩
        · exact absurd heq (hfresh _ hmem)
        · rfl
    · rename_i hne
      rw [h.byId]
      constructor
      · rintro ⟨hmem, rfl⟩
        exact ⟨.inl hmem, rfl⟩
      · rintro ⟨hmem | rfl, rfl⟩
        · exact ⟨hmem, rfl⟩
        · exact absurd rfl hne
  byName := by
    intro name id
    have hfresh : ∀ t ∈ tools, t.spec.name ≠ tool.spec.name := by
      intro t ht heq
      rw [(h.byName tool.spec.name t.spec.id).mpr ⟨t, ht, heq, rfl⟩] at hname
      cases hname
    rw [HashMap.lookup_insert_ite]
    split
    · rename_i heq
      subst heq
      constructor
      · intro hsome
        cases hsome
        exact ⟨tool, List.mem_append_right _ (List.mem_singleton_self _), rfl, rfl⟩
      · rintro ⟨t, hmem, heq, rfl⟩
        rcases List.mem_append.mp hmem with hmem | hmem
        · exact absurd heq (hfresh t hmem)
        · rw [List.mem_singleton.mp hmem]
    · rename_i hne
      rw [h.byName]
      constructor
      · rintro ⟨t, hmem, hname, hid⟩
        exact ⟨t, List.mem_append_left _ hmem, hname, hid⟩
      · rintro ⟨t, hmem, rfl, hid⟩
        rcases List.mem_append.mp hmem with hmem | hmem
        · exact ⟨t, hmem, rfl, hid⟩
        · rw [List.mem_singleton.mp hmem] at hne
          exact absurd rfl hne

end Registry

end Monoloop.Tools
