import Monoloop.Contracts.Identity

/-!
# Canonical units and Loop outputs

`canonical.rs` and `loop_types.rs`, with the fields some modelled function reads:
the Loop reads identities, generations and tool requests, the exchange collector
the sizes of contents, the coordinator texts and tool requests. Flow, lane,
ordinal and time observations are read by none of them.
-/

namespace Monoloop

/-- Interpretation identity. -/
structure InterpretationId where
  value : String
deriving DecidableEq

structure UnitId where
  value : String
deriving DecidableEq

/-- Stable tool action id. -/
structure ToolActionId where
  value : String
deriving DecidableEq

structure LoopId where
  value : String
deriving DecidableEq

/-- Tool request assembly state. -/
inductive ToolRequestState where
  | assembling
  | ready
  | malformed
  | incomplete
deriving DecidableEq, Repr

/-- Execution state observed in the dialect. -/
inductive ToolExecutionState where
  | notObserved
  | waiting
  | running
  | terminal
deriving DecidableEq, Repr

/-- Result assembly state. -/
inductive ToolResultState where
  | absent
  | assembling
  | complete
  | malformed
  | incomplete
deriving DecidableEq, Repr

/-- Terminal outcome observed in the dialect. -/
inductive ToolTerminalOutcome where
  | success
  | failure
  | cancelled
  | lost
deriving DecidableEq, Repr

/-- Tool-action event payload. -/
structure ToolActionEvent where
  toolActionId : ToolActionId
  toolName : Option String
  requestState : ToolRequestState
  executionState : ToolExecutionState
  resultState : ToolResultState
  requestPayload : Option String
  resultPayload : Option String
  terminalOutcome : Option ToolTerminalOutcome
  waitingFor : Option String
deriving DecidableEq

/-- A ready request with a name and a payload. -/
def ToolActionEvent.Dispatchable (tool : ToolActionEvent) : Prop :=
  tool.requestState = .ready ∧ tool.toolName.isSome ∧ tool.requestPayload.isSome

instance (tool : ToolActionEvent) : Decidable tool.Dispatchable :=
  inferInstanceAs (Decidable (_ ∧ _ ∧ _))

/-- Canonical unit kinds with the content that is read of each. -/
inductive CanonicalUnit where
  | text (content : String)
  | structural (content : String)
  | paragraph
  | tool (event : ToolActionEvent)
  | usage
  | diagnostic (message : String)
  | boundary
deriving DecidableEq

structure CanonicalUnitSnapshot where
  unitId : UnitId
  unitGeneration : Nat
  interpretationId : InterpretationId
  connectionId : ConnectionId
  externalSessionId : Option ExternalSessionId
  unit : CanonicalUnit
deriving DecidableEq

/-- Unit lifecycle event. -/
inductive CanonicalUnitEvent where
  | created (snapshot : CanonicalUnitSnapshot)
  | advanced (snapshot : CanonicalUnitSnapshot)
  | completed (snapshot : CanonicalUnitSnapshot)
  | incomplete (snapshot : CanonicalUnitSnapshot)
deriving DecidableEq

def CanonicalUnitEvent.snapshot : CanonicalUnitEvent → CanonicalUnitSnapshot
  | .created s | .advanced s | .completed s | .incomplete s => s

/-- Interpretation terminal kinds. -/
inductive InterpretationEndKind where
  | complete
  | cancelled
  | terminated
  | transportFailed
  | dialectFailed
  | limitExceeded
  | invariantFailed
deriving DecidableEq, Repr

/-- Interpreter output: a unit, or the one end report. -/
inductive InterpreterOutputEvent where
  | unit (event : CanonicalUnitEvent)
  | ended (kind : InterpretationEndKind)
deriving DecidableEq

/-- Why a tool was unavailable. -/
inductive ToolUnavailableReason where
  | noRegisteredTool
  | notFound
  | denied
deriving DecidableEq, Repr

/-- The `Debug` text of a reason. -/
def ToolUnavailableReason.debug : ToolUnavailableReason → String
  | .noRegisteredTool => "NoRegisteredTool"
  | .notFound => "NotFound"
  | .denied => "Denied"

/-- Terminal outcome of a loop-owned tool action. -/
inductive OutboundToolOutcome where
  | success
  | toolUnavailable
  | dispatchRejected
  | executionFailed
  | cancelled
  | executionLost
deriving DecidableEq, Repr

/-- Provider-neutral outbound tool result. -/
structure OutboundToolResult where
  outboundResultId : String
  monoloopRunId : MonoloopRunId
  loopId : LoopId
  sourceInterpretationId : InterpretationId
  sourceConnectionId : ConnectionId
  externalSessionId : Option ExternalSessionId
  toolActionId : ToolActionId
  requestGeneration : Nat
  toolExecutionId : Option ToolExecutionId
  outcome : OutboundToolOutcome
  payload : String
  sourceUnitId : UnitId
deriving DecidableEq

/-- Loop terminal kinds. -/
inductive LoopEndKind where
  | drained
  | cancelled
  | subscriptionLost
  | outputFailed
  | invariantFailed
  | configurationFailed
deriving DecidableEq, Repr

/-- The Loop's terminal report. -/
structure LoopEnd where
  monoloopRunId : MonoloopRunId
  loopId : LoopId
  kind : LoopEndKind
  deliveryEventsReceived : Nat
  duplicateEvents : Nat
  toolsUnavailable : Nat
  outboundResultsEmitted : Nat
  safeDiagnostics : List String
deriving DecidableEq

/-- Loop output events. -/
inductive LoopOutputEvent where
  | toolDispatchRequested (toolActionId : ToolActionId) (requestGeneration : Nat)
  | toolUnavailable (toolActionId : ToolActionId) (reason : ToolUnavailableReason)
  | outboundToolResult (result : OutboundToolResult)
  | diagnostic (message : String)
  | loopEnded (report : LoopEnd)
deriving DecidableEq

/-- Aggregate Loop bounds that the Loop checks. -/
structure LoopLimits where
  maxToolActions : Nat
  maxDedupEntries : Nat
deriving DecidableEq

/-- Explicit Loop admission scope. -/
structure LoopScope where
  acceptedInterpretationIds : List InterpretationId
  acceptedConnectionIds : List ConnectionId
  acceptedExternalSessionIds : List ExternalSessionId
  acceptAllInRun : Bool
deriving DecidableEq

end Monoloop
