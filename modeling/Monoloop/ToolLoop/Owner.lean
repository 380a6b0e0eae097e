import Monoloop.Contracts.Canonical
import Monoloop.Lib.HashMap

/-!
# The Loop owner

`runtime.rs`: the task that consumes canonical events, dispatches ready tool
requests and reports once. A handler returns the owner, the output events that
the output queue took, in order, and its result; an error ends the Loop.

Everything outside the task answers through `LoopEnvironment`: the `n`th dispatch
gets the `n`th reply, whatever registry, runtime and output queue are behind it.
-/

namespace Monoloop.ToolLoop

/-- Where an action stands. -/
inductive ActionState where
  | observedWaiting
  | requestReady
  | unavailable
  | incomplete
deriving DecidableEq, Repr

structure ActionRecord where
  toolActionId : ToolActionId
  unitId : UnitId
  lastGeneration : Nat
  state : ActionState
  dispatched : Bool
deriving DecidableEq

/-- Subscription status. -/
inductive SubscriptionStatus where
  | opened
  | closing
  | gap (expected : Nat) (observed : Option Nat)
  | lost
deriving DecidableEq, Repr

/-- One delivered event with its delivery sequence. -/
structure DeliveredEvent where
  deliverySequence : Nat
  event : InterpreterOutputEvent
deriving DecidableEq

/-- What `select!` in `run` can see. -/
inductive LoopInput where
  /-- The cancel flag is set. -/
  | cancelled
  /-- `recv` returned `None`. -/
  | closed
  | status (status : SubscriptionStatus)
  | delivered (event : DeliveredEvent)
deriving DecidableEq

/-- Registry resolution. -/
inductive ToolResolution where
  | available
  | unavailable (reason : ToolUnavailableReason)
deriving DecidableEq, Repr

/-- Terminal of a tool execution. -/
structure ToolRuntimeTerminal where
  outcome : OutboundToolOutcome
  payload : String
deriving DecidableEq

/-- Handle of a started execution: no completion, or one that is lost or delivers. -/
inductive ToolCompletion where
  | absent
  | lost
  | terminal (terminal : ToolRuntimeTerminal)
deriving DecidableEq

/-- What one dispatch meets outside the Loop. -/
structure DispatchReply where
  /-- Sends the output queue takes before its receiver is gone. -/
  accepted : Nat
  /-- `registry.resolve`; `none` is a registry error. -/
  resolution : Option ToolResolution
  /-- `runtime.start` and the completion of its handle. -/
  started : Except String ToolCompletion
  outboundResultId : String
  executionId : ToolExecutionId

structure LoopEnvironment where
  reply : Nat → DispatchReply
  /-- The output queue takes the `LoopEnded` event. -/
  endAccepted : Bool

structure LoopOwner where
  monoloopRunId : MonoloopRunId
  loopId : LoopId
  scope : LoopScope
  limits : LoopLimits
  lastSeq : Nat
  actions : HashMap String ActionRecord
  dedup : HashMap String Nat
  deliveryEvents : Nat
  duplicates : Nat
  toolsUnavailable : Nat
  outboundResults : Nat
  diagnostics : List String
  /-- Dispatches begun: the index of the next reply. -/
  dispatches : Nat
  /-- The report, once `finish` has run. -/
  ended : Option LoopEnd

/-- What a handler leaves. -/
structure Turn where
  owner : LoopOwner
  emitted : List LoopOutputEvent
  result : Except LoopEndKind Unit

/-- The owner as `prepare_loop` builds it. -/
def LoopOwner.new (monoloopRunId : MonoloopRunId) (loopId : LoopId) (scope : LoopScope)
    (limits : LoopLimits) : LoopOwner where
  monoloopRunId := monoloopRunId
  loopId := loopId
  scope := scope
  limits := limits
  lastSeq := 0
  actions := ∅
  dedup := ∅
  deliveryEvents := 0
  duplicates := 0
  toolsUnavailable := 0
  outboundResults := 0
  diagnostics := []
  dispatches := 0
  ended := none

/-- `"{interpretation}:{action}"`. -/
def actionKey (snap : CanonicalUnitSnapshot) (tool : ToolActionEvent) : String :=
  snap.interpretationId.value ++ ":" ++ tool.toolActionId.value

/-- `"{key}:{generation}"`. -/
def digKey (key : String) (generation : Nat) : String := key ++ ":" ++ toString generation

namespace LoopOwner

def diag (o : LoopOwner) (message : String) : LoopOwner :=
  if o.diagnostics.length < 32 then { o with diagnostics := o.diagnostics ++ [message] } else o

/-- A list of accepted ids restricts only when it is not empty. -/
def accepts {α : Type} [DecidableEq α] (ids : List α) (id : α) : Bool :=
  ids.isEmpty || id ∈ ids

def inScope (o : LoopOwner) (snap : CanonicalUnitSnapshot) : Bool :=
  o.scope.acceptAllInRun ||
    (accepts o.scope.acceptedInterpretationIds snap.interpretationId &&
      accepts o.scope.acceptedConnectionIds snap.connectionId &&
      (o.scope.acceptedExternalSessionIds.isEmpty ||
        snap.externalSessionId.any (· ∈ o.scope.acceptedExternalSessionIds)))

/-- `entry(key).or_insert_with(..)` with the state a fresh record starts in. -/
def entry (o : LoopOwner) (key : String) (snap : CanonicalUnitSnapshot) (tool : ToolActionEvent)
    (state : ActionState) : ActionRecord :=
  (o.actions.lookup key).getD ⟨tool.toolActionId, snap.unitId, 0, state, false⟩

/-- `dedup.insert`. -/
def note (o : LoopOwner) (dig : String) (generation : Nat) : LoopOwner :=
  { o with dedup := o.dedup.insert dig generation }

def setAction (o : LoopOwner) (key : String) (record : ActionRecord) : LoopOwner :=
  { o with actions := o.actions.insert key record }

def trackWaiting (o : LoopOwner) (key : String) (snap : CanonicalUnitSnapshot)
    (tool : ToolActionEvent) : LoopOwner :=
  let record := o.entry key snap tool .observedWaiting
  if snap.unitGeneration < record.lastGeneration then o.setAction key record
  else
    let record := { record with lastGeneration := snap.unitGeneration }
    if record.state ≠ .unavailable && !record.dispatched then
      o.setAction key { record with state := .observedWaiting }
    else o.setAction key record

/-- The incomplete and malformed arm of `on_unit`. -/
def markIncomplete (o : LoopOwner) (key : String) (snap : CanonicalUnitSnapshot)
    (tool : ToolActionEvent) : LoopOwner :=
  let record := o.entry key snap tool .incomplete
  if record.lastGeneration ≤ snap.unitGeneration then
    o.setAction key { record with lastGeneration := snap.unitGeneration, state := .incomplete }
  else o.setAction key record

/-- The result every branch of a dispatch sends. -/
def outbound (o : LoopOwner) (reply : DispatchReply) (snap : CanonicalUnitSnapshot)
    (tool : ToolActionEvent) (execution : Option ToolExecutionId)
    (outcome : OutboundToolOutcome) (payload : String) : OutboundToolResult where
  outboundResultId := reply.outboundResultId
  monoloopRunId := o.monoloopRunId
  loopId := o.loopId
  sourceInterpretationId := snap.interpretationId
  sourceConnectionId := snap.connectionId
  externalSessionId := snap.externalSessionId
  toolActionId := tool.toolActionId
  requestGeneration := snap.unitGeneration
  toolExecutionId := execution
  outcome := outcome
  payload := payload
  sourceUnitId := snap.unitId

/-- The terminal of a started execution. -/
def terminalOf : ToolCompletion → ToolRuntimeTerminal
  | .absent => ⟨.executionFailed, "runtime returned no completion"⟩
  | .lost => ⟨.executionLost, "completion lost"⟩
  | .terminal t => t

/-- `on_request_ready` from the point where the record is marked dispatched. -/
def dispatch (reply : DispatchReply) (o : LoopOwner) (key : String) (snap : CanonicalUnitSnapshot)
    (tool : ToolActionEvent) (record : ActionRecord) : Turn :=
  let record := { record with state := .requestReady, dispatched := true }
  let o := { o.setAction key record with dispatches := o.dispatches + 1 }
  let requested := .toolDispatchRequested tool.toolActionId snap.unitGeneration
  if reply.accepted < 1 then ⟨o, [], .error .outputFailed⟩
  else
    match reply.resolution with
    | none => ⟨o, [requested], .error .invariantFailed⟩
    | some (.unavailable reason) =>
        let o := { o.setAction key { record with state := .unavailable } with
          toolsUnavailable := o.toolsUnavailable + 1 }
        if reply.accepted < 2 then ⟨o, [requested], .error .outputFailed⟩
        else
          let unavailable := .toolUnavailable tool.toolActionId reason
          let result := o.outbound reply snap tool none .toolUnavailable reason.debug
          let o := { o with outboundResults := o.outboundResults + 1 }
          if reply.accepted < 3 then ⟨o, [requested, unavailable], .error .outputFailed⟩
          else ⟨o, [requested, unavailable, .outboundToolResult result], .ok ()⟩
    | some .available =>
        match reply.started with
        | .error message =>
            let o := o.diag ("tool runtime start failed: tool runtime: " ++ message)
            let result := o.outbound reply snap tool none .executionFailed message
            if reply.accepted < 2 then ⟨o, [requested], .error .outputFailed⟩
            else
              ⟨{ o with outboundResults := o.outboundResults + 1 },
                [requested, .outboundToolResult result], .ok ()⟩
        | .ok completion =>
            let terminal := terminalOf completion
            let result := o.outbound reply snap tool (some reply.executionId) terminal.outcome
              terminal.payload
            let o := { o with outboundResults := o.outboundResults + 1 }
            if reply.accepted < 2 then ⟨o, [requested], .error .outputFailed⟩
            else ⟨o, [requested, .outboundToolResult result], .ok ()⟩

def onRequestReady (env : LoopEnvironment) (o : LoopOwner) (key : String)
    (snap : CanonicalUnitSnapshot) (tool : ToolActionEvent) : Turn :=
  if o.limits.maxToolActions ≤ o.actions.keys.length && (o.actions.lookup key).isNone then
    ⟨o, [], .error .invariantFailed⟩
  else
    let record := o.entry key snap tool .requestReady
    if snap.unitGeneration < record.lastGeneration then ⟨o.setAction key record, [], .ok ()⟩
    else
      let record := { record with lastGeneration := snap.unitGeneration }
      let o := o.setAction key record
      if record.dispatched then ⟨{ o with duplicates := o.duplicates + 1 }, [], .ok ()⟩
      else if tool.toolName.isNone then
        ⟨o.diag "ToolRequestReady missing tool name", [], .ok ()⟩
      else if tool.requestPayload.isNone then
        ⟨o.diag "ToolRequestReady missing payload", [], .ok ()⟩
      else dispatch (env.reply o.dispatches) o key snap tool record

def onUnit (env : LoopEnvironment) (o : LoopOwner) (event : CanonicalUnitEvent) : Turn :=
  let snap := event.snapshot
  if !o.inScope snap then ⟨o, [], .ok ()⟩
  else
    match snap.unit with
    | .tool tool =>
        let key := actionKey snap tool
        let dig := digKey key snap.unitGeneration
        if o.dedup.lookup dig = some snap.unitGeneration then
          ⟨{ o with duplicates := o.duplicates + 1 }, [], .ok ()⟩
        else if o.limits.maxDedupEntries ≤ o.dedup.keys.length then
          ⟨o, [], .error .invariantFailed⟩
        else
          let o := o.note dig snap.unitGeneration
          match tool.requestState with
          | .assembling => ⟨o.trackWaiting key snap tool, [], .ok ()⟩
          | .ready => o.onRequestReady env key snap tool
          | .incomplete | .malformed => ⟨o.markIncomplete key snap tool, [], .ok ()⟩
    | _ => ⟨o, [], .ok ()⟩

def onDelivered (env : LoopEnvironment) (o : LoopOwner) (delivered : DeliveredEvent) : Turn :=
  if 0 < o.lastSeq && delivered.deliverySequence ≠ o.lastSeq + 1 then
    ⟨o.diag s!"delivery gap: expected {o.lastSeq + 1}, got {delivered.deliverySequence}", [],
      .error .subscriptionLost⟩
  else
    let o := { o with
      lastSeq := delivered.deliverySequence
      deliveryEvents := o.deliveryEvents + 1 }
    match delivered.event with
    | .unit event => o.onUnit env event
    | .ended _ => ⟨o, [], .ok ()⟩

/-- The report `finish` sends. -/
def report (o : LoopOwner) (kind : LoopEndKind) : LoopEnd where
  monoloopRunId := o.monoloopRunId
  loopId := o.loopId
  kind := kind
  deliveryEventsReceived := o.deliveryEvents
  duplicateEvents := o.duplicates
  toolsUnavailable := o.toolsUnavailable
  outboundResultsEmitted := o.outboundResults
  safeDiagnostics := o.diagnostics

def finish (env : LoopEnvironment) (o : LoopOwner) (kind : LoopEndKind) :
    LoopOwner × List LoopOutputEvent :=
  ({ o with ended := some (o.report kind) },
    if env.endAccepted then [.loopEnded (o.report kind)] else [])

/-- The end of a turn: a handler's error ends the Loop. -/
def close (env : LoopEnvironment) (turn : Turn) : LoopOwner × List LoopOutputEvent :=
  match turn.result with
  | .ok () => (turn.owner, turn.emitted)
  | .error kind =>
      ((turn.owner.finish env kind).1, turn.emitted ++ (turn.owner.finish env kind).2)

/-- One turn of `run`. An ended Loop takes nothing more. -/
def step (env : LoopEnvironment) (o : LoopOwner) (input : LoopInput) :
    LoopOwner × List LoopOutputEvent :=
  if o.ended.isSome then (o, [])
  else
    match input with
    | .cancelled => o.finish env .cancelled
    | .closed => o.finish env .drained
    | .status (.gap _ _) | .status .lost => o.finish env .subscriptionLost
    | .status .opened | .status .closing => (o, [])
    | .delivered delivered => close env (o.onDelivered env delivered)

/-- Every turn of a run, with the events it emitted. -/
def trace (env : LoopEnvironment) : List LoopInput → LoopOwner →
    List (LoopInput × List LoopOutputEvent)
  | [], _ => []
  | input :: rest, o => (input, (o.step env input).2) :: trace env rest (o.step env input).1

/-- The owner after a run. -/
def run (env : LoopEnvironment) : List LoopInput → LoopOwner → LoopOwner
  | [], o => o
  | input :: rest, o => run env rest (o.step env input).1

/-- The output events of a run, in order. -/
def output (env : LoopEnvironment) (inputs : List LoopInput) (o : LoopOwner) :
    List LoopOutputEvent :=
  (o.trace env inputs).flatMap (·.2)

end LoopOwner

end Monoloop.ToolLoop
