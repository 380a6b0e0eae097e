import Monoloop.Tools.Surface

/-!
# One dispatch

`dispatch_with_cancel` of `dispatcher.rs` as a function of what it meets: whether there is
room in the queue and a permit, whether the transaction's deadline has passed, and what
the handler answers. How long the handler takes and how it is stopped is the business of
`ToolDispatch.Permit`; here its completion is the one that the dispatch waited for.

A dispatch ends in an outcome with the lifecycle events to publish. The Loop writes the
outcome as a payload (`map_outcome`), the gateway as a call result
(`map_dispatch_to_call_result`).
-/

namespace Monoloop.Tools

open Monoloop.Interpreter (Json)
open ToolDispatch (ToolHandler supportsRequiredTermination ownershipOk LinkedToolExecutionHandle)
open Validation

/-! ## Requests and outcomes -/

structure DispatchRequest where
  exchangeId : ExchangeId
  toolActionId : ToolActionId
  toolName : ToolName
  providerToolCallId : String
  requestOrdinal : Nat
  argumentsJson : String

/-- What a handler is started with. -/
structure ToolCall where
  toolName : ToolName
  toolId : ToolId
  providerToolCallId : String
  arguments : Json
  requestOrdinal : Nat

inductive ToolLifecycleEvent where
  | started (toolActionId : ToolActionId) (toolId : ToolId) (toolName : ToolName)
      (providerToolCallId : String) (requestOrdinal : Nat)
  | completed (result : CanonicalToolResult Json)
  | runtimeFailed (toolActionId : ToolActionId) (toolId : ToolId) (code : String)

inductive DispatchOutcome where
  | canonical (result : CanonicalToolResult Json) (lifecycle : List ToolLifecycleEvent)
  | rejected (toolActionId : ToolActionId) (code message : String)
      (lifecycle : List ToolLifecycleEvent)
  | runtimeFailed (toolActionId : ToolActionId) (toolId : Option ToolId) (code : String)
      (lifecycle : List ToolLifecycleEvent)

def DispatchOutcome.lifecycle : DispatchOutcome → List ToolLifecycleEvent
  | .canonical _ lifecycle | .rejected _ _ _ lifecycle | .runtimeFailed _ _ _ lifecycle => lifecycle

/-- The result of `handler.start`, with the completion that the dispatch got. -/
inductive StartAnswer where
  | started (handle : LinkedToolExecutionHandle) (completion : ToolCompletion)
  | capacityExceeded
  | rejected (reason : String)
  | panicked

/-- What a dispatch meets. -/
structure DispatchMeets (H : Type) where
  queued : Bool
  acquired : Bool
  late : Bool
  start : H → ToolCall → StartAnswer

/-- An outcome and, as an observation, the handler that was started with its call. -/
structure Dispatched (H : Type) where
  outcome : DispatchOutcome
  started : Option (H × ToolCall)

/-! ## The checks on arguments -/

inductive InputValidationFailure where
  | oversizedInput
  | invalidJson
  | depthExceeded
  | schemaInvalid
deriving DecidableEq, Repr

def validateToolInput (serde : SerdeJson Json) (validator : SchemaValidator) (payload : String)
    (schema : JsonSchema) (maxInputBytes maxDepth : Nat) : Except InputValidationFailure Json :=
  if maxInputBytes < payload.utf8ByteSize then .error .oversizedInput
  else
    match serde.parse payload with
    | none => .error .invalidJson
    | some value =>
        if jsonDepthOk value 0 maxDepth = false then .error .depthExceeded
        else if validator schema.value value then .ok value
        else .error .schemaInvalid

def rejectInput (action : ToolActionId) : InputValidationFailure → DispatchOutcome
  | .oversizedInput => .rejected action "oversized_input" "tool input exceeds limit" []
  | .invalidJson => .rejected action "invalid_json" "tool arguments are not valid JSON" []
  | .depthExceeded => .rejected action "json_depth_exceeded" "tool arguments too deep" []
  | .schemaInvalid => .rejected action "schema_invalid" "tool arguments fail input schema" []

def runtimeErrorCode : ToolDispatch.ToolRuntimeError → String
  | .panicked => "panicked"
  | .completionLost => "completion_lost"
  | .outputContractViolated => "output_contract_violated"
  | .terminationFailed => "termination_failed"
  | .deadlineExceeded => "deadline_exceeded"

/-! ## The dispatcher -/

structure TransactionToolDispatcher (H : Type) where
  transactionId : TransactionId
  sessionKey : SessionKey
  tools : ResolvedToolSet H
  maxToolPayloadBytes : Nat
  maxToolOutputBytes : Nat

namespace TransactionToolDispatcher

section Dispatch

variable {H : Type} (traits : H → ToolHandler) (serde : SerdeJson Json)
  (validator : SchemaValidator) (d : TransactionToolDispatcher H) (meets : DispatchMeets H)
  (request : DispatchRequest)

def startedEvent (spec : ToolSpec) : ToolLifecycleEvent :=
  .started request.toolActionId spec.id request.toolName request.providerToolCallId
    request.requestOrdinal

def callOf (spec : ToolSpec) (arguments : Json) : ToolCall :=
  ⟨request.toolName, spec.id, request.providerToolCallId, arguments, request.requestOrdinal⟩

def resultOf (spec : ToolSpec) (outcome : CanonicalToolResultOutcome Json) :
    CanonicalToolResult Json where
  transactionId := d.transactionId
  sessionKey := d.sessionKey
  exchangeId := request.exchangeId
  toolActionId := request.toolActionId
  toolId := spec.id
  providerToolCallId := request.providerToolCallId
  requestOrdinal := request.requestOrdinal
  outcome := outcome

/-- A failure of a tool whose start was announced. -/
def failedWith (spec : ToolSpec) (published code : String) : DispatchOutcome :=
  .runtimeFailed request.toolActionId (some spec.id) code
    [startedEvent request spec, .runtimeFailed request.toolActionId spec.id published]

def canonicalWith (spec : ToolSpec) (outcome : CanonicalToolResultOutcome Json) :
    DispatchOutcome :=
  .canonical (d.resultOf request spec outcome)
    [startedEvent request spec, .completed (d.resultOf request spec outcome)]

def maxOutput (spec : ToolSpec) : Nat := min spec.limits.maxOutputBytes d.maxToolOutputBytes

/-- The completion against the output contract. -/
def settle (spec : ToolSpec) (completion : ToolCompletion) : DispatchOutcome :=
  match validateToolCompletion serde validator completion spec.outputContract (d.maxOutput spec)
      maxErrorMessageBytes defaultMaxJsonDepth with
  | .error _ => failedWith request spec "output_contract_violated" "output_contract_violated"
  | .ok (.succeeded output) => d.canonicalWith request spec (.succeeded output)
  | .ok (.domainFailed err) => d.canonicalWith request spec (.domainFailed err)
  | .ok (.runtimeFailed e) => failedWith request spec (runtimeErrorCode e) (runtimeErrorCode e)

/-- From `handler.start` on. -/
def runHandler (spec : ToolSpec) : StartAnswer → DispatchOutcome
  | .capacityExceeded =>
      .rejected request.toolActionId "tool_capacity_exceeded" "handler capacity exceeded"
        [startedEvent request spec]
  | .rejected reason => failedWith request spec "tool_start_rejected" ("start_rejected:" ++ reason)
  | .panicked => failedWith request spec "tool_panicked" "panicked"
  | .started handle completion =>
      if ownershipOk handle spec.executionClass.kind then
        d.settle serde validator request spec completion
      else failedWith request spec "missing_kill_handle" "missing_kill_handle"

/-- With arguments that passed. -/
def dispatchValid (tool : ResolvedTool H) (arguments : Json) : Dispatched H :=
  if !meets.acquired then
    ⟨.rejected request.toolActionId "tool_capacity_exceeded" "tool concurrency capacity exceeded" [],
      none⟩
  else if meets.late then
    ⟨.runtimeFailed request.toolActionId (some tool.spec.id) "transaction_deadline_exceeded" [], none⟩
  else if !supportsRequiredTermination (traits tool.handler) tool.spec.executionClass.kind then
    ⟨failedWith request tool.spec "missing_kill_handle" "missing_kill_handle", none⟩
  else
    ⟨d.runHandler serde validator request tool.spec
        (meets.start tool.handler (callOf request tool.spec arguments)),
      some (tool.handler, callOf request tool.spec arguments)⟩

def maxPayload (spec : ToolSpec) : Nat := min spec.limits.maxInputBytes d.maxToolPayloadBytes

def dispatch : Dispatched H :=
  match d.tools.getByName request.toolName with
  | none =>
      ⟨.rejected request.toolActionId "tool_not_allowed" "tool not in resolved set" [], none⟩
  | some tool =>
      if !meets.queued then
        ⟨.rejected request.toolActionId "tool_queue_full" "per-transaction tool queue full" [], none⟩
      else
        match validateToolInput serde validator request.argumentsJson tool.spec.inputSchema
            (d.maxPayload tool.spec) defaultMaxJsonDepth with
        | .error failed => ⟨rejectInput request.toolActionId failed, none⟩
        | .ok arguments => d.dispatchValid traits serde validator meets request tool arguments

end Dispatch

/-! ## What a dispatch does -/

section Spec

variable {H : Type} {traits : H → ToolHandler} {serde : SerdeJson Json}
  {validator : SchemaValidator} {d : TransactionToolDispatcher H} {meets : DispatchMeets H}
  {request : DispatchRequest}

/-- Arguments that may be given to a tool: small and shallow JSON that its schema accepts. -/
structure ValidArguments (serde : SerdeJson Json) (validator : SchemaValidator) (spec : ToolSpec)
    (maxBytes : Nat) (payload : String) (arguments : Json) : Prop where
  size : payload.utf8ByteSize ≤ maxBytes
  parsed : serde.parse payload = some arguments
  shallow : jsonDepthOk arguments 0 defaultMaxJsonDepth = true
  schema : validator spec.inputSchema.value arguments = true

theorem validateToolInput_ok {spec : ToolSpec} {maxBytes : Nat} {payload : String}
    {arguments : Json} :
    validateToolInput serde validator payload spec.inputSchema maxBytes defaultMaxJsonDepth =
        .ok arguments ↔ ValidArguments serde validator spec maxBytes payload arguments := by
  unfold validateToolInput
  constructor
  · intro h
    split_ifs at h with hsize
    cases hparse : serde.parse payload with
    | none =>
        rw [hparse] at h
        cases h
    | some value =>
        rw [hparse] at h
        dsimp only at h
        split_ifs at h with hdepth hschema
        cases h
        exact ⟨Nat.le_of_not_lt hsize, hparse, by simpa using hdepth, hschema⟩
  · rintro ⟨hsize, hparse, hdepth, hschema⟩
    rw [if_neg (Nat.not_lt.mpr hsize), hparse]
    simp [hdepth, hschema]

/-- A failure or a result is announced after the start; nothing else is. -/
inductive Announced (d : TransactionToolDispatcher H) (request : DispatchRequest) (spec : ToolSpec) :
    DispatchOutcome → Prop where
  | started (code message : String) : Announced d request spec
      (.rejected request.toolActionId code message [startedEvent request spec])
  | failed (published code : String) (hcode : (code.toList.head?.any (·.isAlpha)) = true) :
      Announced d request spec (failedWith request spec published code)
  | completed (outcome : CanonicalToolResultOutcome Json) :
      Announced d request spec (d.canonicalWith request spec outcome)

theorem settle_announced (spec : ToolSpec) (completion : ToolCompletion) :
    Announced d request spec (d.settle serde validator request spec completion) := by
  unfold settle
  split
  · exact .failed _ _ rfl
  · exact .completed _
  · exact .completed _
  · rename_i e _
    exact .failed _ _ (by cases e <;> rfl)

theorem runHandler_announced (spec : ToolSpec) (answer : StartAnswer) :
    Announced d request spec (d.runHandler serde validator request spec answer) := by
  cases answer with
  | capacityExceeded => exact .started _ _
  | rejected reason =>
      refine .failed _ _ ?_
      rw [String.toList_append]
      rfl
  | panicked => exact .failed _ _ rfl
  | started handle completion =>
      rw [runHandler]
      split
      · exact settle_announced spec completion
      · exact .failed _ _ rfl

/-- A result is a completion that its contract accepts. -/
theorem settle_canonical {spec : ToolSpec} {completion : ToolCompletion}
    {result : CanonicalToolResult Json} {lifecycle : List ToolLifecycleEvent}
    (h : d.settle serde validator request spec completion = .canonical result lifecycle) :
    ∃ outcome, completion = completionOf outcome ∧ result = d.resultOf request spec outcome ∧
      Accepted serde validator spec.outputContract (d.maxOutput spec) maxErrorMessageBytes
        defaultMaxJsonDepth outcome := by
  have haccepted : ∀ outcome, completion = completionOf outcome →
      (∃ passed, validateToolCompletion serde validator completion spec.outputContract
        (d.maxOutput spec) maxErrorMessageBytes defaultMaxJsonDepth = .ok passed) →
      Accepted serde validator spec.outputContract (d.maxOutput spec) maxErrorMessageBytes
        defaultMaxJsonDepth outcome := by
    rintro outcome rfl ⟨passed, hpassed⟩
    exact (validateToolCompletion_ok.mp hpassed).1
  cases completion with
  | runtimeFailed e => cases h
  | succeeded output =>
      unfold settle at h
      cases hpassed : validateToolCompletion serde validator (.succeeded output)
          spec.outputContract (d.maxOutput spec) maxErrorMessageBytes defaultMaxJsonDepth with
      | error e =>
          rw [hpassed] at h
          cases h
      | ok passed =>
          obtain ⟨hok, rfl⟩ :=
            (@validateToolCompletion_ok _ _ _ _ _ _ (.succeeded output) _).mp hpassed
          rw [hpassed] at h
          cases h
          exact ⟨.succeeded output, rfl, rfl, hok⟩
  | domainFailed err =>
      unfold settle at h
      cases hpassed : validateToolCompletion serde validator (.domainFailed err)
          spec.outputContract (d.maxOutput spec) maxErrorMessageBytes defaultMaxJsonDepth with
      | error e =>
          rw [hpassed] at h
          cases h
      | ok passed =>
          obtain ⟨hok, rfl⟩ :=
            (@validateToolCompletion_ok _ _ _ _ _ _ (.domainFailed err) _).mp hpassed
          rw [hpassed] at h
          cases h
          exact ⟨.domainFailed err, rfl, rfl, hok⟩

theorem lookup_fromRegistered {tools : List (RegisteredTool traits)} {id : ToolId}
    {t : ResolvedTool H} (h : (ResolvedToolSet.fromRegistered tools).byId.lookup id = some t) :
    ∃ tool ∈ tools, tool.resolved = t := by
  induction tools using List.reverseRecOn with
  | nil => simp [ResolvedToolSet.fromRegistered, ResolvedToolSet.empty] at h
  | append_singleton tools tool ih =>
      have hset : (ResolvedToolSet.fromRegistered (tools ++ [tool])).byId.lookup id =
          if id = tool.spec.id then some tool.resolved
          else (ResolvedToolSet.fromRegistered tools).byId.lookup id := by
        rw [ResolvedToolSet.fromRegistered, List.foldl_append]
        exact HashMap.lookup_insert_ite ..
      rw [hset] at h
      split at h
      · exact ⟨tool, by simp, Option.some.inj h⟩
      · obtain ⟨tool', hmem, heq⟩ := ih h
        exact ⟨tool', List.mem_append_left _ hmem, heq⟩

/-- The handlers of registered tools can all be stopped. -/
theorem stoppable_of_getByName {tools : List (RegisteredTool traits)} {name : ToolName}
    {t : ResolvedTool H} (h : (ResolvedToolSet.fromRegistered tools).getByName name = some t) :
    supportsRequiredTermination (traits t.handler) t.spec.executionClass.kind = true := by
  obtain ⟨id, -, hlookup⟩ := Option.bind_eq_some_iff.mp h
  obtain ⟨tool, -, rfl⟩ := lookup_fromRegistered hlookup
  exact tool.stoppable

/-- The call that a handler was started with. -/
structure Calls (serde : SerdeJson Json) (validator : SchemaValidator)
    (d : TransactionToolDispatcher H) (request : DispatchRequest) (tool : ResolvedTool H)
    (handler : H) (call : ToolCall) : Prop where
  linked : handler = tool.handler
  made : call = callOf request tool.spec call.arguments
  valid : ValidArguments serde validator tool.spec (d.maxPayload tool.spec)
    request.argumentsJson call.arguments

/-- **The two ways of a dispatch.** Without a start there are no events and there is no
result; with one, the tool of that name was started with valid arguments, and the start is
announced first. -/
inductive Takes (serde : SerdeJson Json) (validator : SchemaValidator)
    (d : TransactionToolDispatcher H) (meets : DispatchMeets H) (request : DispatchRequest) :
    Dispatched H → Prop where
  | unstarted {outcome : DispatchOutcome} (hevents : outcome.lifecycle = [])
      (hresult : ∀ result lifecycle, outcome ≠ .canonical result lifecycle)
      (hcode : ∀ action id code lifecycle, outcome = .runtimeFailed action id code lifecycle →
        (code.toList.head?.any (·.isAlpha)) = true) :
      Takes serde validator d meets request ⟨outcome, none⟩
  | ran {tool : ResolvedTool H} {handler : H} {call : ToolCall}
      (htool : d.tools.getByName request.toolName = some tool)
      (hcall : Calls serde validator d request tool handler call) :
      Takes serde validator d meets request
        ⟨d.runHandler serde validator request tool.spec (meets.start handler call),
          some (handler, call)⟩

theorem dispatch_takes
    (hstoppable : ∀ tool, d.tools.getByName request.toolName = some tool →
      supportsRequiredTermination (traits tool.handler) tool.spec.executionClass.kind = true) :
    Takes serde validator d meets request (d.dispatch traits serde validator meets request) := by
  have hrejected : ∀ action code message, Takes serde validator d meets request
      ⟨.rejected action code message [], none⟩ :=
    fun action code message => .unstarted rfl (fun _ _ h => by cases h) fun _ _ _ _ h => by cases h
  unfold dispatch
  cases htool : d.tools.getByName request.toolName with
  | none => exact hrejected _ _ _
  | some tool =>
      dsimp only
      split
      · exact hrejected _ _ _
      · cases hinput : validateToolInput serde validator request.argumentsJson
            tool.spec.inputSchema (d.maxPayload tool.spec) defaultMaxJsonDepth with
        | error failed => cases failed <;> exact hrejected _ _ _
        | ok arguments =>
            unfold dispatchValid
            dsimp only
            rw [hstoppable tool htool]
            split
            · exact hrejected _ _ _
            · split
              · refine .unstarted rfl (fun _ _ h => by cases h) fun _ _ _ _ h => ?_
                cases h
                rfl
              · exact .ran htool ⟨rfl, rfl, validateToolInput_ok.mp hinput⟩

end Spec

end TransactionToolDispatcher

open TransactionToolDispatcher

/-- **What a dispatch may do.** Nothing is started but the tool of the called name, with
arguments that its schema accepts within the bounds, and what it returns passes only if its
contract accepts it; the result keeps the identities of the request. Events tell of this and
of nothing else: no event without a start, the start first, the result once. -/
theorem dispatch_sound {H : Type} (traits : H → ToolHandler) (serde : SerdeJson Json)
    (validator : SchemaValidator) (tools : List (RegisteredTool traits))
    (transactionId : TransactionId) (sessionKey : SessionKey)
    (maxToolPayloadBytes maxToolOutputBytes : Nat) (meets : DispatchMeets H)
    (request : DispatchRequest) :
    let d : TransactionToolDispatcher H :=
      ⟨transactionId, sessionKey, .fromRegistered tools, maxToolPayloadBytes, maxToolOutputBytes⟩
    let out := d.dispatch traits serde validator meets request
    (out.started = none → out.outcome.lifecycle = [] ∧
      ∀ result lifecycle, out.outcome ≠ .canonical result lifecycle) ∧
    ∀ handler call, out.started = some (handler, call) →
      ∃ tool, d.tools.getByName request.toolName = some tool ∧
        Calls serde validator d request tool handler call ∧
        (∃ rest, out.outcome.lifecycle = startedEvent request tool.spec :: rest ∧
          rest.length ≤ 1) ∧
        ∀ result lifecycle, out.outcome = .canonical result lifecycle →
          ∃ handle outcome, meets.start handler call = .started handle (completionOf outcome) ∧
            Accepted serde validator tool.spec.outputContract (d.maxOutput tool.spec)
              maxErrorMessageBytes defaultMaxJsonDepth outcome ∧
            result = d.resultOf request tool.spec outcome ∧
            lifecycle = [startedEvent request tool.spec, .completed result] := by
  intro d out
  have htakes : Takes serde validator d meets request out :=
    dispatch_takes fun tool htool => stoppable_of_getByName htool
  clear_value out
  cases htakes with
  | unstarted hevents hresult hcode =>
      exact ⟨fun _ => ⟨hevents, hresult⟩, fun handler call h => by cases h⟩
  | @ran tool handler call htool hcall =>
      refine ⟨fun h => (by cases h), ?_⟩
      intro handler' call' hstarted
      cases hstarted
      refine ⟨tool, htool, hcall, ?_, ?_⟩
      · have hannounced : Announced d request tool.spec
            (d.runHandler serde validator request tool.spec (meets.start handler call)) :=
          runHandler_announced _ _
        revert hannounced
        generalize d.runHandler serde validator request tool.spec (meets.start handler call) = ended
        intro hannounced
        cases hannounced with
        | started code message => exact ⟨[], rfl, Nat.zero_le _⟩
        | failed published code _ => exact ⟨[_], rfl, Nat.le_refl _⟩
        | completed outcome => exact ⟨[_], rfl, Nat.le_refl _⟩
      · intro result lifecycle hresult
        dsimp only at hresult
        cases hanswer : meets.start handler call with
        | capacityExceeded =>
            rw [hanswer] at hresult
            cases hresult
        | rejected reason =>
            rw [hanswer] at hresult
            cases hresult
        | panicked =>
            rw [hanswer] at hresult
            cases hresult
        | started handle completion =>
            rw [hanswer, runHandler] at hresult
            split at hresult
            · obtain ⟨outcome, rfl, hsame, haccepted⟩ := settle_canonical hresult
              refine ⟨handle, outcome, rfl, haccepted, hsame, ?_⟩
              have hannounced : Announced d request tool.spec (.canonical result lifecycle) :=
                hresult ▸ settle_announced _ _
              cases hannounced
              rfl
            · cases hresult

end Monoloop.Tools
