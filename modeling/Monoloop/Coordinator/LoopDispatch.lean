import Monoloop.Contracts.Input
import Monoloop.Publisher.SessionIdentity
import Monoloop.ToolLoop.History

/-!
# The Loop over the units of one exchange

`loop_dispatch.rs`: tool actions get exchange-scoped ids, the Loop is fed the
scoped units and closed, and its outbound results become canonical results under
the provider's own call ids.

What the tools, the queue and the transaction do meanwhile is a `LoopPass`.
-/

namespace Monoloop.Coordinator

open ToolLoop Publisher

variable {Json : Type}

/-! ## Exchange-scoped action ids -/

/-- `"{exchange_id}:"`. -/
def exchangeTag (exchange : ExchangeId) : String := uuidText exchange.uuid ++ ":"

/-- `str::strip_prefix`. -/
def stripLeading (lead s : String) : Option String :=
  if lead.toList.isPrefixOf s.toList then some (String.ofList (s.toList.drop lead.toList.length))
  else none

def toolActionIdForExchange (exchange : ExchangeId) (providerToolCallId : String) : ToolActionId :=
  ⟨exchangeTag exchange ++ providerToolCallId⟩

/-- The provider's id, when the action is scoped to this exchange. -/
def providerToolCallIdFromAction (exchange : ExchangeId) (action : ToolActionId) : Option String :=
  (stripLeading (exchangeTag exchange) action.value).filter fun s => !s.isEmpty

def scopeToolAction (exchange : ExchangeId) (tool : ToolActionEvent) : ToolActionEvent :=
  if (providerToolCallIdFromAction exchange tool.toolActionId).isNone then
    { tool with toolActionId := toolActionIdForExchange exchange tool.toolActionId.value }
  else tool

def scopeSnapshot (exchange : ExchangeId) (snap : CanonicalUnitSnapshot) : CanonicalUnitSnapshot :=
  match snap.unit with
  | .tool tool => { snap with unit := .tool (scopeToolAction exchange tool) }
  | _ => snap

def scopeOneToolUnit (exchange : ExchangeId) : CanonicalUnitEvent → CanonicalUnitEvent
  | .created s => .created (scopeSnapshot exchange s)
  | .advanced s => .advanced (scopeSnapshot exchange s)
  | .completed s => .completed (scopeSnapshot exchange s)
  | .incomplete s => .incomplete (scopeSnapshot exchange s)

def scopeToolUnitsForExchange (units : List CanonicalUnitEvent) (exchange : ExchangeId) :
    List CanonicalUnitEvent :=
  units.map (scopeOneToolUnit exchange)

/-- Some unit is ready with name and payload. -/
def needsLoopDispatch (units : List CanonicalUnitEvent) : Bool :=
  units.any fun unit =>
    match unit.snapshot.unit with
    | .tool tool => tool.Dispatchable
    | _ => false

def providerIdForResult (exchange : ExchangeId) (action : ToolActionId) : String :=
  (providerToolCallIdFromAction exchange action).getD action.value

/-! ## Canonical results -/

/-- Whose units a pass works on. -/
structure ToolExchange where
  transactionId : TransactionId
  channelId : ChannelId
  sessionId : Option SessionId
  exchangeId : ExchangeId

def sessionKeyFor (channel : ChannelId) (session : Option SessionId) (tx : TransactionId) :
    SessionKey :=
  ⟨channel, session.getD (transactionScopedSessionId tx)⟩

def unavailableTool : ToolId := ⟨"unavailable", by decide⟩

def completedTool : ToolId := ⟨"completed", by decide⟩

def failedTool : ToolId := ⟨"failed", by decide⟩

/-- The domain error of a tool that did not run to its end. -/
def executionFailure (payload : String) : CanonicalToolError Json :=
  match CanonicalToolError.tryNew "tool_execution_failed" (String.ofList (payload.toList.take 128))
      none 256 with
  | .ok error => error
  | .error _ => ⟨"tool_execution_failed", "failed", none⟩

/-- The result a pass builds itself. -/
def builtResult (x : ToolExchange) (ordinal : Nat) (r : OutboundToolResult) (tool : ToolId)
    (outcome : CanonicalToolResultOutcome Json) : CanonicalToolResult Json where
  transactionId := x.transactionId
  sessionKey := sessionKeyFor x.channelId x.sessionId x.transactionId
  exchangeId := x.exchangeId
  toolActionId := r.toolActionId
  toolId := tool
  providerToolCallId := providerIdForResult x.exchangeId r.toolActionId
  requestOrdinal := ordinal
  outcome := outcome

/-- A result that came back from the tool runtime, under the identities of this pass. -/
def adoptedResult (x : ToolExchange) (ordinal : Nat) (r : OutboundToolResult)
    (decoded : CanonicalToolResult Json) : CanonicalToolResult Json :=
  { decoded with
    transactionId := x.transactionId
    sessionKey := sessionKeyFor x.channelId x.sessionId x.transactionId
    exchangeId := x.exchangeId
    toolActionId := r.toolActionId
    providerToolCallId :=
      if decoded.providerToolCallId.isEmpty then providerIdForResult x.exchangeId r.toolActionId
      else decoded.providerToolCallId
    requestOrdinal := ordinal }

def toolResult (serde : SerdeJson Json) (x : ToolExchange) (ordinal : Nat)
    (r : OutboundToolResult) : CanonicalToolResult Json :=
  match r.outcome with
  | .toolUnavailable =>
      builtResult x ordinal r unavailableTool
        (.domainFailed ⟨"tool_unavailable", "no_registered_tool", none⟩)
  | .success =>
      match serde.parseResult r.payload with
      | some decoded => adoptedResult x ordinal r decoded
      | none =>
          let output :=
            match serde.parse r.payload with
            | some value => .json value
            | none => .text r.payload
          builtResult x ordinal r completedTool (.succeeded output)
  | .executionFailed =>
      match serde.parseResult r.payload with
      | some decoded => adoptedResult x ordinal r decoded
      | none => builtResult x ordinal r failedTool (.domainFailed (executionFailure r.payload))
  | .dispatchRejected | .cancelled | .executionLost =>
      builtResult x ordinal r failedTool (.domainFailed (executionFailure r.payload))

/-- The receive loop of the pass; ordinals are `u32`. -/
def collectResults (serde : SerdeJson Json) (x : ToolExchange) :
    List LoopOutputEvent → List (CanonicalToolResult Json) → List (CanonicalToolResult Json)
  | [], results => results
  | .outboundToolResult r :: rest, results =>
      collectResults serde x rest
        (results ++ [toolResult serde x (results.length % 2 ^ 32) r])
  | .loopEnded _ :: _, results => results
  | _ :: rest, results => collectResults serde x rest results

/-! ## The supervised pass -/

/-- Error driving the supervised Loop. -/
inductive LoopDispatchError where
  | cancelled
  | deadlineExceeded
  | publishFailed
  | startFailed
  | loopFailed
deriving DecidableEq, Repr

/-- What one pass meets: the Loop's environment, and what stops the pass before
the Loop has ended, if anything does. -/
structure LoopPass where
  loop : LoopEnvironment
  interrupted : Option LoopDispatchError

/-- Loop bounds of a pass. -/
def defaultLoopLimits : LoopLimits where
  maxToolActions := 1024
  maxDedupEntries := 4096

/-- The Loop a pass prepares. Its run id has the text of the transaction's own
session id. -/
def preparedLoop (tx : TransactionId) : LoopOwner :=
  .new ⟨(transactionScopedSessionId tx).value, (transactionScopedSessionId tx).valid⟩
    ⟨"loop-" ++ uuidText tx.uuid⟩ ⟨[], [], [], true⟩ defaultLoopLimits

/-- What the Loop sees: the units, scoped again, and the end of the subscription. -/
def passInputs (x : ToolExchange) (units : List CanonicalUnitEvent) : List LoopInput :=
  number 1 (feed (scopeToolUnitsForExchange units x.exchangeId))

/-- The results of a pass that was not stopped and whose Loop drained. -/
def runSupervisedLoop (serde : SerdeJson Json) (pass : LoopPass) (x : ToolExchange)
    (units : List CanonicalUnitEvent) :
    Except LoopDispatchError (List (CanonicalToolResult Json)) :=
  match pass.interrupted with
  | some e => .error e
  | none =>
      let o := preparedLoop x.transactionId
      match ((o.run pass.loop (passInputs x units)).ended).map LoopEnd.kind with
      | some .drained => .ok (collectResults serde x (o.output pass.loop (passInputs x units)) [])
      | some .cancelled => .error .cancelled
      | _ => .error .loopFailed

/-! ## What the tool runtime sends back -/

/-- Codes of a tool that could not be run. -/
def runtimeFailureCodes : List String :=
  ["transaction_deadline_exceeded", "missing_kill_handle", "panicked", "completion_lost",
    "output_contract_violated", "termination_failed", "deadline_exceeded"]

/-- Errors of `HostToolRuntime::start`. -/
def hostStartErrors : List String := ["invalid tool name", "tool worker spawn capacity exceeded"]

/-- The text sent for a result that does not encode. -/
def encodeFailure : String := "\x7b\"error\":\"encode\"\x7d"

/-- The payloads `HostToolRuntime` answers a request for `action` with. -/
inductive HostPayload (serde : SerdeJson Json) (exchange : ExchangeId) (action : ToolActionId) :
    String → Prop where
  /-- `map_outcome` of a canonical result: the dispatcher keeps the provider id of
  the request, which `start` has taken from the action. -/
  | canonical (result : CanonicalToolResult Json)
      (h : result.providerToolCallId = providerIdForResult exchange action) :
      HostPayload serde exchange action ((serde.renderResult result).getD encodeFailure)
  | runtimeFailed (code : String) (h : code ∈ runtimeFailureCodes) :
      HostPayload serde exchange action code
  | startRejected (reason : String) : HostPayload serde exchange action ("start_rejected:" ++ reason)
  | startError (message : String) (h : message ∈ hostStartErrors) :
      HostPayload serde exchange action message

/-- The results of a pass carry what `HostToolRuntime` sends. -/
def HostAnswered (serde : SerdeJson Json) (pass : LoopPass) (x : ToolExchange)
    (units : List CanonicalUnitEvent) : Prop :=
  ∀ r ∈ resultsOf ((preparedLoop x.transactionId).output pass.loop (passInputs x units)),
    r.outcome = .success ∨ r.outcome = .executionFailed →
      HostPayload serde x.exchangeId r.toolActionId r.payload

/-- What is relied on of `serde_json`. -/
structure FaithfulSerde (serde : SerdeJson Json) : Prop where
  /-- A result that is read back has the provider id it was written with. -/
  callId : ∀ result text decoded, serde.renderResult result = some text →
    serde.parseResult text = some decoded → decoded.providerToolCallId = result.providerToolCallId
  /-- A text that starts with a letter is no record. -/
  word : ∀ c rest, c.isAlpha → serde.parseResult (String.ofList (c :: rest)) = none
  /-- An object without the fields of a result is no result. -/
  encodeFailure : serde.parseResult encodeFailure = none

/-- What a host payload decodes to has the provider id of its action. -/
theorem HostPayload.callId {serde : SerdeJson Json} {exchange : ExchangeId} {action : ToolActionId}
    {payload : String} {decoded : CanonicalToolResult Json} (hserde : FaithfulSerde serde)
    (h : HostPayload serde exchange action payload)
    (hdecoded : serde.parseResult payload = some decoded) :
    decoded.providerToolCallId = providerIdForResult exchange action := by
  have hword : ∀ text : String, (text.toList.head?.any (·.isAlpha)) = true →
      serde.parseResult text ≠ some decoded := by
    intro text hhead
    cases hlist : text.toList with
    | nil => simp [hlist] at hhead
    | cons c rest =>
        rw [hlist] at hhead
        have hnone := hserde.word c rest (by simpa using hhead)
        rw [← hlist, String.ofList_toList] at hnone
        simp [hnone]
  cases h with
  | canonical result hresult =>
      cases hrender : serde.renderResult result with
      | some text =>
          rw [hrender] at hdecoded
          rw [hserde.callId result text decoded hrender hdecoded, hresult]
      | none =>
          rw [hrender] at hdecoded
          rw [Option.getD_none, hserde.encodeFailure] at hdecoded
          cases hdecoded
  | runtimeFailed code hcode =>
      refine absurd hdecoded (hword payload ?_)
      have hall : ∀ code ∈ runtimeFailureCodes, (code.toList.head?.any (·.isAlpha)) = true := by
        decide
      exact hall payload hcode
  | startRejected reason =>
      refine absurd hdecoded (hword _ ?_)
      rw [String.toList_append]
      rfl
  | startError message hmessage =>
      refine absurd hdecoded (hword payload ?_)
      have hall : ∀ text ∈ hostStartErrors, (text.toList.head?.any (·.isAlpha)) = true := by decide
      exact hall payload hmessage

/-! ## Provider ids of results -/

variable {serde : SerdeJson Json} {x : ToolExchange}

/-- The result answers the call of an outbound result, under the provider's id. -/
structure AnswersCall (x : ToolExchange) (r : OutboundToolResult)
    (result : CanonicalToolResult Json) : Prop where
  action : result.toolActionId = r.toolActionId
  exchange : result.exchangeId = x.exchangeId
  provider : result.providerToolCallId = providerIdForResult x.exchangeId r.toolActionId

theorem builtResult_answers (ordinal : Nat) (r : OutboundToolResult) (tool : ToolId)
    (outcome : CanonicalToolResultOutcome Json) :
    AnswersCall x r (builtResult x ordinal r tool outcome) := ⟨rfl, rfl, rfl⟩

theorem adoptedResult_answers (ordinal : Nat) {r : OutboundToolResult}
    {decoded : CanonicalToolResult Json}
    (h : decoded.providerToolCallId = providerIdForResult x.exchangeId r.toolActionId) :
    AnswersCall x r (adoptedResult x ordinal r decoded) := by
  refine ⟨rfl, rfl, ?_⟩
  unfold adoptedResult
  dsimp only
  split
  · rfl
  · exact h

/-- Whatever way a result was made, it answers the provider's own call. -/
theorem toolResult_answers (hserde : FaithfulSerde serde) (ordinal : Nat) {r : OutboundToolResult}
    (hhost : r.outcome = .success ∨ r.outcome = .executionFailed →
      HostPayload serde x.exchangeId r.toolActionId r.payload) :
    AnswersCall x r (toolResult serde x ordinal r) := by
  unfold toolResult
  split
  · exact builtResult_answers _ _ _ _
  · rename_i houtcome
    split
    · rename_i decoded hdecoded
      exact adoptedResult_answers _ ((hhost (.inl houtcome)).callId hserde hdecoded)
    · exact builtResult_answers _ _ _ _
  · rename_i houtcome
    split
    · rename_i decoded hdecoded
      exact adoptedResult_answers _ ((hhost (.inr houtcome)).callId hserde hdecoded)
    · exact builtResult_answers _ _ _ _
  · exact builtResult_answers _ _ _ _
  · exact builtResult_answers _ _ _ _
  · exact builtResult_answers _ _ _ _

end Monoloop.Coordinator
