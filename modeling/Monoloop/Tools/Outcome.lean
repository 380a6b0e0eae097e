import Monoloop.Coordinator.Transcript
import Monoloop.Tools.Dispatch

/-!
# What is told of a dispatch

An outcome goes to the model by way of the Loop, which writes it as a payload that the
coordinator reads back, or to an external agent as the result of an MCP call. The two
agree on what a success is and on its words (`success_told_alike`).
-/

namespace Monoloop.Tools

open Monoloop.Interpreter (Json)
open ToolDispatch (ToolHandler)
open ToolLoop (ToolRuntimeTerminal)
open Coordinator (FaithfulSerde ToolExchange toolResult resultText)
open Validation TransactionToolDispatcher

/-! ## The two readings -/

/-- `map_outcome`. -/
def mapOutcome (serde : SerdeJson Json) : DispatchOutcome → ToolRuntimeTerminal
  | .canonical result _ =>
      { outcome := match result.outcome with
          | .succeeded _ => .success
          | .domainFailed _ => .executionFailed
        payload := (serde.renderResult result).getD Coordinator.encodeFailure }
  | .rejected _ code message _ => ⟨.dispatchRejected, code ++ ":" ++ message⟩
  | .runtimeFailed _ _ code _ => ⟨.executionFailed, code⟩

/-- The result of an MCP call: a text, and whether it tells of an error. -/
structure CallToolResult where
  text : String
  isError : Bool
deriving DecidableEq, Repr

def outputText (serde : SerdeJson Json) : CanonicalToolOutput Json → String
  | .json v => (serde.render v).getD "\x7b\x7d"
  | .text t => t

def mapDispatchToCallResult (serde : SerdeJson Json) :
    DispatchOutcome → Except McpError CallToolResult
  | .canonical result _ =>
      match result.outcome with
      | .succeeded output => .ok ⟨outputText serde output, false⟩
      | .domainFailed err => .ok ⟨err.code ++ ": " ++ err.message, true⟩
  | .rejected _ code message _ => .ok ⟨code ++ ": " ++ message, true⟩
  | .runtimeFailed _ _ code _ => .error ⟨.internalError, "tool runtime failure: " ++ code⟩

/-- The outcome of the result that the coordinator makes of a terminal. -/
def toldModel (serde : SerdeJson Json) (x : ToolExchange) (ordinal : Nat) (r : OutboundToolResult)
    (outcome : DispatchOutcome) : CanonicalToolResultOutcome Json :=
  (toolResult serde x ordinal { r with
    outcome := (mapOutcome serde outcome).outcome
    payload := (mapOutcome serde outcome).payload }).outcome

/-! ## They agree -/

section

variable {H : Type} {traits : H → ToolHandler} {serde : SerdeJson Json}
  {x : ToolExchange} {ordinal : Nat} {r : OutboundToolResult}

/-- A result that is read back is told as it is. -/
theorem toldModel_canonical {result : CanonicalToolResult Json}
    {lifecycle : List ToolLifecycleEvent}
    (h : (serde.renderResult result).bind serde.parseResult = some result) :
    toldModel serde x ordinal r (.canonical result lifecycle) = result.outcome := by
  obtain ⟨text, hrender, hparse⟩ := Option.bind_eq_some_iff.mp h
  obtain ⟨tx, key, exchange, action, tool, provider, ordinal', outcome⟩ := result
  cases outcome with
  | succeeded output =>
      unfold toldModel mapOutcome toolResult
      dsimp only
      rw [hrender, Option.getD_some, hparse]
      rfl
  | domainFailed err =>
      unfold toldModel mapOutcome toolResult
      dsimp only
      rw [hrender, Option.getD_some, hparse]
      rfl

theorem toldModel_rejected {action : ToolActionId} {code message : String}
    {lifecycle : List ToolLifecycleEvent} :
    ∃ err, toldModel serde x ordinal r (.rejected action code message lifecycle) =
      .domainFailed err := ⟨_, rfl⟩

/-- A code is no result, whatever it says. -/
theorem toldModel_runtimeFailed (hserde : FaithfulSerde serde) {action : ToolActionId}
    {id : Option ToolId} {code : String} {lifecycle : List ToolLifecycleEvent}
    (hcode : (code.toList.head?.any (·.isAlpha)) = true) :
    ∃ err, toldModel serde x ordinal r (.runtimeFailed action id code lifecycle) =
      .domainFailed err := by
  have hnone : serde.parseResult code = none := by
    cases hlist : code.toList with
    | nil => simp [hlist] at hcode
    | cons c rest =>
        rw [hlist] at hcode
        have hword := hserde.word c rest (by simpa using hcode)
        rwa [← hlist, String.ofList_toList] at hword
  unfold toldModel mapOutcome toolResult
  dsimp only
  rw [hnone]
  exact ⟨_, rfl⟩

/-- The code of a failed dispatch is a word. -/
theorem code_of_takes {validator : SchemaValidator} {d : TransactionToolDispatcher H}
    {meets : DispatchMeets H} {request : DispatchRequest} {out : Dispatched H}
    (h : Takes serde validator d meets request out) {action : ToolActionId} {id : Option ToolId}
    {code : String} {lifecycle : List ToolLifecycleEvent}
    (hfailed : out.outcome = .runtimeFailed action id code lifecycle) :
    (code.toList.head?.any (·.isAlpha)) = true := by
  cases h with
  | unstarted _ _ hcode => exact hcode action id code lifecycle hfailed
  | @ran tool handler call htool hcall =>
      have hannounced : Announced d request tool.spec
          (.runtimeFailed action id code lifecycle) :=
        hfailed ▸ runHandler_announced tool.spec (meets.start handler call)
      cases hannounced with
      | failed published code hcode => exact hcode

end

/-- **A success is told alike.** Of a dispatch the model is told of a success exactly when an
external agent would be, and in the same words; everything else is told to both as an
error. -/
theorem success_told_alike {H : Type} (traits : H → ToolHandler) (serde : SerdeJson Json)
    (validator : SchemaValidator) (tools : List (RegisteredTool traits))
    (transactionId : TransactionId) (sessionKey : SessionKey)
    (maxToolPayloadBytes maxToolOutputBytes : Nat) (meets : DispatchMeets H)
    (request : DispatchRequest) (x : ToolExchange) (ordinal : Nat) (r : OutboundToolResult)
    (hserde : FaithfulSerde serde)
    (hround : ∀ result lifecycle, ((⟨transactionId, sessionKey, .fromRegistered tools,
      maxToolPayloadBytes, maxToolOutputBytes⟩ : TransactionToolDispatcher H).dispatch traits serde
        validator meets request).outcome = .canonical result lifecycle →
      (serde.renderResult result).bind serde.parseResult = some result) :
    let outcome := ((⟨transactionId, sessionKey, .fromRegistered tools, maxToolPayloadBytes,
      maxToolOutputBytes⟩ : TransactionToolDispatcher H).dispatch traits serde validator meets
        request).outcome
    let told := toldModel serde x ordinal r outcome
    ((∃ output, told = .succeeded output) ↔
      ∃ text, mapDispatchToCallResult serde outcome = .ok ⟨text, false⟩) ∧
    ∀ output text, told = .succeeded output → resultText serde told = some text →
      mapDispatchToCallResult serde outcome = .ok ⟨text, false⟩ := by
  intro outcome told
  have htakes : Takes serde validator _ meets request
      ((⟨transactionId, sessionKey, .fromRegistered tools, maxToolPayloadBytes,
        maxToolOutputBytes⟩ : TransactionToolDispatcher H).dispatch traits serde validator meets
          request) :=
    dispatch_takes fun tool htool => stoppable_of_getByName htool
  have hfailed : ∀ err, told = .domainFailed err →
      (∀ text, mapDispatchToCallResult serde outcome ≠ .ok ⟨text, false⟩) →
      ((∃ output, told = .succeeded output) ↔
        ∃ text, mapDispatchToCallResult serde outcome = .ok ⟨text, false⟩) ∧
      ∀ output text, told = .succeeded output → resultText serde told = some text →
        mapDispatchToCallResult serde outcome = .ok ⟨text, false⟩ := by
    intro err htold hno
    rw [htold]
    refine ⟨iff_of_false (fun ⟨_, h⟩ => by cases h) fun ⟨text, h⟩ => hno text h, ?_⟩
    intro output text h
    cases h
  have htold : told = toldModel serde x ordinal r outcome := rfl
  clear_value told
  cases houtcome : outcome with
  | rejected action code message lifecycle =>
      obtain ⟨err, herr⟩ : ∃ err, toldModel serde x ordinal r
          (.rejected action code message lifecycle) = .domainFailed err := toldModel_rejected
      rw [← houtcome]
      refine hfailed err (htold.trans (by rw [houtcome, herr])) fun text h => ?_
      rw [houtcome] at h
      cases h
  | runtimeFailed action id code lifecycle =>
      obtain ⟨err, herr⟩ : ∃ err, toldModel serde x ordinal r
          (.runtimeFailed action id code lifecycle) = .domainFailed err :=
        toldModel_runtimeFailed hserde (code_of_takes htakes houtcome)
      rw [← houtcome]
      refine hfailed err (htold.trans (by rw [houtcome, herr])) fun text h => ?_
      rw [houtcome] at h
      cases h
  | canonical result lifecycle =>
      rw [houtcome, toldModel_canonical (hround result lifecycle houtcome)] at htold
      cases hresult : result.outcome with
      | domainFailed err =>
          rw [← houtcome]
          refine hfailed err (htold.trans hresult) fun text h => ?_
          rw [houtcome, mapDispatchToCallResult, hresult] at h
          cases h
      | succeeded output =>
          rw [htold, hresult, mapDispatchToCallResult, hresult]
          refine ⟨iff_of_true ⟨output, rfl⟩ ⟨_, rfl⟩, ?_⟩
          intro output' text h htext
          cases h
          dsimp only
          cases output with
          | json v =>
              have hrender : serde.render v = some text := htext
              rw [outputText, hrender]
              rfl
          | text t =>
              cases htext
              rfl

/-! ## A word that is found -/

def lookupRequest : DispatchRequest where
  exchangeId := ⟨2⟩
  toolActionId := ⟨"call_1"⟩
  toolName := lookupSpec.name
  providerToolCallId := "call_1"
  requestOrdinal := 0
  argumentsJson := "\x7b\x7d"

def lookupKey : SessionKey := ⟨Coordinator.firstExchange.channelId, ⟨"session", by decide⟩⟩

def foundResult : CanonicalToolResult Json where
  transactionId := ⟨1⟩
  sessionKey := lookupKey
  exchangeId := ⟨2⟩
  toolActionId := ⟨"call_1"⟩
  toolId := lookupSpec.id
  providerToolCallId := "call_1"
  requestOrdinal := 0
  outcome := .succeeded (.text "found")

def foundText : String :=
  "\x7b\"transaction_id\":\"00000000-0000-0000-0000-000000000001\",\"session_key\":" ++
    "\x7b\"channel_id\":\"channel\",\"session_id\":\"session\"\x7d,\"exchange_id\":" ++
    "\"00000000-0000-0000-0000-000000000002\",\"tool_action_id\":\"call_1\",\"tool_id\":" ++
    "\"lookup-1\",\"provider_tool_call_id\":\"call_1\",\"request_ordinal\":0,\"outcome\":" ++
    "\x7b\"Succeeded\":\x7b\"Text\":\"found\"\x7d\x7d\x7d"

/-- A library that knows the empty object and that one result. -/
def foundSerde : SerdeJson Json where
  parse text := if text = "\x7b\x7d" then some (.object []) else none
  render _ := some "\x7b\x7d"
  renderError _ := none
  parseResult text := if text = foundText then some foundResult else none
  renderResult result := if result.providerToolCallId = "call_1" then some foundText else none
  depth _ := 1

theorem foundSerde_parseResult (text : String) :
    foundSerde.parseResult text = if text = foundText then some foundResult else none := rfl

theorem foundSerde_renderResult (result : CanonicalToolResult Json) :
    foundSerde.renderResult result =
      if result.providerToolCallId = "call_1" then some foundText else none := rfl

theorem toList_foundText : ∃ rest, foundText.toList = '\x7b' :: '"' :: 't' :: rest := by
  unfold foundText
  simp only [String.toList_append]
  exact ⟨_, rfl⟩

theorem foundSerde_faithful : FaithfulSerde foundSerde where
  callId := by
    intro result text decoded hrender hparse
    rw [foundSerde_renderResult] at hrender
    rw [foundSerde_parseResult] at hparse
    split at hrender
    · rename_i hid
      split at hparse
      · cases hparse
        exact hid.symm
      · cases hparse
    · cases hrender
  word := by
    intro c rest hc
    rw [foundSerde_parseResult]
    refine if_neg fun h => ?_
    obtain ⟨rest', hfound⟩ := toList_foundText
    have hlist := congrArg String.toList h
    rw [String.toList_ofList, hfound] at hlist
    rw [List.head_eq_of_cons_eq hlist] at hc
    revert hc
    decide
  encodeFailure := by
    rw [foundSerde_parseResult]
    refine if_neg fun h => ?_
    obtain ⟨rest', hfound⟩ := toList_foundText
    have hlist := congrArg String.toList h
    rw [hfound] at hlist
    revert hlist
    simp [Coordinator.encodeFailure]

def foundMeets : DispatchMeets Unit where
  queued := true
  acquired := true
  late := false
  start _ _ := .started ⟨none, false⟩ (.succeeded (.text "found"))

/-- The dispatch of the call above. -/
def foundOutcome : DispatchOutcome :=
  ((⟨⟨1⟩, lookupKey, .fromRegistered [lookupTool], 1024, 1024⟩ :
    TransactionToolDispatcher Unit).dispatch (fun _ => ⟨false, false, false, false⟩) foundSerde
      (fun _ _ => true) foundMeets lookupRequest).outcome

def foundOutbound : OutboundToolResult where
  outboundResultId := "result"
  monoloopRunId := ToolLoop.sampleRun
  loopId := ⟨"loop"⟩
  sourceInterpretationId := ⟨"interpretation"⟩
  sourceConnectionId := ToolLoop.sampleConnection
  externalSessionId := none
  toolActionId := ⟨"call_1"⟩
  requestGeneration := 1
  toolExecutionId := none
  outcome := .success
  payload := ""
  sourceUnitId := ⟨"unit"⟩

theorem found_told_alike :
    mapDispatchToCallResult foundSerde foundOutcome = .ok ⟨"found", false⟩ := by
  obtain ⟨lifecycle, hcanonical⟩ : ∃ lifecycle, foundOutcome = .canonical foundResult lifecycle :=
    ⟨_, rfl⟩
  have hround : (foundSerde.renderResult foundResult).bind foundSerde.parseResult =
      some foundResult := by
    rw [foundSerde_renderResult, if_pos (show foundResult.providerToolCallId = "call_1" from rfl),
      Option.bind_some, foundSerde_parseResult, if_pos rfl]
  have htold : toldModel foundSerde Coordinator.firstExchange 0 foundOutbound foundOutcome =
      .succeeded (.text "found") := by
    rw [hcanonical, toldModel_canonical hround]
    rfl
  refine (success_told_alike _ foundSerde _ [lookupTool] _ lookupKey _ _ foundMeets lookupRequest
    Coordinator.firstExchange 0 foundOutbound foundSerde_faithful ?_).2 (.text "found") "found" htold
    (congrArg (resultText foundSerde) htold)
  intro result lifecycle' h
  rw [← (DispatchOutcome.canonical.inj (hcanonical.symm.trans h)).1]
  exact hround

end Monoloop.Tools
