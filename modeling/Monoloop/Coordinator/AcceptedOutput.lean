import Monoloop.Coordinator.Transcript
import Monoloop.ToolDispatch.Validation

/-!
# Accepted outputs in the transcript

`validate_tool_completion` bounds what a tool returns, `append_tool_round` makes a text
part of it. Both bounds are the same number of bytes by default, but they are put on
different texts: a domain error is bounded by its parts and written as one object, and
only the text part must not be empty.
-/

namespace Monoloop.Coordinator

open Monoloop.Interpreter (Json)
open Validation (validateToolCompletion completionOf ToolOutputContract SchemaValidator Accepted
  encodedLen outputLimit outputLimit_le maxErrorMessageBytes defaultMaxJsonDepth
  validateToolCompletion_ok)

/-! ## The text of an error -/

/-- A character in a JSON string, as `serde_json` writes it. -/
def escapeChar (c : Char) : String :=
  if c = '"' then "\\\""
  else if c = '\\' then "\\\\"
  else if c = '\x08' then "\\b"
  else if c = '\x0c' then "\\f"
  else if c = '\n' then "\\n"
  else if c = '\r' then "\\r"
  else if c = '\t' then "\\t"
  else if c.toNat < 32 then
    String.ofList ['\\', 'u', '0', '0', Nat.digitChar (c.toNat / 16), Nat.digitChar (c.toNat % 16)]
  else String.singleton c

def quoteText (s : String) : String := "\"" ++ s.toList.foldr (fun c rest => escapeChar c ++ rest) "\""

/-- `json!({"error": {"code": .., "message": .., "data": ..}})`, written without blanks. -/
def errorText (code message data : String) : String :=
  "\x7b\"error\":\x7b\"code\":" ++ quoteText code ++ ",\"data\":" ++ data ++ ",\"message\":" ++
    quoteText message ++ "\x7d\x7d"

/-- The data of an error as it is written. -/
def dataText (serde : SerdeJson Json) : Option Json → Option String
  | none => some "null"
  | some data => serde.render data

/-- What the transcript relies on: no value is written as an empty text, and an error
is written when its data is. -/
structure CompactJson (serde : SerdeJson Json) : Prop where
  writes : ∀ v text, serde.render v = some text → text ≠ ""
  wraps : ∀ err data, dataText serde err.data = some data →
    serde.renderError err = some (errorText err.code err.message data)

/-! ## What can be written -/

/-- **Outputs that fit into a text part**, among the accepted ones. -/
def Writable (serde : SerdeJson Json) : CanonicalToolResultOutcome Json → Prop
  | .succeeded (.json _) => True
  | .succeeded (.text t) => t ≠ ""
  | .domainFailed err => ∀ data, dataText serde err.data = some data →
      (errorText err.code err.message data).utf8ByteSize ≤ InputLimits.default.maxTextPartBytes

/-- Units of a round: text parts, complete ready requests, and at least one of these. -/
structure RoundUnits (serde : SerdeJson Json) (units : List CanonicalUnitEvent) : Prop where
  texts : ∀ unit ∈ units, ∀ content, unit.snapshot.unit = .text content →
    content ≠ "" ∧ content.utf8ByteSize ≤ InputLimits.default.maxTextPartBytes
  tools : ∀ unit ∈ units, ∀ tool, unit.snapshot.unit = .tool tool → tool.requestState = .ready →
    (∃ name ∈ tool.toolName, ValidIdentity name) ∧
      ∃ payload ∈ tool.requestPayload, ∃ arguments, serde.parse payload = some arguments
  ready : readyTools units ≠ []

/-- A completion with this outcome passed the checks of a dispatcher with default limits. -/
def Passed (serde : SerdeJson Json) (validator : SchemaValidator)
    (outcome : CanonicalToolResultOutcome Json) : Prop :=
  ∃ (contract : ToolOutputContract) (specBytes : Nat),
    validateToolCompletion serde validator (completionOf outcome) contract (outputLimit specBytes)
      maxErrorMessageBytes defaultMaxJsonDepth = .ok (completionOf outcome)

section

variable {serde : SerdeJson Json} {validator : SchemaValidator}
  {results : List (CanonicalToolResult Json)}

theorem textPart_ok {text : String} {maxBytes : Nat} :
    (∃ part, TextPart.tryNew text maxBytes = .ok part) ↔ text ≠ "" ∧ text.utf8ByteSize ≤ maxBytes := by
  unfold TextPart.tryNew
  split_ifs with hempty hlong
  · simp [String.isEmpty_iff.mp hempty]
  · simp only [exists_false, false_iff, not_and]
    intro _ hle
    omega
  · rw [String.isEmpty_iff] at hempty
    simp only [Except.ok.injEq, exists_eq', true_iff]
    exact ⟨hempty, Nat.le_of_not_lt hlong⟩

theorem toolName_ok {name : String} (h : ValidIdentity name) :
    ∃ toolName, ToolName.tryNew name = .ok toolName := by
  unfold ToolName.tryNew tryIdentity
  split
  · exact ⟨_, rfl⟩
  · rename_i e herror
    rw [(validateIdentityString_ok_iff name).mpr h] at herror
    cases herror

theorem resultMessage_some {r : CanonicalToolResult Json} :
    (∃ msg, resultMessage serde r = some msg) ↔
      ∃ text, resultText serde r.outcome = some text ∧ text ≠ "" ∧
        text.utf8ByteSize ≤ InputLimits.default.maxTextPartBytes := by
  constructor
  · rintro ⟨msg, h⟩
    obtain ⟨text, htext, h⟩ := Option.bind_eq_some_iff.mp h
    refine ⟨text, htext, textPart_ok.mp ?_⟩
    split at h
    · cases h
    · rename_i part hpart
      exact ⟨part, hpart⟩
  · rintro ⟨text, htext, hfits⟩
    obtain ⟨part, hpart⟩ := textPart_ok.mpr hfits
    refine ⟨.tool r.providerToolCallId [part], Option.bind_eq_some_iff.mpr ⟨text, htext, ?_⟩⟩
    rw [hpart]

/-- A bounded length means that the value was written. -/
theorem render_of_encodedLen {v : Json} (h : encodedLen serde v ≤ 256 * 1024) :
    ∃ text, serde.render v = some text ∧ text.utf8ByteSize ≤ 256 * 1024 := by
  unfold encodedLen at h
  split at h
  · rename_i text hrender
    exact ⟨text, hrender, h⟩
  · rw [usizeMax] at h
    omega

theorem errorText_ne_empty (code message data : String) : errorText code message data ≠ "" := by
  obtain ⟨front, hfront⟩ : ∃ front, errorText code message data = front ++ "\x7d\x7d" := ⟨_, rfl⟩
  rw [hfront]
  simp

/-- **One accepted output** is written exactly when it fits. -/
theorem resultMessage_iff (hserde : CompactJson serde) {r : CanonicalToolResult Json}
    (hpassed : Passed serde validator r.outcome) :
    (∃ msg, resultMessage serde r = some msg) ↔ Writable serde r.outcome := by
  obtain ⟨contract, specBytes, hok⟩ := hpassed
  have haccepted := (validateToolCompletion_ok.mp hok).1
  have hlimit := outputLimit_le specBytes
  rw [resultMessage_some]
  cases houtcome : r.outcome with
  | succeeded output =>
      rw [houtcome] at haccepted
      cases output with
      | json v =>
          obtain ⟨text, hrender, hle⟩ := render_of_encodedLen (Nat.le_trans haccepted.1 hlimit)
          simp only [Writable, iff_true]
          exact ⟨text, hrender, hserde.writes v text hrender, hle⟩
      | text t =>
          simp only [resultText, Option.some.injEq, exists_eq_left', Writable]
          exact and_iff_left (Nat.le_trans haccepted.1 hlimit)
  | domainFailed err =>
      rw [houtcome] at haccepted
      obtain ⟨-, -, hdata⟩ := haccepted
      have hwritten : ∃ data, dataText serde err.data = some data := by
        cases herr : err.data with
        | none => exact ⟨_, rfl⟩
        | some v =>
            obtain ⟨text, hrender, -⟩ :=
              render_of_encodedLen (Nat.le_trans (hdata v herr).1 hlimit)
            exact ⟨text, hrender⟩
      obtain ⟨data, hdata⟩ := hwritten
      simp only [resultText, hserde.wraps err data hdata, Option.some.injEq, exists_eq_left',
        Writable, hdata, forall_eq']
      exact and_iff_right (errorText_ne_empty _ _ _)

/-- The assistant message of well-formed units. -/
theorem roundCalls_some {units : List CanonicalUnitEvent}
    (htexts : ∀ unit ∈ units, ∀ content, unit.snapshot.unit = .text content →
      content ≠ "" ∧ content.utf8ByteSize ≤ InputLimits.default.maxTextPartBytes)
    (htools : ∀ unit ∈ units, ∀ tool, unit.snapshot.unit = .tool tool →
      tool.requestState = .ready →
        (∃ name ∈ tool.toolName, ValidIdentity name) ∧
          ∃ payload ∈ tool.requestPayload, ∃ arguments, serde.parse payload = some arguments) :
    ∃ round, roundCalls serde results units = some round := by
  induction units with
  | nil => exact ⟨_, rfl⟩
  | cons unit rest ih =>
      rw [List.forall_mem_cons] at htexts htools
      obtain ⟨round, hround⟩ := ih htexts.2 htools.2
      rw [roundCalls]
      split
      · rename_i content hunit
        obtain ⟨part, hpart⟩ := textPart_ok.mpr (htexts.1 content hunit)
        rw [hpart, hround]
        exact ⟨_, rfl⟩
      · rename_i tool hunit
        split
        · exact ⟨round, hround⟩
        · rename_i hready
          obtain ⟨⟨name, hname, hvalid⟩, payload, hpayload, arguments, hparse⟩ :=
            htools.1 tool hunit (not_not.mp hready)
          obtain ⟨toolName, htoolName⟩ := toolName_ok hvalid
          rw [Option.mem_def.mp hname, Option.mem_def.mp hpayload]
          dsimp only
          rw [hparse, htoolName, hround]
          exact ⟨_, rfl⟩
      · exact ⟨round, hround⟩

/-- The tool messages are written exactly when each of them is. -/
theorem mapM_resultMessage_some :
    (∃ tools, results.mapM (resultMessage serde) = some tools) ↔
      ∀ r ∈ results, ∃ msg, resultMessage serde r = some msg := by
  induction results with
  | nil => simp
  | cons r rest ih =>
      rw [List.forall_mem_cons, ← ih, List.mapM_cons]
      constructor
      · rintro ⟨tools, h⟩
        obtain ⟨msg, hmsg, h⟩ := Option.bind_eq_some_iff.mp h
        obtain ⟨tools', htools, -⟩ := Option.bind_eq_some_iff.mp h
        exact ⟨⟨msg, hmsg⟩, tools', htools⟩
      · rintro ⟨⟨msg, hmsg⟩, tools, htools⟩
        exact ⟨msg :: tools, Option.bind_eq_some_iff.mpr ⟨msg, hmsg,
          Option.bind_eq_some_iff.mpr ⟨tools, htools, rfl⟩⟩⟩

/-- **A round of accepted outputs is written exactly when each output fits into a text
part**: no text is empty, and no error is too long once it is an object. -/
theorem appendToolRound_accepted_iff (serde : SerdeJson Json) (hserde : CompactJson serde)
    (validator : SchemaValidator) (messages : List (CanonicalMessage Json))
    (units : List CanonicalUnitEvent) (results : List (CanonicalToolResult Json))
    (hunits : RoundUnits serde units)
    (hpassed : ∀ r ∈ results, Passed serde validator r.outcome) :
    (∃ messages', appendToolRound serde messages units results = some messages') ↔
      ∀ r ∈ results, Writable serde r.outcome := by
  have hwritten : ∃ round, roundCalls serde results units = some round :=
    roundCalls_some hunits.texts hunits.tools
  obtain ⟨⟨content, calls⟩, hround⟩ := hwritten
  have hcalls : calls.isEmpty = false := by
    have hids := (roundCalls_spec hround).1
    rw [List.isEmpty_eq_false_iff]
    rintro rfl
    exact hunits.ready (List.map_eq_nil_iff.mp hids.symm)
  have heach : (∀ r ∈ results, Writable serde r.outcome) ↔
      ∃ tools, results.mapM (resultMessage serde) = some tools := by
    rw [mapM_resultMessage_some]
    exact forall₂_congr fun r hr => (resultMessage_iff hserde (hpassed r hr)).symm
  rw [heach]
  unfold appendToolRound
  constructor
  · rintro ⟨messages', h⟩
    obtain ⟨round, hround', h⟩ := Option.bind_eq_some_iff.mp h
    rw [hround] at hround'
    cases hround'
    dsimp only at h
    rw [hcalls] at h
    obtain ⟨tools, htools, -⟩ := Option.bind_eq_some_iff.mp h
    exact ⟨tools, htools⟩
  · rintro ⟨tools, htools⟩
    refine ⟨messages ++ .assistant content calls :: tools,
      Option.bind_eq_some_iff.mpr ⟨_, hround, ?_⟩⟩
    dsimp only
    rw [hcalls]
    exact Option.bind_eq_some_iff.mpr ⟨tools, htools, rfl⟩

end

/-! ## A round with one text -/

/-- A library that writes strings and errors as `serde_json` does, and no other values. -/
def quotingSerde : SerdeJson Json where
  parse s := if s = "\x7b\x7d" then some (.object []) else none
  render
    | .string s => some (quoteText s)
    | _ => none
  renderError err :=
    match err.data with
    | none => some (errorText err.code err.message "null")
    | some (.string s) => some (errorText err.code err.message (quoteText s))
    | some _ => none
  parseResult _ := none
  renderResult _ := none
  depth := jsonDepth

theorem quotingSerde_compact : CompactJson quotingSerde where
  writes v text h := by
    cases v with
    | string s =>
        cases h
        simp [quoteText]
    | null | bool _ | number _ | array _ | object _ => cases h
  wraps err data h := by
    obtain ⟨code, message, errData⟩ := err
    cases errData with
    | none =>
        cases h
        rfl
    | some v =>
        cases v with
        | string s =>
            cases h
            rfl
        | null | bool _ | number _ | array _ | object _ => cases h

def textContract : ToolOutputContract := ⟨.text, none⟩

def oneCall : List CanonicalUnitEvent := [readyUnit "call" 1]

theorem answered_channel : ValidIdentity "channel" := by
  decide

theorem answered_session : ValidIdentity "session" := by
  decide

theorem answered_tool : ValidIdentity "lookup" := by
  decide

/-- The answer to the call. -/
def answered (text : String) : CanonicalToolResult Json where
  transactionId := ⟨1⟩
  sessionKey := ⟨⟨"channel", answered_channel⟩, ⟨"session", answered_session⟩⟩
  exchangeId := ⟨2⟩
  toolActionId := ⟨"call"⟩
  toolId := ⟨"lookup", answered_tool⟩
  providerToolCallId := "call"
  requestOrdinal := 0
  outcome := .succeeded (.text text)

theorem oneCall_units : RoundUnits quotingSerde oneCall where
  texts unit hunit content hcontent := by
    rw [List.mem_singleton.mp hunit] at hcontent
    cases hcontent
  tools unit hunit tool htool _ := by
    rw [List.mem_singleton.mp hunit] at htool
    cases htool
    exact ⟨⟨"lookup", rfl, by decide⟩, "\x7b\x7d", rfl, .object [], rfl⟩
  ready := by
    intro h
    cases h

theorem appendToolRound_text :
    ∃ messages', appendToolRound quotingSerde [] oneCall [answered "sunny"] = some messages' := by
  refine (appendToolRound_accepted_iff quotingSerde quotingSerde_compact (fun _ _ => true) []
    oneCall [answered "sunny"] oneCall_units ?_).mpr ?_
  · intro r hr
    rw [List.mem_singleton.mp hr]
    exact ⟨textContract, 64, rfl⟩
  · intro r hr
    rw [List.mem_singleton.mp hr]
    show "sunny" ≠ ""
    decide

/-- **The empty text passes the checks and ends the round.** -/
theorem appendToolRound_empty_text :
    RoundUnits quotingSerde oneCall ∧
      (∀ r ∈ [answered ""], Passed quotingSerde (fun _ _ => true) r.outcome) ∧
      appendToolRound quotingSerde [] oneCall [answered ""] = none := by
  refine ⟨oneCall_units, ?_, rfl⟩
  intro r hr
  rw [List.mem_singleton.mp hr]
  exact ⟨textContract, 64, rfl⟩

end Monoloop.Coordinator
