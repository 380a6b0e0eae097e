import Monoloop.Contracts.Canonical
import Monoloop.Lib.InPlace
import Monoloop.Lib.Usize

/-!
# Canonical input

`input.rs` and the tool results of `tool.rs`. JSON values stay abstract: `Json` is
`serde_json::Value`, and `SerdeJson` holds what is used of the library.

`CanonicalInput.tryNew` checks sizes and, message by message, that tool calls
have fresh ids and that a tool message answers a call made before it. The second
part is what makes a list of messages a transcript; `Correlated` is that part
alone.
-/

namespace Monoloop

def ToolName.tryNew : String → Except IdentityError ToolName := tryIdentity .mk

def ToolId.tryNew : String → Except IdentityError ToolId := tryIdentity .mk

/-! ## Tool results -/

variable {Json : Type}

/-- Body of a successful tool. -/
inductive CanonicalToolOutput (Json : Type) where
  | json (value : Json)
  | text (text : String)

/-- Bounded public domain error from a tool. -/
structure CanonicalToolError (Json : Type) where
  code : String
  message : String
  data : Option Json

/-- Why an error was not built. -/
inductive ToolContractError where
  | invalidErrorCode
  | invalidErrorMessage
deriving DecidableEq, Repr

def CanonicalToolError.tryNew (code message : String) (data : Option Json)
    (maxMessageBytes : Nat) : Except ToolContractError (CanonicalToolError Json) :=
  if code.isEmpty || 64 < code.utf8ByteSize || code.toList.any isControl then
    .error .invalidErrorCode
  else if message.isEmpty || maxMessageBytes < message.utf8ByteSize ||
      message.toList.any isControl then
    .error .invalidErrorMessage
  else .ok ⟨code, message, data⟩

/-- Success or declared domain failure. -/
inductive CanonicalToolResultOutcome (Json : Type) where
  | succeeded (output : CanonicalToolOutput Json)
  | domainFailed (error : CanonicalToolError Json)

structure CanonicalToolResult (Json : Type) where
  transactionId : TransactionId
  sessionKey : SessionKey
  exchangeId : ExchangeId
  toolActionId : ToolActionId
  toolId : ToolId
  providerToolCallId : String
  /-- A `u32`. -/
  requestOrdinal : Nat
  outcome : CanonicalToolResultOutcome Json

/-- What is used of `serde_json`; `none` is a library error. -/
structure SerdeJson (Json : Type) where
  /-- `from_str::<Value>`. -/
  parse : String → Option Json
  /-- `to_string` of a value. -/
  render : Json → Option String
  /-- `to_string` of `json!({"error": ..})`. -/
  renderError : CanonicalToolError Json → Option String
  /-- `from_str::<CanonicalToolResult>`. -/
  parseResult : String → Option (CanonicalToolResult Json)
  /-- `to_string` of a result. -/
  renderResult : CanonicalToolResult Json → Option String
  /-- `json_depth`. -/
  depth : Json → Nat

/-! ## Messages -/

structure TextPart where
  text : String
deriving DecidableEq

/-- Assistant tool call embedded in input. -/
structure CanonicalAssistantToolCall (Json : Type) where
  toolCallId : String
  toolName : ToolName
  arguments : Json

inductive CanonicalMessage (Json : Type) where
  | system (content : List TextPart) (name : Option String)
  | user (content : List TextPart) (name : Option String)
  | assistant (content : List TextPart) (toolCalls : List (CanonicalAssistantToolCall Json))
  | tool (toolCallId : String) (content : List TextPart)

structure InputLimits where
  maxMessages : Nat
  maxContentParts : Nat
  maxTextPartBytes : Nat
  maxAggregateTextBytes : Nat
  maxToolCalls : Nat
  maxToolArgumentBytes : Nat
  maxJsonDepth : Nat
  maxNameBytes : Nat
  maxToolCallIdBytes : Nat

def InputLimits.default : InputLimits where
  maxMessages := 256
  maxContentParts := 64
  maxTextPartBytes := 256 * 1024
  maxAggregateTextBytes := 2 * 1024 * 1024
  maxToolCalls := 64
  maxToolArgumentBytes := 256 * 1024
  maxJsonDepth := 16
  maxNameBytes := 128
  maxToolCallIdBytes := 128

/-- Canonical input validation failure. -/
inductive InputValidationError where
  | emptyMessages
  | tooManyMessages (count max : Nat)
  | aggregateTextTooLarge (bytes max : Nat)
  | emptyTextParts
  | emptyTextPart
  | textPartTooLarge (bytes max : Nat)
  | tooManyContentParts (count max : Nat)
  | emptyAssistant (index : Nat)
  | tooManyToolCalls (count max : Nat)
  | duplicateToolCallId (id : String)
  | unknownToolCallId (id : String)
  | emptyToolCallId
  | toolCallIdTooLong (bytes max : Nat)
  | emptyName
  | nameTooLong (bytes max : Nat)
  | controlCharacter
  | jsonTooDeep (depth max : Nat)
  | toolArgumentsTooLarge (bytes max : Nat)
  | jsonEncodeFailed
deriving DecidableEq, Repr

def TextPart.tryNew (text : String) (maxBytes : Nat) : Except InputValidationError TextPart :=
  if text.isEmpty then .error .emptyTextPart
  else if maxBytes < text.utf8ByteSize then .error (.textPartTooLarge text.utf8ByteSize maxBytes)
  else .ok ⟨text⟩

def validateName (name : Option String) (limits : InputLimits) :
    Except InputValidationError Unit :=
  match name with
  | none => .ok ()
  | some n =>
      if n.isEmpty then .error .emptyName
      else if limits.maxNameBytes < n.utf8ByteSize then
        .error (.nameTooLong n.utf8ByteSize limits.maxNameBytes)
      else if n.toList.any isControl then .error .controlCharacter
      else .ok ()

def validateToolCallId (id : String) (limits : InputLimits) : Except InputValidationError Unit :=
  if id.isEmpty then .error .emptyToolCallId
  else if limits.maxToolCallIdBytes < id.utf8ByteSize then
    .error (.toolCallIdTooLong id.utf8ByteSize limits.maxToolCallIdBytes)
  else if id.toList.any isControl then .error .controlCharacter
  else .ok ()

/-- The parts of one message; the aggregate grows by their bytes. -/
def validateParts (limits : InputLimits) : List TextPart → Nat → Except InputValidationError Nat
  | [], aggregate => .ok aggregate
  | p :: rest, aggregate =>
      if p.text.isEmpty then .error .emptyTextPart
      else if limits.maxTextPartBytes < p.text.utf8ByteSize then
        .error (.textPartTooLarge p.text.utf8ByteSize limits.maxTextPartBytes)
      else validateParts limits rest (satAdd aggregate p.text.utf8ByteSize)

def validateTextParts (parts : List TextPart) (limits : InputLimits) (requireNonEmpty : Bool)
    (aggregate : Nat) : Except InputValidationError Nat :=
  if requireNonEmpty && parts.isEmpty then .error .emptyTextParts
  else if limits.maxContentParts < parts.length then
    .error (.tooManyContentParts parts.length limits.maxContentParts)
  else validateParts limits parts aggregate

def validateJsonValue (serde : SerdeJson Json) (value : Json) (maxDepth maxBytes : Nat) :
    Except InputValidationError Unit :=
  if maxDepth < serde.depth value then .error (.jsonTooDeep (serde.depth value) maxDepth)
  else
    match serde.render value with
    | none => .error .jsonEncodeFailed
    | some encoded =>
        if maxBytes < encoded.utf8ByteSize then
          .error (.toolArgumentsTooLarge encoded.utf8ByteSize maxBytes)
        else .ok ()

/-- The calls of one assistant message; their ids are added to the seen ones. -/
def validateCalls (serde : SerdeJson Json) (limits : InputLimits) :
    List (CanonicalAssistantToolCall Json) → List String → Except InputValidationError (List String)
  | [], seen => .ok seen
  | call :: rest, seen => do
      validateToolCallId call.toolCallId limits
      if call.toolCallId ∈ seen then throw (.duplicateToolCallId call.toolCallId)
      validateJsonValue serde call.arguments limits.maxJsonDepth limits.maxToolArgumentBytes
      validateCalls serde limits rest (seen ++ [call.toolCallId])

/-- One message: the aggregate text and the seen ids afterwards. -/
def CanonicalMessage.validate (serde : SerdeJson Json) (limits : InputLimits) (index aggregate : Nat)
    (seen : List String) : CanonicalMessage Json → Except InputValidationError (Nat × List String)
  | .system content name | .user content name => do
      validateName name limits
      let aggregate ← validateTextParts content limits true aggregate
      return (aggregate, seen)
  | .assistant content toolCalls => do
      if content.isEmpty && toolCalls.isEmpty then throw (.emptyAssistant index)
      let aggregate ← validateTextParts content limits false aggregate
      if limits.maxToolCalls < toolCalls.length then
        throw (.tooManyToolCalls toolCalls.length limits.maxToolCalls)
      let seen ← validateCalls serde limits toolCalls seen
      return (aggregate, seen)
  | .tool toolCallId content => do
      validateToolCallId toolCallId limits
      if toolCallId ∉ seen then throw (.unknownToolCallId toolCallId)
      let aggregate ← validateTextParts content limits true aggregate
      return (aggregate, seen)

def validateMessages (serde : SerdeJson Json) (limits : InputLimits) :
    List (CanonicalMessage Json) → (index aggregate : Nat) → (seen : List String) →
      Except InputValidationError (Nat × List String)
  | [], _, aggregate, seen => .ok (aggregate, seen)
  | msg :: rest, index, aggregate, seen => do
      let (aggregate, seen) ← msg.validate serde limits index aggregate seen
      validateMessages serde limits rest (index + 1) aggregate seen

/-- Ordered messages of one submission. -/
structure CanonicalInput (Json : Type) where
  messages : List (CanonicalMessage Json)

def CanonicalInput.tryNew (serde : SerdeJson Json) (messages : List (CanonicalMessage Json))
    (limits : InputLimits) : Except InputValidationError (CanonicalInput Json) :=
  if messages.isEmpty then .error .emptyMessages
  else if limits.maxMessages < messages.length then
    .error (.tooManyMessages messages.length limits.maxMessages)
  else do
    let (aggregate, _) ← validateMessages serde limits messages 0 0 []
    if limits.maxAggregateTextBytes < aggregate then
      .error (.aggregateTextTooLarge aggregate limits.maxAggregateTextBytes)
    else .ok ⟨messages⟩

/-! ## The transcript rules -/

/-- The calls an assistant message announces. -/
def CanonicalMessage.announced : CanonicalMessage Json → List String
  | .assistant _ toolCalls => toolCalls.map (·.toolCallId)
  | _ => []

def announcedIds (messages : List (CanonicalMessage Json)) : List String :=
  messages.flatMap (·.announced)

/-- A message that may follow a transcript which announced `seen`. -/
def CanonicalMessage.Follows (seen : List String) : CanonicalMessage Json → Prop
  | .assistant _ toolCalls =>
      (toolCalls.map (·.toolCallId)).Nodup ∧ ∀ call ∈ toolCalls, call.toolCallId ∉ seen
  | .tool toolCallId _ => toolCallId ∈ seen
  | _ => True

/-- **The transcript rules**: call ids are announced once, and a tool message
answers a call announced before it. -/
def Correlated : List String → List (CanonicalMessage Json) → Prop
  | _, [] => True
  | seen, msg :: rest => msg.Follows seen ∧ Correlated (seen ++ msg.announced) rest

theorem correlated_append (seen : List String) (messages more : List (CanonicalMessage Json)) :
    Correlated seen (messages ++ more) ↔
      Correlated seen messages ∧ Correlated (seen ++ announcedIds messages) more := by
  induction messages generalizing seen with
  | nil => simp [Correlated, announcedIds]
  | cons msg rest ih =>
      simp only [List.cons_append, Correlated, ih, and_assoc]
      rw [show announcedIds (msg :: rest) = msg.announced ++ announcedIds rest from rfl,
        List.append_assoc]

/-- Tool messages that answer announced calls may follow. -/
theorem correlated_tools {seen : List String} {tools : List (CanonicalMessage Json)}
    (h : ∀ msg ∈ tools, ∃ id content, msg = .tool id content ∧ id ∈ seen) :
    Correlated seen tools := by
  induction tools with
  | nil => trivial
  | cons msg rest ih =>
      obtain ⟨id, content, rfl, hseen⟩ := h msg (List.mem_cons_self ..)
      refine ⟨hseen, ?_⟩
      rw [show seen ++ CanonicalMessage.announced (.tool id content : CanonicalMessage Json) = seen from
        List.append_nil seen]
      exact ih (fun msg' hmem => h msg' (List.mem_cons_of_mem _ hmem))

/-! ## What the checks enforce of them -/

/-- The two errors of the transcript rules. -/
def InputValidationError.correlation : InputValidationError → Bool
  | .duplicateToolCallId _ | .unknownToolCallId _ => true
  | _ => false

section

variable {serde : SerdeJson Json} {limits : InputLimits} {e : InputValidationError}

theorem validateToolCallId_error {id : String} (h : validateToolCallId id limits = .error e) :
    e.correlation = false := by
  grind [validateToolCallId, InputValidationError.correlation]

theorem validateName_error {name : Option String} (h : validateName name limits = .error e) :
    e.correlation = false := by
  cases name <;> grind [validateName, InputValidationError.correlation]

theorem validateParts_error {parts : List TextPart} {aggregate : Nat}
    (h : validateParts limits parts aggregate = .error e) : e.correlation = false := by
  induction parts generalizing aggregate with
  | nil => cases h
  | cons p rest ih => grind [validateParts, InputValidationError.correlation]

theorem validateTextParts_error {parts : List TextPart} {required : Bool} {aggregate : Nat}
    (h : validateTextParts parts limits required aggregate = .error e) :
    e.correlation = false := by
  grind [validateTextParts, validateParts_error, InputValidationError.correlation]

theorem validateJsonValue_error {value : Json} {maxDepth maxBytes : Nat}
    (h : validateJsonValue serde value maxDepth maxBytes = .error e) : e.correlation = false := by
  grind [validateJsonValue, InputValidationError.correlation]

theorem validateCalls_ok {calls : List (CanonicalAssistantToolCall Json)} {seen seen' : List String}
    (h : validateCalls serde limits calls seen = .ok seen') :
    (calls.map (·.toolCallId)).Nodup ∧ (∀ call ∈ calls, call.toolCallId ∉ seen) ∧
      seen' = seen ++ calls.map (·.toolCallId) := by
  induction calls generalizing seen with
  | nil =>
      cases h
      simp
  | cons call rest ih =>
      unfold validateCalls at h
      obtain ⟨_, -, h⟩ := Except.bind_eq_ok.mp h
      split at h
      · cases h
      · rename_i hfresh
        obtain ⟨_, -, h⟩ := Except.bind_eq_ok.mp h
        obtain ⟨hnodup, hrest, rfl⟩ := ih h
        refine ⟨?_, ?_, by simp⟩
        · rw [List.map_cons, List.nodup_cons]
          refine ⟨?_, hnodup⟩
          intro hmem
          obtain ⟨call', hcall', heq⟩ := List.mem_map.mp hmem
          apply hrest call' hcall'
          simp [heq]
        · intro call' hmem
          rcases List.mem_cons.mp hmem with rfl | hmem
          · exact hfresh
          · intro hseen
            exact hrest call' hmem (List.mem_append_left _ hseen)

theorem validateCalls_error {calls : List (CanonicalAssistantToolCall Json)} {seen : List String}
    (hnodup : (calls.map (·.toolCallId)).Nodup) (hfresh : ∀ call ∈ calls, call.toolCallId ∉ seen)
    (h : validateCalls serde limits calls seen = .error e) : e.correlation = false := by
  induction calls generalizing seen with
  | nil => cases h
  | cons call rest ih =>
      unfold validateCalls at h
      rcases Except.bind_eq_error.mp h with h | ⟨_, -, h⟩
      · exact validateToolCallId_error h
      · rw [if_neg (hfresh call (List.mem_cons_self ..))] at h
        rcases Except.bind_eq_error.mp h with h | ⟨_, -, h⟩
        · exact validateJsonValue_error h
        · rw [List.map_cons, List.nodup_cons] at hnodup
          refine ih hnodup.2 ?_ h
          intro call' hmem hseen
          rcases List.mem_append.mp hseen with hseen | hseen
          · exact hfresh call' (List.mem_cons_of_mem _ hmem) hseen
          · apply hnodup.1
            rw [← List.mem_singleton.mp hseen]
            exact List.mem_map_of_mem hmem

theorem validate_ok {msg : CanonicalMessage Json} {index aggregate : Nat} {seen : List String}
    {r : Nat × List String} (h : msg.validate serde limits index aggregate seen = .ok r) :
    msg.Follows seen ∧ r.2 = seen ++ msg.announced := by
  cases msg with
  | system content name | user content name =>
      obtain ⟨_, -, h⟩ := Except.bind_eq_ok.mp h
      obtain ⟨_, -, h⟩ := Except.bind_eq_ok.mp h
      cases h
      exact ⟨trivial, (List.append_nil seen).symm⟩
  | assistant content toolCalls =>
      rw [CanonicalMessage.validate] at h
      split at h
      · cases h
      · obtain ⟨_, -, h⟩ := Except.bind_eq_ok.mp h
        split at h
        · cases h
        · obtain ⟨seen', hcalls, h⟩ := Except.bind_eq_ok.mp h
          cases h
          obtain ⟨hnodup, hfresh, hseen⟩ := validateCalls_ok hcalls
          exact ⟨⟨hnodup, hfresh⟩, hseen⟩
  | tool id content =>
      rw [CanonicalMessage.validate] at h
      obtain ⟨_, -, h⟩ := Except.bind_eq_ok.mp h
      split at h
      · cases h
      · rename_i hseen
        obtain ⟨_, -, h⟩ := Except.bind_eq_ok.mp h
        cases h
        exact ⟨not_not.mp hseen, (List.append_nil seen).symm⟩

theorem validate_error {msg : CanonicalMessage Json} {index aggregate : Nat} {seen : List String}
    (hfollows : msg.Follows seen) (h : msg.validate serde limits index aggregate seen = .error e) :
    e.correlation = false := by
  cases msg with
  | system content name | user content name =>
      rcases Except.bind_eq_error.mp h with h | ⟨_, -, h⟩
      · exact validateName_error h
      · rcases Except.bind_eq_error.mp h with h | ⟨_, -, h⟩
        · exact validateTextParts_error h
        · cases h
  | assistant content toolCalls =>
      rw [CanonicalMessage.validate] at h
      split at h
      · cases h
        rfl
      · rcases Except.bind_eq_error.mp h with h | ⟨_, -, h⟩
        · exact validateTextParts_error h
        · split at h
          · cases h
            rfl
          · rcases Except.bind_eq_error.mp h with h | ⟨_, -, h⟩
            · exact validateCalls_error hfollows.1 hfollows.2 h
            · cases h
  | tool id content =>
      rw [CanonicalMessage.validate] at h
      rcases Except.bind_eq_error.mp h with h | ⟨_, -, h⟩
      · exact validateToolCallId_error h
      · have hseen : id ∈ seen := hfollows
        rw [if_neg (not_not.mpr hseen)] at h
        rcases Except.bind_eq_error.mp h with h | ⟨_, -, h⟩
        · exact validateTextParts_error h
        · cases h

theorem validateMessages_ok {messages : List (CanonicalMessage Json)} {index aggregate : Nat}
    {seen : List String} {r : Nat × List String}
    (h : validateMessages serde limits messages index aggregate seen = .ok r) :
    Correlated seen messages := by
  induction messages generalizing index aggregate seen with
  | nil => trivial
  | cons msg rest ih =>
      unfold validateMessages at h
      obtain ⟨r', hmsg, h⟩ := Except.bind_eq_ok.mp h
      obtain ⟨hfollows, hseen⟩ := validate_ok hmsg
      refine ⟨hfollows, ?_⟩
      rw [← hseen]
      exact ih h

theorem validateMessages_error {messages : List (CanonicalMessage Json)} {index aggregate : Nat}
    {seen : List String} (hrules : Correlated seen messages)
    (h : validateMessages serde limits messages index aggregate seen = .error e) :
    e.correlation = false := by
  induction messages generalizing index aggregate seen with
  | nil => cases h
  | cons msg rest ih =>
      unfold validateMessages at h
      rcases Except.bind_eq_error.mp h with h | ⟨r, hmsg, h⟩
      · exact validate_error hrules.1 h
      · have hrest := hrules.2
        rw [← (validate_ok hmsg).2] at hrest
        exact ih hrest h

/-- **Accepted input is correlated.** -/
theorem tryNew_correlated {messages : List (CanonicalMessage Json)} {input : CanonicalInput Json}
    (h : CanonicalInput.tryNew serde messages limits = .ok input) : Correlated [] messages := by
  unfold CanonicalInput.tryNew at h
  split at h
  · cases h
  · split at h
    · cases h
    · obtain ⟨_, hmessages, -⟩ := Except.bind_eq_ok.mp h
      exact validateMessages_ok hmessages

/-- **Correlated input is never rejected for its ids**: only a size, a text or a
name can be at fault. -/
theorem tryNew_error_of_correlated {messages : List (CanonicalMessage Json)}
    (hrules : Correlated [] messages)
    (h : CanonicalInput.tryNew serde messages limits = .error e) : e.correlation = false := by
  unfold CanonicalInput.tryNew at h
  split at h
  · cases h
    rfl
  · split at h
    · cases h
      rfl
    · rcases Except.bind_eq_error.mp h with h | ⟨_, -, h⟩
      · exact validateMessages_error hrules h
      · dsimp only at h
        split at h
        · cases h
          rfl
        · cases h

end

end Monoloop
