import Monoloop.Contracts.InputRules
import Monoloop.Outbound.OpenAiEncoder

/-!
# The conversation in a request

What a server reads of a Chat Completions body: roles, texts, names, calls with their
arguments as text, and the call a tool message answers (`WireMessage`). The messages of a
request are read back as what they were (`readMessages_encodeMessages`), and those of an
admitted input are a conversation in which every tool message answers a call that was
made once, before it (`admitted_conversation`).
-/

namespace Monoloop.Outbound

open Interpreter (Json)
open Utf8

variable {F32 : Type}

/-! ## Reading -/

structure WireCall where
  id : String
  name : String
  arguments : String
deriving DecidableEq, Repr

inductive WireMessage where
  | system (content : String) (name : Option String)
  | user (content : String) (name : Option String)
  | assistant (content : Option String) (calls : List WireCall)
  | tool (callId : String) (content : String)
deriving DecidableEq, Repr

/-- A function call of a message. -/
def readCall (v : Json) : Option WireCall := do
  let id ← v.str? "id"
  let kind ← v.str? "type"
  let func ← v.get? "function"
  let name ← func.str? "name"
  let arguments ← func.str? "arguments"
  if kind = "function" then some ⟨id, name, arguments⟩ else none

/-- A field that may be absent, but is text when it is there. -/
def readOptional (v : Json) (field : String) : Option (Option String) :=
  match v.get? field with
  | none => some none
  | some found => found.asStr.map some

def readCalls (v : Json) : Option (List WireCall) :=
  match v.get? "tool_calls" with
  | none => some []
  | some calls => calls.asArray.bind fun calls => calls.mapM readCall

/-- The text of an assistant message, which may be null. -/
def readContent (v : Json) : Option (Option String) :=
  match v.get? "content" with
  | some .null => some none
  | some found => found.asStr.map some
  | none => none

def readMessage (v : Json) : Option WireMessage :=
  match v.str? "role" with
  | none => none
  | some role =>
      if role = "system" then do
        return .system (← v.str? "content") (← readOptional v "name")
      else if role = "user" then do
        return .user (← v.str? "content") (← readOptional v "name")
      else if role = "assistant" then do
        return .assistant (← readContent v) (← readCalls v)
      else if role = "tool" then do
        return .tool (← v.str? "tool_call_id") (← v.str? "content")
      else none

def readMessages (v : Json) : Option (List WireMessage) :=
  v.asArray.bind fun messages => messages.mapM readMessage

/-! ## What should be read -/

section Wire

variable (serde : SerdeJson Json)

def wireCall (call : CanonicalAssistantToolCall Json) : WireCall :=
  ⟨call.toolCallId, call.toolName.value, (serde.render call.arguments).getD "\x7b\x7d"⟩

/-- A canonical message, as a server should read it. -/
def wire : CanonicalMessage Json → WireMessage
  | .system content name => .system (joinText content) name
  | .user content name => .user (joinText content) name
  | .assistant content toolCalls =>
      .assistant (if content = [] then none else some (joinText content))
        (toolCalls.map (wireCall serde))
  | .tool toolCallId content => .tool toolCallId (joinText content)

theorem str?_value (m : JsonMap) (field : String) :
    (JsonMap.value m).str? field = (m.lookup field).bind Json.asStr := by
  rw [Json.str?, JsonMap.get?_value]

theorem readCall_encodeCall (call : CanonicalAssistantToolCall Json) :
    readCall (encodeCall serde call) = some (wireCall serde call) := by
  simp [readCall, encodeCall, str?_value, JsonMap.get?_value, JsonMap.ofFields, OrderedMap.extend,
    OrderedMap.lookup_insert, Json.asStr, wireCall]

theorem mapM_readCall (calls : List (CanonicalAssistantToolCall Json)) :
    (calls.map (encodeCall serde)).mapM readCall = some (calls.map (wireCall serde)) := by
  induction calls with
  | nil => rfl
  | cons call calls ih =>
      rw [List.map_cons, List.mapM_cons, readCall_encodeCall, ih]
      rfl

theorem readMessage_named (role : String) (content : List TextPart) (name : Option String)
    (h : role = "system" ∨ role = "user") :
    readMessage (namedMessage role content name) =
      some (if role = "system" then .system (joinText content) name
        else .user (joinText content) name) := by
  rcases h with rfl | rfl
  · cases name <;>
      simp [readMessage, namedMessage, readOptional, str?_value, JsonMap.get?_value,
        JsonMap.ofFields, OrderedMap.extend, OrderedMap.lookup_insert, JsonMap.lookup_insertOpt,
        optionalName, Json.asStr]
  · cases name <;>
      simp [readMessage, namedMessage, readOptional, str?_value, JsonMap.get?_value,
        JsonMap.ofFields, OrderedMap.extend, OrderedMap.lookup_insert, JsonMap.lookup_insertOpt,
        optionalName, Json.asStr]

/-- **A message is read back.** -/
theorem readMessage_encodeMessage (msg : CanonicalMessage Json) :
    readMessage (encodeMessage serde msg) = some (wire serde msg) := by
  cases msg with
  | system content name => exact readMessage_named "system" content name (.inl rfl)
  | user content name => exact readMessage_named "user" content name (.inr rfl)
  | tool toolCallId content =>
      simp [readMessage, encodeMessage, wire, str?_value, JsonMap.ofFields, OrderedMap.extend,
        OrderedMap.lookup_insert, Json.asStr]
  | assistant content toolCalls =>
      have hcalls : readCalls (encodeMessage serde (.assistant content toolCalls)) =
          some (toolCalls.map (wireCall serde)) := by
        cases toolCalls with
        | nil =>
            simp [readCalls, encodeMessage, JsonMap.get?_value, JsonMap.ofFields, OrderedMap.extend,
              OrderedMap.lookup_insert, JsonMap.lookup_insertOpt]
        | cons call rest =>
            rw [← mapM_readCall]
            simp [readCalls, encodeMessage, JsonMap.get?_value, JsonMap.lookup_insertOpt,
              Json.asArray]
      have hcontent : readContent (encodeMessage serde (.assistant content toolCalls)) =
          some (if content = [] then none else some (joinText content)) := by
        cases content <;>
          simp [readContent, encodeMessage, JsonMap.get?_value, JsonMap.ofFields,
            OrderedMap.extend, OrderedMap.lookup_insert, JsonMap.lookup_insertOpt, Json.asStr]
      have hrole : (encodeMessage serde (.assistant content toolCalls)).str? "role" =
          some "assistant" := by
        simp [encodeMessage, str?_value, JsonMap.ofFields, OrderedMap.extend,
          OrderedMap.lookup_insert, JsonMap.lookup_insertOpt, Json.asStr]
      rw [readMessage, hrole]
      simp [hcalls, hcontent, wire]

/-- **A conversation is read back.** -/
theorem readMessages_encodeMessages (messages : List (CanonicalMessage Json)) :
    readMessages (encodeMessages serde messages) = some (messages.map (wire serde)) := by
  show (messages.map (encodeMessage serde)).mapM readMessage = _
  induction messages with
  | nil => rfl
  | cons msg rest ih =>
      rw [List.map_cons, List.mapM_cons, readMessage_encodeMessage, ih]
      rfl

end Wire

/-! ## Requests -/

/-- The request states these messages: its text is an object whose messages they are. -/
def States (serde : SerdeJson Json) (sent : List UInt8) (conversation : List WireMessage) : Prop :=
  ∃ body text, serde.render body = some text ∧ sent = bytes text.toList ∧
    (body.get? "messages").bind readMessages = some conversation

namespace OpenAiChatCompletionsEncoder

variable {options : OpenAiEncoderOptions} {writer : Writer F32}

/-- **An encoded request states its messages.** -/
theorem Encodes.states {messages : List (CanonicalMessage Json)} {tools : List ToolSpec}
    {config : EffectiveConfig F32} {exchange : EncodedExchange}
    (h : Encodes options writer messages tools config exchange) :
    States writer.serde exchange.bytes (messages.map (wire writer.serde)) := by
  obtain ⟨-, model, text, -, hrender, -, rfl⟩ := h
  refine ⟨_, text, hrender, rfl, ?_⟩
  have hmessages : (JsonMap.ofTable (chatTable options writer model
      (encodeMessages writer.serde messages) tools config)).lookup "messages" =
        some (encodeMessages writer.serde messages) := by
    rw [lookup_chatTable]
    rfl
  rw [JsonMap.get?_value, hmessages]
  exact readMessages_encodeMessages writer.serde messages

end OpenAiChatCompletionsEncoder

/-! ## What an admitted conversation is -/

namespace WireMessage

def callIds : WireMessage → List String
  | .assistant _ calls => calls.map (·.id)
  | _ => []

/-- A message that says something. -/
def Speaks : WireMessage → Prop
  | .system content _ | .user content _ | .tool _ content => content ≠ ""
  | .assistant content calls => (content = none → calls ≠ []) ∧ content ≠ some ""

end WireMessage

def callIds (conversation : List WireMessage) : List String :=
  conversation.flatMap (·.callIds)

/-- **A conversation that can be answered**: every message says something, calls have ids of
their own, and a tool message answers a call of an earlier message. -/
structure Dialogue (conversation : List WireMessage) : Prop where
  speaks : ∀ msg ∈ conversation, msg.Speaks
  distinct : (callIds conversation).Nodup
  answers : ∀ (i : Nat) id content, conversation[i]? = some (.tool id content) →
    id ∈ callIds (conversation.take i)

section Admitted

variable {serde : SerdeJson Json} {limits : InputLimits}

theorem callIds_wire (messages : List (CanonicalMessage Json)) :
    callIds (messages.map (wire serde)) = announcedIds messages := by
  induction messages with
  | nil => rfl
  | cons msg rest ih =>
      have hmsg : (wire serde msg).callIds = msg.announced := by
        cases msg with
        | assistant content toolCalls =>
            simp [wire, WireMessage.callIds, CanonicalMessage.announced, wireCall,
              Function.comp_def]
        | _ => rfl
      show (wire serde msg).callIds ++ callIds (rest.map (wire serde)) = _
      rw [hmsg, ih]
      rfl

theorem joinText_ne_empty {limits : InputLimits} {parts : List TextPart} (hne : parts ≠ [])
    (hfit : PartsFit limits parts) : joinText parts ≠ "" := by
  cases parts with
  | nil => exact absurd rfl hne
  | cons p rest =>
      intro h
      apply (hfit.2 p List.mem_cons_self).1
      have hlist := congrArg String.toList h
      rw [joinText, List.map_cons, String.join_cons, String.toList_append] at hlist
      exact String.toList_inj.mp (List.append_eq_nil_iff.mp hlist).1

theorem speaks_wire {msg : CanonicalMessage Json} (h : msg.WellFormed serde limits) :
    (wire serde msg).Speaks := by
  obtain ⟨hparts, -, hrule⟩ := h
  cases msg with
  | system content name => exact joinText_ne_empty hrule.1 hparts
  | user content name => exact joinText_ne_empty hrule.1 hparts
  | tool toolCallId content => exact joinText_ne_empty hrule.1 hparts
  | assistant content toolCalls =>
      show ((if content = [] then none else some (joinText content)) = none →
        toolCalls.map (wireCall serde) ≠ []) ∧ _ ≠ some ""
      split
      · rename_i hempty
        refine ⟨fun _ hcalls => ?_, by simp⟩
        exact (hrule.resolve_left (fun h => h hempty)) (List.map_eq_nil_iff.mp hcalls)
      · rename_i hne
        refine ⟨fun h => (by cases h), fun h => ?_⟩
        exact joinText_ne_empty hne hparts (Option.some.inj h)

theorem dialogue_wire {messages : List (CanonicalMessage Json)}
    (h : InputRules serde limits messages) : Dialogue (messages.map (wire serde)) where
  speaks := by
    intro msg hmsg
    obtain ⟨canonical, hmem, rfl⟩ := List.mem_map.mp hmsg
    exact speaks_wire (h.each canonical hmem)
  distinct := by
    rw [callIds_wire]
    exact h.distinct
  answers := by
    intro i id content hi
    rw [List.getElem?_map] at hi
    obtain ⟨msg, hmsg, hwire⟩ := Option.map_eq_some_iff.mp hi
    rw [← List.map_take, callIds_wire]
    cases msg with
    | tool toolCallId content' =>
        cases hwire
        exact h.answers i _ _ hmsg
    | _ => cases hwire

end Admitted

/-- **The conversation of an admitted input.** When the first request of an admitted input is
encoded, the server reads the input's messages in it; they can be answered, and the
arguments of every call are the ones that were given. -/
theorem admitted_conversation (options : OpenAiEncoderOptions) (writer : Writer F32)
    (limits : InputLimits) (messages : List (CanonicalMessage Json)) (input : CanonicalInput Json)
    (config : EffectiveConfig F32) (tools : List ToolSpec) (exchange : EncodedExchange)
    (hadmitted : CanonicalInput.tryNew writer.serde messages limits = .ok input)
    (hencoded : OpenAiChatCompletionsEncoder.encodeInitial options writer input config tools =
      .ok exchange) :
    ∃ conversation, States writer.serde exchange.bytes conversation ∧
      conversation = messages.map (wire writer.serde) ∧
      Dialogue conversation ∧
      ∀ msg ∈ messages, ∀ call ∈ msg.toolCalls,
        writer.serde.render call.arguments = some (wireCall writer.serde call).arguments := by
  obtain ⟨⟨hrules, -⟩, rfl⟩ := tryNew_iff.mp hadmitted
  have hencodes := (OpenAiChatCompletionsEncoder.encodeBody_ok options writer).mp hencoded
  refine ⟨_, hencodes.states, rfl, dialogue_wire hrules, ?_⟩
  intro msg hmsg call hcall
  obtain ⟨-, encoded, hrender, -⟩ := ((hrules.each msg hmsg).2.1 call hcall).2
  rw [wireCall, hrender]
  rfl

/-- What is sent for a single word. -/
def helloText : String :=
  "\x7b\"messages\":[\x7b\"content\":\"hi\",\"role\":\"user\"\x7d],\"model\":\"m\",\"stream\":true\x7d"

/-- A library that writes the request of that word, which is all it is asked for. -/
def helloWriter : Writer Nat where
  serde := { emptyObjectSerde with render := fun _ => some helloText }
  temperature := ⟨fun _ => true, fun n => .number (.posInt n)⟩

def helloConfig : EffectiveConfig Nat where
  model := some "m"
  temperature := none
  reasoningEffort := none
  maxOutputTokens := none
  stop := []
  responseFormat := none
  continuationPolicy := .callerControlled
  deadline := none
  extensions := ∅
  session := {}

theorem admitted_conversation_hello : ∃ conversation,
    States helloWriter.serde (bytes helloText.toList) conversation ∧
      conversation = [.user "hi" none] ∧ Dialogue conversation := by
  obtain ⟨conversation, hstates, hwire, hdialogue, -⟩ := admitted_conversation {} helloWriter
    .default [.user [⟨"hi"⟩] none] ⟨[.user [⟨"hi"⟩] none]⟩ helloConfig []
    ⟨bytes helloText.toList, OpenAiChatCompletionsEncoder.dialect, .sendAndFinish⟩ rfl rfl
  exact ⟨conversation, hstates, hwire, hdialogue⟩

end Monoloop.Outbound
