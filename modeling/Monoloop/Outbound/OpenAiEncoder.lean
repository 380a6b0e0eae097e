import Monoloop.Outbound.Encoding
import Monoloop.Coordinator.Transcript

/-!
# Chat Completions requests

`openai_encoder.rs`: canonical messages, tools and configuration as the body of a
streaming Chat Completions request.

A body is described field by field (`chatTable`), and a request is encoded exactly when
every part of it has a field (`encode_iff`).
-/

namespace Monoloop.Outbound

open Interpreter (Json)
open Utf8

variable {F32 : Type}

structure OpenAiEncoderOptions where
  useMaxCompletionTokens : Bool := false
  allowReasoningEffort : Bool := false
  maxEncodedBytes : Nat := 4 * 1024 * 1024

/-- What the encoder uses of the libraries. -/
structure Writer (F32 : Type) where
  serde : SerdeJson Json
  temperature : Temperature F32

/-! ## Messages -/

def joinText (parts : List TextPart) : String := String.join (parts.map (·.text))

def optionalName (name : Option String) : Option Json := name.map .string

section Messages

variable (serde : SerdeJson Json)

def encodeCall (call : CanonicalAssistantToolCall Json) : Json :=
  JsonMap.value (JsonMap.ofFields [
    ("id", .string call.toolCallId),
    ("type", .string "function"),
    ("function", JsonMap.value (JsonMap.ofFields [
      ("name", .string call.toolName.value),
      ("arguments", .string ((serde.render call.arguments).getD "\x7b\x7d"))]))])

def namedMessage (role : String) (content : List TextPart) (name : Option String) : Json :=
  JsonMap.value ((JsonMap.ofFields [
    ("role", .string role),
    ("content", .string (joinText content))]).insertOpt "name" (optionalName name))

def encodeMessage : CanonicalMessage Json → Json
  | .system content name => namedMessage "system" content name
  | .user content name => namedMessage "user" content name
  | .assistant content toolCalls =>
      JsonMap.value ((JsonMap.ofFields [
        ("role", .string "assistant"),
        ("content", if content.isEmpty then .null else .string (joinText content))]).insertOpt
          "tool_calls"
          (if toolCalls.isEmpty then none else some (.array (toolCalls.map (encodeCall serde)))))
  | .tool toolCallId content =>
      JsonMap.value (JsonMap.ofFields [
        ("role", .string "tool"),
        ("tool_call_id", .string toolCallId),
        ("content", .string (joinText content))])

def encodeMessages (messages : List (CanonicalMessage Json)) : Json :=
  .array (messages.map (encodeMessage serde))

end Messages

/-! ## The body -/

def toolDefinition (tool : ToolSpec) : Json :=
  JsonMap.value (JsonMap.ofFields [
    ("type", .string "function"),
    ("function", JsonMap.value (JsonMap.ofFields [
      ("name", .string tool.name.value),
      ("description", .string tool.description),
      ("parameters", tool.inputSchema)]))])

def responseFormat (format : ResponseFormat) : Json :=
  JsonMap.value (JsonMap.ofFields [("type", .string (match format with
    | .text => "text"
    | .jsonObject => "json_object"))])

def ReasoningEffort.label : ReasoningEffort → String
  | .low => "low"
  | .medium => "medium"
  | .high => "high"

/-- The fields an extension may set. -/
def extensionFields : List String :=
  ["seed", "user", "top_p", "n", "frequency_penalty", "presence_penalty", "logit_bias", "logprobs",
    "top_logprobs", "metadata"]

def encodeOpenaiExtensions : JsonMap → List (ExtensionKey × VersionedExtension) →
    Except EncodingError JsonMap
  | body, [] => .ok body
  | body, (key, ext) :: rest =>
      match Coordinator.stripLeading "openai." key with
      | none => .error (.unsupported "non-openai extension")
      | some field =>
          if field ∈ extensionFields then
            if (body.lookup field).isSome then
              .error (.unsupported "extension overrides body field")
            else encodeOpenaiExtensions (body.insert field ext.value) rest
          else .error (.unsupported "openai extension field")

namespace OpenAiChatCompletionsEncoder

variable (options : OpenAiEncoderOptions) (writer : Writer F32)

def dialect : DialectDescriptor := .openaiChatCompletions "v1"

def tokensField : String :=
  if options.useMaxCompletionTokens then "max_completion_tokens" else "max_tokens"

def encodeEffort (body : JsonMap) (effort : Option ReasoningEffort) :
    Except EncodingError JsonMap :=
  match effort with
  | none => .ok body
  | some effort =>
      if options.allowReasoningEffort then
        .ok (body.insert "reasoning_effort" (.string effort.label))
      else .error (.unsupported "reasoning_effort")

/-- The fields of the configuration before the reasoning effort. -/
def configFields (model : String) (messages : Json) (config : EffectiveConfig F32) : JsonMap :=
  let body := ((OrderedMap.insert ∅ "model" (Json.string model)).insert "messages" messages).insert
    "stream" (.bool true)
  let body := JsonMap.insertOpt body "temperature" (config.temperature.map writer.temperature.json)
  let body := JsonMap.insertOpt body (tokensField options)
    (config.maxOutputTokens.map fun n => .number (.posInt n))
  let body := JsonMap.insertOpt body "stop"
    (if config.stop.isEmpty then none else some (.array (config.stop.map .string)))
  JsonMap.insertOpt body "response_format" (config.responseFormat.map responseFormat)

/-- The last part of `encode_body`. -/
def writeBody (body : JsonMap) : Except EncodingError EncodedExchange :=
  match writer.serde.render body.value with
  | none => .error .unrepresentableInput
  | some text => bounded text options.maxEncodedBytes dialect

def encodeBody (messages : Json) (tools : List ToolSpec) (config : EffectiveConfig F32) :
    Except EncodingError EncodedExchange :=
  match config.model with
  | none => .error .invalidConfiguration
  | some model => do
      let body ← encodeEffort options (configFields options writer model messages config)
        config.reasoningEffort
      let body ← encodeOpenaiExtensions body config.extensions.entries
      writeBody options writer (body.insertOpt "tools"
        (if tools.isEmpty then none else some (.array (tools.map toolDefinition))))

def encodeInitial (input : CanonicalInput Json) (config : EffectiveConfig F32)
    (tools : List ToolSpec) : Except EncodingError EncodedExchange :=
  encodeBody options writer (encodeMessages writer.serde input.messages) tools config

/-- The results are in the context's messages already. -/
def encodeToolContinuation (context : List (CanonicalMessage Json))
    (_results : List (CanonicalToolResult Json)) (config : EffectiveConfig F32)
    (tools : List ToolSpec) : Except EncodingError EncodedExchange :=
  encodeBody options writer (encodeMessages writer.serde context) tools config

/-! ## The body, field by field -/

/-- The fields that are not extensions. -/
def coreTable (model : String) (messages : Json) (tools : List ToolSpec)
    (config : EffectiveConfig F32) : List (String × Option Json) :=
  [("model", some (.string model)),
    ("messages", some messages),
    ("stream", some (.bool true)),
    ("temperature", config.temperature.map writer.temperature.json),
    (tokensField options, config.maxOutputTokens.map fun n => .number (.posInt n)),
    ("stop", if config.stop.isEmpty then none else some (.array (config.stop.map .string))),
    ("response_format", config.responseFormat.map responseFormat),
    ("reasoning_effort", config.reasoningEffort.map fun effort => .string effort.label),
    ("tools", if tools.isEmpty then none else some (.array (tools.map toolDefinition)))]

/-- What an extension field is set to. -/
def extensionTable (config : EffectiveConfig F32) : List (String × Option Json) :=
  extensionFields.map fun field =>
    (field, (config.extensions.lookup ("openai." ++ field)).map (·.value))

/-- **A body, field by field.** -/
def chatTable (model : String) (messages : Json) (tools : List ToolSpec)
    (config : EffectiveConfig F32) : List (String × Option Json) :=
  coreTable options writer model messages tools config ++ extensionTable config

/-- A configuration with a field for everything in it. -/
structure Encodable (config : EffectiveConfig F32) : Prop where
  effort : config.reasoningEffort.isSome = true → options.allowReasoningEffort = true
  extensions : ∀ e ∈ config.extensions.entries, ∃ field ∈ extensionFields, e.1 = "openai." ++ field

/-- **What is sent for a conversation**: the object of the table as text, within the bound. -/
def Encodes (messages : List (CanonicalMessage Json)) (tools : List ToolSpec)
    (config : EffectiveConfig F32) (exchange : EncodedExchange) : Prop :=
  Encodable options config ∧ ∃ model text, config.model = some model ∧
    writer.serde.render (JsonMap.ofTable
      (chatTable options writer model (encodeMessages writer.serde messages) tools config)).value =
        some text ∧
    text.utf8ByteSize ≤ options.maxEncodedBytes ∧
    exchange = ⟨bytes text.toList, dialect, .sendAndFinish⟩

end OpenAiChatCompletionsEncoder

section Extensions

theorem stripLeading_eq_some {lead s rest : String} :
    Coordinator.stripLeading lead s = some rest ↔ s = lead ++ rest := by
  constructor
  · intro h
    unfold Coordinator.stripLeading at h
    split at h
    · rename_i hlead
      obtain ⟨tail, htail⟩ := List.isPrefixOf_iff_prefix.mp hlead
      rw [← htail, List.drop_left] at h
      cases h
      rw [← String.toList_inj, String.toList_append, String.toList_ofList, htail]
    · cases h
  · rintro rfl
    exact Coordinator.stripLeading_append lead rest

theorem openai_inj {a b : String} : "openai." ++ a = "openai." ++ b ↔ a = b := by
  rw [← String.toList_inj, String.toList_append, String.toList_append, List.append_cancel_left_eq,
    String.toList_inj]

/-- The extensions put into a body that has none of their fields. -/
theorem encodeOpenaiExtensions_ok {body body' : JsonMap}
    {entries : List (ExtensionKey × VersionedExtension)}
    (hsorted : entries.Pairwise fun x y => x.1 < y.1)
    (hfree : ∀ field ∈ extensionFields, OrderedMap.find ("openai." ++ field) entries ≠ none →
      body.lookup field = none) :
    encodeOpenaiExtensions body entries = .ok body' ↔
      (∀ e ∈ entries, ∃ field ∈ extensionFields, e.1 = "openai." ++ field) ∧
      ∀ field, body'.lookup field =
        if field ∈ extensionFields then
          ((OrderedMap.find ("openai." ++ field) entries).map (·.value)).or (body.lookup field)
        else body.lookup field := by
  induction entries generalizing body with
  | nil =>
      simp only [encodeOpenaiExtensions, Except.ok.injEq, List.not_mem_nil, false_imp_iff,
        implies_true, true_and, OrderedMap.find, Option.map_none, Option.none_or, ite_self]
      exact ⟨fun h field => by rw [h], fun h => (OrderedMap.ext_lookup h).symm⟩
  | cons e rest ih =>
      obtain ⟨key, ext⟩ := e
      obtain ⟨hfirst, hrest⟩ := List.pairwise_cons.mp hsorted
      have hno : ∀ what, (Except.error what : Except EncodingError JsonMap) ≠ .ok body' := by
        intro what h
        cases h
      rw [encodeOpenaiExtensions, List.forall_mem_cons]
      cases hstrip : Coordinator.stripLeading "openai." key with
      | none =>
          refine iff_of_false (hno _) fun h => ?_
          obtain ⟨field, -, hkey⟩ := h.1.1
          rw [stripLeading_eq_some.mpr hkey] at hstrip
          cases hstrip
      | some field =>
          rw [stripLeading_eq_some] at hstrip
          subst hstrip
          simp only
          by_cases hknown : field ∈ extensionFields
          · have hfound : OrderedMap.find ("openai." ++ field) ((("openai." ++ field), ext) :: rest) =
                some ext := by rw [OrderedMap.find, if_pos rfl]
            have hnew : body.lookup field = none := hfree field hknown (by rw [hfound]; simp)
            have hgone : OrderedMap.find ("openai." ++ field) rest = none := by
              rw [Option.eq_none_iff_forall_ne_some]
              intro a ha
              exact absurd (hfirst _ ((OrderedMap.find_eq_some hrest).mp ha)) (lt_irrefl _)
            have hother : ∀ field', field' ≠ field →
                OrderedMap.find ("openai." ++ field') ((("openai." ++ field), ext) :: rest) =
                  OrderedMap.find ("openai." ++ field') rest := by
              intro field' hne
              rw [OrderedMap.find, if_neg (fun h => hne (openai_inj.mp h).symm)]
            rw [if_pos hknown, hnew, if_neg (by simp), ih hrest]
            · constructor
              · rintro ⟨hall, hlookup⟩
                refine ⟨⟨⟨field, hknown, rfl⟩, hall⟩, fun field' => ?_⟩
                rw [hlookup, OrderedMap.lookup_insert]
                by_cases heq : field = field'
                · subst heq
                  simp only [if_pos hknown, hgone, hfound, if_true, Option.map_none, Option.map_some,
                    Option.none_or, Option.some_or]
                · rw [if_neg heq, hother field' (Ne.symm heq)]
              · rintro ⟨⟨-, hall⟩, hlookup⟩
                refine ⟨hall, fun field' => ?_⟩
                rw [hlookup, OrderedMap.lookup_insert]
                by_cases heq : field = field'
                · subst heq
                  simp only [if_pos hknown, hgone, hfound, if_true, Option.map_none, Option.map_some,
                    Option.none_or, Option.some_or]
                · rw [if_neg heq, hother field' (Ne.symm heq)]
            · intro field' hknown' hfind
              rw [OrderedMap.lookup_insert]
              by_cases heq : field = field'
              · subst heq
                exact absurd hgone hfind
              · rw [if_neg heq]
                exact hfree field' hknown' (by rwa [hother field' (Ne.symm heq)])
          · rw [if_neg hknown]
            refine iff_of_false (hno _) fun h => ?_
            obtain ⟨field', hknown', hkey⟩ := h.1.1
            rw [openai_inj.mp hkey] at hknown
            exact hknown hknown'

end Extensions

namespace OpenAiChatCompletionsEncoder

variable (options : OpenAiEncoderOptions) (writer : Writer F32)

theorem coreNames (model : String) (messages : Json) (tools : List ToolSpec)
    (config : EffectiveConfig F32) :
    ((coreTable options writer model messages tools config).map (·.1)).Nodup ∧
      ∀ field ∈ extensionFields,
        field ∉ (coreTable options writer model messages tools config).map (·.1) := by
  simp only [coreTable, List.map_cons, List.map_nil, tokensField]
  cases options.useMaxCompletionTokens <;> decide

theorem extensionNames (config : EffectiveConfig F32) :
    (extensionTable config).map (·.1) = extensionFields := by
  rw [extensionTable, List.map_map, Function.comp_def, List.map_id']

theorem entry_extensionTable (config : EffectiveConfig F32) {field : String}
    (h : field ∈ extensionFields) :
    JsonMap.entry (extensionTable config) field =
      (config.extensions.lookup ("openai." ++ field)).map (·.value) := by
  unfold JsonMap.entry extensionTable
  have hfind : ∀ fields : List String, field ∈ fields →
      ((fields.map fun field =>
        (field, (config.extensions.lookup ("openai." ++ field)).map (·.value))).find?
          fun e => e.1 = field) =
        some (field, (config.extensions.lookup ("openai." ++ field)).map (·.value)) := by
    intro fields hmem
    induction fields with
    | nil => cases hmem
    | cons f rest ih =>
        by_cases heq : f = field
        · subst heq
          rw [List.map_cons, List.find?_cons_of_pos (by simp)]
        · rw [List.map_cons, List.find?_cons_of_neg (by simpa using heq)]
          exact ih ((List.mem_cons.mp hmem).resolve_left (Ne.symm heq))
  rw [hfind extensionFields h]
  rfl

/-- The names of a body are all different. -/
theorem chatNames (model : String) (messages : Json) (tools : List ToolSpec)
    (config : EffectiveConfig F32) :
    ((chatTable options writer model messages tools config).map (·.1)).Nodup := by
  obtain ⟨hcore, hdisjoint⟩ := coreNames options writer model messages tools config
  rw [chatTable, List.map_append, extensionNames]
  exact List.nodup_append.mpr ⟨hcore, by decide, fun a ha b hb heq => hdisjoint b hb (heq ▸ ha)⟩

theorem writeBody_ok {body : JsonMap} {exchange : EncodedExchange} :
    writeBody options writer body = .ok exchange ↔
      ∃ text, writer.serde.render body.value = some text ∧
        text.utf8ByteSize ≤ options.maxEncodedBytes ∧
        exchange = ⟨bytes text.toList, dialect, .sendAndFinish⟩ := by
  unfold writeBody
  cases writer.serde.render body.value with
  | none => exact iff_of_false (fun h => by cases h) fun ⟨_, h, _⟩ => by cases h
  | some text =>
      rw [bounded_ok]
      constructor
      · intro h
        exact ⟨text, rfl, h⟩
      · rintro ⟨_, hsame, h⟩
        cases hsame
        exact h

theorem encodeEffort_ok {body body' : JsonMap} {effort : Option ReasoningEffort} :
    encodeEffort options body effort = .ok body' ↔
      (effort.isSome = true → options.allowReasoningEffort = true) ∧
      body' = body.insertOpt "reasoning_effort" (effort.map fun effort => .string effort.label) := by
  cases effort with
  | none =>
      simp only [encodeEffort, Except.ok.injEq, Option.isSome_none, Bool.false_eq_true,
        false_imp_iff, true_and]
      exact eq_comm
  | some effort =>
      simp only [encodeEffort, Option.isSome_some, true_imp_iff]
      split
      · rename_i h
        rw [Except.ok.injEq]
        exact ⟨fun h' => ⟨h, h'.symm⟩, fun h' => h'.2.symm⟩
      · rename_i h
        exact iff_of_false (fun h' => by cases h') fun h' => h h'.1

/-- The body before the extensions, and with them. -/
theorem encodeFields_ok {model : String} {messages : Json} {tools : List ToolSpec}
    {config : EffectiveConfig F32} {body : JsonMap} :
    (∃ b b', encodeEffort options (configFields options writer model messages config)
        config.reasoningEffort = .ok b ∧
      encodeOpenaiExtensions b config.extensions.entries = .ok b' ∧
      body = b'.insertOpt "tools"
        (if tools.isEmpty then none else some (.array (tools.map toolDefinition)))) ↔
      Encodable options config ∧
        body = JsonMap.ofTable (chatTable options writer model messages tools config) := by
  obtain ⟨hcore, hdisjoint⟩ := coreNames options writer model messages tools config
  -- the fields before the extensions
  have hbase : ∀ b, b = (configFields options writer model messages config).insertOpt
      "reasoning_effort" (config.reasoningEffort.map fun effort => .string effort.label) →
      (b.insertOpt "tools"
        (if tools.isEmpty then none else some (.array (tools.map toolDefinition)))) =
        JsonMap.ofTable (coreTable options writer model messages tools config) := by
    rintro b rfl
    rfl
  have htools : ∀ field ∈ extensionFields, "tools" ≠ field := by decide
  have hfree : ∀ b, b = (configFields options writer model messages config).insertOpt
      "reasoning_effort" (config.reasoningEffort.map fun effort => .string effort.label) →
      ∀ field ∈ extensionFields, b.lookup field = none := by
    intro b hb field hfield
    have hnone := JsonMap.lookup_ofTable hcore field
    rw [JsonMap.entry_eq_none (hdisjoint field hfield), ← hbase b hb, JsonMap.lookup_insertOpt,
      if_neg (htools field hfield)] at hnone
    exact hnone
  -- a map with the extensions' lookups is the table's, once the tools are in
  have hwhole : ∀ b b' : JsonMap, b = (configFields options writer model messages config).insertOpt
      "reasoning_effort" (config.reasoningEffort.map fun effort => .string effort.label) →
      (∀ field, b'.lookup field = if field ∈ extensionFields then
        ((config.extensions.lookup ("openai." ++ field)).map (·.value)).or (b.lookup field)
        else b.lookup field) →
      b'.insertOpt "tools"
        (if tools.isEmpty then none else some (.array (tools.map toolDefinition))) =
        JsonMap.ofTable (chatTable options writer model messages tools config) := by
    intro b b' hb hlookup
    apply OrderedMap.ext_lookup
    intro field
    have hall : JsonMap.ofTable (chatTable options writer model messages tools config) =
        (b.insertOpt "tools" (if tools.isEmpty then none
          else some (.array (tools.map toolDefinition)))).setAll (extensionTable config) := by
      rw [hbase b hb, JsonMap.ofTable, JsonMap.ofTable, chatTable, JsonMap.setAll, JsonMap.setAll,
        JsonMap.setAll, List.foldl_append]
    have hnames : ((extensionTable config).map (·.1)).Nodup := by
      rw [extensionNames]
      decide
    rw [hall, JsonMap.lookup_setAll hnames, JsonMap.lookup_insertOpt, JsonMap.lookup_insertOpt,
      hlookup]
    by_cases hfield : field ∈ extensionFields
    · rw [if_neg (htools field hfield), if_neg (htools field hfield), if_pos hfield,
        entry_extensionTable config hfield]
    · rw [if_neg hfield, JsonMap.entry_eq_none (by rwa [extensionNames]), Option.none_or]
  constructor
  · rintro ⟨b, b', heffort, hextensions, rfl⟩
    obtain ⟨hallowed, hb⟩ := (encodeEffort_ok options).mp heffort
    obtain ⟨hkeys, hlookup⟩ := (encodeOpenaiExtensions_ok config.extensions.sorted
      (fun field hfield _ => hfree b hb field hfield)).mp hextensions
    exact ⟨⟨hallowed, hkeys⟩, hwhole b b' hb hlookup⟩
  · rintro ⟨⟨hallowed, hkeys⟩, rfl⟩
    have hexists : ∃ b', ∀ field, OrderedMap.lookup b' field =
        if field ∈ extensionFields then
          ((config.extensions.lookup ("openai." ++ field)).map (·.value)).or
            (((configFields options writer model messages config).insertOpt "reasoning_effort"
              (config.reasoningEffort.map fun effort => .string effort.label)).lookup field)
        else ((configFields options writer model messages config).insertOpt "reasoning_effort"
          (config.reasoningEffort.map fun effort => .string effort.label)).lookup field := by
      refine ⟨JsonMap.setAll ((configFields options writer model messages config).insertOpt
        "reasoning_effort" (config.reasoningEffort.map fun effort => .string effort.label))
        (extensionTable config), fun field => ?_⟩
      rw [JsonMap.lookup_setAll (by rw [extensionNames]; decide)]
      by_cases hfield : field ∈ extensionFields
      · rw [if_pos hfield, entry_extensionTable config hfield]
      · rw [if_neg hfield, JsonMap.entry_eq_none (by rwa [extensionNames]), Option.none_or]
    obtain ⟨b', hlookup⟩ := hexists
    exact ⟨_, b', (encodeEffort_ok options).mpr ⟨hallowed, rfl⟩,
      (encodeOpenaiExtensions_ok config.extensions.sorted
        (fun field hfield _ => hfree _ rfl field hfield)).mpr ⟨hkeys, hlookup⟩,
      (hwhole _ b' rfl hlookup).symm⟩

/-- **The fields of a body.** -/
theorem lookup_chatTable (model : String) (messages : Json) (tools : List ToolSpec)
    (config : EffectiveConfig F32) (field : String) :
    (JsonMap.ofTable (chatTable options writer model messages tools config)).lookup field =
      if field ∈ extensionFields then
        (config.extensions.lookup ("openai." ++ field)).map (·.value)
      else JsonMap.entry (coreTable options writer model messages tools config) field := by
  obtain ⟨hcore, hdisjoint⟩ := coreNames options writer model messages tools config
  have hall : JsonMap.ofTable (chatTable options writer model messages tools config) =
      (JsonMap.ofTable (coreTable options writer model messages tools config)).setAll
        (extensionTable config) := by
    rw [JsonMap.ofTable, JsonMap.ofTable, chatTable, JsonMap.setAll, JsonMap.setAll,
      JsonMap.setAll, List.foldl_append]
  rw [hall, JsonMap.lookup_setAll (by rw [extensionNames]; decide), JsonMap.lookup_ofTable hcore]
  split
  · rename_i hfield
    rw [entry_extensionTable config hfield, JsonMap.entry_eq_none (hdisjoint field hfield),
      Option.or_none]
  · rename_i hfield
    rw [JsonMap.entry_eq_none (by rwa [extensionNames]), Option.none_or]

/-- What `encode_body` makes of a request. -/
theorem encodeBody_ok {messages : List (CanonicalMessage Json)} {tools : List ToolSpec}
    {config : EffectiveConfig F32} {exchange : EncodedExchange} :
    encodeBody options writer (encodeMessages writer.serde messages) tools config = .ok exchange ↔
      Encodes options writer messages tools config exchange := by
  unfold encodeBody Encodes
  cases hmodel : config.model with
  | none =>
      refine iff_of_false (fun h => by cases h) fun h => ?_
      obtain ⟨-, model, -, h, -⟩ := h
      cases h
  | some model =>
      constructor
      · intro h
        obtain ⟨b, heffort, h⟩ := Except.bind_eq_ok.mp h
        obtain ⟨b', hextensions, h⟩ := Except.bind_eq_ok.mp h
        obtain ⟨hencodable, hbody⟩ := (@encodeFields_ok F32 options writer model _ tools config
          _).mp ⟨b, b', heffort, hextensions, rfl⟩
        rw [hbody, writeBody_ok] at h
        obtain ⟨text, h⟩ := h
        exact ⟨hencodable, model, text, rfl, h⟩
      · rintro ⟨hencodable, model', text, hsame, h⟩
        obtain rfl := Option.some.inj hsame
        obtain ⟨b, b', heffort, hextensions, hbody⟩ := (encodeFields_ok options writer).mpr
          ⟨hencodable, rfl⟩
        refine Except.bind_eq_ok.mpr ⟨b, heffort, Except.bind_eq_ok.mpr ⟨b', hextensions, ?_⟩⟩
        rw [← hbody, writeBody_ok]
        exact ⟨text, h⟩

/-- **Encoding a request**, the first one or a continuation: it is encoded exactly when its
configuration has a model and a field for everything in it, and the body, which is the
table's object, can be written within the bound. A continuation states its context. -/
theorem encode_iff (input : CanonicalInput Json) (context : List (CanonicalMessage Json))
    (results : List (CanonicalToolResult Json)) (tools : List ToolSpec)
    (config : EffectiveConfig F32) (exchange : EncodedExchange) :
    (encodeInitial options writer input config tools = .ok exchange ↔
      Encodes options writer input.messages tools config exchange) ∧
    (encodeToolContinuation options writer context results config tools = .ok exchange ↔
      Encodes options writer context tools config exchange) :=
  ⟨encodeBody_ok options writer, encodeBody_ok options writer⟩

end OpenAiChatCompletionsEncoder

end Monoloop.Outbound
