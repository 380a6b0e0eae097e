import Monoloop.Contracts.InputRules
import Monoloop.Outbound.OpenAiEncoder

/-!
# Prompts for external agents

`acp_encoder.rs`: canonical messages as the prompt of an external agent, which is a
`session/prompt` object, the same in a method envelope, or the bare text; and as the
text of a headless command line.

These encoders take no tools and make no continuations. Extensions go into `_meta`, each
under a field of its own, or the request is refused.
-/

namespace Monoloop.Outbound

open Interpreter (Json)
open Utf8

variable {F32 : Type}

/-- How the prompt is laid out. -/
inductive AcpPromptWireShape where
  | paramsObject
  | methodEnvelope
  | plainText
deriving DecidableEq, Repr

structure AcpPromptEncoder where
  shape : AcpPromptWireShape
  dialect : DialectDescriptor
  maxEncodedBytes : Nat

/-! ## The text -/

/-- A part after the text so far, on a line of its own. -/
def pushPart (text part : String) : String :=
  if text.isEmpty then text ++ part else text ++ "\n" ++ part

def joinParts (parts : List String) : String := parts.foldl pushPart ""

/-- The parts of all messages, whoever speaks. -/
def messageParts (messages : List (CanonicalMessage Json)) : List String :=
  (messages.flatMap (·.content)).map (·.text)

def collectUserText (messages : List (CanonicalMessage Json)) : Except EncodingError String :=
  if (trim (joinParts (messageParts messages)).toList).isEmpty then .error .unrepresentableInput
  else .ok (joinParts (messageParts messages))

/-! ## The extensions -/

def metaField (key : ExtensionKey) : Option String :=
  (Coordinator.stripLeading "acp.meta." key).or (Coordinator.stripLeading "x.ai." key)

def encodeMetaEntries : JsonMap → List (ExtensionKey × VersionedExtension) →
    Except EncodingError JsonMap
  | fields, [] => .ok fields
  | fields, (key, ext) :: rest =>
      match metaField key with
      | none => .error (.unsupported "non-acp extension")
      | some field =>
          if (fields.lookup field).isSome then
            .error (.unsupported "duplicate extension meta key")
          else encodeMetaEntries (fields.insert field ext.value) rest

def encodeAcpExtensionMeta (extensions : Extensions) : Except EncodingError (Option JsonMap) :=
  if extensions.isEmpty then .ok none
  else (encodeMetaEntries ∅ extensions.entries).map some

/-! ## The prompt -/

/-- The parameters of `session/prompt`. -/
def promptParams (text : String) (fields : Option JsonMap) : Json :=
  JsonMap.value ((JsonMap.ofFields [("prompt", .array [JsonMap.value (JsonMap.ofFields [
    ("type", .string "text"), ("text", .string text)])])]).insertOpt "_meta"
      (fields.map JsonMap.value))

def promptEnvelope (params : Json) : Json :=
  JsonMap.value (JsonMap.ofFields [("method", .string "session/prompt"), ("params", params)])

namespace AcpPromptEncoder

def cursor : AcpPromptEncoder := ⟨.plainText, .cursorAcp "1", 1024 * 1024⟩

def codex : AcpPromptEncoder := ⟨.plainText, .codexAcp "1", 1024 * 1024⟩

def agy : AcpPromptEncoder := ⟨.plainText, .agyAcp "1", 1024 * 1024⟩

variable (encoder : AcpPromptEncoder) (serde : SerdeJson Json)

/-- The text of the prompt in its shape. -/
def layOut (text : String) (fields : Option JsonMap) : Except EncodingError String :=
  match encoder.shape with
  | .plainText =>
      if fields.isSome then .error (.unsupported "plain-text ACP shape cannot encode extensions")
      else .ok text
  | .paramsObject =>
      match serde.render (promptParams text fields) with
      | none => .error .unrepresentableInput
      | some written => .ok written
  | .methodEnvelope =>
      match serde.render (promptEnvelope (promptParams text fields)) with
      | none => .error .unrepresentableInput
      | some written => .ok written

/-- `encode_initial` once the text is there. -/
def encodeText (text : String) (config : EffectiveConfig F32) (tools : List ToolSpec) :
    Except EncodingError EncodedExchange :=
  if !tools.isEmpty then
    .error (.unsupported "non-empty tools require MCP gateway for external-agent ACP profiles")
  else do
    let fields ← encodeAcpExtensionMeta config.extensions
    let written ← encoder.layOut serde text fields
    bounded written encoder.maxEncodedBytes encoder.dialect

def encodeInitial (input : CanonicalInput Json) (config : EffectiveConfig F32)
    (tools : List ToolSpec) : Except EncodingError EncodedExchange := do
  let text ← collectUserText input.messages
  encoder.encodeText serde text config tools

def encodeToolContinuation (_context : List (CanonicalMessage Json))
    (_results : List (CanonicalToolResult Json)) (_config : EffectiveConfig F32)
    (_tools : List ToolSpec) : Except EncodingError EncodedExchange :=
  .error (.unsupported "ACP external agents do not encode model tool continuations")

end AcpPromptEncoder

structure HeadlessPromptEncoder where
  dialect : DialectDescriptor
  maxEncodedBytes : Nat

namespace HeadlessPromptEncoder

def claude : HeadlessPromptEncoder := ⟨.claudeCode "1", 1024 * 1024⟩

variable (encoder : HeadlessPromptEncoder)

def encodeInitial (input : CanonicalInput Json) (config : EffectiveConfig F32)
    (tools : List ToolSpec) : Except EncodingError EncodedExchange :=
  if !tools.isEmpty then
    .error (.unsupported "headless CLI profiles reject Monoloop-linked tools (MCP None)")
  else if !config.extensions.isEmpty then
    .error (.unsupported "headless CLI encoder cannot encode extensions")
  else do
    let text ← collectUserText input.messages
    bounded text encoder.maxEncodedBytes encoder.dialect

def encodeToolContinuation (_context : List (CanonicalMessage Json))
    (_results : List (CanonicalToolResult Json)) (_config : EffectiveConfig F32)
    (_tools : List ToolSpec) : Except EncodingError EncodedExchange :=
  .error (.unsupported "headless CLI has no tool continuation encoding")

end HeadlessPromptEncoder

/-! ## What is sent -/

namespace AcpPromptEncoder

variable {encoder : AcpPromptEncoder} {serde : SerdeJson Json}

end AcpPromptEncoder

namespace HeadlessPromptEncoder

end HeadlessPromptEncoder

end Monoloop.Outbound
