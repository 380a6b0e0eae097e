import Monoloop.Lib.Utf8
import Monoloop.Interpreter.Fragment

/-!
# Dialect mappings

One complete message of a dialect, mapped to fragments: JSON-RPC messages of the
ACP family (`acp.rs`), chat messages of the Z.ai CLI (`zai_chat.rs`) and
stream-json events of Claude Code (`claude_stream.rs`).
-/

namespace Monoloop.Interpreter

open Utf8

namespace Json

def isString : Json → Bool
  | .string _ => true
  | _ => false

/-- `a.as_str().unwrap_or(..)` of a string, the JSON text of anything else. -/
def textOr (serde : SerdeJson) (a : Json) : String :=
  match a with
  | .string s => s
  | _ => serde.toString a

/-- `text.starts_with(pre)`. -/
def hasPrefix (pre text : String) : Bool := pre.toList.isPrefixOf text.toList

end Json

/-- `json!(\x7b "content": c \x7d).to_string()`. -/
def contentObject (serde : SerdeJson) (content : String) : String :=
  serde.toString (.object [("content", .string content)])

/-! ## ACP -/

namespace AcpDialect

/-- The text pieces of a content array. -/
def contentPieces (items : List Json) : String :=
  items.foldl (fun acc item =>
    if item.str? "type" = some "text" then
      match item.str? "text" with
      | some t => acc ++ t
      | none => acc
    else
      match item.asStr with
      | some t => acc ++ t
      | none => acc) ""

def extractTextContent (update : Json) : Option String :=
  match update.str? "text" with
  | some s => some s
  | none =>
      match update.get? "content" with
      | none => none
      | some content =>
          match content.asStr with
          | some s => some s
          | none =>
              match content.str? "text" with
              | some s => some s
              | none =>
                  match content.asArray with
                  | none => none
                  | some arr =>
                      let acc := contentPieces arr
                      if acc = "" then none else some acc

/-- True when a result looks like tool outcome material. -/
def isToolResultPayload : Json → Bool
  | .null => false
  | .bool _ => true
  | .number _ => true
  | .string s => s ≠ ""
  | .array a => !a.isEmpty
  | .object m => !m.isEmpty

def isContainerOrString : Json → Bool
  | .object _ => true
  | .array _ => true
  | .string _ => true
  | _ => false

/-- The first of some keys that is there. -/
def firstOf (v : Json) (keys : List String) : Option Json := keys.findSome? v.get?

section Serde

variable (serde : SerdeJson)

def readySignal (name : Option String) (args : Json) : ToolSignal :=
  .requestReady (name.getD "unknown") (args.textOr serde)

def mapToolCall (update : Json) (isUpdate : Bool) : List AcpFragment :=
  let id := ((firstOf update ["toolCallId", "tool_call_id", "id"]).bind Json.asStr).getD ""
  if id = "" then [.diagnostic "tool_call missing toolCallId"]
  else
    let actionId : ToolActionId := ⟨id⟩
    let name := (firstOf update ["title", "name", "toolName"]).bind Json.asStr
    let status := ((update.str? "status").getD "").toLower
    let args := (firstOf update ["rawInput", "arguments", "input"]).filter isContainerOrString
    let resultValue := firstOf update
      (["rawOutput", "result"] ++ if isUpdate then ["content"] else [])
    let hasResult := resultValue.any isToolResultPayload
    let explicitFailure := decide (status ∈ ["failed", "failure", "error", "cancelled", "canceled"])
    let explicitTerminal := decide (status ∈ ["completed", "complete", "success"]) || explicitFailure
    let inProgress :=
      decide (status ∈ ["pending", "in_progress", "in-progress", "running", "started"])
    if explicitTerminal || (hasResult && !inProgress) then
      -- Ready first when the same message carries complete arguments
      (match args with
        | some a => [.tool actionId (readySignal serde name a)]
        | none => []) ++
      [.tool actionId (.resolved (!explicitFailure) (resultValue.map serde.toString))]
    else
      match args with
      | some a => [.tool actionId (readySignal serde name a)]
      | none =>
          [.tool actionId (.waiting name
            (if isUpdate then "tool_call_update incomplete" else "complete tool request"))]

/-- A text delta, when there is some text. -/
def textDelta (channel : TextChannel) (text : Option String) : List AcpFragment :=
  match text with
  | none => []
  | some text => if text = "" then [] else [.textDelta channel text]

def mapSessionUpdate (params : Json) : List AcpFragment :=
  let update := (params.get? "update").getD params
  let kind := ((firstOf update ["sessionUpdate", "type"]).bind Json.asStr).getD ""
  if kind ∈ ["agent_message_chunk", "agent_message", "message"] then
    textDelta .publicResponse (extractTextContent update)
  else if kind ∈ ["agent_thought_chunk", "agent_thought"] then
    -- private thoughts are suppressed
    if ((update.get? "public").bind Json.asBool).getD false ∨ (update.get? "summary").isSome then
      textDelta .publicReasoningSummary (extractTextContent update)
    else []
  else if kind ∈ ["tool_call", "tool_call_update"] then
    mapToolCall serde update (kind = "tool_call_update")
  else if kind ∈ ["available_commands_update", "current_mode_update", "plan",
      "user_message_chunk", "session_info_update", "config_option_update",
      "available_commands"] then
    []
  else if kind ≠ "" then
    [.diagnostic ("unsupported sessionUpdate: " ++ kind)]
  else
    textDelta .publicResponse (extractTextContent update)

/-- Map one complete JSON-RPC message into fragments. -/
def mapMessage (value : Json) : List AcpFragment :=
  let method := (value.str? "method").getD ""
  if method = "session/update" then
    match value.get? "params" with
    | some params => mapSessionUpdate serde params
    | none => []
  else if method ∈ ["cursor/update_todos", "cursor/task", "cursor/generate_image"] then
    [.diagnostic ("cursor extension notification: " ++ method)]
  else if (value.get? "result").isSome ∧ (value.get? "id").isSome then
    match (value.get? "result").bind (Json.str? "stopReason") with
    | some reason =>
        if reason ∈ ["end_turn", "max_tokens", "cancelled"] then [.responseFinished] else []
    | none => []
  else []

end Serde

end AcpDialect

/-! ## Newline-delimited JSON -/

/-- A line that may be a message: trimmed, not empty, and starting a JSON
object. -/
def messageLine (line : List Char) : Option (List Char) :=
  let trimmed := trim line
  if trimmed ≠ [] ∧ trimmed.head? = some '\x7b' then some trimmed else none

/-- A line of a dialect: `malformed` when it is no JSON. -/
def mapLine (serde : SerdeJson) (malformed : String) (mapValue : Json → List AcpFragment)
    (line : List Char) : List AcpFragment :=
  match messageLine line with
  | none => []
  | some trimmed =>
      match serde.fromStr (String.ofList trimmed) with
      | none => [.diagnostic malformed]
      | some value => mapValue value

namespace ZaiChat

variable (serde : SerdeJson)

def mapToolCall (call : Json) : List AcpFragment :=
  let id := (call.str? "id").getD ""
  if id = "" then [.diagnostic "zai_cli: tool_call missing id"]
  else
    let func := (call.get? "function").getD call
    let name := (func.str? "name").getD "unknown"
    let arguments := ((func.get? "arguments").map (Json.textOr serde)).getD "\x7b\x7d"
    [.tool ⟨id⟩ (.requestReady name arguments)]

def mapAssistant (value : Json) : List AcpFragment :=
  (match value.str? "content" with
    | some text =>
        -- placeholder chatter while tools run is skipped
        let t := trim text.toList
        if t ≠ [] ∧ t ≠ "Using tools to help you...".toList then
          [.textDelta .publicResponse text]
        else []
    | none => []) ++
  (match (value.get? "tool_calls").bind Json.asArray with
    | some calls => calls.flatMap (mapToolCall serde)
    | none => [])

def mapToolResult (value : Json) : List AcpFragment :=
  let id := (value.str? "tool_call_id").getD ""
  if id = "" then [.diagnostic "zai_cli: tool result missing tool_call_id"]
  else
    let content := ((value.get? "content").map (Json.textOr serde)).getD ""
    let success := !Json.hasPrefix "error" content.toLower
    [.tool ⟨id⟩ (.resolved success (some (contentObject serde content)))]

/-- Map a parsed OpenAI-style chat message object. -/
def mapChatMessage (value : Json) : List AcpFragment :=
  let role := (value.str? "role").getD ""
  if role = "assistant" then mapAssistant serde value
  else if role = "tool" then mapToolResult serde value
  else if role = "user" ∨ role = "system" ∨ role = "" then []
  else [.diagnostic ("zai_cli: unsupported role " ++ role)]

def mapChatMessageLine : List Char → List AcpFragment :=
  mapLine serde "zai_cli: malformed chat JSON line" (mapChatMessage serde)

end ZaiChat

namespace ClaudeStream

variable (serde : SerdeJson)

/-- The array at `/message/content`. -/
def contentBlocks (value : Json) : List Json :=
  (((value.get? "message").bind (Json.get? "content")).bind Json.asArray).getD []

def mapBlock (block : Json) : List AcpFragment :=
  let bty := (block.str? "type").getD ""
  if bty = "text" then
    match block.str? "text" with
    | some text => if text = "" then [] else [.textDelta .publicResponse text]
    | none => []
  else if bty = "tool_use" then
    let id := (block.str? "id").getD ""
    if id = "" then [.diagnostic "claude_code: tool_use missing id"]
    else
      let name := (block.str? "name").getD "unknown"
      let arguments := ((block.get? "input").map serde.toString).getD "\x7b\x7d"
      [.tool ⟨id⟩ (.requestReady name arguments)]
  else []

def mapAssistant (value : Json) : List AcpFragment := (contentBlocks value).flatMap (mapBlock serde)

def mapToolResultBlock (block : Json) : List AcpFragment :=
  if block.str? "type" ≠ some "tool_result" then []
  else
    let id := (block.str? "tool_use_id").getD ""
    if id = "" then []
    else
      let resultContent := (block.get? "content").map (Json.textOr serde)
      let isError := ((block.get? "is_error").bind Json.asBool).getD false
      let success := !isError &&
        ((resultContent.map fun s => !Json.hasPrefix "error" s.toLower).getD true)
      [.tool ⟨id⟩ (.resolved success (resultContent.map (contentObject serde)))]

def mapUserToolResults (value : Json) : List AcpFragment :=
  (contentBlocks value).flatMap (mapToolResultBlock serde)

/-- Map a parsed stream-json event. Unknown types are ignored. -/
def mapStreamEvent (value : Json) : List AcpFragment :=
  let ty := (value.str? "type").getD ""
  if ty = "assistant" then mapAssistant serde value
  else if ty = "user" then mapUserToolResults serde value
  else if ty = "result" then [.responseFinished]
  else []

def mapStreamLine : List Char → List AcpFragment :=
  mapLine serde "claude_code: malformed stream-json line" (mapStreamEvent serde)

end ClaudeStream

end Monoloop.Interpreter
