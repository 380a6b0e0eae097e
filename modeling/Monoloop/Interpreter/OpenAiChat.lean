import Monoloop.Lib.HashMap
import Monoloop.Lib.Transducer
import Monoloop.Lib.Utf8
import Monoloop.Interpreter.Fragment

/-!
# OpenAI Chat Completions over server-sent events

The assembler of one streamed response: bytes become lines, the data lines of an
event become one JSON chunk, and the tool calls of the chunks are accumulated by
the provider's index until the finish reason releases them.

Every function is written as the source's, with the fragments it pushes as a
second result; `Transducer.andThen` is the source's `?`. Where the source walks
its map of calls, the order is that of `order`.
-/

namespace Monoloop.Interpreter

open Transducer Utf8

abbrev CallIndex := UInt32

structure PartialToolCall where
  id : String := ""
  name : String := ""
  arguments : String := ""
  emittedWaiting : Bool := false
  ready : Bool := false
  deriving DecidableEq, Repr

/-- Incremental SSE assembler for one interpretation. -/
structure OpenAiSseState where
  /-- Incomplete trailing line bytes. -/
  lineCarry : List UInt8 := []
  /-- Data lines of the current SSE event. -/
  eventDataLines : List String := []
  /-- Partial tool calls keyed by provider tool-call index within the choice. -/
  tools : HashMap CallIndex PartialToolCall := ∅
  /-- Whether `data: [DONE]` was observed. -/
  sawDone : Bool := false
  choiceIndex : UInt32 := 0
  maxLineBytes : Nat
  maxEventBytes : Nat
  maxToolArgBytes : Nat

abbrev SseResult := Except InterpreterError (OpenAiSseState × List AcpFragment)

namespace OpenAiSseState

def defaultChoiceIndex : UInt32 := 0

def new (maxLineBytes maxEventBytes maxToolArgBytes : Nat) : OpenAiSseState :=
  { choiceIndex := defaultChoiceIndex
    maxLineBytes := max maxLineBytes 64
    maxEventBytes := max maxEventBytes 64
    maxToolArgBytes := max maxToolArgBytes 64 }

/-- A name is told only when there is one. -/
def knownName (name : String) : Option String := if name = "" then none else some name

/-! ## Tool calls -/

/-- `index`, read as an unsigned integer and cut to 32 bits. -/
def indexOf (v : Json) : UInt32 := UInt32.ofNat (((v.get? "index").bind Json.asU64).getD 0)

/-- The id and the name of a delta; an id replaces, a name adds. -/
def noteIdentity (entry : PartialToolCall) (call : Json) : PartialToolCall :=
  let entry := match call.str? "id" with
    | some id => if id = "" then entry else { entry with id }
    | none => entry
  match (call.get? "function").bind (Json.str? "name") with
  | some name => if name = "" then entry else { entry with name := entry.name ++ name }
  | none => entry

def argumentsOf (call : Json) : Option String :=
  (call.get? "function").bind (Json.str? "arguments")

/-- Waiting is told once, as soon as there is an id. -/
def noteWaiting (st : OpenAiSseState) (idx : CallIndex) (entry : PartialToolCall) : SseResult :=
  if entry.id ≠ "" ∧ ¬ entry.emittedWaiting ∧ ¬ entry.ready then
    .ok ({ st with tools := st.tools.insert idx { entry with emittedWaiting := true } },
      [.tool ⟨entry.id⟩ (.waiting (knownName entry.name) "tool arguments")])
  else
    .ok ({ st with tools := st.tools.insert idx entry }, [])

def ingestToolDelta (st : OpenAiSseState) (call : Json) : SseResult :=
  let idx := indexOf call
  let entry := noteIdentity ((st.tools.lookup idx).getD {}) call
  match argumentsOf call with
  | none => noteWaiting st idx entry
  | some args =>
      if entry.arguments.utf8ByteSize + args.utf8ByteSize > st.maxToolArgBytes then
        .error ⟨.toolLimitExceeded, "tool arguments exceed bound"⟩
      else
        noteWaiting st idx { entry with arguments := entry.arguments ++ args }

section Chunks

variable (serde : SerdeJson) (order : HashMap.IterOrder CallIndex)

/-- True when the text parses as a complete JSON value. -/
def isCompleteJsonValue (s : String) : Bool :=
  let t := trim s.toList
  if t = [] then false else (serde.fromStr (String.ofList t)).isSome

/-- One key of the walk at `finish_reason: tool_calls`. -/
def releaseCall (st : OpenAiSseState) (k : CallIndex) : SseResult :=
  match st.tools.lookup k with
  | none => .ok (st, [])
  | some entry =>
      if entry.ready then .ok (st, [])
      else if entry.id = "" ∨ entry.name = "" ∨ ¬ isCompleteJsonValue serde entry.arguments then
        .error ⟨.malformedSemanticPayload, "incomplete tool call at tool_calls finish"⟩
      else
        .ok ({ st with tools := st.tools.insert k { entry with ready := true } },
          [.tool ⟨entry.id⟩ (.requestReady entry.name entry.arguments)])

def onFinishReason (st : OpenAiSseState) (reason : String) : SseResult :=
  if reason = "tool_calls" then
    run (releaseCall serde) st (order.keys st.tools)
  else if reason = "stop" ∨ reason = "length" ∨ reason = "content_filter" ∨ reason = "null" then
    .ok (st, [])
  else
    .error ⟨.malformedSemanticPayload, "unsupported finish_reason: " ++ reason⟩

/-- The text of a delta. -/
def onContent (st : OpenAiSseState) (delta : Json) : SseResult :=
  match delta.str? "content" with
  | some content =>
      if content = "" then .ok (st, []) else .ok (st, [.textDelta .publicResponse content])
  | none => .ok (st, [])

def onDelta (st : OpenAiSseState) (delta : Json) : SseResult :=
  andThen (onContent st delta) fun st =>
    match (delta.get? "tool_calls").bind Json.asArray with
    | some calls => run ingestToolDelta st calls
    | none => .ok (st, [])

/-- One choice of a chunk; choices other than the selected one are ignored. -/
def onChoice (st : OpenAiSseState) (choice : Json) : SseResult :=
  if indexOf choice ≠ st.choiceIndex then .ok (st, [])
  else
    andThen
      (match choice.get? "delta" with
        | some delta => onDelta st delta
        | none => .ok (st, []))
      fun st =>
        match choice.str? "finish_reason" with
        | some reason => onFinishReason serde order st reason
        | none => .ok (st, [])

def mapChunk (st : OpenAiSseState) (value : Json) : SseResult :=
  match (value.get? "choices").bind Json.asArray with
  | none => .ok (st, [])
  | some choices => run (onChoice serde order) st choices

def mapDataJson (st : OpenAiSseState) (data : String) : SseResult :=
  match serde.fromStr data with
  | none => .error ⟨.malformedSemanticPayload, "SSE data is not valid JSON"⟩
  | some value => mapChunk serde order st value

/-! ## Lines and bytes -/

/-- A blank line ends the event. -/
def dispatchEvent (st : OpenAiSseState) : SseResult :=
  if st.eventDataLines = [] then .ok (st, [])
  else
    let data := "\n".intercalate st.eventDataLines
    let st := { st with eventDataLines := [] }
    if data.utf8ByteSize > st.maxEventBytes then
      .error ⟨.frameLimitExceeded, "SSE event exceeds bound"⟩
    else if trim data.toList = "[DONE]".toList then
      .ok ({ st with sawDone := true }, [])
    else
      mapDataJson serde order st data

def stripPrefix (pre s : List Char) : Option (List Char) :=
  if pre.isPrefixOf s then some (s.drop pre.length) else none

/-- The payload of a `data:` line, without the one space that may follow. -/
def dataPayload (line : String) : Option String :=
  (stripPrefix "data:".toList line.toList).map
    (fun rest => String.ofList ((stripPrefix [' '] rest).getD rest))

def handleLine (st : OpenAiSseState) (line : List UInt8) : SseResult :=
  if line = [] then dispatchEvent serde order st
  else
    match String.fromUTF8? ⟨line.toArray⟩ with
    | none => .error ⟨.malformedFrame, "SSE line is not valid UTF-8"⟩
    | some text =>
        -- comment, id, event and retry lines are ignored
        match dataPayload text with
        | some payload => .ok ({ st with eventDataLines := st.eventDataLines ++ [payload] }, [])
        | none => .ok (st, [])

/-- Strip CR for CRLF. -/
def stripCr (line : List UInt8) : List UInt8 :=
  if line.getLast? = some 0x0d then line.dropLast else line

/-- One byte of the loop of `pushBytes`. -/
def pushByte (st : OpenAiSseState) (b : UInt8) : SseResult :=
  if b = 0x0a then
    handleLine serde order { st with lineCarry := [] } (stripCr st.lineCarry)
  else if st.maxLineBytes ≤ st.lineCarry.length then
    .error ⟨.frameLimitExceeded, "SSE line exceeds bound"⟩
  else
    .ok ({ st with lineCarry := st.lineCarry ++ [b] }, [])

/-- Ingest a raw transport chunk. -/
def pushBytes (st : OpenAiSseState) (chunk : List UInt8) : SseResult :=
  if st.sawDone then .ok (st, []) else run (pushByte serde order) st chunk

/-- The Waiting of a call that is not ready at the clean end. -/
def sealedCall (st : OpenAiSseState) (k : CallIndex) : Option AcpFragment :=
  match st.tools.lookup k with
  | none => none
  | some entry =>
      if ¬ entry.ready ∧ entry.id ≠ "" then
        some (.tool ⟨entry.id⟩ (.waiting (knownName entry.name)
          "incomplete tool arguments at stream end"))
      else none

/-- Flush on clean end. What the last line itself would give out is dropped. -/
def sealClean (st : OpenAiSseState) : SseResult :=
  let flushed : SseResult :=
    if st.lineCarry = [] then .ok (st, [])
    else handleLine serde order { st with lineCarry := [] } st.lineCarry
  match flushed with
  | .error e => .error e
  | .ok (st, _) =>
      if st.eventDataLines ≠ [] then
        .error ⟨.malformedFrame, "incomplete SSE event at end of stream"⟩
      else if ¬ st.sawDone then
        .error ⟨.malformedFrame, "missing [DONE] terminator"⟩
      else
        .ok (st, (order.keys st.tools).filterMap (sealedCall st))

/-- Chunks one after the other, up to the first error: the fragments handed on,
and the final state or the error. -/
def decode (st : OpenAiSseState) : List (List UInt8) → List AcpFragment × Except InterpreterError OpenAiSseState
  | [] => ([], .ok st)
  | chunk :: chunks =>
      match pushBytes serde order st chunk with
      | .error e => ([], .error e)
      | .ok (st, frags) =>
          let (rest, result) := decode st chunks
          (frags ++ rest, result)

end Chunks

end OpenAiSseState

end Monoloop.Interpreter
