import Monoloop.Lib.HashMap
import Monoloop.Lib.InPlace
import Monoloop.Interpreter.Dialects
import Monoloop.Interpreter.SentenceDrain

/-!
# Assembly of canonical units

What the interpreter does with a fragment: text is assembled into sentences by
channel, tool signals advance tool units, and every canonical unit is published
in order (`engine.rs`, `stream.rs`). The events have the fields of
`canonical.rs` that differ between the units of one interpretation; identities
copied from the request, the flow and the observations of source time and step
are left out.

`published` is the stream as far as it was accepted. A send fails once the
receiver is gone, and `room` says after how many events it goes, if ever.
Counters are natural numbers.
-/

namespace Monoloop.Interpreter

open InPlace Utf8

/-! ## Canonical events -/

inductive UnitState where
  | complete
  | waiting
  | incomplete
  | malformed
  deriving DecidableEq, Repr

structure LaneId where
  value : String
  deriving DecidableEq, Repr

namespace LaneId

def response : LaneId := ⟨"response"⟩

def tool : LaneId := ⟨"tool"⟩

def reasoning : LaneId := ⟨"reasoning"⟩

end LaneId

/-- The lane of a channel's sentences. -/
def TextChannel.lane : TextChannel → LaneId
  | .publicReasoningSummary => .reasoning
  | .statusNarration => ⟨"status"⟩
  | .quotedExternalContent => ⟨"quoted"⟩
  | .publicResponse => .response

/-- The `Debug` text of a channel. -/
def TextChannel.debug : TextChannel → String
  | .publicResponse => "PublicResponse"
  | .publicReasoningSummary => "PublicReasoningSummary"
  | .statusNarration => "StatusNarration"
  | .quotedExternalContent => "QuotedExternalContent"

inductive BoundaryKind where
  | responseStarted
  | responseFinished
  deriving DecidableEq, Repr

inductive DiagnosticKind where
  | unsupportedEvent
  deriving DecidableEq, Repr

/-- The canonical units an interpretation publishes. -/
inductive CanonicalUnit where
  | text (sentenceId : UnitId) (channel : TextChannel) (sentenceOrdinal : Nat) (content : String)
  | tool (event : ToolActionEvent)
  | diagnostic (kind : DiagnosticKind) (message : String)
  | boundary (kind : BoundaryKind)
  deriving DecidableEq

structure CanonicalUnitSnapshot where
  unitId : UnitId
  unitGeneration : Nat
  unitState : UnitState
  laneId : LaneId
  laneOrdinal : Nat
  unit : CanonicalUnit
  deriving DecidableEq

/-- Unit lifecycle event. -/
inductive CanonicalUnitEvent where
  | created (snapshot : CanonicalUnitSnapshot)
  | advanced (snapshot : CanonicalUnitSnapshot)
  | completed (snapshot : CanonicalUnitSnapshot)
  | incomplete (snapshot : CanonicalUnitSnapshot)
  deriving DecidableEq

def CanonicalUnitEvent.snapshot : CanonicalUnitEvent → CanonicalUnitSnapshot
  | .created s | .advanced s | .completed s | .incomplete s => s

structure InterpretationEnd where
  kind : InterpretationEndKind
  canonicalEventCount : Nat
  completedSentenceCount : Nat
  unresolvedTextBytes : Nat
  sourceBytesConsumed : Nat
  safeDiagnostics : List String
  deriving DecidableEq

inductive InterpreterOutputEvent where
  | unit (event : CanonicalUnitEvent)
  | ended (report : InterpretationEnd)
  deriving DecidableEq

/-! ## The segmenter, without slices that could fail -/

namespace SentenceSegmenter

theorem push_isSome (s : SentenceSegmenter) (text : Str) : (s.push text).isSome = true := by
  obtain ⟨out, rest, hd⟩ := exists_drains (s.buf ++ text)
  rw [show s.push text = _ from hd.push]
  rfl

theorem sealAtCleanEnd_isSome (s : SentenceSegmenter) : s.sealAtCleanEnd.isSome = true := by
  obtain ⟨out, rest, hd⟩ := exists_drains s.buf
  rw [show s.sealAtCleanEnd = _ from hd.seal]
  rfl

def pushed (s : SentenceSegmenter) (text : Str) : List CompletedSentence × SentenceSegmenter :=
  (s.push text).get (s.push_isSome text)

def sealed (s : SentenceSegmenter) : List CompletedSentence × SentenceSegmenter :=
  s.sealAtCleanEnd.get s.sealAtCleanEnd_isSome

end SentenceSegmenter

/-! ## Tools -/

structure ToolAssembler where
  actionId : ToolActionId
  unitId : UnitId
  generation : Nat
  toolName : Option String
  requestState : ToolRequestState
  executionState : ToolExecutionState
  resultState : ToolResultState
  requestPayload : Option String
  resultPayload : Option String
  terminal : Option ToolTerminalOutcome
  waitingFor : Option String
  deriving DecidableEq

/-- The unit of a tool action. -/
def toolUnitId (actionId : ToolActionId) : UnitId := ⟨"tool-" ++ actionId.value⟩

namespace ToolAssembler

def new (actionId : ToolActionId) : ToolAssembler where
  actionId
  unitId := toolUnitId actionId
  generation := 0
  toolName := none
  requestState := .assembling
  executionState := .notObserved
  resultState := .absent
  requestPayload := none
  resultPayload := none
  terminal := none
  waitingFor := none

/-- The effect of a signal, past the payload limit. -/
def receive (tool : ToolAssembler) : ToolSignal → ToolAssembler
  | .waiting name waitingFor =>
      { tool with
        toolName := if name.isSome then name else tool.toolName
        waitingFor := some waitingFor
        requestState := .assembling
        executionState := .waiting }
  | .requestReady name arguments =>
      { tool with
        toolName := some name
        requestPayload := some arguments
        requestState := .ready
        executionState := .waiting
        waitingFor := some "external execution"
        resultState := .absent }
  | .resolved success result =>
      { tool with
        executionState := .terminal
        resultState := .complete
        resultPayload := result
        terminal := some (if success then .success else .failure)
        waitingFor := none }

@[simp] theorem receive_unitId (tool : ToolAssembler) (signal : ToolSignal) :
    (tool.receive signal).unitId = tool.unitId := by cases signal <;> rfl

@[simp] theorem receive_generation (tool : ToolAssembler) (signal : ToolSignal) :
    (tool.receive signal).generation = tool.generation := by cases signal <;> rfl

/-- Marked at an abrupt end. -/
def interrupt (tool : ToolAssembler) : ToolAssembler :=
  { tool with
    requestState := if tool.requestState = .ready then .ready else .incomplete
    resultState := if tool.resultState = .complete then .complete else .incomplete
    generation := tool.generation + 1 }

/-- Only complete payloads are exposed. -/
def event (tool : ToolAssembler) : ToolActionEvent where
  toolActionId := tool.actionId
  toolName := tool.toolName
  requestState := tool.requestState
  executionState := tool.executionState
  resultState := tool.resultState
  requestPayload := if tool.requestState = .ready then tool.requestPayload else none
  resultPayload := if tool.resultState = .complete then tool.resultPayload else none
  terminalOutcome := tool.terminal
  waitingFor := tool.waitingFor

def unitState (tool : ToolAssembler) : UnitState :=
  if tool.terminal.isSome then .complete
  else if tool.requestState = .incomplete then .incomplete
  else .waiting

end ToolAssembler

/-- A request whose payload is over the limit. -/
def ToolSignal.exceeds (limits : InterpretationLimits) : ToolSignal → Bool
  | .requestReady _ arguments => limits.maxBytesPerToolAction < arguments.utf8ByteSize
  | _ => false

/-- The kind of a tool event. -/
def signalEvent (isNew : Bool) (signal : ToolSignal) (s : CanonicalUnitSnapshot) :
    CanonicalUnitEvent :=
  match signal with
  | .resolved _ _ => .completed s
  | _ => if isNew then .created s else .advanced s

/-! ## The state and its methods -/

/-- The fields of the owner that fragments are assembled in. -/
structure Assembly where
  channels : HashMap TextChannel SentenceSegmenter := ∅
  tools : HashMap ToolActionId ToolAssembler := ∅
  laneOrdinals : HashMap LaneId Nat := ∅
  nextUnit : Nat := 1
  sentenceCount : Nat := 0
  diagnostics : List String := []
  responseStarted : Bool := false
  unresolvedBytesAtEnd : Nat := 0
  published : List InterpreterOutputEvent := []

namespace Assembly

/-- The lane's ordinal so far. -/
def laneOrdinal (a : Assembly) (lane : LaneId) : Nat := (a.laneOrdinals.lookup lane).getD 0

def snapshot (a : Assembly) (unitId : UnitId) (generation : Nat) (state : UnitState)
    (lane : LaneId) (unit : CanonicalUnit) : CanonicalUnitSnapshot where
  unitId
  unitGeneration := generation
  unitState := state
  laneId := lane
  laneOrdinal := a.laneOrdinal lane
  unit

def toolSnapshot (a : Assembly) (tool : ToolAssembler) : CanonicalUnitSnapshot :=
  a.snapshot tool.unitId tool.generation tool.unitState .tool (.tool tool.event)

end Assembly

abbrev Assembling := InPlace InterpreterError Assembly Unit

section Methods

variable (room : Option Nat)

/-- Nobody receives any more. -/
def Gone (a : Assembly) : Prop := room.any (· ≤ a.published.length) = true

instance (a : Assembly) : Decidable (Gone room a) := inferInstanceAs (Decidable (_ = true))

/-- Publish with backpressure; the only failure is that nobody receives. -/
def publish (event : InterpreterOutputEvent) : Assembling := do
  let a ← get
  if Gone room a then throw InterpreterError.backpressure
  else modify fun a => { a with published := a.published ++ [event] }

def setTool (id : ToolActionId) (tool : ToolAssembler) : Assembling :=
  modify fun a => { a with tools := a.tools.put id tool }

def setChannel (channel : TextChannel) (s : SentenceSegmenter) : Assembling :=
  modify fun a => { a with channels := a.channels.put channel s }

/-- The next unit number, for a unit of the given id prefix. -/
def emitUnit (idPrefix : String) (lane : LaneId) (unit : UnitId → CanonicalUnit) : Assembling := do
  let a ← get
  let unitId : UnitId := ⟨idPrefix ++ toString a.nextUnit⟩
  modify fun a => { a with nextUnit := a.nextUnit + 1 }
  publish room (.unit (.created (a.snapshot unitId 1 .complete lane (unit unitId))))

def emitSentence (channel : TextChannel) (content : Str) : Assembling := do
  let a ← get
  let lane := channel.lane
  let ordinal := a.laneOrdinal lane + 1
  modify fun a => { a with
    sentenceCount := a.sentenceCount + 1
    laneOrdinals := a.laneOrdinals.put lane ordinal }
  emitUnit room "s-" lane (fun unitId => .text unitId channel ordinal (String.ofList content))

def emitBoundary (kind : BoundaryKind) : Assembling :=
  emitUnit room "b-" .response (fun _ => .boundary kind)

def emitDiagnostic (kind : DiagnosticKind) (message : String) : Assembling :=
  emitUnit room "d-" .response (fun _ => .diagnostic kind message)

variable (limits : InterpretationLimits) (channelOrder : HashMap.IterOrder TextChannel)

def onText (channel : TextChannel) (text : String) : Assembling := do
  let a ← get
  let s := (a.channels.lookup channel).getD .new
  if s.bufferedBytes + text.utf8ByteSize > limits.maxSentenceAssemblyBytes then
    setChannel channel s
    throw ⟨.sentenceLimitExceeded, "sentence assembly limit exceeded"⟩
  else
    setChannel channel (s.pushed text.toList).2
    forEach (emitSentence room channel) ((s.pushed text.toList).1.map CompletedSentence.content)

def sealChannel (channel : TextChannel) : Assembling := do
  let a ← get
  match a.channels.lookup channel with
  | none => pure ()
  | some s =>
      setChannel channel s.sealed.2
      forEach (emitSentence room channel) (s.sealed.1.map CompletedSentence.content)

def sealTextChannels : Assembling := do
  let a ← get
  forEach (sealChannel room) (channelOrder.keys a.channels)

def onTool (actionId : ToolActionId) (signal : ToolSignal) : Assembling := do
  let a ← get
  let isNew := (a.tools.lookup actionId).isNone
  if limits.maxPendingToolActions ≤ a.tools.keys.length ∧ isNew then
    throw ⟨.toolLimitExceeded, "max pending tool actions"⟩
  else
    let known := (a.tools.lookup actionId).getD (.new actionId)
    let tool := { known with generation := known.generation + 1 }
    if signal.exceeds limits then
      setTool actionId tool
      throw ⟨.toolLimitExceeded, "tool payload limit"⟩
    else
      setTool actionId (tool.receive signal)
      publish room (.unit (signalEvent isNew signal (a.toolSnapshot (tool.receive signal))))

def pushDiagnostic (message : String) : Assembling :=
  modify fun a => { a with
    diagnostics :=
      if a.diagnostics.length < limits.maxSafeDiagnostics then a.diagnostics ++ [message]
      else a.diagnostics }

def onFragment : AcpFragment → Assembling
  | .textDelta channel text => onText room limits channel text
  | .tool actionId signal => onTool room limits actionId signal
  | .responseFinished => do
      sealTextChannels room channelOrder
      emitBoundary room .responseFinished
  | .diagnostic message => do
      pushDiagnostic limits message
      emitDiagnostic room .unsupportedEvent message

/-- The boundary before the first message of a response. -/
def startResponse : Assembling := do
  let a ← get
  if a.responseStarted then pure ()
  else
    modify fun a => { a with responseStarted := true }
    emitBoundary room .responseStarted

/-! ## The abrupt end -/

/-- Unresolved text of a channel is counted and dropped. -/
def takeUnresolved (channel : TextChannel) : Assembling := do
  let a ← get
  match a.channels.lookup channel with
  | none => pure ()
  | some s =>
      if s.buf = [] then pure ()
      else
        setChannel channel s.takeUnresolved.2
        modify fun a => { a with
          unresolvedBytesAtEnd := a.unresolvedBytesAtEnd + s.bufferedBytes
          diagnostics := a.diagnostics ++
            ["unresolved text on " ++ channel.debug ++ ": " ++ toString s.bufferedBytes ++
              " bytes"] }

/-- A tool without a terminal outcome is marked and told incomplete. -/
def quarantineTool (id : ToolActionId) : Assembling := do
  let a ← get
  match a.tools.lookup id with
  | none => pure ()
  | some tool =>
      if tool.terminal.isSome then pure ()
      else
        setTool id tool.interrupt
        publish room (.unit (.incomplete (a.toolSnapshot tool.interrupt)))

end Methods

/-! ## Calls -/

section Calls

variable {room : Option Nat}

/-- Once nobody receives, nobody does. -/
theorem Gone.mono {a a' : Assembly} (h : Gone room a)
    (hle : a.published.length ≤ a'.published.length) : Gone room a' := by
  unfold Gone at h ⊢
  cases room with
  | none => cases h
  | some n =>
      simp only [Option.any_some, decide_eq_true_eq] at h ⊢
      omega

variable (room)

theorem call_publish (event : InterpreterOutputEvent) (a : Assembly) :
    call (publish room event) a =
      if Gone room a then (.error .backpressure, a)
      else (.ok (), { a with published := a.published ++ [event] }) := by
  rw [publish, call_get_bind]
  split <;> rfl

/-- A published event, or nobody to receive it. -/
theorem publish_cases (event : InterpreterOutputEvent) (a : Assembly) :
    (Gone room a ∧ call (publish room event) a = (.error .backpressure, a)) ∨
      (¬ Gone room a ∧ call (publish room event) a =
        (.ok (), { a with published := a.published ++ [event] })) := by
  rw [call_publish]
  by_cases h : Gone room a
  · exact .inl ⟨h, if_pos h⟩
  · exact .inr ⟨h, if_neg h⟩

variable (limits : InterpretationLimits)

/-- The tool a signal meets, its generation counted. -/
def Assembly.receiving (a : Assembly) (id : ToolActionId) : ToolAssembler :=
  let known := (a.tools.lookup id).getD (.new id)
  { known with generation := known.generation + 1 }

/-- A tool signal that no event is published for. -/
inductive Refused (a : Assembly) (id : ToolActionId) (signal : ToolSignal) : Prop where
  | pending : limits.maxPendingToolActions ≤ a.tools.keys.length → a.tools.lookup id = none →
      Refused a id signal
  | tooLong : signal.exceeds limits = true → Refused a id signal
  | gone : Gone room a → Refused a id signal

/-- What a tool signal does: it is refused, with or without a trace in the
tool, or the tool receives it and the event is published. -/
theorem onTool_cases (a : Assembly) (id : ToolActionId) (signal : ToolSignal) :
    (Refused room limits a id signal ∧ ∃ e,
      call (onTool room limits id signal) a = (.error e, a)) ∨
    (signal.exceeds limits = true ∧ ∃ e, call (onTool room limits id signal) a =
      (.error e, { a with tools := a.tools.put id (a.receiving id) })) ∨
    (Gone room a ∧ ∃ e, call (onTool room limits id signal) a =
      (.error e, { a with tools := a.tools.put id ((a.receiving id).receive signal) })) ∨
    (¬ Refused room limits a id signal ∧ call (onTool room limits id signal) a =
      (.ok (), { a with
        tools := a.tools.put id ((a.receiving id).receive signal)
        published := a.published ++ [.unit (signalEvent (a.tools.lookup id).isNone signal
          (a.toolSnapshot ((a.receiving id).receive signal)))] })) := by
  unfold onTool
  rw [call_get_bind]
  by_cases hfull : limits.maxPendingToolActions ≤ a.tools.keys.length ∧
      (a.tools.lookup id).isNone = true
  · simp only [if_pos hfull]
    exact .inl ⟨.pending hfull.1 (Option.isNone_iff_eq_none.mp hfull.2), _, rfl⟩
  · simp only [if_neg hfull]
    by_cases hlong : signal.exceeds limits = true
    · simp only [if_pos hlong]
      exact .inr (.inl ⟨hlong, _, rfl⟩)
    · simp only [if_neg hlong, setTool, call_modify_bind]
      right
      right
      -- the tool is stored, then the event goes out
      rcases publish_cases room (.unit (signalEvent (a.tools.lookup id).isNone signal
          (a.toolSnapshot ((a.receiving id).receive signal))))
        { a with tools := a.tools.put id ((a.receiving id).receive signal) } with
        ⟨hgone, hcall⟩ | ⟨hgone, hcall⟩
      · exact .inl ⟨hgone, _, hcall⟩
      · refine .inr ⟨?_, hcall⟩
        rintro (⟨hfull', hnone⟩ | hlong' | hgone')
        · exact hfull ⟨hfull', by rw [hnone]; rfl⟩
        · exact hlong hlong'
        · exact hgone hgone'

end Calls

end Monoloop.Interpreter
