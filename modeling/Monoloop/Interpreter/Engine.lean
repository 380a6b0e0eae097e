import Monoloop.Interpreter.Assembly
import Monoloop.Interpreter.JsonFraming
import Monoloop.Interpreter.OpenAiChat

/-!
# The interpretation owner

Commands in, canonical events out (`engine.rs`). The owner's fields stand in two
groups, those that bytes are decoded with and those that fragments are assembled
in (`Assembly`); no method of the source mixes them but the ones that end the
run. A decoded chunk is a list of operations on the assembly.

A run ends with the first command that ends it, with the first error, or when
the input is dropped; commands after that are not read.
-/

namespace Monoloop.Interpreter

open InPlace Utf8

inductive DialectFamily where
  | openAiChatCompletions
  | openAiResponses
  | anthropicMessages
  | acp
  | cursorAcp
  | agyAcp
  | codexAcp
  | zaiCli
  | claudeCode
  | grokBuild
  | test
  | other (name : String)
  deriving DecidableEq

/-- The part of the request that decides anything. -/
structure StartInterpretation where
  family : DialectFamily
  limits : InterpretationLimits

/-- The iteration orders of the three maps. -/
structure Iteration where
  calls : HashMap.IterOrder CallIndex
  channels : HashMap.IterOrder TextChannel
  tools : HashMap.IterOrder ToolActionId

inductive InputCmd where
  | bytes (chunk : List UInt8)
  /-- Clean end of the source. -/
  | finishClean
  | cancel
  | transportFailed
  deriving DecidableEq

/-- The fields of the owner that bytes are decoded with. -/
structure Decoder where
  frameBuf : List UInt8 := []
  openai : OpenAiSseState

/-- What a decoded message asks of the assembly. -/
inductive EngineOp where
  | startResponse
  | fragment (frag : AcpFragment)
  deriving DecidableEq

/-- One message: the response has started, then its fragments. -/
def frameOps (frags : List AcpFragment) : List EngineOp :=
  .startResponse :: frags.map .fragment

structure Owner where
  decoder : Decoder
  assembly : Assembly := {}
  sourceBytes : Nat := 0
  ended : Bool := false
  /-- What the completion handle was sent. -/
  completion : Option InterpretationEnd := none

/-! ## Decoding -/

abbrev Decoded := Except InterpreterError (List EngineOp) × Decoder

/-- The lines of the buffer, each with its newline, and what is left. -/
def drainLinesLoop : Nat → List UInt8 → List (List UInt8) × List UInt8
  | 0, buf => ([], buf)
  | fuel + 1, buf =>
      match buf.findIdx? (· = 0x0a) with
      | none => ([], buf)
      | some pos =>
          let (lines, rest) := drainLinesLoop fuel (buf.drop (pos + 1))
          (buf.take (pos + 1) :: lines, rest)

/-- Drain complete NDJSON lines from a growing buffer. -/
def drainNdjsonLines (buf : List UInt8) : List (List Char) × List UInt8 :=
  let (lines, rest) := drainLinesLoop (buf.length + 1) buf
  (lines.filterMap (fun line => messageLine (fromUtf8Lossy line)), rest)

namespace Decoder

/-- Test dialect: raw text, as far as it is valid. -/
def ingestTestText (d : Decoder) : Decoded :=
  let (valid, rest) := splitValid d.frameBuf
  if valid = [] ∧ rest ≠ [] then (.ok [], d)
  else
    (.ok [.fragment (.textDelta .publicResponse (String.ofList valid))], { d with frameBuf := rest })

section Chunk

variable (serde : SerdeJson) (limits : InterpretationLimits)

def ingestAcp (d : Decoder) : Decoded :=
  if limits.maxFrameBytes < d.frameBuf.length then
    (.error (.limit "frame buffer limit exceeded"), d)
  else
    match drainJsonValues serde.fromSlice d.frameBuf with
    | (.error e, left) => (.error (.malformedFrame e), { d with frameBuf := left })
    | (.ok values, left) =>
        (.ok (values.flatMap fun value => frameOps (AcpDialect.mapMessage serde value)),
          { d with frameBuf := left })

/-- The newline-delimited dialects, by the mapping of a line. -/
def ingestLines (mapLine : List Char → List AcpFragment) (d : Decoder) : Decoded :=
  if limits.maxFrameBytes < d.frameBuf.length then
    (.error (.limit "frame buffer limit exceeded"), d)
  else
    let (lines, left) := drainNdjsonLines d.frameBuf
    (.ok (lines.flatMap fun line => frameOps (mapLine line)), { d with frameBuf := left })

def ingestZaiCli : Decoder → Decoded := ingestLines limits (ZaiChat.mapChatMessageLine serde)

def ingestClaudeCode : Decoder → Decoded := ingestLines limits (ClaudeStream.mapStreamLine serde)

variable (callOrder : HashMap.IterOrder CallIndex)

/-- Server-sent events: the assembler keeps its own line, the buffer is emptied.
An error ends the run, and the assembler is not looked at again. -/
def ingestOpenAiChat (d : Decoder) : Decoded :=
  let chunk := d.frameBuf
  let d := { d with frameBuf := [] }
  if limits.maxUndecodedBytes < chunk.length then
    (.error (.limit "undecoded buffer limit exceeded"), d)
  else
    match d.openai.pushBytes serde callOrder chunk with
    | .error e => (.error e, d)
    | .ok (openai, frags) => (.ok (frags.flatMap fun frag => frameOps [frag]), { d with openai })

def ingestChunk (family : DialectFamily) (d : Decoder) (chunk : List UInt8) : Decoded :=
  if limits.maxUndecodedBytes < d.frameBuf.length + chunk.length then
    (.error (.limit "undecoded buffer limit exceeded"), d)
  else
    let d := { d with frameBuf := d.frameBuf ++ chunk }
    match family with
    | .test => ingestTestText d
    | .acp | .grokBuild | .cursorAcp | .agyAcp | .codexAcp => ingestAcp serde limits d
    | .zaiCli => ingestZaiCli serde limits d
    | .claudeCode => ingestClaudeCode serde limits d
    | .openAiChatCompletions => ingestOpenAiChat serde limits callOrder d
    | _ => (.error ⟨.unsupportedDialect, "dialect"⟩, d)

/-- The fragments of a clean end, which the assembler of server-sent events may
refuse. -/
def sealOps (family : DialectFamily) (d : Decoder) : Decoded :=
  match family with
  | .openAiChatCompletions =>
      match d.openai.sealClean serde callOrder with
      | .error e => (.error e, d)
      | .ok (openai, frags) => (.ok (frags.map .fragment), { d with openai })
  | _ => (.ok [], d)

end Chunk

end Decoder

/-! ## The run -/

/-- The end that an error in a chunk makes. -/
def ingestEndKind : InterpreterErrorKind → InterpretationEndKind
  | .cancelled => .cancelled
  | .frameLimitExceeded | .sentenceLimitExceeded | .structureLimitExceeded
  | .toolLimitExceeded => .limitExceeded
  | _ => .dialectFailed

/-- The end that an error at the clean end makes. -/
def sealEndKind : InterpreterErrorKind → InterpretationEndKind
  | .cancelled => .cancelled
  | .frameLimitExceeded | .sentenceLimitExceeded | .structureLimitExceeded
  | .toolLimitExceeded => .limitExceeded
  | _ => .transportFailed

namespace Owner

section Run

variable (serde : SerdeJson) (orders : Iteration) (room : Option Nat) (request : StartInterpretation)

def new : Owner where
  decoder :=
    { openai := .new (min request.limits.maxFrameBytes (64 * 1024)) request.limits.maxFrameBytes
        request.limits.maxBytesPerToolAction }

def applyOp : EngineOp → Assembling
  | .startResponse => startResponse room
  | .fragment frag => onFragment room request.limits orders.channels frag

/-- A method of the assembly, called on the owner. -/
def assemble (o : Owner) (method : Assembling) : Except InterpreterError Unit × Owner :=
  let (result, assembly) := call method o.assembly
  (result, { o with assembly })

def ingestBytes (o : Owner) (chunk : List UInt8) : Except InterpreterError Unit × Owner :=
  match o.decoder.ingestChunk serde request.limits orders.calls request.family chunk with
  | (.error e, decoder) => (.error e, { o with decoder })
  | (.ok ops, decoder) => { o with decoder }.assemble (forEach (applyOp orders room request) ops)

/-- The last fragments, then what the channels still hold. -/
def sealAll (ops : List EngineOp) : Assembling := do
  forEach (applyOp orders room request) ops
  sealTextChannels room orders.channels

def sealClean (o : Owner) : Except InterpreterError Unit × Owner :=
  match o.decoder.sealOps serde orders.calls request.family with
  | (.error e, decoder) => (.error e, { o with decoder })
  | (.ok ops, decoder) =>
      { o with decoder }.assemble (sealAll orders room request ops)

/-- Unresolved text and the bytes of the frame buffer are counted; open tools are
told incomplete. -/
def quarantine (frameBytes : Nat) : Assembling := do
  let a ← get
  forEach takeUnresolved (orders.channels.keys a.channels)
  modify fun a => { a with unresolvedBytesAtEnd := a.unresolvedBytesAtEnd + frameBytes }
  let a ← get
  forEach (quarantineTool room) (orders.tools.keys a.tools)

/-- Nothing incomplete is promoted. -/
def quarantinePartials (o : Owner) : Except InterpreterError Unit × Owner :=
  { o with decoder := { o.decoder with frameBuf := [] } }.assemble
    (quarantine orders room o.decoder.frameBuf.length)

/-- Text still buffered in the channels. -/
def bufferedBytes (a : Assembly) : Nat :=
  (a.channels.keys.map fun channel =>
    ((a.channels.lookup channel).map SentenceSegmenter.bufferedBytes).getD 0).foldr (· + ·) 0

/-- The one terminal report, published and sent to the completion handle. -/
def finish (o : Owner) (kind : InterpretationEndKind) : Owner :=
  if o.ended then o
  else
    let report : InterpretationEnd :=
      { kind
        canonicalEventCount := o.assembly.published.length
        completedSentenceCount := o.assembly.sentenceCount
        unresolvedTextBytes := o.assembly.unresolvedBytesAtEnd + bufferedBytes o.assembly +
          o.decoder.frameBuf.length
        sourceBytesConsumed := o.sourceBytes
        safeDiagnostics := o.assembly.diagnostics }
    { (o.assemble (publish room (.ended report))).2 with
      ended := true, completion := some report }

def quarantineAndFinish (o : Owner) (kind : InterpretationEndKind) : Owner :=
  (quarantinePartials orders room o).2.finish room kind

def run (o : Owner) : List InputCmd → Owner
  | [] =>
      -- the input was dropped without an end
      o.quarantineAndFinish orders room .transportFailed
  | .bytes chunk :: cmds =>
      match ingestBytes serde orders room request
        { o with sourceBytes := o.sourceBytes + chunk.length } chunk with
      | (.ok (), o) => run o cmds
      | (.error e, o) => o.finish room (ingestEndKind e.kind)
  | .finishClean :: _ =>
      match o.sealClean serde orders room request with
      | (.ok (), o) => o.finish room .complete
      | (.error e, o) => o.quarantineAndFinish orders room (sealEndKind e.kind)
  | .cancel :: _ => o.quarantineAndFinish orders room .cancelled
  | .transportFailed :: _ => o.quarantineAndFinish orders room .transportFailed

end Run

end Owner

end Monoloop.Interpreter
