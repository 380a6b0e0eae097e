import Monoloop.Contracts.Canonical

/-!
# Dialect fragments

What the dialect decoders hand to the interpreter: text deltas, tool signals,
the end of a response and diagnostics. The dialect's own observations of time
and step travel with a fragment in the source and are attached to the snapshots;
they decide nothing and are left out.

JSON values are those of the JSON reader; reading and writing them is the
reader's business and a parameter (`SerdeJson`).
-/

namespace Monoloop.Interpreter

/-- A JSON number, as far as the decoders look at one. -/
inductive JsonNumber where
  | posInt (n : Nat)
  | negInt (n : Int)
  | float (text : String)
  deriving DecidableEq, Repr

/-- `serde_json::Value`. -/
inductive Json where
  | null
  | bool (b : Bool)
  | number (n : JsonNumber)
  | string (s : String)
  | array (items : List Json)
  | object (fields : List (String × Json))

namespace Json

def lookup (key : String) : List (String × Json) → Option Json
  | [] => none
  | (k, v) :: rest => if k = key then some v else lookup key rest

/-- `Value::get` with a string index. -/
def get? (key : String) : Json → Option Json
  | .object fields => lookup key fields
  | _ => none

def asStr : Json → Option String
  | .string s => some s
  | _ => none

def asBool : Json → Option Bool
  | .bool b => some b
  | _ => none

def asArray : Json → Option (List Json)
  | .array items => some items
  | _ => none

/-- Integers that fit 64 bits are read as such; other numbers are not `u64`. -/
def asU64 : Json → Option Nat
  | .number (.posInt n) => if n < 2 ^ 64 then some n else none
  | _ => none

/-- The string at a key. -/
def str? (key : String) (v : Json) : Option String := (v.get? key).bind asStr

end Json

/-- The JSON reader and writer. -/
structure SerdeJson where
  fromSlice : List UInt8 → Except String Json
  fromStr : String → Option Json
  toString : Json → String

inductive TextChannel where
  | publicResponse
  | publicReasoningSummary
  | statusNarration
  | quotedExternalContent
  deriving DecidableEq, Repr

/-- Tool lifecycle signals. -/
inductive ToolSignal where
  | waiting (toolName : Option String) (waitingFor : String)
  | requestReady (toolName : String) (argumentsJson : String)
  | resolved (success : Bool) (resultJson : Option String)
  deriving DecidableEq, Repr

inductive AcpFragment where
  | textDelta (channel : TextChannel) (text : String)
  | tool (actionId : ToolActionId) (signal : ToolSignal)
  | responseFinished
  | diagnostic (message : String)
  deriving DecidableEq

/-- Interpreter error classification. -/
inductive InterpreterErrorKind where
  | unsupportedDialect
  | dialectBindingMismatch
  | malformedFrame
  | frameLimitExceeded
  | unsupportedSemanticEvent
  | malformedSemanticPayload
  | sentenceLimitExceeded
  | structureLimitExceeded
  | toolIdentityError
  | toolLimitExceeded
  | outputBackpressureExceeded
  | connectorEndedUnexpectedly
  | cancelled
  | invariantViolation
  | configurationInvalid
  deriving DecidableEq, Repr

structure InterpreterError where
  kind : InterpreterErrorKind
  message : String
  deriving DecidableEq, Repr

namespace InterpreterError

def malformedFrame (message : String) : InterpreterError := ⟨.malformedFrame, message⟩

def limit (message : String) : InterpreterError := ⟨.frameLimitExceeded, message⟩

def backpressure : InterpreterError := ⟨.outputBackpressureExceeded, "canonical output queue full"⟩

end InterpreterError

/-- Assembly limits. -/
structure InterpretationLimits where
  maxUndecodedBytes : Nat
  maxFrameBytes : Nat
  maxSentenceAssemblyBytes : Nat
  maxPendingToolActions : Nat
  maxBytesPerToolAction : Nat
  maxSafeDiagnostics : Nat
  deriving DecidableEq, Repr

end Monoloop.Interpreter
