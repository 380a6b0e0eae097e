import Monoloop.Contracts.Input
import Monoloop.Contracts.JsonDepth
import Monoloop.ToolDispatch.Permit

/-!
# The output contract of a tool

`validate_tool_completion` of `validation.rs`, with the limits that the dispatcher gives
it. The schema validator is a library: `SchemaValidator` says of a schema and a value
whether `validator_for` accepts the one and the validator the other.

`Accepted` says what may pass, one clause per shape of an output.
-/

namespace Monoloop.Validation

open Interpreter (Json)
open ToolDispatch (ToolRuntimeError)

/-! ## The checks -/

/-- Declared successful tool output shape. A schema is a JSON value. -/
inductive ToolSuccessContract where
  | json (schema : Json)
  | text

/-- Output contract for a registered tool. -/
structure ToolOutputContract where
  success : ToolSuccessContract
  errorDataSchema : Option Json

/-- Handler completion. -/
inductive ToolCompletion where
  | succeeded (output : CanonicalToolOutput Json)
  | domainFailed (error : CanonicalToolError Json)
  | runtimeFailed (error : ToolRuntimeError)

/-- Why output validation failed. -/
inductive OutputValidationFailure where
  | oversizedOutput
  | successShapeMismatch
  | successSchemaInvalid
  | domainErrorInvalid
deriving DecidableEq, Repr

/-- `validator_for` and `is_valid` together. -/
abbrev SchemaValidator := (schema value : Json) → Bool

/-- A value that cannot be written counts as the largest. -/
def encodedLen (serde : SerdeJson Json) (v : Json) : Nat :=
  match serde.render v with
  | some encoded => encoded.utf8ByteSize
  | none => usizeMax

def validateAgainstSchema (validator : SchemaValidator) (value schema : Json)
    (failed : OutputValidationFailure) : Except OutputValidationFailure Unit :=
  if validator schema value then .ok () else .error failed

/-- A control character that is no newline, tab or carriage return. -/
def strictControl (c : Char) : Bool := isControl c && c ≠ '\n' && c ≠ '\t' && c ≠ '\r'

def validateSuccessOutput (serde : SerdeJson Json) (validator : SchemaValidator)
    (maxOutputBytes maxDepth : Nat) :
    CanonicalToolOutput Json → ToolSuccessContract → Except OutputValidationFailure Unit
  | .json v, .json schema =>
      if maxOutputBytes < encodedLen serde v then .error .oversizedOutput
      else if jsonDepthOk v 0 maxDepth = false then .error .successSchemaInvalid
      else validateAgainstSchema validator v schema .successSchemaInvalid
  | .text t, .text =>
      if maxOutputBytes < t.utf8ByteSize then .error .oversizedOutput
      else if t.toList.any strictControl then .error .successShapeMismatch
      else .ok ()
  | _, _ => .error .successShapeMismatch

def validateDomainError (serde : SerdeJson Json) (validator : SchemaValidator)
    (dataSchema : Option Json) (maxOutputBytes maxErrorMessageBytes maxDepth : Nat)
    (err : CanonicalToolError Json) : Except OutputValidationFailure Unit :=
  if err.code.isEmpty || 64 < err.code.utf8ByteSize || err.code.toList.any isControl ||
      err.message.isEmpty || maxErrorMessageBytes < err.message.utf8ByteSize ||
      err.message.toList.any isControl then
    .error .domainErrorInvalid
  else
    match err.data with
    | none => .ok ()
    | some data =>
        if maxOutputBytes < encodedLen serde data then .error .oversizedOutput
        else if jsonDepthOk data 0 maxDepth = false then .error .domainErrorInvalid
        else
          match dataSchema with
          | none => .ok ()
          | some schema => validateAgainstSchema validator data schema .domainErrorInvalid

def validateToolCompletion (serde : SerdeJson Json) (validator : SchemaValidator)
    (completion : ToolCompletion) (contract : ToolOutputContract)
    (maxOutputBytes maxErrorMessageBytes maxDepth : Nat) :
    Except OutputValidationFailure ToolCompletion :=
  match completion with
  | .succeeded output => do
      validateSuccessOutput serde validator maxOutputBytes maxDepth output contract.success
      return .succeeded output
  | .domainFailed err => do
      validateDomainError serde validator contract.errorDataSchema maxOutputBytes
        maxErrorMessageBytes maxDepth err
      return .domainFailed err
  | .runtimeFailed e => .ok (.runtimeFailed e)

/-! ## The limits of the dispatcher -/

/-- `max_error_message_bytes` of a dispatcher. -/
def maxErrorMessageBytes : Nat := 1024

/-- Maximum JSON nesting depth accepted for tool arguments/results. -/
def defaultMaxJsonDepth : Nat := 16

/-- `max_tool_output_bytes` of the default transaction limits. -/
def defaultMaxToolOutputBytes : Nat := 256 * 1024

/-- The bound for a tool whose own is `specBytes`. -/
def outputLimit (specBytes : Nat) : Nat := min specBytes (max defaultMaxToolOutputBytes 1)

theorem outputLimit_le (specBytes : Nat) : outputLimit specBytes ≤ 256 * 1024 :=
  Nat.min_le_right _ _

/-! ## What they accept -/

/-- **The outputs that pass**, by shape. -/
def Accepted (serde : SerdeJson Json) (validator : SchemaValidator) (contract : ToolOutputContract)
    (maxOutputBytes maxErrorBytes maxDepth : Nat) : CanonicalToolResultOutcome Json → Prop
  | .succeeded (.json v) =>
      encodedLen serde v ≤ maxOutputBytes ∧ jsonDepthOk v 0 maxDepth = true ∧
        ∃ schema, contract.success = .json schema ∧ validator schema v = true
  | .succeeded (.text t) =>
      t.utf8ByteSize ≤ maxOutputBytes ∧ (∀ c ∈ t.toList, strictControl c = false) ∧
        contract.success = .text
  | .domainFailed err =>
      (err.code ≠ "" ∧ err.code.utf8ByteSize ≤ 64 ∧ ∀ c ∈ err.code.toList, isControl c = false) ∧
        (err.message ≠ "" ∧ err.message.utf8ByteSize ≤ maxErrorBytes ∧
          ∀ c ∈ err.message.toList, isControl c = false) ∧
        ∀ data ∈ err.data, encodedLen serde data ≤ maxOutputBytes ∧
          jsonDepthOk data 0 maxDepth = true ∧
          ∀ schema ∈ contract.errorDataSchema, validator schema data = true

/-- The completion of a result. -/
def completionOf : CanonicalToolResultOutcome Json → ToolCompletion
  | .succeeded output => .succeeded output
  | .domainFailed error => .domainFailed error

section

variable {serde : SerdeJson Json} {validator : SchemaValidator} {contract : ToolOutputContract}
  {maxOutputBytes maxErrorBytes maxDepth : Nat}

theorem validateAgainstSchema_ok {value schema : Json} {failed : OutputValidationFailure} :
    validateAgainstSchema validator value schema failed = .ok () ↔ validator schema value = true := by
  unfold validateAgainstSchema
  split_ifs with h <;> simp [h]

theorem validateSuccessOutput_ok {output : CanonicalToolOutput Json} :
    validateSuccessOutput serde validator maxOutputBytes maxDepth output contract.success = .ok () ↔
      Accepted serde validator contract maxOutputBytes maxErrorBytes maxDepth (.succeeded output) := by
  cases output with
  | json v =>
      cases hsuccess : contract.success with
      | text => simp [validateSuccessOutput, Accepted, hsuccess]
      | json schema =>
          simp only [validateSuccessOutput, Accepted, hsuccess, ToolSuccessContract.json.injEq,
            exists_eq_left']
          split_ifs with hsize hdepth
          · simp only [false_iff, not_and]
            intro hle
            omega
          · simp [hdepth]
          · rw [validateAgainstSchema_ok]
            rw [Bool.not_eq_false] at hdepth
            simp [Nat.le_of_not_lt hsize, hdepth]
  | text t =>
      cases hsuccess : contract.success with
      | json schema => simp [validateSuccessOutput, Accepted, hsuccess]
      | text =>
          simp only [validateSuccessOutput, Accepted, hsuccess, and_true]
          split_ifs with hsize hcontrol
          · simp only [false_iff, not_and]
            intro hle
            omega
          · simp only [false_iff, not_and]
            intro _ hall
            obtain ⟨c, hc, hcontrol⟩ := List.any_eq_true.mp hcontrol
            rw [hall c hc] at hcontrol
            cases hcontrol
          · rw [Bool.not_eq_true, List.any_eq_false] at hcontrol
            simp only [true_iff]
            exact ⟨Nat.le_of_not_lt hsize, fun c hc => Bool.eq_false_of_not_eq_true (hcontrol c hc)⟩

theorem validateDomainError_ok {err : CanonicalToolError Json} :
    validateDomainError serde validator contract.errorDataSchema maxOutputBytes maxErrorBytes
        maxDepth err = .ok () ↔
      Accepted serde validator contract maxOutputBytes maxErrorBytes maxDepth (.domainFailed err) := by
  obtain ⟨code, message, data⟩ := err
  rw [validateDomainError, Accepted]
  dsimp only
  split_ifs with hbad
  · simp only [false_iff]
    rintro ⟨⟨hcode, hcodeLen, hcodeControl⟩, ⟨hmessage, hmessageLen, hmessageControl⟩, -⟩
    grind [String.isEmpty_iff]
  · have hcode : code ≠ "" ∧ code.utf8ByteSize ≤ 64 ∧ ∀ c ∈ code.toList, isControl c = false := by
      grind [String.isEmpty_iff]
    have hmessage : message ≠ "" ∧ message.utf8ByteSize ≤ maxErrorBytes ∧
        ∀ c ∈ message.toList, isControl c = false := by
      grind [String.isEmpty_iff]
    rw [and_iff_right hcode, and_iff_right hmessage]
    cases data with
    | none => simp
    | some data =>
        simp only [Option.mem_some_iff, forall_eq']
        split_ifs with hsize hdepth
        · simp only [false_iff, not_and]
          intro hle
          omega
        · simp [hdepth]
        · rw [Bool.not_eq_false] at hdepth
          have hle : encodedLen serde data ≤ maxOutputBytes := Nat.le_of_not_lt hsize
          cases contract.errorDataSchema with
          | none => simp [hle, hdepth]
          | some schema => simp [hle, hdepth, validateAgainstSchema_ok]

/-- **A completion passes unchanged, and exactly when it is accepted.** -/
theorem validateToolCompletion_ok {outcome : CanonicalToolResultOutcome Json}
    {completion : ToolCompletion} :
    validateToolCompletion serde validator (completionOf outcome) contract maxOutputBytes
        maxErrorBytes maxDepth = .ok completion ↔
      Accepted serde validator contract maxOutputBytes maxErrorBytes maxDepth outcome ∧
        completion = completionOf outcome := by
  cases outcome with
  | succeeded output =>
      rw [← validateSuccessOutput_ok]
      constructor
      · intro h
        obtain ⟨_, hok, h⟩ := Except.bind_eq_ok.mp h
        cases h
        exact ⟨hok, rfl⟩
      · rintro ⟨hok, rfl⟩
        exact Except.bind_eq_ok.mpr ⟨(), hok, rfl⟩
  | domainFailed err =>
      rw [← validateDomainError_ok]
      constructor
      · intro h
        obtain ⟨_, hok, h⟩ := Except.bind_eq_ok.mp h
        cases h
        exact ⟨hok, rfl⟩
      · rintro ⟨hok, rfl⟩
        exact Except.bind_eq_ok.mpr ⟨(), hok, rfl⟩

end

end Monoloop.Validation
