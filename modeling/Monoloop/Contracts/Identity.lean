import Mathlib.Data.BitVec

/-!
# Correlation identities

The string newtypes of `id.rs` reject empty, oversized and control-character
values in their constructors; here the check is a field, so an invalid identity
cannot be built. UUID identities are 128-bit values.
-/

namespace Monoloop

/-- Maximum bytes for opaque string identities and tool names. -/
def maxIdentityBytes : Nat := 256

/-- Identity construction failure. -/
inductive IdentityError where
  | empty
  | tooLong
  | controlCharacter
deriving DecidableEq, Repr

/-- `char::is_control`: the Unicode general category `Cc`. -/
def isControl (c : Char) : Bool :=
  c.val ≤ 0x1f || (0x7f ≤ c.val && c.val ≤ 0x9f)

/-- Validate a bounded opaque identity string. -/
def validateIdentityString (value : String) : Except IdentityError Unit :=
  if value.isEmpty then .error .empty
  else if maxIdentityBytes < value.utf8ByteSize then .error .tooLong
  else if value.toList.any isControl then .error .controlCharacter
  else .ok ()

/-- What the validating constructors establish. -/
def ValidIdentity (value : String) : Prop :=
  value.isEmpty = false ∧ value.utf8ByteSize ≤ maxIdentityBytes ∧
    value.toList.any isControl = false

instance (value : String) : Decidable (ValidIdentity value) :=
  inferInstanceAs (Decidable (_ ∧ _ ∧ _))

theorem validateIdentityString_ok_iff (value : String) :
    validateIdentityString value = .ok () ↔ ValidIdentity value := by
  unfold validateIdentityString ValidIdentity
  split
  · simp [*]
  · split
    · rename_i hlong
      simp only [reduceCtorEq, false_iff, not_and]
      intro _ hle
      omega
    · split <;> simp_all

/-- Opaque externally owned session identity. -/
structure ExternalSessionId where
  value : String
  valid : ValidIdentity value
deriving DecidableEq

/-- Caller-visible session identity for transaction routing. -/
structure SessionId where
  value : String
  valid : ValidIdentity value
deriving DecidableEq

/-- Channel identity (caller-selected). -/
structure ChannelId where
  value : String
  valid : ValidIdentity value
deriving DecidableEq

/-- Host-registry tool identity. -/
structure ToolId where
  value : String
  valid : ValidIdentity value
deriving DecidableEq

/-- Name exposed to models. -/
structure ToolName where
  value : String
  valid : ValidIdentity value
deriving DecidableEq

structure ConnectionId where
  value : String
  valid : ValidIdentity value
deriving DecidableEq

/-- Run correlation identity. -/
structure MonoloopRunId where
  value : String
  valid : ValidIdentity value
deriving DecidableEq

/-- The shared shape of the fallible constructors. -/
def tryIdentity {α : Type} (build : (value : String) → ValidIdentity value → α)
    (value : String) : Except IdentityError α :=
  match h : validateIdentityString value with
  | .ok () => .ok (build value ((validateIdentityString_ok_iff value).mp h))
  | .error e => .error e

def SessionId.tryNew : String → Except IdentityError SessionId := tryIdentity .mk
def ChannelId.tryNew : String → Except IdentityError ChannelId := tryIdentity .mk

/-- Build from an external session id with identical bytes. -/
def SessionId.fromExternal (id : ExternalSessionId) : SessionId := ⟨id.value, id.valid⟩

/-- Admitted transaction identity: a UUID, never reused. -/
structure TransactionId where
  uuid : BitVec 128
deriving DecidableEq

/-- One provider exchange inside a transaction. -/
structure ExchangeId where
  uuid : BitVec 128
deriving DecidableEq

/-- One tool execution inside a transaction. -/
structure ToolExecutionId where
  value : String
deriving DecidableEq

/-- Session exclusion key: equal session strings on different channels are
distinct keys. -/
structure SessionKey where
  channelId : ChannelId
  sessionId : SessionId
deriving DecidableEq

end Monoloop
