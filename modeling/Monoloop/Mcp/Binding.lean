import Mathlib.Data.List.DropRight
import Mathlib.Data.String.Basic
import Mathlib.Tactic.IntervalCases
import Monoloop.Lib.HashMap
import Monoloop.Contracts.Transaction

/-!
# The MCP route table

`mcp/binding.rs`: capability tokens map to transaction bindings. Handlers,
dispatchers and tool projections of a binding are never inspected by the table
and are left out. The token drawn from the system's entropy source is an
argument of `installPending`, `none` when entropy is unavailable.
-/

namespace Monoloop.Mcp

/-- 256-bit unguessable capability token; the all-zero pattern is refused by
the generator. -/
structure CapabilityToken where
  bytes : BitVec 256
  nonzero : bytes ≠ 0
deriving DecidableEq

def hexChar (n : Nat) : Char :=
  if n < 10 then Char.ofNat (48 + n) else if n < 16 then Char.ofNat (87 + n) else '0'

/-- The 64 nibbles of the token, most significant first. -/
def CapabilityToken.nibbles (token : CapabilityToken) : List Nat :=
  (List.range 64).map fun i => (token.bytes.toNat / 16 ^ (63 - i)) % 16

/-- Lowercase hex (64 chars) for URL path segments only. -/
def CapabilityToken.toHex (token : CapabilityToken) : String :=
  String.ofList (token.nibbles.map hexChar)

/-- Maximum capability URL bytes of a server descriptor. -/
def maxUrlBytes : Nat := 512

/-- The URL handed to the session adapter. -/
def capabilityUrl (baseUrl : String) (token : CapabilityToken) : String :=
  String.ofList (baseUrl.toList.rdropWhile (· == '/')) ++ "/mcp/" ++ token.toHex

/-- The gateway's own base URL, `http://` and a loopback socket address: always
far below the descriptor's bound. -/
structure LoopbackUrl where
  text : String
  short : text.utf8ByteSize ≤ 64

theorem utf8Size_hexChar (n : Nat) : (hexChar n).utf8Size = 1 := by
  by_cases hn : n < 16
  · interval_cases n <;> rfl
  · rw [hexChar, if_neg (by omega), if_neg hn]
    rfl

theorem utf8ByteSize_toHex (token : CapabilityToken) : token.toHex.utf8ByteSize = 64 := by
  have hlen : ∀ l : List Nat, String.utf8Len (l.map hexChar) = l.length := by
    intro l
    induction l with
    | nil => rfl
    | cons n l ih => simp [utf8Size_hexChar, ih]
  rw [CapabilityToken.toHex, String.utf8ByteSize_ofList, hlen]
  simp [CapabilityToken.nibbles]

theorem capabilityUrl_fits (url : LoopbackUrl) (token : CapabilityToken) :
    (capabilityUrl url.text token).utf8ByteSize ≤ maxUrlBytes := by
  have htrim : String.utf8Len (url.text.toList.rdropWhile (· == '/')) ≤ 64 := by
    refine le_trans ?_ url.short
    obtain ⟨dropped, hd⟩ := List.rdropWhile_prefix (· == '/') url.text.toList
    have hsplit : url.text.utf8ByteSize = String.utf8Len url.text.toList := by
      rw [← String.utf8ByteSize_ofList, String.ofList_toList]
    rw [hsplit]
    conv_rhs => rw [← hd]
    simp
  have hmcp : ("/mcp/" : String).utf8ByteSize = 5 := by rfl
  simp only [capabilityUrl, String.utf8ByteSize_append, String.utf8ByteSize_ofList,
    utf8ByteSize_toHex, hmcp, maxUrlBytes]
  omega

/-- Lifecycle state of a capability route. -/
inductive McpBindingState where
  | pending
  | active
  | revoked
deriving DecidableEq, Repr

/-- Errors installing or mutating routes. -/
inductive McpInstallError where
  | entropyUnavailable
  | unknownCapability
  | stateConflict
  | capacityExceeded
  | invalidDescriptor
deriving DecidableEq, Repr

/-- One transaction binding (pending or active). -/
structure McpBinding where
  token : CapabilityToken
  transactionId : TransactionId
  state : McpBindingState
deriving DecidableEq

/-- Bounded in-memory capability route table. -/
structure McpRouteTable where
  maxRoutes : Nat
  routes : HashMap CapabilityToken McpBinding

namespace McpRouteTable

def new (maxRoutes : Nat) : McpRouteTable := { maxRoutes := max maxRoutes 1, routes := ∅ }

/-- Number of live (pending or active) routes. -/
def length (t : McpRouteTable) : Nat := t.routes.keys.length

def get (t : McpRouteTable) (token : CapabilityToken) : Option McpBinding :=
  t.routes.lookup token

/-- Install a pending binding. The descriptor is built after the insert, so a
URL it refuses is reported with the route already in the table. -/
def installPending (t : McpRouteTable) (baseUrl : String) (tx : TransactionId) :
    Option CapabilityToken → McpRouteTable × Except McpInstallError CapabilityToken
  | none => (t, .error .entropyUnavailable)
  | some token =>
      if t.maxRoutes ≤ t.length then (t, .error .capacityExceeded)
      else
        let t' := { t with routes := t.routes.insert token ⟨token, tx, .pending⟩ }
        if maxUrlBytes < (capabilityUrl baseUrl token).utf8ByteSize then
          (t', .error .invalidDescriptor)
        else (t', .ok token)

/-- Activate a pending route after the session claim; idempotent. -/
def activate (t : McpRouteTable) (token : CapabilityToken) :
    Except McpInstallError McpRouteTable :=
  match t.get token with
  | none => .error .unknownCapability
  | some binding =>
      match binding.state with
      | .pending =>
          .ok { t with routes := t.routes.insert token { binding with state := .active } }
      | .active => .ok t
      | .revoked => .error .stateConflict

/-- Revoke and remove a route. Idempotent for unknown tokens. -/
def revoke (t : McpRouteTable) (token : CapabilityToken) : McpRouteTable :=
  { t with routes := t.routes.erase token }

/-- Revoke every route (shutdown). -/
def revokeAll (t : McpRouteTable) : McpRouteTable := { t with routes := ∅ }

/-- The transaction a token routes to. -/
def owner (t : McpRouteTable) (token : CapabilityToken) : Option TransactionId :=
  (t.get token).map (·.transactionId)

@[simp] theorem owner_new (n : Nat) (token : CapabilityToken) :
    (new n).owner token = none := rfl

@[simp] theorem owner_revokeAll (t : McpRouteTable) (token : CapabilityToken) :
    t.revokeAll.owner token = none := rfl

theorem owner_revoke (t : McpRouteTable) (token token' : CapabilityToken) :
    (t.revoke token).owner token' = if token' = token then none else t.owner token' := by
  unfold owner get revoke
  rw [HashMap.lookup_erase_ite]
  split <;> rfl

/-- A successful install routes exactly its own token to its transaction. -/
theorem owner_installPending {t t' : McpRouteTable} {url : String} {tx : TransactionId}
    {drawn : Option CapabilityToken} {token : CapabilityToken}
    (h : t.installPending url tx drawn = (t', .ok token)) (token' : CapabilityToken) :
    t'.owner token' = if token' = token then some tx else t.owner token' := by
  unfold installPending at h
  split at h
  · cases h
  · split at h
    · cases h
    · dsimp only at h
      split at h
      · cases h
      · cases h
        unfold owner get
        rw [HashMap.lookup_insert_ite]
        split <;> rfl

/-- Behind a loopback base URL a failed install leaves the table as it was. -/
theorem installPending_error {t t' : McpRouteTable} {url : LoopbackUrl} {tx : TransactionId}
    {drawn : Option CapabilityToken} {e : McpInstallError}
    (h : t.installPending url.text tx drawn = (t', .error e)) : t' = t := by
  unfold installPending at h
  split at h
  · cases h
    rfl
  · rename_i token
    split at h
    · cases h
      rfl
    · have hfits := capabilityUrl_fits url token
      dsimp only at h
      rw [if_neg (by omega)] at h
      cases h

theorem owner_activate {t t' : McpRouteTable} {token : CapabilityToken}
    (h : t.activate token = .ok t') (token' : CapabilityToken) :
    t'.owner token' = t.owner token' := by
  unfold activate at h
  split at h
  · cases h
  · rename_i binding hb
    split at h
    · cases h
      unfold owner get
      rw [HashMap.lookup_insert_ite]
      split
      · rename_i heq
        subst heq
        unfold get at hb
        simp [hb]
      · rfl
    · cases h
      rfl
    · cases h

end McpRouteTable

end Monoloop.Mcp
