import Monoloop.Connector.Control
import Monoloop.Interpreter.Fragment

/-!
# JSON-RPC messages of the Grok connector

`jsonrpc.rs` reads a message into a record with the derived reader of serde: a field
may be absent or null, a known field that is there must have its type, unknown fields
are passed over, and a known field must not come twice. An array is read as the fields
in their order.

The JSON reader itself is a parameter. It keeps the entries of the message as they
stand; `mismatch` is what it says of a value that does not have the shape.
-/

namespace Monoloop.Grok

open Connector (ConnectorError)
open Interpreter (Json JsonNumber)

/-- JSON-RPC request id (distinct from Grok's session id). -/
inductive RpcId where
  | number (n : Nat)
  | string (s : String)
deriving DecidableEq, Repr

namespace RpcId

/-- Untagged: the first variant that fits. -/
def ofJson (v : Json) : Option RpcId :=
  match v.asU64 with
  | some n => some (.number n)
  | none => v.asStr.map .string

def toJson : RpcId → Json
  | .number n => .number (.posInt n)
  | .string s => .string s

/-- An id is written back as it was read. -/
theorem toJson_of_ofJson {v : Json} {id : RpcId} (h : ofJson v = some id) : id.toJson = v := by
  unfold ofJson at h
  cases v with
  | number n =>
      cases n with
      | posInt n =>
          by_cases hn : n < 2 ^ 64
          · simp only [Json.asU64, if_pos hn] at h
            cases h
            rfl
          · simp only [Json.asU64, if_neg hn] at h
            cases h
      | negInt n | float text => simp [Json.asU64, Json.asStr] at h
  | string s =>
      simp only [Json.asU64, Json.asStr, Option.map_some] at h
      cases h
      rfl
  | null | bool b | array items | object fields => simp [Json.asU64, Json.asStr] at h

end RpcId

/-- Numbers that fit `i64`. -/
def asI64 : Json → Option Int
  | .number (.posInt n) => if n < 2 ^ 63 then some n else none
  | .number (.negInt i) => if -(2 ^ 63) ≤ i ∧ i < 0 then some i else none
  | _ => none

/-- The entry of a known field; a field that comes twice is an error. -/
def field (key : String) (fields : List (String × Json)) : Option (Option Json) :=
  match fields.filter (·.1 = key) with
  | [] => some none
  | [(_, v)] => some (some v)
  | _ => none

/-- The `i`-th field of a record of `n` fields, read from an object or an array. -/
def column (n i : Nat) (key : String) : Json → Option (Option Json)
  | .object fields => field key fields
  | .array items => if items.length ≤ n then some items[i]? else none
  | _ => none

/-- `#[serde(default)]` on an `Option`: absent and null are `None`. -/
def optional {α : Type} (decode : Json → Option α) : Option Json → Option (Option α)
  | none | some .null => some none
  | some v => (decode v).map some

structure JsonRpcErrorObject where
  code : Int
  message : String
deriving DecidableEq, Repr

def JsonRpcErrorObject.ofJson (v : Json) : Option JsonRpcErrorObject := do
  let code ← (← column 2 0 "code" v).bind asI64
  let message ← (← column 2 1 "message" v).bind Json.asStr
  return ⟨code, message⟩

/-- Inbound JSON-RPC message (response, notification, or server request). -/
structure JsonRpcMessage where
  jsonrpc : Option String
  id : Option RpcId
  method : Option String
  params : Option Json
  result : Option Json
  error : Option JsonRpcErrorObject

namespace JsonRpcMessage

def ofJson (v : Json) : Option JsonRpcMessage := do
  let jsonrpc ← optional Json.asStr (← column 6 0 "jsonrpc" v)
  let id ← optional RpcId.ofJson (← column 6 1 "id" v)
  let method ← optional Json.asStr (← column 6 2 "method" v)
  let params ← optional some (← column 6 3 "params" v)
  let result ← optional some (← column 6 4 "result" v)
  let error ← optional JsonRpcErrorObject.ofJson (← column 6 5 "error" v)
  return ⟨jsonrpc, id, method, params, result, error⟩

/-- Parse from bytes with size bound already enforced by caller. -/
def parse (serde : Interpreter.SerdeJson) (mismatch : Json → String) (bytes : List UInt8) :
    Except ConnectorError JsonRpcMessage :=
  match serde.fromSlice bytes with
  | .error e => .error (.protocol ("invalid json-rpc frame: " ++ e))
  | .ok v =>
      match ofJson v with
      | none => .error (.protocol ("invalid json-rpc frame: " ++ mismatch v))
      | some msg => .ok msg

def isResponse (m : JsonRpcMessage) : Bool := m.id.isSome && m.method.isNone

def isNotificationOrRequest (m : JsonRpcMessage) : Bool := m.method.isSome

end JsonRpcMessage

/-- The session id in the parameters. The pointer `/sessionId` of the source names the
same entry once more. -/
def sessionIdFromParams (params : Option Json) : Option String :=
  params.bind fun params => (params.str? "sessionId").or (params.str? "sessionId")

/-! ## Replies -/

def jsonRpcResult (id : RpcId) (result : Json) : Json :=
  .object [("jsonrpc", .string "2.0"), ("id", id.toJson), ("result", result)]

def jsonRpcError (id : RpcId) (code : Int) (message : String) : Json :=
  .object [("jsonrpc", .string "2.0"), ("id", id.toJson),
    ("error", .object [("code", .number (.negInt code)), ("message", .string message)])]

/-- A JSON-RPC response that carries an id. -/
structure IsResponseTo (v : Json) (id : Json) : Prop where
  id : v.get? "id" = some id
  method : v.get? "method" = none
  outcome : v.get? "result" ≠ none ∨ v.get? "error" ≠ none

theorem jsonRpcResult_isResponse (id : RpcId) (result : Json) :
    IsResponseTo (jsonRpcResult id result) id.toJson := by
  constructor <;> simp [jsonRpcResult, Json.get?, Json.lookup]

theorem jsonRpcError_isResponse (id : RpcId) (code : Int) (message : String) :
    IsResponseTo (jsonRpcError id code message) id.toJson := by
  constructor <;> simp [jsonRpcError, Json.get?, Json.lookup]

/-! ## Requests -/

/-- An object with a method and an id, and no entry twice. -/
def IsRequest (v id : Json) (method : String) : Prop :=
  ∃ fields, v = .object fields ∧ (fields.map (·.1)).Nodup ∧
    Json.lookup "id" fields = some id ∧ Json.lookup "method" fields = some (.string method)

theorem field_eq_lookup {fields : List (String × Json)} (h : (fields.map (·.1)).Nodup)
    (key : String) : field key fields = some (Json.lookup key fields) := by
  have hnone : ∀ {rest : List (String × Json)}, key ∉ rest.map (·.1) →
      rest.filter (·.1 = key) = [] ∧ Json.lookup key rest = none := by
    intro rest hrest
    induction rest with
    | nil => exact ⟨rfl, rfl⟩
    | cons entry rest ih =>
        simp only [List.map_cons, List.mem_cons, not_or] at hrest
        obtain ⟨ih₁, ih₂⟩ := ih hrest.2
        exact ⟨by simp [Ne.symm hrest.1, ih₁], by simp [Json.lookup, Ne.symm hrest.1, ih₂]⟩
  induction fields with
  | nil => rfl
  | cons entry rest ih =>
      obtain ⟨k, v⟩ := entry
      simp only [List.map_cons, List.nodup_cons] at h
      by_cases hk : k = key
      · subst hk
        simp [field, Json.lookup, (hnone h.1).1]
      · have hrest := ih h.2
        unfold field at hrest ⊢
        simpa [Json.lookup, hk] using hrest

end Monoloop.Grok
