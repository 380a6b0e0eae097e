import Monoloop.Grok.Inbound
import Monoloop.Lib.Transition

/-!
# The table of pending calls

`rpc_call` tests the size of `pending` in one critical section, registers its waiter in
a second and gives the entry back when its timer expires. `handle_inbound` takes an entry
out for the response that carries its id, `fail_all_pending` takes all.

A step is one critical section or one other effect of a call, so any number of calls
interleave with each other and with the connection's task. A call may be dropped where
it awaits. Request ids are natural numbers: the counter does not come round.
-/

namespace Monoloop.Grok

open Connector (ConnectorError)
open Interpreter (Json)
open Transition (System)

/-- An outbound request as JSON. -/
def requestJson (id : Nat) (method : String) (params : Option Json) : Json :=
  .object ([("jsonrpc", .string "2.0"), ("id", (RpcId.number id).toJson),
    ("method", .string method)] ++ (params.map fun params => ("params", params)).toList)

/-- The next effect of a call. -/
inductive RpcPc where
  | checkClosed
  | testCapacity
  | fetchId
  | insert
  /-- `to_bytes` -/
  | serialize
  | send
  /-- `timeout(deadline, rx)` -/
  | await
  /-- The timer fired: take the entry out. -/
  | expired
  | returned (result : Except ConnectorError Json)
  | aborted

/-- The receiving end of a call's `oneshot`. -/
inductive Inbox where
  | waiting
  | delivered (reply : Except ConnectorError Json)
  /-- The sender was dropped. -/
  | dropped

structure RpcCall where
  method : String
  params : Option Json
  pc : RpcPc
  id : Option Nat
  inbox : Inbox

namespace RpcCall

def new (method : String) (params : Option Json) : RpcCall :=
  ⟨method, params, .checkClosed, none, .waiting⟩

def goto (k : RpcCall) (pc : RpcPc) : RpcCall := { k with pc }

def fail (k : RpcCall) (e : ConnectorError) : RpcCall := k.goto (.returned (.error e))

/-- What the sender does to the call. -/
def put (k : RpcCall) (inbox : Inbox) : RpcCall :=
  match k.inbox with
  | .waiting => { k with inbox }
  | _ => k

/-- Where a call can be dropped: at its awaits. -/
def canAbort (k : RpcCall) : Bool :=
  match k.pc with
  | .checkClosed | .testCapacity | .insert | .send | .await | .expired => true
  | .fetchId | .serialize | .returned _ | .aborted => false

/-- The call is between registration and completion. -/
def Registered (k : RpcCall) : Prop :=
  match k.pc, k.inbox with
  | .serialize, .waiting | .send, .waiting | .await, .waiting | .expired, .waiting => True
  | _, _ => False

instance (k : RpcCall) : Decidable k.Registered := by
  unfold Registered
  split <;> infer_instance

end RpcCall

/-- The server with its callers. `resolved` records which call a response went to. -/
structure RpcState where
  server : ServerInner
  nextId : Nat
  closed : Bool
  cancelled : Bool
  reading : Bool
  calls : List RpcCall
  resolved : List (Nat × Nat)

inductive RpcAction where
  | call (method : String) (params : Option Json)
  | operate (n : Nat)
  /-- The deadline of a call passes. -/
  | expire (n : Nat)
  /-- A call is dropped or its task aborted. -/
  | abort (n : Nat)
  /-- The connection's task reads a message. -/
  | inbound (bytes : List UInt8)
  | failAllPending (e : ConnectorError)
  | close
  | cancel
  /-- The connection's task drops its end of the write path. -/
  | closeWrite

/-- The entry that a message takes out of the table. -/
def taken (host : Host) (s : ServerInner) (bytes : List UInt8) : Option (Nat × Nat) :=
  match JsonRpcMessage.parse host.serde host.mismatch bytes with
  | .error _ => none
  | .ok msg =>
      if msg.isResponse then
        match msg.id.map responseId with
        | some (.ok idNum) => (s.pending.lookup idNum).map fun waiter => (idNum, waiter)
        | _ => none
      else none

namespace RpcState

/-- Hand something to a waiting call. -/
def deliver (calls : List RpcCall) (n : Nat) (inbox : Inbox) : List RpcCall :=
  calls.modify n (·.put inbox)

/-- One effect of a call. -/
def operate (s : RpcState) (serde : Interpreter.SerdeJson) (n : Nat) (k : RpcCall) : Option RpcState :=
  let limits := s.server.limits
  match k.pc with
  | .checkClosed =>
      let k := if s.closed || s.cancelled then k.fail .cancelled else k.goto .testCapacity
      some { s with calls := s.calls.set n k }
  | .testCapacity =>
      let k :=
        if limits.maxPendingRpc ≤ s.server.pending.keys.length then
          k.fail (.resource "max_pending_rpc exceeded")
        else k.goto .fetchId
      some { s with calls := s.calls.set n k }
  | .fetchId =>
      some { s with
        nextId := s.nextId + 1
        calls := s.calls.set n { k with pc := .insert, id := some s.nextId } }
  | .insert =>
      k.id.map fun id => { s with
        server := { s.server with pending := s.server.pending.insert id n }
        calls := s.calls.set n (k.goto .serialize) }
  | .serialize =>
      k.id.map fun id =>
        let size := (serde.toString (requestJson id k.method k.params)).utf8ByteSize
        let k :=
          if limits.maxMessageBytes < size then
            k.fail (.resource "json-rpc request exceeds max_message_bytes")
          else k.goto .send
        { s with calls := s.calls.set n k }
  | .send =>
      k.id.map fun id =>
        if s.server.writeOpen then
          { s with
            server := { s.server with
              written := s.server.written ++ [requestJson id k.method k.params] }
            calls := s.calls.set n (k.goto .await) }
        else
          { s with calls := s.calls.set n (k.fail (.connectionFailed "write path closed")) }
  | .await =>
      match k.inbox with
      | .waiting => none
      | .delivered reply => some { s with calls := s.calls.set n (k.goto (.returned reply)) }
      | .dropped =>
          some { s with calls := s.calls.set n (k.fail (.connectionFailed "rpc waiter dropped")) }
  | .expired =>
      k.id.map fun id => { s with
        server := { s.server with pending := s.server.pending.erase id }
        calls := s.calls.set n
          (k.fail (.new .deadlineExceeded "rpc request deadline exceeded")) }
  | .returned _ | .aborted => none

/-- A message is handled: a response takes its entry out and its waiter gets the reply,
or, when the handler panics on it, loses its sender. -/
def inbound (s : RpcState) (host : Host) (bytes : List UInt8) : RpcState :=
  match handleInbound host s.server bytes with
  | .ok (server, _) =>
      let fresh := server.replies.drop s.server.replies.length
      { s with
        server
        calls := fresh.foldl (fun calls r => deliver calls r.1 (.delivered r.2)) s.calls
        resolved := s.resolved ++ (taken host s.server bytes).toList }
  | .error _ =>
      match taken host s.server bytes with
      | none => { s with server := { s.server with writeOpen := false }, reading := false }
      | some (id, n) =>
          { s with
            server := { s.server with pending := s.server.pending.erase id, writeOpen := false }
            reading := false
            calls := deliver s.calls n .dropped }

def step (host : Host) (s : RpcState) : RpcAction → Option RpcState
  | .call method params => some { s with calls := s.calls ++ [.new method params] }
  | .operate n => s.calls[n]?.bind (s.operate host.serde n)
  | .expire n =>
      s.calls[n]?.bind fun k =>
        match k.pc with
        | .await => some { s with calls := s.calls.set n (k.goto .expired) }
        | _ => none
  | .abort n =>
      s.calls[n]?.bind fun k =>
        if k.canAbort then some { s with calls := s.calls.set n (k.goto .aborted) } else none
  | .inbound bytes => if s.reading then some (s.inbound host bytes) else none
  | .failAllPending e =>
      some { s with
        server := { s.server with pending := ∅ }
        calls := (s.server.pending.entries.map (·.2)).foldl
          (fun calls n => deliver calls n (.delivered (.error e))) s.calls }
  | .close => some { s with closed := true }
  | .cancel => some { s with cancelled := true }
  | .closeWrite => some { s with server := { s.server with writeOpen := false } }

def opened (limits : GrokConnectorLimits) : RpcState where
  server := ⟨limits, ∅, ∅, [], [], true, []⟩
  nextId := 1
  closed := false
  cancelled := false
  reading := true
  calls := []
  resolved := []

end RpcState

/-- A connection that has just been opened, with any number of calls to come. -/
def rpcTable (host : Host) : System RpcState RpcAction where
  init s := ∃ limits, s = .opened limits
  step a s := s.step host a

end Monoloop.Grok
