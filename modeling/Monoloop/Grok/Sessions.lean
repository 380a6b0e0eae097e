import Monoloop.Grok.Inbound
import Monoloop.Lib.Transition

/-!
# The session map

`server.rs` routes notifications through a map from session ids to attachments behind an
`RwLock`; `session.rs` takes a route out with `try_write`, by the session id alone, when an
attachment finishes. A pending open has an attachment of its own, a placeholder, whose
control handle the caller already holds; the one of a load carries the id that is loaded.

Openers, control calls and the connection's task interleave: a step is one lock
operation, one atomic flag or one effect under the lock. The lock has one reader, the
connection's task, so `holder` says who has it. Nobody waits on the `notify` of a session
and the gauge of active sessions decides nothing; both are left out.
-/

namespace Monoloop.Grok

open Connector (ConnectionEndKind ControlDisposition ControlKind)
open Transition (System)

/-- Who has the lock of the session map. -/
inductive Holder where
  | connection
  | opener (k : Nat)
  | call (i : Nat)
deriving DecidableEq, Repr

/-- A session attachment: live once it was admitted, a placeholder of a pending open
otherwise. `ends` is what went through `end_tx`; `finished` says that a `finish` of it has
returned. -/
structure Attachment where
  sessionId : String
  admitted : Bool
  inner : SessionInner
  cancelled : Bool
  terminated : Bool
  endTx : Bool
  ends : List ConnectionEndKind
  finished : Bool
deriving DecidableEq, Repr

namespace Attachment

def placeholder (sessionId : String) : Attachment :=
  ⟨sessionId, false, ⟨false, false, 0, []⟩, false, false, false, [], false⟩

def live (sessionId : String) : Attachment :=
  ⟨sessionId, true, ⟨false, false, 0, []⟩, false, false, true, [], false⟩

def detached (a : Attachment) : Bool := a.inner.detached

def detach (a : Attachment) : Attachment := { a with inner := { a.inner with detached := true } }

def finish (a : Attachment) : Attachment := { a with finished := true }

/-- `end_tx.take()` and the send. -/
def sendEnd (a : Attachment) (kind : ConnectionEndKind) : Attachment :=
  if a.endTx then { a with endTx := false, ends := a.ends ++ [kind] } else a

end Attachment

/-! ## The parties -/

/-- The next operation of a pending open: the request to the server, then
`admit_session`. -/
inductive OpenerPc where
  | rpc
  /-- `sessions.write().await` -/
  | lock (id : String)
  | enter (id : String)
  | unlock (admitted : Bool)
  | returned (admitted : Bool)
  | aborted
deriving DecidableEq, Repr

/-- `session/new` has no id of its own, `session/load` the one it was given. -/
structure Opener where
  requested : Option String
  pc : OpenerPc
deriving DecidableEq, Repr

/-- The next operation of `cancel` or `terminate`. -/
inductive SessionPc where
  | loadDetached
  | swapFlag
  /-- `terminate` sets the flag of a cancel too. -/
  | storeCancelled
  /-- `finish`: `detached.swap(true)`. -/
  | finish
  | sendEnd
  /-- `detach_session`: `try_write()`. -/
  | tryWrite
  | remove
  | unlock
  | returned (disposition : ControlDisposition)
deriving DecidableEq, Repr

/-- A control call on the attachment its handle was issued for. -/
structure SessionCall where
  kind : ControlKind
  target : Nat
  pc : SessionPc
deriving DecidableEq, Repr

/-- The next operation of the connection's task: a notification, or the end of the
server with `detach_all_sessions`. -/
inductive ConnectionPc where
  | idle
  /-- `sessions.read().await` -/
  | readLock (sid : String) (bytes : List UInt8)
  | lookup (sid : String) (bytes : List UInt8)
  /-- `push_inbound`: the test of `detached`. -/
  | test (sid : String) (n : Nat) (bytes : List UInt8)
  /-- `push_inbound`: `out_tx.send(..).await`, with the map still locked. -/
  | send (sid : String) (n : Nat) (bytes : List UInt8)
  | unlock
  /-- `sessions.write().await` -/
  | endLock (kind : ConnectionEndKind)
  | drain (kind : ConnectionEndKind)
  /-- `finish` of a drained session. -/
  | finish (kind : ConnectionEndKind) (n : Nat)
  | sendEnd (kind : ConnectionEndKind) (n : Nat)
  | tryWrite (kind : ConnectionEndKind) (n : Nat)
  | ended
deriving DecidableEq, Repr

/-- A notification that reached an attachment. -/
structure Delivery where
  named : String
  target : Nat
  /-- A `finish` of the attachment had returned. -/
  finished : Bool
deriving DecidableEq, Repr

structure SessionServer where
  limits : GrokConnectorLimits
  closed : Bool
  map : HashMap String Nat
  holder : Option Holder
  attachments : List Attachment
  openers : List Opener
  calls : List SessionCall
  connection : ConnectionPc
  delivered : List Delivery

inductive SessionAction where
  /-- `begin_session_new` or `begin_session_load`. -/
  | beginOpen (requested : Option String)
  /-- The server answers; the id of a new session is its choice. -/
  | rpcDone (k : Nat) (id : String)
  | rpcFailed (k : Nat)
  | opener (k : Nat)
  | abortOpener (k : Nat)
  /-- A control handle of the attachment is used. -/
  | control (kind : ControlKind) (target : Nat)
  | call (i : Nat)
  | notification (sid : String) (bytes : List UInt8)
  | serverEnd (kind : ConnectionEndKind)
  | connection
  /-- `map.drain()` yields this entry next. -/
  | drain (id : String)
  | abortConnection
  /-- The output handle of an attachment is dropped. -/
  | dropOutput (n : Nat)
  | close
deriving DecidableEq, Repr

namespace ControlKind

def endKind : ControlKind → ConnectionEndKind
  | .cancel => .cancelled
  | .terminate => .terminated

end ControlKind

namespace SessionServer

def update (s : SessionServer) (n : Nat) (f : Attachment → Attachment) : List Attachment :=
  s.attachments.modify n f

/-- One operation of `cancel` or `terminate` on its attachment. -/
def operateCall (s : SessionServer) (i : Nat) (c : SessionCall) (a : Attachment) :
    Option SessionServer :=
  let goto (pc : SessionPc) := s.calls.set i { c with pc }
  match c.pc with
  | .loadDetached =>
      some { s with
        calls := goto (if a.detached then .returned .alreadyTerminal else .swapFlag) }
  | .swapFlag =>
      match c.kind with
      | .cancel =>
          some { s with
            attachments := s.update c.target fun a => { a with cancelled := true }
            calls := goto (if a.cancelled then .returned .alreadyRequested else .finish) }
      | .terminate =>
          some { s with
            attachments := s.update c.target fun a => { a with terminated := true }
            calls := goto (if a.terminated then .returned .alreadyRequested else .storeCancelled) }
  | .storeCancelled =>
      some { s with
        attachments := s.update c.target fun a => { a with cancelled := true }
        calls := goto .finish }
  | .finish =>
      if a.detached then
        some { s with
          attachments := s.update c.target (·.finish)
          calls := goto (.returned .accepted) }
      else
        some { s with
          attachments := s.update c.target (·.detach)
          calls := goto .sendEnd }
  | .sendEnd =>
      some { s with
        attachments := s.update c.target (·.sendEnd (ControlKind.endKind c.kind))
        calls := goto .tryWrite }
  | .tryWrite =>
      match s.holder with
      | none => some { s with holder := some (.call i), calls := goto .remove }
      | some _ =>
          some { s with
            attachments := s.update c.target (·.finish)
            calls := goto (.returned .accepted) }
  | .remove => some { s with map := s.map.erase a.sessionId, calls := goto .unlock }
  | .unlock =>
      some { s with
        holder := none
        attachments := s.update c.target (·.finish)
        calls := goto (.returned .accepted) }
  | .returned _ => none

/-- One operation of a pending open; `none` while it waits for the server or the lock. -/
def operateOpener (s : SessionServer) (k : Nat) (o : Opener) : Option SessionServer :=
  let goto (pc : OpenerPc) := s.openers.set k { o with pc }
  match o.pc with
  | .lock id =>
      match s.holder with
      | none => some { s with holder := some (.opener k), openers := goto (.enter id) }
      | some _ => none
  | .enter id =>
      if s.limits.maxSessions ≤ s.map.keys.length then
        some { s with openers := goto (.unlock false) }
      else
        match s.map.lookup id with
        | some _ => some { s with openers := goto (.unlock false) }
        | none =>
            some { s with
              map := s.map.insert id s.attachments.length
              attachments := s.attachments ++ [.live id]
              openers := goto (.unlock true) }
  | .unlock admitted => some { s with holder := none, openers := goto (.returned admitted) }
  | .rpc | .returned _ | .aborted => none

/-- One operation of the connection's task; `none` while it waits. -/
def operateConnection (s : SessionServer) : Option SessionServer :=
  match s.connection with
  | .readLock sid bytes =>
      match s.holder with
      | none => some { s with holder := some .connection, connection := .lookup sid bytes }
      | some _ => none
  | .lookup sid bytes =>
      match s.map.lookup sid with
      | some n => some { s with connection := .test sid n bytes }
      | none => some { s with connection := .unlock }
  | .test sid n bytes =>
      s.attachments[n]?.map fun a =>
        if a.detached then { s with connection := .unlock }
        else
          { s with
            attachments := s.update n fun a =>
              { a with inner := { a.inner with updatesReceived := a.inner.updatesReceived + 1 } }
            connection := .send sid n bytes }
  | .send sid n bytes =>
      s.attachments[n]?.map fun a =>
        if a.inner.receiverGone then { s with connection := .unlock }
        else
          { s with
            attachments := s.update n fun a =>
              { a with inner := { a.inner with queue := a.inner.queue ++ [bytes] } }
            delivered := s.delivered ++ [⟨sid, n, a.finished⟩]
            connection := .unlock }
  | .unlock => some { s with holder := none, connection := .idle }
  | .endLock kind =>
      match s.holder with
      | none => some { s with holder := some .connection, connection := .drain kind }
      | some _ => none
  | .drain _ =>
      if s.map.keys = [] then some { s with holder := none, connection := .ended } else none
  | .finish kind n =>
      s.attachments[n]?.map fun a =>
        if a.detached then
          { s with attachments := s.update n (·.finish), connection := .drain kind }
        else { s with attachments := s.update n (·.detach), connection := .sendEnd kind n }
  | .sendEnd kind n =>
      some { s with attachments := s.update n (·.sendEnd kind), connection := .tryWrite kind n }
  | .tryWrite kind n =>
      -- the task itself has the lock
      some { s with attachments := s.update n (·.finish), connection := .drain kind }
  | .idle | .ended => none

/-- The connection's task is aborted where it awaits, and gives up a read lock. -/
def abortConnection (s : SessionServer) : Option SessionServer :=
  match s.connection with
  | .idle | .readLock _ _ | .endLock _ => some { s with connection := .ended }
  | .send _ _ _ => some { s with holder := none, connection := .ended }
  | _ => none

def step (s : SessionServer) : SessionAction → Option SessionServer
  | .beginOpen requested =>
      if s.closed then none
      else
        some { s with
          attachments := s.attachments ++ [.placeholder (requested.getD "pending")]
          openers := s.openers ++ [⟨requested, .rpc⟩] }
  | .rpcDone k id =>
      s.openers[k]?.bind fun o =>
        match o.pc with
        | .rpc => some { s with openers := s.openers.set k { o with pc := .lock (o.requested.getD id) } }
        | _ => none
  | .rpcFailed k =>
      s.openers[k]?.bind fun o =>
        match o.pc with
        | .rpc => some { s with openers := s.openers.set k { o with pc := .returned false } }
        | _ => none
  | .opener k => s.openers[k]?.bind (s.operateOpener k)
  | .abortOpener k =>
      s.openers[k]?.bind fun o =>
        match o.pc with
        | .rpc | .lock _ => some { s with openers := s.openers.set k { o with pc := .aborted } }
        | _ => none
  | .control kind target =>
      if target < s.attachments.length then
        some { s with calls := s.calls ++ [⟨kind, target, .loadDetached⟩] }
      else none
  | .call i => s.calls[i]?.bind fun c => s.attachments[c.target]?.bind (s.operateCall i c)
  | .notification sid bytes =>
      match s.connection with
      | .idle => some { s with connection := .readLock sid bytes }
      | _ => none
  | .serverEnd kind =>
      match s.connection with
      | .idle => some { s with connection := .endLock kind }
      | _ => none
  | .connection => s.operateConnection
  | .drain id =>
      match s.connection with
      | .drain kind =>
          (s.map.lookup id).map fun n =>
            { s with map := s.map.erase id, connection := .finish kind n }
      | _ => none
  | .abortConnection => s.abortConnection
  | .dropOutput n =>
      some { s with
        attachments := s.update n fun a => { a with inner := { a.inner with receiverGone := true } } }
  | .close => some { s with closed := true }

def opened (limits : GrokConnectorLimits) : SessionServer :=
  ⟨limits, false, ∅, none, [], [], [], .idle, []⟩

end SessionServer

/-- A connection that has just been opened, without sessions. -/
def sessionMap : System SessionServer SessionAction where
  init s := ∃ limits, s = .opened limits
  step a s := s.step a

end Monoloop.Grok
