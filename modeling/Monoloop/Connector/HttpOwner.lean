import Monoloop.Connector.TerminalRace

/-!
# The streaming HTTP connection

`http.rs` runs one owner task for a connection: it collects the request body until the
input is finished, sends it, and forwards the response body chunk by chunk. Each of its
three waits is a biased `select!` whose first branch is `wait_control`. A consumer reads
the other end of the output channel through `RawOutputHandle::receive`, any number of
calls at once, one holding the lock.

A step is one poll, one atomic load or one statement between two of them. What reqwest
answers is a parameter: no response, or a status with a finite list of chunks followed by
the end of the stream or by an error; when its parts arrive is up to the environment, as
is the passing of time. Sums of buffer lengths stay below the largest `usize`, where
`saturating_add` is addition.
-/

namespace Monoloop.Connector

open Transition (System always)

/-- Bytes of a request or a response body. -/
abbrev Bytes := List UInt8

/-- Message on the raw input pipe. -/
inductive RawInputMessage where
  | bytes (bytes : Bytes)
  | finish
deriving DecidableEq

/-- The limits of a connection. `Duration`s and instants count clock ticks. -/
structure StreamingHttpConfig where
  requestTimeout : Nat
  idleTimeout : Nat
  maxRequestBytes : Nat
  maxResponseBytes : Nat
  maxChunkBytes : Nat
deriving DecidableEq, Repr

/-- What `open_http` reads of the limits of the open request. -/
structure ConnectorLimits where
  connectDeadline : Nat
  maxQueuedOutputBytes : Nat
  maxChunkBytes : Nat
deriving DecidableEq, Repr

/-- The capacity of the output channel, from the output-byte budget. -/
def outCapacity (limits : ConnectorLimits) (config : StreamingHttpConfig) : Nat :=
  let outBuf := max (min limits.maxQueuedOutputBytes config.maxResponseBytes) 1
  max (outBuf / max limits.maxChunkBytes 1) 1

/-- A response as reqwest delivers it. -/
structure Response where
  status : Nat
  chunks : List Bytes
  /-- The stream ends with an error. -/
  failed : Bool
deriving DecidableEq

namespace Response

/-- The entire body. -/
def body (r : Response) : Bytes := r.chunks.flatten

/-- `StatusCode::is_success`. -/
def isSuccess (r : Response) : Bool := 200 ≤ r.status && r.status < 300

end Response

/-! ## The state -/

/-- The `select!`s of the owner; a timer is the instant at which it fires. -/
inductive Select where
  | collect
  | request (timer : Nat)
  | next (timer : Nat)
  | enqueue (chunk : Bytes) (timer : Nat)
deriving DecidableEq

/-- Where the owner goes on when `control_end_kind` finds nothing. -/
inductive AfterControl where
  | request
  | stream
deriving DecidableEq

/-- The next operation of the owner. -/
inductive OwnerPc where
  /-- A `select!` creates its futures. -/
  | enter (select : Select)
  /-- It polls `wait_control`, the `n`-th waiter. -/
  | pollControl (select : Select) (n : Nat)
  /-- It polls its other branches, in order. -/
  | pollBranches (select : Select) (n : Nat)
  /-- It is pending until the task is woken. -/
  | pending (select : Select) (n : Nat)
  /-- `wait_control` returned: `terminate_requested()`. -/
  | interrupted
  /-- `control_end_kind`: `terminate_requested()`, then `cancel_requested()`. -/
  | loadTerminate (after : AfterControl)
  | loadCancel (after : AfterControl)
  /-- The deadline is fixed and the body given to the request. -/
  | startRequest
  | sendBudget
  /-- The head of the response loop. -/
  | testDeadline
  | idleBudget
  | enqueueBudget (chunk : Bytes)
  /-- Inside `ConnectionOwner::finish`. -/
  | finishing
  | returned
deriving DecidableEq

/-- What a branch of a `select!` is ready with. -/
inductive Ready where
  | message (msg : Option RawInputMessage)
  | response (response : Option Response)
  | chunk (chunk : Bytes)
  | streamError
  | streamEnd
  | elapsed
  | sent (ok : Bool)
deriving DecidableEq

/-- What `receive` returns; `none` is the report that the output side closed. -/
abbrev ReceiveResult := Except ConnectorError (Option Bytes)

/-- The next operation of a `receive`. -/
inductive ReceivePc where
  | loadTerminate
  | loadCancel
  /-- `self.rx.lock()` after an interrupt, and the `try_recv` under it. -/
  | lockInterrupted (err : ConnectorError)
  | drain (err : ConnectorError)
  | lock
  /-- The `select!` creates its futures. -/
  | enter
  | pollRecv (n : Nat)
  | pollInterrupt (n : Nat)
  | pending (n : Nat)
  /-- `wait_interrupt` returned: `try_recv`. -/
  | drainSelect
  | reloadTerminate
  | reloadCancel
  /-- `guard.recv().await`. -/
  | recv
  | returned (result : ReceiveResult)
  /-- The caller dropped the future. -/
  | dropped
deriving DecidableEq

namespace ReceivePc

/-- The call is over. -/
def isOver : ReceivePc → Bool
  | returned _ | dropped => true
  | _ => false

/-- The `wait_interrupt` of its `select!`. -/
def waiter : ReceivePc → Option Nat
  | pollRecv n | pollInterrupt n | pending n => some n
  | _ => none

end ReceivePc

/-- One connection. `fed`, `sent`, `received` and `closed` are a record of what happened:
the messages that entered the input channel, the body given to the request, the chunks
consumers received, and whether one was told that the output closed. -/
structure HttpConnection where
  conn : Connection
  now : Nat
  pc : OwnerPc
  inbox : List RawInputMessage
  inputOpen : Bool
  /-- The collected request body. -/
  body : Bytes
  deadline : Nat
  /-- reqwest has an answer. -/
  answered : Bool
  /-- How many items of the response stream have arrived, its end included. -/
  arrived : Nat
  /-- The chunks the owner has not taken. -/
  remaining : List Bytes
  totalResponse : Nat
  queue : List Bytes
  outputOpen : Bool
  receives : List ReceivePc
  /-- The `receive` that holds the lock. -/
  lockedBy : Option Nat
  fed : List RawInputMessage
  sent : Option Bytes
  received : List Bytes
  closed : Bool

inductive HttpAction where
  | owner
  | feed (msg : RawInputMessage)
  | closeInput
  | answer
  | arrive
  | tick (ticks : Nat)
  | request (kind : ControlKind)
  | call (n : Nat)
  | receive
  | consumer (i : Nat)
  | abandon (i : Nat)
  | closeOutput
deriving DecidableEq

namespace HttpConnection

def opened (connectionId : ConnectionId) : HttpConnection where
  conn := .opened connectionId
  now := 0
  pc := .enter .collect
  inbox := []
  inputOpen := true
  body := []
  deadline := 0
  answered := false
  arrived := 0
  remaining := []
  totalResponse := 0
  queue := []
  outputOpen := true
  receives := []
  lockedBy := none
  fed := []
  sent := none
  received := []
  closed := false

/-! ## The owner -/

section Owner

variable (config : StreamingHttpConfig) (limits : ConnectorLimits) (remote : Option Response)

/-- The owner calls `finish`. -/
def ends (s : HttpConnection) (args : FinishArgs) : Option HttpConnection :=
  (s.conn.step (.finish args)).map fun conn => { s with conn, pc := .finishing }

/-- A `TransportFailure` of the local side. -/
def fails (s : HttpConnection) (message : String) : Option HttpConnection :=
  s.ends ⟨.transportFailure, .localTransport, some message⟩

/-- The counters of the owner move. -/
def transfer (s : HttpConnection) (accepted received : Nat) : Option HttpConnection :=
  (s.conn.step (.transfer accepted received)).map fun conn => { s with conn }

/-- A `select!` that took another branch drops `wait_control`. -/
def leave (s : HttpConnection) (n : Nat) : HttpConnection :=
  match s.conn.step (.abandon n) with
  | some conn => { s with conn }
  | none => s

/-- What a poll of the branches after `wait_control` finds ready. `timeout` polls its
future before its timer; the enqueue polls its timer before the send. -/
def poll (s : HttpConnection) : Select → Option Ready
  | .collect =>
      match s.inbox with
      | msg :: _ => some (.message (some msg))
      | [] => if s.inputOpen then none else some (.message none)
  | .request timer =>
      if s.answered then some (.response remote)
      else if timer ≤ s.now then some .elapsed
      else none
  | .next timer =>
      if 0 < s.arrived then
        match s.remaining with
        | chunk :: _ => some (.chunk chunk)
        | [] => if remote.any (·.failed) then some .streamError else some .streamEnd
      else if timer ≤ s.now then some .elapsed
      else none
  | .enqueue _ timer =>
      if timer ≤ s.now then some .elapsed
      else if s.outputOpen = false then some (.sent false)
      else if s.queue.length < outCapacity limits config then some (.sent true)
      else none

/-- `Some(RawInputMessage::Bytes(bytes))`. -/
def acceptBytes (s : HttpConnection) (bytes : Bytes) : Option HttpConnection :=
  if config.maxRequestBytes < s.body.length + bytes.length then
    s.fails "request body exceeds max_request_bytes"
  else (s.transfer bytes.length 0).map fun s =>
    { s with body := s.body ++ bytes, pc := .enter .collect }

/-- `Ok(Some(Ok(chunk)))`. -/
def acceptChunk (s : HttpConnection) (chunk : Bytes) : Option HttpConnection :=
  if chunk.isEmpty then some { s with pc := .testDeadline }
  else if config.maxChunkBytes < chunk.length then
    s.fails "response chunk exceeds max_chunk_bytes"
  else if config.maxResponseBytes < s.totalResponse + chunk.length then
    s.fails "response exceeds max_response_bytes"
  else some { s with
    totalResponse := s.totalResponse + chunk.length, pc := .enqueueBudget chunk }

/-- The arm of the branch that was ready. -/
def handle (s : HttpConnection) : Select → Ready → Option HttpConnection
  | .collect, .message msg =>
      let s := { s with inbox := s.inbox.tail }
      match msg with
      | some (.bytes bytes) => s.acceptBytes config bytes
      | some .finish => some { s with pc := .loadTerminate .request }
      | none => s.ends ⟨.localShutdown, .localTransport, none⟩
  | .request _, .response none => s.fails "http request failed"
  | .request _, .response (some r) =>
      if r.isSuccess then some { s with
        remaining := r.chunks, totalResponse := 0, pc := .testDeadline }
      else s.ends ⟨.transportFailure, .remote, some s!"http status {r.status}"⟩
  | .request _, .elapsed => s.fails "http request deadline exceeded"
  | .next _, .chunk chunk =>
      acceptChunk config
        { s with arrived := s.arrived - 1, remaining := s.remaining.tail } chunk
  | .next _, .streamError => s.fails "response stream error"
  | .next _, .streamEnd => s.ends ⟨.remoteEof, .remote, none⟩
  | .next _, .elapsed => s.fails "http idle timeout"
  | .enqueue _ _, .elapsed =>
      s.fails (if s.deadline ≤ s.now then "http overall response deadline exceeded"
        else "http idle timeout")
  | .enqueue _ _, .sent false => s.fails "output closed"
  | .enqueue chunk _, .sent true => (s.transfer 0 chunk.length).map fun s =>
      { s with queue := s.queue ++ [chunk], pc := .testDeadline }
  -- no branch of that `select!` is ready with this
  | _, _ => none

/-- The end `control_end_kind` and the `wait_control` branches ask for. -/
def controlEnd (kind : ConnectionEndKind) : FinishArgs := ⟨kind, .localControl, none⟩

/-- One operation of `run_http_owner`. -/
def operateOwner (s : HttpConnection) : Option HttpConnection :=
  match s.pc with
  | .enter select =>
      (s.conn.step (.wait .waitControl)).map fun conn =>
        { s with conn, pc := .pollControl select s.conn.waiters.length }
  | .pollControl select n =>
      s.conn.waiters[n]?.bind fun w =>
        if w.pc = .returned then some { s with pc := .interrupted }
        else
          match s.conn.step (.waiter n) with
          | some conn => some { s with conn }
          | none => some { s with pc := .pollBranches select n }
  | .pollBranches select n =>
      match s.poll config limits remote select with
      | some ready => (s.leave n).handle config select ready
      | none => some { s with pc := .pending select n }
  | .pending select n => some { s with pc := .pollControl select n }
  | .interrupted =>
      s.ends (controlEnd (if s.conn.control.terminateRequested then .terminated else .cancelled))
  | .loadTerminate after =>
      if s.conn.control.terminateRequested then s.ends (controlEnd .terminated)
      else some { s with pc := .loadCancel after }
  | .loadCancel after =>
      if s.conn.control.cancelRequested then s.ends (controlEnd .cancelled)
      else some { s with pc :=
        match after with
        | .request => .startRequest
        | .stream => .idleBudget }
  | .startRequest =>
      some { s with
        deadline := s.now + config.requestTimeout, sent := some s.body, pc := .sendBudget }
  | .sendBudget =>
      let budget := min (s.deadline - s.now) limits.connectDeadline
      if budget = 0 then s.fails "http request deadline exceeded"
      else some { s with pc := .enter (.request (s.now + budget)) }
  | .testDeadline =>
      if s.deadline ≤ s.now then s.fails "http overall response deadline exceeded"
      else some { s with pc := .loadTerminate .stream }
  | .idleBudget =>
      some { s with pc := .enter (.next (s.now + min config.idleTimeout (s.deadline - s.now))) }
  | .enqueueBudget chunk =>
      let remaining := s.deadline - s.now
      if remaining = 0 then s.fails "http overall response deadline exceeded"
      else some { s with pc := .enter (.enqueue chunk (s.now + min config.idleTimeout remaining)) }
  | .finishing =>
      match s.conn.owner.finishing with
      | some _ => (s.conn.step .owner).map fun conn => { s with conn }
      | none => some { s with pc := .returned }
  | .returned => none

end Owner

/-! ## The consumers -/

/-- The error of an interrupted `receive`. -/
def interruptError (s : HttpConnection) (err : ConnectorError) : ConnectorError :=
  { err with connectionId := some s.conn.owner.connectionId.value }

/-- The `i`-th `receive` goes on. -/
def goto (s : HttpConnection) (i : Nat) (pc : ReceivePc) : HttpConnection :=
  { s with receives := s.receives.set i pc }

/-- The `i`-th `receive` is over and lets go of the lock. -/
def unlock (s : HttpConnection) (i : Nat) (pc : ReceivePc) : HttpConnection :=
  { s.goto i pc with lockedBy := if s.lockedBy = some i then none else s.lockedBy }

/-- The sender of the output channel lives in the owner. -/
def disconnected (s : HttpConnection) : Bool := s.pc = .returned

/-- `guard.recv()`; `none` while it is pending. -/
def recv (s : HttpConnection) (i : Nat) : Option HttpConnection :=
  match s.queue with
  | chunk :: rest => some { s.unlock i (.returned (.ok (some chunk))) with
      queue := rest, received := s.received ++ [chunk] }
  | [] =>
      if s.disconnected then some { s.unlock i (.returned (.ok none)) with closed := true }
      else none

/-- `guard.try_recv()`: a `recv` that does not wait. -/
def tryRecv (s : HttpConnection) (i : Nat) (empty : HttpConnection) : HttpConnection :=
  (s.recv i).getD empty

/-- One operation of the `i`-th `receive`. -/
def operateReceive (s : HttpConnection) (i : Nat) : ReceivePc → Option HttpConnection
  | .loadTerminate =>
      if s.conn.control.terminateRequested then
        some (s.goto i (.lockInterrupted (s.interruptError .terminated)))
      else some (s.goto i .loadCancel)
  | .loadCancel =>
      if s.conn.control.cancelRequested then
        some (s.goto i (.lockInterrupted (s.interruptError .cancelled)))
      else some (s.goto i .lock)
  | .lockInterrupted err =>
      if s.lockedBy = none then some { s.goto i (.drain err) with lockedBy := some i } else none
  | .drain err => some (s.tryRecv i (s.unlock i (.returned (.error err))))
  | .lock =>
      if s.lockedBy = none then some { s.goto i .enter with lockedBy := some i } else none
  | .enter =>
      (s.conn.step (.wait .waitInterrupt)).map fun conn =>
        { s.goto i (.pollRecv s.conn.waiters.length) with conn }
  | .pollRecv n =>
      match s.recv i with
      | some s' => some (s'.leave n)
      | none => some (s.goto i (.pollInterrupt n))
  | .pollInterrupt n =>
      s.conn.waiters[n]?.bind fun w =>
        if w.pc = .returned then some (s.goto i .drainSelect)
        else
          match s.conn.step (.waiter n) with
          | some conn => some { s with conn }
          | none => some (s.goto i (.pending n))
  | .pending n => some (s.goto i (.pollRecv n))
  | .drainSelect => some (s.tryRecv i (s.goto i .reloadTerminate))
  | .reloadTerminate =>
      if s.conn.control.terminateRequested then
        some (s.unlock i (.returned (.error (s.interruptError .terminated))))
      else some (s.goto i .reloadCancel)
  | .reloadCancel =>
      if s.conn.control.cancelRequested then
        some (s.unlock i (.returned (.error (s.interruptError .cancelled))))
      else some (s.goto i .recv)
  | .recv => s.recv i
  | .returned _ | .dropped => none

/-! ## The system -/

section Step

variable (config : StreamingHttpConfig) (limits : ConnectorLimits) (remote : Option Response)

def step (s : HttpConnection) : HttpAction → Option HttpConnection
  | .owner => s.operateOwner config limits remote
  | .feed msg =>
      if s.inputOpen && s.pc ≠ .returned then
        some { s with inbox := s.inbox ++ [msg], fed := s.fed ++ [msg] }
      else none
  | .closeInput => some { s with inputOpen := false }
  | .answer => some { s with answered := true }
  | .arrive => some { s with arrived := s.arrived + 1 }
  | .tick ticks => some { s with now := s.now + ticks }
  | .request kind => (s.conn.step (.request kind)).map fun conn => { s with conn }
  | .call n => (s.conn.step (.call n)).map fun conn => { s with conn }
  | .receive =>
      if s.outputOpen then some { s with receives := s.receives ++ [.loadTerminate] } else none
  | .consumer i => s.receives[i]?.bind (s.operateReceive i)
  | .abandon i =>
      s.receives[i]?.bind fun pc =>
        if pc.isOver then none
        else
          match pc.waiter with
          | some n => some ((s.unlock i .dropped).leave n)
          | none => some (s.unlock i .dropped)
  -- the handle is borrowed by every `receive`; chunks left in the queue are dropped with it
  | .closeOutput => if s.receives.all (·.isOver) then some { s with outputOpen := false } else none

end Step

end HttpConnection

/-- A connection that `open_http` has just opened, against a remote that answers so. -/
def httpConnection (config : StreamingHttpConfig) (limits : ConnectorLimits)
    (remote : Option Response) : System HttpConnection HttpAction where
  init s := ∃ connectionId, s = .opened connectionId
  step a s := s.step config limits remote a

end Monoloop.Connector
