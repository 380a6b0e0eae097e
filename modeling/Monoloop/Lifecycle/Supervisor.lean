import Monoloop.Lib.Transition
import Monoloop.Lifecycle.Runtime

/-!
# The supervisor loop and the runtime as a transition system

`run_supervisor` is executed statement by statement: `agenda` holds the
statements still to run, a nested call pushes its own, and between two of them
any task, host thread or clock tick may move. What the source leaves to its
environment (the iteration order of a hash map, which finished task a join
yields, which ready arm a select takes) is the argument of the step.

The arms of the select are polled one after another while the queues change, so
any ready arm can win despite the bias.
-/

namespace Monoloop.Lifecycle

open Mcp (CapabilityToken)

/-- Arms of the supervisor's select. -/
inductive SelectArm where
  | control
  | worker
  | start
  | heldTick
  | spawn
  | quiesceTick
  | wake
  | join (k : TokioTaskId)
deriving DecidableEq

/-- What the environment decides for one supervisor step. -/
inductive Choice where
  | next
  | order (ids : List TransactionId)
  | joined (k : TokioTaskId)
  | timeout
  | arm (a : SelectArm)
deriving DecidableEq

inductive TransactionSelector where
  | transaction (tx : TransactionId)
  | session (key : SessionKey)
deriving DecidableEq

/-- Everything that can happen in the runtime. -/
inductive Action where
  /-- `submit` up to the reservation. -/
  | reserve (request : TransactionSubmitRequest)
  /-- The locked part of the `n`th pending admission, with its generated id. -/
  | install (n : Nat) (tx : TransactionId)
  | terminate (selector : TransactionSelector) (mode : TerminationMode)
  | beginShutdown
  | dropOwner
  /-- Every control sender is gone. The shared state keeps one, so only the
  code's own handling of the case makes it worth a step. -/
  | closeControl
  /-- The owner joined the executor thread. -/
  | threadJoined
  | tick (elapsed : Nat)
  | holdGates (start control : Bool)
  | ownership (processes tools : Nat)
  | coordinator (id : TaskId) (event : Runtime.CoordinatorEvent)
  | finalizer (id : TaskId) (event : Runtime.FinalizerEvent)
  | complete (id : TaskId)
  | panic (id : TaskId)
  /-- An abort takes effect. -/
  | cancelled (id : TaskId)
  | requestSpawn (id : TaskId) (taskClass : TaskClass)
  | mcpLookup (token : CapabilityToken)
  | mcpSubmit (n : Nat)
  | supervisor (choice : Choice)

namespace Runtime

/-! ## The supervisor loop -/

/-- The statements of one lap. -/
def loopBody : List Work :=
  [.drainWorker, .drainControl, .reap [], .drainSpawn, .checkQuiescing, .markQuiesce,
    .quiesceWork, .checkReady, .select, .loop]

def push (s : Runtime) (work : List Work) : Runtime := { s with agenda := work ++ s.agenda }

def handleControl (s : Runtime) : ControlCommand → Runtime
  | .cancel tx => s.acceptTerminal tx ⟨.cancelled⟩ false .cancel
  | .forceTerminate tx => s.acceptTerminal tx ⟨.terminated⟩ true .force
  | .beginShutdown => s.push [.beginShutdown]
  | .stopSupervisor => s.push [.beginShutdown, .abortAll]

/-- Register a queued spawn request. -/
def registerSpawn (s : Runtime) (taskClass : TaskClass) : Runtime :=
  { s with tasks := s.tasks.spawn taskClass .child }

/-- The first grace after which residual work is aborted for good. -/
def grace (s : Runtime) : Nat := max s.config.cleanupDeadline 2000

def finalReport (s : Runtime) : ShutdownReport :=
  { completionsPublished := s.completionsPublished
    completionsReceiverDropped := s.completionsReceiverDropped
    completionsInvariantFailed := s.completionsInvariantFailed
    runtimeShutdownTerminals := s.runtimeShutdownTerminals }

def selectArm (s : Runtime) : SelectArm → Option Runtime
  | .control =>
      if s.holdControl then none
      else match s.controlQueue with
        | cmd :: rest => some ({ s with controlQueue := rest }.handleControl cmd)
        | [] => if s.controlClosed then some (s.push [.beginShutdown, .abortAll]) else none
  | .worker =>
      match s.workerQueue with
      | [] => none
      | m :: rest =>
          some ({ s with workerQueue := rest }.acceptTerminal m.transactionId m.proposal false
            .worker)
  | .start =>
      if s.holdStart then none
      else match s.startQueue with
        | [] => none
        | tx :: rest =>
            let s := { s with startQueue := rest }
            some (if s.state = .accepting then s.handleStart tx
              else if s.stopping then s.acceptTerminal tx ⟨.runtimeShutdown⟩ false .shutdown
              else s)
  | .heldTick => if s.holdStart || s.holdControl then some s else none
  | .spawn =>
      match s.spawnQueue with
      | [] => none
      | c :: rest => some ({ s with spawnQueue := rest }.registerSpawn c)
  | .quiesceTick => if s.stopping then some s else none
  | .wake => some (if s.state = .quiescing then s.push [.beginShutdown] else s)
  | .join k =>
      match s.tasks.joinNext k with
      | some (tasks, some (_, taskClass, exit)) =>
          some ({ s with tasks }.push [.drainWorker, .taskExits [(taskClass, exit)]])
      | _ => none

/-- Execute one statement, already taken off the agenda. -/
def execute (s : Runtime) : Work → Choice → Option Runtime
  | .loop, .next => some (s.push loopBody)
  | .drainWorker, .next =>
      match s.workerQueue with
      | [] => some s
      | m :: rest =>
          some (({ s with workerQueue := rest }.push [.drainWorker]).acceptTerminal
            m.transactionId m.proposal false .worker)
  | .drainControl, .next =>
      if s.holdControl then some s
      else match s.controlQueue with
        | [] => some s
        | cmd :: rest =>
            some (({ s with controlQueue := rest }.push [.drainControl]).handleControl cmd)
  | .beginShutdown, .order ids =>
      if ids.isPerm s.ledger.transactionIds then
        some (({ s.quiesce with stopping := true }.signalMcpShutdown).push [.shutdownRows ids])
      else none
  | .shutdownRows [], .next => some s
  | .shutdownRows (tx :: ids), .next => some ((s.push [.shutdownRows ids]).shutdownRow tx)
  | .abortAll, .next => some { s with tasks := s.tasks.abortAll }
  | .reap out, .joined k =>
      match s.tasks.joinNext k with
      | some (tasks, some (_, taskClass, exit)) =>
          some ({ s with tasks }.push [.reap (out ++ [(taskClass, exit)])])
      | _ => none
  | .reap out, .next => some (s.push [.taskExits out])
  | .taskExits [], .next => some s
  | .taskExits ((taskClass, exit) :: rest), .next =>
      some ((s.push [.sweep taskClass, .taskExits rest]).recoverExit taskClass exit)
  | .sweep taskClass, .next => some (s.sweepExit taskClass)
  | .drainSpawn, .next =>
      match s.spawnQueue with
      | [] => some { s with ownedTasks := s.tasks.registeredCount }
      | c :: rest => some (({ s with spawnQueue := rest }.push [.drainSpawn]).registerSpawn c)
  | .checkQuiescing, .next =>
      some (if !s.stopping && s.state = .quiescing then s.push [.beginShutdown] else s)
  | .markQuiesce, .next =>
      some (if s.stopping && s.quiesceStarted.isNone then { s with quiesceStarted := some s.now }
        else s)
  | .quiesceWork, .next => if s.stopping then none else some s
  | .quiesceWork, .order ids =>
      if s.stopping && ids.isPerm s.ledger.transactionIds then
        some (s.push [.abortResiduals ids ids, .checkGrace])
      else none
  | .abortResiduals [] all, .next =>
      some (s.push [.removeIdle (all.filter fun tx => (s.tasks.tasksFor tx).isEmpty)])
  | .abortResiduals (tx :: todo) all, .next =>
      some ({ s with tasks := s.tasks.abortTransactionResiduals tx }.push
        [.abortResiduals todo all])
  | .removeIdle [], .next => some s
  | .removeIdle (tx :: ids), .next => some ((s.push [.removeIdle ids]).tryRemoveTombstone tx)
  | .checkGrace, .next =>
      if s.quiesceStarted.any (fun t => t + s.grace ≤ s.now) then none else some s
  | .checkGrace, .order ids =>
      if s.quiesceStarted.any (fun t => t + s.grace ≤ s.now)
          && ids.isPerm s.ledger.transactionIds then
        some (s.push [.hardGrace ids])
      else none
  | .hardGrace [], .next => some s
  | .hardGrace (tx :: ids), .next =>
      let s := { s with tasks := s.tasks.abortTransactionExceptFinalizer tx }.push [.hardGrace ids]
      some (if (s.tasks.tasksFor tx).isEmpty then s.forceRemoveTombstone tx else s)
  | .checkReady, .next =>
      some (if s.stopping && s.ledger.isEmpty then
          s.push [.rejectSpawns, .drainWorker, .confirmReady]
        else s)
  | .rejectSpawns, .next => some { s with spawnQueue := [] }
  | .confirmReady, .next =>
      if s.ledger.isEmpty then
        if s.tasks.isEmpty && s.ownedProcesses = 0 then some { s with agenda := [.publishReport] }
        else some ({ s with tasks := s.tasks.abortAll }.push [.joining])
      else some s
  -- `abort_and_drain`: exits observed here are not reported to anyone
  | .joining, .joined k =>
      match s.tasks.joinNext k with
      | some (tasks, _) => some ({ s with tasks }.push [.joining])
      | none => none
  | .joining, .timeout => some { s with ownedTasks := s.tasks.registeredCount }
  | .joining, .next =>
      if s.tasks.isEmpty then
        some (if s.ledger.isEmpty && s.ownedProcesses = 0 then
            { s with agenda := [.publishReport] }
          else s)
      else none
  | .select, .arm a => s.selectArm a
  | .publishReport, .next =>
      some { s with
        ownedTasks := 0
        shutdownReport := some s.finalReport
        drainComplete := true
        agenda := [] }
  | _, _ => none

def supervise (s : Runtime) (choice : Choice) : Option Runtime :=
  match s.agenda with
  | [] => none
  | work :: rest => { s with agenda := rest }.execute work choice

/-! ## Hosts, tasks and the MCP listener -/

/-- `submit` up to the reservation; a refused request changes nothing. -/
def reserve (s : Runtime) (request : TransactionSubmitRequest) :
    Except AdmissionError Runtime := do
  if s.state ≠ .accepting then .error ⟨.runtimeShuttingDown, "runtime not accepting"⟩
  let deadline ← validateRequest s.config.limits s.config.toolsRegistry
    (s.config.channels.lookup request.channelId) request
  match s.pool.tryReserve request.channelId with
  | none => .error ⟨.capacityExceeded, "capacity exceeded"⟩
  | some pool => pure { s with pool, admitting := s.admitting ++ [⟨request, deadline⟩] }

def queuedEntry (tx : TransactionId) (a : PendingAdmission) : LedgerEntry :=
  { transactionId := tx
    channelId := a.request.channelId
    sessionKey := a.request.sessionId.map (⟨a.request.channelId, ·⟩)
    phase := .queued
    terminal := none
    pendingWorkerProposal := none
    eventSequence := 0
    delivery := some a.request.delivery
    completionTx := none
    publisherCmdTx := false
    publisherSealTx := false
    deadline := a.deadline
    tools := a.request.tools
    reservations := true
    cancelled := false }

/-- How a ledger refusal is reported to the host. -/
def insertErrorKind : LedgerInsertError → AdmissionErrorKind
  | .sessionAlreadyActive => .sessionAlreadyActive
  | .distinctSessionsExceeded | .duplicateTransaction | .unknownTransaction => .capacityExceeded

/-- The locked part of `admit`: the row and its start command, or the error and
a ledger as it was. -/
def admitLocked (s : Runtime) (a : PendingAdmission) (tx : TransactionId) :
    Except AdmissionError Runtime :=
  let entry := queuedEntry tx a
  if s.state ≠ .accepting then .error ⟨.runtimeShuttingDown, "runtime not accepting"⟩
  else if entry.sessionKey.any s.ledger.sessionActive then
    .error ⟨.sessionAlreadyActive, "session already active"⟩
  else
    let max := (s.config.channels.lookup a.request.channelId).map (·.maxDistinctSessions)
    match s.ledger.insertQueued entry max with
    | .error e => .error ⟨insertErrorKind e, "ledger insert failed"⟩
    | .ok ledger =>
        if s.receiversOpen && s.startQueue.length < s.config.startCapacity then
          .ok ({ s with ledger, startQueue := s.startQueue ++ [tx] }.observe (.admitted tx))
        else .error ⟨.spawnFailed, "supervisor start queue full"⟩

/-- Generated ids are UUIDs and never repeat. -/
def freshTransaction (s : Runtime) (tx : TransactionId) : Bool :=
  !s.history.contains (.admitted tx)

/-- A refused admission drops its reservation. -/
def install (s : Runtime) (n : Nat) (tx : TransactionId) : Option Runtime :=
  match s.admitting[n]? with
  | none => none
  | some a =>
      if s.freshTransaction tx then
        let s := { s with admitting := s.admitting.eraseIdx n }
        match s.admitLocked a tx with
        | .ok s' => some s'
        | .error _ => some { s with pool := s.pool.release a.request.channelId }
      else none

def sendControl (s : Runtime) (cmd : ControlCommand) : Runtime :=
  if s.receiversOpen && s.controlQueue.length < s.config.controlCapacity then
    { s with controlQueue := s.controlQueue ++ [cmd] }
  else s

def selected (s : Runtime) : TransactionSelector → Option TransactionId
  | .transaction tx => some tx
  | .session key => s.ledger.transactionForSession key

/-- Request cancellation or forced termination. -/
def terminate (s : Runtime) (selector : TransactionSelector) (mode : TerminationMode) :
    Runtime × TerminationDisposition :=
  match (s.selected selector).bind fun tx => (s.ledger.get tx).map (tx, ·) with
  | none => (s, .notFound)
  | some (tx, e) =>
      if e.terminal.any (fun t => !(mode = .forceTerminate && t.kind = .cancelled)) then
        (s, .alreadyTerminal)
      else if !s.receiversOpen then (s, .runtimeClosed)
      else if s.config.controlCapacity ≤ s.controlQueue.length then
        (s, .controlCapacityExceeded)
      else
        (s.sendControl (match mode with
          | .cancel => .cancel tx
          | .forceTerminate => .forceTerminate tx), .accepted)

/-- The owner's `begin_shutdown`. -/
def beginShutdown (s : Runtime) : Runtime := s.quiesce.sendControl .beginShutdown

/-- Drop of the owner: hold gates are released, then shutdown and stop are sent. -/
def dropOwner (s : Runtime) : Runtime :=
  let s := { s with holdStart := false, holdControl := false }
  if s.state = .stopped then s else s.beginShutdown.sendControl .stopSupervisor

/-- A task of the transaction asks for a child; a full mailbox returns the
future to the caller. -/
def requestSpawn (s : Runtime) (taskClass : TaskClass) : Runtime :=
  if s.receiversOpen && s.spawnQueue.length < s.config.spawnCapacity then
    { s with spawnQueue := s.spawnQueue ++ [taskClass] }
  else s

/-- A plain task returns. The MCP listener revokes every route on its way out. -/
def complete (s : Runtime) (id : TaskId) : TaskBody → Option Runtime
  | .eventPublisher | .child => some { s with tasks := s.tasks.finish id .completed }
  | .service =>
      some { s with
        tasks := s.tasks.finish id .completed
        routes := s.routes.revokeAll
        mcpGateway := false }
  | .coordinator _ _ | .finalizer _ => none

/-- Tasks that run code able to panic. After `returned` a coordinator runs none;
a finalizer runs none either, its seal deadline being representable. -/
def canPanic : TaskBody → Bool
  | .coordinator _ pc => pc.awaits
  | .finalizer _ => false
  | .eventPublisher | .child | .service => true

/-- A registered task that is not finished. -/
def running (s : Runtime) (id : TaskId) : Option (Task TaskBody × TaskBody) :=
  match s.tasks.task? id with
  | some k =>
      match k.cell with
      | .running body => some (k, body)
      | .finished _ => none
  | none => none

/-- A task is polled: past an await only when no abort is pending. -/
def polled (s : Runtime) (id : TaskId) : Option (Task TaskBody × TaskBody) :=
  match s.running id with
  | some (k, body) => if k.abortRequested && body.awaits then none else some (k, body)
  | none => none

/-- One step of the runtime. -/
def step : Action → Runtime → Option Runtime
  | .reserve request, s => match s.reserve request with
      | .ok s' => some s'
      | .error _ => some s
  | .install n tx, s => s.install n tx
  | .terminate selector mode, s => some (s.terminate selector mode).1
  | .beginShutdown, s => some s.beginShutdown
  | .dropOwner, s => some s.dropOwner
  | .closeControl, s => some { s with controlClosed := true }
  | .threadJoined, s => if s.drainComplete then some { s with state := .stopped } else none
  | .tick elapsed, s => some { s with now := s.now + elapsed }
  | .holdGates start control, s => some { s with holdStart := start, holdControl := control }
  | .ownership processes tools, s =>
      some { s with ownedProcesses := processes, cooperativeTools := tools }
  | .coordinator id event, s => match s.polled id with
      | some (⟨.transactionCoordinator tx, _, _⟩, .coordinator params pc) =>
          s.stepCoordinator id tx params pc event
      | _ => none
  | .finalizer id event, s => match s.polled id with
      | some (⟨.finalizer tx, _, _⟩, .finalizer pc) => s.stepFinalizer id tx pc event
      | _ => none
  | .complete id, s => match s.polled id with
      | some (_, body) => s.complete id body
      | none => none
  | .panic id, s => match s.polled id with
      | some (_, body) =>
          if canPanic body then some { s with tasks := s.tasks.finish id .panicked } else none
      | none => none
  | .cancelled id, s => match s.running id with
      | some (k, body) =>
          if k.abortRequested && body.awaits then some { s with tasks := s.tasks.cancel id }
          else none
      | none => none
  | .requestSpawn id taskClass, s => match s.polled id with
      | some (k, body) =>
          if taskClass.isChild && taskClass.transactionId = k.taskClass.transactionId
              && body.hasSpawner then
            some (s.requestSpawn taskClass)
          else none
      | none => none
  | .mcpLookup token, s => match s.routes.get token with
      | some binding => some { s with mcpInFlight := s.mcpInFlight ++ [binding.transactionId] }
      | none => none
  | .mcpSubmit n, s => match s.mcpInFlight[n]? with
      | some tx =>
          some ({ s with mcpInFlight := s.mcpInFlight.eraseIdx n }.requestSpawn (.mcpRequest tx))
      | none => none
  | .supervisor choice, s => s.supervise choice

end Runtime

open Transition in
/-- The transaction runtime. -/
def runtime : System Runtime Action where
  init s := ∃ config, s = Runtime.start config
  step := Runtime.step

/-! ## A deployment to replay runs in

One external-agent channel that serves tools through the gateway, and one
request on it. -/

def sampleChannel : ChannelId := ⟨"agent", by decide⟩

def sampleTool : ToolId := ⟨"search", by decide⟩

def sampleTransaction : TransactionId := ⟨1⟩

def sampleConfig : RuntimeConfig where
  channels := (∅ : HashMap ChannelId LiveChannel).insert sampleChannel
    { kind := .externalAgent
      toolMode := .mcpGateway
      mcpConfiguration := .creationOnly
      maxDistinctSessions := 4
      hasSessions := true }
  channelCapacity := (∅ : HashMap ChannelId ChannelSlot).insert sampleChannel ⟨4, 0⟩
  toolsRegistry := [sampleTool]
  limits := ⟨8, 1024, 8, 8, 1024, 8⟩
  maxActiveTransactions := 4
  maxActorCommands := 4
  startQueueCapacity := none
  maxProviderExchanges := 4
  defaultDeadline := 1000
  cleanupDeadline := 1000
  enableMcpListener := true
  mcpBaseUrl := ⟨"http://127.0.0.1:7000/mcp", by decide⟩

def sampleRequest : TransactionSubmitRequest where
  channelId := sampleChannel
  sessionId := none
  messageParts := [1]
  inputBytes := some 10
  tools := [sampleTool]
  delivery := ⟨⟨8, 1024⟩, ⟨true⟩⟩
  effectiveDeadline := .ok none

/-- `n` statements of the supervisor without a choice. -/
def supervisorRuns (n : Nat) : List Action := List.replicate n (.supervisor .next)

/-- Admit the sample request and start it: the publisher is task 1, the
coordinator task 2. -/
def sampleStart : List Action :=
  [.reserve sampleRequest, .install 0 sampleTransaction] ++ supervisorRuns 10 ++
    [.supervisor (.arm .start)]

theorem sample_init : runtime.init (Runtime.start sampleConfig) := ⟨sampleConfig, rfl⟩

end Monoloop.Lifecycle
