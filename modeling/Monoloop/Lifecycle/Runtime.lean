import Monoloop.Lifecycle.Admission
import Monoloop.Lifecycle.TaskSupervisor
import Monoloop.Mcp.Binding

/-!
# The transaction runtime: state and handlers

`RuntimeShared`, the supervisor's locals and its queues in one record, and the
functions of `supervisor.rs`, `coordinator.rs`, `admission.rs` and `owner.rs`
that change it. A handler of the source is one function here; it runs between
two locks of the ledger, so nothing another thread does can fall inside it.

Tasks run beside the supervisor: the future of a task is its program counter
(`TaskBody`). The executor stops an aborted task only at an await point, so the
counters say which points are awaits.

`history` is not in the source: it records, newest first, what the claims about
runs speak of.
-/

namespace Monoloop.Lifecycle

open Mcp (CapabilityToken McpRouteTable)

/-- Lifecycle state of the runtime. -/
inductive RuntimeState where
  | starting
  | accepting
  | quiescing
  | stopped
deriving DecidableEq, Repr

/-- Control-queue commands. -/
inductive ControlCommand where
  | cancel (tx : TransactionId)
  | forceTerminate (tx : TransactionId)
  | beginShutdown
  | stopSupervisor
deriving DecidableEq

/-- `WorkerMessage::WorkerExited`. -/
structure WorkerExited where
  transactionId : TransactionId
  proposal : TerminalProposal
deriving DecidableEq

/-! ## Tasks -/

/-- Inputs of one coordinator run that its control flow reads; its transaction
is that of the task's class. `mcpGateway` is the presence of the gateway handle
captured at start. -/
structure CoordinatorParams where
  channelId : ChannelId
  deadline : Nat
  selectedTools : List ToolId
  mcpGateway : Bool
deriving DecidableEq

/-- The prompt gate that runs joined with an external agent's exchange. -/
inductive GatePc where
  | opening
  | establishing (external : ExternalSessionId)
  | done (external : Option ExternalSessionId) (established : Bool)
deriving DecidableEq

/-- Where a coordinator stands. The first five are await points (`entry` is a
task that was never polled); after `returned` there is none. -/
inductive CoordinatorPc where
  | entry
  | attaching (mcpToken : Option CapabilityToken)
  | exchanging (mcpToken : Option CapabilityToken) (gate : GatePc)
  | direct
  | finishing (mcpToken : Option CapabilityToken)
  | returned (proposal : TerminalProposal)
  | parked (proposal : TerminalProposal)
deriving DecidableEq

/-- What the finalizer takes from the row before it seals. -/
structure FinalizerSnapshot where
  channelId : ChannelId
  sessionId : Option SessionId
  kind : TransactionEndKind
  completionTx : Option TransactionCompletionSender
deriving DecidableEq

/-- Where a finalizer stands: at its initial yield, waiting for the seal reply,
or past its last await. -/
inductive FinalizerPc where
  | spawned (sealTx : Bool)
  | awaitingReply (snapshot : FinalizerSnapshot)
  | replied (snapshot : FinalizerSnapshot) (delivery : TerminalEventDelivery) (lastSeq : Nat)
  | publishing (snapshot : FinalizerSnapshot) (delivery : TerminalEventDelivery) (lastSeq : Nat)
deriving DecidableEq

/-- Futures of registered tasks. `child` is any exchange, interpreter, tool,
loop or MCP request task; `service` is the MCP listener. -/
inductive TaskBody where
  | coordinator (params : CoordinatorParams) (pc : CoordinatorPc)
  | finalizer (pc : FinalizerPc)
  | eventPublisher
  | child
  | service
deriving DecidableEq

/-- The MCP token a coordinator would revoke on its own way out. -/
def CoordinatorPc.token : CoordinatorPc → Option CapabilityToken
  | .attaching t | .exchanging t _ | .finishing t => t
  | .entry | .direct | .returned _ | .parked _ => none

def CoordinatorPc.awaits : CoordinatorPc → Bool
  | .returned _ | .parked _ => false
  | _ => true

def FinalizerPc.awaits : FinalizerPc → Bool
  | .spawned _ | .awaitingReply _ => true
  | _ => false

/-- Whether an abort can take effect here. -/
def TaskBody.awaits : TaskBody → Bool
  | .coordinator _ pc => pc.awaits
  | .finalizer pc => pc.awaits
  | .eventPublisher | .child | .service => true

/-- Classes registered through the spawn queue by a transaction's own work. -/
def TaskClass.isChild : TaskClass → Bool
  | .connectorOwner _ _ | .interpreterOwner _ _ | .toolWorker _ _ | .loopRuntime _ => true
  | _ => false

/-- Whether the future holds a spawn proxy: coordinators, and the exchange,
tool and request work below them. -/
def TaskBody.hasSpawner : TaskBody → Bool
  | .coordinator _ pc => pc.awaits
  | .child => true
  | _ => false

/-! ## State -/

/-- A statement of the supervisor loop still to be executed. -/
inductive Work where
  | loop
  | drainWorker
  | drainControl
  | beginShutdown
  | shutdownRows (ids : List TransactionId)
  | abortAll
  | reap (out : List (TaskClass × TaskExit))
  | taskExits (reports : List (TaskClass × TaskExit))
  | sweep (taskClass : TaskClass)
  | drainSpawn
  | checkQuiescing
  | markQuiesce
  | quiesceWork
  | abortResiduals (todo all : List TransactionId)
  | removeIdle (ids : List TransactionId)
  | checkGrace
  | hardGrace (ids : List TransactionId)
  | checkReady
  | rejectSpawns
  | confirmReady
  | joining
  | select
  | publishReport
deriving DecidableEq

/-- Where an accepted terminal came from. -/
inductive TerminalSource where
  | worker
  | taskExit
  | cancel
  | force
  | shutdown
deriving DecidableEq, Repr

/-- Recorded observations. -/
inductive Obs where
  | admitted (tx : TransactionId)
  | proposed (tx : TransactionId) (proposal : TerminalProposal)
  | decided (tx : TransactionId) (source : TerminalSource) (kind : TransactionEndKind)
  | attempted (tx : TransactionId) (completion : TransactionCompletion)
      (result : CompletionPublishResult)
  | removed (tx : TransactionId) (entry : LedgerEntry)
deriving DecidableEq

def Obs.transactionId : Obs → TransactionId
  | .admitted t | .proposed t _ | .decided t _ _ | .attempted t _ _ | .removed t _ => t

/-- Fixed at start. Durations are in milliseconds. -/
structure RuntimeConfig where
  channels : HashMap ChannelId LiveChannel
  channelCapacity : HashMap ChannelId ChannelSlot
  toolsRegistry : List ToolId
  limits : AdmissionLimits
  maxActiveTransactions : Nat
  maxActorCommands : Nat
  startQueueCapacity : Option Nat
  maxProviderExchanges : Nat
  defaultDeadline : Nat
  cleanupDeadline : Nat
  enableMcpListener : Bool
  mcpBaseUrl : Mcp.LoopbackUrl

def RuntimeConfig.startCapacity (c : RuntimeConfig) : Nat :=
  c.startQueueCapacity.getD c.maxActiveTransactions

def RuntimeConfig.controlCapacity (c : RuntimeConfig) : Nat := max c.maxActorCommands 1

def RuntimeConfig.workerCapacity (c : RuntimeConfig) : Nat := c.maxActiveTransactions + 8

def RuntimeConfig.spawnCapacity (c : RuntimeConfig) : Nat := max (c.maxActiveTransactions * 8) 32

/-- Route capacity: scaled by the active bound with a floor of 64. -/
def RuntimeConfig.mcpMaxRoutes (c : RuntimeConfig) : Nat := max (c.maxActiveTransactions * 2) 64

/-- An admission that holds its reservation and waits for the ledger lock. -/
structure PendingAdmission where
  request : TransactionSubmitRequest
  deadline : Option Nat

structure Runtime where
  config : RuntimeConfig
  state : RuntimeState
  ledger : LifecycleLedger
  pool : ReservationPool
  admitting : List PendingAdmission
  startQueue : List TransactionId
  controlQueue : List ControlCommand
  controlClosed : Bool
  workerQueue : List WorkerExited
  spawnQueue : List TaskClass
  tasks : TaskSupervisor TaskBody
  stopping : Bool
  quiesceStarted : Option Nat
  agenda : List Work
  now : Nat
  holdStart : Bool
  holdControl : Bool
  completionsPublished : Nat
  completionsReceiverDropped : Nat
  completionsInvariantFailed : Nat
  runtimeShutdownTerminals : Nat
  ownedTasks : Nat
  ownedProcesses : Nat
  cooperativeTools : Nat
  mcpGateway : Bool
  routes : McpRouteTable
  mcpInFlight : List TransactionId
  shutdownReport : Option ShutdownReport
  drainComplete : Bool
  history : List Obs

namespace Runtime

/-- The runtime as `start` hands it over: accepting, the MCP listener
registered when enabled, the supervisor at its loop head. -/
def start (config : RuntimeConfig) : Runtime where
  config := config
  state := .accepting
  ledger := .new
  pool := .new config.maxActiveTransactions config.channelCapacity
  admitting := []
  startQueue := []
  controlQueue := []
  controlClosed := false
  workerQueue := []
  spawnQueue := []
  tasks := if config.enableMcpListener then TaskSupervisor.new.spawn .runtimeService .service
    else .new
  stopping := false
  quiesceStarted := none
  agenda := [.loop]
  now := 0
  holdStart := false
  holdControl := false
  completionsPublished := 0
  completionsReceiverDropped := 0
  completionsInvariantFailed := 0
  runtimeShutdownTerminals := 0
  ownedTasks := if config.enableMcpListener then 1 else 0
  ownedProcesses := 0
  cooperativeTools := 0
  mcpGateway := config.enableMcpListener
  routes := .new config.mcpMaxRoutes
  mcpInFlight := []
  shutdownReport := none
  drainComplete := false
  history := []

/-- The receivers live as long as the supervisor does. -/
def receiversOpen (s : Runtime) : Bool := !s.agenda.isEmpty

def observe (s : Runtime) (o : Obs) : Runtime := { s with history := o :: s.history }

/-- Drop of a removed row returns its reservations. -/
def dropEntry (s : Runtime) (e : LedgerEntry) : Runtime :=
  if e.reservations then { s with pool := s.pool.release e.channelId } else s

/-! ## Terminal acceptance and removal -/

/-- The row after `accept_terminal`. -/
def decideRow (proposal : TerminalProposal) (forceUpgrade : Bool) (e : LedgerEntry) :
    LedgerEntry :=
  let e := { e with pendingWorkerProposal := none, cancelled := true, publisherSealTx := false }
  match e.terminal with
  | some existing =>
      if forceUpgrade && existing.kind = .cancelled && proposal.kind = .terminated then
        { e with terminal := some ⟨.terminated⟩ }
      else e
  | none => { e with terminal := some ⟨proposal.kind⟩, phase := .finalizing }

/-- Record a terminal proposal on the row. The first decision moves the seal
sender into a newly registered finalizer. -/
def acceptTerminal (s : Runtime) (tx : TransactionId) (proposal : TerminalProposal)
    (forceUpgrade : Bool) (source : TerminalSource) : Runtime :=
  match s.ledger.get tx with
  | none => s
  | some e =>
      let s := { s with ledger := s.ledger.modify tx (decideRow proposal forceUpgrade) }
      if e.terminal.isNone then
        { s with tasks := s.tasks.spawn (.finalizer tx) (.finalizer (.spawned e.publisherSealTx)) }
          |>.observe (.decided tx source proposal.kind)
      else s

/-- `ledger.remove`, with the drop of the entry. -/
def forceRemoveTombstone (s : Runtime) (tx : TransactionId) : Runtime :=
  match s.ledger.get tx with
  | none => s
  | some e =>
      { s with ledger := (s.ledger.remove tx).1 }.dropEntry e |>.observe (.removed tx e)

/-- Clear a row whose completion path has started. -/
def tryRemoveTombstone (s : Runtime) (tx : TransactionId) : Runtime :=
  match s.ledger.get tx with
  | none => s
  | some e =>
      if e.phase = .cleanupPending ∨ e.phase = .finalizing then s.forceRemoveTombstone tx else s

/-! ## Start -/

/-- The longest transaction deadline, one year. -/
def maxTxDeadline : Nat := 365 * 24 * 3600 * 1000

def absoluteDeadline (s : Runtime) (e : LedgerEntry) : Nat :=
  let ceiling := min s.config.defaultDeadline maxTxDeadline
  s.now + min (min (e.deadline.getD ceiling) ceiling) maxTxDeadline

/-- The row after `handle_start`: the completion sender leaves `delivery`, and
both publisher ports are installed. -/
def startRow (delivery : TransactionDelivery) (e : LedgerEntry) : LedgerEntry :=
  { e with
    delivery := none
    completionTx := some delivery.completionTx
    phase := .running
    publisherCmdTx := true
    publisherSealTx := true }

def coordinatorParams (s : Runtime) (e : LedgerEntry) : CoordinatorParams :=
  { channelId := e.channelId
    deadline := s.absoluteDeadline e
    selectedTools := e.tools
    mcpGateway := s.mcpGateway }

/-- Start a queued row: register its event publisher and its coordinator. -/
def handleStart (s : Runtime) (tx : TransactionId) : Runtime :=
  match s.ledger.get tx with
  | none => s
  | some e =>
      if e.phase ≠ .queued then s
      else match e.delivery with
        | none => s
        | some delivery =>
            { s with
              ledger := s.ledger.modify tx (startRow delivery)
              tasks := (s.tasks.spawn (.eventPublisher tx) .eventPublisher).spawn
                (.transactionCoordinator tx) (.coordinator (s.coordinatorParams e) .entry) }

/-! ## Task exits -/

/-- The terminal `on_task_exit` installs when the coordinator left none: the
parked proposal, else one read off the exit. -/
def recoveredProposal (e : LedgerEntry) (exit : TaskExit) (quiescing : Bool) :
    TerminalProposal :=
  match e.pendingWorkerProposal with
  | some p => p
  | none =>
      if exit = .panicked then ⟨.invariantFailed⟩
      else if quiescing then ⟨.runtimeShutdown⟩
      else if e.cancelled || exit = .cancelled then ⟨.cancelled⟩
      else ⟨.invariantFailed⟩

/-- First half of `on_task_exit`: recover a lost `WorkerExited`. -/
def recoverExit (s : Runtime) (taskClass : TaskClass) (exit : TaskExit) : Runtime :=
  match taskClass with
  | .transactionCoordinator tx =>
      match s.ledger.get tx with
      | none => s
      | some e =>
          if e.terminal.isNone then
            s.acceptTerminal tx (recoveredProposal e exit (s.state = .quiescing)) false .taskExit
          else s
  | _ => s

/-- Second half of `on_task_exit`: remove the row once no task of the
transaction is registered, and abort what is left behind a finalizer. -/
def sweepExit (s : Runtime) (taskClass : TaskClass) : Runtime :=
  match taskClass.transactionId with
  | none => s
  | some tx =>
      if (s.tasks.tasksFor tx).isEmpty then s.tryRemoveTombstone tx
      else if taskClass.isFinalizer then { s with tasks := s.tasks.abortTransaction tx }
      else s

/-! ## Shutdown -/

/-- The locked flip of `begin_shutdown_inner` and `begin_shutdown`. -/
def quiesce (s : Runtime) : Runtime :=
  { s with state := match s.state with
      | .accepting | .starting => .quiescing
      | other => other }

/-- Revoke the MCP routes and withdraw the published handle. -/
def signalMcpShutdown (s : Runtime) : Runtime :=
  if s.mcpGateway then { s with routes := s.routes.revokeAll, mcpGateway := false } else s

/-- One iteration of the loop over the shutdown snapshot. -/
def shutdownRow (s : Runtime) (tx : TransactionId) : Runtime :=
  if (s.ledger.get tx).any (·.terminal.isSome) then
    { s with
      ledger := s.ledger.modify tx ({ · with cancelled := true })
      tasks := s.tasks.abortTransactionResiduals tx }
  else
    { s with runtimeShutdownTerminals := s.runtimeShutdownTerminals + 1 }.acceptTerminal
      tx ⟨.runtimeShutdown⟩ false .shutdown

/-! ## The coordinator -/

/-- `execute` returns: the proposal is fixed but nobody else has seen it. -/
def coordinatorReturn (s : Runtime) (id : TaskId) (tx : TransactionId)
    (params : CoordinatorParams) (kind : TransactionEndKind) : Runtime :=
  { s with tasks := s.tasks.advance id (.coordinator params (.returned ⟨kind⟩)) }
    |>.observe (.proposed tx ⟨kind⟩)

def coordinatorGoto (s : Runtime) (id : TaskId) (params : CoordinatorParams)
    (pc : CoordinatorPc) : Runtime :=
  { s with tasks := s.tasks.advance id (.coordinator params pc) }

/-- `revoke_mcp`: the closure every exit of the external-agent branch calls. -/
def revokeMcp (s : Runtime) (token : Option CapabilityToken) : Runtime :=
  match token with
  | none => s
  | some token => { s with routes := s.routes.revoke token }

/-- What happens to a coordinator at one poll. -/
inductive CoordinatorEvent where
  /-- First poll; the drawn token and whether `begin_attach` accepts. -/
  | begin (drawn : Option CapabilityToken) (attachAccepted : Bool)
  | attachCancelled
  | attached (ok : Bool)
  | opened (external : Option ExternalSessionId)
  | establishSent (ok : Bool)
  | exchanged
  | finished (kind : TransactionEndKind)
  | park
  /-- The worker signal is sent, unless the queue is full or closed. -/
  | notify
deriving DecidableEq

/-- The synchronous prologue of `execute`, up to the first await. -/
def coordinatorBegin (s : Runtime) (id : TaskId) (tx : TransactionId)
    (params : CoordinatorParams) (drawn : Option CapabilityToken) (attachAccepted : Bool) : Runtime :=
  match s.config.channels.lookup params.channelId with
  | none => s.coordinatorReturn id tx params .invariantFailed
  | some live =>
      if params.deadline ≤ s.now then s.coordinatorReturn id tx params .deadlineExceeded
      else if s.config.maxProviderExchanges = 0 then s.coordinatorReturn id tx params .limitExceeded
      else match live.kind with
        | .directLlm => s.coordinatorGoto id params .direct
        | .externalAgent =>
            if !live.hasSessions then s.coordinatorReturn id tx params .invariantFailed
            else if live.creationOnlyGateway && !params.selectedTools.isEmpty then
              if !params.mcpGateway then s.coordinatorReturn id tx params .invariantFailed
              else match s.routes.installPending s.config.mcpBaseUrl.text tx drawn with
                | (routes, .error _) =>
                    { s with routes }.coordinatorReturn id tx params .invariantFailed
                | (routes, .ok token) =>
                    if attachAccepted then
                      { s with routes }.coordinatorGoto id params (.attaching (some token))
                    else
                      -- an installed route must not survive a failed attach
                      ({ s with routes }.revokeMcp (some token)).coordinatorReturn id tx params
                        .invariantFailed
            else if attachAccepted then s.coordinatorGoto id params (.attaching none)
            else s.coordinatorReturn id tx params .invariantFailed

/-- Whether the row's sticky cancel is set. -/
def isCancelled (s : Runtime) (tx : TransactionId) : Bool :=
  (s.ledger.get tx).any (·.cancelled)

/-- The prompt gate once the connector reports the opened session. -/
def gateOpened (s : Runtime) (id : TaskId) (tx : TransactionId)
    (params : CoordinatorParams) (token : Option CapabilityToken) (external : Option ExternalSessionId) : Runtime :=
  let close (s : Runtime) := s.coordinatorGoto id params (.exchanging token (.done none false))
  match external with
  | none => close s
  | some ext =>
      if s.isCancelled tx then close s
      else
        let key : SessionKey := ⟨params.channelId, SessionId.fromExternal ext⟩
        let max := (s.config.channels.lookup params.channelId).map (·.maxDistinctSessions)
        match s.ledger.bindSession tx key max with
        | .error _ => close s
        | .ok ledger =>
            { s with ledger }.coordinatorGoto id params (.exchanging token (.establishing ext))

/-- The gate after the establish command was accepted or refused. -/
def gateEstablished (s : Runtime) (id : TaskId) (params : CoordinatorParams)
    (token : Option CapabilityToken) (ext : ExternalSessionId) (ok : Bool) : Runtime :=
  let close (s : Runtime) (external : Option ExternalSessionId) (established : Bool) :=
    s.coordinatorGoto id params (.exchanging token (.done external established))
  if !ok then close s none false
  else match token with
    | none => close s (some ext) true
    | some token =>
        match s.routes.activate token with
        | .error _ => close s (some ext) false
        | .ok routes => close { s with routes } (some ext) true

/-- Park the proposal on the row before the notify. -/
def coordinatorPark (s : Runtime) (id : TaskId) (tx : TransactionId)
    (params : CoordinatorParams) (p : TerminalProposal) : Runtime :=
  let ledger := s.ledger.modify tx ({ · with pendingWorkerProposal := some p })
  { s with ledger }.coordinatorGoto id params (.parked p)

/-- `try_send` of the worker signal, then return. -/
def coordinatorNotify (s : Runtime) (id : TaskId) (tx : TransactionId)
    (p : TerminalProposal) : Runtime :=
  let s := { s with tasks := s.tasks.finish id .completed }
  if s.receiversOpen && s.workerQueue.length < s.config.workerCapacity then
    { s with workerQueue := s.workerQueue ++ [⟨tx, p⟩] }
  else s

/-- One step of a coordinator. The attach select is biased: it yields the
attachment only when the sticky cancel is not set. -/
def stepCoordinator (s : Runtime) (id : TaskId) (tx : TransactionId)
    (params : CoordinatorParams) (pc : CoordinatorPc) (event : CoordinatorEvent) : Option Runtime :=
  match pc, event with
  | .entry, .begin drawn accepted => some (s.coordinatorBegin id tx params drawn accepted)
  | .attaching token, .attachCancelled =>
      if s.isCancelled tx then
        some ((s.revokeMcp token).coordinatorReturn id tx params .cancelled)
      else none
  | .attaching token, .attached ok =>
      if s.isCancelled tx then none
      else if ok then some (s.coordinatorGoto id params (.exchanging token .opening))
      else some ((s.revokeMcp token).coordinatorReturn id tx params .invariantFailed)
  | .exchanging token .opening, .opened external => some (s.gateOpened id tx params token external)
  | .exchanging token (.establishing ext), .establishSent ok =>
      some (s.gateEstablished id params token ext ok)
  | .exchanging token (.done _ _), .exchanged =>
      some (s.coordinatorGoto id params (.finishing token))
  | .direct, .exchanged => some (s.coordinatorGoto id params (.finishing none))
  | .finishing token, .finished kind =>
      some ((s.revokeMcp token).coordinatorReturn id tx params kind)
  | .returned p, .park => some (s.coordinatorPark id tx params p)
  | .parked p, .notify => some (s.coordinatorNotify id tx p)
  | _, _ => none

/-! ## The finalizer -/

/-- Outcome of the finalizer's `try_send` on the seal channel. -/
inductive SealSend where
  | accepted
  | closed
  | full
deriving DecidableEq

inductive FinalizerEvent where
  | resume (send : SealSend)
  /-- The seal reply, or `none` when the wait elapsed or the publisher died. -/
  | reply (result : Option (TerminalEventDelivery × Nat))
  | settle
  | publish (receiverAlive : Bool)
deriving DecidableEq

def snapshotOf (e : LedgerEntry) : FinalizerSnapshot :=
  { channelId := e.channelId
    sessionId := e.sessionKey.map (·.sessionId)
    kind := (e.terminal.map (·.kind)).getD .invariantFailed
    completionTx := e.completionTx.or (e.delivery.map (·.completionTx)) }

/-- The row after the finalizer has taken what it needs. -/
def cleanupRow (e : LedgerEntry) : LedgerEntry :=
  { e with
    delivery := if e.completionTx.isNone then none else e.delivery
    completionTx := none
    phase := .cleanupPending
    publisherCmdTx := false }

/-- A terminal event that never reached the host must not be reported as a
successful end. -/
def downgradedKind (delivery : TerminalEventDelivery) (kind : TransactionEndKind) :
    TransactionEndKind :=
  if (delivery = .limitExceeded ∨ delivery = .deadlineExceeded ∨ delivery = .queueClosed) ∧
      (kind = .completed ∨ kind = .continuationRequired) then .eventDeliveryFailed
  else kind

def finalizerGoto (s : Runtime) (id : TaskId) (pc : FinalizerPc) : Runtime :=
  { s with tasks := s.tasks.advance id (.finalizer pc) }

/-- Take the completion sender and the terminal kind, close ordinary admission
and hand the seal to the publisher. -/
def finalizerResume (s : Runtime) (id : TaskId) (tx : TransactionId) (sealTx : Bool)
    (send : SealSend) : Runtime :=
  match s.ledger.get tx with
  | none => { s with tasks := s.tasks.finish id .completed }
  | some e =>
      let next : FinalizerPc :=
        if sealTx then match send with
          | .accepted => .awaitingReply (snapshotOf e)
          | .closed => .replied (snapshotOf e) .queueClosed 0
          | .full => .replied (snapshotOf e) .deadlineExceeded 0
        else .replied (snapshotOf e) .notAttempted 0
      { s with ledger := s.ledger.modify tx cleanupRow }.finalizerGoto id next

/-- Apply the downgrade, on the row as well. -/
def finalizerSettle (s : Runtime) (id : TaskId) (tx : TransactionId)
    (snapshot : FinalizerSnapshot) (delivery : TerminalEventDelivery) (lastSeq : Nat) : Runtime :=
  let kind := downgradedKind delivery snapshot.kind
  let s := if kind = snapshot.kind then s
    else { s with ledger := s.ledger.modify tx ({ · with terminal := some ⟨kind⟩ }) }
  s.finalizerGoto id (.publishing { snapshot with kind := kind } delivery lastSeq)

/-- The counters after one publication attempt. -/
def countCompletion (s : Runtime) : CompletionPublishResult → Runtime
  | .published => { s with completionsPublished := s.completionsPublished + 1 }
  | .receiverDropped =>
      { s with
        completionsPublished := s.completionsPublished + 1
        completionsReceiverDropped := s.completionsReceiverDropped + 1 }
  | .invariantFailed => { s with completionsInvariantFailed := s.completionsInvariantFailed + 1 }

def completionOf (s : Runtime) (tx : TransactionId) (snapshot : FinalizerSnapshot)
    (delivery : TerminalEventDelivery) (lastSeq : Nat) : TransactionCompletion :=
  buildCompletion (endEvent tx snapshot.channelId snapshot.sessionId snapshot.kind lastSeq)
    delivery (.pending s.ownedTasks s.ownedProcesses s.cooperativeTools)

/-- Build the completion, send it once, and return. A finalizer without a
sender only counts an invariant failure. -/
def finalizerPublish (s : Runtime) (id : TaskId) (tx : TransactionId)
    (snapshot : FinalizerSnapshot) (delivery : TerminalEventDelivery) (lastSeq : Nat)
    (receiverAlive : Bool) : Runtime :=
  let s := { s with
    ledger := s.ledger.modify tx ({ · with eventSequence := lastSeq })
    tasks := s.tasks.finish id .completed }
  match snapshot.completionTx with
  | some sender =>
      let result := sender.send receiverAlive
      (s.countCompletion result).observe
        (.attempted tx (s.completionOf tx snapshot delivery lastSeq) result)
  | none => s.countCompletion .invariantFailed

def stepFinalizer (s : Runtime) (id : TaskId) (tx : TransactionId) (pc : FinalizerPc)
    (event : FinalizerEvent) : Option Runtime :=
  match pc, event with
  | .spawned sealTx, .resume send => some (s.finalizerResume id tx sealTx send)
  | .awaitingReply snapshot, .reply result =>
      let (delivery, lastSeq) := result.getD (.deadlineExceeded, 0)
      some (s.finalizerGoto id (.replied snapshot delivery lastSeq))
  | .replied snapshot delivery lastSeq, .settle =>
      some (s.finalizerSettle id tx snapshot delivery lastSeq)
  | .publishing snapshot delivery lastSeq, .publish alive =>
      some (s.finalizerPublish id tx snapshot delivery lastSeq alive)
  | _, _ => none

end Runtime

end Monoloop.Lifecycle
