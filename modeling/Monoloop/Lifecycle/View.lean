import Mathlib.Logic.Function.Basic
import Monoloop.Lifecycle.Supervisor

/-!
# One transaction's view of the runtime

Every claim about the runtime is a claim about each single transaction, so the
proofs look at the runtime through `view s tx`: the row, the registered tasks,
the queued worker signals, the exits not yet swept, the routes and the
observations of `tx`. `TxStep` lists what one step of the runtime can do to
that view, guards included, and `step_view` proves the list complete. The
invariants are then case analyses over `TxStep` and never unfold the loop.
-/

namespace Monoloop.Lifecycle

open Mcp (CapabilityToken)

/-- The part of the runtime that belongs to one transaction. -/
@[ext] structure TxView where
  row : Option LedgerEntry
  task : TaskId → Option (Task TaskBody)
  /-- Worker signals in the queue. -/
  mail : List TerminalProposal
  /-- Classes of joined tasks whose exit the supervisor has not finished handling. -/
  exited : List TaskClass
  route : CapabilityToken → Prop
  /-- Observations, newest first. -/
  seen : List Obs

/-- Exits the supervisor still has to handle. -/
def Work.reports : Work → List TaskClass
  | .reap out | .taskExits out => out.map (·.1)
  | .sweep c => [c]
  | _ => []

def exitsOf (agenda : List Work) (tx : TransactionId) : List TaskClass :=
  (agenda.flatMap Work.reports).filter (·.transactionId = some tx)

def mailOf (queue : List WorkerExited) (tx : TransactionId) : List TerminalProposal :=
  (queue.filter (·.transactionId = tx)).map (·.proposal)

def tasksOf (t : TaskSupervisor TaskBody) (tx : TransactionId) (id : TaskId) :
    Option (Task TaskBody) :=
  (t.task? id).filter (·.taskClass.transactionId = some tx)

def historyOf (history : List Obs) (tx : TransactionId) : List Obs :=
  history.filter (·.transactionId = tx)

def view (s : Runtime) (tx : TransactionId) : TxView where
  row := s.ledger.get tx
  task := tasksOf s.tasks tx
  mail := mailOf s.workerQueue tx
  exited := exitsOf s.agenda tx
  route token := s.routes.owner token = some tx
  seen := historyOf s.history tx

/-! ## The registered tasks of a transaction -/

section Tasks

variable {t t' : TaskSupervisor TaskBody} {tx : TransactionId}

theorem tasksOf_some {id : TaskId} {k : Task TaskBody} :
    tasksOf t tx id = some k ↔ t.task? id = some k ∧ k.taskClass.transactionId = some tx := by
  simp [tasksOf, Option.filter_eq_some_iff]

theorem tasksOf_eq_none_iff :
    (∀ id, tasksOf t tx id = none) ↔ (t.tasksFor tx).isEmpty = true := by
  rw [List.isEmpty_iff, t.tasksFor_eq_nil_iff]
  refine forall_congr' (fun id => ?_)
  simp [tasksOf, Option.filter_eq_none_iff]

theorem tasksOf_freshId : tasksOf t tx t.freshId = none := by
  simp [tasksOf, t.task?_freshId]

/-- A spawn adds its own fresh id to its own transaction. -/
theorem tasksOf_spawn (c : TaskClass) (f : TaskBody) :
    tasksOf (t.spawn c f) tx =
      if c.transactionId = some tx then
        Function.update (tasksOf t tx) t.freshId (some ⟨c, false, .running f⟩)
      else tasksOf t tx := by
  funext id
  by_cases hid : id = t.freshId
  · subst hid
    by_cases hc : c.transactionId = some tx <;>
      simp [tasksOf, t.task?_spawn, hc, t.task?_freshId]
  · by_cases hc : c.transactionId = some tx <;>
      simp [tasksOf, t.task?_spawn, hc, hid]

/-- The three ways a running task changes its cell have one equation. -/
theorem tasksOf_setCell {i : TaskId} {k : Task TaskBody} {cell : JoinCell TaskBody}
    (hk : t.task? i = some k)
    (h : ∀ id, t'.task? id =
      if id = i then (t.task? id).map ({ · with cell := cell }) else t.task? id) :
    tasksOf t' tx =
      if k.taskClass.transactionId = some tx then
        Function.update (tasksOf t tx) i (some { k with cell := cell })
      else tasksOf t tx := by
  funext id
  by_cases hid : id = i
  · subst hid
    by_cases hc : k.taskClass.transactionId = some tx <;>
      simp [tasksOf, h, hk, hc, Option.filter_some]
  · by_cases hc : k.taskClass.transactionId = some tx <;> simp [tasksOf, h, hc, hid]

/-- What an abort leaves of one task. -/
def abortUnlessKept (keep : TaskClass → Bool) (k : Task TaskBody) : Task TaskBody :=
  if keep k.taskClass then k else k.requestAbort

theorem tasksOf_abortTx (keep : TaskClass → Bool) (tx' : TransactionId) :
    tasksOf (t.abortUnless keep (t.tasksFor tx')) tx =
      if tx' = tx then fun id => (tasksOf t tx id).map (abortUnlessKept keep)
      else tasksOf t tx := by
  funext id
  simp only [tasksOf, t.task?_abortTx]
  cases hk : t.task? id with
  | none => by_cases htx : tx' = tx <;> simp [htx, tasksOf, hk]
  | some k =>
      by_cases hc : k.taskClass.transactionId = some tx
      · have hne : tx = tx' ↔ tx' = tx := eq_comm
        by_cases htx : tx' = tx <;> by_cases hkeep : keep k.taskClass <;>
          simp [tasksOf, hk, hc, htx, hne, hkeep, abortUnlessKept, Option.filter_some,
            Task.requestAbort]
      · by_cases htx : tx' = tx
        · subst htx
          simp [hk, hc, Option.filter_some]
        · simp only [if_neg htx, Option.map_some]
          split <;> simp [tasksOf, hk, hc, Option.filter_some, Task.requestAbort]

theorem tasksOf_abortAll :
    tasksOf t.abortAll tx = fun id => (tasksOf t tx id).map (abortUnlessKept fun _ => false) := by
  funext id
  simp only [tasksOf, t.task?_abortAll]
  cases hk : t.task? id with
  | none => rfl
  | some k =>
      by_cases hc : k.taskClass.transactionId = some tx <;>
        simp [hc, abortUnlessKept, Task.requestAbort, Option.filter_some]

theorem tasksOf_joined {i : TaskId} {k : Task TaskBody} (hk : t.task? i = some k)
    (h : ∀ id, t'.task? id = if id = i then none else t.task? id) :
    tasksOf t' tx =
      if k.taskClass.transactionId = some tx then Function.update (tasksOf t tx) i none
      else tasksOf t tx := by
  funext id
  by_cases hid : id = i
  · subst hid
    by_cases hc : k.taskClass.transactionId = some tx <;>
      simp [tasksOf, h, hk, hc, Option.filter_some]
  · by_cases hc : k.taskClass.transactionId = some tx <;> simp [tasksOf, h, hc, hid]

end Tasks

/-! ## What a step takes from the queues -/

namespace Runtime

/-- The control command a step takes off its queue. -/
def takesControl (s : Runtime) : Action → Option ControlCommand
  | .supervisor .next =>
      if s.agenda.head? = some .drainControl ∧ s.holdControl = false then s.controlQueue.head?
      else none
  | .supervisor (.arm .control) =>
      if s.agenda.head? = some .select ∧ s.holdControl = false then s.controlQueue.head?
      else none
  | _ => none

/-- The spawn request a step registers. -/
def registers (s : Runtime) : Action → Option TaskClass
  | .supervisor .next =>
      if s.agenda.head? = some .drainSpawn then s.spawnQueue.head? else none
  | .supervisor (.arm .spawn) =>
      if s.agenda.head? = some .select then s.spawnQueue.head? else none
  | _ => none

/-- The forced abort of every task runs now. -/
def abortsAll (s : Runtime) : Action → Bool
  | .supervisor .next => s.agenda.head? = some .abortAll
  | _ => false

end Runtime

/-! ## What a step can do to a view -/

namespace TxView

/-- Signals, exits and routes only went away. -/
structure Drains (v v' : TxView) : Prop where
  mail : v'.mail ⊆ v.mail
  exited : v'.exited ⊆ v.exited
  route : ∀ token, v'.route token → v.route token

theorem Drains.refl (v : TxView) : v.Drains v := ⟨fun _ h => h, fun _ h => h, fun _ h => h⟩

theorem Drains.of_eq {v v' : TxView} (hmail : v'.mail = v.mail) (hexited : v'.exited = v.exited)
    (hroute : v'.route = v.route) : v.Drains v' :=
  ⟨hmail ▸ fun _ h => h, hexited ▸ fun _ h => h, fun _ h => hroute ▸ h⟩

/-- Nothing else happened either. -/
structure Quiet (v v' : TxView) : Prop extends v.Drains v' where
  row : v'.row = v.row
  task : ∀ i, v'.task i = v.task i
  seen : v'.seen = v.seen

theorem Quiet.task_eq {v v' : TxView} (h : v.Quiet v') : v'.task = v.task := funext h.task

end TxView

/-- Where an accepted proposal came from. -/
inductive Origin (v : TxView) (tx : TransactionId) (e : LedgerEntry) (p : TerminalProposal) :
    TerminalSource → Prop where
  | worker (h : p ∈ v.mail) : Origin v tx e p .worker
  | taskExit (exit : TaskExit) (quiescing : Bool)
      (h : .transactionCoordinator tx ∈ v.exited)
      (hp : p = Runtime.recoveredProposal e exit quiescing) : Origin v tx e p .taskExit
  | cancel : Origin v tx e p .cancel
  | force : Origin v tx e p .force
  | shutdown : Origin v tx e p .shutdown

/-- A registered task in the given state. -/
def TxView.At (v : TxView) (id : TaskId) (c : TaskClass) (abort : Bool) (body : TaskBody) : Prop :=
  v.task id = some ⟨c, abort, .running body⟩

open Monoloop.Lifecycle.Runtime in
/-- **One step, as one transaction sees it.** The premises are the guards under
which the runtime takes the step. -/
inductive TxStep (s : Runtime) (a : Action) (tx : TransactionId) (v v' : TxView) : Prop where
  | still (quiet : v.Quiet v')
  | admitted (e : LedgerEntry) (drains : v.Drains v') (accepting : s.state = .accepting) (absent : v.row = none)
      (fresh : .admitted tx ∉ v.seen) (queued : e.phase = .queued) (undecided : e.terminal = none)
      (pending : e.pendingWorkerProposal = none) (delivery : e.delivery.isSome)
      (row : v'.row = some e) (task : ∀ i, v'.task i = v.task i)
      (seen : v'.seen = .admitted tx :: v.seen)
  | started (e : LedgerEntry) (d : TransactionDelivery) (pub coord : TaskId)
      (params : CoordinatorParams) (drains : v.Drains v') (old : v.row = some e)
      (queued : e.phase = .queued) (delivery : e.delivery = some d)
      (freshPub : v.task pub = none) (freshCoord : v.task coord = none) (ne : coord ≠ pub)
      (row : v'.row = some (startRow d e))
      (task : ∀ i, v'.task i = Function.update
        (Function.update v.task pub (some ⟨.eventPublisher tx, false, .running .eventPublisher⟩))
        coord (some ⟨.transactionCoordinator tx, false, .running (.coordinator params .entry)⟩) i)
      (seen : v'.seen = v.seen)
  | decided (e : LedgerEntry) (p : TerminalProposal) (force : Bool) (source : TerminalSource)
      (id : TaskId) (drains : v.Drains v') (old : v.row = some e) (undecided : e.terminal = none)
      (origin : Origin v tx e p source) (fresh : v.task id = none)
      (row : v'.row = some (decideRow p force e))
      (task : ∀ i, v'.task i = Function.update v.task id
        (some ⟨.finalizer tx, false, .running (.finalizer (.spawned e.publisherSealTx))⟩) i)
      (seen : v'.seen = .decided tx source p.kind :: v.seen)
  | late (e : LedgerEntry) (p : TerminalProposal) (force : Bool) (drains : v.Drains v')
      (old : v.row = some e) (decided : e.terminal.isSome)
      (forced : force = true → s.takesControl a = some (.forceTerminate tx))
      (row : v'.row = some (decideRow p force e)) (task : ∀ i, v'.task i = v.task i)
      (seen : v'.seen = v.seen)
  | aborted (keep : TaskClass → Bool) (cancel : Bool) (drains : v.Drains v')
      (spares : keep (.finalizer tx) = true ∨ .finalizer tx ∈ v.exited ∨ v.row = none ∨
        s.abortsAll a)
      (row : v'.row = v.row.map fun e => { e with cancelled := e.cancelled || cancel })
      (task : ∀ i, v'.task i = (v.task i).map (abortUnlessKept keep))
      (seen : v'.seen = v.seen)
  | moved (id : TaskId) (params : CoordinatorParams) (pc pc' : CoordinatorPc)
      (mail : v'.mail = v.mail) (exited : v'.exited = v.exited)
      (old : v.At id (.transactionCoordinator tx) false (.coordinator params pc))
      (awaits : pc.awaits = true) (awaits' : pc'.awaits = true)
      (keeps : ∀ token, pc.token = some token → pc'.token = some token)
      (route : ∀ token, v'.route token → v.route token ∨ pc'.token = some token)
      (session : LedgerEntry → Option SessionKey)
      (row : v'.row = v.row.map fun e => { e with sessionKey := session e })
      (task : ∀ i, v'.task i = Function.update v.task id
        (some ⟨.transactionCoordinator tx, false, .running (.coordinator params pc')⟩) i)
      (seen : v'.seen = v.seen)
  | returned (id : TaskId) (params : CoordinatorParams) (pc : CoordinatorPc)
      (p : TerminalProposal) (mail : v'.mail = v.mail) (exited : v'.exited = v.exited)
      (old : v.At id (.transactionCoordinator tx) false (.coordinator params pc))
      (awaits : pc.awaits = true)
      (route : ∀ token, v'.route token → v.route token ∧ pc.token ≠ some token)
      (row : v'.row = v.row)
      (task : ∀ i, v'.task i = Function.update v.task id
        (some ⟨.transactionCoordinator tx, false, .running (.coordinator params (.returned p))⟩) i)
      (seen : v'.seen = .proposed tx p :: v.seen)
  | parked (id : TaskId) (params : CoordinatorParams) (p : TerminalProposal) (abort : Bool)
      (drains : v.Drains v')
      (old : v.At id (.transactionCoordinator tx) abort (.coordinator params (.returned p)))
      (row : v'.row = v.row.map fun e => { e with pendingWorkerProposal := some p })
      (task : ∀ i, v'.task i = Function.update v.task id
        (some ⟨.transactionCoordinator tx, abort, .running (.coordinator params (.parked p))⟩) i)
      (seen : v'.seen = v.seen)
  | notified (id : TaskId) (params : CoordinatorParams) (p : TerminalProposal) (abort : Bool)
      (mail : v'.mail ⊆ p :: v.mail) (exited : v'.exited = v.exited) (route : v'.route = v.route)
      (old : v.At id (.transactionCoordinator tx) abort (.coordinator params (.parked p)))
      (row : v'.row = v.row)
      (task : ∀ i, v'.task i = Function.update v.task id
        (some ⟨.transactionCoordinator tx, abort, .finished (.output id .completed)⟩) i)
      (seen : v'.seen = v.seen)
  | sealed (id : TaskId) (sealTx : Bool) (e : LedgerEntry) (pc : FinalizerPc)
      (drains : v.Drains v')
      (old : v.At id (.finalizer tx) false (.finalizer (.spawned sealTx)))
      (oldRow : v.row = some e)
      (next : pc = .awaitingReply (snapshotOf e) ∨ ∃ d n, pc = .replied (snapshotOf e) d n)
      (row : v'.row = some (cleanupRow e))
      (task : ∀ i, v'.task i = Function.update v.task id
        (some ⟨.finalizer tx, false, .running (.finalizer pc)⟩) i)
      (seen : v'.seen = v.seen)
  | orphaned (id : TaskId) (sealTx : Bool) (drains : v.Drains v')
      (old : v.At id (.finalizer tx) false (.finalizer (.spawned sealTx)))
      (absent : v.row = none) (row : v'.row = v.row)
      (task : ∀ i, v'.task i = Function.update v.task id
        (some ⟨.finalizer tx, false, .finished (.output id .completed)⟩) i)
      (seen : v'.seen = v.seen)
  | replied (id : TaskId) (snap : FinalizerSnapshot) (d : TerminalEventDelivery) (n : Nat)
      (drains : v.Drains v')
      (old : v.At id (.finalizer tx) false (.finalizer (.awaitingReply snap)))
      (row : v'.row = v.row)
      (task : ∀ i, v'.task i = Function.update v.task id
        (some ⟨.finalizer tx, false, .running (.finalizer (.replied snap d n))⟩) i)
      (seen : v'.seen = v.seen)
  | settled (id : TaskId) (snap : FinalizerSnapshot) (d : TerminalEventDelivery) (n : Nat)
      (abort : Bool) (drains : v.Drains v') (byFinalizer : a = .finalizer id .settle)
      (old : v.At id (.finalizer tx) abort (.finalizer (.replied snap d n)))
      (row : v'.row = if downgradedKind d snap.kind = snap.kind then v.row
        else v.row.map fun e => { e with terminal := some ⟨downgradedKind d snap.kind⟩ })
      (task : ∀ i, v'.task i = Function.update v.task id (some ⟨.finalizer tx, abort, .running
        (.finalizer (.publishing { snap with kind := downgradedKind d snap.kind } d n))⟩) i)
      (seen : v'.seen = v.seen)
  | published (id : TaskId) (snap : FinalizerSnapshot) (d : TerminalEventDelivery) (n : Nat)
      (abort : Bool) (c : TransactionCompletion) (r : CompletionPublishResult)
      (drains : v.Drains v')
      (old : v.At id (.finalizer tx) abort (.finalizer (.publishing snap d n)))
      (kind : c.end.kind = snap.kind)
      (row : v'.row = v.row.map fun e => { e with eventSequence := n })
      (task : ∀ i, v'.task i = Function.update v.task id
        (some ⟨.finalizer tx, abort, .finished (.output id .completed)⟩) i)
      (seen : v'.seen =
        if snap.completionTx.isSome then .attempted tx c r :: v.seen else v.seen)
  | ended (id : TaskId) (k : Task TaskBody) (body : TaskBody) (r : JoinResult)
      (drains : v.Drains v') (old : v.task id = some k) (running : k.cell = .running body)
      (finalizers : ∀ pc, body = .finalizer pc → pc.awaits = true ∧ k.abortRequested = true)
      (coordinators : ∀ params pc, body = .coordinator params pc → pc.awaits = true ∧
        (a = .panic id ∨ a = .cancelled id))
      (row : v'.row = v.row)
      (task : ∀ i, v'.task i = Function.update v.task id (some { k with cell := .finished r }) i)
      (seen : v'.seen = v.seen)
  | joined (id : TaskId) (k : Task TaskBody) (r : JoinResult) (mail : v'.mail = v.mail)
      (exited : v'.exited ⊆ k.taskClass :: v.exited) (route : v'.route = v.route)
      (old : v.task id = some k) (finished : k.cell = .finished r) (row : v'.row = v.row)
      (task : ∀ i, v'.task i = Function.update v.task id none i) (seen : v'.seen = v.seen)
  | removed (e : LedgerEntry) (drains : v.Drains v') (old : v.row = some e)
      (idle : ∀ id, v.task id = none)
      (past : e.phase = .cleanupPending ∨ e.phase = .finalizing ∨ e.terminal.isSome)
      (row : v'.row = none) (task : ∀ i, v'.task i = v.task i) (seen : v'.seen = .removed tx e :: v.seen)
  | spawned (id : TaskId) (c : TaskClass) (drains : v.Drains v')
      (registers : s.registers a = some c) (owned : c.transactionId = some tx)
      (queued : c.isChild = true ∨ c = .mcpRequest tx) (fresh : v.task id = none)
      (row : v'.row = v.row)
      (task : ∀ i, v'.task i = Function.update v.task id (some ⟨c, false, .running .child⟩) i)
      (seen : v'.seen = v.seen)

end Monoloop.Lifecycle
