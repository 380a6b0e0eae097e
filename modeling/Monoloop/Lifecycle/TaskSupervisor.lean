import Monoloop.Lib.HashMap
import Monoloop.Contracts.Transaction

/-!
# The task supervisor

`task_supervisor.rs`: every runtime task is registered in three maps and one
join set, and stays registered until its join is observed. `TaskTables` holds
the source's fields; `TaskSupervisor` adds the proof that the maps agree, so no
caller ever argues about them again. Callers read the tables through `task?`
(the registered task of an id) and each operation has one lemma saying what it
does to `task?`.

The future of a task is a parameter `β`: the table never looks inside it.
Task ids and executor ids are counters that never wrap.
-/

namespace Monoloop.Lifecycle

/-- Stable task id within one runtime owner. -/
structure TaskId where
  val : Nat
deriving DecidableEq

/-- The executor's own id of a spawned task. -/
structure TokioTaskId where
  val : Nat
deriving DecidableEq

/-- Classification for every supervised spawn. -/
inductive TaskClass where
  | transactionCoordinator (tx : TransactionId)
  | eventPublisher (tx : TransactionId)
  | connectorOwner (tx : TransactionId) (exchange : ExchangeId)
  | interpreterOwner (tx : TransactionId) (exchange : ExchangeId)
  | toolWorker (tx : TransactionId) (execution : ToolExecutionId)
  | loopRuntime (tx : TransactionId)
  | mcpRequest (tx : TransactionId)
  | finalizer (tx : TransactionId)
  | runtimeService
deriving DecidableEq

/-- Owning transaction when task-scoped. -/
def TaskClass.transactionId : TaskClass → Option TransactionId
  | .transactionCoordinator t | .eventPublisher t | .connectorOwner t _
  | .interpreterOwner t _ | .toolWorker t _ | .loopRuntime t | .mcpRequest t
  | .finalizer t => some t
  | .runtimeService => none

def TaskClass.isFinalizer : TaskClass → Bool
  | .finalizer _ => true
  | _ => false

def TaskClass.isEventPublisher : TaskClass → Bool
  | .eventPublisher _ => true
  | _ => false

/-- Observed task exit kind. -/
inductive TaskExit where
  | completed
  | cancelled
  | panicked
deriving DecidableEq

structure TaskMeta where
  taskClass : TaskClass
  abortRequested : Bool
  tokioId : TokioTaskId
deriving DecidableEq

/-- What a join yields: the wrapper's own tuple (a panic of the future is caught
there), or a join error when the executor dropped the future. -/
inductive JoinResult where
  | output (id : TaskId) (exit : TaskExit)
  | joinError (isCancelled : Bool)
deriving DecidableEq

/-- A spawned task inside the join set. -/
inductive JoinCell (β : Type) where
  | running (future : β)
  | finished (result : JoinResult)
deriving DecidableEq

/-- The fields of `TaskSupervisor`. The abort flag of the executor's handle is
the `abortRequested` flag itself: both are set together and never cleared. -/
structure TaskTables (β : Type) where
  joins : HashMap TokioTaskId (JoinCell β)
  taskMeta : HashMap TaskId TaskMeta
  byTransaction : HashMap TransactionId (List TaskId)
  byTokioId : HashMap TokioTaskId TaskId
  nextId : Nat
  nextTokio : Nat

/-- A registered task as callers see it. -/
structure Task (β : Type) where
  taskClass : TaskClass
  abortRequested : Bool
  cell : JoinCell β

variable {β : Type}

/-- Request abort; the task stays registered until its join is observed. -/
def Task.requestAbort (k : Task β) : Task β := { k with abortRequested := true }

/-- The exit `reap_finished` reports: a task that completed although its abort
had been requested counts as cancelled. -/
def reportedExit (abortRequested : Bool) : JoinResult → TaskExit
  | .output _ exit =>
      if abortRequested && exit == .completed then .cancelled else exit
  | .joinError isCancelled => if isCancelled then .cancelled else .panicked

namespace TaskTables

def empty : TaskTables β :=
  { joins := ∅, taskMeta := ∅, byTransaction := ∅, byTokioId := ∅, nextId := 1, nextTokio := 0 }

/-- Number of tasks still registered. -/
def registeredCount (t : TaskTables β) : Nat := t.taskMeta.keys.length

/-- Whether the stopped proof can assert zero owned tasks. -/
def isEmpty (t : TaskTables β) : Bool := t.taskMeta.keys.isEmpty && t.joins.keys.isEmpty

/-- Tasks still associated with a transaction. -/
def tasksFor (t : TaskTables β) (tx : TransactionId) : List TaskId :=
  (t.byTransaction.lookup tx).getD []

/-- The registered task of an id. -/
def task? (t : TaskTables β) (id : TaskId) : Option (Task β) :=
  (t.taskMeta.lookup id).bind fun m =>
    (t.joins.lookup m.tokioId).map fun c => ⟨m.taskClass, m.abortRequested, c⟩

/-- Register then spawn. -/
def spawn (t : TaskTables β) (taskClass : TaskClass) (future : β) : TaskTables β :=
  let id : TaskId := ⟨t.nextId⟩
  let tokioId : TokioTaskId := ⟨t.nextTokio⟩
  { joins := t.joins.insert tokioId (.running future)
    nextTokio := t.nextTokio + 1
    nextId := t.nextId + 1
    byTransaction := match taskClass.transactionId with
      | some tx => t.byTransaction.insert tx ((t.tasksFor tx).insert id)
      | none => t.byTransaction
    byTokioId := t.byTokioId.insert tokioId id
    taskMeta := t.taskMeta.insert id ⟨taskClass, false, tokioId⟩ }

def abort (t : TaskTables β) (id : TaskId) : TaskTables β :=
  { t with taskMeta := HashMap.modify t.taskMeta id ({ · with abortRequested := true }) }

/-- Replace the future (or the result) of a registered task: what the executor
does when it polls the task. -/
def setCell (t : TaskTables β) (id : TaskId) (cell : JoinCell β) : TaskTables β :=
  match t.taskMeta.lookup id with
  | some m => { t with joins := HashMap.modify t.joins m.tokioId (fun _ => cell) }
  | none => t

/-- Drop one id from a transaction's set, and the set itself once it is empty. -/
def unindex (index : HashMap TransactionId (List TaskId)) (tx : TransactionId) (id : TaskId) :
    HashMap TransactionId (List TaskId) :=
  match index.lookup tx with
  | none => index
  | some set =>
      if (set.filter (· ≠ id)).isEmpty then index.erase tx
      else index.insert tx (set.filter (· ≠ id))

def deregister (t : TaskTables β) (id : TaskId) : TaskTables β × Option TaskClass :=
  match t.taskMeta.lookup id with
  | none => (t, none)
  | some m =>
      ({ t with
          taskMeta := t.taskMeta.erase id
          byTokioId := t.byTokioId.erase m.tokioId
          byTransaction := match m.taskClass.transactionId with
            | none => t.byTransaction
            | some tx => unindex t.byTransaction tx id },
        some m.taskClass)

/-- Fallback of `reap_finished` for a join error whose executor id is unknown. -/
def findFinishedMeta (t : TaskTables β) : Option TaskId :=
  t.taskMeta.keys.find? fun id =>
    match (t.taskMeta.lookup id).bind (fun m => t.joins.lookup m.tokioId) with
    | some (.running _) => false
    | _ => true

/-- The id `reap_finished` attributes a join to: the wrapper's own id, else the
one registered for the executor id, else the fallback. -/
def finishedId (t : TaskTables β) (tokioId : TokioTaskId) : JoinResult → Option TaskId
  | .output id _ => some id
  | .joinError _ => (t.byTokioId.lookup tokioId).or t.findFinishedMeta

/-- Deregister the task of an observed join. -/
def reapFinished (t : TaskTables β) (tokioId : TokioTaskId) (result : JoinResult) :
    TaskTables β × Option (TaskId × TaskClass × TaskExit) :=
  let t' := { t with byTokioId := t.byTokioId.erase tokioId }
  match t.finishedId tokioId result with
  | none => (t', none)
  | some id =>
      let exit := reportedExit ((t'.taskMeta.lookup id).any (·.abortRequested)) result
      match t'.deregister id with
      | (t'', some taskClass) => (t'', some (id, taskClass, exit))
      | (t'', none) => (t'', none)

/-- The join set yields a finished task (`try_join_next_with_id`,
`join_next_with_id`); which one is the executor's choice. -/
def joinNext (t : TaskTables β) (tokioId : TokioTaskId) :
    Option (TaskTables β × Option (TaskId × TaskClass × TaskExit)) :=
  match t.joins.lookup tokioId with
  | some (.finished result) =>
      some (reapFinished { t with joins := t.joins.erase tokioId } tokioId result)
  | _ => none

/-! ## Agreement of the maps -/

/-- The three maps and the join set describe the same unreaped tasks. -/
structure Coherent (t : TaskTables β) : Prop where
  tokio : ∀ {id m}, t.taskMeta.lookup id = some m → t.byTokioId.lookup m.tokioId = some id
  metaOf : ∀ {k id}, t.byTokioId.lookup k = some id →
    ∃ m, t.taskMeta.lookup id = some m ∧ m.tokioId = k
  index : ∀ tx id, id ∈ t.tasksFor tx ↔
    ∃ m, t.taskMeta.lookup id = some m ∧ m.taskClass.transactionId = some tx
  joined : ∀ k, (∃ c, t.joins.lookup k = some c) ↔ ∃ id, t.byTokioId.lookup k = some id
  output : ∀ {k id e}, t.joins.lookup k = some (.finished (.output id e)) →
    t.byTokioId.lookup k = some id
  idLt : ∀ {id m}, t.taskMeta.lookup id = some m → id.val < t.nextId
  tokioLt : ∀ {k c}, t.joins.lookup k = some c → k.val < t.nextTokio

theorem coherent_empty : Coherent (empty : TaskTables β) where
  tokio h := by simp [empty] at h
  metaOf h := by simp [empty] at h
  index tx id := by simp [tasksFor, empty]
  joined k := by simp [empty]
  output h := by simp [empty] at h
  idLt h := by simp [empty] at h
  tokioLt h := by simp [empty] at h

variable {t : TaskTables β}

/-- A registered id always has a cell in the join set. -/
theorem Coherent.cell_of_meta (h : t.Coherent) {id m} (hm : t.taskMeta.lookup id = some m) :
    ∃ c, t.joins.lookup m.tokioId = some c :=
  (h.joined m.tokioId).mpr ⟨id, h.tokio hm⟩

theorem Coherent.task?_eq (h : t.Coherent) {id m} (hm : t.taskMeta.lookup id = some m) :
    ∃ c, t.joins.lookup m.tokioId = some c ∧
      t.task? id = some ⟨m.taskClass, m.abortRequested, c⟩ := by
  obtain ⟨c, hc⟩ := h.cell_of_meta hm
  exact ⟨c, hc, by simp [task?, hm, hc]⟩

theorem task?_some {id k} (h : t.task? id = some k) :
    ∃ m, t.taskMeta.lookup id = some m ∧ t.joins.lookup m.tokioId = some k.cell ∧
      k.taskClass = m.taskClass ∧ k.abortRequested = m.abortRequested := by
  simp only [task?, Option.bind_eq_some_iff, Option.map_eq_some_iff] at h
  obtain ⟨m, hm, c, hc, rfl⟩ := h
  exact ⟨m, hm, hc, rfl, rfl⟩

theorem Coherent.tokio_inj (h : t.Coherent) {id id' m m'}
    (hm : t.taskMeta.lookup id = some m) (hm' : t.taskMeta.lookup id' = some m')
    (heq : m.tokioId = m'.tokioId) : id = id' := by
  have h1 := h.tokio hm
  rw [heq, h.tokio hm'] at h1
  exact (Option.some.inj h1).symm

/-- `tasks_for` lists exactly the registered tasks of the transaction. -/
theorem Coherent.mem_tasksFor (h : t.Coherent) (tx : TransactionId) (id : TaskId) :
    id ∈ t.tasksFor tx ↔ ∃ k, t.task? id = some k ∧ k.taskClass.transactionId = some tx := by
  rw [h.index]
  constructor
  · rintro ⟨m, hm, htx⟩
    obtain ⟨c, _, hk⟩ := h.task?_eq hm
    exact ⟨_, hk, htx⟩
  · rintro ⟨k, hk, htx⟩
    obtain ⟨m, hm, _, hcls, _⟩ := task?_some hk
    exact ⟨m, hm, hcls ▸ htx⟩

/-! ## Spawn -/

theorem Coherent.fresh_id (h : t.Coherent) : t.taskMeta.lookup ⟨t.nextId⟩ = none := by
  cases hm : t.taskMeta.lookup ⟨t.nextId⟩ with
  | none => rfl
  | some m => exact absurd (h.idLt hm) (Nat.lt_irrefl _)

theorem Coherent.fresh_tokio (h : t.Coherent) : t.byTokioId.lookup ⟨t.nextTokio⟩ = none := by
  cases hk : t.byTokioId.lookup ⟨t.nextTokio⟩ with
  | none => rfl
  | some id =>
      obtain ⟨c, hc⟩ := (h.joined ⟨t.nextTokio⟩).mpr ⟨id, hk⟩
      exact absurd (h.tokioLt hc) (Nat.lt_irrefl _)

theorem Coherent.task?_fresh (h : t.Coherent) : t.task? ⟨t.nextId⟩ = none := by
  simp [task?, h.fresh_id]

/-- The tables with a task of the given id in them: what `spawn` does, whatever the
counter says next. -/
def register (t : TaskTables β) (id : TaskId) (taskClass : TaskClass) (future : β)
    (nextId : Nat) : TaskTables β :=
  { joins := t.joins.insert ⟨t.nextTokio⟩ (.running future)
    nextTokio := t.nextTokio + 1
    nextId := nextId
    byTransaction := match taskClass.transactionId with
      | some tx => t.byTransaction.insert tx ((t.tasksFor tx).insert id)
      | none => t.byTransaction
    byTokioId := t.byTokioId.insert ⟨t.nextTokio⟩ id
    taskMeta := t.taskMeta.insert id ⟨taskClass, false, ⟨t.nextTokio⟩⟩ }

theorem tasksFor_register (i : TaskId) (c : TaskClass) (f : β) (n : Nat) (tx : TransactionId)
    (id : TaskId) :
    id ∈ (t.register i c f n).tasksFor tx ↔
      (c.transactionId = some tx ∧ id = i) ∨ id ∈ t.tasksFor tx := by
  cases hc : c.transactionId with
  | none => simp [tasksFor, register, hc]
  | some tx' =>
      by_cases htx : tx = tx'
      · subst htx
        simp [tasksFor, register, hc, List.mem_insert_iff]
      · have hne : ¬ tx' = tx := fun h => htx h.symm
        simp [tasksFor, register, hc, htx, hne]

/-- An id that no registered task has may be given to a new one. -/
theorem Coherent.register (h : t.Coherent) {i : TaskId} {n : Nat}
    (hfresh : t.taskMeta.lookup i = none) (hi : i.val < n) (hn : t.nextId ≤ n) (c : TaskClass)
    (f : β) : (t.register i c f n).Coherent where
  tokio := by
    intro id m hm
    simp only [TaskTables.register, HashMap.lookup_insert_ite] at hm ⊢
    split at hm
    · cases hm
      simp_all
    · have hold := h.tokio hm
      rw [if_neg (fun heq => by rw [heq, h.fresh_tokio] at hold; cases hold)]
      exact hold
  metaOf := by
    intro k id hk
    simp only [TaskTables.register, HashMap.lookup_insert_ite] at hk ⊢
    split at hk
    · cases hk
      exact ⟨⟨c, false, ⟨t.nextTokio⟩⟩, by simp, by simp_all⟩
    · obtain ⟨m, hm, hmk⟩ := h.metaOf hk
      refine ⟨m, ?_, hmk⟩
      rw [if_neg (fun heq => by rw [heq, hfresh] at hm; cases hm)]
      exact hm
  index := by
    intro tx id
    rw [tasksFor_register, h.index]
    simp only [TaskTables.register, HashMap.lookup_insert_ite]
    by_cases hid : id = i
    · subst hid
      simp [hfresh]
    · simp [hid]
  joined := by
    intro k
    simp only [TaskTables.register, HashMap.lookup_insert_ite]
    by_cases hk : k = ⟨t.nextTokio⟩
    · simp [hk]
    · simpa [hk] using h.joined k
  output := by
    intro k id e hk
    simp only [TaskTables.register, HashMap.lookup_insert_ite] at hk ⊢
    split at hk
    · cases hk
    · rename_i hne
      rw [if_neg hne]
      exact h.output hk
  idLt := by
    intro id m hm
    simp only [TaskTables.register, HashMap.lookup_insert_ite] at hm ⊢
    split at hm
    · rename_i heq
      rw [heq]
      exact hi
    · exact Nat.lt_of_lt_of_le (h.idLt hm) hn
  tokioLt := by
    intro k cell hk
    simp only [TaskTables.register, HashMap.lookup_insert_ite] at hk ⊢
    split at hk
    · rename_i heq
      simp [heq]
    · exact Nat.lt_succ_of_lt (h.tokioLt hk)

theorem Coherent.spawn (h : t.Coherent) (c : TaskClass) (f : β) : (t.spawn c f).Coherent :=
  h.register h.fresh_id (Nat.lt_succ_self _) (Nat.le_succ _) c f

theorem Coherent.task?_spawn (h : t.Coherent) (c : TaskClass) (f : β) (id : TaskId) :
    (t.spawn c f).task? id =
      if id = ⟨t.nextId⟩ then some ⟨c, false, .running f⟩ else t.task? id := by
  simp only [task?, TaskTables.spawn, HashMap.lookup_insert_ite]
  by_cases hid : id = ⟨t.nextId⟩
  · simp [hid]
  · simp only [if_neg hid]
    cases hm : t.taskMeta.lookup id with
    | none => rfl
    | some m =>
        have hne : m.tokioId ≠ ⟨t.nextTokio⟩ := by
          intro heq
          have := h.tokio hm
          rw [heq, h.fresh_tokio] at this
          cases this
        simp [hne]

/-! ## Abort and polling -/

theorem lookup_abort (t : TaskTables β) (i : TaskId) {id : TaskId} {m : TaskMeta}
    (h : (t.abort i).taskMeta.lookup id = some m) :
    ∃ m₀, t.taskMeta.lookup id = some m₀ ∧ m.taskClass = m₀.taskClass ∧
      m.tokioId = m₀.tokioId := by
  simp only [TaskTables.abort, HashMap.lookup_modify] at h
  split at h
  · obtain ⟨m₀, hm₀, rfl⟩ := Option.map_eq_some_iff.mp h
    exact ⟨m₀, hm₀, rfl, rfl⟩
  · exact ⟨m, h, rfl, rfl⟩

theorem exists_lookup_abort (t : TaskTables β) (i : TaskId) {id : TaskId} {m₀ : TaskMeta}
    (h : t.taskMeta.lookup id = some m₀) :
    ∃ m, (t.abort i).taskMeta.lookup id = some m ∧ m.taskClass = m₀.taskClass ∧
      m.tokioId = m₀.tokioId := by
  simp only [TaskTables.abort, HashMap.lookup_modify, h, Option.map_some]
  split
  · exact ⟨_, rfl, rfl, rfl⟩
  · exact ⟨_, rfl, rfl, rfl⟩

theorem Coherent.abort (h : t.Coherent) (i : TaskId) : (t.abort i).Coherent where
  tokio := by
    intro id m hm
    obtain ⟨m₀, hm₀, _, htok⟩ := lookup_abort t i hm
    rw [htok]
    exact h.tokio hm₀
  metaOf := by
    intro k id hk
    obtain ⟨m₀, hm₀, hk₀⟩ := h.metaOf hk
    obtain ⟨m, hm, _, htok⟩ := exists_lookup_abort t i hm₀
    exact ⟨m, hm, htok.trans hk₀⟩
  index := by
    intro tx id
    refine (h.index tx id).trans ⟨?_, ?_⟩
    · rintro ⟨m₀, hm₀, htx⟩
      obtain ⟨m, hm, hcls, _⟩ := exists_lookup_abort t i hm₀
      exact ⟨m, hm, hcls ▸ htx⟩
    · rintro ⟨m, hm, htx⟩
      obtain ⟨m₀, hm₀, hcls, _⟩ := lookup_abort t i hm
      exact ⟨m₀, hm₀, hcls ▸ htx⟩
  joined := h.joined
  output := h.output
  idLt := by
    intro id m hm
    obtain ⟨m₀, hm₀, _⟩ := lookup_abort t i hm
    exact h.idLt hm₀
  tokioLt := h.tokioLt

theorem task?_abort (t : TaskTables β) (i id : TaskId) :
    (t.abort i).task? id =
      if id = i then (t.task? id).map Task.requestAbort else t.task? id := by
  simp only [task?, TaskTables.abort, HashMap.lookup_modify]
  by_cases hid : id = i
  · subst hid
    cases hm : t.taskMeta.lookup id with
    | none => simp
    | some m => cases hc : t.joins.lookup m.tokioId <;> simp [hc, Task.requestAbort]
  · simp [hid]

/-- The executor may replace a cell by any cell that reports its own task id. -/
def CellFor (id : TaskId) : JoinCell β → Prop
  | .finished (.output id' _) => id' = id
  | _ => True

theorem Coherent.setCell (h : t.Coherent) {i : TaskId} {c : JoinCell β} (hc : CellFor i c) :
    (t.setCell i c).Coherent := by
  unfold TaskTables.setCell
  cases hm : t.taskMeta.lookup i with
  | none => exact h
  | some m =>
      refine ⟨h.tokio, h.metaOf, h.index, ?_, ?_, h.idLt, ?_⟩
      · intro k
        simp only [HashMap.lookup_modify]
        rw [← h.joined k]
        split
        · cases t.joins.lookup k <;> simp
        · rfl
      · intro k id e hk
        simp only [HashMap.lookup_modify] at hk
        split at hk
        · rename_i heq
          obtain ⟨_, _, rfl⟩ := Option.map_eq_some_iff.mp hk
          rw [heq, h.tokio hm, show i = id from hc.symm]
        · exact h.output hk
      · intro k cell hk
        simp only [HashMap.lookup_modify] at hk
        split at hk
        · obtain ⟨c₀, hc₀, _⟩ := Option.map_eq_some_iff.mp hk
          exact h.tokioLt hc₀
        · exact h.tokioLt hk

theorem Coherent.task?_setCell (h : t.Coherent) (i id : TaskId) (c : JoinCell β) :
    (t.setCell i c).task? id =
      if id = i then (t.task? id).map ({ · with cell := c }) else t.task? id := by
  unfold TaskTables.setCell
  cases hi : t.taskMeta.lookup i with
  | none =>
      by_cases hid : id = i
      · subst hid
        simp [task?, hi]
      · simp [hid]
  | some m =>
      by_cases hid : id = i
      · subst hid
        obtain ⟨c₀, hc₀, hk⟩ := h.task?_eq hi
        simp [task?, hi, HashMap.lookup_modify, hc₀]
      · simp only [if_neg hid, task?, HashMap.lookup_modify]
        cases hm : t.taskMeta.lookup id with
        | none => rfl
        | some m' =>
            have hne : m'.tokioId ≠ m.tokioId := fun heq => hid (h.tokio_inj hm hi heq)
            simp [hne]

/-! ## Reaping -/

theorem mem_unindex (index : HashMap TransactionId (List TaskId)) (tx tx' : TransactionId)
    (id x : TaskId) :
    x ∈ ((unindex index tx id).lookup tx').getD [] ↔
      x ∈ (index.lookup tx').getD [] ∧ (tx' = tx → x ≠ id) := by
  unfold unindex
  cases hset : index.lookup tx with
  | none =>
      by_cases htx : tx' = tx
      · subst htx
        simp [hset]
      · simp [htx]
  | some set =>
      by_cases htx : tx' = tx
      · subst htx
        simp only [hset, Option.getD_some, forall_const]
        split
        · rename_i hnil
          have hall : ∀ y ∈ set, y = id := by simpa using hnil
          simp only [AList.lookup_erase, Option.getD_none, List.not_mem_nil, false_iff, not_and,
            not_not]
          exact hall x
        · simp
      · simp only [htx, false_implies, and_true]
        split
        · rw [HashMap.lookup_erase_ite, if_neg htx]
        · rw [HashMap.lookup_insert_ite, if_neg htx]

/-- The tables after a finished task has left the join set and the maps. -/
def removed (t : TaskTables β) (id : TaskId) (m : TaskMeta) : TaskTables β :=
  { t with
    joins := t.joins.erase m.tokioId
    taskMeta := t.taskMeta.erase id
    byTokioId := (t.byTokioId.erase m.tokioId).erase m.tokioId
    byTransaction := match m.taskClass.transactionId with
      | none => t.byTransaction
      | some tx => unindex t.byTransaction tx id }

theorem mem_tasksFor_removed (h : t.Coherent) {i : TaskId} {m : TaskMeta}
    (hm : t.taskMeta.lookup i = some m) (tx : TransactionId) (id : TaskId) :
    id ∈ (t.removed i m).tasksFor tx ↔ id ≠ i ∧ id ∈ t.tasksFor tx := by
  have hown : i ∈ t.tasksFor tx → m.taskClass.transactionId = some tx := by
    intro hmem
    obtain ⟨m', hm', htx⟩ := (h.index tx i).mp hmem
    rw [hm] at hm'
    cases hm'
    exact htx
  cases htx : m.taskClass.transactionId with
  | none =>
      simp only [tasksFor, removed, htx]
      refine ⟨fun hid => ⟨?_, hid⟩, fun hid => hid.2⟩
      rintro rfl
      rw [htx] at hown
      cases hown hid
  | some tx' =>
      simp only [tasksFor, removed, htx]
      rw [mem_unindex, and_comm]
      refine and_congr_left (fun hid => ⟨?_, fun hne _ => hne⟩)
      rintro himp rfl
      rw [htx] at hown
      exact himp (Option.some.inj (hown hid)).symm rfl

theorem Coherent.removed (h : t.Coherent) {i : TaskId} {m : TaskMeta}
    (hm : t.taskMeta.lookup i = some m) : (t.removed i m).Coherent where
  tokio := by
    intro id m' hm'
    simp only [TaskTables.removed, HashMap.lookup_erase_ite] at hm' ⊢
    split at hm'
    · cases hm'
    · rename_i hne
      have htok : m'.tokioId ≠ m.tokioId := fun heq => hne (h.tokio_inj hm' hm heq)
      simp [htok, h.tokio hm']
  metaOf := by
    intro k id hk
    simp only [TaskTables.removed, HashMap.lookup_erase_ite] at hk ⊢
    split at hk
    · cases hk
    · rename_i hne
      obtain ⟨m', hm', hk'⟩ := h.metaOf hk
      refine ⟨m', ?_, hk'⟩
      rw [if_neg, hm']
      rintro rfl
      rw [hm] at hm'
      cases hm'
      exact hne hk'.symm
  index := by
    intro tx id
    rw [mem_tasksFor_removed h hm, h.index]
    simp only [TaskTables.removed, HashMap.lookup_erase_ite]
    by_cases hid : id = i <;> simp [hid]
  joined := by
    intro k
    simp only [TaskTables.removed, HashMap.lookup_erase_ite]
    by_cases hk : k = m.tokioId
    · simp [hk]
    · simpa [hk] using h.joined k
  output := by
    intro k id e hk
    simp only [TaskTables.removed, HashMap.lookup_erase_ite] at hk ⊢
    split at hk
    · cases hk
    · rename_i hne
      simpa [hne] using h.output hk
  idLt := by
    intro id m' hm'
    simp only [TaskTables.removed, HashMap.lookup_erase_ite] at hm'
    split at hm'
    · cases hm'
    · exact h.idLt hm'
  tokioLt := by
    intro k c hk
    simp only [TaskTables.removed, HashMap.lookup_erase_ite] at hk
    split at hk
    · cases hk
    · exact h.tokioLt hk

theorem Coherent.task?_removed (h : t.Coherent) {i : TaskId} {m : TaskMeta}
    (hm : t.taskMeta.lookup i = some m) (id : TaskId) :
    (t.removed i m).task? id = if id = i then none else t.task? id := by
  simp only [task?, TaskTables.removed, HashMap.lookup_erase_ite]
  by_cases hid : id = i
  · simp [hid]
  · simp only [if_neg hid]
    cases hm' : t.taskMeta.lookup id with
    | none => rfl
    | some m' =>
        have htok : m'.tokioId ≠ m.tokioId := fun heq => hid (h.tokio_inj hm' hm heq)
        simp [htok]

/-- **One observed join.** The yielded task leaves every table, and the report
names it, its class and its exit. -/
theorem Coherent.joinNext (h : t.Coherent) {k : TokioTaskId} {t' : TaskTables β} {out}
    (hj : t.joinNext k = some (t', out)) :
    ∃ i m r, t.taskMeta.lookup i = some m ∧ m.tokioId = k ∧
      t.joins.lookup k = some (.finished r) ∧ t' = t.removed i m ∧
      out = some (i, m.taskClass, reportedExit m.abortRequested r) := by
  unfold TaskTables.joinNext at hj
  split at hj
  · rename_i r hr
    obtain ⟨i, hi⟩ := (h.joined k).mp ⟨_, hr⟩
    obtain ⟨m, hm, hmk⟩ := h.metaOf hi
    refine ⟨i, m, r, hm, hmk, hr, ?_⟩
    have hknown : finishedId { t with joins := t.joins.erase k } k r = some i := by
      cases r with
      | output id e => rw [← hi, h.output hr, finishedId]
      | joinError b => simp [finishedId, hi]
    simp only [reapFinished, hknown, deregister, hm, Option.some.injEq, Prod.mk.injEq,
      Option.any_some] at hj
    obtain ⟨rfl, rfl⟩ := hj
    subst hmk
    exact ⟨rfl, rfl⟩
  · cases hj

/-- Abort the listed tasks except those of a class to keep: the loop shared by
`abort_transaction`, its residual and hard-grace variants, and `abort_all`. -/
def abortUnless (keep : TaskClass → Bool) (t : TaskTables β) (ids : List TaskId) : TaskTables β :=
  ids.foldl (fun t id =>
    if (t.taskMeta.lookup id).any (keep ·.taskClass) then t else t.abort id) t

theorem Coherent.abortUnless (h : t.Coherent) (keep : TaskClass → Bool) (ids : List TaskId) :
    (abortUnless keep t ids).Coherent := by
  induction ids generalizing t with
  | nil => exact h
  | cons i ids ih =>
      simp only [TaskTables.abortUnless, List.foldl_cons] at ih ⊢
      split
      · exact ih h
      · exact ih (h.abort i)

theorem any_keep_eq (h : t.Coherent) (keep : TaskClass → Bool) (id : TaskId) :
    (t.taskMeta.lookup id).any (keep ·.taskClass) = (t.task? id).any (keep ·.taskClass) := by
  cases hm : t.taskMeta.lookup id with
  | none => simp [task?, hm]
  | some m =>
      obtain ⟨c, _, hk⟩ := h.task?_eq hm
      simp [hk]

theorem Coherent.task?_abortUnless (h : t.Coherent) (keep : TaskClass → Bool)
    (ids : List TaskId) (id : TaskId) :
    (TaskTables.abortUnless keep t ids).task? id = (t.task? id).map fun k =>
      if id ∈ ids ∧ keep k.taskClass = false then k.requestAbort else k := by
  induction ids generalizing t with
  | nil => simp [TaskTables.abortUnless]
  | cons i ids ih =>
      simp only [TaskTables.abortUnless, List.foldl_cons, any_keep_eq h] at ih ⊢
      split
      · rename_i hkeep
        rw [ih h]
        cases hk : t.task? id with
        | none => rfl
        | some k =>
            have : id = i → keep k.taskClass = true := by
              rintro rfl
              simpa [hk] using hkeep
            simp only [Option.map_some, List.mem_cons]
            by_cases hid : id = i <;> simp [hid, this]
      · rename_i hkeep
        rw [ih (h.abort i), task?_abort]
        cases hk : t.task? id with
        | none => simp
        | some k =>
            by_cases hid : id = i
            · subst hid
              have hf : keep k.taskClass = false := by simpa [hk] using hkeep
              simp [hf, Task.requestAbort]
            · simp [hid]

end TaskTables

/-! ## The supervisor: tables that agree -/

/-- The task supervisor: its tables together with their agreement. -/
structure TaskSupervisor (β : Type) extends TaskTables β where
  coherent : toTaskTables.Coherent

namespace TaskSupervisor

def new : TaskSupervisor β := ⟨.empty, TaskTables.coherent_empty⟩

def spawn (t : TaskSupervisor β) (taskClass : TaskClass) (future : β) : TaskSupervisor β :=
  ⟨t.toTaskTables.spawn taskClass future, t.coherent.spawn taskClass future⟩

/-- The id the next spawn will take. -/
def freshId (t : TaskSupervisor β) : TaskId := ⟨t.nextId⟩

def abortUnless (t : TaskSupervisor β) (keep : TaskClass → Bool) (ids : List TaskId) :
    TaskSupervisor β :=
  ⟨TaskTables.abortUnless keep t.toTaskTables ids, t.coherent.abortUnless keep ids⟩

/-- Abort all tasks for a transaction. -/
def abortTransaction (t : TaskSupervisor β) (tx : TransactionId) : TaskSupervisor β :=
  t.abortUnless (fun _ => false) (t.tasksFor tx)

/-- Abort residual work but keep the finalizer and the event publisher. -/
def abortTransactionResiduals (t : TaskSupervisor β) (tx : TransactionId) : TaskSupervisor β :=
  t.abortUnless (fun c => c.isFinalizer || c.isEventPublisher) (t.tasksFor tx)

/-- Hard-grace abort: keep only the finalizer. -/
def abortTransactionExceptFinalizer (t : TaskSupervisor β) (tx : TransactionId) :
    TaskSupervisor β :=
  t.abortUnless TaskClass.isFinalizer (t.tasksFor tx)

/-- Abort every registered task. -/
def abortAll (t : TaskSupervisor β) : TaskSupervisor β :=
  t.abortUnless (fun _ => false) t.taskMeta.keys

/-- The executor polls a task: its future moves on. -/
def advance (t : TaskSupervisor β) (id : TaskId) (future : β) : TaskSupervisor β :=
  ⟨t.setCell id (.running future), t.coherent.setCell trivial⟩

/-- The task's wrapper returns. -/
def finish (t : TaskSupervisor β) (id : TaskId) (exit : TaskExit) : TaskSupervisor β :=
  ⟨t.setCell id (.finished (.output id exit)), t.coherent.setCell rfl⟩

/-- The executor drops an aborted future at an await point. -/
def cancel (t : TaskSupervisor β) (id : TaskId) : TaskSupervisor β :=
  ⟨t.setCell id (.finished (.joinError true)), t.coherent.setCell trivial⟩

/-- One observed join: the remaining tables and the report. -/
def joinNext (t : TaskSupervisor β) (k : TokioTaskId) :
    Option (TaskSupervisor β × Option (TaskId × TaskClass × TaskExit)) :=
  match h : t.toTaskTables.joinNext k with
  | none => none
  | some (t', out) =>
      some (⟨t', by
        obtain ⟨i, m, r, hm, _, _, rfl, _⟩ := t.coherent.joinNext h
        exact t.coherent.removed hm⟩, out)

variable (t : TaskSupervisor β)

theorem task?_freshId : t.task? t.freshId = none := t.coherent.task?_fresh

theorem task?_spawn (c : TaskClass) (f : β) (id : TaskId) :
    (t.spawn c f).task? id = if id = t.freshId then some ⟨c, false, .running f⟩ else t.task? id :=
  t.coherent.task?_spawn c f id

/-- One lemma for the three per-transaction aborts. -/
theorem task?_abortTx (keep : TaskClass → Bool) (tx : TransactionId) (id : TaskId) :
    (t.abortUnless keep (t.tasksFor tx)).task? id = (t.task? id).map fun k =>
      if k.taskClass.transactionId = some tx ∧ keep k.taskClass = false
      then k.requestAbort else k := by
  refine (t.coherent.task?_abortUnless keep _ id).trans ?_
  cases hk : t.task? id with
  | none => rfl
  | some k =>
      have hmem : id ∈ t.tasksFor tx ↔ k.taskClass.transactionId = some tx := by
        rw [t.coherent.mem_tasksFor]
        simp [hk]
      simp [hmem]

theorem task?_abortAll (id : TaskId) :
    t.abortAll.task? id = (t.task? id).map Task.requestAbort := by
  refine (t.coherent.task?_abortUnless _ _ id).trans ?_
  cases hk : t.task? id with
  | none => rfl
  | some k =>
      obtain ⟨m, hm, _⟩ := TaskTables.task?_some hk
      have hmem : id ∈ t.taskMeta.keys := (HashMap.mem_keys_iff _ _).mpr ⟨m, hm⟩
      simp [hmem]

theorem task?_advance (i : TaskId) (f : β) (id : TaskId) :
    (t.advance i f).task? id =
      if id = i then (t.task? id).map ({ · with cell := .running f }) else t.task? id :=
  t.coherent.task?_setCell i id _

theorem task?_finish (i : TaskId) (exit : TaskExit) (id : TaskId) :
    (t.finish i exit).task? id =
      if id = i then (t.task? id).map ({ · with cell := .finished (.output i exit) })
      else t.task? id :=
  t.coherent.task?_setCell i id _

theorem task?_cancel (i : TaskId) (id : TaskId) :
    (t.cancel i).task? id =
      if id = i then (t.task? id).map ({ · with cell := .finished (.joinError true) })
      else t.task? id :=
  t.coherent.task?_setCell i id _

/-- **One observed join**, on the callers' reading of the tables. -/
theorem joinNext_some {t : TaskSupervisor β} {k : TokioTaskId} {t' : TaskSupervisor β} {out}
    (h : t.joinNext k = some (t', out)) :
    ∃ i task r, t.task? i = some task ∧ task.cell = .finished r ∧
      out = some (i, task.taskClass, reportedExit task.abortRequested r) ∧
      ∀ id, t'.task? id = if id = i then none else t.task? id := by
  unfold joinNext at h
  split at h
  · cases h
  · rename_i t₁ out₁ hj
    cases h
    obtain ⟨i, m, r, hm, hmk, hr, rfl, rfl⟩ := t.coherent.joinNext hj
    refine ⟨i, ⟨m.taskClass, m.abortRequested, .finished r⟩, r, ?_, rfl, rfl, ?_⟩
    · subst hmk
      simp [TaskTables.task?, hm, hr]
    · exact fun id => t.coherent.task?_removed hm id

theorem tasksFor_eq_nil_iff (tx : TransactionId) :
    t.tasksFor tx = [] ↔ ∀ id k, t.task? id = some k → k.taskClass.transactionId ≠ some tx := by
  rw [List.eq_nil_iff_forall_not_mem]
  refine forall_congr' (fun id => ?_)
  rw [t.coherent.mem_tasksFor]
  push Not
  rfl

theorem isEmpty_iff : t.isEmpty = true ↔ ∀ id, t.task? id = none := by
  simp only [TaskTables.isEmpty, Bool.and_eq_true, List.isEmpty_iff]
  constructor
  · rintro ⟨hm, _⟩ id
    simp [TaskTables.task?, (HashMap.keys_eq_nil_iff _).mp hm id]
  · intro h
    have hmeta : ∀ id, t.taskMeta.lookup id = none := by
      intro id
      cases hm : t.taskMeta.lookup id with
      | none => rfl
      | some m =>
          obtain ⟨c, _, hk⟩ := t.coherent.task?_eq hm
          rw [h id] at hk
          cases hk
    refine ⟨(HashMap.keys_eq_nil_iff _).mpr hmeta, (HashMap.keys_eq_nil_iff _).mpr ?_⟩
    intro k
    cases hc : t.joins.lookup k with
    | none => rfl
    | some c =>
        obtain ⟨id, hid⟩ := (t.coherent.joined k).mp ⟨c, hc⟩
        obtain ⟨m, hm, _⟩ := t.coherent.metaOf hid
        rw [hmeta id] at hm
        cases hm

end TaskSupervisor

end Monoloop.Lifecycle
