import Monoloop.Lifecycle.TaskSupervisor
import Monoloop.Lib.Transition

/-!
# Every task is reaped once

The supervisor by itself: any sequence of spawns, aborts and reaps, with the executor
running and finishing tasks in between. The three maps are compared with the join set
through two logs that the source does not keep: what each `spawn` registered, and what
was reported for each join the set yielded.

Here the id counter is the source's own, 64 bits wide and saturating. From the `2 ^ 64`th
spawn on every task gets the largest id, and the maps disagree as soon as two tasks that
have it are registered at once.
-/

namespace Monoloop.Lifecycle

open Transition (System)

/-- A task as `spawn` registered it; the wrapper captures `id`. -/
structure SpawnedTask where
  id : TaskId
  tokioId : TokioTaskId
  taskClass : TaskClass

/-- The tables, the tasks ever spawned, and the joins the set has yielded with what
`reap_finished` returned for each. -/
structure Supervision (β : Type) where
  tables : TaskTables β
  spawned : List SpawnedTask
  reaped : List (TokioTaskId × Option (TaskId × TaskClass × TaskExit))

inductive SupervisorAction (β : Type) where
  | spawn (taskClass : TaskClass) (future : β)
  | abort (id : TaskId)
  | abortTransaction (tx : TransactionId)
  | abortTransactionResiduals (tx : TransactionId)
  | abortTransactionExceptFinalizer (tx : TransactionId)
  | abortAll
  /-- The executor polls a future and it stays pending. -/
  | poll (k : TokioTaskId) (future : β)
  /-- The wrapper returns its tuple. -/
  | finish (k : TokioTaskId) (exit : TaskExit)
  /-- The executor drops the future of an aborted task, or the wrapper itself panics. -/
  | joinError (k : TokioTaskId) (isCancelled : Bool)
  /-- One join is observed: `join_next`, or a turn of the loop of `try_reap_finished`. -/
  | joinNext (k : TokioTaskId)
  /-- `abort_and_drain` has found the join set empty. -/
  | drained

def SupervisorAction.isSpawn {β : Type} : SupervisorAction β → Bool
  | .spawn _ _ => true
  | _ => false

variable {β : Type}

namespace Supervision

def new : Supervision β := ⟨.empty, [], []⟩

/-- `next_id.saturating_add(1)`. -/
def nextAfter (nextId : Nat) : Nat := min (nextId + 1) (2 ^ 64 - 1)

def spawn (s : Supervision β) (taskClass : TaskClass) (future : β) : Supervision β :=
  { s with
    tables := s.tables.register ⟨s.tables.nextId⟩ taskClass future (nextAfter s.tables.nextId)
    spawned := s.spawned ++ [⟨⟨s.tables.nextId⟩, ⟨s.tables.nextTokio⟩, taskClass⟩] }

/-- A task that is still running gets a new cell. -/
def setCell (s : Supervision β) (k : TokioTaskId) (cell : SpawnedTask → JoinCell β) :
    Option (Supervision β) :=
  match s.tables.joins.lookup k, s.spawned.find? (·.tokioId = k) with
  | some (.running _), some r =>
      some { s with
        tables := { s.tables with joins := HashMap.modify s.tables.joins k fun _ => cell r } }
  | _, _ => none

def abortUnless (s : Supervision β) (keep : TaskClass → Bool) (ids : List TaskId) :
    Supervision β :=
  { s with tables := TaskTables.abortUnless keep s.tables ids }

end Supervision

def stepSupervision : SupervisorAction β → Supervision β → Option (Supervision β)
  | .spawn taskClass future, s => some (s.spawn taskClass future)
  | .abort id, s => some { s with tables := s.tables.abort id }
  | .abortTransaction tx, s => some (s.abortUnless (fun _ => false) (s.tables.tasksFor tx))
  | .abortTransactionResiduals tx, s =>
      some (s.abortUnless (fun c => c.isFinalizer || c.isEventPublisher) (s.tables.tasksFor tx))
  | .abortTransactionExceptFinalizer tx, s =>
      some (s.abortUnless TaskClass.isFinalizer (s.tables.tasksFor tx))
  | .abortAll, s => some (s.abortUnless (fun _ => false) s.tables.taskMeta.keys)
  | .poll k future, s => s.setCell k fun _ => .running future
  | .finish k exit, s => s.setCell k fun r => .finished (.output r.id exit)
  | .joinError k isCancelled, s => s.setCell k fun _ => .finished (.joinError isCancelled)
  | .joinNext k, s =>
      (s.tables.joinNext k).map fun (tables, out) =>
        { s with tables, reaped := s.reaped ++ [(k, out)] }
  | .drained, s =>
      if s.tables.joins.keys.isEmpty then
        some { s with
          tables := { s.tables with taskMeta := ∅, byTransaction := ∅, byTokioId := ∅ } }
      else none

def supervision : System (Supervision β) (SupervisorAction β) where
  init s := s = .new
  step := stepSupervision

namespace Supervision

/-- The task was spawned and the join set has not yielded it. -/
def Unreaped (s : Supervision β) (r : SpawnedTask) : Prop :=
  r ∈ s.spawned ∧ ∃ cell, s.tables.joins.lookup r.tokioId = some cell

/-- What was reported for the joins of a task. -/
def reportsOf (s : Supervision β) (r : SpawnedTask) :
    List (Option (TaskId × TaskClass × TaskExit)) :=
  (s.reaped.filter (·.1 = r.tokioId)).map (·.2)

/-- Each map describes the unreaped tasks, `tasks_for` is empty exactly if the transaction
has none, and every task is reported once, under the class it was spawned with, when the
join set has yielded it, and never before. -/
structure Agrees (s : Supervision β) : Prop where
  taskMeta : ∀ r, s.Unreaped r ↔ ∃ m, s.tables.taskMeta.lookup r.id = some m ∧
    m.tokioId = r.tokioId ∧ m.taskClass = r.taskClass
  byTokioId : ∀ k id, s.tables.byTokioId.lookup k = some id ↔
    ∃ r, s.Unreaped r ∧ r.tokioId = k ∧ r.id = id
  byTransaction : ∀ tx id,
    (∃ ids, s.tables.byTransaction.lookup tx = some ids ∧ id ∈ ids) ↔
      ∃ r, s.Unreaped r ∧ r.id = id ∧ r.taskClass.transactionId = some tx
  tasksFor : ∀ tx, s.tables.tasksFor tx = [] ↔
    ∀ r, s.Unreaped r → r.taskClass.transactionId ≠ some tx
  unreported : ∀ r, s.Unreaped r → s.reportsOf r = []
  reported : ∀ r ∈ s.spawned, ¬ s.Unreaped r →
    ∃ exit, s.reportsOf r = [some (r.id, r.taskClass, exit)]

/-- No registered task has the id that the spawn takes. -/
def IdFree (s : Supervision β) : SupervisorAction β → Prop
  | .spawn _ _ => s.tables.taskMeta.lookup ⟨s.tables.nextId⟩ = none
  | _ => True

/-! ## The maps and the logs -/

variable {s s' : Supervision β}

/-- What every step keeps. The counter is left out of the agreement of the tables: an id
below it is what a saturated one cannot promise. -/
structure Tracked (s : Supervision β) : Prop where
  coherent : ∃ n, TaskTables.Coherent { s.tables with nextId := n }
  registered : ∀ id m, s.tables.taskMeta.lookup id = some m →
    ⟨id, m.tokioId, m.taskClass⟩ ∈ s.spawned
  distinct : ∀ r ∈ s.spawned, ∀ r' ∈ s.spawned, r.tokioId = r'.tokioId → r = r'
  early : ∀ r ∈ s.spawned, r.tokioId.val < s.tables.nextTokio
  gone : ∀ p ∈ s.reaped, s.tables.joins.lookup p.1 = none ∧ p.1.val < s.tables.nextTokio
  once : ∀ r ∈ s.spawned, s.tables.joins.lookup r.tokioId = none →
    ∃ exit, s.reportsOf r = [some (r.id, r.taskClass, exit)]

namespace Tracked

theorem start : Tracked (new : Supervision β) where
  coherent := ⟨1, TaskTables.coherent_empty⟩
  registered id m hm := by cases hm
  distinct r hr := by cases hr
  early r hr := by cases hr
  gone p hp := by cases hp
  once r hr := by cases hr

theorem unreaped_iff (h : s.Tracked) (r : SpawnedTask) :
    s.Unreaped r ↔ ∃ m, s.tables.taskMeta.lookup r.id = some m ∧ m.tokioId = r.tokioId ∧
      m.taskClass = r.taskClass := by
  obtain ⟨n, hc⟩ := h.coherent
  constructor
  · rintro ⟨hr, hcell⟩
    obtain ⟨id, hid⟩ := (hc.joined r.tokioId).mp hcell
    obtain ⟨m, hm, hmk⟩ := hc.metaOf hid
    have heq := h.distinct _ (h.registered id m hm) r hr hmk
    refine ⟨m, ?_, hmk, congrArg SpawnedTask.taskClass heq⟩
    rw [← congrArg SpawnedTask.id heq]
    exact hm
  · rintro ⟨m, hm, hmk, hclass⟩
    refine ⟨?_, hmk ▸ hc.cell_of_meta hm⟩
    have hmem := h.registered r.id m hm
    rw [hmk, hclass] at hmem
    exact hmem

theorem mem_tasksFor (h : s.Tracked) (tx : TransactionId) (id : TaskId) :
    id ∈ s.tables.tasksFor tx ↔
      ∃ r, s.Unreaped r ∧ r.id = id ∧ r.taskClass.transactionId = some tx := by
  obtain ⟨n, hc⟩ := h.coherent
  refine (hc.index tx id).trans ⟨?_, ?_⟩
  · rintro ⟨m, hm, htx⟩
    exact ⟨⟨id, m.tokioId, m.taskClass⟩, (h.unreaped_iff _).mpr ⟨m, hm, rfl, rfl⟩, rfl, htx⟩
  · rintro ⟨r, hr, rfl, htx⟩
    obtain ⟨m, hm, -, hclass⟩ := (h.unreaped_iff r).mp hr
    exact ⟨m, hm, hclass ▸ htx⟩

theorem agrees (h : s.Tracked) : s.Agrees where
  taskMeta := h.unreaped_iff
  byTokioId := by
    obtain ⟨n, hc⟩ := h.coherent
    intro k id
    constructor
    · intro hk
      obtain ⟨m, hm, hmk⟩ := hc.metaOf hk
      exact ⟨⟨id, m.tokioId, m.taskClass⟩, (h.unreaped_iff _).mpr ⟨m, hm, rfl, rfl⟩, hmk, rfl⟩
    · rintro ⟨r, hr, rfl, rfl⟩
      obtain ⟨m, hm, hmk, -⟩ := (h.unreaped_iff r).mp hr
      rw [← hmk]
      exact hc.tokio hm
  byTransaction := by
    intro tx id
    rw [← h.mem_tasksFor]
    unfold TaskTables.tasksFor
    cases s.tables.byTransaction.lookup tx with
    | none => simp
    | some ids => simp
  tasksFor := by
    intro tx
    rw [List.eq_nil_iff_forall_not_mem]
    constructor
    · intro hnone r hr htx
      exact hnone r.id ((h.mem_tasksFor tx r.id).mpr ⟨r, hr, rfl, htx⟩)
    · intro hall id hid
      obtain ⟨r, hr, -, htx⟩ := (h.mem_tasksFor tx id).mp hid
      exact hall r hr htx
  unreported := by
    rintro r ⟨-, cell, hcell⟩
    unfold reportsOf
    rw [List.map_eq_nil_iff, List.filter_eq_nil_iff]
    intro p hp hk
    rw [← of_decide_eq_true hk, (h.gone p hp).1] at hcell
    cases hcell
  reported := by
    intro r hr hreaped
    apply h.once r hr
    cases hcell : s.tables.joins.lookup r.tokioId with
    | none => rfl
    | some cell => exact absurd ⟨hr, cell, hcell⟩ hreaped

/-! ## Spawn -/

theorem spawn (h : s.Tracked) (hfree : s.tables.taskMeta.lookup ⟨s.tables.nextId⟩ = none)
    (c : TaskClass) (f : β) : (s.spawn c f).Tracked where
  coherent := by
    obtain ⟨n, hc⟩ := h.coherent
    refine ⟨max n (s.tables.nextId + 1), ?_⟩
    exact hc.register hfree (Nat.lt_of_lt_of_le (Nat.lt_succ_self _) (Nat.le_max_right ..))
      (Nat.le_max_left ..) c f
  registered := by
    intro id m hm
    have hm : (s.tables.taskMeta.insert ⟨s.tables.nextId⟩ _).lookup id = some m := hm
    rw [HashMap.lookup_insert_ite] at hm
    split at hm
    · rename_i hid
      cases hm
      rw [hid]
      exact List.mem_append_right _ (List.mem_singleton_self _)
    · exact List.mem_append_left _ (h.registered id m hm)
  distinct := by
    intro r hr r' hr' heq
    have hval := congrArg TokioTaskId.val heq
    rcases List.mem_append.mp hr with hr | hr <;> rcases List.mem_append.mp hr' with hr' | hr'
    · exact h.distinct r hr r' hr' heq
    · obtain rfl := List.mem_singleton.mp hr'
      exact absurd hval (Nat.ne_of_lt (h.early r hr))
    · obtain rfl := List.mem_singleton.mp hr
      exact absurd hval.symm (Nat.ne_of_lt (h.early r' hr'))
    · rw [List.mem_singleton.mp hr, List.mem_singleton.mp hr']
  early := by
    intro r hr
    show r.tokioId.val < s.tables.nextTokio + 1
    rcases List.mem_append.mp hr with hr | hr
    · exact Nat.lt_succ_of_lt (h.early r hr)
    · rw [List.mem_singleton.mp hr]
      exact Nat.lt_succ_self _
  gone := by
    intro p hp
    obtain ⟨hnone, hlt⟩ := h.gone p hp
    refine ⟨?_, Nat.lt_succ_of_lt hlt⟩
    show (s.tables.joins.insert ⟨s.tables.nextTokio⟩ _).lookup p.1 = none
    rw [HashMap.lookup_insert_ite, if_neg, hnone]
    intro heq
    rw [heq] at hlt
    exact Nat.lt_irrefl _ hlt
  once := by
    intro r hr hnone
    have hnone : (s.tables.joins.insert ⟨s.tables.nextTokio⟩ _).lookup r.tokioId = none := hnone
    rw [HashMap.lookup_insert_ite] at hnone
    split at hnone
    · cases hnone
    · rename_i hne
      rcases List.mem_append.mp hr with hr | hr
      · exact h.once r hr hnone
      · rw [List.mem_singleton.mp hr] at hne
        exact absurd rfl hne

theorem abort (h : s.Tracked) (i : TaskId) : Tracked { s with tables := s.tables.abort i } where
  coherent := by
    obtain ⟨n, hc⟩ := h.coherent
    exact ⟨n, hc.abort i⟩
  registered := by
    intro id m hm
    obtain ⟨m₀, hm₀, hclass, htokio⟩ := TaskTables.lookup_abort s.tables i hm
    rw [hclass, htokio]
    exact h.registered id m₀ hm₀
  distinct := h.distinct
  early := h.early
  gone := h.gone
  once := h.once

theorem abortUnless (h : s.Tracked) (keep : TaskClass → Bool) (ids : List TaskId) :
    (s.abortUnless keep ids).Tracked := by
  induction ids generalizing s with
  | nil => exact h
  | cons i rest ih =>
      simp only [Supervision.abortUnless, TaskTables.abortUnless, List.foldl_cons]
      split
      · exact ih h
      · exact ih (h.abort i)

theorem setCell (h : s.Tracked) {k : TokioTaskId} {cell : SpawnedTask → JoinCell β}
    (hcell : ∀ r, TaskTables.CellFor r.id (cell r)) (hstep : s.setCell k cell = some s') :
    s'.Tracked := by
  unfold Supervision.setCell at hstep
  split at hstep
  · rename_i future r hk hr
    cases hstep
    have hrk : r.tokioId = k := by simpa using List.find?_some hr
    subst hrk
    obtain ⟨m, hm, hmk, -⟩ := (h.unreaped_iff r).mp ⟨List.mem_of_find?_eq_some hr, _, hk⟩
    have hsome : ∀ k', (HashMap.modify s.tables.joins r.tokioId fun _ => cell r).lookup k' = none ↔
        s.tables.joins.lookup k' = none := by
      intro k'
      rw [HashMap.lookup_modify]
      split
      · exact Option.map_eq_none_iff
      · rfl
    refine ⟨?_, h.registered, h.distinct, h.early, ?_, ?_⟩
    · -- the executor's own index leads to the task that the maps know under this id
      obtain ⟨n, hc⟩ := h.coherent
      have hset := hc.setCell (hcell r)
      unfold TaskTables.setCell at hset
      rw [show TaskTables.taskMeta { s.tables with nextId := n } = s.tables.taskMeta from rfl, hm]
        at hset
      rw [← hmk]
      exact ⟨n, hset⟩
    · intro p hp
      exact ⟨(hsome p.1).mpr (h.gone p hp).1, (h.gone p hp).2⟩
    · intro r' hr' hnone
      exact h.once r' hr' ((hsome r'.tokioId).mp hnone)
  · cases hstep

/-- Reaping neither reads nor writes the counter. -/
theorem joinNext_nextId (t : TaskTables β) (n : Nat) (k : TokioTaskId) :
    TaskTables.joinNext { t with nextId := n } k =
      (t.joinNext k).map fun p => ({ p.1 with nextId := n }, p.2) := by
  unfold TaskTables.joinNext
  cases hk : t.joins.lookup k with
  | none => rfl
  | some cell =>
      cases cell with
      | running future => rfl
      | finished result =>
          simp only [TaskTables.reapFinished, TaskTables.finishedId, TaskTables.findFinishedMeta,
            TaskTables.deregister, Option.map_some]
          split
          · rfl
          · rename_i id _
            cases t.taskMeta.lookup id <;> rfl

theorem joinNext (h : s.Tracked) {k : TokioTaskId} {tables : TaskTables β} {out}
    (hstep : s.tables.joinNext k = some (tables, out)) :
    Tracked { s with tables, reaped := s.reaped ++ [(k, out)] } := by
  obtain ⟨n, hc⟩ := h.coherent
  obtain ⟨i, m, r, hm, hmk, hk, htables, hout⟩ :=
    hc.joinNext ((joinNext_nextId s.tables n k).trans (congrArg _ hstep))
  subst hmk
  have htables : TaskTables.mk tables.joins tables.taskMeta tables.byTransaction tables.byTokioId n
      tables.nextTokio = TaskTables.removed { s.tables with nextId := n } i m := htables
  have hout : out = some (i, m.taskClass, reportedExit m.abortRequested r) := hout
  have hmeta : tables.taskMeta = s.tables.taskMeta.erase i := congrArg TaskTables.taskMeta htables
  have hjoins : tables.joins = s.tables.joins.erase m.tokioId := congrArg TaskTables.joins htables
  have hnext : tables.nextTokio = s.tables.nextTokio := by
    have hfields := congrArg TaskTables.nextTokio htables
    exact hfields
  have hown := h.registered i m hm
  refine ⟨⟨n, htables ▸ hc.removed hm⟩, ?_, h.distinct, hnext ▸ h.early, ?_, ?_⟩
  · intro id m' hm'
    have hm' : tables.taskMeta.lookup id = some m' := hm'
    rw [hmeta, HashMap.lookup_erase_ite] at hm'
    split at hm'
    · cases hm'
    · exact h.registered id m' hm'
  · intro p hp
    show tables.joins.lookup p.1 = none ∧ p.1.val < tables.nextTokio
    rw [hjoins, hnext, HashMap.lookup_erase_ite]
    rcases List.mem_append.mp hp with hp | hp
    · obtain ⟨hnone, hlt⟩ := h.gone p hp
      rw [hnone]
      exact ⟨ite_self none, hlt⟩
    · rw [List.mem_singleton.mp hp]
      exact ⟨if_pos rfl, h.early _ hown⟩
  · intro r' hr' hnone
    have hnone : tables.joins.lookup r'.tokioId = none := hnone
    rw [hjoins, HashMap.lookup_erase_ite] at hnone
    show ∃ exit, ((s.reaped ++ [(m.tokioId, out)]).filter _).map _ = _
    rw [List.filter_append, List.map_append]
    by_cases hk' : r'.tokioId = m.tokioId
    · -- the task whose join was just yielded had no report yet
      obtain rfl := h.distinct r' hr' _ hown hk'
      have hnothing := h.agrees.unreported _ ⟨hown, _, hk⟩
      unfold reportsOf at hnothing
      rw [hnothing, hout]
      exact ⟨reportedExit m.abortRequested r, by simp⟩
    · rw [if_neg hk'] at hnone
      obtain ⟨exit, hexit⟩ := h.once r' hr' hnone
      unfold reportsOf at hexit
      rw [hexit]
      exact ⟨exit, by simp [Ne.symm hk']⟩

/-- Nothing is left in the maps that `abort_and_drain` clears. -/
theorem drained (h : s.Tracked) (hempty : s.tables.joins.keys = []) :
    Tracked { s with tables := { s.tables with taskMeta := ∅, byTransaction := ∅, byTokioId := ∅ } }
    where
  coherent := by
    have hnone := (HashMap.keys_eq_nil_iff _).mp hempty
    refine ⟨s.tables.nextId, ?_, ?_, ?_, ?_, ?_, ?_, ?_⟩
    · intro id m hm
      cases hm
    · intro k id hk
      cases hk
    · intro tx id
      simp [TaskTables.tasksFor]
    · intro k
      simp [hnone]
    · intro k id e hk
      rw [show TaskTables.joins _ = s.tables.joins from rfl, hnone k] at hk
      cases hk
    · intro id m hm
      cases hm
    · intro k c hk
      rw [show TaskTables.joins _ = s.tables.joins from rfl, hnone k] at hk
      cases hk
  registered id m hm := by cases hm
  distinct := h.distinct
  early := h.early
  gone := h.gone
  once := h.once

theorem step {a : SupervisorAction β} (h : s.Tracked) (hfree : s.IdFree a)
    (hstep : supervision.step a s = some s') : s'.Tracked := by
  cases a with
  | spawn c f =>
      cases hstep
      exact h.spawn hfree c f
  | abort id =>
      cases hstep
      exact h.abort id
  | abortTransaction tx =>
      cases hstep
      exact h.abortUnless _ _
  | abortTransactionResiduals tx =>
      cases hstep
      exact h.abortUnless _ _
  | abortTransactionExceptFinalizer tx =>
      cases hstep
      exact h.abortUnless _ _
  | abortAll =>
      cases hstep
      exact h.abortUnless _ _
  | poll k f =>
      refine h.setCell ?_ hstep
      intro r
      trivial
  | finish k exit =>
      refine h.setCell ?_ hstep
      intro r
      rfl
  | joinError k isCancelled =>
      refine h.setCell ?_ hstep
      intro r
      trivial
  | joinNext k =>
      obtain ⟨⟨tables, out⟩, hjoin, rfl⟩ := Option.map_eq_some_iff.mp hstep
      exact h.joinNext hjoin
  | drained =>
      have hstep : (if s.tables.joins.keys.isEmpty then _ else none) = some s' := hstep
      split at hstep
      · rename_i hempty
        cases hstep
        exact h.drained (List.isEmpty_iff.mp hempty)
      · cases hstep

end Tracked

/-! ## Below `2 ^ 64` spawns every id is free -/

theorem abortUnless_nextId (keep : TaskClass → Bool) (t : TaskTables β) (ids : List TaskId) :
    (TaskTables.abortUnless keep t ids).nextId = t.nextId := by
  induction ids generalizing t with
  | nil => rfl
  | cons i rest ih =>
      simp only [TaskTables.abortUnless, List.foldl_cons] at ih ⊢
      rw [ih]
      split <;> rfl

theorem setCell_frame {k : TokioTaskId} {cell : SpawnedTask → JoinCell β}
    (hstep : s.setCell k cell = some s') :
    s'.tables.nextId = s.tables.nextId ∧ s'.spawned = s.spawned := by
  unfold Supervision.setCell at hstep
  split at hstep
  · cases hstep
    exact ⟨rfl, rfl⟩
  · cases hstep

/-- Only `spawn` moves the counter. -/
theorem step_frame {a : SupervisorAction β} (ha : a.isSpawn = false)
    (hstep : supervision.step a s = some s') :
    s'.tables.nextId = s.tables.nextId ∧ s'.spawned = s.spawned := by
  cases a with
  | spawn c f => cases ha
  | abort id =>
      cases hstep
      exact ⟨rfl, rfl⟩
  | poll k f => exact setCell_frame hstep
  | finish k exit => exact setCell_frame hstep
  | joinError k isCancelled => exact setCell_frame hstep
  | joinNext k =>
      obtain ⟨⟨tables, out⟩, hjoin, rfl⟩ := Option.map_eq_some_iff.mp hstep
      have hsame := Tracked.joinNext_nextId s.tables s.tables.nextId k
      rw [show TaskTables.joinNext _ k = s.tables.joinNext k from rfl, hjoin] at hsame
      exact ⟨congrArg (·.1.nextId) (Option.some.inj hsame), rfl⟩
  | drained =>
      have hstep : (if s.tables.joins.keys.isEmpty then _ else none) = some s' := hstep
      split at hstep
      · cases hstep
        exact ⟨rfl, rfl⟩
      · cases hstep
  | _ =>
      cases hstep
      exact ⟨abortUnless_nextId _ _ _, rfl⟩

/-- The counter has counted the spawns, as far as it goes. -/
structure Numbered (s : Supervision β) : Prop where
  counter : s.tables.nextId = min (s.spawned.length + 1) (2 ^ 64 - 1)
  ids : ∀ r ∈ s.spawned, r.id.val ≤ s.spawned.length

namespace Numbered

theorem start : Numbered (new : Supervision β) where
  counter := by
    show 1 = min (0 + 1) (2 ^ 64 - 1)
    decide
  ids r hr := by cases hr

theorem spawn (h : s.Numbered) (c : TaskClass) (f : β) : (s.spawn c f).Numbered where
  counter := by
    show nextAfter s.tables.nextId = min ((s.spawned ++ [_]).length + 1) (2 ^ 64 - 1)
    rw [nextAfter, h.counter, List.length_append, List.length_singleton]
    omega
  ids := by
    intro r hr
    show r.id.val ≤ (s.spawned ++ [_]).length
    rw [List.length_append, List.length_singleton]
    rcases List.mem_append.mp hr with hr | hr
    · exact Nat.le_succ_of_le (h.ids r hr)
    · rw [List.mem_singleton.mp hr]
      show s.tables.nextId ≤ s.spawned.length + 1
      rw [h.counter]
      exact Nat.min_le_left ..

theorem idFree (h : s.Numbered) (htracked : s.Tracked) (hlt : s.spawned.length + 1 < 2 ^ 64) :
    s.tables.taskMeta.lookup ⟨s.tables.nextId⟩ = none := by
  cases hm : s.tables.taskMeta.lookup ⟨s.tables.nextId⟩ with
  | none => rfl
  | some m =>
      have hle : s.tables.nextId ≤ s.spawned.length := h.ids _ (htracked.registered _ m hm)
      have hcounter := h.counter
      omega

end Numbered

/-- Tasks of one class spawned one after the other. -/
theorem spawns (c : TaskClass) (f : β) {n : Nat} (htracked : s.Tracked) (hnumbered : s.Numbered)
    (hn : s.spawned.length + n < 2 ^ 64) :
    ∃ s', supervision.run (List.replicate n (.spawn c f)) s = some s' ∧ s'.Tracked ∧ s'.Numbered ∧
      s'.spawned.length = s.spawned.length + n := by
  induction n generalizing s with
  | zero => exact ⟨s, rfl, htracked, hnumbered, rfl⟩
  | succ n ih =>
      have hfree := hnumbered.idFree htracked (by omega)
      have hlen : (s.spawn c f).spawned.length = s.spawned.length + 1 := List.length_append
      obtain ⟨s', hrun, htracked', hnumbered', hlen'⟩ :=
        ih (htracked.spawn hfree c f) (hnumbered.spawn c f) (by omega)
      exact ⟨s', hrun, htracked', hnumbered', by omega⟩

end Supervision

end Monoloop.Lifecycle
