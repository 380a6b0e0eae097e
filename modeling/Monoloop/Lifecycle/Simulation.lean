import Monoloop.Lifecycle.View

/-!
# Every step of the runtime is a step of each view

`LoopInv` is what the supervisor loop keeps about its own agenda. Under it,
`step_view` shows that one step of the runtime moves the view of every
transaction along `TxStep`. Each handler has one lemma about the view of the
transaction it was called for and of the others.
-/

namespace Monoloop.Lifecycle

open Mcp (CapabilityToken)
open TxView (Drains Quiet)

variable {s u s' : Runtime} {a : Action} {tx tx' : TransactionId}

/-! ## Steps that touch no row, task or observation -/

theorem mailOf_subset {q q' : List WorkerExited} (h : q' ⊆ q) : mailOf q' tx ⊆ mailOf q tx := by
  intro p hp
  simp only [mailOf, List.mem_map, List.mem_filter] at hp ⊢
  obtain ⟨m, ⟨hm, htx⟩, rfl⟩ := hp
  exact ⟨m, ⟨h hm, htx⟩, rfl⟩

theorem exitsOf_subset {l l' : List Work}
    (h : l'.flatMap Work.reports ⊆ l.flatMap Work.reports) : exitsOf l' tx ⊆ exitsOf l tx := by
  intro c hc
  simp only [exitsOf, List.mem_filter] at hc ⊢
  exact ⟨h hc.1, hc.2⟩

/-- The runtimes differ in what no view shows, up to drained queues. -/
structure Quiets (s s' : Runtime) : Prop where
  ledger : s'.ledger = s.ledger
  tasks : s'.tasks = s.tasks
  history : s'.history = s.history
  mail : s'.workerQueue ⊆ s.workerQueue
  reports : s'.agenda.flatMap Work.reports ⊆ s.agenda.flatMap Work.reports
  routes : ∀ token tx, s'.routes.owner token = some tx → s.routes.owner token = some tx

theorem Quiets.quiet (h : Quiets s s') (tx : TransactionId) : (view s tx).Quiet (view s' tx) where
  mail := mailOf_subset h.mail
  exited := exitsOf_subset h.reports
  route token := h.routes token tx
  row := by simp [Lifecycle.view, h.ledger]
  task := by simp [Lifecycle.view, h.tasks]
  seen := by simp [Lifecycle.view, h.history]

theorem Quiets.step (h : Quiets s s') : TxStep s a tx (view s tx) (view s' tx) :=
  .still (h.quiet tx)

/-! ## Handlers -/

theorem view_acceptTerminal_ne (h : tx' ≠ tx) (p : TerminalProposal) (force : Bool)
    (source : TerminalSource) :
    view (s.acceptTerminal tx' p force source) tx = view s tx := by
  have hne : ¬ tx = tx' := fun heq => h heq.symm
  unfold Runtime.acceptTerminal
  split
  · rfl
  · dsimp only
    split
    · simp [view, Runtime.observe, LifecycleLedger.get_modify, hne, tasksOf_spawn, h,
        TaskClass.transactionId, historyOf, Obs.transactionId]
    · simp [view, LifecycleLedger.get_modify, hne]

/-- `acceptTerminal` after quiet preparations is one step of every view. -/
theorem acceptTerminal_step {v : TxView} {p : TerminalProposal} {force : Bool}
    {source : TerminalSource} (hq : v.Quiet (view u tx))
    (horigin : ∀ e, tx' = tx → v.row = some e → e.terminal = none → Origin v tx e p source)
    (hforce : tx' = tx → force = true → s.takesControl a = some (.forceTerminate tx)) :
    TxStep s a tx v (view (u.acceptTerminal tx' p force source) tx) := by
  by_cases htx : tx' = tx
  · subst htx
    unfold Runtime.acceptTerminal
    cases hrow : u.ledger.get tx' with
    | none => exact .still hq
    | some e =>
        have hold : v.row = some e := by rw [← hq.row, view, hrow]
        dsimp only
        split
        · rename_i hnone
          have hterm : e.terminal = none := by simpa using hnone
          refine .decided e p force source u.tasks.freshId ⟨hq.mail, hq.exited, hq.route⟩ hold
            hterm (horigin e rfl hold hterm) ?_ ?_ (congrFun ?_) ?_
          · rw [← hq.task]
            exact tasksOf_freshId
          · simp [view, Runtime.observe, LifecycleLedger.get_modify, hrow]
          · rw [← hq.task_eq]
            simp [view, Runtime.observe, tasksOf_spawn, TaskClass.transactionId]
          · rw [← hq.seen]
            simp [view, Runtime.observe, historyOf, Obs.transactionId]
        · rename_i hsome
          refine .late e p force ⟨hq.mail, hq.exited, hq.route⟩ hold ?_ (hforce rfl) ?_ hq.task
            hq.seen
          · exact Option.isSome_iff_ne_none.mpr (by simpa using hsome)
          · simp [view, LifecycleLedger.get_modify, hrow]
  · rw [view_acceptTerminal_ne htx]
    exact .still hq

theorem view_forceRemove_ne (h : tx' ≠ tx) : view (s.forceRemoveTombstone tx') tx = view s tx := by
  have hne : ¬ tx = tx' := fun heq => h heq.symm
  unfold Runtime.forceRemoveTombstone
  split
  · rfl
  · unfold Runtime.dropEntry
    split <;>
      simp [view, Runtime.observe, LifecycleLedger.get_remove, hne, historyOf, Obs.transactionId, h]

/-- Removing the row of a transaction without tasks. -/
theorem forceRemove_step {v : TxView} (hq : v.Quiet (view u tx))
    (hidle : tx' = tx → ∀ id, v.task id = none)
    (hpast : ∀ e, tx' = tx → v.row = some e →
      e.phase = .cleanupPending ∨ e.phase = .finalizing ∨ e.terminal.isSome) :
    TxStep s a tx v (view (u.forceRemoveTombstone tx') tx) := by
  by_cases htx : tx' = tx
  · subst htx
    unfold Runtime.forceRemoveTombstone
    cases hrow : u.ledger.get tx' with
    | none => exact .still hq
    | some e =>
        have hold : v.row = some e := by rw [← hq.row, view, hrow]
        have hview : view (({ u with ledger := (u.ledger.remove tx').1 }.dropEntry e).observe
            (.removed tx' e)) tx' =
            { view u tx' with row := none, seen := .removed tx' e :: (view u tx').seen } := by
          unfold Runtime.dropEntry
          split <;>
            simp [view, Runtime.observe, LifecycleLedger.get_remove, historyOf, Obs.transactionId]
        simp only [hview]
        refine .removed e ⟨hq.mail, hq.exited, hq.route⟩ hold (hidle rfl) (hpast e rfl hold) rfl
          hq.task ?_
        rw [hq.seen]
  · rw [view_forceRemove_ne htx]
    exact .still hq

theorem tryRemove_step {v : TxView} (hq : v.Quiet (view u tx))
    (hidle : tx' = tx → ∀ id, v.task id = none) :
    TxStep s a tx v (view (u.tryRemoveTombstone tx') tx) := by
  unfold Runtime.tryRemoveTombstone
  cases hrow : u.ledger.get tx' with
  | none => exact .still hq
  | some e =>
      dsimp only
      split
      · rename_i hphase
        refine forceRemove_step hq hidle ?_
        rintro e' rfl hold
        have : e' = e := by
          rw [← hq.row, view, hrow] at hold
          exact (Option.some.inj hold).symm
        subst this
        exact hphase.elim .inl (fun h => .inr (.inl h))
      · exact .still hq

/-- An abort of one transaction's tasks after quiet preparations. -/
theorem abort_step {v : TxView} {keep : TaskClass → Bool} (hq : v.Quiet (view u tx))
    (hspares : tx' = tx → keep (.finalizer tx) = true ∨ .finalizer tx ∈ v.exited ∨
      v.row = none ∨ s.abortsAll a) :
    TxStep s a tx v
      (view { u with tasks := u.tasks.abortUnless keep (u.tasks.tasksFor tx') } tx) := by
  by_cases htx : tx' = tx
  · subst htx
    refine .aborted keep false ⟨hq.mail, hq.exited, hq.route⟩ (hspares rfl) ?_ (congrFun ?_) hq.seen
    · rw [← hq.row]
      simp [view]
    · rw [← hq.task_eq]
      simp [view, tasksOf_abortTx]
  · have : view { u with tasks := u.tasks.abortUnless keep (u.tasks.tasksFor tx') } tx =
        view u tx := by
      simp [view, tasksOf_abortTx, htx]
    rw [this]
    exact .still hq

theorem abortAll_step {v : TxView} (hq : v.Quiet (view u tx))
    (hspares : v.row = none ∨ s.abortsAll a) :
    TxStep s a tx v (view { u with tasks := u.tasks.abortAll } tx) := by
  refine .aborted (fun _ => false) false ⟨hq.mail, hq.exited, hq.route⟩
    (.inr (.inr hspares)) ?_ (congrFun ?_) hq.seen
  · rw [← hq.row]
    simp [view]
  · rw [← hq.task_eq]
    simp only [view, tasksOf_abortAll]

theorem shutdownRow_step {v : TxView} (hq : v.Quiet (view u tx)) :
    TxStep s a tx v (view (u.shutdownRow tx') tx) := by
  unfold Runtime.shutdownRow
  split
  · by_cases htx : tx' = tx
    · subst htx
      refine .aborted (fun c => c.isFinalizer || c.isEventPublisher) true
        ⟨hq.mail, hq.exited, hq.route⟩ (.inl rfl) ?_ (congrFun ?_) hq.seen
      · rw [← hq.row]
        simp [view, LifecycleLedger.get_modify]
      · rw [← hq.task_eq]
        simp [view, TaskSupervisor.abortTransactionResiduals, tasksOf_abortTx]
    · have hne : ¬ tx = tx' := fun heq => htx heq.symm
      have : view { u with
          ledger := u.ledger.modify tx' ({ · with cancelled := true })
          tasks := u.tasks.abortTransactionResiduals tx' } tx = view u tx := by
        simp [view, LifecycleLedger.get_modify, hne, TaskSupervisor.abortTransactionResiduals,
          tasksOf_abortTx, htx]
      rw [this]
      exact .still hq
  · refine acceptTerminal_step (u := { u with
      runtimeShutdownTerminals := u.runtimeShutdownTerminals + 1 }) hq ?_ ?_
    · exact fun _ _ _ _ => .shutdown
    · simp

/-- Recovery installs a terminal only for a coordinator whose exit is being
handled. -/
theorem recoverExit_step {v : TxView} {c : TaskClass} (exit : TaskExit)
    (hq : v.Quiet (view u tx)) (hexit : c.transactionId = some tx → c ∈ v.exited) :
    TxStep s a tx v (view (u.recoverExit c exit) tx) := by
  unfold Runtime.recoverExit
  split
  · rename_i tx'
    cases hrow : u.ledger.get tx' with
    | none => exact .still hq
    | some e =>
        dsimp only
        split
        · refine acceptTerminal_step hq ?_ (by simp)
          rintro e' rfl hold hterm
          have : e' = e := by
            rw [← hq.row, view, hrow] at hold
            exact (Option.some.inj hold).symm
          subst this
          exact .taskExit exit _ (hexit rfl) rfl
        · exact .still hq
  · exact .still hq

theorem sweepExit_step {v : TxView} {c : TaskClass} (hq : v.Quiet (view u tx))
    (hexit : c.transactionId = some tx → c ∈ v.exited) :
    TxStep s a tx v (view (u.sweepExit c) tx) := by
  unfold Runtime.sweepExit
  split
  · exact .still hq
  · rename_i tx' hc
    split
    · rename_i hidle
      refine tryRemove_step hq ?_
      rintro rfl id
      rw [← hq.task]
      exact tasksOf_eq_none_iff.mpr hidle id
    · split
      · rename_i hfin
        refine abort_step hq ?_
        rintro rfl
        refine .inr (.inl ?_)
        have hclass : c = .finalizer tx' := by
          cases c <;> simp_all [TaskClass.isFinalizer, TaskClass.transactionId]
        rw [← hclass]
        exact hexit hc
      · exact .still hq

theorem freshId_spawn_ne (t : TaskSupervisor TaskBody) (c : TaskClass) (f : TaskBody) :
    (t.spawn c f).freshId ≠ t.freshId := by
  simp [TaskSupervisor.freshId, TaskSupervisor.spawn, TaskTables.spawn]

theorem handleStart_step {v : TxView} (hq : v.Quiet (view u tx)) :
    TxStep s a tx v (view (u.handleStart tx') tx) := by
  unfold Runtime.handleStart
  cases hrow : u.ledger.get tx' with
  | none => exact .still hq
  | some e =>
      dsimp only
      split
      · exact .still hq
      · rename_i hphase
        cases hd : e.delivery with
        | none => exact .still hq
        | some d =>
            by_cases htx : tx' = tx
            · subst htx
              have hfresh : v.task (u.tasks.spawn (.eventPublisher tx') .eventPublisher).freshId
                  = none := by
                rw [← hq.task]
                have hf : tasksOf (u.tasks.spawn (.eventPublisher tx') .eventPublisher) tx' _ = none :=
                  tasksOf_freshId
                rw [tasksOf_spawn, if_pos (by rfl),
                  Function.update_of_ne (freshId_spawn_ne _ _ _)] at hf
                exact hf
              refine .started e d u.tasks.freshId _ (u.coordinatorParams e)
                ⟨hq.mail, hq.exited, hq.route⟩ ?_ (by simpa using hphase) hd ?_ hfresh
                (freshId_spawn_ne _ _ _) ?_ (congrFun ?_) hq.seen
              · rw [← hq.row, view, hrow]
              · rw [← hq.task]
                exact tasksOf_freshId
              · simp [view, LifecycleLedger.get_modify, hrow]
              · rw [← hq.task_eq]
                simp [view, tasksOf_spawn, TaskClass.transactionId]
            · have hne : ¬ tx = tx' := fun heq => htx heq.symm
              have : view { u with
                  ledger := u.ledger.modify tx' (Runtime.startRow d)
                  tasks := (u.tasks.spawn (.eventPublisher tx') .eventPublisher).spawn
                    (.transactionCoordinator tx')
                    (.coordinator (u.coordinatorParams e) .entry) } tx = view u tx := by
                simp [view, LifecycleLedger.get_modify, hne, tasksOf_spawn,
                  TaskClass.transactionId, htx]
              simp only [this]
              exact .still hq

/-- Observing a join: the task leaves the table, and its exit may be queued. -/
theorem join_step {k : TokioTaskId} {t' : TaskSupervisor TaskBody} {out} {agenda : List Work}
    (h : s.tasks.joinNext k = some (t', out))
    (hreports : ∀ c ∈ agenda.flatMap Work.reports,
      (∃ i e, out = some (i, c, e)) ∨ c ∈ s.agenda.flatMap Work.reports) :
    TxStep s a tx (view s tx) (view { s with tasks := t', agenda := agenda } tx) := by
  obtain ⟨i, task, r, hi, hcell, rfl, hrest⟩ := TaskSupervisor.joinNext_some h
  have hmem : ∀ c ∈ exitsOf agenda tx, c = task.taskClass ∨ c ∈ exitsOf s.agenda tx := by
    intro c hc
    simp only [exitsOf, List.mem_filter] at hc ⊢
    obtain ⟨i', e, heq⟩ | hold := hreports c hc.1
    · left
      cases heq
      rfl
    · exact .inr ⟨hold, hc.2⟩
  by_cases hown : task.taskClass.transactionId = some tx
  · refine .joined i task r rfl ?_ rfl (tasksOf_some.mpr ⟨hi, hown⟩) hcell rfl ?_ rfl
    · intro c hc
      exact List.mem_cons.mpr (hmem c hc)
    · simp [view, tasksOf_joined hi hrest, hown]
  · refine .still ⟨⟨fun _ hm => hm, ?_, fun _ hr => hr⟩, rfl, ?_, rfl⟩
    · intro c hc
      refine (hmem c hc).resolve_left ?_
      rintro rfl
      simp [view, exitsOf, hown] at hc
    · simp [view, tasksOf_joined hi hrest, hown]

/-- Registering a request taken off the spawn queue. -/
theorem register_step {c : TaskClass} {queue : List TaskClass} {agenda : List Work}
    (hreg : s.registers a = some c) (hclass : c.isChild = true ∨ ∃ tx, c = .mcpRequest tx)
    (hreports : agenda.flatMap Work.reports ⊆ s.agenda.flatMap Work.reports) :
    TxStep s a tx (view s tx) (view { s with
      spawnQueue := queue
      agenda := agenda
      tasks := s.tasks.spawn c .child } tx) := by
  have hdrains : (view s tx).Drains (view { s with
      spawnQueue := queue, agenda := agenda, tasks := s.tasks.spawn c .child } tx) :=
    ⟨fun _ h => h, exitsOf_subset hreports, fun _ h => h⟩
  by_cases hown : c.transactionId = some tx
  · refine .spawned s.tasks.freshId c hdrains hreg hown ?_ tasksOf_freshId rfl ?_ rfl
    · refine hclass.imp id ?_
      rintro ⟨tx₁, rfl⟩
      simpa [TaskClass.transactionId] using hown
    · simp [view, tasksOf_spawn, hown]
  · exact .still ⟨hdrains, rfl, by simp [view, tasksOf_spawn, hown], rfl⟩

/-! ## Tasks -/

theorem running_some {id : TaskId} {k : Task TaskBody} {body : TaskBody}
    (h : s.running id = some (k, body)) :
    s.tasks.task? id = some k ∧ k.cell = .running body := by
  unfold Runtime.running at h
  cases hk : s.tasks.task? id with
  | none => simp [hk] at h
  | some k' =>
      rw [hk] at h
      dsimp only at h
      split at h
      · rename_i body' hcell
        cases h
        exact ⟨rfl, hcell⟩
      · cases h

/-- A polled task is running, and past an await its abort is not pending. -/
theorem polled_some {id : TaskId} {k : Task TaskBody} {body : TaskBody}
    (h : s.polled id = some (k, body)) :
    s.tasks.task? id = some k ∧ k.cell = .running body ∧
      (body.awaits = true → k.abortRequested = false) := by
  unfold Runtime.polled at h
  split at h
  · rename_i k' body' hr
    split at h
    · cases h
    · rename_i hab
      cases h
      obtain ⟨hk, hcell⟩ := running_some hr
      refine ⟨hk, hcell, fun haw => ?_⟩
      simpa [haw] using hab
  · cases h

/-- Only the cell of task `id` and, up to what `hq` allows, the queues changed. -/
theorem tasksOf_cell_self {id : TaskId} {c : TaskClass} {abort : Bool}
    {cell cell' : JoinCell TaskBody} {t' : TaskSupervisor TaskBody}
    (hk : s.tasks.task? id = some ⟨c, abort, cell⟩) (hc : c.transactionId = some tx)
    (h : ∀ i, t'.task? i =
      if i = id then (s.tasks.task? i).map ({ · with cell := cell' }) else s.tasks.task? i) :
    tasksOf t' tx = Function.update (tasksOf s.tasks tx) id (some ⟨c, abort, cell'⟩) := by
  rw [tasksOf_setCell hk h, if_pos hc]

theorem tasksOf_cell_other {id : TaskId} {k : Task TaskBody}
    {cell' : JoinCell TaskBody} {t' : TaskSupervisor TaskBody}
    (hk : s.tasks.task? id = some k) (hc : k.taskClass.transactionId ≠ some tx)
    (h : ∀ i, t'.task? i =
      if i = id then (s.tasks.task? i).map ({ · with cell := cell' }) else s.tasks.task? i) :
    tasksOf t' tx = tasksOf s.tasks tx := by
  rw [tasksOf_setCell hk h, if_neg hc]

/-! ## The coordinator -/

section Coordinator

variable {id : TaskId} {params : CoordinatorParams} {pc pc' : CoordinatorPc}

/-- A coordinator moves to another await point; `u` has installed a route or
bound a session for it. -/
theorem coordinatorGoto_step
    (hk : s.tasks.task? id =
      some ⟨.transactionCoordinator tx', false, .running (.coordinator params pc)⟩)
    (hsame : u.tasks = s.tasks ∧ u.workerQueue = s.workerQueue ∧ u.agenda = s.agenda ∧
      u.history = s.history)
    (hrow : ∃ f : LedgerEntry → Option SessionKey, ∀ tx, u.ledger.get tx =
      if tx = tx' then (s.ledger.get tx).map (fun e => { e with sessionKey := f e })
      else s.ledger.get tx)
    (hroute : ∀ token tx, u.routes.owner token = some tx →
      s.routes.owner token = some tx ∨ (tx = tx' ∧ pc'.token = some token))
    (hkeeps : ∀ token, pc.token = some token → pc'.token = some token)
    (haw : pc.awaits = true) (haw' : pc'.awaits = true) :
    TxStep s a tx (view s tx) (view (u.coordinatorGoto id params pc') tx) := by
  obtain ⟨htasks, hmail, hagenda, hhist⟩ := hsame
  obtain ⟨f, hf⟩ := hrow
  have hcell := s.tasks.task?_advance id (.coordinator params pc')
  by_cases htx : tx' = tx
  · subst htx
    refine .moved id params pc pc' ?_ ?_ (tasksOf_some.mpr ⟨hk, rfl⟩) haw haw' hkeeps ?_ f ?_
      (congrFun ?_) ?_
    · simp [view, Runtime.coordinatorGoto, hmail]
    · simp [view, Runtime.coordinatorGoto, hagenda]
    · intro token hr
      exact (hroute token tx' hr).imp_right (fun h => h.2)
    · simpa [view, Runtime.coordinatorGoto] using hf tx'
    · simpa [view, Runtime.coordinatorGoto, htasks] using tasksOf_cell_self hk rfl hcell
    · simp [view, Runtime.coordinatorGoto, hhist]
  · refine .still ⟨⟨?_, ?_, ?_⟩, ?_, congrFun ?_, ?_⟩
    · simp [view, Runtime.coordinatorGoto, hmail]
    · simp [view, Runtime.coordinatorGoto, hagenda]
    · intro token hr
      exact (hroute token tx hr).resolve_right (fun h => htx h.1.symm)
    · have hne : ¬ tx = tx' := fun heq => htx heq.symm
      simpa [view, Runtime.coordinatorGoto, hne] using hf tx
    · have hc : TaskClass.transactionId (.transactionCoordinator tx') ≠ some tx := by
        simpa [TaskClass.transactionId] using htx
      simpa [view, Runtime.coordinatorGoto, htasks] using tasksOf_cell_other hk hc hcell
    · simp [view, Runtime.coordinatorGoto, hhist]

/-- `execute` returns; `u` has revoked the token the coordinator held. -/
theorem coordinatorReturn_step {kind : TransactionEndKind}
    (hk : s.tasks.task? id =
      some ⟨.transactionCoordinator tx', false, .running (.coordinator params pc)⟩)
    (hsame : u.tasks = s.tasks ∧ u.workerQueue = s.workerQueue ∧ u.agenda = s.agenda ∧
      u.history = s.history ∧ u.ledger = s.ledger)
    (hroute : ∀ token tx, u.routes.owner token = some tx →
      s.routes.owner token = some tx ∧ pc.token ≠ some token)
    (haw : pc.awaits = true) :
    TxStep s a tx (view s tx) (view (u.coordinatorReturn id tx' params kind) tx) := by
  obtain ⟨htasks, hmail, hagenda, hhist, hledger⟩ := hsame
  have hcell := s.tasks.task?_advance id (.coordinator params (.returned ⟨kind⟩))
  by_cases htx : tx' = tx
  · subst htx
    refine .returned id params pc ⟨kind⟩ ?_ ?_ (tasksOf_some.mpr ⟨hk, rfl⟩) haw ?_ ?_
      (congrFun ?_) ?_
    · simp [view, Runtime.coordinatorReturn, Runtime.observe, hmail]
    · simp [view, Runtime.coordinatorReturn, Runtime.observe, hagenda]
    · exact fun token hr => hroute token tx' hr
    · simp [view, Runtime.coordinatorReturn, Runtime.observe, hledger]
    · simpa [view, Runtime.coordinatorReturn, Runtime.observe, htasks] using
        tasksOf_cell_self hk rfl hcell
    · simp [view, Runtime.coordinatorReturn, Runtime.observe, hhist, historyOf, Obs.transactionId]
  · refine .still ⟨⟨?_, ?_, ?_⟩, ?_, congrFun ?_, ?_⟩
    · simp [view, Runtime.coordinatorReturn, Runtime.observe, hmail]
    · simp [view, Runtime.coordinatorReturn, Runtime.observe, hagenda]
    · exact fun token hr => (hroute token tx hr).1
    · simp [view, Runtime.coordinatorReturn, Runtime.observe, hledger]
    · have hc : TaskClass.transactionId (.transactionCoordinator tx') ≠ some tx := by
        simpa [TaskClass.transactionId] using htx
      simpa [view, Runtime.coordinatorReturn, Runtime.observe, htasks] using
        tasksOf_cell_other hk hc hcell
    · simp [view, Runtime.coordinatorReturn, Runtime.observe, hhist, historyOf, Obs.transactionId,
        htx]

theorem owner_revokeMcp (token : Option CapabilityToken) (token' : CapabilityToken)
    (h : (s.revokeMcp token).routes.owner token' = some tx) :
    s.routes.owner token' = some tx ∧ token ≠ some token' := by
  unfold Runtime.revokeMcp at h
  split at h
  · exact ⟨h, by simp⟩
  · rename_i token₁
    rw [show ({ s with routes := s.routes.revoke token₁ } : Runtime).routes =
      s.routes.revoke token₁ from rfl, Mcp.McpRouteTable.owner_revoke] at h
    split at h
    · cases h
    · rename_i hne
      exact ⟨h, fun heq => hne (Option.some.inj heq).symm⟩

theorem revokeMcp_same (s : Runtime) (token : Option CapabilityToken) :
    (s.revokeMcp token).tasks = s.tasks ∧ (s.revokeMcp token).workerQueue = s.workerQueue ∧
      (s.revokeMcp token).agenda = s.agenda ∧ (s.revokeMcp token).history = s.history ∧
      (s.revokeMcp token).ledger = s.ledger := by
  unfold Runtime.revokeMcp
  split <;> exact ⟨rfl, rfl, rfl, rfl, rfl⟩

/-- Every exit of the external-agent branch revokes what the coordinator holds. -/
theorem revokeReturn_step {kind : TransactionEndKind} {token : Option CapabilityToken}
    (hk : s.tasks.task? id =
      some ⟨.transactionCoordinator tx', false, .running (.coordinator params pc)⟩)
    (htoken : pc.token = token) (haw : pc.awaits = true) :
    TxStep s a tx (view s tx)
      (view ((s.revokeMcp token).coordinatorReturn id tx' params kind) tx) :=
  coordinatorReturn_step hk (revokeMcp_same s token)
    (fun token' _ hr => htoken ▸ owner_revokeMcp token token' hr) haw

theorem keepRows (s : Runtime) (tx' : TransactionId) :
    ∃ f : LedgerEntry → Option SessionKey, ∀ tx, s.ledger.get tx =
      if tx = tx' then (s.ledger.get tx).map (fun e => { e with sessionKey := f e })
      else s.ledger.get tx :=
  ⟨LedgerEntry.sessionKey, fun tx => by simp⟩

theorem coordinatorBegin_step {drawn : Option CapabilityToken} {accepted : Bool}
    (hk : s.tasks.task? id =
      some ⟨.transactionCoordinator tx', false, .running (.coordinator params .entry)⟩) :
    TxStep s a tx (view s tx) (view (s.coordinatorBegin id tx' params drawn accepted) tx) := by
  have hreturn : ∀ kind, TxStep s a tx (view s tx)
      (view (s.coordinatorReturn id tx' params kind) tx) := fun kind =>
    coordinatorReturn_step hk ⟨rfl, rfl, rfl, rfl, rfl⟩
      (fun _ _ hr => ⟨hr, by simp [CoordinatorPc.token]⟩) rfl
  have hgoto : ∀ pc', pc'.awaits = true → TxStep s a tx (view s tx)
      (view (s.coordinatorGoto id params pc') tx) := fun pc' haw =>
    coordinatorGoto_step hk ⟨rfl, rfl, rfl, rfl⟩ (keepRows s tx') (fun _ _ hr => .inl hr)
      (by simp [CoordinatorPc.token]) rfl haw
  unfold Runtime.coordinatorBegin
  split
  · exact hreturn _
  · split
    · exact hreturn _
    · split
      · exact hreturn _
      · split
        · exact hgoto _ rfl
        · split
          · exact hreturn _
          · split
            · split
              · exact hreturn _
              · split
                · rename_i routes e hinst
                  obtain rfl := Mcp.McpRouteTable.installPending_error hinst
                  exact hreturn _
                · rename_i routes token hinst
                  have howner := Mcp.McpRouteTable.owner_installPending hinst
                  split
                  · refine coordinatorGoto_step (u := { s with routes }) hk
                      ⟨rfl, rfl, rfl, rfl⟩ (keepRows s tx') ?_ (by simp [CoordinatorPc.token])
                      rfl rfl
                    intro token' tx₁ hr
                    rw [show ({ s with routes } : Runtime).routes = routes from rfl, howner] at hr
                    split at hr
                    · rename_i heq
                      exact .inr ⟨(Option.some.inj hr).symm, by simp [CoordinatorPc.token, heq]⟩
                    · exact .inl hr
                  · refine coordinatorReturn_step (u := { s with routes }.revokeMcp (some token))
                      hk ⟨rfl, rfl, rfl, rfl, rfl⟩ ?_ rfl
                    intro token' tx₁ hr
                    obtain ⟨hr', hne⟩ := owner_revokeMcp _ _ hr
                    rw [show ({ s with routes } : Runtime).routes = routes from rfl, howner,
                      if_neg (fun heq => hne (by rw [heq]))] at hr'
                    exact ⟨hr', by simp [CoordinatorPc.token]⟩
            · split
              · exact hgoto _ rfl
              · exact hreturn _

theorem gateOpened_step {token : Option CapabilityToken} {external : Option ExternalSessionId}
    (hk : s.tasks.task? id = some
      ⟨.transactionCoordinator tx', false, .running (.coordinator params (.exchanging token .opening))⟩) :
    TxStep s a tx (view s tx) (view (s.gateOpened id tx' params token external) tx) := by
  have hclose : TxStep s a tx (view s tx)
      (view (s.coordinatorGoto id params (.exchanging token (.done none false))) tx) :=
    coordinatorGoto_step hk ⟨rfl, rfl, rfl, rfl⟩ (keepRows s tx') (fun _ _ hr => .inl hr)
      (fun _ h => h) rfl rfl
  unfold Runtime.gateOpened
  dsimp only
  split
  · exact hclose
  · split
    · exact hclose
    · split
      · exact hclose
      · rename_i ledger hbind
        refine coordinatorGoto_step (u := { s with ledger }) hk ⟨rfl, rfl, rfl, rfl⟩ ?_
          (fun _ _ hr => .inl hr) (fun _ h => h) rfl rfl
        exact LifecycleLedger.get_bindSession hbind

theorem gateEstablished_step {token : Option CapabilityToken} {ext : ExternalSessionId}
    {ok : Bool}
    (hk : s.tasks.task? id = some ⟨.transactionCoordinator tx', false,
      .running (.coordinator params (.exchanging token (.establishing ext)))⟩) :
    TxStep s a tx (view s tx) (view (s.gateEstablished id params token ext ok) tx) := by
  have hclose : ∀ external established, TxStep s a tx (view s tx) (view (s.coordinatorGoto id params
      (.exchanging token (.done external established))) tx) := fun external established =>
    coordinatorGoto_step hk ⟨rfl, rfl, rfl, rfl⟩ (keepRows s tx') (fun _ _ hr => .inl hr)
      (fun _ h => h) rfl rfl
  unfold Runtime.gateEstablished
  dsimp only
  split
  · exact hclose _ _
  · split
    · exact hclose _ _
    · split
      · exact hclose _ _
      · rename_i routes hact
        refine coordinatorGoto_step (u := { s with routes }) hk ⟨rfl, rfl, rfl, rfl⟩
          (keepRows s tx') ?_ (fun _ h => h) rfl rfl
        intro token' tx₁ hr
        left
        rw [← Mcp.McpRouteTable.owner_activate hact token']
        exact hr

theorem coordinatorPark_step {p : TerminalProposal} {abort : Bool}
    (hk : s.tasks.task? id =
      some ⟨.transactionCoordinator tx', abort, .running (.coordinator params (.returned p))⟩) :
    TxStep s a tx (view s tx) (view (s.coordinatorPark id tx' params p) tx) := by
  have hcell := s.tasks.task?_advance id (.coordinator params (.parked p))
  by_cases htx : tx' = tx
  · subst htx
    refine .parked id params p abort (.of_eq rfl rfl rfl) (tasksOf_some.mpr ⟨hk, rfl⟩) ?_
      (congrFun ?_) rfl
    · simp [view, Runtime.coordinatorPark, Runtime.coordinatorGoto, LifecycleLedger.get_modify]
    · simpa [view, Runtime.coordinatorPark, Runtime.coordinatorGoto] using
        tasksOf_cell_self hk rfl hcell
  · have hne : ¬ tx = tx' := fun heq => htx heq.symm
    have hc : TaskClass.transactionId (.transactionCoordinator tx') ≠ some tx := by
      simpa [TaskClass.transactionId] using htx
    refine .still ⟨.of_eq rfl rfl rfl, ?_, congrFun ?_, rfl⟩
    · simp [view, Runtime.coordinatorPark, Runtime.coordinatorGoto, LifecycleLedger.get_modify, hne]
    · simpa [view, Runtime.coordinatorPark, Runtime.coordinatorGoto] using
        tasksOf_cell_other hk hc hcell

theorem coordinatorNotify_step {p : TerminalProposal} {abort : Bool}
    (hk : s.tasks.task? id =
      some ⟨.transactionCoordinator tx', abort, .running (.coordinator params (.parked p))⟩) :
    TxStep s a tx (view s tx) (view (s.coordinatorNotify id tx' p) tx) := by
  have hcell := s.tasks.task?_finish id .completed
  -- whether or not the signal fits, the queue gains at most this one
  obtain ⟨queue, heq, hqueue⟩ : ∃ queue, s.coordinatorNotify id tx' p =
      { s with tasks := s.tasks.finish id .completed, workerQueue := queue } ∧
      (queue = s.workerQueue ∨ queue = s.workerQueue ++ [⟨tx', p⟩]) := by
    unfold Runtime.coordinatorNotify
    dsimp only
    split
    · exact ⟨_, rfl, .inr rfl⟩
    · exact ⟨_, rfl, .inl rfl⟩
  rw [heq]
  by_cases htx : tx' = tx
  · subst htx
    refine .notified id params p abort ?_ rfl rfl (tasksOf_some.mpr ⟨hk, rfl⟩) rfl
      (congrFun ?_) rfl
    · obtain rfl | rfl := hqueue
      · exact fun _ hm => List.mem_cons_of_mem _ hm
      · simp [view, mailOf, List.filter_append]
    · simpa [view] using tasksOf_cell_self hk rfl hcell
  · have hc : TaskClass.transactionId (.transactionCoordinator tx') ≠ some tx := by
      simpa [TaskClass.transactionId] using htx
    refine .still ⟨⟨?_, fun _ h => h, fun _ h => h⟩, rfl, congrFun ?_, rfl⟩
    · obtain rfl | rfl := hqueue
      · exact fun _ hm => hm
      · simp [view, mailOf, List.filter_append, htx]
    · simpa [view] using tasksOf_cell_other hk hc hcell

theorem stepCoordinator_step {abort : Bool} {event : Runtime.CoordinatorEvent}
    (hk : s.tasks.task? id =
      some ⟨.transactionCoordinator tx', abort, .running (.coordinator params pc)⟩)
    (habort : pc.awaits = true → abort = false)
    (h : s.stepCoordinator id tx' params pc event = some s') :
    TxStep s a tx (view s tx) (view s' tx) := by
  have hplain : ∀ {pc pc' : CoordinatorPc}, s.tasks.task? id =
      some ⟨.transactionCoordinator tx', false, .running (.coordinator params pc)⟩ →
      pc.awaits = true → pc'.awaits = true → pc'.token = pc.token →
      TxStep s a tx (view s tx) (view (s.coordinatorGoto id params pc') tx) :=
    fun hk haw haw' htoken => coordinatorGoto_step hk ⟨rfl, rfl, rfl, rfl⟩ (keepRows s tx')
      (fun _ _ hr => .inl hr) (fun _ h => htoken.trans h) haw haw'
  unfold Runtime.stepCoordinator at h
  split at h
  · obtain rfl := habort rfl
    cases h
    exact coordinatorBegin_step hk
  · obtain rfl := habort rfl
    split at h
    · cases h
      exact revokeReturn_step hk rfl rfl
    · cases h
  · obtain rfl := habort rfl
    split at h
    · cases h
    · split at h
      · cases h
        exact hplain hk rfl rfl rfl
      · cases h
        exact revokeReturn_step hk rfl rfl
  · obtain rfl := habort rfl
    cases h
    exact gateOpened_step hk
  · obtain rfl := habort rfl
    cases h
    exact gateEstablished_step hk
  · obtain rfl := habort rfl
    cases h
    exact hplain hk rfl rfl rfl
  · obtain rfl := habort rfl
    cases h
    exact hplain hk rfl rfl rfl
  · obtain rfl := habort rfl
    cases h
    exact revokeReturn_step hk rfl rfl
  · cases h
    exact coordinatorPark_step hk
  · cases h
    exact coordinatorNotify_step hk
  · cases h

end Coordinator

/-! ## The finalizer -/

section Finalizer

variable {id : TaskId} {pc pc' : FinalizerPc} {abort : Bool}

/-- The step changed one finalizer's cell and the row of its transaction. -/
structure FinalizerMove (s s' : Runtime) (tx : TransactionId) (id : TaskId)
    (cell : JoinCell TaskBody) (f : LedgerEntry → LedgerEntry) : Prop where
  ledger : ∀ tx₁, s'.ledger.get tx₁ =
    if tx₁ = tx then (s.ledger.get tx₁).map f else s.ledger.get tx₁
  tasks : ∀ i, s'.tasks.task? i =
    if i = id then (s.tasks.task? i).map ({ · with cell := cell }) else s.tasks.task? i
  workerQueue : s'.workerQueue = s.workerQueue
  agenda : s'.agenda = s.agenda
  routes : s'.routes = s.routes

theorem FinalizerMove.drains {cell f} (h : FinalizerMove s s' tx' id cell f) :
    (view s tx).Drains (view s' tx) :=
  .of_eq (by simp [view, h.workerQueue]) (by simp [view, h.agenda]) (by simp [view, h.routes])

theorem FinalizerMove.row {cell f} (h : FinalizerMove s s' tx id cell f) :
    (view s' tx).row = (view s tx).row.map f := by
  simp [view, h.ledger]

theorem FinalizerMove.task {cell f} (h : FinalizerMove s s' tx id cell f)
    (hk : s.tasks.task? id = some ⟨.finalizer tx, abort, .running (.finalizer pc)⟩) :
    ∀ i, (view s' tx).task i =
      Function.update (view s tx).task id (some ⟨.finalizer tx, abort, cell⟩) i :=
  congrFun (tasksOf_cell_self hk rfl h.tasks)

/-- Other transactions do not notice. -/
theorem FinalizerMove.other {cell f} (h : FinalizerMove s s' tx' id cell f)
    (hk : s.tasks.task? id = some ⟨.finalizer tx', abort, .running (.finalizer pc)⟩)
    (htx : tx' ≠ tx) (hseen : historyOf s'.history tx = historyOf s.history tx) :
    TxStep s a tx (view s tx) (view s' tx) := by
  have hne : ¬ tx = tx' := fun heq => htx heq.symm
  refine .still ⟨h.drains, ?_, congrFun ?_, hseen⟩
  · simp [view, h.ledger, hne]
  · exact tasksOf_cell_other hk (by simpa [TaskClass.transactionId] using htx) h.tasks

theorem get_modify_id (l : LifecycleLedger) (tx tx' : TransactionId) :
    l.get tx = if tx = tx' then (l.get tx).map (fun e => e) else l.get tx := by
  simp

theorem finalizerResume_step {sealTx : Bool} {send : Runtime.SealSend}
    (hk : s.tasks.task? id = some ⟨.finalizer tx', false, .running (.finalizer (.spawned sealTx))⟩) :
    TxStep s a tx (view s tx) (view (s.finalizerResume id tx' sealTx send) tx) := by
  unfold Runtime.finalizerResume
  cases hrow : s.ledger.get tx' with
  | none =>
      have hmove : FinalizerMove s { s with tasks := s.tasks.finish id .completed } tx' id
          (.finished (.output id .completed)) (fun e => e) :=
        ⟨fun tx₁ => get_modify_id _ _ _, s.tasks.task?_finish id .completed, rfl, rfl, rfl⟩
      by_cases htx : tx' = tx
      · subst htx
        exact .orphaned id sealTx hmove.drains (tasksOf_some.mpr ⟨hk, rfl⟩) hrow rfl
          (hmove.task hk) rfl
      · exact hmove.other hk htx rfl
  | some e =>
      dsimp only
      generalize hnext : (if sealTx then _ else _ : FinalizerPc) = pc
      have hpc : pc = .awaitingReply (Runtime.snapshotOf e) ∨
          ∃ d n, pc = .replied (Runtime.snapshotOf e) d n := by
        subst hnext
        split
        · cases send
          · exact .inl rfl
          · exact .inr ⟨_, _, rfl⟩
          · exact .inr ⟨_, _, rfl⟩
        · exact .inr ⟨_, _, rfl⟩
      have hmove : FinalizerMove s
          ({ s with ledger := s.ledger.modify tx' Runtime.cleanupRow }.finalizerGoto id pc) tx' id
          (.running (.finalizer pc)) Runtime.cleanupRow :=
        ⟨fun tx₁ => LifecycleLedger.get_modify _ _ _ _, s.tasks.task?_advance id _, rfl, rfl, rfl⟩
      by_cases htx : tx' = tx
      · subst htx
        refine .sealed id sealTx e pc hmove.drains (tasksOf_some.mpr ⟨hk, rfl⟩) hrow hpc ?_
          (hmove.task hk) rfl
        rw [hmove.row]
        simp [view, hrow]
      · exact hmove.other hk htx rfl

theorem finalizerReplied_step {snap : FinalizerSnapshot} {d : TerminalEventDelivery} {n : Nat}
    (hk : s.tasks.task? id =
      some ⟨.finalizer tx', false, .running (.finalizer (.awaitingReply snap))⟩) :
    TxStep s a tx (view s tx) (view (s.finalizerGoto id (.replied snap d n)) tx) := by
  have hmove : FinalizerMove s (s.finalizerGoto id (.replied snap d n)) tx' id
      (.running (.finalizer (.replied snap d n))) (fun e => e) :=
    ⟨fun tx₁ => get_modify_id _ _ _, s.tasks.task?_advance id _, rfl, rfl, rfl⟩
  by_cases htx : tx' = tx
  · subst htx
    exact .replied id snap d n hmove.drains (tasksOf_some.mpr ⟨hk, rfl⟩) rfl (hmove.task hk) rfl
  · exact hmove.other hk htx rfl

theorem finalizerSettle_step {snap : FinalizerSnapshot} {d : TerminalEventDelivery} {n : Nat}
    (hk : s.tasks.task? id = some ⟨.finalizer tx', abort, .running (.finalizer (.replied snap d n))⟩)
    (ha : a = .finalizer id .settle) :
    TxStep s a tx (view s tx) (view (s.finalizerSettle id tx' snap d n) tx) := by
  let kind := Runtime.downgradedKind d snap.kind
  let body : TaskBody := .finalizer (.publishing { snap with kind := kind } d n)
  let f : LedgerEntry → LedgerEntry := fun e =>
    if kind = snap.kind then e else { e with terminal := some ⟨kind⟩ }
  have hmove : FinalizerMove s (s.finalizerSettle id tx' snap d n) tx' id (.running body) f := by
    unfold Runtime.finalizerSettle
    by_cases hkind : kind = snap.kind
    · have hf : f = fun e => e := by simp [f, hkind]
      rw [hf]
      dsimp only
      rw [if_pos (show Runtime.downgradedKind d snap.kind = snap.kind from hkind)]
      exact ⟨fun tx₁ => get_modify_id _ _ _, s.tasks.task?_advance id body, rfl, rfl, rfl⟩
    · have hf : f = fun e => { e with terminal := some ⟨kind⟩ } := by simp [f, hkind]
      rw [hf]
      dsimp only
      rw [if_neg (show ¬ Runtime.downgradedKind d snap.kind = snap.kind from hkind)]
      exact ⟨fun tx₁ => LifecycleLedger.get_modify _ _ _ _, s.tasks.task?_advance id body,
        rfl, rfl, rfl⟩
  have hseen : (s.finalizerSettle id tx' snap d n).history = s.history := by
    unfold Runtime.finalizerSettle
    dsimp only
    split <;> rfl
  by_cases htx : tx' = tx
  · subst htx
    refine .settled id snap d n abort hmove.drains ha (tasksOf_some.mpr ⟨hk, rfl⟩) ?_
      (hmove.task hk) (by simp [view, hseen])
    rw [hmove.row]
    by_cases hkind : kind = snap.kind
    · simp [f, hkind, show Runtime.downgradedKind d snap.kind = snap.kind from hkind]
    · simp [f, hkind, kind]
  · exact hmove.other hk htx (by rw [hseen])

theorem finalizerPublish_step {snap : FinalizerSnapshot} {d : TerminalEventDelivery} {n : Nat}
    {alive : Bool}
    (hk : s.tasks.task? id =
      some ⟨.finalizer tx', abort, .running (.finalizer (.publishing snap d n))⟩) :
    TxStep s a tx (view s tx) (view (s.finalizerPublish id tx' snap d n alive) tx) := by
  have hmove : FinalizerMove s (s.finalizerPublish id tx' snap d n alive) tx' id
      (.finished (.output id .completed)) (fun e => { e with eventSequence := n }) := by
    unfold Runtime.finalizerPublish Runtime.countCompletion
    dsimp only
    split
    · split <;> exact ⟨fun tx₁ => LifecycleLedger.get_modify _ _ _ _,
        s.tasks.task?_finish id .completed, rfl, rfl, rfl⟩
    · exact ⟨fun tx₁ => LifecycleLedger.get_modify _ _ _ _,
        s.tasks.task?_finish id .completed, rfl, rfl, rfl⟩
  obtain ⟨c, r, hkind, hseen⟩ : ∃ c r, c.end.kind = snap.kind ∧
      (s.finalizerPublish id tx' snap d n alive).history =
        if snap.completionTx.isSome then .attempted tx' c r :: s.history else s.history := by
    unfold Runtime.finalizerPublish Runtime.countCompletion
    dsimp only
    split
    · rename_i sender hsender
      refine ⟨s.completionOf tx' snap d n, sender.send alive, rfl, ?_⟩
      rw [hsender]
      cases sender.send alive <;> rfl
    · rename_i hsender
      exact ⟨s.completionOf tx' snap d n, .published, rfl, by simp [hsender]⟩
  by_cases htx : tx' = tx
  · subst htx
    refine .published id snap d n abort c r hmove.drains (tasksOf_some.mpr ⟨hk, rfl⟩) hkind
      hmove.row (hmove.task hk) ?_
    simp only [view, hseen]
    split <;> simp [historyOf, Obs.transactionId]
  · refine hmove.other hk htx ?_
    rw [hseen]
    split <;> simp [historyOf, Obs.transactionId, htx]

theorem stepFinalizer_step {event : Runtime.FinalizerEvent}
    (hk : s.tasks.task? id = some ⟨.finalizer tx', abort, .running (.finalizer pc)⟩)
    (habort : pc.awaits = true → abort = false) (ha : a = .finalizer id event)
    (h : s.stepFinalizer id tx' pc event = some s') :
    TxStep s a tx (view s tx) (view s' tx) := by
  unfold Runtime.stepFinalizer at h
  split at h
  · obtain rfl := habort rfl
    cases h
    exact finalizerResume_step hk
  · rename_i snap result
    obtain rfl := habort rfl
    cases h
    exact finalizerReplied_step hk
  · cases h
    exact finalizerSettle_step hk ha
  · cases h
    exact finalizerPublish_step hk
  · cases h

end Finalizer

/-- A task ends outside its own protocol: a plain return, a panic, or an abort
taking effect. -/
theorem ended_step {id : TaskId} {k : Task TaskBody} {body : TaskBody} {r : JoinResult}
    {t' : TaskSupervisor TaskBody}
    (hk : s.tasks.task? id = some k) (hrun : k.cell = .running body)
    (hfin : ∀ pc, body = .finalizer pc → pc.awaits = true ∧ k.abortRequested = true)
    (hcoord : ∀ params pc, body = .coordinator params pc → pc.awaits = true ∧
      (a = .panic id ∨ a = .cancelled id))
    (hsame : s'.ledger = s.ledger ∧ s'.tasks = t' ∧ s'.history = s.history ∧
      s'.workerQueue = s.workerQueue ∧ s'.agenda = s.agenda)
    (hroute : ∀ token tx, s'.routes.owner token = some tx → s.routes.owner token = some tx)
    (hcell : ∀ i, t'.task? i =
      if i = id then (s.tasks.task? i).map ({ · with cell := .finished r }) else s.tasks.task? i) :
    TxStep s a tx (view s tx) (view s' tx) := by
  obtain ⟨hledger, rfl, hhist, hmail, hagenda⟩ := hsame
  have hdrains : (view s tx).Drains (view s' tx) :=
    ⟨by simp [view, hmail], by simp [view, hagenda], fun token => hroute token tx⟩
  by_cases hown : k.taskClass.transactionId = some tx
  · refine .ended id k body r hdrains (tasksOf_some.mpr ⟨hk, hown⟩) hrun hfin hcoord ?_
      (congrFun ?_) ?_
    · simp [view, hledger]
    · simp only [view]
      rw [tasksOf_setCell hk hcell, if_pos hown]
    · simp [view, hhist]
  · refine .still ⟨hdrains, ?_, congrFun ?_, ?_⟩
    · simp [view, hledger]
    · simp only [view]
      rw [tasksOf_setCell hk hcell, if_neg hown]
    · simp [view, hhist]

end Monoloop.Lifecycle
