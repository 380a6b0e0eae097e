import Monoloop.Lifecycle.Loop

/-!
# The loop invariant is preserved

Hosts and tasks leave the agenda alone (`HostFrame`), so only the supervisor's
own statements need an argument. Each pops itself and pushes what it still has
to do; `LoopInv.pop` says what the pushed statements must satisfy.
-/

namespace Monoloop.Lifecycle

open Transition (System always)

variable {s s' : Runtime} {a : Action} {tx : TransactionId}

/-! ## Hosts and tasks leave the loop alone -/

/-- A step outside the supervisor: the agenda stands, admission can only close,
and no task is registered. -/
structure HostFrame (s s' : Runtime) : Prop where
  agenda : s'.agenda = s.agenda
  stopping : s'.stopping = s.stopping
  state : s.state ≠ .accepting → s'.state ≠ .accepting
  tasks : ∀ id k', s'.tasks.task? id = some k' →
    ∃ k, s.tasks.task? id = some k ∧ k'.taskClass = k.taskClass
  spawns : ∀ c ∈ s'.spawnQueue, c ∈ s.spawnQueue ∨ c.isChild = true ∨ ∃ tx, c = .mcpRequest tx

theorem sameTasks {t t' : TaskSupervisor TaskBody} (h : t' = t) :
    ∀ id k', t'.task? id = some k' → ∃ k, t.task? id = some k ∧ k'.taskClass = k.taskClass := by
  rintro id k' hk
  exact ⟨k', h ▸ hk, rfl⟩

theorem setCell_sameTasks {t t' : TaskSupervisor TaskBody} {i : TaskId} {cell : JoinCell TaskBody}
    (h : ∀ id, t'.task? id =
      if id = i then (t.task? id).map ({ · with cell := cell }) else t.task? id) :
    ∀ id k', t'.task? id = some k' → ∃ k, t.task? id = some k ∧ k'.taskClass = k.taskClass := by
  intro id k' hk
  rw [h] at hk
  split at hk
  · obtain ⟨k, hold, rfl⟩ := Option.map_eq_some_iff.mp hk
    exact ⟨k, hold, rfl⟩
  · exact ⟨k', hk, rfl⟩

theorem HostFrame.of_cell {i : TaskId} {cell : JoinCell TaskBody}
    (hloop : s'.agenda = s.agenda ∧ s'.stopping = s.stopping ∧ s'.state = s.state ∧
      s'.spawnQueue = s.spawnQueue)
    (h : ∀ id, s'.tasks.task? id =
      if id = i then (s.tasks.task? id).map ({ · with cell := cell }) else s.tasks.task? id) :
    HostFrame s s' where
  agenda := hloop.1
  stopping := hloop.2.1
  state hs := hloop.2.2.1 ▸ hs
  tasks := setCell_sameTasks h
  spawns _ hc := .inl (hloop.2.2.2 ▸ hc)

theorem HostFrame.of_same (hagenda : s'.agenda = s.agenda) (hstop : s'.stopping = s.stopping)
    (hstate : s.state ≠ .accepting → s'.state ≠ .accepting) (htasks : s'.tasks = s.tasks)
    (hspawn : s'.spawnQueue = s.spawnQueue) : HostFrame s s' :=
  ⟨hagenda, hstop, hstate, sameTasks htasks, fun _ hc => .inl (hspawn ▸ hc)⟩

theorem HostFrame.refl (s : Runtime) : HostFrame s s := .of_same rfl rfl id rfl rfl

theorem HostFrame.trans {s₁ s₂ s₃ : Runtime} (h : HostFrame s₁ s₂) (h' : HostFrame s₂ s₃) :
    HostFrame s₁ s₃ where
  agenda := h'.agenda.trans h.agenda
  stopping := h'.stopping.trans h.stopping
  state hs := h'.state (h.state hs)
  tasks id k hk := by
    obtain ⟨k₂, hk₂, hc₂⟩ := h'.tasks id k hk
    obtain ⟨k₁, hk₁, hc₁⟩ := h.tasks id k₂ hk₂
    exact ⟨k₁, hk₁, hc₂.trans hc₁⟩
  spawns c hc := by
    obtain hc | hc := h'.spawns c hc
    · exact h.spawns c hc
    · exact .inr hc

theorem coordinatorGoto_frame (id : TaskId) (params : CoordinatorParams) (pc : CoordinatorPc) :
    HostFrame s (s.coordinatorGoto id params pc) :=
  .of_cell ⟨rfl, rfl, rfl, rfl⟩ (s.tasks.task?_advance id _)

theorem coordinatorReturn_frame (id : TaskId) (tx : TransactionId) (params : CoordinatorParams)
    (kind : TransactionEndKind) : HostFrame s (s.coordinatorReturn id tx params kind) :=
  .of_cell ⟨rfl, rfl, rfl, rfl⟩ (s.tasks.task?_advance id _)

theorem routes_frame (routes : Mcp.McpRouteTable) : HostFrame s { s with routes } :=
  .of_same rfl rfl id rfl rfl

theorem revokeMcp_frame (token : Option Mcp.CapabilityToken) : HostFrame s (s.revokeMcp token) := by
  unfold Runtime.revokeMcp
  split
  · exact .refl s
  · exact routes_frame _

theorem coordinatorBegin_frame (id : TaskId) (tx : TransactionId) (params : CoordinatorParams)
    (drawn : Option Mcp.CapabilityToken) (accepted : Bool) :
    HostFrame s (s.coordinatorBegin id tx params drawn accepted) := by
  have hreturn := coordinatorReturn_frame (s := s) id tx params
  have hgoto := coordinatorGoto_frame (s := s) id params
  unfold Runtime.coordinatorBegin
  split
  · exact hreturn _
  · split
    · exact hreturn _
    · split
      · exact hreturn _
      · split
        · exact hgoto _
        · split
          · exact hreturn _
          · split
            · split
              · exact hreturn _
              · split
                · exact (routes_frame _).trans (coordinatorReturn_frame id tx params _)
                · split
                  · exact (routes_frame _).trans (coordinatorGoto_frame id params _)
                  · exact ((routes_frame _).trans (revokeMcp_frame _)).trans
                      (coordinatorReturn_frame id tx params _)
            · split
              · exact hgoto _
              · exact hreturn _

theorem gateOpened_frame (id : TaskId) (tx : TransactionId) (params : CoordinatorParams)
    (token : Option Mcp.CapabilityToken) (external : Option ExternalSessionId) :
    HostFrame s (s.gateOpened id tx params token external) := by
  unfold Runtime.gateOpened
  dsimp only
  split
  · exact coordinatorGoto_frame id params _
  · split
    · exact coordinatorGoto_frame id params _
    · split
      · exact coordinatorGoto_frame id params _
      · exact .of_cell ⟨rfl, rfl, rfl, rfl⟩ (s.tasks.task?_advance id _)

theorem gateEstablished_frame (id : TaskId) (params : CoordinatorParams)
    (token : Option Mcp.CapabilityToken) (ext : ExternalSessionId) (ok : Bool) :
    HostFrame s (s.gateEstablished id params token ext ok) := by
  unfold Runtime.gateEstablished
  dsimp only
  split
  · exact coordinatorGoto_frame id params _
  · split
    · exact coordinatorGoto_frame id params _
    · split
      · exact coordinatorGoto_frame id params _
      · exact (routes_frame _).trans (coordinatorGoto_frame id params _)

theorem stepCoordinator_frame {id : TaskId} {params : CoordinatorParams} {pc : CoordinatorPc}
    {event : Runtime.CoordinatorEvent} (h : s.stepCoordinator id tx params pc event = some s') :
    HostFrame s s' := by
  unfold Runtime.stepCoordinator at h
  split at h
  · cases h
    exact coordinatorBegin_frame id tx params _ _
  · split at h
    · cases h
      exact (revokeMcp_frame _).trans (coordinatorReturn_frame id tx params _)
    · cases h
  · split at h
    · cases h
    · split at h
      · cases h
        exact coordinatorGoto_frame id params _
      · cases h
        exact (revokeMcp_frame _).trans (coordinatorReturn_frame id tx params _)
  · cases h
    exact gateOpened_frame id tx params _ _
  · cases h
    exact gateEstablished_frame id params _ _ _
  · cases h
    exact coordinatorGoto_frame id params _
  · cases h
    exact coordinatorGoto_frame id params _
  · cases h
    exact (revokeMcp_frame _).trans (coordinatorReturn_frame id tx params _)
  · cases h
    exact .of_cell ⟨rfl, rfl, rfl, rfl⟩ (s.tasks.task?_advance id _)
  · cases h
    unfold Runtime.coordinatorNotify
    dsimp only
    split <;> exact .of_cell ⟨rfl, rfl, rfl, rfl⟩ (s.tasks.task?_finish id _)
  · cases h

theorem stepFinalizer_frame {id : TaskId} {pc : FinalizerPc} {event : Runtime.FinalizerEvent}
    (h : s.stepFinalizer id tx pc event = some s') : HostFrame s s' := by
  unfold Runtime.stepFinalizer at h
  split at h
  · cases h
    unfold Runtime.finalizerResume
    split
    · exact .of_cell ⟨rfl, rfl, rfl, rfl⟩ (s.tasks.task?_finish id _)
    · exact .of_cell ⟨rfl, rfl, rfl, rfl⟩ (s.tasks.task?_advance id _)
  · cases h
    exact .of_cell ⟨rfl, rfl, rfl, rfl⟩ (s.tasks.task?_advance id _)
  · cases h
    unfold Runtime.finalizerSettle
    dsimp only
    split <;> exact .of_cell ⟨rfl, rfl, rfl, rfl⟩ (s.tasks.task?_advance id _)
  · cases h
    unfold Runtime.finalizerPublish Runtime.countCompletion
    dsimp only
    split
    · split <;> exact .of_cell ⟨rfl, rfl, rfl, rfl⟩ (s.tasks.task?_finish id _)
    · exact .of_cell ⟨rfl, rfl, rfl, rfl⟩ (s.tasks.task?_finish id _)
  · cases h

theorem sendControl_frame (cmd : ControlCommand) : HostFrame s (s.sendControl cmd) := by
  unfold Runtime.sendControl
  split
  · exact .of_same rfl rfl id rfl rfl
  · exact .refl s

theorem quiesce_frame : HostFrame s s.quiesce := by
  refine .of_same rfl rfl (fun hs => ?_) rfl rfl
  unfold Runtime.quiesce
  cases hst : s.state <;> simp_all

theorem requestSpawn_frame {c : TaskClass} (hc : c.isChild = true ∨ ∃ tx, c = .mcpRequest tx) :
    HostFrame s (s.requestSpawn c) := by
  unfold Runtime.requestSpawn
  split
  · refine ⟨rfl, rfl, id, sameTasks rfl, ?_⟩
    intro c' hc'
    simp only [List.mem_append, List.mem_singleton] at hc'
    obtain hc' | rfl := hc'
    · exact .inl hc'
    · exact .inr hc
  · exact .refl s

theorem step_frame (h : Runtime.step a s = some s') (ha : ∀ c, a ≠ .supervisor c) :
    HostFrame s s' := by
  cases a with
  | reserve request =>
      simp only [Runtime.step] at h
      split at h
      · rename_i s₁ hok
        cases h
        simp only [Runtime.reserve, bind, Except.bind, pure, Except.pure] at hok
        split at hok
        · cases hok
        · split at hok
          · cases hok
          · split at hok
            · cases hok
            · cases hok
              exact .of_same rfl rfl id rfl rfl
      · cases h
        exact .refl s
  | install n tx' =>
      simp only [Runtime.step, Runtime.install] at h
      split at h
      · cases h
      · split at h
        · split at h
          · rename_i s₁ hok
            cases h
            obtain ⟨_, _, ledger, _, rfl⟩ := admitLocked_ok hok
            exact .of_same rfl rfl id rfl rfl
          · cases h
            exact .of_same rfl rfl id rfl rfl
        · cases h
  | terminate selector mode =>
      cases h
      unfold Runtime.terminate
      split
      · exact .refl s
      · split
        · exact .refl s
        · split
          · exact .refl s
          · split
            · exact .refl s
            · exact sendControl_frame _
  | beginShutdown =>
      cases h
      exact quiesce_frame.trans (sendControl_frame _)
  | dropOwner =>
      cases h
      have hgates : HostFrame s { s with holdStart := false, holdControl := false } :=
        .of_same rfl rfl id rfl rfl
      unfold Runtime.dropOwner
      dsimp only
      split
      · exact hgates
      · exact ((hgates.trans quiesce_frame).trans (sendControl_frame _)).trans
          (sendControl_frame _)
  | threadJoined =>
      simp only [Runtime.step] at h
      split at h
      · cases h
        exact .of_same rfl rfl (fun _ => by simp) rfl rfl
      · cases h
  | closeControl | tick _ | holdGates _ _ | ownership _ _ =>
      cases h
      exact .of_same rfl rfl id rfl rfl
  | coordinator id event =>
      simp only [Runtime.step] at h
      split at h
      · exact stepCoordinator_frame h
      · cases h
  | finalizer id event =>
      simp only [Runtime.step] at h
      split at h
      · exact stepFinalizer_frame h
      · cases h
  | complete id =>
      simp only [Runtime.step] at h
      split at h
      · rename_i k body _
        cases body with
        | eventPublisher | child | service =>
            cases h
            exact .of_cell ⟨rfl, rfl, rfl, rfl⟩ (s.tasks.task?_finish id _)
        | coordinator _ _ | finalizer _ => cases h
      · cases h
  | panic id =>
      simp only [Runtime.step] at h
      split at h
      · split at h
        · cases h
          exact .of_cell ⟨rfl, rfl, rfl, rfl⟩ (s.tasks.task?_finish id _)
        · cases h
      · cases h
  | cancelled id =>
      simp only [Runtime.step] at h
      split at h
      · split at h
        · cases h
          exact .of_cell ⟨rfl, rfl, rfl, rfl⟩ (s.tasks.task?_cancel id)
        · cases h
      · cases h
  | requestSpawn id c =>
      simp only [Runtime.step] at h
      split at h
      · split at h
        · rename_i hc
          simp only [Bool.and_eq_true] at hc
          cases h
          exact requestSpawn_frame (.inl hc.1.1)
        · cases h
      · cases h
  | mcpLookup token =>
      simp only [Runtime.step] at h
      split at h
      · cases h
        exact .of_same rfl rfl id rfl rfl
      · cases h
  | mcpSubmit n =>
      simp only [Runtime.step] at h
      split at h
      · rename_i tx' _
        cases h
        have hq : HostFrame s { s with mcpInFlight := s.mcpInFlight.eraseIdx n } :=
          .of_same rfl rfl id rfl rfl
        exact hq.trans (requestSpawn_frame (.inr ⟨tx', rfl⟩))
      · cases h
  | supervisor c => exact absurd rfl (ha c)

/-! ## The invariant -/

/-- The fields the loop invariant reads besides rows and tasks. -/
def Runtime.loopPart (s : Runtime) : Bool × RuntimeState × List Work × List TaskClass :=
  (s.stopping, s.state, s.agenda, s.spawnQueue)

theorem acceptTerminal_loop (s : Runtime) (tx : TransactionId) (p : TerminalProposal)
    (force : Bool) (source : TerminalSource) :
    (s.acceptTerminal tx p force source).loopPart = s.loopPart := by
  unfold Runtime.acceptTerminal
  split
  · rfl
  · dsimp only
    split <;> rfl

theorem forceRemove_loop (s : Runtime) (tx : TransactionId) :
    (s.forceRemoveTombstone tx).loopPart = s.loopPart := by
  unfold Runtime.forceRemoveTombstone
  split
  · rfl
  · unfold Runtime.dropEntry
    split <;> rfl

theorem tryRemove_loop (s : Runtime) (tx : TransactionId) :
    (s.tryRemoveTombstone tx).loopPart = s.loopPart := by
  unfold Runtime.tryRemoveTombstone
  split
  · rfl
  · split
    · exact forceRemove_loop s tx
    · rfl

theorem shutdownRow_loop (s : Runtime) (tx : TransactionId) :
    (s.shutdownRow tx).loopPart = s.loopPart := by
  unfold Runtime.shutdownRow
  split
  · rfl
  · exact acceptTerminal_loop _ _ _ _ _

theorem recoverExit_loop (s : Runtime) (c : TaskClass) (exit : TaskExit) :
    (s.recoverExit c exit).loopPart = s.loopPart := by
  unfold Runtime.recoverExit
  split
  · split
    · rfl
    · split
      · exact acceptTerminal_loop _ _ _ _ _
      · rfl
  · rfl

theorem sweepExit_loop (s : Runtime) (c : TaskClass) : (s.sweepExit c).loopPart = s.loopPart := by
  unfold Runtime.sweepExit
  split
  · rfl
  · split
    · exact tryRemove_loop _ _
    · split <;> rfl

theorem handleStart_loop (s : Runtime) (tx : TransactionId) :
    (s.handleStart tx).loopPart = s.loopPart := by
  unfold Runtime.handleStart
  split
  · rfl
  · split
    · rfl
    · split <;> rfl

theorem handleControl_loop (s : Runtime) (cmd : ControlCommand) :
    ∃ pushed, (∀ w ∈ pushed, w = .beginShutdown ∨ w = .abortAll) ∧
      (s.handleControl cmd).loopPart = (s.stopping, s.state, pushed ++ s.agenda, s.spawnQueue) := by
  cases cmd with
  | cancel tx => exact ⟨[], by simp, acceptTerminal_loop _ _ _ _ _⟩
  | forceTerminate tx => exact ⟨[], by simp, acceptTerminal_loop _ _ _ _ _⟩
  | beginShutdown => exact ⟨[.beginShutdown], by simp, rfl⟩
  | stopSupervisor => exact ⟨[.beginShutdown, .abortAll], by simp, rfl⟩

/-- After its iteration of the shutdown loop a row is decided. -/
theorem shutdownRow_decided {e : LedgerEntry}
    (h : (s.shutdownRow tx).ledger.get tx = some e) : e.terminal.isSome = true := by
  unfold Runtime.shutdownRow at h
  split at h
  · rename_i hterm
    simp only [LifecycleLedger.get_modify, if_true, Option.map_eq_some_iff] at h
    obtain ⟨e₀, he₀, rfl⟩ := h
    simpa [he₀] using hterm
  · unfold Runtime.acceptTerminal at h
    cases hrow : s.ledger.get tx with
    | none => simp [hrow] at h
    | some e₀ =>
        simp only [hrow] at h
        have hget : ∀ l : LifecycleLedger, l = s.ledger.modify tx
            (Runtime.decideRow ⟨.runtimeShutdown⟩ false) → l.get tx = some e →
            e.terminal.isSome = true := by
          rintro l rfl hl
          simp only [LifecycleLedger.get_modify, if_true, hrow, Option.map_some,
            Option.some.injEq] at hl
          rw [← hl]
          exact decideRow_isSome _ _ _
        split at h
        · exact hget _ rfl h
        · exact hget _ rfl h

/-- **A statement that only pushes.** It covers every statement of the loop
except the shutdown loop and the idle list, which the agenda records. -/
theorem LoopInv.pop {w : Work} {rest : List Work} {queue : List TaskClass}
    (hinv : LoopInv s) (hag : s.agenda = w :: rest)
    (hstep : ∀ tx, TxStep s a tx (view s tx) (view s' tx)) (pushed rest' : List Work)
    (hpart : s'.loopPart = (s.stopping, s.state, pushed ++ rest', queue))
    (hrest : rest' ⊆ rest) (hqueue : queue ⊆ s.spawnQueue)
    (hpushed : ∀ w' ∈ pushed, (w'.quiescing = true → s.stopping = true) ∧
      (w'.drained = true → ∀ tx, s'.ledger.get tx = none) ∧ w'.isRemoveIdle = false)
    (hw : ∀ ids, w = .shutdownRows ids → ids = []) : LoopInv s' := by
  simp only [Runtime.loopPart, Prod.mk.injEq] at hpart
  obtain ⟨hstop, hstate, hagenda, hspawn⟩ := hpart
  have hold : ∀ w' ∈ rest', w' ∈ s.agenda := fun w' hw' => by
    rw [hag]
    exact List.mem_cons_of_mem _ (hrest hw')
  have hnoIdle : ∀ w' ∈ pushed ++ rest', w'.isRemoveIdle = false := by
    intro w' hw'
    obtain hw' | hw' := List.mem_append.mp hw'
    · exact (hpushed w' hw').2.2
    · exact hinv.idleHead w' (by rw [hag]; exact hrest hw')
  refine ⟨?_, ?_, ?_, ?_, ?_, ?_, ?_⟩
  · rw [hstop, hstate]
    exact hinv.quiesced
  · intro hs tx e he ht
    rw [hstop] at hs
    obtain ⟨e₀, he₀, ht₀⟩ := (hstep tx).undecided (hinv.quiesced hs) he ht
    obtain ⟨ids, rest₀, hag₀, hmem⟩ := hinv.decided hs tx e₀ he₀ ht₀
    rw [hag] at hag₀
    cases hag₀
    rw [hw ids rfl] at hmem
    cases hmem
  · intro w' hw' hqs
    rw [hagenda] at hw'
    rw [hstop]
    obtain hw' | hw' := List.mem_append.mp hw'
    · exact (hpushed w' hw').1 hqs
    · exact hinv.quiescing w' (hold w' hw') hqs
  · intro w' hw' hdr tx
    rw [hagenda] at hw'
    obtain hw' | hw' := List.mem_append.mp hw'
    · exact (hpushed w' hw').2.1 hdr tx
    · have hqs : w'.quiescing = true := by
        cases w' <;> simp_all [Work.drained, Work.quiescing]
      have hs := hinv.quiescing w' (hold w' hw') hqs
      exact (hstep tx).row_none (hinv.quiesced hs) (hinv.drained w' (hold w' hw') hdr tx)
  · intro ids rest₀ hag₀
    have := hnoIdle (.removeIdle ids) (by rw [← hagenda, hag₀]; exact List.mem_cons_self)
    cases this
  · intro w' hw'
    rw [hagenda] at hw'
    exact hnoIdle w' (List.mem_of_mem_tail hw')
  · intro c hc
    rw [hspawn] at hc
    exact hinv.spawns c (hqueue hc)

/-- Steps outside the supervisor keep the invariant. -/
theorem LoopInv.host (hinv : LoopInv s) (hf : HostFrame s s')
    (hstep : ∀ tx, TxStep s a tx (view s tx) (view s' tx)) : LoopInv s' where
  quiesced hs := hf.state (hinv.quiesced (hf.stopping ▸ hs))
  decided hs tx e he ht := by
    rw [hf.stopping] at hs
    obtain ⟨e₀, he₀, ht₀⟩ := (hstep tx).undecided (hinv.quiesced hs) he ht
    rw [hf.agenda]
    exact hinv.decided hs tx e₀ he₀ ht₀
  quiescing w hw hqs := by
    rw [hf.stopping]
    exact hinv.quiescing w (hf.agenda ▸ hw) hqs
  drained w hw hdr tx := by
    have hw₀ : w ∈ s.agenda := hf.agenda ▸ hw
    have hqs : w.quiescing = true := by
      cases w <;> simp_all [Work.drained, Work.quiescing]
    exact (hstep tx).row_none (hinv.quiesced (hinv.quiescing w hw₀ hqs)) (hinv.drained w hw₀ hdr tx)
  idle ids rest hag tx htx := by
    rw [hf.agenda] at hag
    have hidle := hinv.idle ids rest hag tx htx
    rw [List.isEmpty_iff, TaskSupervisor.tasksFor_eq_nil_iff] at hidle ⊢
    intro id k' hk'
    obtain ⟨k, hk, hclass⟩ := hf.tasks id k' hk'
    rw [hclass]
    exact hidle id k hk
  idleHead w hw := hinv.idleHead w (hf.agenda ▸ hw)
  spawns c hc := (hf.spawns c hc).elim (hinv.spawns c) id

/-- The shutdown snapshot: from here on every undecided row is in the loop. -/
theorem LoopInv.snapshot {rest : List Work} {ids : List TransactionId}
    (hinv : LoopInv s) (hag : s.agenda = .beginShutdown :: rest)
    (hids : ids.isPerm s.ledger.transactionIds = true) (hstop : s'.stopping = true)
    (hstate : s'.state ≠ .accepting) (hagenda : s'.agenda = .shutdownRows ids :: rest)
    (hledger : s'.ledger = s.ledger) (hspawn : s'.spawnQueue = s.spawnQueue) : LoopInv s' := by
  have hold : ∀ w ∈ rest, w ∈ s.agenda := fun w hw => by
    rw [hag]
    exact List.mem_cons_of_mem _ hw
  refine ⟨fun _ => hstate, ?_, fun _ _ _ => hstop, ?_, ?_, ?_, ?_⟩
  · intro _ tx e he _
    refine ⟨ids, rest, hagenda, ?_⟩
    rw [(List.isPerm_iff.mp hids).mem_iff, LifecycleLedger.mem_transactionIds]
    exact ⟨e, hledger ▸ he⟩
  · intro w hw hdr tx
    rw [hagenda] at hw
    obtain rfl | hw := List.mem_cons.mp hw
    · cases hdr
    · rw [hledger]
      exact hinv.drained w (hold w hw) hdr tx
  · intro ids' rest' hag'
    rw [hagenda] at hag'
    cases hag'
  · intro w hw
    rw [hagenda] at hw
    exact hinv.idleHead w (by rw [hag]; exact hw)
  · intro c hc
    rw [hspawn] at hc
    exact hinv.spawns c hc

/-- One iteration of the shutdown loop takes its row off the undecided ones. -/
theorem LoopInv.shutdownStep {rest : List Work} {tx₀ : TransactionId} {ids : List TransactionId}
    (hinv : LoopInv s) (hag : s.agenda = .shutdownRows (tx₀ :: ids) :: rest)
    (hs' : s' = (Runtime.push { s with agenda := rest } [.shutdownRows ids]).shutdownRow tx₀)
    (hstep : ∀ tx, TxStep s a tx (view s tx) (view s' tx)) : LoopInv s' := by
  have hstop : s.stopping = true := hinv.quiescing (.shutdownRows (tx₀ :: ids)) (by simp [hag]) rfl
  have hpart := shutdownRow_loop (Runtime.push { s with agenda := rest } [.shutdownRows ids]) tx₀
  rw [← hs'] at hpart
  simp only [Runtime.loopPart, Runtime.push, Prod.mk.injEq, List.cons_append, List.nil_append]
    at hpart
  obtain ⟨hstop', hstate, hagenda, hspawn⟩ := hpart
  have hold : ∀ w ∈ rest, w ∈ s.agenda := fun w hw => by
    rw [hag]
    exact List.mem_cons_of_mem _ hw
  refine ⟨?_, ?_, ?_, ?_, ?_, ?_, ?_⟩
  · intro _
    rw [hstate]
    exact hinv.quiesced hstop
  · intro _ tx e he ht
    obtain ⟨e₀, he₀, ht₀⟩ := (hstep tx).undecided (hinv.quiesced hstop) he ht
    obtain ⟨ids', rest', hag', hmem⟩ := hinv.decided hstop tx e₀ he₀ ht₀
    rw [hag] at hag'
    cases hag'
    refine ⟨ids, rest, hagenda, ?_⟩
    refine (List.mem_cons.mp hmem).resolve_left ?_
    rintro rfl
    rw [hs'] at he
    have := shutdownRow_decided he
    simp [ht] at this
  · intro _ _ _
    rw [hstop', hstop]
  · intro w hw hdr tx
    rw [hagenda] at hw
    obtain rfl | hw := List.mem_cons.mp hw
    · cases hdr
    · exact (hstep tx).row_none (hinv.quiesced hstop) (hinv.drained w (hold w hw) hdr tx)
  · intro ids' rest' hag'
    rw [hagenda] at hag'
    cases hag'
  · intro w hw
    rw [hagenda] at hw
    exact hinv.idleHead w (by rw [hag]; exact hw)
  · intro c hc
    rw [hspawn] at hc
    exact hinv.spawns c hc

/-- The idle list is at the head of the agenda and its transactions have no
tasks. -/
theorem LoopInv.idleStep {w : Work} {rest : List Work} {ids : List TransactionId}
    (hinv : LoopInv s) (hag : s.agenda = w :: rest) (hw : w.quiescing = true)
    (hno : ∀ ids, w ≠ .shutdownRows ids)
    (hstep : ∀ tx, TxStep s a tx (view s tx) (view s' tx))
    (hpart : s'.loopPart = (s.stopping, s.state, .removeIdle ids :: rest, s.spawnQueue))
    (hidle : ∀ tx ∈ ids, (s'.tasks.tasksFor tx).isEmpty = true) : LoopInv s' := by
  have hstop : s.stopping = true := hinv.quiescing w (by simp [hag]) hw
  simp only [Runtime.loopPart, Prod.mk.injEq] at hpart
  obtain ⟨hstop', hstate, hagenda, hspawn⟩ := hpart
  have hold : ∀ w ∈ rest, w ∈ s.agenda := fun w hw => by
    rw [hag]
    exact List.mem_cons_of_mem _ hw
  refine ⟨?_, ?_, ?_, ?_, ?_, ?_, ?_⟩
  · intro _
    rw [hstate]
    exact hinv.quiesced hstop
  · intro _ tx e he ht
    obtain ⟨e₀, he₀, ht₀⟩ := (hstep tx).undecided (hinv.quiesced hstop) he ht
    obtain ⟨ids', rest', hag', _⟩ := hinv.decided hstop tx e₀ he₀ ht₀
    rw [hag] at hag'
    cases hag'
    exact absurd rfl (hno ids')
  · intro _ _ _
    rw [hstop', hstop]
  · intro w' hw' hdr tx
    rw [hagenda] at hw'
    obtain rfl | hw' := List.mem_cons.mp hw'
    · cases hdr
    · exact (hstep tx).row_none (hinv.quiesced hstop) (hinv.drained w' (hold w' hw') hdr tx)
  · intro ids' rest' hag' tx htx
    rw [hagenda] at hag'
    cases hag'
    exact hidle tx htx
  · intro w' hw'
    rw [hagenda] at hw'
    exact hinv.idleHead w' (by rw [hag]; exact hw')
  · intro c hc
    rw [hspawn] at hc
    exact hinv.spawns c hc

theorem tryRemove_tasks (s : Runtime) (tx : TransactionId) :
    (s.tryRemoveTombstone tx).tasks = s.tasks := by
  unfold Runtime.tryRemoveTombstone
  split
  · rfl
  · split
    · unfold Runtime.forceRemoveTombstone
      split
      · rfl
      · unfold Runtime.dropEntry
        split <;> rfl
    · rfl

theorem quiesce_state (s : Runtime) : s.quiesce.state ≠ .accepting := by
  unfold Runtime.quiesce
  cases s.state <;> simp

theorem signalMcpShutdown_same (s : Runtime) :
    s.signalMcpShutdown.loopPart = s.loopPart ∧ s.signalMcpShutdown.ledger = s.ledger := by
  unfold Runtime.signalMcpShutdown
  split <;> exact ⟨rfl, rfl⟩

section Supervisor

variable {w : Work} {rest : List Work} {c : Choice}

/-- Statements that leave the loop's own fields to the handlers they call. -/
theorem selectArm_loop {arm : SelectArm}
    (h : Runtime.selectArm { s with agenda := rest } arm = some s') :
    ∃ pushed queue, s'.loopPart = (s.stopping, s.state, pushed ++ rest, queue) ∧
      queue ⊆ s.spawnQueue ∧ ∀ w ∈ pushed, w.quiescing = false := by
  cases arm with
  | control =>
      simp only [Runtime.selectArm] at h
      split at h
      · cases h
      · split at h
        · cases h
          obtain ⟨pushed, hpushed, hpart⟩ := handleControl_loop _ _
          refine ⟨pushed, _, hpart, fun _ h => h, fun w hw => ?_⟩
          obtain rfl | rfl := hpushed w hw <;> rfl
        · split at h
          · cases h
            exact ⟨[.beginShutdown, .abortAll], _, rfl, fun _ h => h, by simp [Work.quiescing]⟩
          · cases h
  | worker =>
      simp only [Runtime.selectArm] at h
      split at h
      · cases h
      · cases h
        exact ⟨[], _, acceptTerminal_loop _ _ _ _ _, fun _ h => h, by simp⟩
  | start =>
      simp only [Runtime.selectArm] at h
      split at h
      · cases h
      · split at h
        · cases h
        · cases h
          refine ⟨[], s.spawnQueue, ?_, fun _ h => h, by simp⟩
          split
          · exact handleStart_loop _ _
          · split
            · exact acceptTerminal_loop _ _ _ _ _
            · rfl
  | heldTick | quiesceTick =>
      simp only [Runtime.selectArm] at h
      split at h
      · cases h
        exact ⟨[], _, rfl, fun _ h => h, by simp⟩
      · cases h
  | spawn =>
      simp only [Runtime.selectArm] at h
      split at h
      · cases h
      · rename_i cls q hq
        cases h
        refine ⟨[], q, rfl, ?_, by simp⟩
        rw [show s.spawnQueue = cls :: q from hq]
        exact List.subset_cons_self _ _
  | wake =>
      simp only [Runtime.selectArm] at h
      cases h
      split
      · exact ⟨[.beginShutdown], _, rfl, fun _ h => h, by simp [Work.quiescing]⟩
      · exact ⟨[], _, rfl, fun _ h => h, by simp⟩
  | join k =>
      simp only [Runtime.selectArm] at h
      split at h
      · cases h
        exact ⟨_, _, rfl, fun _ h => h, by simp [Work.quiescing]⟩
      · cases h

/-- A statement whose pushes are ordinary. -/
theorem LoopInv.plain {queue : List TaskClass}
    (hinv : LoopInv s) (hag : s.agenda = w :: rest)
    (hstep : ∀ tx, TxStep s a tx (view s tx) (view s' tx)) (pushed : List Work)
    (hpart : s'.loopPart = (s.stopping, s.state, pushed ++ rest, queue))
    (hqueue : queue ⊆ s.spawnQueue) (hpushed : ∀ w' ∈ pushed, w'.quiescing = false)
    (hw : ∀ ids, w = .shutdownRows ids → ids = []) : LoopInv s' := by
  refine hinv.pop hag hstep pushed rest hpart (fun _ h => h) hqueue (fun w' hw' => ?_) hw
  have := hpushed w' hw'
  cases w' <;> simp_all [Work.quiescing, Work.drained, Work.isRemoveIdle]

/-- A statement that pushes nothing. -/
theorem LoopInv.skip (hinv : LoopInv s) (hag : s.agenda = w :: rest)
    (hstep : ∀ tx, TxStep s a tx (view s tx) (view s' tx))
    (hpart : s'.loopPart = (s.stopping, s.state, rest, s.spawnQueue))
    (hw : ∀ ids, w = .shutdownRows ids → ids = []) : LoopInv s' :=
  hinv.plain hag hstep [] hpart (fun _ h => h) (by simp) hw

/-- A statement of the quiescing block whose pushes stay in the block. -/
theorem LoopInv.block
    (hinv : LoopInv s) (hag : s.agenda = w :: rest) (hw : w.quiescing = true ∨ s.stopping = true)
    (hstep : ∀ tx, TxStep s a tx (view s tx) (view s' tx)) (pushed : List Work)
    (hpart : s'.loopPart = (s.stopping, s.state, pushed ++ rest, s.spawnQueue))
    (hpushed : ∀ w' ∈ pushed, w'.drained = false ∧ w'.isRemoveIdle = false)
    (hno : ∀ ids, w = .shutdownRows ids → ids = []) : LoopInv s' := by
  have hstop : s.stopping = true := hw.elim (hinv.quiescing w (by simp [hag])) id
  refine hinv.pop hag hstep pushed rest hpart (fun _ h => h) (fun _ h => h) (fun w' hw' => ?_) hno
  exact ⟨fun _ => hstop, fun hdr => by simp [(hpushed w' hw').1] at hdr, (hpushed w' hw').2⟩

theorem execute_loopInv (hinv : LoopInv s) (hag : s.agenda = w :: rest)
    (h : Runtime.execute { s with agenda := rest } w c = some s') : LoopInv s' := by
  have hstep : ∀ tx, TxStep s (.supervisor c) tx (view s tx) (view s' tx) :=
    fun _ => execute_view hinv hag h
  have hstop : w.quiescing = true → s.stopping = true := hinv.quiescing w (by simp [hag])
  cases w with
  | loop =>
      cases c <;> cases h
      exact hinv.plain hag hstep Runtime.loopBody rfl (fun _ h => h)
        (by simp [Runtime.loopBody, Work.quiescing]) (by simp)
  | drainWorker =>
      cases c <;> try cases h
      simp only [Runtime.execute] at h
      split at h
      · cases h
        exact hinv.skip hag hstep rfl (by simp)
      · cases h
        exact hinv.plain hag hstep [.drainWorker] (acceptTerminal_loop _ _ _ _ _)
          (fun _ h => h) (by simp [Work.quiescing]) (by simp)
  | drainControl =>
      cases c <;> try cases h
      simp only [Runtime.execute] at h
      split at h
      · cases h
        exact hinv.skip hag hstep rfl (by simp)
      · split at h
        · cases h
          exact hinv.skip hag hstep rfl (by simp)
        · cases h
          obtain ⟨pushed, hpushed, hpart⟩ := handleControl_loop _ _
          refine hinv.plain hag hstep (pushed ++ [.drainControl])
            (hpart.trans (by simp [Runtime.push])) (fun _ h => h) (fun w hw => ?_) (by simp)
          obtain hw | hw := List.mem_append.mp hw
          · obtain rfl | rfl := hpushed w hw <;> rfl
          · obtain rfl := List.mem_singleton.mp hw
            rfl
  | beginShutdown =>
      cases c <;> try cases h
      simp only [Runtime.execute] at h
      split at h
      · rename_i hids
        cases h
        obtain ⟨hpart, hledger⟩ := signalMcpShutdown_same
          { Runtime.quiesce { s with agenda := rest } with stopping := true }
        simp only [Runtime.loopPart, Prod.mk.injEq] at hpart
        obtain ⟨h₁, h₂, h₃, h₄⟩ := hpart
        refine hinv.snapshot hag hids h₁ ?_ ?_ hledger h₄
        · rw [show (Runtime.push _ _).state = _ from h₂]
          exact quiesce_state _
        · exact congrArg (_ :: ·) h₃
      · cases h
  | shutdownRows ids =>
      cases c <;> cases ids <;> cases h
      · exact hinv.skip hag hstep rfl (by simp)
      · exact hinv.shutdownStep hag rfl hstep
  | abortAll =>
      cases c <;> cases h
      exact hinv.skip hag hstep rfl (by simp)
  | reap out =>
      cases c <;> try cases h
      · exact hinv.plain hag hstep [.taskExits out] rfl (fun _ h => h)
          (by simp [Work.quiescing]) (by simp)
      · simp only [Runtime.execute] at h
        split at h
        · cases h
          exact hinv.plain hag hstep _ rfl (fun _ h => h) (by simp [Work.quiescing]) (by simp)
        · cases h
  | taskExits reports =>
      cases c <;> cases reports <;> try cases h
      · exact hinv.skip hag hstep rfl (by simp)
      · rename_i r rs
        exact hinv.plain hag hstep [.sweep r.1, .taskExits rs]
          (recoverExit_loop _ _ _) (fun _ h => h) (by simp [Work.quiescing]) (by simp)
  | sweep cls =>
      cases c <;> cases h
      exact hinv.skip hag hstep (sweepExit_loop _ _) (by simp)
  | drainSpawn =>
      cases c <;> try cases h
      simp only [Runtime.execute] at h
      split at h
      · cases h
        exact hinv.skip hag hstep rfl (by simp)
      · rename_i cls q hq
        cases h
        refine hinv.plain hag hstep [.drainSpawn] rfl ?_ (by simp [Work.quiescing])
          (by simp)
        rw [show s.spawnQueue = cls :: q from hq]
        exact List.subset_cons_self _ _
  | checkQuiescing =>
      cases c <;> try cases h
      split at hstep
      · rw [if_pos ‹_›]
        exact hinv.plain hag hstep [.beginShutdown] rfl (fun _ h => h)
          (by simp [Work.quiescing]) (by simp)
      · rw [if_neg ‹_›]
        exact hinv.skip hag hstep rfl (by simp)
  | markQuiesce =>
      cases c <;> try cases h
      refine hinv.skip hag hstep ?_ (by simp)
      split <;> rfl
  | quiesceWork =>
      cases c <;> try cases h
      · simp only [Runtime.execute] at h
        split at h
        · cases h
        · cases h
          exact hinv.skip hag hstep rfl (by simp)
      · rename_i ids
        simp only [Runtime.execute] at h
        split at h
        · rename_i hcond
          cases h
          refine hinv.block hag (.inr ?_) hstep [.abortResiduals ids ids, .checkGrace]
            rfl (by simp [Work.drained, Work.isRemoveIdle]) (by simp)
          simp only [Bool.and_eq_true] at hcond
          exact hcond.1
        · cases h
  | abortResiduals todo all =>
      cases c <;> cases todo <;> cases h
      · refine hinv.idleStep hag rfl (by simp) hstep rfl ?_
        intro tx htx
        exact (List.mem_filter.mp htx).2
      · exact hinv.block hag (.inl rfl) hstep [.abortResiduals _ all] rfl
          (by simp [Work.drained, Work.isRemoveIdle]) (by simp)
  | removeIdle ids =>
      cases c <;> cases ids <;> try cases h
      · exact hinv.skip hag hstep rfl (by simp)
      · rename_i tx' ids
        refine hinv.idleStep hag rfl (by simp) hstep (tryRemove_loop _ _) ?_
        intro tx htx
        rw [tryRemove_tasks]
        exact hinv.idle _ _ hag tx (List.mem_cons_of_mem _ htx)
  | checkGrace =>
      cases c <;> try cases h
      · simp only [Runtime.execute] at h
        split at h
        · cases h
        · cases h
          exact hinv.skip hag hstep rfl (by simp)
      · rename_i ids
        simp only [Runtime.execute] at h
        split at h
        · cases h
          exact hinv.block hag (.inl rfl) hstep [.hardGrace ids] rfl
            (by simp [Work.drained, Work.isRemoveIdle]) (by simp)
        · cases h
  | hardGrace ids =>
      cases c <;> cases ids <;> try cases h
      · exact hinv.skip hag hstep rfl (by simp)
      · rename_i tx' ids
        refine hinv.block hag (.inl rfl) hstep [.hardGrace ids] ?_
          (by simp [Work.drained, Work.isRemoveIdle]) (by simp)
        simp only
        split
        · exact forceRemove_loop _ _
        · rfl
  | checkReady =>
      cases c <;> try cases h
      split at hstep
      · rename_i hcond
        rw [if_pos hcond]
        simp only [Bool.and_eq_true] at hcond
        exact hinv.block hag (.inr hcond.1) hstep
          [.rejectSpawns, .drainWorker, .confirmReady] rfl
          (by simp [Work.drained, Work.isRemoveIdle]) (by simp)
      · rw [if_neg ‹_›]
        exact hinv.skip hag hstep rfl (by simp)
  | rejectSpawns =>
      cases c <;> cases h
      exact hinv.plain hag hstep [] rfl (by simp) (by simp) (by simp)
  | confirmReady =>
      cases c <;> try cases h
      simp only [Runtime.execute] at h
      split at h
      · rename_i hempty
        have hnone := (LifecycleLedger.isEmpty_iff s.ledger).mp hempty
        split at h
        · cases h
          exact hinv.pop hag hstep [.publishReport] [] rfl (by simp)
            (fun _ h => h) (by simpa [Work.isRemoveIdle, hnone] using fun _ => hstop rfl) (by simp)
        · cases h
          exact hinv.pop hag hstep [.joining] rest rfl (fun _ h => h) (fun _ h => h)
            (by simpa [Work.isRemoveIdle, hnone, Runtime.push] using fun _ => hstop rfl) (by simp)
      · cases h
        exact hinv.skip hag hstep rfl (by simp)
  | joining =>
      have hnone := hinv.drained .joining (by simp [hag]) rfl
      cases c <;> try cases h
      · simp only [Runtime.execute] at h
        split at h
        · cases h
          split at hstep
          · rw [if_pos ‹_›]
            exact hinv.pop hag hstep [.publishReport] [] rfl (by simp)
              (fun _ h => h) (by simpa [Work.isRemoveIdle, hnone] using fun _ => hstop rfl)
              (by simp)
          · rw [if_neg ‹_›]
            exact hinv.skip hag hstep rfl (by simp)
        · cases h
      · simp only [Runtime.execute] at h
        split at h
        · cases h
          exact hinv.pop hag hstep [.joining] rest rfl (fun _ h => h) (fun _ h => h)
            (by simpa [Work.isRemoveIdle, hnone, Runtime.push] using fun _ => hstop rfl) (by simp)
        · cases h
      · exact hinv.skip hag hstep rfl (by simp)
  | select =>
      cases c <;> try cases h
      obtain ⟨pushed, queue, hpart, hqueue, hpushed⟩ := selectArm_loop h
      exact hinv.plain hag hstep _ hpart hqueue hpushed (by simp)
  | publishReport =>
      cases c <;> cases h
      exact hinv.pop hag hstep [] [] rfl (by simp) (fun _ h => h) (by simp)
        (by simp)

end Supervisor

theorem loopInv_start (config : RuntimeConfig) : LoopInv (Runtime.start config) where
  quiesced h := by cases h
  decided h := by cases h
  quiescing w hw := by
    obtain rfl := List.mem_singleton.mp hw
    intro h
    cases h
  drained w hw hdr tx := rfl
  idle ids rest h := by cases h
  idleHead w hw := by cases hw
  spawns c hc := by cases hc

theorem loopInv_step (hinv : LoopInv s) (h : Runtime.step a s = some s') : LoopInv s' := by
  by_cases ha : ∃ c, a = .supervisor c
  · obtain ⟨c, rfl⟩ := ha
    simp only [Runtime.step, Runtime.supervise] at h
    split at h
    · cases h
    · rename_i w rest hag
      exact execute_loopInv hinv hag h
  · push Not at ha
    exact hinv.host (step_frame h ha) (step_view hinv h)

/-- **The loop invariant holds in every reachable state.** -/
theorem loopInv_reach {ok : Runtime → Action → Prop} (h : runtime.Reach ok s) : LoopInv s := by
  refine h.invariant ?_ ?_
  · rintro s ⟨config, rfl⟩
    exact loopInv_start config
  · intro s a s' _ hinv _ hs
    exact loopInv_step hinv hs

end Monoloop.Lifecycle
