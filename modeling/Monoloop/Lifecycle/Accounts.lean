import Monoloop.Lib.Counting
import Monoloop.Lifecycle.Completion

/-!
# The shutdown report

The two completion counters grow exactly with the recorded attempts, the
supervisor reports drain complete only over an empty ledger, and a forced
`abort_all` is on the agenda only when a stop command or a closed control queue
put it there.
-/

namespace Monoloop.Lifecycle

open Transition (System always)

variable {s s' : Runtime} {a : Action} {tx : TransactionId}

namespace Runtime

/-- Completions the runtime has counted, one way or the other. -/
def tally (s : Runtime) : Nat := s.completionsPublished + s.completionsInvariantFailed

/-- The fields of the report and its guards; only a publishing finalizer, the
final report and a closing control queue touch them. -/
def account (s : Runtime) : Nat × Nat × Bool × Bool × Option ShutdownReport :=
  (s.tally, s.history.countP Obs.isAttempted, s.controlClosed, s.drainComplete, s.shutdownReport)

end Runtime

/-! ## Handlers -/

theorem acceptTerminal_account (s : Runtime) (tx : TransactionId) (p : TerminalProposal)
    (force : Bool) (source : TerminalSource) :
    (s.acceptTerminal tx p force source).account = s.account := by
  unfold Runtime.acceptTerminal
  split
  · rfl
  · dsimp only
    split <;> rfl

theorem forceRemove_account (s : Runtime) (tx : TransactionId) :
    (s.forceRemoveTombstone tx).account = s.account := by
  unfold Runtime.forceRemoveTombstone
  split
  · rfl
  · unfold Runtime.dropEntry
    split <;> rfl

theorem tryRemove_account (s : Runtime) (tx : TransactionId) :
    (s.tryRemoveTombstone tx).account = s.account := by
  unfold Runtime.tryRemoveTombstone
  split
  · rfl
  · split
    · exact forceRemove_account s tx
    · rfl

theorem shutdownRow_account (s : Runtime) (tx : TransactionId) :
    (s.shutdownRow tx).account = s.account := by
  unfold Runtime.shutdownRow
  split
  · rfl
  · exact acceptTerminal_account _ _ _ _ _

theorem recoverExit_account (s : Runtime) (c : TaskClass) (exit : TaskExit) :
    (s.recoverExit c exit).account = s.account := by
  unfold Runtime.recoverExit
  split
  · split
    · rfl
    · split
      · exact acceptTerminal_account _ _ _ _ _
      · rfl
  · rfl

theorem sweepExit_account (s : Runtime) (c : TaskClass) :
    (s.sweepExit c).account = s.account := by
  unfold Runtime.sweepExit
  split
  · rfl
  · split
    · exact tryRemove_account _ _
    · split <;> rfl

theorem handleStart_account (s : Runtime) (tx : TransactionId) :
    (s.handleStart tx).account = s.account := by
  unfold Runtime.handleStart
  split
  · rfl
  · split
    · rfl
    · split <;> rfl

theorem handleControl_account (s : Runtime) (cmd : ControlCommand) :
    (s.handleControl cmd).account = s.account := by
  cases cmd with
  | cancel tx => exact acceptTerminal_account _ _ _ _ _
  | forceTerminate tx => exact acceptTerminal_account _ _ _ _ _
  | beginShutdown | stopSupervisor => rfl

theorem signalMcpShutdown_account (s : Runtime) : s.signalMcpShutdown.account = s.account := by
  unfold Runtime.signalMcpShutdown
  split <;> rfl

section Supervisor

variable {w : Work} {rest : List Work} {c : Choice}

theorem selectArm_account {arm : SelectArm} (h : Runtime.selectArm s arm = some s') :
    s'.account = s.account := by
  cases arm with
  | control =>
      simp only [Runtime.selectArm] at h
      split at h
      · cases h
      · split at h
        · cases h
          exact handleControl_account _ _
        · split at h
          · cases h
            rfl
          · cases h
  | worker =>
      simp only [Runtime.selectArm] at h
      split at h
      · cases h
      · cases h
        exact acceptTerminal_account _ _ _ _ _
  | start =>
      simp only [Runtime.selectArm] at h
      split at h
      · cases h
      · split at h
        · cases h
        · cases h
          split
          · exact handleStart_account _ _
          · split
            · exact acceptTerminal_account _ _ _ _ _
            · rfl
  | heldTick | quiesceTick =>
      simp only [Runtime.selectArm] at h
      split at h
      · cases h
        rfl
      · cases h
  | spawn =>
      simp only [Runtime.selectArm] at h
      split at h <;> cases h
      rfl
  | wake =>
      simp only [Runtime.selectArm] at h
      cases h
      split <;> rfl
  | join k =>
      simp only [Runtime.selectArm] at h
      split at h <;> cases h
      rfl

theorem execute_account (h : s.execute w c = some s') (hw : w ≠ .publishReport) :
    s'.account = s.account := by
  cases w with
  | publishReport => exact absurd rfl hw
  | select =>
      cases c <;> try cases h
      exact selectArm_account h
  | drainWorker =>
      cases c <;> try cases h
      simp only [Runtime.execute] at h
      split at h <;> cases h
      · rfl
      · exact acceptTerminal_account _ _ _ _ _
  | drainControl =>
      cases c <;> try cases h
      simp only [Runtime.execute] at h
      split at h
      · cases h
        rfl
      · split at h <;> cases h
        · rfl
        · exact handleControl_account _ _
  | beginShutdown =>
      cases c <;> try cases h
      simp only [Runtime.execute] at h
      split at h <;> cases h
      exact signalMcpShutdown_account _
  | shutdownRows ids =>
      cases c <;> cases ids <;> cases h
      · rfl
      · exact shutdownRow_account _ _
  | taskExits reports =>
      cases c <;> cases reports <;> cases h
      · rfl
      · exact recoverExit_account _ _ _
  | sweep cls =>
      cases c <;> cases h
      exact sweepExit_account _ _
  | removeIdle ids =>
      cases c <;> cases ids <;> cases h
      · rfl
      · exact tryRemove_account _ _
  | hardGrace ids =>
      cases c <;> cases ids <;> cases h
      · rfl
      · split
        · exact forceRemove_account _ _
        · rfl
  | reap out =>
      cases c <;> try cases h
      · rfl
      · simp only [Runtime.execute] at h
        split at h <;> cases h
        rfl
  | joining =>
      cases c <;> simp only [Runtime.execute] at h <;> try cases h
      · split at h <;> cases h
        split <;> rfl
      · split at h <;> cases h
        rfl
      · rfl
  | abortResiduals todo all => cases c <;> cases todo <;> cases h <;> rfl
  | loop | abortAll | rejectSpawns =>
      cases c <;> cases h
      rfl
  | drainSpawn =>
      cases c <;> try cases h
      simp only [Runtime.execute] at h
      split at h <;> cases h <;> rfl
  | checkQuiescing | markQuiesce | checkReady =>
      cases c <;> cases h
      split <;> rfl
  | quiesceWork | checkGrace =>
      cases c <;> simp only [Runtime.execute] at h <;> try cases h
      all_goals
        split at h <;> cases h
        rfl
  | confirmReady =>
      cases c <;> try cases h
      simp only [Runtime.execute] at h
      split at h
      · split at h <;> cases h <;> rfl
      · cases h
        rfl

end Supervisor

/-! ## Hosts and tasks -/

theorem revokeMcp_account (s : Runtime) (token : Option Mcp.CapabilityToken) :
    (s.revokeMcp token).account = s.account := by
  unfold Runtime.revokeMcp
  split <;> rfl

theorem coordinatorBegin_account (s : Runtime) (id : TaskId) (tx : TransactionId)
    (params : CoordinatorParams) (drawn : Option Mcp.CapabilityToken) (accepted : Bool) :
    (s.coordinatorBegin id tx params drawn accepted).account = s.account := by
  unfold Runtime.coordinatorBegin
  split
  · rfl
  · split
    · rfl
    · split
      · rfl
      · split
        · rfl
        · split
          · rfl
          · split
            · split
              · rfl
              · split
                · rfl
                · split <;> rfl
            · split <;> rfl

theorem gateOpened_account (s : Runtime) (id : TaskId) (tx : TransactionId)
    (params : CoordinatorParams) (token : Option Mcp.CapabilityToken)
    (external : Option ExternalSessionId) :
    (s.gateOpened id tx params token external).account = s.account := by
  unfold Runtime.gateOpened
  dsimp only
  split
  · rfl
  · split
    · rfl
    · split <;> rfl

theorem gateEstablished_account (s : Runtime) (id : TaskId) (params : CoordinatorParams)
    (token : Option Mcp.CapabilityToken) (ext : ExternalSessionId) (ok : Bool) :
    (s.gateEstablished id params token ext ok).account = s.account := by
  unfold Runtime.gateEstablished
  dsimp only
  split
  · rfl
  · split
    · rfl
    · split <;> rfl

theorem stepCoordinator_account {id : TaskId} {params : CoordinatorParams} {pc : CoordinatorPc}
    {event : Runtime.CoordinatorEvent} (h : s.stepCoordinator id tx params pc event = some s') :
    s'.account = s.account := by
  unfold Runtime.stepCoordinator at h
  split at h
  · cases h
    exact coordinatorBegin_account s id tx params _ _
  · split at h <;> cases h
    exact revokeMcp_account s _
  · split at h
    · cases h
    · split at h <;> cases h
      · rfl
      · exact revokeMcp_account s _
  · cases h
    exact gateOpened_account s id tx params _ _
  · cases h
    exact gateEstablished_account s id params _ _ _
  · cases h
    rfl
  · cases h
    rfl
  · cases h
    exact revokeMcp_account s _
  · cases h
    rfl
  · cases h
    unfold Runtime.coordinatorNotify
    dsimp only
    split <;> rfl
  · cases h

theorem stepFinalizer_account {id : TaskId} {pc : FinalizerPc} {event : Runtime.FinalizerEvent}
    (h : s.stepFinalizer id tx pc event = some s') : s'.account = s.account ∨
      ∃ snap d n alive, pc = .publishing snap d n ∧ s' = s.finalizerPublish id tx snap d n alive := by
  unfold Runtime.stepFinalizer at h
  split at h
  · cases h
    unfold Runtime.finalizerResume
    split <;> exact .inl rfl
  · cases h
    exact .inl rfl
  · cases h
    unfold Runtime.finalizerSettle
    dsimp only
    split <;> exact .inl rfl
  · cases h
    exact .inr ⟨_, _, _, _, rfl, rfl⟩
  · cases h

theorem sendControl_account (s : Runtime) (cmd : ControlCommand) :
    (s.sendControl cmd).account = s.account := by
  unfold Runtime.sendControl
  split <;> rfl

theorem requestSpawn_account (s : Runtime) (c : TaskClass) :
    (s.requestSpawn c).account = s.account := by
  unfold Runtime.requestSpawn
  split <;> rfl

/-- **What a step does to the account.** -/
inductive AccountStep (s s' : Runtime) (a : Action) : Prop where
  | same (h : s'.account = s.account)
  | closed (ha : a = .closeControl) (h : s' = { s with controlClosed := true })
  | reported (rest : List Work) (hag : s.agenda = .publishReport :: rest)
      (h : s' = { s with
        ownedTasks := 0
        shutdownReport := some s.finalReport
        drainComplete := true
        agenda := [] })
  | published (id : TaskId) (tx : TransactionId) (abort : Bool) (snap : FinalizerSnapshot)
      (d : TerminalEventDelivery) (n : Nat) (alive : Bool)
      (hk : s.tasks.task? id =
        some ⟨.finalizer tx, abort, .running (.finalizer (.publishing snap d n))⟩)
      (h : s' = s.finalizerPublish id tx snap d n alive)

theorem step_account (h : Runtime.step a s = some s') : AccountStep s s' a := by
  cases a with
  | reserve request =>
      simp only [Runtime.step] at h
      split at h
      · rename_i s₁ hok
        cases h
        simp only [Runtime.reserve, bind, Except.bind, pure, Except.pure] at hok
        split at hok
        · cases hok
        · split at hok
          · cases hok
          · split at hok <;> cases hok
            exact .same rfl
      · cases h
        exact .same rfl
  | install n tx' =>
      simp only [Runtime.step, Runtime.install] at h
      split at h
      · cases h
      · split at h
        · split at h
          · rename_i s₁ hok
            cases h
            obtain ⟨_, _, ledger, _, rfl⟩ := admitLocked_ok hok
            exact .same rfl
          · cases h
            exact .same rfl
        · cases h
  | terminate selector mode =>
      cases h
      unfold Runtime.terminate
      refine .same ?_
      split
      · rfl
      · split
        · rfl
        · split
          · rfl
          · split
            · rfl
            · exact sendControl_account _ _
  | beginShutdown =>
      cases h
      exact .same (sendControl_account _ _)
  | dropOwner =>
      cases h
      unfold Runtime.dropOwner
      refine .same ?_
      dsimp only
      split
      · rfl
      · exact (sendControl_account _ _).trans (sendControl_account _ _)
  | threadJoined =>
      simp only [Runtime.step] at h
      split at h <;> cases h
      exact .same rfl
  | closeControl =>
      cases h
      exact .closed rfl rfl
  | tick _ | holdGates _ _ | ownership _ _ =>
      cases h
      exact .same rfl
  | coordinator id event =>
      simp only [Runtime.step] at h
      split at h
      · exact .same (stepCoordinator_account h)
      · cases h
  | finalizer id event =>
      simp only [Runtime.step] at h
      split at h
      · rename_i tx' abort cell pc hpoll
        obtain hsame | ⟨snap, d, n, alive, rfl, rfl⟩ := stepFinalizer_account h
        · exact .same hsame
        · obtain ⟨hk, hcell, _⟩ := polled_some hpoll
          obtain rfl : cell = _ := hcell
          exact .published id tx' abort snap d n alive hk rfl
      · cases h
  | complete id =>
      simp only [Runtime.step] at h
      split at h
      · rename_i k body _
        cases body <;> cases h <;> exact .same rfl
      · cases h
  | panic id | cancelled id =>
      simp only [Runtime.step] at h
      split at h
      · split at h <;> cases h
        exact .same rfl
      · cases h
  | requestSpawn id cls =>
      simp only [Runtime.step] at h
      split at h
      · split at h <;> cases h
        exact .same (requestSpawn_account _ _)
      · cases h
  | mcpLookup token =>
      simp only [Runtime.step] at h
      split at h <;> cases h
      exact .same rfl
  | mcpSubmit n =>
      simp only [Runtime.step] at h
      split at h <;> cases h
      exact .same (requestSpawn_account _ _)
  | supervisor c =>
      simp only [Runtime.step, Runtime.supervise] at h
      split at h
      · cases h
      · rename_i w rest hag
        by_cases hw : w = .publishReport
        · subst hw
          cases c <;> cases h
          exact .reported rest hag rfl
        · exact .same (execute_account (s := { s with agenda := rest }) h hw)

/-! ## Who forces the stop -/

theorem agenda_of_loop (h : s'.loopPart = s.loopPart) : s'.agenda = s.agenda :=
  congrArg (·.2.2.1) h

theorem handleControl_agenda (s : Runtime) (cmd : ControlCommand)
    (h : .abortAll ∈ (s.handleControl cmd).agenda) :
    .abortAll ∈ s.agenda ∨ cmd = .stopSupervisor := by
  cases cmd with
  | cancel tx | forceTerminate tx =>
      simp only [Runtime.handleControl, agenda_of_loop (acceptTerminal_loop _ _ _ _ _)] at h
      exact .inl h
  | beginShutdown =>
      simp only [Runtime.handleControl, Runtime.push] at h
      exact .inl (by simpa using h)
  | stopSupervisor => exact .inr rfl

section Supervisor

variable {w : Work} {rest : List Work} {c : Choice}

theorem selectArm_forced {arm : SelectArm} (hag : s.agenda = .select :: rest)
    (h : Runtime.selectArm { s with agenda := rest } arm = some s')
    (hmem : .abortAll ∈ s'.agenda) :
    .abortAll ∈ rest ∨ s.takesControl (.supervisor (.arm arm)) = some .stopSupervisor ∨
      s.controlClosed = true := by
  cases arm with
  | control =>
      simp only [Runtime.selectArm] at h
      split at h
      · cases h
      · rename_i hhold
        split at h
        · rename_i cmd q hq
          cases h
          obtain hrest | rfl := handleControl_agenda _ _ hmem
          · exact .inl hrest
          · exact .inr (.inl (by simp_all [Runtime.takesControl]))
        · split at h
          · exact .inr (.inr ‹_›)
          · cases h
  | worker =>
      simp only [Runtime.selectArm] at h
      split at h <;> cases h
      rw [agenda_of_loop (acceptTerminal_loop _ _ _ _ _)] at hmem
      exact .inl hmem
  | start =>
      simp only [Runtime.selectArm] at h
      split at h
      · cases h
      · split at h <;> cases h
        refine .inl ?_
        split at hmem
        · rwa [agenda_of_loop (handleStart_loop _ _)] at hmem
        · split at hmem
          · rwa [agenda_of_loop (acceptTerminal_loop _ _ _ _ _)] at hmem
          · exact hmem
  | heldTick | quiesceTick | spawn =>
      simp only [Runtime.selectArm] at h
      split at h <;> cases h
      exact .inl hmem
  | wake =>
      simp only [Runtime.selectArm] at h
      cases h
      refine .inl ?_
      split at hmem
      · simpa [Runtime.push] using hmem
      · exact hmem
  | join k =>
      simp only [Runtime.selectArm] at h
      split at h <;> cases h
      exact .inl (by simpa [Runtime.push] using hmem)

theorem execute_forced (hag : s.agenda = w :: rest)
    (h : Runtime.execute { s with agenda := rest } w c = some s') (hmem : .abortAll ∈ s'.agenda) :
    .abortAll ∈ rest ∨ s.takesControl (.supervisor c) = some .stopSupervisor ∨
      s.controlClosed = true := by
  cases w with
  | select =>
      cases c <;> try cases h
      exact selectArm_forced hag h hmem
  | drainControl =>
      cases c <;> try cases h
      simp only [Runtime.execute] at h
      split at h
      · cases h
        exact .inl hmem
      · split at h <;> cases h
        · exact .inl hmem
        · obtain hrest | rfl := handleControl_agenda _ _ hmem
          · exact .inl (by simpa [Runtime.push] using hrest)
          · exact .inr (.inl (by simp_all [Runtime.takesControl]))
  | loop =>
      cases c <;> cases h
      exact .inl (by simpa [Runtime.push, Runtime.loopBody] using hmem)
  | drainWorker =>
      cases c <;> try cases h
      simp only [Runtime.execute] at h
      split at h <;> cases h
      · exact .inl hmem
      · rw [agenda_of_loop (acceptTerminal_loop _ _ _ _ _)] at hmem
        exact .inl (by simpa [Runtime.push] using hmem)
  | beginShutdown =>
      cases c <;> try cases h
      simp only [Runtime.execute] at h
      split at h <;> cases h
      simp only [Runtime.push, agenda_of_loop (signalMcpShutdown_same _).1] at hmem
      exact .inl (by simpa [Runtime.quiesce] using hmem)
  | shutdownRows ids =>
      cases c <;> cases ids <;> cases h
      · exact .inl hmem
      · rw [agenda_of_loop (shutdownRow_loop _ _)] at hmem
        exact .inl (by simpa [Runtime.push] using hmem)
  | taskExits reports =>
      cases c <;> cases reports <;> cases h
      · exact .inl hmem
      · rw [agenda_of_loop (recoverExit_loop _ _ _)] at hmem
        exact .inl (by simpa [Runtime.push] using hmem)
  | sweep cls =>
      cases c <;> cases h
      rw [agenda_of_loop (sweepExit_loop _ _)] at hmem
      exact .inl hmem
  | removeIdle ids =>
      cases c <;> cases ids <;> cases h
      · exact .inl hmem
      · rw [agenda_of_loop (tryRemove_loop _ _)] at hmem
        exact .inl (by simpa [Runtime.push] using hmem)
  | hardGrace ids =>
      cases c <;> cases ids <;> cases h
      · exact .inl hmem
      · split at hmem
        · rw [agenda_of_loop (forceRemove_loop _ _)] at hmem
          exact .inl (by simpa [Runtime.push] using hmem)
        · exact .inl (by simpa [Runtime.push] using hmem)
  | abortResiduals todo all =>
      cases c <;> cases todo <;> cases h <;> exact .inl (by simpa [Runtime.push] using hmem)
  | abortAll | rejectSpawns =>
      cases c <;> cases h
      exact .inl hmem
  | publishReport =>
      cases c <;> cases h
      cases hmem
  | reap out =>
      cases c <;> try cases h
      · exact .inl (by simpa [Runtime.push] using hmem)
      · simp only [Runtime.execute] at h
        split at h <;> cases h
        exact .inl (by simpa [Runtime.push] using hmem)
  | joining =>
      cases c <;> simp only [Runtime.execute] at h <;> try cases h
      · split at h <;> cases h
        split at hmem
        · simp at hmem
        · exact .inl hmem
      · split at h <;> cases h
        exact .inl (by simpa [Runtime.push] using hmem)
      · exact .inl hmem
  | drainSpawn =>
      cases c <;> try cases h
      simp only [Runtime.execute] at h
      split at h <;> cases h
      · exact .inl hmem
      · exact .inl (by simpa [Runtime.push, Runtime.registerSpawn] using hmem)
  | checkQuiescing | markQuiesce | checkReady =>
      cases c <;> cases h
      split at hmem <;> exact .inl (by simpa [Runtime.push] using hmem)
  | quiesceWork | checkGrace =>
      cases c <;> simp only [Runtime.execute] at h <;> try cases h
      all_goals
        split at h <;> cases h
        exact .inl (by simpa [Runtime.push] using hmem)
  | confirmReady =>
      cases c <;> try cases h
      simp only [Runtime.execute] at h
      split at h
      · split at h <;> cases h
        · simp at hmem
        · exact .inl (by simpa [Runtime.push] using hmem)
      · cases h
        exact .inl hmem

end Supervisor

def Action.closesControl : Action → Bool
  | .closeControl => true
  | _ => false

/-- No stop command is processed and the control queue stays open. -/
def Runtime.staysOpen (s : Runtime) (a : Action) : Prop :=
  s.takesControl a ≠ some .stopSupervisor ∧ a.closesControl = false

instance (s : Runtime) (a : Action) : Decidable (s.staysOpen a) :=
  inferInstanceAs (Decidable (_ ∧ _))

theorem unforced_reach (h : runtime.Reach Runtime.staysOpen s) :
    .abortAll ∉ s.agenda ∧ s.controlClosed = false := by
  refine h.invariant (P := fun s => .abortAll ∉ s.agenda ∧ s.controlClosed = false) ?_ ?_
  · rintro s ⟨config, rfl⟩
    simp [Runtime.start]
  · intro s a s' _ hinv hok hs
    obtain ⟨hno, hopen⟩ := hinv
    obtain ⟨htake, hclose⟩ := hok
    refine ⟨?_, ?_⟩
    · by_cases ha : ∃ c, a = .supervisor c
      · obtain ⟨c, rfl⟩ := ha
        simp only [runtime, Runtime.step, Runtime.supervise] at hs
        split at hs
        · cases hs
        · rename_i w rest hag
          intro hmem
          obtain hrest | hstop | hclosed := execute_forced hag hs hmem
          · exact hno (hag ▸ List.mem_cons_of_mem _ hrest)
          · exact htake hstop
          · simp [hopen] at hclosed
      · push Not at ha
        rw [(step_frame hs ha).agenda]
        exact hno
    · cases step_account hs with
      | same h => exact (congrArg (·.2.2.1) h).trans hopen
      | closed ha => simp [ha, Action.closesControl] at hclose
      | reported rest hag h => exact h ▸ hopen
      | published id tx abort snap d n alive hk h =>
          rw [h]
          unfold Runtime.finalizerPublish Runtime.countCompletion
          dsimp only
          split
          · split <;> exact hopen
          · exact hopen

/-- Without a stop command nothing aborts a finalizer. -/
theorem stopSpares_of_staysOpen (h : runtime.Reach Runtime.staysOpen s) :
    runtime.Reach Runtime.stopSpares s := by
  refine h.strengthen (fun s a hr _ hall => ?_)
  refine absurd ?_ (unforced_reach hr).1
  unfold Runtime.abortsAll at hall
  split at hall
  · exact List.mem_of_mem_head? (by simpa using hall)
  · cases hall

/-! ## Counting -/

theorem tally_publish {id : TaskId} {snap : FinalizerSnapshot} {d : TerminalEventDelivery} {n : Nat}
    {alive : Bool} (h : snap.completionTx.isSome) :
    (s.finalizerPublish id tx snap d n alive).tally = s.tally + 1 ∧
      (s.finalizerPublish id tx snap d n alive).history.countP Obs.isAttempted =
        s.history.countP Obs.isAttempted + 1 := by
  obtain ⟨sender, hsender⟩ := Option.isSome_iff_exists.mp h
  unfold Runtime.finalizerPublish
  simp only [hsender]
  refine ⟨?_, ?_⟩
  · cases sender.send alive <;>
      simp [Runtime.countCompletion, Runtime.observe, Runtime.tally] <;> omega
  · cases sender.send alive <;> exact List.countP_cons_of_pos rfl

/-- A registered finalizer in its publishing step is the one its slot holds. -/
theorem publishing_slot {ok : Runtime → Action → Prop} {id : TaskId} {abort : Bool}
    {snap : FinalizerSnapshot} {d : TerminalEventDelivery} {n : Nat} (h : runtime.Reach ok s)
    (hk : s.tasks.task? id =
      some ⟨.finalizer tx, abort, .running (.finalizer (.publishing snap d n))⟩) :
    ∃ t, Shows s tx t ∧ t.finalizer = some (abort, .running (.finalizer (.publishing snap d n))) := by
  obtain ⟨t, ht, _⟩ := exists_shows h tx
  exact ⟨t, ht, ht.finalizer.eq_some (tasksOf_some.mpr ⟨hk, rfl⟩) rfl⟩

/-- **The counters count the attempts.** -/
theorem tally_reach {ok : Runtime → Action → Prop} (h : runtime.Reach ok s) :
    s.tally = s.history.countP Obs.isAttempted := by
  refine h.invariant (P := fun s => s.tally = s.history.countP Obs.isAttempted) ?_ ?_
  · rintro s ⟨config, rfl⟩
    rfl
  · intro s a s' hr heq _ hs
    cases step_account hs with
    | same h =>
        simp only [Runtime.account, Prod.mk.injEq] at h
        rw [h.1, h.2.1, heq]
    | closed _ h | reported _ _ h =>
        rw [h]
        exact heq
    | published id tx abort snap d n alive hk h =>
        obtain ⟨t, ht, hf⟩ := publishing_slot hr hk
        have hsome := ((finalizerInv_reach hr ht).holding _ _ _ hf rfl).1
        rw [h, (tally_publish hsome).1, (tally_publish hsome).2, heq]

/-- The report, once given, is over an empty ledger and stays accurate. -/
structure Drained (s : Runtime) : Prop where
  stopping : s.stopping = true
  agenda : s.agenda = []
  rows : ∀ tx, s.ledger.get tx = none
  report : ∃ r, s.shutdownReport = some r ∧
    r.completionsPublished + r.completionsInvariantFailed = s.tally

theorem Drained.step {ok : Runtime → Action → Prop} (h : Drained s) (hr : runtime.Reach ok s)
    (hs : Runtime.step a s = some s') : Drained s' := by
  have hinv := loopInv_reach hr
  have ha : ∀ c, a ≠ .supervisor c := by
    rintro c rfl
    simp [Runtime.step, Runtime.supervise, h.agenda] at hs
  have hframe := step_frame hs ha
  refine ⟨hframe.stopping.trans h.stopping, hframe.agenda.trans h.agenda, fun tx => ?_, ?_⟩
  · exact (step_view hinv hs tx).row_none (hinv.quiesced h.stopping) (h.rows tx)
  · obtain ⟨r, hr₁, hr₂⟩ := h.report
    cases step_account hs with
    | same heq =>
        simp only [Runtime.account, Prod.mk.injEq] at heq
        exact ⟨r, heq.2.2.2.2.trans hr₁, by rw [heq.1, hr₂]⟩
    | closed _ h =>
        rw [h]
        exact ⟨r, hr₁, hr₂⟩
    | reported rest hag => simp [h.agenda] at hag
    | published id tx abort snap d n alive hk =>
        -- a finalizer would still have its row
        obtain ⟨t, ht, hf⟩ := publishing_slot hr hk
        have := ((slotInv_reach hr ht).gone (ht.row.trans (h.rows tx))).1
        simp [this] at hf

theorem drained_reach {ok : Runtime → Action → Prop} (h : runtime.Reach ok s) :
    s.drainComplete = true → Drained s := by
  refine h.invariant (P := fun s => s.drainComplete = true → Drained s) ?_ ?_
  · rintro s ⟨config, rfl⟩ hd
    cases hd
  · intro s a s' hr ih _ hs hd
    by_cases hold : s.drainComplete = true
    · exact (ih hold).step hr hs
    · cases step_account hs with
      | same heq =>
          simp only [Runtime.account, Prod.mk.injEq] at heq
          exact absurd (heq.2.2.2.1.symm.trans hd) hold
      | closed _ h =>
          rw [h] at hd
          exact absurd hd hold
      | reported rest hag h =>
          have hinv := loopInv_reach hr
          have hmem : .publishReport ∈ s.agenda := by simp [hag]
          rw [h]
          exact ⟨hinv.quiescing _ hmem rfl, rfl, hinv.drained _ hmem rfl, _, rfl, rfl⟩
      | published id tx abort snap d n alive hk h =>
          refine absurd ?_ hold
          rw [← hd, h]
          unfold Runtime.finalizerPublish Runtime.countCompletion
          dsimp only
          split
          · split <;> rfl
          · rfl

def Obs.isAdmitted : Obs → Bool
  | .admitted _ => true
  | _ => false

theorem isAdmitted_iff {o : Obs} (h : o.transactionId = tx) :
    o.isAdmitted = true ↔ o = .admitted tx := by
  subst h
  cases o <;> simp [Obs.isAdmitted, Obs.transactionId]

/-- A transaction is admitted at most once. -/
theorem admitted_once {ok : Runtime → Action → Prop} {t : TxState} (h : runtime.Reach ok s)
    (ht : Shows s tx t) : t.seen.countP Obs.isAdmitted ≤ 1 := by
  refine Reach.local (I := fun t => t.seen.countP Obs.isAdmitted ≤ 1) (by simp [TxState.new]) ?_ h ht
  intro s a t t' hr _ ht hone hmove
  cases hmove with
  | admitted e drains absent fresh _ _ _ _ _ _ _ seen =>
      have hzero : t.seen.countP Obs.isAdmitted = 0 := by
        rw [List.countP_eq_zero]
        intro o ho hadm
        have hown : o.transactionId = tx := historyOf_owned o (ht.seen ▸ ho)
        exact fresh ((isAdmitted_iff hown).mp hadm ▸ ho)
      simp [seen, List.countP_cons, hzero, Obs.isAdmitted]
  | published _ _ _ _ _ _ _ _ _ _ _ _ _ _ seen =>
      rw [seen]
      split <;> simpa [List.countP_cons, Obs.isAdmitted] using hone
  | _ => simp_all [Obs.isAdmitted]

theorem countP_pos_iff_mem {history : List Obs} :
    0 < (historyOf history tx).countP Obs.isAdmitted ↔ .admitted tx ∈ historyOf history tx := by
  rw [List.countP_pos_iff]
  constructor
  · rintro ⟨o, ho, hadm⟩
    exact (isAdmitted_iff (historyOf_owned o ho)).mp hadm ▸ ho
  · exact fun h => ⟨_, h, rfl⟩

/-- Over an empty ledger each admitted transaction has exactly one attempt. -/
theorem attempts_eq_admissions (h : runtime.Reach Runtime.stopSpares s)
    (hrow : s.ledger.get tx = none) :
    (historyOf s.history tx).countP Obs.isAttempted =
      (historyOf s.history tx).countP Obs.isAdmitted := by
  obtain ⟨t, ht, _⟩ := exists_shows h tx
  have hseen : t.seen = historyOf s.history tx := ht.seen
  have hfin := finalizerInv_reach h ht
  have hadm := admitted_once h ht
  have hone := hfin.once
  rw [hseen] at hadm hone
  have hnone : t.row = none := ht.row.trans hrow
  by_cases hmem : .admitted tx ∈ historyOf s.history tx
  · have hpos := countP_pos_iff_mem.mpr hmem
    have hsent : 0 < (historyOf s.history tx).countP Obs.isAttempted := by
      obtain ⟨o, ho, hsent⟩ := (completionInv_reach h ht).gone hnone (hseen ▸ hmem)
      exact List.countP_pos_iff.mpr ⟨o, hseen ▸ ho, hsent⟩
    omega
  · have hzero := (not_congr countP_pos_iff_mem).mpr hmem
    have hnot := not_attempted (hfin.undecided (undecided_of_absent hnone (hseen ▸ hmem)))
    have : (historyOf s.history tx).countP Obs.isAttempted = 0 := by
      rw [List.countP_eq_zero]
      exact fun o ho hsent => hnot ⟨o, hseen ▸ ho, hsent⟩
    omega

/-- What a host may rely on about completions in a state. -/
structure CompletesOnce (s : Runtime) : Prop where
  /-- At most one send is attempted for a transaction. -/
  once : ∀ tx, (historyOf s.history tx).countP Obs.isAttempted ≤ 1
  /-- A removal is recorded (newest first) only after the attempt. -/
  first : ∀ tx e newer older, s.history = newer ++ .removed tx e :: older →
    ∃ c r, .attempted tx c r ∈ older
  /-- No row of an admitted transaction is missing without the attempt. -/
  kept : ∀ tx, .admitted tx ∈ s.history → s.ledger.get tx = none →
    ∃ c r, .attempted tx c r ∈ s.history
  /-- Drain complete means an empty ledger and one completion for each admission. -/
  drained : s.drainComplete = true → s.ledger.isEmpty = true ∧
    s.completionsPublished + s.completionsInvariantFailed = s.history.countP Obs.isAdmitted ∧
    ∃ r, s.shutdownReport = some r ∧ r.completionsPublished + r.completionsInvariantFailed =
      s.history.countP Obs.isAdmitted

/-- **Exactly one completion**, in every run in which no stop command is
processed and the control queue stays open. -/
theorem completion_exactly_once (h : runtime.Reach Runtime.staysOpen s) : CompletesOnce s where
  once tx := by
    obtain ⟨t, ht, _⟩ := exists_shows h tx
    have hseen : t.seen = historyOf s.history tx := ht.seen
    exact hseen ▸ (finalizerInv_reach h ht).once
  first tx := (attempts_first (stopSpares_of_staysOpen h) tx).1
  kept tx := (attempts_first (stopSpares_of_staysOpen h) tx).2
  drained hdone := by
    have hdrained := drained_reach h hdone
    have htotal : s.tally = s.history.countP Obs.isAdmitted := by
      rw [tally_reach h]
      refine Counting.countP_eq_of_fibers Obs.transactionId (fun tx => ?_)
      exact attempts_eq_admissions (stopSpares_of_staysOpen h) (hdrained.rows tx)
    obtain ⟨r, hr, hsum⟩ := hdrained.report
    exact ⟨s.ledger.isEmpty_iff.mpr hdrained.rows, htotal, r, hr, hsum.trans htotal⟩

/-- The sample transaction is shut down, its finalizer publishes, its tasks end
and the supervisor drains. -/
def gracefulRun : List Action :=
  sampleStart ++ [.beginShutdown] ++ supervisorRuns 3 ++
    [.supervisor (.order [sampleTransaction])] ++ supervisorRuns 2 ++
    [.finalizer ⟨4⟩ (.resume .accepted), .finalizer ⟨4⟩ (.reply (some (.published, 1))),
      .finalizer ⟨4⟩ .settle, .finalizer ⟨4⟩ (.publish true)] ++
    supervisorRuns 6 ++ [.supervisor (.order [sampleTransaction])] ++ supervisorRuns 5 ++
    [.cancelled ⟨3⟩, .complete ⟨2⟩, .complete ⟨1⟩, .supervisor (.arm .quiesceTick)] ++
    supervisorRuns 3 ++
    [.supervisor (.joined ⟨1⟩), .supervisor (.joined ⟨2⟩), .supervisor (.joined ⟨3⟩),
      .supervisor (.joined ⟨0⟩)] ++
    supervisorRuns 13 ++ [.supervisor (.order [])] ++ supervisorRuns 8

theorem graceful_shutdown_completes_once : ∃ s, runtime.Reach Runtime.staysOpen s ∧
    s.drainComplete = true ∧ CompletesOnce s := by
  obtain ⟨s, hs, hp⟩ := System.exists_of_runWhere Runtime.staysOpen sample_init gracefulRun
    (·.drainComplete) (by decide +kernel)
  exact ⟨s, hs, hp, completion_exactly_once hs⟩

end Monoloop.Lifecycle
