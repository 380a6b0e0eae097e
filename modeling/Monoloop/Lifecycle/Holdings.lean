import Monoloop.Lifecycle.LedgerIndex
import Monoloop.Lifecycle.Supervisor

/-!
# What the runtime holds

Capacity is held by pending admissions and by ledger rows, sessions by rows and
their index, a start slot by a queued start command. `step_held` says, for every
step of the runtime, what it does to these: almost every step keeps them, and
the others stop admission, take one start command, bind one session, reserve
once, install or refuse one admission, or remove one row.
-/

namespace Monoloop.Lifecycle

variable {s s' : Runtime} {a : Action} {tx : TransactionId}

/-- What a row holds on to: its channel's capacity, if it owns a reservation,
and its session. -/
def LedgerEntry.holding (e : LedgerEntry) : ChannelId × Bool × Option SessionKey :=
  (e.channelId, e.reservations, e.sessionKey)

/-- What each row of a ledger holds. -/
def LifecycleLedger.holdings (l : LifecycleLedger) (tx : TransactionId) :
    Option (ChannelId × Bool × Option SessionKey) :=
  (l.get tx).map (·.holding)

/-- The part of the runtime that is held by somebody, and whether more may be
handed out. -/
structure Held where
  config : RuntimeConfig
  state : RuntimeState
  pool : ReservationPool
  admitting : List PendingAdmission
  startQueue : List TransactionId
  rows : TransactionId → Option (ChannelId × Bool × Option SessionKey)
  index : HashMap SessionKey TransactionId

def Runtime.held (s : Runtime) : Held where
  config := s.config
  state := s.state
  pool := s.pool
  admitting := s.admitting
  startQueue := s.startQueue
  rows := s.ledger.holdings
  index := s.ledger.bySession

/-- An edit of a row that leaves what it holds. -/
theorem holdings_modify (l : LifecycleLedger) (tx : TransactionId)
    {f : LedgerEntry → LedgerEntry} (hf : ∀ e, (f e).holding = e.holding) :
    (l.modify tx f).holdings = l.holdings := by
  funext tx'
  unfold LifecycleLedger.holdings
  rw [LifecycleLedger.get_modify]
  split
  · cases l.get tx' <;> simp [hf]
  · rfl

theorem held_modify (s : Runtime) (tx : TransactionId)
    {f : LedgerEntry → LedgerEntry} (hf : ∀ e, (f e).holding = e.holding) :
    { s with ledger := s.ledger.modify tx f }.held = s.held := by
  unfold Runtime.held
  rw [holdings_modify _ _ hf]
  rfl

/-! ## Handlers -/

theorem decideRow_holding (p : TerminalProposal) (force : Bool) (e : LedgerEntry) :
    (Runtime.decideRow p force e).holding = e.holding := by
  unfold Runtime.decideRow
  dsimp only
  split
  · split <;> rfl
  · rfl

theorem acceptTerminal_held (s : Runtime) (tx : TransactionId) (p : TerminalProposal)
    (force : Bool) (source : TerminalSource) :
    (s.acceptTerminal tx p force source).held = s.held := by
  unfold Runtime.acceptTerminal
  split
  · rfl
  · dsimp only
    split <;> exact held_modify s tx (decideRow_holding p force)

theorem shutdownRow_held (s : Runtime) (tx : TransactionId) :
    (s.shutdownRow tx).held = s.held := by
  unfold Runtime.shutdownRow
  split
  · exact held_modify s tx (fun _ => rfl)
  · exact acceptTerminal_held _ _ _ _ _

theorem recoverExit_held (s : Runtime) (c : TaskClass) (exit : TaskExit) :
    (s.recoverExit c exit).held = s.held := by
  unfold Runtime.recoverExit
  split
  · split
    · rfl
    · split
      · exact acceptTerminal_held _ _ _ _ _
      · rfl
  · rfl

theorem handleStart_held (s : Runtime) (tx : TransactionId) :
    (s.handleStart tx).held = s.held := by
  unfold Runtime.handleStart
  split
  · rfl
  · split
    · rfl
    · split
      · rfl
      · exact held_modify s tx (fun _ => rfl)

theorem handleControl_held (s : Runtime) (cmd : ControlCommand) :
    (s.handleControl cmd).held = s.held := by
  cases cmd with
  | cancel tx => exact acceptTerminal_held _ _ _ _ _
  | forceTerminate tx => exact acceptTerminal_held _ _ _ _ _
  | beginShutdown | stopSupervisor => rfl

theorem sendControl_held (s : Runtime) (cmd : ControlCommand) :
    (s.sendControl cmd).held = s.held := by
  unfold Runtime.sendControl
  split <;> rfl

theorem requestSpawn_held (s : Runtime) (c : TaskClass) : (s.requestSpawn c).held = s.held := by
  unfold Runtime.requestSpawn
  split <;> rfl

theorem revokeMcp_held (s : Runtime) (token : Option Mcp.CapabilityToken) :
    (s.revokeMcp token).held = s.held := by
  unfold Runtime.revokeMcp
  split <;> rfl

/-! ## One step -/

/-- The row may be cleared: its completion path has started. -/
def LedgerEntry.isTombstone (e : LedgerEntry) : Bool :=
  e.phase = .cleanupPending || e.phase = .finalizing

/-- The row the supervisor's next statement removes, if it removes one. -/
def Runtime.removing (s : Runtime) : Action → Option TransactionId
  | .supervisor .next =>
      match s.agenda with
      | .sweep c :: _ => c.transactionId.filter fun tx =>
          (s.tasks.tasksFor tx).isEmpty && (s.ledger.get tx).any (·.isTombstone)
      | .removeIdle (tx :: _) :: _ =>
          if (s.ledger.get tx).any (·.isTombstone) then some tx else none
      | .hardGrace (tx :: _) :: _ =>
          if ((s.tasks.abortTransactionExceptFinalizer tx).tasksFor tx).isEmpty
              && (s.ledger.get tx).isSome then some tx
          else none
      | _ => none
  | _ => none

/-- What is held once the row of `tx` is removed and dropped. -/
def Runtime.removal (s : Runtime) (tx : TransactionId) (e : LedgerEntry) : Held :=
  { s.held with
    rows := (s.ledger.remove tx).1.holdings
    index := (s.ledger.remove tx).1.bySession
    pool := if e.reservations then s.pool.release e.channelId else s.pool }

/-- **What a step does to what is held.** -/
inductive HeldStep (s s' : Runtime) (a : Action) : Prop where
  | keeps (h : s'.held = s.held)
  | quiesced (state : RuntimeState) (closed : state ≠ .accepting)
      (h : s'.held = { s.held with state })
  | started (tx : TransactionId) (rest : List TransactionId)
      (queue : s.startQueue = tx :: rest) (h : s'.held = { s.held with startQueue := rest })
  | bound (tx : TransactionId) (key : SessionKey) (ledger : LifecycleLedger)
      (bind : s.ledger.bindSession tx key
        ((s.config.channels.lookup key.channelId).map (·.maxDistinctSessions)) = .ok ledger)
      (h : s'.held = { s with ledger }.held)
  | reserved (request : TransactionSubmitRequest) (deadline : Option Nat) (pool : ReservationPool)
      (action : a = .reserve request) (accepting : s.state = .accepting)
      (reserve : s.pool.tryReserve request.channelId = some pool)
      (h : s' = { s with pool, admitting := s.admitting ++ [⟨request, deadline⟩] })
  | admitted (n : Nat) (tx : TransactionId) (p : PendingAdmission) (action : a = .install n tx)
      (pending : s.admitting[n]? = some p) (fresh : s.freshTransaction tx)
      (locked : { s with admitting := s.admitting.eraseIdx n }.admitLocked p tx = .ok s')
  | refused (n : Nat) (tx : TransactionId) (p : PendingAdmission) (e : AdmissionError)
      (action : a = .install n tx) (pending : s.admitting[n]? = some p)
      (locked : { s with admitting := s.admitting.eraseIdx n }.admitLocked p tx = .error e)
      (h : s' = { s with
        admitting := s.admitting.eraseIdx n
        pool := s.pool.release p.request.channelId })
  | removed (tx : TransactionId) (e : LedgerEntry) (row : s.ledger.get tx = some e)
      (removing : s.removing a = some tx) (h : s'.held = s.removal tx e)

/-- A removal removes a row or finds none. -/
def Removes (s s' : Runtime) (tx : TransactionId) : Prop :=
  s'.held = s.held ∨ ∃ e, s.ledger.get tx = some e ∧ s'.held = s.removal tx e

theorem Removes.step (h : Removes s s' tx)
    (hremoving : ∀ e, s.ledger.get tx = some e → s.removing a = some tx) : HeldStep s s' a := by
  rcases h with h | ⟨e, hrow, h⟩
  · exact .keeps h
  · exact .removed tx e hrow (hremoving e hrow) h

theorem forceRemove_removes (s : Runtime) (tx : TransactionId) :
    Removes s (s.forceRemoveTombstone tx) tx := by
  unfold Runtime.forceRemoveTombstone
  split
  · exact .inl rfl
  · rename_i e hrow
    refine .inr ⟨e, hrow, ?_⟩
    unfold Runtime.dropEntry Runtime.removal
    split <;> rfl

/-- A tombstone is removed, anything else kept. -/
theorem tryRemove_cases (s : Runtime) (tx : TransactionId) :
    (s.tryRemoveTombstone tx).held = s.held ∨
      ((s.ledger.get tx).any (·.isTombstone) = true ∧
        Removes s (s.tryRemoveTombstone tx) tx) := by
  unfold Runtime.tryRemoveTombstone
  rcases hrow : s.ledger.get tx with _ | e
  · exact .inl rfl
  · dsimp only
    split
    · rename_i hphase
      refine .inr ⟨?_, forceRemove_removes s tx⟩
      simpa [LedgerEntry.isTombstone] using hphase
    · exact .inl rfl

theorem quiesce_held (s : Runtime) :
    s.quiesce.held = s.held ∨
      ∃ state : RuntimeState, state ≠ .accepting ∧ s.quiesce.held = { s.held with state } := by
  unfold Runtime.quiesce
  cases hs : s.state with
  | starting | accepting | stopped | quiescing => exact .inr ⟨_, by simp, rfl⟩

theorem quiesce_step {u : Runtime} (hu : u.held = s.quiesce.held) : HeldStep s u a := by
  rcases quiesce_held s with h | ⟨state, hstate, h⟩
  · exact .keeps (hu.trans h)
  · exact .quiesced state hstate (hu.trans h)

section Supervisor

variable {w : Work} {rest : List Work} {c : Choice}

theorem selectArm_step_held {arm : SelectArm}
    (h : Runtime.selectArm { s with agenda := rest } arm = some s') : HeldStep s s' a := by
  cases arm with
  | control =>
      simp only [Runtime.selectArm] at h
      split at h
      · cases h
      · split at h
        · cases h
          exact .keeps (handleControl_held _ _)
        · split at h <;> cases h
          exact .keeps rfl
  | worker =>
      simp only [Runtime.selectArm] at h
      split at h <;> cases h
      exact .keeps (acceptTerminal_held _ _ _ _ _)
  | start =>
      simp only [Runtime.selectArm] at h
      split at h
      · cases h
      · split at h
        · cases h
        · rename_i tx queue hqueue
          cases h
          refine .started tx queue hqueue ?_
          split
          · exact handleStart_held _ _
          · split
            · exact acceptTerminal_held _ _ _ _ _
            · rfl
  | heldTick | quiesceTick =>
      simp only [Runtime.selectArm] at h
      split at h <;> cases h
      exact .keeps rfl
  | spawn =>
      simp only [Runtime.selectArm] at h
      split at h <;> cases h
      exact .keeps rfl
  | wake =>
      simp only [Runtime.selectArm] at h
      cases h
      refine .keeps ?_
      split <;> rfl
  | join k =>
      simp only [Runtime.selectArm] at h
      split at h <;> cases h
      exact .keeps rfl

theorem execute_step_held (hag : s.agenda = w :: rest)
    (h : { s with agenda := rest }.execute w c = some s') : HeldStep s s' (.supervisor c) := by
  cases w with
  | select =>
      cases c <;> try cases h
      exact selectArm_step_held h
  | drainWorker =>
      cases c <;> try cases h
      simp only [Runtime.execute] at h
      split at h <;> cases h
      · exact .keeps rfl
      · exact .keeps (acceptTerminal_held _ _ _ _ _)
  | drainControl =>
      cases c <;> try cases h
      simp only [Runtime.execute] at h
      split at h
      · cases h
        exact .keeps rfl
      · split at h <;> cases h
        · exact .keeps rfl
        · exact .keeps (handleControl_held _ _)
  | beginShutdown =>
      cases c <;> try cases h
      simp only [Runtime.execute] at h
      split at h <;> cases h
      refine quiesce_step ?_
      unfold Runtime.signalMcpShutdown
      split <;> rfl
  | shutdownRows ids =>
      cases c <;> cases ids <;> cases h
      · exact .keeps rfl
      · exact .keeps (shutdownRow_held _ _)
  | taskExits reports =>
      cases c <;> cases reports <;> cases h
      · exact .keeps rfl
      · exact .keeps (recoverExit_held _ _ _)
  | sweep cls =>
      cases c <;> cases h
      unfold Runtime.sweepExit
      split
      · exact .keeps rfl
      · rename_i tx hcls
        split
        · rename_i hidle
          rcases tryRemove_cases { s with agenda := rest } tx with hkeeps | ⟨htomb, hremoves⟩
          · exact .keeps hkeeps
          · have hhere : Removes s ({ s with agenda := rest }.tryRemoveTombstone tx) tx := hremoves
            refine hhere.step (fun _ _ => ?_)
            have hidle' : (s.tasks.tasksFor tx).isEmpty = true := hidle
            have htomb' : (s.ledger.get tx).any (·.isTombstone) = true := htomb
            simp [Runtime.removing, hag, hcls, hidle', htomb', Option.filter]
        · split <;> exact .keeps rfl
  | removeIdle ids =>
      cases c <;> cases ids <;> cases h
      · exact .keeps rfl
      · rename_i tx ids
        rcases tryRemove_cases ({ s with agenda := rest }.push [.removeIdle ids]) tx with
          hkeeps | ⟨htomb, hremoves⟩
        · exact .keeps hkeeps
        · have hhere : Removes s (({ s with agenda := rest }.push
              [.removeIdle ids]).tryRemoveTombstone tx) tx := hremoves
          refine hhere.step (fun _ _ => ?_)
          have htomb' : (s.ledger.get tx).any (·.isTombstone) = true := htomb
          simp [Runtime.removing, hag, htomb']
  | hardGrace ids =>
      cases c <;> cases ids <;> cases h
      · exact .keeps rfl
      · rename_i tx ids
        dsimp only
        split
        · rename_i hidle
          have hhere : Removes s (({ s with
              agenda := rest
              tasks := s.tasks.abortTransactionExceptFinalizer tx }.push
                [.hardGrace ids]).forceRemoveTombstone tx) tx :=
            forceRemove_removes ({ s with
              agenda := rest
              tasks := s.tasks.abortTransactionExceptFinalizer tx }.push [.hardGrace ids]) tx
          refine hhere.step (fun e hrow => ?_)
          have hidle' : ((s.tasks.abortTransactionExceptFinalizer tx).tasksFor tx).isEmpty = true :=
            hidle
          simp [Runtime.removing, hag, hidle', hrow]
        · exact .keeps rfl
  | reap out =>
      cases c <;> try cases h
      · exact .keeps rfl
      · simp only [Runtime.execute] at h
        split at h <;> cases h
        exact .keeps rfl
  | joining =>
      cases c <;> simp only [Runtime.execute] at h <;> try cases h
      · split at h <;> cases h
        refine .keeps ?_
        split <;> rfl
      · split at h <;> cases h
        exact .keeps rfl
      · exact .keeps rfl
  | abortResiduals todo all => cases c <;> cases todo <;> cases h <;> exact .keeps rfl
  | loop | abortAll | rejectSpawns | publishReport =>
      cases c <;> cases h
      exact .keeps rfl
  | drainSpawn =>
      cases c <;> try cases h
      simp only [Runtime.execute] at h
      split at h <;> cases h <;> exact .keeps rfl
  | checkQuiescing | markQuiesce | checkReady =>
      cases c <;> cases h
      refine .keeps ?_
      split <;> rfl
  | quiesceWork | checkGrace =>
      cases c <;> simp only [Runtime.execute] at h <;> try cases h
      all_goals
        split at h <;> cases h
        exact .keeps rfl
  | confirmReady =>
      cases c <;> try cases h
      simp only [Runtime.execute] at h
      split at h
      · split at h <;> cases h <;> exact .keeps rfl
      · cases h
        exact .keeps rfl

end Supervisor

/-! ## Hosts and tasks -/

theorem coordinatorBegin_held (s : Runtime) (id : TaskId) (tx : TransactionId)
    (params : CoordinatorParams) (drawn : Option Mcp.CapabilityToken) (accepted : Bool) :
    (s.coordinatorBegin id tx params drawn accepted).held = s.held := by
  unfold Runtime.coordinatorBegin
  split
  · rfl
  · split
    · rfl
    · split
      · rfl
      · split
        · rfl
        · split
          · rfl
          · split
            · split
              · rfl
              · split
                · rfl
                · split <;> rfl
            · split <;> rfl

/-- The gate binds the session the connector reported, under the channel's own
limit. -/
theorem gateOpened_step_held (s : Runtime) (id : TaskId) (tx : TransactionId)
    (params : CoordinatorParams) (token : Option Mcp.CapabilityToken)
    (external : Option ExternalSessionId) :
    HeldStep s (s.gateOpened id tx params token external) a := by
  unfold Runtime.gateOpened
  dsimp only
  split
  · exact .keeps rfl
  · rename_i ext
    split
    · exact .keeps rfl
    · split
      · exact .keeps rfl
      · rename_i ledger hbind
        exact .bound tx ⟨params.channelId, SessionId.fromExternal ext⟩ ledger hbind rfl

theorem gateEstablished_held (s : Runtime) (id : TaskId) (params : CoordinatorParams)
    (token : Option Mcp.CapabilityToken) (ext : ExternalSessionId) (ok : Bool) :
    (s.gateEstablished id params token ext ok).held = s.held := by
  unfold Runtime.gateEstablished
  dsimp only
  split
  · rfl
  · split
    · rfl
    · split <;> rfl

theorem stepCoordinator_step_held {id : TaskId} {params : CoordinatorParams}
    {pc : CoordinatorPc} {event : Runtime.CoordinatorEvent}
    (h : s.stepCoordinator id tx params pc event = some s') : HeldStep s s' a := by
  unfold Runtime.stepCoordinator at h
  split at h
  · cases h
    exact .keeps (coordinatorBegin_held s id tx params _ _)
  · split at h <;> cases h
    exact .keeps (revokeMcp_held s _)
  · split at h
    · cases h
    · split at h <;> cases h
      · exact .keeps rfl
      · exact .keeps (revokeMcp_held s _)
  · cases h
    exact gateOpened_step_held s id tx params _ _
  · cases h
    exact .keeps (gateEstablished_held s id params _ _ _)
  · cases h
    exact .keeps rfl
  · cases h
    exact .keeps rfl
  · cases h
    exact .keeps (revokeMcp_held s _)
  · cases h
    exact .keeps (held_modify s tx (fun _ => rfl))
  · cases h
    refine .keeps ?_
    unfold Runtime.coordinatorNotify
    dsimp only
    split <;> rfl
  · cases h

theorem countCompletion_held (s : Runtime) (r : CompletionPublishResult) :
    (s.countCompletion r).held = s.held := by
  cases r <;> rfl

theorem stepFinalizer_held {id : TaskId} {pc : FinalizerPc} {event : Runtime.FinalizerEvent}
    (h : s.stepFinalizer id tx pc event = some s') : s'.held = s.held := by
  unfold Runtime.stepFinalizer at h
  split at h
  · cases h
    unfold Runtime.finalizerResume
    split
    · rfl
    · exact held_modify s tx (fun _ => rfl)
  · cases h
    rfl
  · cases h
    unfold Runtime.finalizerSettle
    dsimp only
    split
    · rfl
    · exact held_modify s tx (fun _ => rfl)
  · cases h
    unfold Runtime.finalizerPublish
    dsimp only
    split
    · exact (countCompletion_held _ _).trans (held_modify s tx (fun _ => rfl))
    · exact (countCompletion_held _ _).trans (held_modify s tx (fun _ => rfl))
  · cases h

theorem reserve_ok {request : TransactionSubmitRequest} (h : s.reserve request = .ok s') :
    s.state = .accepting ∧ ∃ deadline pool, s.pool.tryReserve request.channelId = some pool ∧
      s' = { s with pool, admitting := s.admitting ++ [⟨request, deadline⟩] } := by
  simp only [Runtime.reserve, bind, Except.bind, pure, Except.pure] at h
  split at h
  · cases h
  · rename_i hstate
    split at h
    · cases h
    · rename_i deadline _
      split at h
      · cases h
      · rename_i pool hpool
        cases h
        refine ⟨?_, deadline, pool, hpool, rfl⟩
        by_contra hne
        simp [hne] at hstate

theorem install_step_held {n : Nat} (h : s.install n tx = some s') :
    HeldStep s s' (.install n tx) := by
  unfold Runtime.install at h
  split at h
  · cases h
  · rename_i p hp
    split at h
    · rename_i hfresh
      dsimp only at h
      split at h
      · rename_i s₁ hok
        cases h
        exact .admitted n tx p rfl hp hfresh hok
      · rename_i e herr
        cases h
        exact .refused n tx p e rfl hp herr rfl
    · cases h

/-- The list is complete. -/
theorem step_held (h : Runtime.step a s = some s') : HeldStep s s' a := by
  cases a with
  | reserve request =>
      simp only [Runtime.step] at h
      split at h
      · rename_i s₁ hok
        cases h
        obtain ⟨hstate, deadline, pool, hpool, heq⟩ := reserve_ok hok
        exact .reserved request deadline pool rfl hstate hpool heq
      · cases h
        exact .keeps rfl
  | install n tx => exact install_step_held h
  | terminate selector mode =>
      cases h
      refine .keeps ?_
      unfold Runtime.terminate
      split
      · rfl
      · split
        · rfl
        · split
          · rfl
          · split
            · rfl
            · exact sendControl_held _ _
  | beginShutdown =>
      cases h
      exact quiesce_step (sendControl_held _ _)
  | dropOwner =>
      cases h
      unfold Runtime.dropOwner
      dsimp only
      split
      · exact .keeps rfl
      · exact quiesce_step ((sendControl_held _ _).trans (sendControl_held _ _))
  | threadJoined =>
      simp only [Runtime.step] at h
      split at h <;> cases h
      exact .quiesced .stopped (by simp) rfl
  | closeControl | tick _ | holdGates _ _ | ownership _ _ =>
      cases h
      exact .keeps rfl
  | coordinator id event =>
      simp only [Runtime.step] at h
      split at h
      · exact stepCoordinator_step_held h
      · cases h
  | finalizer id event =>
      simp only [Runtime.step] at h
      split at h
      · exact .keeps (stepFinalizer_held h)
      · cases h
  | complete id =>
      simp only [Runtime.step] at h
      split at h
      · rename_i k body _
        cases body <;> cases h <;> exact .keeps rfl
      · cases h
  | panic id | cancelled id =>
      simp only [Runtime.step] at h
      split at h
      · split at h <;> cases h
        exact .keeps rfl
      · cases h
  | requestSpawn id cls =>
      simp only [Runtime.step] at h
      split at h
      · split at h <;> cases h
        exact .keeps (requestSpawn_held _ _)
      · cases h
  | mcpLookup token =>
      simp only [Runtime.step] at h
      split at h <;> cases h
      exact .keeps rfl
  | mcpSubmit n =>
      simp only [Runtime.step] at h
      split at h <;> cases h
      exact .keeps (requestSpawn_held _ _)
  | supervisor c =>
      simp only [Runtime.step, Runtime.supervise] at h
      split at h
      · cases h
      · rename_i w rest hag
        exact execute_step_held hag h

/-- What a successful admission wrote. -/
theorem admitLocked_inserts {p : PendingAdmission} (h : s.admitLocked p tx = .ok s') :
    s.state = .accepting ∧ ∃ ledger,
      s.ledger.insertQueued (Runtime.queuedEntry tx p)
        ((s.config.channels.lookup p.request.channelId).map (·.maxDistinctSessions)) =
          .ok ledger ∧
      s' = { s with ledger, startQueue := s.startQueue ++ [tx] }.observe (.admitted tx) := by
  unfold Runtime.admitLocked at h
  dsimp only at h
  split at h
  · cases h
  · rename_i hstate
    split at h
    · cases h
    · split at h
      · cases h
      · rename_i ledger hins
        split at h
        · cases h
          exact ⟨by simpa using hstate, ledger, hins, rfl⟩
        · cases h

/-! ## Sessions in the running runtime -/

open LifecycleLedger (IndexInverse)

/-- Whether the row of `tx` carries `key` is read off what it holds. -/
theorem carries_iff (l : LifecycleLedger) (tx : TransactionId) (key : SessionKey) :
    (∃ row, l.get tx = some row ∧ row.sessionKey = some key) ↔
      ∃ x, l.holdings tx = some x ∧ x.2.2 = some key := by
  unfold LifecycleLedger.holdings
  cases l.get tx with
  | none => simp
  | some row => simp [LedgerEntry.holding]

theorem LifecycleLedger.IndexInverse.congr {l l' : LifecycleLedger} (h : IndexInverse l)
    (hrows : l'.holdings = l.holdings) (hindex : l'.bySession = l.bySession) :
    IndexInverse l' := by
  intro key tx
  rw [carries_iff, hrows, hindex, ← carries_iff]
  exact h key tx

/-- The ledger of the runtime keeps its index and its channels' session limits. -/
structure SessionsWithin (s : Runtime) : Prop where
  index : IndexInverse s.ledger
  limit : ∀ channel live, s.config.channels.lookup channel = some live →
    s.ledger.distinctSessionsOnChannel channel ≤ live.maxDistinctSessions

theorem SessionsWithin.of_held (h : SessionsWithin s) (hconfig : s'.held.config = s.held.config)
    (hrows : s'.held.rows = s.held.rows) (hindex : s'.held.index = s.held.index) :
    SessionsWithin s' := by
  have hconfig' : s'.config = s.config := hconfig
  have hindex' : s'.ledger.bySession = s.ledger.bySession := hindex
  refine ⟨h.index.congr hrows hindex', fun channel live hlive => ?_⟩
  rw [hconfig'] at hlive
  rw [LifecycleLedger.distinctSessionsOnChannel, hindex']
  exact h.limit channel live hlive

/-- Admission and the prompt gate pass the channel's own limit to the ledger. -/
theorem SessionsWithin.step (h : SessionsWithin s) (hs : HeldStep s s' a) :
    SessionsWithin s' := by
  cases hs with
  | keeps hs => exact h.of_held (by rw [hs]) (by rw [hs]) (by rw [hs])
  | quiesced state _ hs => exact h.of_held (by rw [hs]) (by rw [hs]) (by rw [hs])
  | started tx rest _ hs => exact h.of_held (by rw [hs]) (by rw [hs]) (by rw [hs])
  | reserved request deadline pool _ _ _ hs =>
      subst hs
      exact ⟨h.index, h.limit⟩
  | refused n tx p e _ _ _ hs =>
      subst hs
      exact ⟨h.index, h.limit⟩
  | bound tx key ledger hbind hs =>
      have hbound : SessionsWithin { s with ledger } := by
        refine ⟨h.index.bindSession hbind, fun channel live hlive => ?_⟩
        refine LifecycleLedger.distinct_le_bindSession h.index (h.limit channel live hlive) ?_ hbind
        intro hchannel
        rw [hchannel, hlive]
        rfl
      exact hbound.of_held (by rw [hs]) (by rw [hs]) (by rw [hs])
  | admitted n tx p _ _ _ hlocked =>
      obtain ⟨_, ledger, hins, rfl⟩ := admitLocked_inserts hlocked
      refine ⟨h.index.insertQueued hins, fun channel live hlive => ?_⟩
      refine LifecycleLedger.distinct_le_insertQueued (h.limit channel live hlive) ?_ hins
      intro key hkey hchannel
      -- the key a queued row carries is on the request's own channel
      have hown : p.request.channelId = channel := by
        simp only [Runtime.queuedEntry, Option.map_eq_some_iff] at hkey
        obtain ⟨_, _, rfl⟩ := hkey
        exact hchannel
      have hlive' : s.config.channels.lookup channel = some live := hlive
      rw [hown]
      show (s.config.channels.lookup channel).map (·.maxDistinctSessions) = _
      rw [hlive']
      rfl
  | removed tx e _ _ hs =>
      have hremoved : SessionsWithin { s with ledger := (s.ledger.remove tx).1 } := by
        refine ⟨h.index.remove tx, fun channel live hlive => ?_⟩
        exact Nat.le_trans (LifecycleLedger.distinct_remove_le s.ledger tx channel)
          (h.limit channel live hlive)
      exact hremoved.of_held (by rw [hs]; rfl) (by rw [hs]; rfl) (by rw [hs]; rfl)

/-- **Sessions are exclusive and bounded** in every reachable state. -/
theorem sessionsWithin_reach {ok : Runtime → Action → Prop} (h : runtime.Reach ok s) :
    SessionsWithin s := by
  refine h.invariant ?_ ?_
  · rintro s ⟨config, rfl⟩
    exact ⟨LifecycleLedger.indexInverse_new, fun _ _ _ => Nat.zero_le _⟩
  · intro s a s' _ hi _ hstep
    exact hi.step (step_held hstep)

end Monoloop.Lifecycle
