import Monoloop.Lifecycle.Simulation

/-!
# What the supervisor loop keeps about itself

`LoopInv` relates the agenda to the ledger: once stopping, every undecided row
is still in the shutdown loop at the head of the agenda; rows listed as idle
have no tasks; the drain that ends the supervisor runs over an empty ledger.
Under it every step of the runtime is a step of each view (`step_view`); the
preservation proof in `LoopInvariant` uses that in turn.
-/

namespace Monoloop.Lifecycle

open TxView (Drains Quiet)
open Transition (System always)

variable {s s' : Runtime} {a : Action} {tx : TransactionId}

/-- Statements pushed only while stopping. -/
def Work.quiescing : Work → Bool
  | .shutdownRows _ | .abortResiduals _ _ | .removeIdle _ | .checkGrace | .hardGrace _
  | .rejectSpawns | .confirmReady | .joining | .publishReport => true
  | _ => false

/-- Statements pushed only over an empty ledger. -/
def Work.drained : Work → Bool
  | .joining | .publishReport => true
  | _ => false

def Work.isRemoveIdle : Work → Bool
  | .removeIdle _ => true
  | _ => false

structure LoopInv (s : Runtime) : Prop where
  quiesced : s.stopping = true → s.state ≠ .accepting
  decided : s.stopping = true → ∀ tx e, s.ledger.get tx = some e → e.terminal = none →
    ∃ ids rest, s.agenda = .shutdownRows ids :: rest ∧ tx ∈ ids
  quiescing : ∀ w ∈ s.agenda, w.quiescing = true → s.stopping = true
  drained : ∀ w ∈ s.agenda, w.drained = true → ∀ tx, s.ledger.get tx = none
  idle : ∀ ids rest, s.agenda = .removeIdle ids :: rest →
    ∀ tx ∈ ids, (s.tasks.tasksFor tx).isEmpty = true
  idleHead : ∀ w ∈ s.agenda.tail, w.isRemoveIdle = false
  spawns : ∀ c ∈ s.spawnQueue, c.isChild = true ∨ ∃ tx, c = .mcpRequest tx

/-! ## The supervisor's steps -/

section Supervisor

variable {w : Work} {rest : List Work} {c : Choice}

theorem selectArm_view (hinv : LoopInv s) (hag : s.agenda = .select :: rest)
    {arm : SelectArm} (h : Runtime.selectArm { s with agenda := rest } arm = some s') :
    TxStep s (.supervisor (.arm arm)) tx (view s tx) (view s' tx) := by
  have hreports : ∀ p : List Work, p.flatMap Work.reports = [] →
      (p ++ rest).flatMap Work.reports ⊆ s.agenda.flatMap Work.reports := by
    intro p hp
    simp [hag, hp, Work.reports]
  cases arm with
  | control =>
      simp only [Runtime.selectArm] at h
      split at h
      · cases h
      · rename_i hhold
        split at h
        · rename_i cmd q hq
          cases h
          have htake : s.takesControl (.supervisor (.arm .control)) = some cmd := by
            simp_all [Runtime.takesControl]
          have hquiet : Quiets s { s with agenda := rest, controlQueue := q } :=
            ⟨rfl, rfl, rfl, fun _ h => h, hreports [] rfl, fun _ _ h => h⟩
          cases cmd with
          | cancel tx' =>
              exact acceptTerminal_step (hquiet.quiet tx) (fun _ _ _ _ => .cancel) (by simp)
          | forceTerminate tx' =>
              refine acceptTerminal_step (hquiet.quiet tx) (fun _ _ _ _ => .force) ?_
              rintro rfl _
              exact htake
          | beginShutdown =>
              exact Quiets.step ⟨rfl, rfl, rfl, fun _ h => h, hreports [_] rfl, fun _ _ h => h⟩
          | stopSupervisor =>
              exact Quiets.step ⟨rfl, rfl, rfl, fun _ h => h, hreports [_, _] rfl, fun _ _ h => h⟩
        · split at h
          · cases h
            exact Quiets.step ⟨rfl, rfl, rfl, fun _ h => h, hreports [_, _] rfl, fun _ _ h => h⟩
          · cases h
  | worker =>
      simp only [Runtime.selectArm] at h
      split at h
      · cases h
      · rename_i m q hq
        cases h
        have hmail : q ⊆ s.workerQueue := by
          rw [show s.workerQueue = m :: q from hq]
          exact List.subset_cons_self m q
        have hquiet : Quiets s { s with agenda := rest, workerQueue := q } :=
          ⟨rfl, rfl, rfl, hmail, hreports [] rfl, fun _ _ h => h⟩
        refine acceptTerminal_step (hquiet.quiet tx) ?_ (by simp)
        rintro e rfl _ _
        exact .worker (by simp [view, mailOf, show s.workerQueue = m :: q from hq])
  | start =>
      simp only [Runtime.selectArm] at h
      split at h
      · cases h
      · split at h
        · cases h
        · rename_i tx' q hq
          have hquiet : Quiets s { s with agenda := rest, startQueue := q } :=
            ⟨rfl, rfl, rfl, fun _ h => h, hreports [] rfl, fun _ _ h => h⟩
          cases h
          split
          · exact handleStart_step (hquiet.quiet tx)
          · split
            · exact acceptTerminal_step (hquiet.quiet tx) (fun _ _ _ _ => .shutdown) (by simp)
            · exact hquiet.step
  | heldTick =>
      simp only [Runtime.selectArm] at h
      split at h
      · cases h
        exact Quiets.step ⟨rfl, rfl, rfl, fun _ h => h, hreports [] rfl, fun _ _ h => h⟩
      · cases h
  | spawn =>
      simp only [Runtime.selectArm] at h
      split at h
      · cases h
      · rename_i c q hq
        cases h
        have hreg : s.registers (.supervisor (.arm .spawn)) = some c := by
          simp_all [Runtime.registers]
        have hmem : c ∈ s.spawnQueue := by
          rw [show s.spawnQueue = c :: q from hq]
          exact List.mem_cons_self
        exact register_step hreg (hinv.spawns c hmem) (hreports [] rfl)
  | quiesceTick =>
      simp only [Runtime.selectArm] at h
      split at h
      · cases h
        exact Quiets.step ⟨rfl, rfl, rfl, fun _ h => h, hreports [] rfl, fun _ _ h => h⟩
      · cases h
  | wake =>
      simp only [Runtime.selectArm] at h
      cases h
      split
      · exact Quiets.step ⟨rfl, rfl, rfl, fun _ h => h, hreports [_] rfl, fun _ _ h => h⟩
      · exact Quiets.step ⟨rfl, rfl, rfl, fun _ h => h, hreports [] rfl, fun _ _ h => h⟩
  | join k =>
      simp only [Runtime.selectArm] at h
      split at h
      · rename_i tasks i cls exit hj
        cases h
        refine join_step hj ?_
        intro c' hc'
        simp only [List.flatMap_append, List.mem_append] at hc'
        obtain hc' | hc' := hc'
        · left
          have : c' = cls := by simpa [Work.reports] using hc'
          exact ⟨i, exit, by rw [this]⟩
        · exact .inr (hreports [] rfl hc')
      · cases h

theorem past_of_stopping (hinv : LoopInv s) {ids : List TransactionId}
    (hag : s.agenda = .hardGrace ids :: rest) {e : LedgerEntry}
    (he : s.ledger.get tx = some e) : e.terminal.isSome := by
  have hstop : s.stopping = true := hinv.quiescing (.hardGrace ids) (by simp [hag]) rfl
  cases ht : e.terminal with
  | some _ => rfl
  | none =>
      obtain ⟨ids', rest', hag', _⟩ := hinv.decided hstop tx e he ht
      rw [hag] at hag'
      cases hag'

theorem execute_view (hinv : LoopInv s) (hag : s.agenda = w :: rest)
    (h : Runtime.execute { s with agenda := rest } w c = some s') :
    TxStep s (.supervisor c) tx (view s tx) (view s' tx) := by
  have hreports : ∀ p : List Work, p.flatMap Work.reports ⊆ w.reports →
      (p ++ rest).flatMap Work.reports ⊆ s.agenda.flatMap Work.reports := by
    intro p hp
    rw [hag, List.flatMap_append, List.flatMap_cons]
    exact List.append_subset.mpr ⟨fun x hx => List.mem_append_left _ (hp hx),
      fun x hx => List.mem_append_right _ hx⟩
  have hpush : ∀ p : List Work, p.flatMap Work.reports ⊆ w.reports →
      Quiets s { s with agenda := p ++ rest } := fun p hp =>
    ⟨rfl, rfl, rfl, fun _ h => h, hreports p hp, fun _ _ h => h⟩
  have hpop : TxStep s (.supervisor c) tx (view s tx) (view { s with agenda := rest } tx) :=
    (hpush [] (by simp)).step
  cases w with
  | loop =>
      cases c <;> cases h
      exact (hpush Runtime.loopBody (by simp [Runtime.loopBody, Work.reports])).step
  | drainWorker =>
      cases c <;> try cases h
      simp only [Runtime.execute] at h
      split at h
      · cases h
        exact hpop
      · rename_i m q hq
        cases h
        have hmail : q ⊆ s.workerQueue := by
          rw [show s.workerQueue = m :: q from hq]
          exact List.subset_cons_self m q
        have hquiet : Quiets s { s with agenda := [.drainWorker] ++ rest, workerQueue := q } :=
          ⟨rfl, rfl, rfl, hmail, hreports [.drainWorker] (by simp [Work.reports]), fun _ _ h => h⟩
        refine acceptTerminal_step (hquiet.quiet tx) ?_ (by simp)
        rintro e rfl _ _
        exact .worker (by simp [view, mailOf, show s.workerQueue = m :: q from hq])
  | drainControl =>
      cases c <;> try cases h
      simp only [Runtime.execute] at h
      split at h
      · cases h
        exact hpop
      · rename_i hhold
        split at h
        · cases h
          exact hpop
        · rename_i cmd q hq
          cases h
          have htake : s.takesControl (.supervisor .next) = some cmd := by
            simp_all [Runtime.takesControl]
          have hquiet : ∀ p : List Work, p.flatMap Work.reports ⊆ Work.drainControl.reports →
              Quiets s { s with agenda := p ++ rest, controlQueue := q } := fun p hp =>
            ⟨rfl, rfl, rfl, fun _ h => h, hreports p hp, fun _ _ h => h⟩
          have hloop := hquiet [.drainControl] (by simp [Work.reports])
          cases cmd with
          | cancel tx' =>
              exact acceptTerminal_step (hloop.quiet tx) (fun _ _ _ _ => .cancel) (by simp)
          | forceTerminate tx' =>
              refine acceptTerminal_step (hloop.quiet tx) (fun _ _ _ _ => .force) ?_
              rintro rfl _
              exact htake
          | beginShutdown =>
              exact (hquiet [.beginShutdown, .drainControl] (by simp [Work.reports])).step
          | stopSupervisor =>
              exact (hquiet [.beginShutdown, .abortAll, .drainControl] (by simp [Work.reports])).step
  | beginShutdown =>
      cases c <;> try cases h
      rename_i ids
      simp only [Runtime.execute] at h
      split at h
      · cases h
        unfold Runtime.signalMcpShutdown
        split
        · refine Quiets.step ⟨rfl, rfl, rfl, fun _ h => h, ?_, ?_⟩
          · exact hreports [.shutdownRows ids] (by simp [Work.reports])
          · intro token tx hr
            cases hr
        · refine Quiets.step ⟨rfl, rfl, rfl, fun _ h => h, ?_, fun _ _ h => h⟩
          exact hreports [.shutdownRows ids] (by simp [Work.reports])
      · cases h
  | shutdownRows ids =>
      cases c <;> cases ids <;> cases h
      · exact hpop
      · exact shutdownRow_step ((hpush [.shutdownRows _] (by simp [Work.reports])).quiet tx)
  | abortAll =>
      cases c <;> cases h
      exact abortAll_step ((hpush [] (by simp)).quiet tx)
        (.inr (by simp [Runtime.abortsAll, hag]))
  | reap out =>
      cases c <;> try cases h
      · exact (hpush [.taskExits out] (by simp [Work.reports])).step
      · rename_i k
        simp only [Runtime.execute] at h
        split at h
        · rename_i tasks i cls exit hj
          cases h
          refine join_step hj ?_
          intro c' hc'
          simp only [List.flatMap_append, List.mem_append] at hc'
          obtain hc' | hc' := hc'
          · simp only [List.flatMap_cons, List.flatMap_nil, Work.reports, List.append_nil,
              List.map_append, List.mem_append] at hc'
            obtain hc' | hc' := hc'
            · right
              rw [hag, List.flatMap_cons]
              exact List.mem_append_left _ hc'
            · left
              have : c' = cls := by simpa using hc'
              exact ⟨i, exit, by rw [this]⟩
          · right
            exact hreports [] (by simp) hc'
        · cases h
  | taskExits reports =>
      cases c <;> cases reports <;> try cases h
      · exact hpop
      · rename_i r rs
        refine recoverExit_step r.2
          ((hpush [.sweep r.1, .taskExits rs] (by simp [Work.reports])).quiet tx) ?_
        intro hr
        simp [view, exitsOf, hag, Work.reports, hr]
  | sweep cls =>
      cases c <;> cases h
      refine sweepExit_step ((hpush [] (by simp)).quiet tx) ?_
      intro hr
      simp [view, exitsOf, hag, Work.reports, hr]
  | drainSpawn =>
      cases c <;> try cases h
      simp only [Runtime.execute] at h
      split at h
      · cases h
        exact Quiets.step ⟨rfl, rfl, rfl, fun _ h => h, hreports [] (by simp), fun _ _ h => h⟩
      · rename_i cls q hq
        cases h
        have hreg : s.registers (.supervisor .next) = some cls := by
          simp_all [Runtime.registers]
        have hmem : cls ∈ s.spawnQueue := by
          rw [show s.spawnQueue = cls :: q from hq]
          exact List.mem_cons_self
        exact register_step hreg (hinv.spawns cls hmem)
          (hreports [.drainSpawn] (by simp [Work.reports]))
  | checkQuiescing =>
      cases c <;> try cases h
      split
      · exact (hpush [.beginShutdown] (by simp [Work.reports])).step
      · exact hpop
  | markQuiesce =>
      cases c <;> try cases h
      split
      · exact Quiets.step ⟨rfl, rfl, rfl, fun _ h => h, hreports [] (by simp), fun _ _ h => h⟩
      · exact hpop
  | quiesceWork =>
      cases c <;> try cases h
      · simp only [Runtime.execute] at h
        split at h
        · cases h
        · cases h
          exact hpop
      · rename_i ids
        simp only [Runtime.execute] at h
        split at h
        · cases h
          exact (hpush [.abortResiduals ids ids, .checkGrace] (by simp [Work.reports])).step
        · cases h
  | abortResiduals todo all =>
      cases c <;> cases todo <;> cases h
      · exact (hpush [.removeIdle _] (by simp [Work.reports])).step
      · exact abort_step ((hpush [.abortResiduals _ all] (by simp [Work.reports])).quiet tx)
          (fun _ => .inl rfl)
  | removeIdle ids =>
      cases c <;> cases ids <;> try cases h
      · exact hpop
      · rename_i tx' ids
        refine tryRemove_step ((hpush [.removeIdle ids] (by simp [Work.reports])).quiet tx) ?_
        rintro rfl
        exact tasksOf_eq_none_iff.mpr (hinv.idle _ _ hag tx' List.mem_cons_self)
  | checkGrace =>
      cases c <;> try cases h
      · simp only [Runtime.execute] at h
        split at h
        · cases h
        · cases h
          exact hpop
      · rename_i ids
        simp only [Runtime.execute] at h
        split at h
        · cases h
          exact (hpush [.hardGrace ids] (by simp [Work.reports])).step
        · cases h
  | hardGrace ids =>
      cases c <;> cases ids <;> try cases h
      · exact hpop
      · rename_i tx' ids
        have hquiet := (hpush [.hardGrace ids] (by simp [Work.reports])).quiet tx
        simp only
        split
        · rename_i hidle
          -- without tasks the abort before the removal changes nothing
          have hnone : ∀ id, tasksOf s.tasks tx' id = none := by
            have := tasksOf_eq_none_iff.mpr hidle
            intro id
            have hid := this id
            simp only [Runtime.push, TaskSupervisor.abortTransactionExceptFinalizer,
              tasksOf_abortTx, if_true, Option.map_eq_none_iff] at hid
            exact hid
          have hsame : (view s tx).Quiet (view (Runtime.push { s with
              agenda := rest
              tasks := s.tasks.abortTransactionExceptFinalizer tx' } [.hardGrace ids]) tx) := by
            refine ⟨⟨hquiet.mail, hquiet.exited, hquiet.route⟩, rfl, ?_, rfl⟩
            simp only [view, Runtime.push, TaskSupervisor.abortTransactionExceptFinalizer,
              tasksOf_abortTx]
            split
            · rename_i htx
              subst htx
              intro id
              simp [hnone id]
            · exact fun _ => rfl
          refine forceRemove_step hsame ?_ ?_
          · rintro rfl
            exact hnone
          · rintro e rfl he
            exact .inr (.inr (past_of_stopping hinv hag he))
        · exact abort_step hquiet (fun _ => .inl rfl)
  | checkReady =>
      cases c <;> try cases h
      split
      · exact (hpush [.rejectSpawns, .drainWorker, .confirmReady] (by simp [Work.reports])).step
      · exact hpop
  | rejectSpawns =>
      cases c <;> cases h
      exact Quiets.step ⟨rfl, rfl, rfl, fun _ h => h, hreports [] (by simp), fun _ _ h => h⟩
  | confirmReady =>
      cases c <;> try cases h
      simp only [Runtime.execute] at h
      split at h
      · rename_i hempty
        split at h
        · cases h
          exact Quiets.step ⟨rfl, rfl, rfl, fun _ h => h, by simp [Work.reports], fun _ _ h => h⟩
        · cases h
          exact abortAll_step ((hpush [.joining] (by simp [Work.reports])).quiet tx)
            (.inl ((LifecycleLedger.isEmpty_iff _).mp hempty tx))
      · cases h
        exact hpop
  | joining =>
      cases c <;> try cases h
      · simp only [Runtime.execute] at h
        split at h
        · cases h
          split
          · exact Quiets.step ⟨rfl, rfl, rfl, fun _ h => h, by simp [Work.reports],
              fun _ _ h => h⟩
          · exact hpop
        · cases h
      · rename_i k
        simp only [Runtime.execute] at h
        split at h
        · rename_i tasks out hj
          cases h
          exact join_step hj (fun c' hc' =>
            .inr (hreports [.joining] (by simp [Work.reports]) hc'))
        · cases h
      · exact Quiets.step ⟨rfl, rfl, rfl, fun _ h => h, hreports [] (by simp), fun _ _ h => h⟩
  | select =>
      cases c <;> try cases h
      exact selectArm_view hinv hag h
  | publishReport =>
      cases c <;> cases h
      exact Quiets.step ⟨rfl, rfl, rfl, fun _ h => h, by simp, fun _ _ h => h⟩

end Supervisor

/-! ## Hosts and tasks -/

theorem Quiets.refl (s : Runtime) : Quiets s s :=
  ⟨rfl, rfl, rfl, fun _ h => h, fun _ h => h, fun _ _ h => h⟩

theorem reserve_quiets {request : TransactionSubmitRequest} (h : s.reserve request = .ok s') :
    Quiets s s' := by
  simp only [Runtime.reserve, bind, Except.bind, pure, Except.pure] at h
  split at h
  · cases h
  · split at h
    · cases h
    · split at h
      · cases h
      · cases h
        exact ⟨rfl, rfl, rfl, fun _ h => h, fun _ h => h, fun _ _ h => h⟩

theorem sendControl_quiets (s : Runtime) (cmd : ControlCommand) : Quiets s (s.sendControl cmd) := by
  unfold Runtime.sendControl
  split <;> exact ⟨rfl, rfl, rfl, fun _ h => h, fun _ h => h, fun _ _ h => h⟩

theorem terminate_quiets (s : Runtime) (selector : TransactionSelector) (mode : TerminationMode) :
    Quiets s (s.terminate selector mode).1 := by
  unfold Runtime.terminate
  split
  · exact .refl s
  · split
    · exact .refl s
    · split
      · exact .refl s
      · split
        · exact .refl s
        · exact sendControl_quiets s _

theorem beginShutdown_quiets (s : Runtime) : Quiets s s.beginShutdown :=
  have h := sendControl_quiets s.quiesce .beginShutdown
  ⟨h.ledger, h.tasks, h.history, h.mail, h.reports, h.routes⟩

theorem dropOwner_quiets (s : Runtime) : Quiets s s.dropOwner := by
  unfold Runtime.dropOwner
  dsimp only
  split
  · exact ⟨rfl, rfl, rfl, fun _ h => h, fun _ h => h, fun _ _ h => h⟩
  · have h₁ := beginShutdown_quiets { s with holdStart := false, holdControl := false }
    have h₂ := sendControl_quiets
      (Runtime.beginShutdown { s with holdStart := false, holdControl := false }) .stopSupervisor
    exact ⟨h₂.ledger.trans h₁.ledger, h₂.tasks.trans h₁.tasks, h₂.history.trans h₁.history,
      fun _ h => h₁.mail (h₂.mail h), fun _ h => h₁.reports (h₂.reports h),
      fun t tx h => h₁.routes t tx (h₂.routes t tx h)⟩

theorem requestSpawn_quiets (s : Runtime) (c : TaskClass) : Quiets s (s.requestSpawn c) := by
  unfold Runtime.requestSpawn
  split <;> exact ⟨rfl, rfl, rfl, fun _ h => h, fun _ h => h, fun _ _ h => h⟩

/-- What a successful admission did. -/
theorem admitLocked_ok {p : PendingAdmission} {tx' : TransactionId}
    (h : s.admitLocked p tx' = .ok s') :
    s.state = .accepting ∧ s.ledger.get tx' = none ∧ ∃ ledger,
      (∀ tx, ledger.get tx = if tx = tx' then some (Runtime.queuedEntry tx' p)
        else s.ledger.get tx) ∧
      s' = { s with ledger, startQueue := s.startQueue ++ [tx'] }.observe (.admitted tx') := by
  unfold Runtime.admitLocked at h
  dsimp only at h
  split at h
  · cases h
  · rename_i hstate
    split at h
    · cases h
    · split at h
      · cases h
      · rename_i ledger hins
        obtain ⟨habsent, hget⟩ := LifecycleLedger.get_insertQueued hins
        split at h
        · cases h
          exact ⟨by simpa using hstate, habsent, ledger, hget, rfl⟩
        · cases h

theorem install_view {n : Nat} {tx' : TransactionId} (h : s.install n tx' = some s') :
    TxStep s a tx (view s tx) (view s' tx) := by
  unfold Runtime.install at h
  split at h
  · cases h
  · rename_i p hp
    split at h
    · rename_i hfresh
      dsimp only at h
      split at h
      · rename_i s₁ hok
        cases h
        obtain ⟨hstate, habsent, ledger, hget, rfl⟩ := admitLocked_ok hok
        by_cases htx : tx' = tx
        · subst htx
          refine .admitted (Runtime.queuedEntry tx' p) (.of_eq rfl rfl rfl) hstate habsent ?_ rfl rfl
            rfl rfl ?_ (fun _ => rfl) ?_
          · simp only [Runtime.freshTransaction, Bool.not_eq_true', List.contains_eq_mem,
              decide_eq_false_iff_not] at hfresh
            exact fun hmem => hfresh (List.mem_filter.mp hmem).1
          · simp [view, Runtime.observe, hget]
          · simp [view, Runtime.observe, historyOf, Obs.transactionId]
        · have hne : ¬ tx = tx' := fun heq => htx heq.symm
          refine .still ⟨.of_eq rfl rfl rfl, ?_, fun _ => rfl, ?_⟩
          · simp [view, Runtime.observe, hget, hne]
          · simp [view, Runtime.observe, historyOf, Obs.transactionId, htx]
      · cases h
        exact Quiets.step ⟨rfl, rfl, rfl, fun _ h => h, fun _ h => h, fun _ _ h => h⟩
    · cases h

/-- **The simulation.** Under the loop invariant every step of the runtime is a
step of each transaction's view. -/
theorem step_view (hinv : LoopInv s) (h : Runtime.step a s = some s') (tx : TransactionId) :
    TxStep s a tx (view s tx) (view s' tx) := by
  cases a with
  | reserve request =>
      simp only [Runtime.step] at h
      split at h
      · rename_i s₁ hok
        cases h
        exact (reserve_quiets hok).step
      · cases h
        exact (Quiets.refl s).step
  | install n tx' => exact install_view h
  | terminate selector mode =>
      cases h
      exact (terminate_quiets s selector mode).step
  | beginShutdown =>
      cases h
      exact (beginShutdown_quiets s).step
  | dropOwner =>
      cases h
      exact (dropOwner_quiets s).step
  | threadJoined =>
      simp only [Runtime.step] at h
      split at h
      · cases h
        exact Quiets.step ⟨rfl, rfl, rfl, fun _ h => h, fun _ h => h, fun _ _ h => h⟩
      · cases h
  | closeControl | tick _ | holdGates _ _ | ownership _ _ =>
      cases h
      exact Quiets.step ⟨rfl, rfl, rfl, fun _ h => h, fun _ h => h, fun _ _ h => h⟩
  | coordinator id event =>
      simp only [Runtime.step] at h
      split at h
      · rename_i tx' abort cell params pc hp
        obtain ⟨hk, hcell, habort⟩ := polled_some hp
        cases hcell
        exact stepCoordinator_step hk habort h
      · cases h
  | finalizer id event =>
      simp only [Runtime.step] at h
      split at h
      · rename_i tx' abort cell pc hp
        obtain ⟨hk, hcell, habort⟩ := polled_some hp
        cases hcell
        exact stepFinalizer_step hk habort rfl h
      · cases h
  | complete id =>
      simp only [Runtime.step] at h
      split at h
      · rename_i k body hp
        obtain ⟨hk, hcell, _⟩ := polled_some hp
        have hcells := s.tasks.task?_finish id .completed
        cases body with
        | eventPublisher | child =>
            cases h
            exact ended_step hk hcell (by simp) (by simp) ⟨rfl, rfl, rfl, rfl, rfl⟩
              (fun _ _ h => h) hcells
        | service =>
            cases h
            exact ended_step hk hcell (by simp) (by simp) ⟨rfl, rfl, rfl, rfl, rfl⟩
              (fun _ _ h => by cases h) hcells
        | coordinator _ _ | finalizer _ => cases h
      · cases h
  | panic id =>
      simp only [Runtime.step] at h
      split at h
      · rename_i k body hp
        obtain ⟨hk, hcell, _⟩ := polled_some hp
        split at h
        · rename_i hpanic
          cases h
          refine ended_step hk hcell ?_ ?_ ⟨rfl, rfl, rfl, rfl, rfl⟩ (fun _ _ h => h)
            (s.tasks.task?_finish id .panicked)
          · rintro pc rfl
            cases hpanic
          · rintro params pc rfl
            exact ⟨hpanic, .inl rfl⟩
        · cases h
      · cases h
  | cancelled id =>
      simp only [Runtime.step] at h
      split at h
      · rename_i k body hp
        obtain ⟨hk, hcell⟩ := running_some hp
        split at h
        · rename_i hab
          simp only [Bool.and_eq_true] at hab
          cases h
          refine ended_step hk hcell ?_ ?_ ⟨rfl, rfl, rfl, rfl, rfl⟩ (fun _ _ h => h)
            (s.tasks.task?_cancel id)
          · rintro pc rfl
            exact ⟨hab.2, hab.1⟩
          · rintro params pc rfl
            exact ⟨hab.2, .inr rfl⟩
        · cases h
      · cases h
  | requestSpawn id c =>
      simp only [Runtime.step] at h
      split at h
      · split at h
        · cases h
          exact (requestSpawn_quiets s c).step
        · cases h
      · cases h
  | mcpLookup token =>
      simp only [Runtime.step] at h
      split at h
      · cases h
        exact Quiets.step ⟨rfl, rfl, rfl, fun _ h => h, fun _ h => h, fun _ _ h => h⟩
      · cases h
  | mcpSubmit n =>
      simp only [Runtime.step] at h
      split at h
      · rename_i tx' _
        cases h
        have hq := requestSpawn_quiets { s with mcpInFlight := s.mcpInFlight.eraseIdx n }
          (.mcpRequest tx')
        exact Quiets.step ⟨hq.ledger, hq.tasks, hq.history, hq.mail, hq.reports, hq.routes⟩
      · cases h
  | supervisor c =>
      simp only [Runtime.step, Runtime.supervise] at h
      split at h
      · cases h
      · rename_i w rest hag
        exact execute_view hinv hag h

/-! ## Rows across a step -/

theorem decideRow_isSome (p : TerminalProposal) (force : Bool) (e : LedgerEntry) :
    (Runtime.decideRow p force e).terminal.isSome = true := by
  unfold Runtime.decideRow
  cases ht : e.terminal with
  | none => simp
  | some d =>
      dsimp only
      split <;> rfl

/-- No row appears once admission is closed. -/
theorem TxStep.row_none {v v' : TxView} (h : TxStep s a tx v v') (hs : s.state ≠ .accepting)
    (hn : v.row = none) : v'.row = none := by
  cases h with
  | still quiet => rw [quiet.row, hn]
  | admitted e _ accepting => exact absurd accepting hs
  | settled => simp_all
  | _ => simp_all

/-- No row becomes undecided once admission is closed. -/
theorem TxStep.undecided {v v' : TxView} (h : TxStep s a tx v v') (hs : s.state ≠ .accepting)
    {e' : LedgerEntry} (hrow : v'.row = some e') (ht : e'.terminal = none) :
    ∃ e, v.row = some e ∧ e.terminal = none := by
  cases h with
  | still quiet => exact ⟨e', quiet.row ▸ hrow, ht⟩
  | admitted e _ accepting => exact absurd accepting hs
  | started e d _ _ _ _ old _ _ _ _ _ row =>
      rw [row] at hrow
      cases hrow
      exact ⟨e, old, ht⟩
  | decided e p force _ _ _ old undecided => exact ⟨e, old, undecided⟩
  | late e p force _ old decided _ row =>
      rw [row] at hrow
      cases hrow
      have := decideRow_isSome p force e
      simp [ht] at this
  | aborted keep cancel _ _ row =>
      rw [row] at hrow
      obtain ⟨e, he, rfl⟩ := Option.map_eq_some_iff.mp hrow
      exact ⟨e, he, ht⟩
  | moved _ _ _ _ _ _ _ _ _ _ _ f row =>
      rw [row] at hrow
      obtain ⟨e, he, rfl⟩ := Option.map_eq_some_iff.mp hrow
      exact ⟨e, he, ht⟩
  | sealed _ _ e _ _ _ oldRow _ row =>
      rw [row] at hrow
      cases hrow
      exact ⟨e, oldRow, ht⟩
  | settled _ _ _ _ _ _ _ _ row =>
      rw [row] at hrow
      split at hrow
      · exact ⟨e', hrow, ht⟩
      · obtain ⟨e, he, rfl⟩ := Option.map_eq_some_iff.mp hrow
        cases ht
  | parked _ _ _ _ _ _ row | published _ _ _ _ _ _ _ _ _ _ row =>
      rw [row] at hrow
      obtain ⟨e, he, rfl⟩ := Option.map_eq_some_iff.mp hrow
      exact ⟨e, he, ht⟩
  | removed _ _ _ _ _ row => simp [row] at hrow
  | returned _ _ _ _ _ _ _ _ _ row | notified _ _ _ _ _ _ _ _ row | orphaned _ _ _ _ _ row
  | replied _ _ _ _ _ _ row | ended _ _ _ _ _ _ _ _ _ row | joined _ _ _ _ _ _ _ _ row
  | spawned _ _ _ _ _ _ _ row =>
      exact ⟨e', row ▸ hrow, ht⟩

end Monoloop.Lifecycle
