import Monoloop.Lifecycle.Proposal

/-!
# What a removed row leaves behind

A row owns its session key and its capacity, so no task of the transaction may
outlive it, and no MCP route either. Rows are removed only when no task is
registered; but spawn requests wait in a queue that nobody checks against the
ledger, and a route is revoked only by the coordinator's own code, which does
not run when the coordinator panics or is aborted at an await.
-/

namespace Monoloop.Lifecycle

open Mcp (CapabilityToken)
open Transition (System always)

variable {s s' : Runtime} {a : Action} {tx : TransactionId} {t t' : TxState}

/-! ## Registered tasks -/

/-- A spawn request is taken off the queue while its row exists. -/
def Runtime.registersOwned (s : Runtime) (a : Action) : Prop :=
  ∀ c ∈ s.registers a, ∀ tx ∈ c.transactionId, (s.ledger.get tx).isSome = true

instance (s : Runtime) (a : Action) : Decidable (s.registersOwned a) :=
  inferInstanceAs (Decidable (∀ c ∈ s.registers a, _))

/-- Every registered task of the view has its row. -/
def TxView.Owned (v : TxView) : Prop := ∀ id k, v.task id = some k → v.row ≠ none

theorem TxView.Owned.step {v v' : TxView} (hreg : s.registersOwned a) (hview : v.row = s.ledger.get tx)
    (hinv : v.Owned) (h : TxStep s a tx v v') : v'.Owned := by
  -- a task changed in place keeps its row
  have hset : ∀ {id k y}, v.task id = some k → (∀ i, v'.task i = Function.update v.task id y i) →
      (v.row ≠ none → v'.row ≠ none) → v'.Owned := by
    intro id k y hk htask hrow i k' hk'
    rw [htask, Function.update_apply] at hk'
    split at hk'
    · exact hrow (hinv id k hk)
    · exact hrow (hinv i k' hk')
  -- and so does an untouched one
  have hsame : (∀ i, v'.task i = v.task i) → (v.row ≠ none → v'.row ≠ none) → v'.Owned := by
    intro htask hrow i k hk
    exact hrow (hinv i k (htask i ▸ hk))
  cases h with
  | still quiet => exact hsame quiet.task (by simp [quiet.row])
  | admitted e _ _ _ _ _ _ _ _ row task => exact hsame task (by simp [row])
  | started e d pub coord params drains old queued delivery freshPub freshCoord ne row =>
      intro i k _
      simp [row]
  | decided e p force source id drains old undecided origin fresh row =>
      intro i k _
      simp [row]
  | late e p force drains old decided forced row task => exact hsame task (by simp [row])
  | aborted keep cancel drains spares row task =>
      intro i k hk
      rw [task] at hk
      obtain ⟨k₀, hk₀, _⟩ := Option.map_eq_some_iff.mp hk
      simpa [row] using hinv i k₀ hk₀
  | moved id params pc pc' _ _ old _ _ _ _ session row task => exact hset old task (by simp [row])
  | returned id params pc p _ _ old _ _ row task => exact hset old task (by simp [row])
  | parked id params p abort _ old row task => exact hset old task (by simp [row])
  | notified id params p abort _ _ _ old row task => exact hset old task (by simp [row])
  | sealed id sealTx e pc _ old _ _ row task => exact hset old task (by simp [row])
  | orphaned id sealTx _ old _ row task => exact hset old task (by simp [row])
  | replied id snap d n _ old row task => exact hset old task (by simp [row])
  | settled id snap d n abort _ _ old row task =>
      refine hset old task (fun hne => ?_)
      rw [row]
      split
      · exact hne
      · simpa using hne
  | published id snap d n abort c r _ old _ row task => exact hset old task (by simp [row])
  | ended id k body r _ old _ _ _ row task => exact hset old task (by simp [row])
  | joined id k r _ _ _ old _ row task => exact hset old task (by simp [row])
  | removed e drains old idle past row task =>
      -- the only removal, and it finds no task
      intro i k hk
      rw [task, idle] at hk
      cases hk
  | spawned id c drains registers owned queued fresh row task =>
      intro i k _
      rw [row, hview]
      exact Option.isSome_iff_ne_none.mp (hreg c registers tx owned)

/-- **Every registered task has its row**, in every run that takes spawn
requests off the queue only while their rows exist. So no row is removed while
a task of its transaction is registered, and none is registered afterwards. -/
theorem registered_task_owned (h : runtime.Reach Runtime.registersOwned s) :
    ∀ id k tx, s.tasks.task? id = some k → k.taskClass.transactionId = some tx →
      ∃ e, s.ledger.get tx = some e := by
  have howned : ∀ tx, (view s tx).Owned := by
    refine h.project view (fun s a tx => TxStep s a tx) ?_ ?_ ?_
    · intro s tx hi id k hk
      obtain ⟨config, rfl⟩ := hi
      simp only [view, Runtime.start] at hk
      split at hk
      · rw [tasksOf_spawn, if_neg (by simp [TaskClass.transactionId])] at hk
        cases hk
      · cases hk
    · intro s a s' tx hr _ hs
      exact step_view (loopInv_reach hr) hs tx
    · intro s a tx v _ ha hv hinv v' hstep
      exact hinv.step ha (by rw [hv]; rfl) hstep
  intro id k tx hk hown
  exact Option.ne_none_iff_exists'.mp (howned tx id k (tasksOf_some.mpr ⟨hk, hown⟩))

theorem removed_of_records {kind : TransactionEndKind} {history : List Obs}
    (h : history.any (Obs.records kind) = true) : ∃ e, .removed sampleTransaction e ∈ history := by
  obtain ⟨o, ho, hrecords⟩ := List.any_eq_true.mp h
  cases o with
  | removed tx e =>
      simp only [Obs.records, Bool.and_eq_true, decide_eq_true_eq] at hrecords
      exact ⟨e, hrecords.1 ▸ ho⟩
  | _ => cases hrecords

/-- The sample coordinator installs its route, and a request on it passes the
lookup. -/
def lookedUpRun : List Action :=
  sampleStart ++ [.coordinator ⟨3⟩ (.begin (some sampleToken) true), .mcpLookup sampleToken]

/-- A cancel then ends the transaction before the request reaches the spawn
queue: the coordinator returns, the finalizer publishes, the row goes. -/
def lateRequestRun : List Action :=
  lookedUpRun ++ [.terminate (.transaction sampleTransaction) .cancel] ++ supervisorRuns 4 ++
    [.coordinator ⟨3⟩ .attachCancelled, .coordinator ⟨3⟩ .park, .coordinator ⟨3⟩ .notify,
      .finalizer ⟨4⟩ (.resume .accepted), .finalizer ⟨4⟩ (.reply (some (.published, 1))),
      .finalizer ⟨4⟩ .settle, .finalizer ⟨4⟩ (.publish true), .complete ⟨2⟩,
      .supervisor (.joined ⟨1⟩), .supervisor (.joined ⟨2⟩), .supervisor (.joined ⟨3⟩)] ++
    supervisorRuns 7 ++ [.mcpSubmit 0] ++ supervisorRuns 2

/-- **A request can be registered for a transaction that is gone.** -/
theorem late_request_unowned : ∃ s, runtime.Reach always s ∧ ∃ id k,
    s.tasks.task? id = some k ∧ k.taskClass.transactionId = some sampleTransaction ∧
    (∃ e, .removed sampleTransaction e ∈ s.history) ∧ s.ledger.get sampleTransaction = none := by
  obtain ⟨s, hs, hp⟩ := System.exists_of_run sample_init lateRequestRun
    (fun s => (s.tasks.task? ⟨5⟩).any (·.taskClass.transactionId = some sampleTransaction) &&
      s.history.any (Obs.records .cancelled) && (s.ledger.get sampleTransaction).isNone)
    (by decide +kernel)
  simp only [Bool.and_eq_true, Option.any_eq_true, decide_eq_true_eq,
    Option.isNone_iff_eq_none] at hp
  obtain ⟨⟨⟨k, hk, hown⟩, hrecords⟩, hnone⟩ := hp
  exact ⟨s, hs, ⟨5⟩, k, hk, hown, removed_of_records hrecords, hnone⟩

/-- The same request, submitted at once. -/
theorem prompt_request_owned : ∃ s, runtime.Reach Runtime.registersOwned s ∧
    (∃ k, s.tasks.task? ⟨4⟩ = some k ∧ k.taskClass = .mcpRequest sampleTransaction) ∧
    ∃ e, s.ledger.get sampleTransaction = some e := by
  obtain ⟨s, hs, hp⟩ := System.exists_of_runWhere Runtime.registersOwned sample_init
    (lookedUpRun ++ [.mcpSubmit 0] ++ supervisorRuns 6)
    (fun s => (s.tasks.task? ⟨4⟩).any (·.taskClass = .mcpRequest sampleTransaction))
    (by decide +kernel)
  simp only [Option.any_eq_true, decide_eq_true_eq] at hp
  obtain ⟨k, hk, hclass⟩ := hp
  exact ⟨s, hs, ⟨k, hk, hclass⟩,
    registered_task_owned hs ⟨4⟩ k sampleTransaction hk (by rw [hclass]; rfl)⟩

/-! ## Installed routes -/

/-- The task that a panic or an abort ends. -/
def Action.ends : Action → Option TaskId
  | .panic id | .cancelled id => some id
  | _ => none

/-- The token a running coordinator holds, with its transaction. -/
def Runtime.heldToken (s : Runtime) (id : TaskId) : Option (TransactionId × CapabilityToken) :=
  match s.running id with
  | some (⟨.transactionCoordinator tx, _, _⟩, .coordinator _ pc) => pc.token.map (tx, ·)
  | _ => none

/-- A coordinator that panics or is stopped at an await leaves no route behind. -/
def Runtime.endsUnrouted (s : Runtime) (a : Action) : Prop :=
  ∀ id ∈ a.ends, ∀ held ∈ s.heldToken id, s.routes.owner held.2 ≠ some held.1

instance (s : Runtime) (a : Action) : Decidable (s.endsUnrouted a) :=
  inferInstanceAs (Decidable (∀ id ∈ a.ends, _))

theorem Runtime.endsUnrouted.unrouted {id : TaskId} {abort : Bool} {params : CoordinatorParams}
    {pc : CoordinatorPc} (h : s.endsUnrouted a) (hend : a = .panic id ∨ a = .cancelled id)
    (hheld : (view s tx).At id (.transactionCoordinator tx) abort (.coordinator params pc))
    {token : CapabilityToken} (htoken : pc.token = some token) :
    s.routes.owner token ≠ some tx := by
  have hrunning : s.running id = some
      (⟨.transactionCoordinator tx, abort, .running (.coordinator params pc)⟩,
        .coordinator params pc) := by
    simp only [Runtime.running, (tasksOf_some.mp hheld).1]
  have hend' : id ∈ a.ends := by
    rcases hend with rfl | rfl
    · rfl
    · rfl
  refine h id hend' (tx, token) ?_
  show s.heldToken id = some (tx, token)
  simp only [Runtime.heldToken, hrunning, htoken, Option.map_some]

/-- An installed route is held by the running coordinator, which will revoke it. -/
def TxState.Held (t : TxState) : Prop :=
  ∀ token, t.route token → ∃ abort params pc,
    t.coordinator = some (abort, .running (.coordinator params pc)) ∧ pc.token = some token

/-- A coordinator that holds no token has no route. -/
theorem TxState.Held.unrouted (h : t.Held)
    (hnone : ∀ abort params pc, t.coordinator = some (abort, .running (.coordinator params pc)) →
      pc.token = none) : ∀ token, ¬ t.route token := by
  intro token hroute
  obtain ⟨abort, params, pc, hc, htoken⟩ := h token hroute
  rw [hnone abort params pc hc] at htoken
  cases htoken

/-- A move that keeps the coordinator keeps what it holds. -/
theorem TxState.Held.congr (h : t.Held) (hroute : ∀ token, t'.route token → t.route token)
    (hc : t'.coordinator = t.coordinator) : t'.Held := by
  intro token ht'
  rw [hc]
  exact h token (hroute token ht')

theorem TxState.Held.step (hends : s.endsUnrouted a) (ht : Shows s tx t) (hslot : SlotInv tx t)
    (h : t.Held) (hmove : TxMove s a tx t t') : t'.Held := by
  -- every case without a comment leaves the coordinator and its routes alone
  have hgone : (∀ token, ¬ t.route token) → (∀ token, t'.route token → t.route token) →
      t'.Held := fun hnone hroute token ht' => absurd (hroute token ht') (hnone token)
  cases hmove with
  | still drains _ _ coordinator => exact h.congr drains.route coordinator
  | admitted _ drains _ _ _ _ _ _ _ _ coordinator => exact h.congr drains.route coordinator
  | started e d params drains old queued =>
      -- a queued row has no coordinator yet, so nobody installed a route
      have hnone := (hslot.unstarted (by simpa only [TxState.Unstarted, old] using queued)).1
      exact hgone (h.unrouted (by simp [hnone])) drains.route
  | decided _ _ _ _ drains _ _ _ _ _ _ coordinator => exact h.congr drains.route coordinator
  | late _ _ _ drains _ _ _ _ _ coordinator => exact h.congr drains.route coordinator
  | aborted keep drains _ _ _ _ coordinator =>
      intro token ht'
      obtain ⟨abort, params, pc, hc, htoken⟩ := h token (drains.route token ht')
      exact ⟨_, params, pc, coordinator.forth hc, htoken⟩
  | moved params pc pc' _ _ old _ _ keeps route _ _ _ coordinator =>
      -- it installs its own token, or keeps the one it has
      intro token ht'
      refine ⟨false, params, pc', coordinator, ?_⟩
      rcases route token ht' with hold | hnew
      · obtain ⟨abort, params₀, pc₀, hc, htoken⟩ := h token hold
        cases old.symm.trans hc
        exact keeps token htoken
      · exact hnew
  | returned params pc p _ _ old _ route =>
      -- every return revokes the token it holds
      intro token ht'
      obtain ⟨hold, hne⟩ := route token ht'
      obtain ⟨abort, params₀, pc₀, hc, htoken⟩ := h token hold
      cases old.symm.trans hc
      exact absurd htoken hne
  | parked params p abort drains old =>
      refine hgone (h.unrouted fun abort₀ params₀ pc₀ hc => ?_) drains.route
      cases old.symm.trans hc
      rfl
  | notified params p abort r _ _ route old =>
      refine hgone (h.unrouted fun abort₀ params₀ pc₀ hc => ?_) (fun token => by rw [route]; exact id)
      cases old.symm.trans hc
      rfl
  | sealed _ _ _ drains _ _ _ _ _ coordinator => exact h.congr drains.route coordinator
  | orphaned _ _ drains _ _ _ _ coordinator => exact h.congr drains.route coordinator
  | replied _ _ _ drains _ _ _ coordinator => exact h.congr drains.route coordinator
  | settled _ _ _ _ _ drains _ _ _ _ _ coordinator => exact h.congr drains.route coordinator
  | published _ _ _ _ _ _ _ drains _ _ _ _ _ coordinator => exact h.congr drains.route coordinator
  | finalizerAborted _ _ drains _ _ _ _ coordinator => exact h.congr drains.route coordinator
  | coordinatorEnded id abort params pc r drains old held _ cause =>
      -- nothing runs the revoke any more; the side condition rules the route out
      refine hgone (fun token hroute => ?_) drains.route
      obtain ⟨abort₀, params₀, pc₀, hc, htoken⟩ := h token hroute
      cases old.symm.trans hc
      rw [ht.route] at hroute
      exact hends.unrouted cause held htoken hroute
  | finalizerJoined _ _ _ _ route _ _ _ coordinator =>
      exact h.congr (fun token => by rw [route]; exact id) coordinator
  | coordinatorJoined abort r _ _ route old =>
      refine hgone (h.unrouted fun abort₀ params₀ pc₀ hc => ?_) (fun token => by rw [route]; exact id)
      cases old.symm.trans hc
  | removed e drains _ _ noCoordinator =>
      exact hgone (h.unrouted (by simp [noCoordinator])) drains.route

/-- **No route outlives the row**, in every run in which a coordinator that
panics or is stopped at an await has no route installed then. -/
theorem removed_row_unrouted (h : runtime.Reach Runtime.endsUnrouted s) :
    ∀ tx, s.ledger.get tx = none → ∀ token, s.routes.owner token ≠ some tx := by
  intro tx hnone token hroute
  obtain ⟨t, ht, hslot⟩ := exists_shows h tx
  have hheld : t.Held := by
    refine Reach.local (I := TxState.Held) ?_ ?_ h ht
    · exact fun _ hroute => hroute.elim
    · intro s a t t' hr hends ht hinv hmove
      exact hinv.step hends ht (slotInv_reach hr ht) hmove
  refine hheld.unrouted (by simp [(hslot.gone (ht.row.trans hnone)).2]) token ?_
  rw [ht.route]
  exact hroute

/-- A cancelled transaction whose coordinator is still attaching when the
finalizer is done: the finalizer's exit aborts the coordinator at that await. -/
def abortedAttachRun : List Action :=
  sampleStart ++ [.coordinator ⟨3⟩ (.begin (some sampleToken) true),
      .terminate (.transaction sampleTransaction) .cancel] ++ supervisorRuns 4 ++
    [.finalizer ⟨4⟩ (.resume .accepted), .finalizer ⟨4⟩ (.reply (some (.published, 1))),
      .finalizer ⟨4⟩ .settle, .finalizer ⟨4⟩ (.publish true), .complete ⟨2⟩,
      .supervisor (.joined ⟨3⟩)] ++ supervisorRuns 3 ++ [.cancelled ⟨3⟩] ++ supervisorRuns 6 ++
    [.supervisor (.arm (.join ⟨1⟩))] ++ supervisorRuns 7 ++ [.supervisor (.joined ⟨2⟩)] ++
    supervisorRuns 3

/-- **A route can outlive its row.** -/
theorem aborted_attach_routed : ∃ s, runtime.Reach always s ∧
    (∃ e, .removed sampleTransaction e ∈ s.history) ∧ s.ledger.get sampleTransaction = none ∧
    s.routes.owner sampleToken = some sampleTransaction := by
  obtain ⟨s, hs, hp⟩ := System.exists_of_run sample_init abortedAttachRun
    (fun s => s.history.any (Obs.records .cancelled) && (s.ledger.get sampleTransaction).isNone &&
      s.routes.owner sampleToken = some sampleTransaction)
    (by decide +kernel)
  simp only [Bool.and_eq_true, decide_eq_true_eq, Option.isNone_iff_eq_none] at hp
  obtain ⟨⟨hrecords, hnone⟩, howner⟩ := hp
  exact ⟨s, hs, removed_of_records hrecords, hnone, howner⟩

/-- The coordinator that notices the cancel itself revokes its route. -/
theorem cancelled_attach_unrouted : ∃ s, runtime.Reach Runtime.endsUnrouted s ∧
    (∃ e, .removed sampleTransaction e ∈ s.history) ∧
    ∀ token, s.routes.owner token ≠ some sampleTransaction := by
  obtain ⟨s, hs, hp⟩ := System.exists_of_runWhere Runtime.endsUnrouted sample_init lateRequestRun
    (fun s => s.history.any (Obs.records .cancelled) && (s.ledger.get sampleTransaction).isNone)
    (by decide +kernel)
  simp only [Bool.and_eq_true, Option.isNone_iff_eq_none] at hp
  exact ⟨s, hs, removed_of_records hp.1, removed_row_unrouted hs sampleTransaction hp.2⟩

end Monoloop.Lifecycle
