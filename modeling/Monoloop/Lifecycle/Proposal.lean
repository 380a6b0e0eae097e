import Monoloop.Lifecycle.Terminal

/-!
# The coordinator's proposal

A coordinator that returns a proposal first parks it on its row and then
signals the worker queue. Whichever the supervisor sees first (the signal, or
the task's exit when the signal was lost), the proposal it accepts is the
coordinator's own, unless a cancel, a forced termination or the shutdown was
accepted before it.
-/

namespace Monoloop.Lifecycle

open Transition (System always)

variable {s s' : Runtime} {a : Action} {tx : TransactionId} {t t' : TxState}

/-- Terminals that do not come from the coordinator. -/
def TerminalSource.external : TerminalSource → Bool
  | .cancel | .force | .shutdown => true
  | .worker | .taskExit => false

/-- Where a returned proposal is, and what was accepted on its behalf. -/
structure ProposalInv (tx : TransactionId) (t : TxState) : Prop where
  /-- Signals carry what the coordinator returned. -/
  mail : ∀ p ∈ t.mail, .proposed tx p ∈ t.seen
  returned : ∀ abort params pc p, t.coordinator = some (abort, .running (.coordinator params pc)) →
    pc = .returned p ∨ pc = .parked p → .proposed tx p ∈ t.seen
  /-- A coordinator at an await has returned nothing. -/
  unreturned : ∀ abort params pc, t.coordinator = some (abort, .running (.coordinator params pc)) →
    pc.awaits = true → ∀ p, .proposed tx p ∉ t.seen
  unstarted : t.Unstarted tx → ∀ p, .proposed tx p ∉ t.seen
  /-- It returns once. -/
  one : ∀ p q, .proposed tx p ∈ t.seen → .proposed tx q ∈ t.seen → p = q
  /-- Until the decision the proposal is in the coordinator's hands or on the row. -/
  kept : ∀ p e, .proposed tx p ∈ t.seen → t.row = some e → e.terminal = none →
    e.pendingWorkerProposal = some p ∨
      ∃ abort params, t.coordinator = some (abort, .running (.coordinator params (.returned p)))
  worker : ∀ k, .decided tx .worker k ∈ t.seen → ∃ p, .proposed tx p ∈ t.seen ∧ p.kind = k
  taskExit : ∀ k, .decided tx .taskExit k ∈ t.seen →
    t.coordinator = none ∧ ∀ p, .proposed tx p ∈ t.seen → p.kind = k

theorem ProposalInv.new (tx : TransactionId) : ProposalInv tx .new := by
  constructor <;> simp [TxState.new]

/-- A parked proposal is what the exit of the coordinator recovers. -/
theorem recoveredProposal_of_pending {e : LedgerEntry} {p : TerminalProposal}
    (h : e.pendingWorkerProposal = some p) (exit : TaskExit) (quiescing : Bool) :
    Runtime.recoveredProposal e exit quiescing = p := by
  simp [Runtime.recoveredProposal, h]

theorem unstarted_of {e : LedgerEntry} (hrow : t.row = some e) (hq : e.phase = .queued) :
    t.Unstarted tx := by
  simpa [TxState.Unstarted, hrow] using hq

theorem ProposalInv.step_kept (hinv : ProposalInv tx t) (h : TxMove s a tx t t') :
    ∀ p e, .proposed tx p ∈ t'.seen → t'.row = some e → e.terminal = none →
      e.pendingWorkerProposal = some p ∨ ∃ abort params,
        t'.coordinator = some (abort, .running (.coordinator params (.returned p))) := by
  have hold := hinv.kept
  cases h with
  | admitted e₀ drains absent fresh =>
      have := hinv.unstarted (by simpa [TxState.Unstarted, absent] using fresh)
      grind
  | started e₀ d params drains old queued =>
      have := hinv.unstarted (unstarted_of old queued)
      grind
  | decided e₀ p force | late e₀ p force =>
      -- decided rows are outside the statement
      have := decideRow_isSome p force e₀
      grind
  | aborted keep drains spares row pending finalizer coordinator =>
      intro p e' hp he' hterm
      obtain ⟨e, he, _, hterm', _⟩ := row.kept e' he'
      rcases hold p e (by simp_all) he (hterm' ▸ hterm) with hpark | ⟨abort, params, hc⟩
      · exact .inl ((pending e e' he he').trans hpark)
      · exact .inr ⟨_, params, coordinator.forth hc⟩
  | moved params pc pc' mail exited old awaits =>
      have := hinv.unreturned _ _ _ old awaits
      grind
  | returned params pc p mail exited old awaits =>
      have := hinv.unreturned _ _ _ old awaits
      grind
  | parked params p abort drains old row pending =>
      -- the proposal moves from the coordinator to the row
      have := hinv.one
      have := hinv.returned _ _ _ p old (.inl rfl)
      grind
  | notified | coordinatorEnded => grind [CoordinatorPc.awaits]
  | _ => grind

theorem ProposalInv.step_taskExit (hinv : ProposalInv tx t) (hslot : SlotInv tx t)
    (hfin : FinalizerInv Upgrades tx t) (h : TxMove s a tx t t') :
    ∀ k, .decided tx .taskExit k ∈ t'.seen →
      t'.coordinator = none ∧ ∀ p, .proposed tx p ∈ t'.seen → p.kind = k := by
  have hold := hinv.taskExit
  cases h with
  | started e₀ d params drains old queued =>
      have := hfin.undecided (undecided_of old (hslot.queued e₀ old queued))
      grind [Obs.afterDecision]
  | decided e p force source drains old undecided worker taskExit row finalizer coordinator seen =>
      intro k hk
      rw [seen] at hk
      rcases List.mem_cons.mp hk with heq | hmem
      · cases heq
        obtain ⟨hexit, exit, quiescing, rfl⟩ := taskExit rfl
        have hnone := hslot.joinedCoordinator hexit
        refine ⟨coordinator.trans hnone, fun p' hp' => ?_⟩
        -- the coordinator is gone, so its proposal is on the row
        rw [seen] at hp'
        rcases hinv.kept p' e (by simpa using hp') old undecided with hpark | ⟨_, _, hc⟩
        · rw [recoveredProposal_of_pending hpark]
        · rw [hnone] at hc
          cases hc
      · have := hfin.undecided (undecided_of old undecided) _ hmem
        cases this
  | _ => grind

theorem ProposalInv.step (hinv : ProposalInv tx t) (hslot : SlotInv tx t)
    (hfin : FinalizerInv Upgrades tx t) (h : TxMove s a tx t t') : ProposalInv tx t' where
  mail := by
    have := hinv.mail
    have := hinv.returned
    cases h <;> grind
  returned := by
    have := hinv.returned
    cases h <;> grind [CoordinatorPc.awaits]
  unreturned := by
    have := hinv.unreturned
    have := hinv.unstarted
    cases h <;> grind [CoordinatorPc.awaits]
  unstarted := by
    have := hinv.unstarted
    -- a started coordinator keeps its row out of the queue
    have := hslot.unstarted
    have := hslot.admitted
    cases h <;> grind
  one := by
    have := hinv.one
    have := hinv.unreturned
    cases h <;> grind
  kept := hinv.step_kept h
  worker := by
    have := hinv.worker
    have := hinv.mail
    cases h <;> grind
  taskExit := hinv.step_taskExit hslot hfin h

theorem proposalInv_reach {ok : Runtime → Action → Prop} (h : runtime.Reach ok s)
    (ht : Shows s tx t) : ProposalInv tx t := by
  refine Reach.local (.new tx) ?_ h ht
  intro s a t t' hr _ ht hinv hmove
  exact hinv.step (slotInv_reach hr ht) (finalizerInv_reach hr ht) hmove

/-! ## The accepted terminal -/

/-- What a row decided as the first kind may say later. -/
inductive Becomes : TransactionEndKind → TransactionEndKind → Prop where
  | same (k : TransactionEndKind) : Becomes k k
  | upgraded : Becomes .cancelled .terminated
  | undelivered (k : TransactionEndKind) (success : k = .completed ∨ k = .continuationRequired) :
      Becomes k .eventDeliveryFailed

theorem Becomes.revise {k k' k'' : TransactionEndKind} (h : Becomes k k')
    (hrev : Revises s a tx k' k'') : Becomes k k'' := by
  cases hrev with
  | same => exact h
  | forced =>
      cases h with
      | same => exact .upgraded
  | downgraded id settles _ success =>
      cases h with
      | same => exact .undelivered _ success
      | upgraded => rcases success with hs | hs <;> cases hs
      | undelivered => rcases success with hs | hs <;> cases hs

/-- The recorded decision and the row agree. -/
structure DecisionInv (tx : TransactionId) (t : TxState) : Prop where
  row : ∀ source k e, .decided tx source k ∈ t.seen → t.row = some e →
    ∃ d, e.terminal = some d ∧ Becomes k d.kind
  recorded : ∀ source k e, .decided tx source k ∈ t.seen → .removed tx e ∈ t.seen →
    ∃ d, e.terminal = some d ∧ Becomes k d.kind
  made : ∀ e, t.row = some e → e.terminal ≠ none → ∃ source k, .decided tx source k ∈ t.seen
  madeRemoved : ∀ e, .removed tx e ∈ t.seen → ∃ source k, .decided tx source k ∈ t.seen

theorem DecisionInv.new (tx : TransactionId) : DecisionInv tx .new := by
  constructor <;> simp [TxState.new]

/-- No decision is recorded for a transaction that is undecided. -/
theorem FinalizerInv.no_decision {source : TerminalSource} {k : TransactionEndKind}
    {R : TransactionEndKind → TransactionEndKind → Prop} (hfin : FinalizerInv R tx t)
    (hund : t.Undecided tx) : .decided tx source k ∉ t.seen := by
  intro hmem
  have := hfin.undecided hund _ hmem
  cases this

theorem DecisionInv.step_row (hinv : DecisionInv tx t)
    (hfin : FinalizerInv Upgrades tx t) (h : TxMove s a tx t t') :
    ∀ source k e, .decided tx source k ∈ t'.seen → t'.row = some e →
      ∃ d, e.terminal = some d ∧ Becomes k d.kind := by
  intro source k e' hk he'
  -- an old decision follows the row through the move
  have hold : .decided tx source k ∈ t.seen → ∃ d, e'.terminal = some d ∧ Becomes k d.kind := by
    intro hmem
    cases he : t.row with
    | none =>
        cases h with
        | admitted e₀ drains absent fresh =>
            exact absurd hmem (hfin.no_decision (undecided_of_absent absent fresh))
        | _ => grind
    | some e =>
        obtain ⟨d, hd, hb⟩ := hinv.row source k e hmem he
        obtain ⟨d', hd', hrev⟩ := h.revises hfin he hd he'
        exact ⟨d', hd', hb.revise hrev⟩
  cases h with
  | decided e p force src drains old undecided worker taskExit row finalizer coordinator seen =>
      rw [seen] at hk
      rcases List.mem_cons.mp hk with heq | hmem
      · cases heq
        cases row.symm.trans he'
        refine ⟨⟨p.kind⟩, ?_, .same _⟩
        simp [Runtime.decideRow, undecided]
      · exact hold hmem
  | _ => grind

theorem DecisionInv.step (hinv : DecisionInv tx t)
    (hfin : FinalizerInv Upgrades tx t) (h : TxMove s a tx t t') : DecisionInv tx t' where
  row := hinv.step_row hfin h
  recorded := by
    have := hinv.recorded
    have := hinv.row
    have := hfin.removed
    cases h <;> grind
  made := by
    have := hinv.made
    cases h with
    | settled id snap d n abort drains byFinalizer old =>
        -- the finalizer that settles belongs to a decided row
        obtain ⟨_, e, _, he, _, hd, _⟩ := hfin.holding _ _ _ old rfl
        have := hinv.made e he (by simp [hd])
        grind
    | _ => grind
  madeRemoved := by
    have := hinv.madeRemoved
    have := hinv.made
    have := hfin.row
    cases h with
    | removed e drains old noFinalizer noCoordinator past =>
        have hterm : e.terminal ≠ none := by
          intro hnone
          have := (hfin.row e old).terminal.mp hnone
          grind
        have := hinv.made e old hterm
        grind
    | _ => grind

theorem decisionInv_reach {ok : Runtime → Action → Prop} (h : runtime.Reach ok s)
    (ht : Shows s tx t) : DecisionInv tx t := by
  refine Reach.local (.new tx) ?_ h ht
  intro s a t t' hr _ ht hinv hmove
  exact hinv.step (finalizerInv_reach hr ht) hmove

/-- What becomes of a returned proposal in a state. -/
structure ProposalStands (s : Runtime) (tx : TransactionId) (p : TerminalProposal) : Prop where
  /-- Only this proposal is accepted. -/
  accepted : ∀ source k, .decided tx source k ∈ s.history → k = p.kind
  /-- An undecided row, or the coordinator on its way to it, still holds it. -/
  held : ∀ e, s.ledger.get tx = some e → e.terminal = none →
    e.pendingWorkerProposal = some p ∨ ∃ id abort params, s.tasks.task? id =
      some ⟨.transactionCoordinator tx, abort, .running (.coordinator params (.returned p))⟩
  /-- A decided row was decided as this proposal. -/
  decided : ∀ e d, s.ledger.get tx = some e → e.terminal = some d → Becomes p.kind d.kind
  /-- So was a removed one. -/
  removed : ∀ e, .removed tx e ∈ s.history → ∃ d, e.terminal = some d ∧ Becomes p.kind d.kind

/-- **A returned proposal is the terminal the supervisor accepts**, whatever
signal was lost and whichever exit was seen first, unless a cancel, a forced
termination or the shutdown was accepted. -/
theorem returned_proposal_accepted {p : TerminalProposal} (h : runtime.Reach always s)
    (hp : .proposed tx p ∈ s.history)
    (hfree : ∀ source k, .decided tx source k ∈ s.history → source.external = false) :
    ProposalStands s tx p := by
  obtain ⟨t, ht, _⟩ := exists_shows h tx
  have hprop := proposalInv_reach h ht
  have hdec := decisionInv_reach h ht
  have hseen : ∀ o ∈ s.history, o.transactionId = tx → o ∈ t.seen := by
    intro o ho hown
    rw [show t.seen = historyOf s.history tx from ht.seen]
    exact List.mem_filter.mpr ⟨ho, by simpa using hown⟩
  have hback : ∀ o ∈ t.seen, o ∈ s.history := by
    intro o ho
    rw [show t.seen = historyOf s.history tx from ht.seen] at ho
    exact (List.mem_filter.mp ho).1
  have hp' := hseen _ hp rfl
  have haccepted : ∀ source k, .decided tx source k ∈ t.seen → k = p.kind := by
    intro source k hk
    have hext := hfree source k (hback _ hk)
    cases source with
    | worker =>
        obtain ⟨q, hq, rfl⟩ := hprop.worker k hk
        rw [hprop.one p q hp' hq]
    | taskExit => exact ((hprop.taskExit k hk).2 p hp').symm
    | cancel | force | shutdown => cases hext
  refine ⟨fun source k hk => haccepted source k (hseen _ hk rfl), ?_, ?_, ?_⟩
  · intro e he hterm
    rcases hprop.kept p e hp' (ht.row.trans he) hterm with hpark | ⟨abort, params, hc⟩
    · exact .inl hpark
    · have hslot := ht.coordinator
      rw [hc] at hslot
      obtain ⟨id, hid, _⟩ := hslot
      exact .inr ⟨id, abort, params, (tasksOf_some.mp hid).1⟩
  · intro e d he hd
    obtain ⟨source, k, hk⟩ := hdec.made e (ht.row.trans he) (by simp [hd])
    obtain ⟨d', hd', hb⟩ := hdec.row source k e hk (ht.row.trans he)
    cases hd.symm.trans hd'
    exact haccepted source k hk ▸ hb
  · intro e he
    have hmem := hseen _ he rfl
    obtain ⟨source, k, hk⟩ := hdec.madeRemoved e hmem
    exact haccepted source k hk ▸ hdec.recorded source k e hk hmem

def sampleToken : Mcp.CapabilityToken := ⟨7#256, by decide⟩

/-- The sample coordinator completes after the supervisor has drained the worker
queue, so that the exit is observed before the signal. -/
def exitFirstRun : List Action :=
  sampleStart ++ supervisorRuns 3 ++
    [.coordinator ⟨3⟩ (.begin (some sampleToken) true), .coordinator ⟨3⟩ (.attached true),
      .coordinator ⟨3⟩ (.opened none), .coordinator ⟨3⟩ .exchanged,
      .coordinator ⟨3⟩ (.finished .completed), .coordinator ⟨3⟩ .park, .coordinator ⟨3⟩ .notify,
      .supervisor (.joined ⟨2⟩)] ++ supervisorRuns 2

theorem exit_before_signal_accepted : ∃ s, runtime.Reach always s ∧
    .decided sampleTransaction .taskExit .completed ∈ s.history ∧
    ProposalStands s sampleTransaction ⟨.completed⟩ := by
  obtain ⟨s, hs, hp⟩ := System.exists_of_run sample_init exitFirstRun
    (fun s => s.history = [.decided sampleTransaction .taskExit .completed,
      .proposed sampleTransaction ⟨.completed⟩, .admitted sampleTransaction])
    (by decide +kernel)
  simp only [decide_eq_true_eq] at hp
  refine ⟨s, hs, by simp [hp], returned_proposal_accepted hs (by simp [hp]) ?_⟩
  intro source k hk
  simp only [hp, List.mem_cons, Obs.decided.injEq, reduceCtorEq, List.not_mem_nil, or_false] at hk
  rw [hk.2.1]
  rfl

end Monoloop.Lifecycle
