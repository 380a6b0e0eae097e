import Monoloop.Lifecycle.Finalization

/-!
# The one completion attempt

`CompletionInv` says that a decided transaction that has not attempted its
completion still has a finalizer that nobody aborts at an await point. It is
kept by every step except a forced `abort_all` that finds a finalizer there.
-/

namespace Monoloop.Lifecycle

open Transition (System always)

variable {s s' : Runtime} {a : Action} {tx : TransactionId} {t t' : TxState}

/-- Every removal in the record (newest first) comes after an attempt. -/
def SentFirst (tx : TransactionId) (seen : List Obs) : Prop :=
  ∀ e newer older, seen = newer ++ .removed tx e :: older → Attempted older

theorem SentFirst.cons {o : Obs} {seen : List Obs} (h : SentFirst tx seen)
    (ho : ∀ e, o = .removed tx e → Attempted seen) : SentFirst tx (o :: seen) := by
  intro e newer older heq
  cases newer with
  | nil =>
      cases heq
      exact ho e rfl
  | cons o' newer => exact h e newer older (List.cons.inj heq).2

/-- The completion of a decided transaction is on its way or was attempted. -/
structure CompletionInv (tx : TransactionId) (t : TxState) : Prop where
  finalizing : ∀ e, t.row = some e → e.phase = .finalizing →
    ∃ sealTx, t.finalizer = some (false, .running (.finalizer (.spawned sealTx)))
  cleanup : ∀ e, t.row = some e → e.phase = .cleanupPending → ¬ Attempted t.seen →
    ∃ abort pc, t.finalizer = some (abort, .running (.finalizer pc)) ∧
      (pc.awaits = true → abort = false)
  gone : t.row = none → .admitted tx ∈ t.seen → Attempted t.seen
  order : SentFirst tx t.seen

/-- A forced abort of every task finds this transaction's finalizer past its
last await. -/
def Spared (s : Runtime) (a : Action) (t : TxState) : Prop :=
  s.abortsAll a → ∀ e, t.row = some e → e.phase = .cleanupPending ∧
    ∀ abort pc, t.finalizer = some (abort, .running (.finalizer pc)) → pc.awaits = false

theorem CompletionInv.new (tx : TransactionId) : CompletionInv tx .new := by
  constructor <;> simp [TxState.new, SentFirst]

section Step

variable {R : TransactionEndKind → TransactionEndKind → Prop}

/-- A row with a pending abort of its finalizer at an await does not exist. -/
theorem CompletionInv.not_aborted {pc : FinalizerPc} (hinv : CompletionInv tx t)
    (hslot : SlotInv tx t) (hfin : FinalizerInv R tx t)
    (h : t.finalizer = some (true, .running (.finalizer pc))) (hawaits : pc.awaits = true) :
    False := by
  cases hrow : t.row with
  | none => simp [(hslot.gone hrow).1] at h
  | some e =>
      obtain ⟨hphase, hterm, _⟩ := hfin.row e hrow
      have hdecided : e.terminal ≠ none := by
        intro hnone
        simp [(hslot.undecided (undecided_of hrow hnone)).1] at h
      obtain hq | hr | hf | hc := hphase
      · exact hdecided (hterm.mpr (.inl hq))
      · exact hdecided (hterm.mpr (.inr hr))
      · obtain ⟨_, hsp⟩ := hinv.finalizing e hrow hf
        cases h.symm.trans hsp
      · obtain ⟨abort, pc', hpc, himp⟩ := hinv.cleanup e hrow hc (hfin.unsent _ _ h)
        cases h.symm.trans hpc
        cases himp hawaits

/-- An abort that meets a finalizer at an await meets one that is kept. -/
theorem CompletionInv.kept {keep : TaskClass → Bool} {pc : FinalizerPc} {abort : Bool}
    (hslot : SlotInv tx t) (hspared : Spared s a t)
    (hspares : keep (.finalizer tx) = true ∨ .finalizer tx ∈ t.exited ∨ t.row = none ∨
      s.abortsAll a)
    (h : t.finalizer = some (abort, .running (.finalizer pc))) (hawaits : pc.awaits = true) :
    keep (.finalizer tx) = true := by
  obtain hkeep | hexit | hnone | hall := hspares
  · exact hkeep
  · simp [hslot.joinedFinalizer hexit] at h
  · simp [(hslot.gone hnone).1] at h
  · cases hrow : t.row with
    | none => simp [(hslot.gone hrow).1] at h
    | some e => simp [(hspared hall e hrow).2 _ _ h] at hawaits

theorem CompletionInv.step_finalizing (hinv : CompletionInv tx t) (hslot : SlotInv tx t)
    (hspared : Spared s a t) (h : TxMove s a tx t t') :
    ∀ e, t'.row = some e → e.phase = .finalizing →
      ∃ sealTx, t'.finalizer = some (false, .running (.finalizer (.spawned sealTx))) := by
  have hold := hinv.finalizing
  cases h with
  | aborted keep drains spares row pending finalizer =>
      intro e' he' hphase
      obtain ⟨e, he, hphase', _⟩ := row.kept e' he'
      obtain ⟨sealTx, hf⟩ := hold e he (hphase' ▸ hphase)
      have hkeep := CompletionInv.kept hslot hspared spares hf rfl
      exact ⟨sealTx, by simpa [hkeep] using finalizer.forth hf⟩
  | late e p force drains old decided =>
      have := decideRow_phase p force decided
      grind
  | _ => grind

theorem CompletionInv.step_cleanup (hinv : CompletionInv tx t) (hslot : SlotInv tx t)
    (hfin : FinalizerInv R tx t) (hspared : Spared s a t) (h : TxMove s a tx t t') :
    ∀ e, t'.row = some e → e.phase = .cleanupPending → ¬ Attempted t'.seen →
      ∃ abort pc, t'.finalizer = some (abort, .running (.finalizer pc)) ∧
        (pc.awaits = true → abort = false) := by
  have hold := hinv.cleanup
  cases h with
  | aborted keep drains spares row pending finalizer coordinator seen =>
      intro e' he' hphase hsent
      obtain ⟨e, he, hphase', _⟩ := row.kept e' he'
      obtain ⟨abort, pc, hf, himp⟩ := hold e he (hphase' ▸ hphase) (seen ▸ hsent)
      refine ⟨_, pc, finalizer.forth hf, fun hawaits => ?_⟩
      simp [himp hawaits, CompletionInv.kept hslot hspared spares hf hawaits]
  | late e p force drains old decided =>
      have := decideRow_phase p force decided
      grind
  | published snap d n abort c r j drains old kind row pending finalizer coordinator seen =>
      intro e' _ _ hsent
      refine absurd ?_ hsent
      rw [seen, if_pos (hfin.holding _ _ _ old rfl).1]
      simp [Obs.isAttempted]
  | finalizerAborted pc r drains old awaits =>
      exact (hinv.not_aborted hslot hfin old awaits).elim
  | sealed | replied | settled => grind [FinalizerPc.awaits]
  | _ => grind

theorem CompletionInv.attempted_of_removed {e : LedgerEntry} (hinv : CompletionInv tx t)
    (hfin : FinalizerInv R tx t) (hrow : t.row = some e) (hnone : t.finalizer = none)
    (hpast : e.phase = .cleanupPending ∨ e.phase = .finalizing ∨ e.terminal.isSome) :
    Attempted t.seen := by
  obtain ⟨hphase, hterm, _⟩ := hfin.row e hrow
  by_contra hsent
  have hcleanup : e.phase ≠ .cleanupPending := by
    intro hc
    obtain ⟨_, _, hf, _⟩ := hinv.cleanup e hrow hc hsent
    simp [hnone] at hf
  have hfinalizing : e.phase ≠ .finalizing := by
    intro hf
    obtain ⟨_, hsp⟩ := hinv.finalizing e hrow hf
    simp [hnone] at hsp
  obtain hc | hf | hd := hpast
  · exact hcleanup hc
  · exact hfinalizing hf
  · have hundecided : e.phase = .queued ∨ e.phase = .running := by grind
    simp [hterm.mpr hundecided] at hd

theorem CompletionInv.step (hinv : CompletionInv tx t) (hslot : SlotInv tx t)
    (hfin : FinalizerInv R tx t) (hspared : Spared s a t) (h : TxMove s a tx t t') :
    CompletionInv tx t' where
  finalizing := hinv.step_finalizing hslot hspared h
  cleanup := hinv.step_cleanup hslot hfin hspared h
  gone := by
    have hold := hinv.gone
    cases h with
    | removed e drains old noFinalizer noCoordinator past row finalizer coordinator seen =>
        intro _ _
        rw [seen, attempted_cons]
        exact .inr (hinv.attempted_of_removed hfin old noFinalizer past)
    | _ => grind
  order := by
    have hold := hinv.order
    cases h with
    | removed e drains old noFinalizer noCoordinator past row finalizer coordinator seen =>
        rw [seen]
        exact hold.cons (fun _ _ => hinv.attempted_of_removed hfin old noFinalizer past)
    | published snap d n abort c r j drains old kind row pending finalizer coordinator seen =>
        rw [seen]
        split
        · exact hold.cons (by simp)
        · exact hold
    | admitted | decided | returned => simp_all [hold.cons]
    | _ => simp_all

end Step

/-! ## Forced stops -/

/-- The finalizer of a running task is at an await point. -/
def finalizerAwaits (k : Task TaskBody) : Bool :=
  match k.cell with
  | .running (.finalizer pc) => pc.awaits
  | _ => false

/-- When `abort_all` runs, every row is past the snapshot of its finalizer, and
no finalizer is waiting for anything. -/
def Runtime.stopSpares (s : Runtime) (a : Action) : Prop :=
  s.abortsAll a = true → ∀ tx ∈ s.ledger.transactionIds, ∀ e ∈ s.ledger.get tx,
    e.phase = .cleanupPending ∧
      ∀ id ∈ s.tasks.tasksFor tx, ∀ k ∈ s.tasks.task? id, finalizerAwaits k = false

instance (s : Runtime) (a : Action) : Decidable (s.stopSpares a) :=
  inferInstanceAs (Decidable (_ → _))

theorem Runtime.stopSpares.spared (h : s.stopSpares a) (ht : Shows s tx t) : Spared s a t := by
  intro hall e he
  have hget : s.ledger.get tx = some e := ht.row.symm.trans he
  obtain ⟨hphase, hpast⟩ := h hall tx ((s.ledger.mem_transactionIds tx).mpr ⟨e, hget⟩) e hget
  refine ⟨hphase, fun abort pc hf => ?_⟩
  have hslot := ht.finalizer
  rw [hf] at hslot
  obtain ⟨id, hid, _⟩ := hslot
  obtain ⟨hk, hown⟩ := tasksOf_some.mp hid
  exact hpast id ((s.tasks.coherent.mem_tasksFor tx id).mpr ⟨_, hk, hown⟩) _ hk

theorem completionInv_reach (h : runtime.Reach Runtime.stopSpares s) (ht : Shows s tx t) :
    CompletionInv tx t := by
  refine Reach.local (.new tx) ?_ h ht
  intro s a t t' hr ha ht hinv hmove
  exact hinv.step (slotInv_reach hr ht) (finalizerInv_reach hr ht) (ha.spared ht) hmove

theorem attempted_iff {seen : List Obs} (h : ∀ o ∈ seen, o.transactionId = tx) :
    Attempted seen ↔ ∃ c r, .attempted tx c r ∈ seen := by
  constructor
  · rintro ⟨o, ho, hsent⟩
    have hown := h o ho
    cases o with
    | attempted tx' c r =>
        obtain rfl : tx' = tx := hown
        exact ⟨c, r, ho⟩
    | _ => cases hsent
  · rintro ⟨c, r, ho⟩
    exact ⟨_, ho, rfl⟩

theorem historyOf_owned {history : List Obs} : ∀ o ∈ historyOf history tx, o.transactionId = tx :=
  fun o ho => by simpa [historyOf] using (List.mem_filter.mp ho).2

/-- The order of the record of one transaction is that of the whole record. -/
theorem SentFirst.history {history newer older : List Obs} {e : LedgerEntry}
    (h : SentFirst tx (historyOf history tx)) (heq : history = newer ++ .removed tx e :: older) :
    ∃ c r, .attempted tx c r ∈ older := by
  have hsent := h e (historyOf newer tx) (historyOf older tx)
    (by simp [heq, historyOf, Obs.transactionId])
  obtain ⟨c, r, hmem⟩ := (attempted_iff historyOf_owned).mp hsent
  exact ⟨c, r, (List.mem_filter.mp hmem).1⟩

theorem attempts_first (h : runtime.Reach Runtime.stopSpares s) (tx : TransactionId) :
    (∀ e newer older, s.history = newer ++ .removed tx e :: older →
      ∃ c r, .attempted tx c r ∈ older) ∧
    (.admitted tx ∈ s.history → s.ledger.get tx = none → ∃ c r, .attempted tx c r ∈ s.history) := by
  obtain ⟨t, ht, _⟩ := exists_shows h tx
  have hinv := completionInv_reach h ht
  have hseen : t.seen = historyOf s.history tx := ht.seen
  refine ⟨fun e newer older heq => ?_, fun hadm hnone => ?_⟩
  · exact SentFirst.history (hseen ▸ hinv.order) heq
  · have hmem : .admitted tx ∈ t.seen := by
      rw [hseen]
      exact List.mem_filter.mpr ⟨hadm, by simp [Obs.transactionId]⟩
    have hsent := hinv.gone (ht.row.trans hnone) hmem
    rw [hseen] at hsent
    obtain ⟨c, r, hmem⟩ := (attempted_iff historyOf_owned).mp hsent
    exact ⟨c, r, (List.mem_filter.mp hmem).1⟩

/-- **A forced stop that spares finalizers at an await loses no completion.** In
every run in which each `abort_all` finds them past their last await, a row is
removed only after its completion was attempted. -/
theorem forced_stop_attempts_first (h : runtime.Reach Runtime.stopSpares s) :
    ∀ tx, (∀ e newer older, s.history = newer ++ .removed tx e :: older →
      ∃ c r, .attempted tx c r ∈ older) ∧
    (.admitted tx ∈ s.history → s.ledger.get tx = none → ∃ c r, .attempted tx c r ∈ s.history) :=
  attempts_first h

def Obs.isRemoved : Obs → Bool
  | .removed _ _ => true
  | _ => false

/-- The owner is dropped while the sample transaction runs: shutdown decides it,
the stop command then aborts the finalizer at its initial yield. -/
def forcedStopRun : List Action :=
  sampleStart ++ [.dropOwner] ++ supervisorRuns 3 ++ [.supervisor (.order [sampleTransaction])] ++
    supervisorRuns 3 ++ [.supervisor (.order [sampleTransaction])] ++ supervisorRuns 3 ++
    [.cancelled ⟨2⟩, .cancelled ⟨3⟩, .cancelled ⟨4⟩] ++ supervisorRuns 1 ++
    [.supervisor (.joined ⟨1⟩), .supervisor (.joined ⟨2⟩), .supervisor (.joined ⟨3⟩)] ++
    supervisorRuns 3

/-- **A forced stop can lose the completion**: the row is gone and nothing was
ever sent. -/
theorem forced_stop_loses_completion : ∃ s, runtime.Reach always s ∧
    .admitted sampleTransaction ∈ s.history ∧ (∃ e, .removed sampleTransaction e ∈ s.history) ∧
    ∀ c r, .attempted sampleTransaction c r ∉ s.history := by
  obtain ⟨s, hs, hp⟩ := System.exists_of_run sample_init forcedStopRun
    (fun s => s.history.contains (.admitted sampleTransaction) && s.history.any (fun o =>
      o.isRemoved && o.transactionId = sampleTransaction) && s.history.all (!·.isAttempted))
    (by decide +kernel)
  simp only [Bool.and_eq_true, List.contains_eq_mem, decide_eq_true_eq, List.any_eq_true,
    List.all_eq_true, Bool.not_eq_true'] at hp
  obtain ⟨⟨hadm, o, ho, hrem, htx⟩, hnone⟩ := hp
  refine ⟨s, hs, hadm, ?_, fun c r hmem => ?_⟩
  · cases o with
    | removed tx e =>
        obtain rfl : tx = sampleTransaction := htx
        exact ⟨e, ho⟩
    | _ => cases hrem
  · cases hnone _ hmem

/-- The same stop, with the finalizer already past the seal reply. -/
def sparedStopRun : List Action :=
  sampleStart ++ [.dropOwner] ++ supervisorRuns 3 ++ [.supervisor (.order [sampleTransaction])] ++
    supervisorRuns 3 ++ [.finalizer ⟨4⟩ (.resume .accepted),
      .finalizer ⟨4⟩ (.reply (some (.published, 1)))] ++
    [.supervisor (.order [sampleTransaction])] ++ supervisorRuns 3 ++
    [.finalizer ⟨4⟩ .settle, .finalizer ⟨4⟩ (.publish true), .cancelled ⟨2⟩, .cancelled ⟨3⟩] ++
    supervisorRuns 1 ++
    [.supervisor (.joined ⟨1⟩), .supervisor (.joined ⟨2⟩), .supervisor (.joined ⟨3⟩)] ++
    supervisorRuns 3

theorem spared_stop_attempts_first : ∃ s, runtime.Reach Runtime.stopSpares s ∧
    s.history.any Obs.isRemoved = true ∧
    ((∀ e newer older, s.history = newer ++ .removed sampleTransaction e :: older →
      ∃ c r, .attempted sampleTransaction c r ∈ older) ∧
    (.admitted sampleTransaction ∈ s.history → s.ledger.get sampleTransaction = none →
      ∃ c r, .attempted sampleTransaction c r ∈ s.history)) := by
  obtain ⟨s, hs, hp⟩ := System.exists_of_runWhere Runtime.stopSpares sample_init sparedStopRun
    (fun s => s.history.any Obs.isRemoved) (by decide +kernel)
  exact ⟨s, hs, hp, forced_stop_attempts_first hs sampleTransaction⟩

end Monoloop.Lifecycle
