import Monoloop.Lifecycle.Finalization

/-!
# Terminal precedence

The supervisor decides a transaction once. Afterwards its row changes kind in
two ways only: `ForceTerminate` turns `Cancelled` into `Terminated`, and the
finalizer turns a success whose terminal event was not delivered into
`EventDeliveryFailed`. The completion reports the kind of the finalizer's
snapshot, so an upgrade that comes after the snapshot is not in it.
-/

namespace Monoloop.Lifecycle

open Transition (System always)

variable {s s' : Runtime} {a : Action} {tx : TransactionId} {t t' : TxState}

/-! ## A decided row -/

/-- How a step may change a decided kind, and what kind of step it is then. -/
inductive Revises (s : Runtime) (a : Action) (tx : TransactionId) :
    TransactionEndKind → TransactionEndKind → Prop where
  | same (k : TransactionEndKind) : Revises s a tx k k
  | forced (command : s.takesControl a = some (.forceTerminate tx)) :
      Revises s a tx .cancelled .terminated
  | downgraded (id : TaskId) (settles : a = .finalizer id .settle) (k : TransactionEndKind)
      (success : k = .completed ∨ k = .continuationRequired) :
      Revises s a tx k .eventDeliveryFailed

/-- The downgrade of the finalizer applies to successes only. -/
theorem downgradedKind_ne {d : TerminalEventDelivery} {k : TransactionEndKind}
    (h : Runtime.downgradedKind d k ≠ k) :
    Runtime.downgradedKind d k = .eventDeliveryFailed ∧
      (k = .completed ∨ k = .continuationRequired) := by
  unfold Runtime.downgradedKind at h ⊢
  split
  · rename_i hcond
    exact ⟨rfl, hcond.2⟩
  · rename_i hcond
    exact absurd (if_neg hcond) h

theorem TxMove.revises {e e' : LedgerEntry} {d : TerminalDecision}
    (hfin : FinalizerInv Upgrades tx t) (h : TxMove s a tx t t') (he : t.row = some e)
    (hd : e.terminal = some d) (he' : t'.row = some e') :
    ∃ d', e'.terminal = some d' ∧ Revises s a tx d.kind d'.kind := by
  -- every move that leaves the terminal alone ends the same way
  have hsame : e'.terminal = e.terminal → ∃ d', e'.terminal = some d' ∧
      Revises s a tx d.kind d'.kind := fun heq => ⟨d, heq.trans hd, .same _⟩
  cases h with
  | admitted e₀ drains absent =>
      rw [absent] at he
      cases he
  | started e₀ d₀ params drains old queued delivery row =>
      -- a queued row is undecided
      cases old.symm.trans he
      have := (hfin.row e he).terminal.mpr (.inl queued)
      rw [this] at hd
      cases hd
  | decided e₀ p force source drains old undecided =>
      cases old.symm.trans he
      rw [undecided] at hd
      cases hd
  | late e₀ p force drains old decided forced row =>
      cases old.symm.trans he
      cases row.symm.trans he'
      obtain ⟨_, d', hd', hkind⟩ := decideRow_late p force hd
      refine ⟨d', hd', ?_⟩
      rcases hkind with heq | ⟨hforce, hold, hnew⟩
      · rw [heq]
        exact .same _
      · rw [hold, hnew]
        exact .forced (forced hforce)
  | settled id snap dl n abort drains byFinalizer old rowNone row =>
      obtain ⟨e₀, he₀, _, _, _, _, hterm⟩ := row e' he'
      cases he.symm.trans he₀
      by_cases hk : Runtime.downgradedKind dl snap.kind = snap.kind
      · rw [if_pos hk] at hterm
        exact hsame hterm
      · rw [if_neg hk] at hterm
        obtain ⟨hfailed, hsuccess⟩ := downgradedKind_ne hk
        obtain ⟨_, e₁, d₁, he₁, _, hd₁, hup⟩ := hfin.holding _ _ _ old rfl
        cases he.symm.trans he₁
        cases hd.symm.trans hd₁
        -- a success in the snapshot is the row's own kind, no upgrade touches it
        have hkind : d.kind = snap.kind := by
          rcases hup with heq | ⟨hc, _⟩
          · exact heq
          · rcases hsuccess with hs | hs <;> simp [hs] at hc
        refine ⟨_, hterm, ?_⟩
        rw [hfailed, hkind]
        exact .downgraded id byFinalizer _ hsuccess
  | sealed sealTx e₀ pc drains old oldRow next row =>
      cases oldRow.symm.trans he
      cases row.symm.trans he'
      exact hsame rfl
  | removed e₀ drains old noFinalizer noCoordinator past row =>
      rw [row] at he'
      cases he'
  | aborted _ _ _ row | moved _ _ _ _ _ _ _ _ _ _ row | parked _ _ _ _ _ row
  | published _ _ _ _ _ _ _ _ _ _ row =>
      obtain ⟨e₀, he₀, _, hterm, _⟩ := row.kept e' he'
      cases he.symm.trans he₀
      exact hsame hterm
  | _ =>
      have heq : e' = e := by simp_all
      exact hsame (by rw [heq])

/-- **A decided terminal is final**, but for a forced upgrade of `Cancelled` and
the finalizer's downgrade of an undelivered success. Nothing makes a row
undecided again. -/
theorem terminal_kind_final {e e' : LedgerEntry} {d : TerminalDecision}
    (h : runtime.Reach always s) (hs : Runtime.step a s = some s')
    (he : s.ledger.get tx = some e) (hd : e.terminal = some d)
    (he' : s'.ledger.get tx = some e') :
    ∃ d', e'.terminal = some d' ∧ Revises s a tx d.kind d'.kind := by
  obtain ⟨t, ht, _⟩ := exists_shows h tx
  obtain ⟨t', ht', hmove⟩ := exists_move h hs ht
  exact hmove.revises (finalizerInv_reach h ht) (ht.row.trans he) hd (ht'.row.trans he')

/-- The sample transaction is cancelled; its finalizer is task 4. -/
def cancelRun : List Action :=
  sampleStart ++ [.terminate (.transaction sampleTransaction) .cancel] ++ supervisorRuns 3

/-- The host asks for forced termination as well. -/
def forceRequest : Action := .terminate (.transaction sampleTransaction) .forceTerminate

theorem forced_upgrade_revises : ∃ s s' e e', runtime.Reach always s ∧
    Runtime.step (.supervisor .next) s = some s' ∧ s.ledger.get sampleTransaction = some e ∧
    s'.ledger.get sampleTransaction = some e' ∧ e'.terminal = some ⟨.terminated⟩ ∧
    ∃ d', e'.terminal = some d' ∧
      Revises s (.supervisor .next) sampleTransaction .cancelled d'.kind := by
  obtain ⟨s, hs, hp⟩ := System.exists_of_run sample_init (cancelRun ++ [forceRequest])
    (fun s => (s.ledger.get sampleTransaction).any (·.terminal = some ⟨.cancelled⟩) &&
      (Runtime.step (.supervisor .next) s).any fun s' =>
        (s'.ledger.get sampleTransaction).any (·.terminal = some ⟨.terminated⟩))
    (by decide +kernel)
  simp only [Bool.and_eq_true, Option.any_eq_true, decide_eq_true_eq] at hp
  obtain ⟨⟨e, he, hd⟩, s', hstep, e', he', hd'⟩ := hp
  exact ⟨s, s', e, e', hs, hstep, he, he', hd', terminal_kind_final hs hstep he hd he'⟩

/-! ## The completion's kind -/

/-- A forced upgrade of a cancelled row comes before the finalizer's snapshot. -/
def Runtime.upgradesEarly (s : Runtime) (a : Action) : Prop :=
  match s.takesControl a with
  | some (.forceTerminate tx) =>
      ∀ e ∈ s.ledger.get tx, e.terminal = some ⟨.cancelled⟩ → e.phase = .finalizing
  | _ => True

instance (s : Runtime) (a : Action) : Decidable (s.upgradesEarly a) :=
  match h : s.takesControl a with
  | some (.forceTerminate tx) =>
      decidable_of_iff (∀ e ∈ s.ledger.get tx, e.terminal = some ⟨.cancelled⟩ →
        e.phase = .finalizing) (by simp [Runtime.upgradesEarly, h])
  | some (.cancel _) | some .beginShutdown | some .stopSupervisor | none =>
      .isTrue (by simp [Runtime.upgradesEarly, h])

theorem Runtime.upgradesEarly.keepsKind (h : s.upgradesEarly a) (ht : Shows s tx t) :
    KeepsKind Eq s a tx t := by
  intro e he hphase hcancelled htake
  rw [Runtime.upgradesEarly, htake] at h
  have hearly := h e (ht.row.symm.trans he) hcancelled
  rw [hphase] at hearly
  cases hearly

/-- **The completion says what the row says at its removal**, in every run whose
forced upgrades of cancelled rows all come before the finalizer's snapshot. -/
theorem completion_kind_recorded (h : runtime.Reach Runtime.upgradesEarly s) :
    ∀ tx c r e, .attempted tx c r ∈ s.history → .removed tx e ∈ s.history →
      e.terminal = some ⟨c.end.kind⟩ := by
  intro tx c r e hsent hremoved
  obtain ⟨t, ht, _⟩ := exists_shows h tx
  have hinv : FinalizerInv Eq tx t :=
    finalizerInv_of (fun _ => rfl) (fun _ _ _ ha ht => ha.keepsKind ht) h ht
  have hseen : ∀ o ∈ s.history, o.transactionId = tx → o ∈ t.seen := by
    intro o ho hown
    rw [show t.seen = historyOf s.history tx from ht.seen]
    exact List.mem_filter.mpr ⟨ho, by simpa using hown⟩
  obtain ⟨d, hd, hkind⟩ := hinv.recorded c r e (hseen _ hsent rfl) (hseen _ hremoved rfl)
  rw [hd, hkind]

/-- The rest of the run: the finalizer publishes, the other tasks return, and
the supervisor sweeps the row. -/
def finishRun : List Action :=
  [.finalizer ⟨4⟩ (.reply (some (.published, 1))), .finalizer ⟨4⟩ .settle,
    .finalizer ⟨4⟩ (.publish true), .complete ⟨2⟩, .coordinator ⟨3⟩ (.begin none false),
    .coordinator ⟨3⟩ .park, .coordinator ⟨3⟩ .notify] ++ supervisorRuns 1 ++
    [.supervisor (.joined ⟨1⟩), .supervisor (.joined ⟨2⟩), .supervisor (.joined ⟨3⟩)] ++
    supervisorRuns 7

def Obs.reports (kind : TransactionEndKind) : Obs → Bool
  | .attempted tx c _ => tx = sampleTransaction && c.end.kind = kind
  | _ => false

def Obs.records (kind : TransactionEndKind) : Obs → Bool
  | .removed tx e => tx = sampleTransaction && e.terminal = some ⟨kind⟩
  | _ => false

theorem reports_records {kind kind' : TransactionEndKind} {history : List Obs}
    (h : (history.any (Obs.reports kind) && history.any (Obs.records kind')) = true) :
    ∃ c r e, .attempted sampleTransaction c r ∈ history ∧
      .removed sampleTransaction e ∈ history ∧ c.end.kind = kind ∧
      e.terminal = some ⟨kind'⟩ := by
  simp only [Bool.and_eq_true, List.any_eq_true] at h
  obtain ⟨⟨o, ho, hreports⟩, o', ho', hrecords⟩ := h
  cases o with
  | attempted tx c r =>
      cases o' with
      | removed tx' e =>
          simp only [Obs.reports, Obs.records, Bool.and_eq_true, decide_eq_true_eq] at hreports hrecords
          obtain ⟨rfl, hk⟩ := hreports
          obtain ⟨rfl, hk'⟩ := hrecords
          exact ⟨c, r, e, ho, ho', hk, hk'⟩
      | _ => cases hrecords
  | _ => cases hreports

/-- **A forced upgrade can be lost from the completion**: it is accepted while
the finalizer waits for the seal reply. -/
theorem forced_upgrade_lost : ∃ s, runtime.Reach always s ∧ ∃ c r e,
    .attempted sampleTransaction c r ∈ s.history ∧ .removed sampleTransaction e ∈ s.history ∧
    c.end.kind = .cancelled ∧ e.terminal = some ⟨.terminated⟩ := by
  obtain ⟨s, hs, hp⟩ := System.exists_of_run sample_init
    (cancelRun ++ [.finalizer ⟨4⟩ (.resume .accepted), forceRequest] ++ supervisorRuns 1 ++
      finishRun)
    (fun s => s.history.any (Obs.reports .cancelled) && s.history.any (Obs.records .terminated))
    (by decide +kernel)
  exact ⟨s, hs, reports_records hp⟩

theorem early_upgrade_recorded : ∃ s, runtime.Reach Runtime.upgradesEarly s ∧ ∃ c r e,
    .attempted sampleTransaction c r ∈ s.history ∧ .removed sampleTransaction e ∈ s.history ∧
    c.end.kind = .terminated ∧ e.terminal = some ⟨c.end.kind⟩ := by
  obtain ⟨s, hs, hp⟩ := System.exists_of_runWhere Runtime.upgradesEarly sample_init
    (cancelRun ++ [forceRequest] ++ supervisorRuns 1 ++ [.finalizer ⟨4⟩ (.resume .accepted)] ++
      finishRun)
    (fun s => s.history.any (Obs.reports .terminated) && s.history.any (Obs.records .terminated))
    (by decide +kernel)
  obtain ⟨c, r, e, hsent, hremoved, hkind, _⟩ := reports_records hp
  exact ⟨s, hs, c, r, e, hsent, hremoved, hkind,
    completion_kind_recorded hs sampleTransaction c r e hsent hremoved⟩

end Monoloop.Lifecycle
