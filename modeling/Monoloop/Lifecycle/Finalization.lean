import Monoloop.Lifecycle.Machine

/-!
# The completion sender and the finalizer

The sender of a transaction is in its row until the finalizer takes it, and in
the finalizer's snapshot afterwards; a finalizer that is still running has not
sent. `FinalizerInv` says so for every phase of the row.

The invariant is stated for a relation `R` between the kind the finalizer will
report and the kind in the row: `Upgrades` in every run, equality in runs that
never upgrade a row behind its finalizer's back.
-/

namespace Monoloop.Lifecycle

open Transition (System always)

variable {s s' : Runtime} {a : Action} {tx : TransactionId} {t t' : TxState}

def Obs.isAttempted : Obs → Bool
  | .attempted _ _ _ => true
  | _ => false

/-- A completion send was attempted. -/
def Attempted (seen : List Obs) : Prop := ∃ o ∈ seen, o.isAttempted = true

@[simp, grind =] theorem attempted_cons (o : Obs) (seen : List Obs) :
    Attempted (o :: seen) ↔ o.isAttempted = true ∨ Attempted seen := by
  simp [Attempted]

/-- Recorded only once a terminal is accepted. -/
def Obs.afterDecision : Obs → Bool
  | .attempted _ _ _ | .decided _ _ _ | .removed _ _ => true
  | _ => false

theorem not_attempted {seen : List Obs} (h : ∀ o ∈ seen, o.afterDecision = false) :
    ¬ Attempted seen := by
  rintro ⟨o, ho, hsent⟩
  cases o <;> simp_all [Obs.isAttempted, Obs.afterDecision]
  exact absurd (h _ ho) (by simp)

theorem undecided_of {e : LedgerEntry} (hrow : t.row = some e) (hterm : e.terminal = none) :
    t.Undecided tx := by
  simpa [TxState.Undecided, hrow] using hterm

theorem undecided_of_absent (hrow : t.row = none) (hfresh : .admitted tx ∉ t.seen) :
    t.Undecided tx := by
  simpa [TxState.Undecided, hrow] using hfresh

/-- A forced upgrade may follow the snapshot. -/
def Upgrades (k k' : TransactionEndKind) : Prop :=
  k' = k ∨ k = .cancelled ∧ k' = .terminated

/-- The snapshot a finalizer holds. -/
def FinalizerPc.snapshot : FinalizerPc → Option FinalizerSnapshot
  | .spawned _ => none
  | .awaitingReply snap | .replied snap _ _ | .publishing snap _ _ => some snap

/-- What a row says about itself. -/
structure RowInv (e : LedgerEntry) : Prop where
  phase : e.phase = .queued ∨ e.phase = .running ∨ e.phase = .finalizing ∨
    e.phase = .cleanupPending
  terminal : e.terminal = none ↔ e.phase = .queued ∨ e.phase = .running
  sender : e.phase ≠ .cleanupPending → e.completionTx.isSome ∨ e.delivery.isSome

/-- The row, the finalizer and the record of one transaction. -/
structure FinalizerInv (R : TransactionEndKind → TransactionEndKind → Prop) (tx : TransactionId)
    (t : TxState) : Prop where
  row : ∀ e, t.row = some e → RowInv e
  spawned : ∀ abort sealTx, t.finalizer = some (abort, .running (.finalizer (.spawned sealTx))) →
    ∃ e, t.row = some e ∧ e.phase = .finalizing
  holding : ∀ abort pc snap, t.finalizer = some (abort, .running (.finalizer pc)) →
    pc.snapshot = some snap → snap.completionTx.isSome ∧
      ∃ e d, t.row = some e ∧ e.phase = .cleanupPending ∧ e.terminal = some d ∧ R snap.kind d.kind
  unsent : ∀ abort body, t.finalizer = some (abort, .running body) → ¬ Attempted t.seen
  undecided : t.Undecided tx → ∀ o ∈ t.seen, o.afterDecision = false
  once : t.seen.countP Obs.isAttempted ≤ 1
  reported : ∀ c r e, .attempted tx c r ∈ t.seen → t.row = some e →
    e.phase = .cleanupPending ∧ ∃ d, e.terminal = some d ∧ R c.end.kind d.kind
  removed : ∀ e, .removed tx e ∈ t.seen → t.row = none
  recorded : ∀ c r e, .attempted tx c r ∈ t.seen → .removed tx e ∈ t.seen →
    ∃ d, e.terminal = some d ∧ R c.end.kind d.kind

/-! ## Rows -/

theorem RowInv.startRow {e : LedgerEntry} (d : TransactionDelivery) (h : RowInv e)
    (hq : e.phase = .queued) : RowInv (Runtime.startRow d e) where
  phase := .inr (.inl rfl)
  terminal := by simp [Runtime.startRow, h.terminal, hq]
  sender := by simp [Runtime.startRow]

theorem RowInv.cleanupRow {e : LedgerEntry} (h : e.terminal.isSome) :
    RowInv (Runtime.cleanupRow e) where
  phase := by simp [Runtime.cleanupRow]
  terminal := by simpa [Runtime.cleanupRow] using Option.isSome_iff_ne_none.mp h
  sender := by simp [Runtime.cleanupRow]

theorem RowInv.decideRow {e : LedgerEntry} (p : TerminalProposal) (force : Bool) (h : RowInv e) :
    RowInv (Runtime.decideRow p force e) := by
  obtain ⟨hphase, hterm, hsender⟩ := h
  unfold Runtime.decideRow
  cases ht : e.terminal with
  | none => 
    constructor <;> simp_all
    grind
  | some d =>
      dsimp only
      split
      · constructor <;> simp_all 
      · constructor <;> simp_all

theorem RowInv.like {r r' : Option LedgerEntry} (hlike : RowLike r r')
    (h : ∀ e, r = some e → RowInv e) : ∀ e', r' = some e' → RowInv e' := by
  intro e' he'
  obtain ⟨e, he, hphase, hterm, hdel, hcomp⟩ := hlike.kept e' he'
  obtain ⟨h₁, h₂, h₃⟩ := h e he
  exact ⟨hphase ▸ h₁, by rw [hphase, hterm]; exact h₂, by rw [hphase, hdel, hcomp]; exact h₃⟩

/-! ## The finalizer -/

variable {R : TransactionEndKind → TransactionEndKind → Prop}

theorem FinalizerInv.new (tx : TransactionId) : FinalizerInv R tx .new := by
  constructor <;> simp [TxState.new]

theorem FinalizerInv.step_row (hinv : FinalizerInv R tx t) (h : TxMove s a tx t t') :
    ∀ e, t'.row = some e → RowInv e := by
  have hrow := hinv.row
  cases h with
  | admitted e drains absent fresh queued undecided pending delivery row =>
      rintro e' he'
      cases row.symm.trans he'
      exact ⟨.inl queued, by simp [queued, undecided], fun _ => .inr delivery⟩
  | started e d params drains old queued delivery row =>
      rintro e' he'
      cases row.symm.trans he'
      exact (hrow e old).startRow d queued
  | decided e p force source drains old undecided worker taskExit row
  | late e p force drains old decided forced row =>
      rintro e' he'
      cases row.symm.trans he'
      exact (hrow e old).decideRow p force
  | aborted keep drains spares row | moved _ _ _ _ _ _ _ _ _ _ row | parked _ _ _ _ _ row
  | published _ _ _ _ _ _ _ _ _ _ row =>
      exact RowInv.like row hrow
  | sealed sealTx e pc drains old oldRow next row =>
      rintro e' he'
      cases row.symm.trans he'
      obtain ⟨e₀, he₀, hphase⟩ := hinv.spawned _ _ old
      obtain rfl := Option.some.inj (oldRow.symm.trans he₀)
      refine .cleanupRow (Option.isSome_iff_ne_none.mpr fun hnone => ?_)
      simpa [hphase] using (hrow e he₀).terminal.mp hnone
  | settled id snap d n abort drains byFinalizer old rowNone row =>
      rintro e' he'
      obtain ⟨e, he, hphase, hdel, hcomp, _, hterm⟩ := row e' he'
      obtain ⟨_, e₀, d₀, he₀, hcleanup, hd₀, _⟩ := hinv.holding _ _ _ old rfl
      obtain rfl := Option.some.inj (he.symm.trans he₀)
      refine ⟨by simp [hphase, hcleanup], ?_, by simp [hphase, hcleanup]⟩
      rw [hterm, hphase, hcleanup]
      split <;> simp [hd₀]
  | removed _ _ _ _ _ _ row => simp [row]
  | _ => simp_all

theorem FinalizerInv.step_spawned (hinv : FinalizerInv R tx t) (h : TxMove s a tx t t') :
    ∀ abort sealTx, t'.finalizer = some (abort, .running (.finalizer (.spawned sealTx))) →
      ∃ e, t'.row = some e ∧ e.phase = .finalizing := by
  have hspawned := hinv.spawned
  have hrow := hinv.row
  cases h with
  | late e p force drains old decided =>
      have := (hrow e old).terminal
      grind
  | _ => grind

theorem FinalizerInv.step_unsent (hinv : FinalizerInv R tx t) (h : TxMove s a tx t t') :
    ∀ abort body, t'.finalizer = some (abort, .running body) → ¬ Attempted t'.seen := by
  have hunsent := hinv.unsent
  cases h with
  | decided e p force source drains old undecided =>
      have := not_attempted (hinv.undecided (undecided_of old undecided))
      grind [Obs.isAttempted]
  | _ => grind [Obs.isAttempted]

theorem FinalizerInv.step_undecided (hinv : FinalizerInv R tx t) (h : TxMove s a tx t t')
    (hslot : SlotInv tx t) : t'.Undecided tx → ∀ o ∈ t'.seen, o.afterDecision = false := by
  have hund := hinv.undecided
  have hadm := hslot.admitted
  have hfin := hslot.undecided
  cases h <;> grind [Obs.afterDecision]

theorem FinalizerInv.step_once (hinv : FinalizerInv R tx t) (h : TxMove s a tx t t') :
    t'.seen.countP Obs.isAttempted ≤ 1 := by
  have honce := hinv.once
  cases h with
  | published snap d n abort c r j drains old kind row pending finalizer coordinator seen =>
      -- the finalizer that sends is running, so nothing was sent before
      have hzero : t.seen.countP Obs.isAttempted = 0 := by
        rw [List.countP_eq_zero]
        exact fun o ho hsent => hinv.unsent _ _ old ⟨o, ho, hsent⟩
      rw [seen]
      split <;> simp [List.countP_cons, hzero, Obs.isAttempted]
  | _ => grind [Obs.isAttempted]

/-- A late decision keeps the row's terminal, or upgrades it by force. -/
theorem decideRow_late {e : LedgerEntry} {d : TerminalDecision} (p : TerminalProposal)
    (force : Bool) (h : e.terminal = some d) : (Runtime.decideRow p force e).phase = e.phase ∧
      ∃ d', (Runtime.decideRow p force e).terminal = some d' ∧
        (d' = d ∨ force = true ∧ d.kind = .cancelled ∧ d'.kind = .terminated) := by
  unfold Runtime.decideRow
  simp only [h]
  split
  · rename_i hup
    simp only [Bool.and_eq_true, decide_eq_true_eq] at hup
    exact ⟨rfl, _, rfl, .inr ⟨hup.1.1, hup.1.2, rfl⟩⟩
  · exact ⟨rfl, d, rfl, .inl rfl⟩

theorem decideRow_phase {e : LedgerEntry} (p : TerminalProposal) (force : Bool)
    (h : e.terminal.isSome) : (Runtime.decideRow p force e).phase = e.phase := by
  obtain ⟨d, hd⟩ := Option.isSome_iff_exists.mp h
  exact (decideRow_late p force hd).1

/-- `R` survives the upgrades this step makes to a row that was already
snapshot. -/
def KeepsKind (R : TransactionEndKind → TransactionEndKind → Prop) (s : Runtime) (a : Action)
    (tx : TransactionId) (t : TxState) : Prop :=
  ∀ e, t.row = some e → e.phase = .cleanupPending → e.terminal = some ⟨.cancelled⟩ →
    s.takesControl a = some (.forceTerminate tx) → ∀ k, R k .cancelled → R k .terminated

theorem KeepsKind.late {e : LedgerEntry} {d : TerminalDecision} {p : TerminalProposal} {force : Bool}
    {k : TransactionEndKind} (hkeep : KeepsKind R s a tx t) (he : t.row = some e)
    (hphase : e.phase = .cleanupPending) (hd : e.terminal = some d)
    (forced : force = true → s.takesControl a = some (.forceTerminate tx)) (hR : R k d.kind) :
    (Runtime.decideRow p force e).phase = .cleanupPending ∧
      ∃ d', (Runtime.decideRow p force e).terminal = some d' ∧ R k d'.kind := by
  obtain ⟨hphase', d', hd', hkind⟩ := decideRow_late p force hd
  refine ⟨hphase'.trans hphase, d', hd', ?_⟩
  obtain rfl | ⟨hforce, hc, ht⟩ := hkind
  · exact hR
  · have hd : e.terminal = some ⟨.cancelled⟩ := by rw [hd, ← hc]
    rw [ht]
    exact hkeep e he hphase hd (forced hforce) _ (hc ▸ hR)

theorem FinalizerInv.step_holding (hinv : FinalizerInv R tx t) (hrefl : ∀ k, R k k)
    (hkeep : KeepsKind R s a tx t) (h : TxMove s a tx t t') :
    ∀ abort pc snap, t'.finalizer = some (abort, .running (.finalizer pc)) →
      pc.snapshot = some snap → snap.completionTx.isSome ∧ ∃ e d, t'.row = some e ∧
        e.phase = .cleanupPending ∧ e.terminal = some d ∧ R snap.kind d.kind := by
  have hold := hinv.holding
  cases h with
  | started | decided | replied => grind [FinalizerPc.snapshot]
  | late e p force drains old decided forced row finalizer =>
      intro abort pc snap hf hsnap
      obtain ⟨hsome, e₀, d, he₀, hphase, hd, hR⟩ := hold abort pc snap (finalizer ▸ hf) hsnap
      obtain rfl := Option.some.inj (old.symm.trans he₀)
      obtain ⟨hphase', d', hd', hR'⟩ := hkeep.late (p := p) old hphase hd forced hR
      exact ⟨hsome, _, d', row, hphase', hd', hR'⟩
  | sealed sealTx e pc drains old oldRow next row finalizer =>
      -- the snapshot takes the sender and the kind off the row
      intro abort pc' snap hf hsnap
      obtain ⟨e₀, he₀, hphase⟩ := hinv.spawned _ _ old
      obtain rfl := Option.some.inj (oldRow.symm.trans he₀)
      obtain ⟨_, hterm, hsender⟩ := hinv.row e oldRow
      obtain ⟨d, hd⟩ : ∃ d, e.terminal = some d := by
        refine Option.ne_none_iff_exists'.mp fun hnone => ?_
        simpa [hphase] using hterm.mp hnone
      have hpc : pc' = pc := by
        simp only [finalizer, Option.some.injEq, Prod.mk.injEq, JoinCell.running.injEq,
          TaskBody.finalizer.injEq] at hf
        exact hf.2.symm
      have hsnap : snap = Runtime.snapshotOf e := by
        subst hpc
        obtain rfl | ⟨_, _, rfl⟩ := next <;> exact (Option.some.inj hsnap).symm
      subst hsnap
      refine ⟨?_, _, d, row, rfl, hd, ?_⟩
      · have := hsender (by simp [hphase])
        simp only [Runtime.snapshotOf]
        cases hct : e.completionTx <;> simp_all
      · simp [Runtime.snapshotOf, hd, hrefl]
  | settled id snap d n abort drains byFinalizer old rowNone row finalizer =>
      intro abort' pc' snap' hf hsnap
      obtain ⟨hsome, e, d₀, he, hphase, hd, hR⟩ := hold _ _ _ old rfl
      cases finalizer.symm.trans hf
      cases hsnap
      cases he' : t'.row with
      | none => simp [rowNone.mp he'] at he
      | some e' =>
          obtain ⟨e₁, he₁, hphase', _, _, _, hterm⟩ := row e' he'
          obtain rfl := Option.some.inj (he.symm.trans he₁)
          refine ⟨hsome, e', ?_⟩
          by_cases hkind : Runtime.downgradedKind d snap.kind = snap.kind
          · exact ⟨d₀, rfl, hphase'.trans hphase, by rw [hterm, if_pos hkind, hd],
              by rwa [hkind]⟩
          · exact ⟨_, rfl, hphase'.trans hphase, by rw [hterm, if_neg hkind], hrefl _⟩
  | _ => grind

theorem FinalizerInv.step_reported (hinv : FinalizerInv R tx t)
    (hkeep : KeepsKind R s a tx t) (h : TxMove s a tx t t') :
    ∀ c r e, .attempted tx c r ∈ t'.seen → t'.row = some e →
      e.phase = .cleanupPending ∧ ∃ d, e.terminal = some d ∧ R c.end.kind d.kind := by
  have hold := hinv.reported
  cases h with
  | admitted e drains absent fresh =>
      have := hinv.undecided (undecided_of_absent absent fresh)
      grind [Obs.afterDecision]
  | late e p force drains old decided forced row finalizer coordinator seen =>
      intro c r e' hsent he'
      cases row.symm.trans he'
      obtain ⟨hphase, d, hd, hR⟩ := hold c r e (seen ▸ hsent) old
      exact hkeep.late old hphase hd forced hR
  | settled id snap d n abort drains byFinalizer old =>
      have := hinv.unsent _ _ old
      grind [Attempted, Obs.isAttempted]
  | published snap d n abort c r j drains old kind row pending finalizer coordinator seen =>
      intro c' r' e' hsent he'
      obtain ⟨hsome, e, dec, he, hphase, hd, hR⟩ := hinv.holding _ _ _ old rfl
      obtain ⟨e₀, he₀, hphase', hterm, _⟩ := row.kept e' he'
      obtain rfl := Option.some.inj (he.symm.trans he₀)
      have hc : c' = c := by
        rw [seen, if_pos hsome] at hsent
        obtain heq | hmem := List.mem_cons.mp hsent
        · cases heq
          rfl
        · exact absurd ⟨_, hmem, rfl⟩ (hinv.unsent _ _ old)
      exact ⟨hphase'.trans hphase, dec, hterm.trans hd, by rwa [hc, kind]⟩
  | _ => grind

theorem FinalizerInv.step_removed (hinv : FinalizerInv R tx t) (h : TxMove s a tx t t') :
    ∀ e, .removed tx e ∈ t'.seen → t'.row = none := by
  have hold := hinv.removed
  cases h with
  | admitted e drains absent fresh =>
      have := hinv.undecided (undecided_of_absent absent fresh)
      grind [Obs.afterDecision]
  | _ => grind

theorem FinalizerInv.step_recorded (hinv : FinalizerInv R tx t) (h : TxMove s a tx t t') :
    ∀ c r e, .attempted tx c r ∈ t'.seen → .removed tx e ∈ t'.seen →
      ∃ d, e.terminal = some d ∧ R c.end.kind d.kind := by
  have hold := hinv.recorded
  have hgone := hinv.removed
  cases h with
  | removed e drains old =>
      have := hinv.reported
      grind
  | published snap d n abort c r j drains old =>
      -- a finalizer still has its row, so nothing was removed yet
      obtain ⟨_, e, _, he, _⟩ := hinv.holding _ _ _ old rfl
      grind
  | _ => grind

/-- **The finalizer invariant is kept.** -/
theorem FinalizerInv.step (hrefl : ∀ k, R k k) (hkeep : KeepsKind R s a tx t)
    (hslot : SlotInv tx t) (hinv : FinalizerInv R tx t) (h : TxMove s a tx t t') :
    FinalizerInv R tx t' where
  row := hinv.step_row h
  spawned := hinv.step_spawned h
  holding := hinv.step_holding hrefl hkeep h
  unsent := hinv.step_unsent h
  undecided := hinv.step_undecided h hslot
  once := hinv.step_once h
  reported := hinv.step_reported hkeep h
  removed := hinv.step_removed h
  recorded := hinv.step_recorded h

/-- In runs that keep `R` across upgrades, it relates every report to its row. -/
theorem finalizerInv_of {ok : Runtime → Action → Prop} (hrefl : ∀ k, R k k)
    (hkeep : ∀ s a t, ok s a → Shows s tx t → KeepsKind R s a tx t)
    (h : runtime.Reach ok s) (ht : Shows s tx t) : FinalizerInv R tx t := by
  refine Reach.local (.new tx) ?_ h ht
  intro s a t t' hr ha ht hinv hmove
  exact hinv.step hrefl (hkeep s a t ha ht) (slotInv_reach hr ht) hmove

/-- **The finalizer invariant holds in every reachable state**, up to forced
upgrades. -/
theorem finalizerInv_reach {ok : Runtime → Action → Prop} (h : runtime.Reach ok s)
    (ht : Shows s tx t) : FinalizerInv Upgrades tx t := by
  refine finalizerInv_of (fun _ => .inl rfl) ?_ h ht
  rintro s a t _ _ e _ _ _ _ k (hk | ⟨_, hk⟩)
  · exact .inr ⟨hk.symm, rfl⟩
  · cases hk

end Monoloop.Lifecycle
