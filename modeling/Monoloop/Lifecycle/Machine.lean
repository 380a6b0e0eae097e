import Monoloop.Lifecycle.LoopInvariant

/-!
# The machine of one transaction

A transaction has at most one finalizer and one coordinator, but the task table
only knows ids. `TxState` replaces the table of a view by two slots, one for
each of the two tasks; `TxMove` is `TxStep` read in terms of the slots. The
tasks that occupy no slot (publisher, exchanges, tools, MCP requests) disappear
into `still`.

`Reach.local` is the rule every later invariant is proved with: what holds of
the empty state and is kept by `TxMove` holds of every transaction in every
reachable state.
-/

namespace Monoloop.Lifecycle

open Mcp (CapabilityToken)
open TxView (Drains Quiet)
open Transition (System always)

variable {s s' : Runtime} {a : Action} {tx : TransactionId}

/-! ## Slots -/

/-- What is registered under a class: the abort flag and the join cell. -/
abbrev SlotState := Bool × JoinCell TaskBody

/-- The table holds exactly this under class `c`. -/
def Slot (m : TaskId → Option (Task TaskBody)) (c : TaskClass) : Option SlotState → Prop
  | none => ∀ i k, m i = some k → k.taskClass ≠ c
  | some (abort, cell) => ∃ id, m id = some ⟨c, abort, cell⟩ ∧
      ∀ i k, m i = some k → k.taskClass = c → i = id

section Slot

variable {m m' : TaskId → Option (Task TaskBody)} {c : TaskClass} {x : Option SlotState}
  {id : TaskId} {k : Task TaskBody}

theorem Slot.unique {y : Option SlotState} (hx : Slot m c x) (hy : Slot m c y) : x = y := by
  cases x with
  | none =>
      cases y with
      | none => rfl
      | some y =>
          obtain ⟨id, hid, _⟩ := hy
          exact absurd rfl (hx id _ hid)
  | some x =>
      obtain ⟨id, hid, hone⟩ := hx
      cases y with
      | none => exact absurd rfl (hy id _ hid)
      | some y =>
          obtain ⟨id', hid', _⟩ := hy
          obtain rfl := hone id' _ hid' rfl
          have hk := hid.symm.trans hid'
          simp only [Option.some.injEq, Task.mk.injEq, true_and] at hk
          exact congrArg some (Prod.ext hk.1 hk.2)

/-- A registered task of the class is what the slot holds. -/
theorem Slot.eq_some (hx : Slot m c x) (hk : m id = some k) (hc : k.taskClass = c) :
    x = some (k.abortRequested, k.cell) := by
  subst hc
  cases x with
  | none => exact absurd rfl (hx id k hk)
  | some x =>
      obtain ⟨id', hid', hone⟩ := hx
      obtain rfl := hone id k hk rfl
      rw [Option.some.inj (hk.symm.trans hid')]

theorem Slot.congr (hx : Slot m c x) (h : ∀ i, m' i = m i) : Slot m' c x := by
  rw [show m' = m from funext h]
  exact hx

/-- An update of a task of another class. -/
theorem Slot.other {y : Option (Task TaskBody)} (hx : Slot m c x)
    (hold : ∀ k, m id = some k → k.taskClass ≠ c) (hnew : ∀ k, y = some k → k.taskClass ≠ c)
    (h : ∀ i, m' i = Function.update m id y i) : Slot m' c x := by
  have hback : ∀ i k, m' i = some k → k.taskClass = c → m i = some k := by
    intro i k hk hc
    rw [h, Function.update_apply] at hk
    split at hk
    · exact absurd hc (hnew k hk)
    · exact hk
  cases x with
  | none => exact fun i k hk hc => hx i k (hback i k hk hc) hc
  | some x =>
      obtain ⟨id', hid', hone⟩ := hx
      refine ⟨id', ?_, fun i k hk hc => hone i k (hback i k hk hc) hc⟩
      rw [h, Function.update_of_ne, hid']
      rintro rfl
      exact hold _ hid' rfl

/-- A task of another class changes its cell. -/
theorem Slot.beside {c' : TaskClass} {abort abort' : Bool} {cell cell' : JoinCell TaskBody}
    (hx : Slot m c x) (hold : m id = some ⟨c', abort, cell⟩) (hne : c' ≠ c)
    (h : ∀ i, m' i = Function.update m id (some ⟨c', abort', cell'⟩) i) : Slot m' c x := by
  refine hx.other (fun k hk => ?_) (by simpa using hne) h
  cases hold.symm.trans hk
  exact hne

/-- The task in the slot changes its cell. -/
theorem Slot.set {abort abort' : Bool} {cell cell' : JoinCell TaskBody} (hx : Slot m c x)
    (hold : m id = some ⟨c, abort, cell⟩)
    (h : ∀ i, m' i = Function.update m id (some ⟨c, abort', cell'⟩) i) :
    x = some (abort, cell) ∧ Slot m' c (some (abort', cell')) := by
  obtain rfl := hx.eq_some hold rfl
  obtain ⟨id', hid', hone⟩ := hx
  obtain rfl := hone id _ hold rfl
  refine ⟨rfl, id, by simp [h], fun i k hk hc => ?_⟩
  by_cases hi : i = id
  · exact hi
  · rw [h, Function.update_of_ne hi] at hk
    exact hone i k hk hc

/-- A task enters an empty slot. -/
theorem Slot.enter {abort : Bool} {cell : JoinCell TaskBody} (hx : Slot m c none)
    (h : ∀ i, m' i = Function.update m id (some ⟨c, abort, cell⟩) i) :
    Slot m' c (some (abort, cell)) := by
  refine ⟨id, by simp [h], fun i k hk hc => ?_⟩
  by_contra hi
  rw [h, Function.update_of_ne hi] at hk
  exact hx i k hk hc

/-- The task in the slot is deregistered. -/
theorem Slot.leave (hx : Slot m c x) (hold : m id = some k) (hc : k.taskClass = c)
    (h : ∀ i, m' i = Function.update m id none i) : Slot m' c none := by
  obtain rfl := hx.eq_some hold hc
  obtain ⟨id', _, hone⟩ := hx
  obtain rfl := hone id k hold hc
  intro i k hk hc
  rw [h, Function.update_apply] at hk
  split at hk
  · cases hk
  · rename_i hi
    exact hi (hone i k hk hc)

/-- What an abort leaves in a slot. -/
def abortSlot (kept : Bool) (x : SlotState) : SlotState := (x.1 || !kept, x.2)

theorem Slot.abort {keep : TaskClass → Bool} (hx : Slot m c x)
    (h : ∀ i, m' i = (m i).map (abortUnlessKept keep)) :
    Slot m' c (x.map (abortSlot (keep c))) := by
  have hclass : ∀ k, (abortUnlessKept keep k).taskClass = k.taskClass := by
    intro k
    unfold abortUnlessKept
    split <;> rfl
  cases x with
  | none =>
      intro i k hk
      rw [h] at hk
      obtain ⟨k₀, hk₀, rfl⟩ := Option.map_eq_some_iff.mp hk
      rw [hclass]
      exact hx i k₀ hk₀
  | some x =>
      obtain ⟨id, hid, hone⟩ := hx
      refine ⟨id, ?_, fun i k hk hc => ?_⟩
      · rw [h, hid]
        cases hkeep : keep c <;> simp [abortUnlessKept, hkeep, Task.requestAbort]
      · rw [h] at hk
        obtain ⟨k₀, hk₀, rfl⟩ := Option.map_eq_some_iff.mp hk
        exact hone i k₀ hk₀ (hclass k₀ ▸ hc)

end Slot

/-! ## States -/

/-- A view with the task table reduced to its two slots. -/
structure TxState where
  row : Option LedgerEntry
  finalizer : Option SlotState
  coordinator : Option SlotState
  mail : List TerminalProposal
  exited : List TaskClass
  route : CapabilityToken → Prop
  seen : List Obs

/-- The state of a transaction nobody has submitted. -/
def TxState.new : TxState where
  row := none
  finalizer := none
  coordinator := none
  mail := []
  exited := []
  route _ := False
  seen := []

/-- `t` is what the runtime holds of `tx`. -/
structure Shows (s : Runtime) (tx : TransactionId) (t : TxState) : Prop where
  row : t.row = (view s tx).row
  finalizer : Slot (view s tx).task (.finalizer tx) t.finalizer
  coordinator : Slot (view s tx).task (.transactionCoordinator tx) t.coordinator
  mail : t.mail = (view s tx).mail
  exited : t.exited = (view s tx).exited
  route : t.route = (view s tx).route
  seen : t.seen = (view s tx).seen

theorem Shows.unique {t t' : TxState} (h : Shows s tx t) (h' : Shows s tx t') : t = t' := by
  obtain ⟨row, fin, coord, mail, exited, route, seen⟩ := t
  obtain ⟨row', fin', coord', mail', exited', route', seen'⟩ := t'
  obtain ⟨rfl, hf, hc, rfl, rfl, rfl, rfl⟩ := h
  obtain ⟨rfl, hf', hc', rfl, rfl, rfl, rfl⟩ := h'
  obtain rfl := hf.unique hf'
  obtain rfl := hc.unique hc'
  rfl

namespace TxState

/-- No terminal has been accepted. -/
def Undecided (t : TxState) (tx : TransactionId) : Prop :=
  match t.row with
  | some e => e.terminal = none
  | none => .admitted tx ∉ t.seen

/-- No coordinator has been started. -/
def Unstarted (t : TxState) (tx : TransactionId) : Prop :=
  match t.row with
  | some e => e.phase = .queued
  | none => .admitted tx ∉ t.seen

/-- Signals, reports of the two tasks and routes only went away. -/
structure Drains (tx : TransactionId) (t t' : TxState) : Prop where
  mail : t'.mail ⊆ t.mail
  finalizerExit : .finalizer tx ∈ t'.exited → .finalizer tx ∈ t.exited
  coordinatorExit : .transactionCoordinator tx ∈ t'.exited → .transactionCoordinator tx ∈ t.exited
  route : ∀ token, t'.route token → t.route token

end TxState

/-- The rows agree on the fields the completion path reads. -/
structure RowLike (r r' : Option LedgerEntry) : Prop where
  none_iff : r' = none ↔ r = none
  kept : ∀ e', r' = some e' → ∃ e, r = some e ∧ e'.phase = e.phase ∧ e'.terminal = e.terminal ∧
    e'.delivery = e.delivery ∧ e'.completionTx = e.completionTx

theorem RowLike.of_map {r r' : Option LedgerEntry} {g : LedgerEntry → LedgerEntry}
    (h : r' = r.map g) (hphase : ∀ e, (g e).phase = e.phase)
    (hterm : ∀ e, (g e).terminal = e.terminal) (hdel : ∀ e, (g e).delivery = e.delivery)
    (hcomp : ∀ e, (g e).completionTx = e.completionTx) : RowLike r r' where
  none_iff := by simp [h]
  kept e' he' := by
    obtain ⟨e, he, rfl⟩ := Option.map_eq_some_iff.mp (h ▸ he')
    exact ⟨e, he, hphase e, hterm e, hdel e, hcomp e⟩

theorem RowLike.forth {r r' : Option LedgerEntry} (h : RowLike r r') {e : LedgerEntry}
    (he : r = some e) : ∃ e', r' = some e' ∧ e'.phase = e.phase ∧ e'.terminal = e.terminal := by
  cases he' : r' with
  | none => simp [h.none_iff.mp he'] at he
  | some e' =>
      obtain ⟨e₀, he₀, hphase, hterm, _⟩ := h.kept e' he'
      obtain rfl := Option.some.inj (he.symm.trans he₀)
      exact ⟨e', rfl, hphase, hterm⟩

theorem pending_of_map {r r' : Option LedgerEntry} {g : LedgerEntry → LedgerEntry}
    (h : r' = r.map g) (hpending : ∀ e, (g e).pendingWorkerProposal = e.pendingWorkerProposal) :
    ∀ e e', r = some e → r' = some e' → e'.pendingWorkerProposal = e.pendingWorkerProposal := by
  rintro e e' rfl he'
  rw [h] at he'
  cases he'
  exact hpending e

/-- The slot after an abort that spares it when `kept`. -/
structure SlotAborts (kept : Bool) (x x' : Option SlotState) : Prop where
  none_iff : x' = none ↔ x = none
  flag : ∀ abort' cell, x' = some (abort', cell) →
    ∃ abort, x = some (abort, cell) ∧ abort' = (abort || !kept)

theorem SlotAborts.forth {kept abort : Bool} {x x' : Option SlotState} {cell : JoinCell TaskBody}
    (h : SlotAborts kept x x') (hx : x = some (abort, cell)) :
    x' = some (abort || !kept, cell) := by
  cases hx' : x' with
  | none => simp [h.none_iff.mp hx'] at hx
  | some y =>
      obtain ⟨abort', cell'⟩ := y
      obtain ⟨abort₀, h₀, rfl⟩ := h.flag _ _ hx'
      cases hx.symm.trans h₀
      rfl

theorem slotAborts_map (kept : Bool) (x : Option SlotState) :
    SlotAborts kept x (x.map (abortSlot kept)) where
  none_iff := by simp
  flag abort' cell h := by
    obtain ⟨⟨abort, cell'⟩, rfl, hx⟩ := Option.map_eq_some_iff.mp h
    simp only [abortSlot, Prod.mk.injEq] at hx
    exact ⟨abort, by rw [hx.2], hx.1.symm⟩

open Monoloop.Lifecycle.Runtime in
/-- **One step of one transaction.** -/
inductive TxMove (s : Runtime) (a : Action) (tx : TransactionId) (t t' : TxState) : Prop where
  | still (drains : t.Drains tx t') (row : t'.row = t.row) (finalizer : t'.finalizer = t.finalizer)
      (coordinator : t'.coordinator = t.coordinator) (seen : t'.seen = t.seen)
  | admitted (e : LedgerEntry) (drains : t.Drains tx t') (absent : t.row = none)
      (fresh : .admitted tx ∉ t.seen) (queued : e.phase = .queued) (undecided : e.terminal = none)
      (pending : e.pendingWorkerProposal = none) (delivery : e.delivery.isSome)
      (row : t'.row = some e) (finalizer : t'.finalizer = t.finalizer)
      (coordinator : t'.coordinator = t.coordinator) (seen : t'.seen = .admitted tx :: t.seen)
  | started (e : LedgerEntry) (d : TransactionDelivery) (params : CoordinatorParams)
      (drains : t.Drains tx t') (old : t.row = some e) (queued : e.phase = .queued)
      (delivery : e.delivery = some d) (row : t'.row = some (startRow d e))
      (finalizer : t'.finalizer = t.finalizer)
      (coordinator : t'.coordinator = some (false, .running (.coordinator params .entry)))
      (seen : t'.seen = t.seen)
  | decided (e : LedgerEntry) (p : TerminalProposal) (force : Bool) (source : TerminalSource)
      (drains : t.Drains tx t') (old : t.row = some e) (undecided : e.terminal = none)
      (worker : source = .worker → p ∈ t.mail)
      (taskExit : source = .taskExit → .transactionCoordinator tx ∈ t.exited ∧
        ∃ exit quiescing, p = recoveredProposal e exit quiescing)
      (row : t'.row = some (decideRow p force e))
      (finalizer : t'.finalizer =
        some (false, .running (.finalizer (.spawned e.publisherSealTx))))
      (coordinator : t'.coordinator = t.coordinator)
      (seen : t'.seen = .decided tx source p.kind :: t.seen)
  | late (e : LedgerEntry) (p : TerminalProposal) (force : Bool) (drains : t.Drains tx t')
      (old : t.row = some e) (decided : e.terminal.isSome)
      (forced : force = true → s.takesControl a = some (.forceTerminate tx))
      (row : t'.row = some (decideRow p force e)) (finalizer : t'.finalizer = t.finalizer)
      (coordinator : t'.coordinator = t.coordinator) (seen : t'.seen = t.seen)
  | aborted (keep : TaskClass → Bool) (drains : t.Drains tx t')
      (spares : keep (.finalizer tx) = true ∨ .finalizer tx ∈ t.exited ∨ t.row = none ∨
        s.abortsAll a)
      (row : RowLike t.row t'.row)
      (pending : ∀ e e', t.row = some e → t'.row = some e' →
        e'.pendingWorkerProposal = e.pendingWorkerProposal)
      (finalizer : SlotAborts (keep (.finalizer tx)) t.finalizer t'.finalizer)
      (coordinator : SlotAborts (keep (.transactionCoordinator tx)) t.coordinator t'.coordinator)
      (seen : t'.seen = t.seen)
  | moved (params : CoordinatorParams) (pc pc' : CoordinatorPc) (mail : t'.mail = t.mail)
      (exited : t'.exited = t.exited)
      (old : t.coordinator = some (false, .running (.coordinator params pc)))
      (awaits : pc.awaits = true) (awaits' : pc'.awaits = true)
      (keeps : ∀ token, pc.token = some token → pc'.token = some token)
      (route : ∀ token, t'.route token → t.route token ∨ pc'.token = some token)
      (row : RowLike t.row t'.row)
      (pending : ∀ e e', t.row = some e → t'.row = some e' →
        e'.pendingWorkerProposal = e.pendingWorkerProposal)
      (finalizer : t'.finalizer = t.finalizer)
      (coordinator : t'.coordinator = some (false, .running (.coordinator params pc')))
      (seen : t'.seen = t.seen)
  | returned (params : CoordinatorParams) (pc : CoordinatorPc) (p : TerminalProposal)
      (mail : t'.mail = t.mail) (exited : t'.exited = t.exited)
      (old : t.coordinator = some (false, .running (.coordinator params pc)))
      (awaits : pc.awaits = true)
      (route : ∀ token, t'.route token → t.route token ∧ pc.token ≠ some token)
      (row : t'.row = t.row) (finalizer : t'.finalizer = t.finalizer)
      (coordinator : t'.coordinator = some (false, .running (.coordinator params (.returned p))))
      (seen : t'.seen = .proposed tx p :: t.seen)
  | parked (params : CoordinatorParams) (p : TerminalProposal) (abort : Bool)
      (drains : t.Drains tx t')
      (old : t.coordinator = some (abort, .running (.coordinator params (.returned p))))
      (row : RowLike t.row t'.row)
      (pending : ∀ e', t'.row = some e' → e'.pendingWorkerProposal = some p)
      (finalizer : t'.finalizer = t.finalizer)
      (coordinator : t'.coordinator = some (abort, .running (.coordinator params (.parked p))))
      (seen : t'.seen = t.seen)
  | notified (params : CoordinatorParams) (p : TerminalProposal) (abort : Bool) (r : JoinResult)
      (mail : t'.mail ⊆ p :: t.mail) (exited : t'.exited = t.exited) (route : t'.route = t.route)
      (old : t.coordinator = some (abort, .running (.coordinator params (.parked p))))
      (row : t'.row = t.row) (finalizer : t'.finalizer = t.finalizer)
      (coordinator : t'.coordinator = some (abort, .finished r)) (seen : t'.seen = t.seen)
  | sealed (sealTx : Bool) (e : LedgerEntry) (pc : FinalizerPc) (drains : t.Drains tx t')
      (old : t.finalizer = some (false, .running (.finalizer (.spawned sealTx))))
      (oldRow : t.row = some e)
      (next : pc = .awaitingReply (snapshotOf e) ∨ ∃ d n, pc = .replied (snapshotOf e) d n)
      (row : t'.row = some (cleanupRow e))
      (finalizer : t'.finalizer = some (false, .running (.finalizer pc)))
      (coordinator : t'.coordinator = t.coordinator) (seen : t'.seen = t.seen)
  | orphaned (sealTx : Bool) (r : JoinResult) (drains : t.Drains tx t')
      (old : t.finalizer = some (false, .running (.finalizer (.spawned sealTx))))
      (absent : t.row = none) (row : t'.row = t.row)
      (finalizer : t'.finalizer = some (false, .finished r))
      (coordinator : t'.coordinator = t.coordinator) (seen : t'.seen = t.seen)
  | replied (snap : FinalizerSnapshot) (d : TerminalEventDelivery) (n : Nat)
      (drains : t.Drains tx t')
      (old : t.finalizer = some (false, .running (.finalizer (.awaitingReply snap))))
      (row : t'.row = t.row)
      (finalizer : t'.finalizer = some (false, .running (.finalizer (.replied snap d n))))
      (coordinator : t'.coordinator = t.coordinator) (seen : t'.seen = t.seen)
  | settled (id : TaskId) (snap : FinalizerSnapshot) (d : TerminalEventDelivery) (n : Nat)
      (abort : Bool) (drains : t.Drains tx t') (byFinalizer : a = .finalizer id .settle)
      (old : t.finalizer = some (abort, .running (.finalizer (.replied snap d n))))
      (rowNone : t'.row = none ↔ t.row = none)
      (row : ∀ e', t'.row = some e' → ∃ e, t.row = some e ∧ e'.phase = e.phase ∧
        e'.delivery = e.delivery ∧ e'.completionTx = e.completionTx ∧
        e'.pendingWorkerProposal = e.pendingWorkerProposal ∧
        e'.terminal = if downgradedKind d snap.kind = snap.kind then e.terminal
          else some ⟨downgradedKind d snap.kind⟩)
      (finalizer : t'.finalizer = some (abort, .running
        (.finalizer (.publishing { snap with kind := downgradedKind d snap.kind } d n))))
      (coordinator : t'.coordinator = t.coordinator) (seen : t'.seen = t.seen)
  | published (snap : FinalizerSnapshot) (d : TerminalEventDelivery) (n : Nat) (abort : Bool)
      (c : TransactionCompletion) (r : CompletionPublishResult) (j : JoinResult)
      (drains : t.Drains tx t')
      (old : t.finalizer = some (abort, .running (.finalizer (.publishing snap d n))))
      (kind : c.end.kind = snap.kind)
      (row : RowLike t.row t'.row)
      (pending : ∀ e e', t.row = some e → t'.row = some e' →
        e'.pendingWorkerProposal = e.pendingWorkerProposal)
      (finalizer : t'.finalizer = some (abort, .finished j))
      (coordinator : t'.coordinator = t.coordinator)
      (seen : t'.seen =
        if snap.completionTx.isSome then .attempted tx c r :: t.seen else t.seen)
  | finalizerAborted (pc : FinalizerPc) (r : JoinResult) (drains : t.Drains tx t')
      (old : t.finalizer = some (true, .running (.finalizer pc))) (awaits : pc.awaits = true)
      (row : t'.row = t.row) (finalizer : t'.finalizer = some (true, .finished r))
      (coordinator : t'.coordinator = t.coordinator) (seen : t'.seen = t.seen)
  | coordinatorEnded (id : TaskId) (abort : Bool) (params : CoordinatorParams)
      (pc : CoordinatorPc) (r : JoinResult) (drains : t.Drains tx t')
      (old : t.coordinator = some (abort, .running (.coordinator params pc)))
      (held : (view s tx).At id (.transactionCoordinator tx) abort (.coordinator params pc))
      (awaits : pc.awaits = true) (cause : a = .panic id ∨ a = .cancelled id)
      (row : t'.row = t.row) (finalizer : t'.finalizer = t.finalizer)
      (coordinator : t'.coordinator = some (abort, .finished r)) (seen : t'.seen = t.seen)
  | finalizerJoined (abort : Bool) (r : JoinResult) (mail : t'.mail = t.mail)
      (coordinatorExit :
        .transactionCoordinator tx ∈ t'.exited → .transactionCoordinator tx ∈ t.exited)
      (route : t'.route = t.route) (old : t.finalizer = some (abort, .finished r))
      (row : t'.row = t.row) (finalizer : t'.finalizer = none)
      (coordinator : t'.coordinator = t.coordinator) (seen : t'.seen = t.seen)
  | coordinatorJoined (abort : Bool) (r : JoinResult) (mail : t'.mail = t.mail)
      (finalizerExit : .finalizer tx ∈ t'.exited → .finalizer tx ∈ t.exited)
      (route : t'.route = t.route) (old : t.coordinator = some (abort, .finished r))
      (row : t'.row = t.row) (finalizer : t'.finalizer = t.finalizer)
      (coordinator : t'.coordinator = none) (seen : t'.seen = t.seen)
  | removed (e : LedgerEntry) (drains : t.Drains tx t') (old : t.row = some e)
      (noFinalizer : t.finalizer = none) (noCoordinator : t.coordinator = none)
      (past : e.phase = .cleanupPending ∨ e.phase = .finalizing ∨ e.terminal.isSome)
      (row : t'.row = none) (finalizer : t'.finalizer = none) (coordinator : t'.coordinator = none)
      (seen : t'.seen = .removed tx e :: t.seen)

/-! ## The slots follow the views -/

/-- What the slots keep about themselves. -/
structure SlotInv (tx : TransactionId) (t : TxState) : Prop where
  finalizer : ∀ abort body, t.finalizer = some (abort, .running body) → ∃ pc, body = .finalizer pc
  coordinator : ∀ abort body, t.coordinator = some (abort, .running body) →
    ∃ params pc, body = .coordinator params pc
  joinedFinalizer : .finalizer tx ∈ t.exited → t.finalizer = none
  joinedCoordinator : .transactionCoordinator tx ∈ t.exited → t.coordinator = none
  undecided : t.Undecided tx → t.finalizer = none ∧ .finalizer tx ∉ t.exited
  unstarted : t.Unstarted tx → t.coordinator = none ∧ .transactionCoordinator tx ∉ t.exited
  gone : t.row = none → t.finalizer = none ∧ t.coordinator = none
  queued : ∀ e, t.row = some e → e.phase = .queued → e.terminal = none
  admitted : ∀ e, t.row = some e → .admitted tx ∈ t.seen

/-- The state of `tx` in `s`, with the given slots. -/
def stateOf (s : Runtime) (tx : TransactionId) (finalizer coordinator : Option SlotState) :
    TxState where
  row := (view s tx).row
  finalizer := finalizer
  coordinator := coordinator
  mail := (view s tx).mail
  exited := (view s tx).exited
  route := (view s tx).route
  seen := (view s tx).seen

variable {f c f' c' : Option SlotState}

theorem shows_stateOf (hf : Slot (view s tx).task (.finalizer tx) f)
    (hc : Slot (view s tx).task (.transactionCoordinator tx) c) :
    Shows s tx (stateOf s tx f c) := ⟨rfl, hf, hc, rfl, rfl, rfl, rfl⟩

theorem drains_stateOf (h : (view s tx).Drains (view s' tx)) :
    (stateOf s tx f c).Drains tx (stateOf s' tx f' c') :=
  ⟨h.mail, fun hm => h.exited hm, fun hm => h.exited hm, h.route⟩

/-- Classes that occupy no slot. -/
theorem queued_class {cls : TaskClass} (h : cls.isChild = true ∨ cls = .mcpRequest tx) :
    cls ≠ .finalizer tx ∧ cls ≠ .transactionCoordinator tx := by
  cases cls <;> simp_all [TaskClass.isChild]

/-- **Every step of a view is a move of its slots.** -/
theorem TxStep.move (h : TxStep s a tx (view s tx) (view s' tx))
    (hf : Slot (view s tx).task (.finalizer tx) f)
    (hc : Slot (view s tx).task (.transactionCoordinator tx) c)
    (hinv : SlotInv tx (stateOf s tx f c)) :
    ∃ f' c', Shows s' tx (stateOf s' tx f' c') ∧
      TxMove s a tx (stateOf s tx f c) (stateOf s' tx f' c') := by
  cases h with
  | still quiet =>
      exact ⟨f, c, shows_stateOf (hf.congr quiet.task) (hc.congr quiet.task),
        .still (drains_stateOf quiet.toDrains) quiet.row rfl rfl quiet.seen⟩
  | admitted e drains accepting absent fresh queued undecided pending delivery row task seen =>
      exact ⟨f, c, shows_stateOf (hf.congr task) (hc.congr task),
        .admitted e (drains_stateOf drains) absent fresh queued undecided pending delivery row rfl
          rfl seen⟩
  | started e d pub coord params drains old queued delivery freshPub freshCoord ne row task seen =>
      -- the publisher takes neither slot, the coordinator its own, which is empty
      have hnone : c = none := by
        refine (hinv.unstarted ?_).1
        simp only [TxState.Unstarted, stateOf, old]
        exact queued
      subst hnone
      generalize hm : Function.update (view s tx).task pub
        (some ⟨.eventPublisher tx, false, .running .eventPublisher⟩) = m at task
      have hf₁ : Slot m (.finalizer tx) f :=
        hf.other (by simp [freshPub]) (by simp) (congrFun hm.symm)
      have hc₁ : Slot m (.transactionCoordinator tx) none :=
        hc.other (by simp [freshPub]) (by simp) (congrFun hm.symm)
      have hfresh : m coord = none := by rw [← hm, Function.update_of_ne ne, freshCoord]
      exact ⟨f, _, shows_stateOf (hf₁.other (by simp [hfresh]) (by simp) task) (hc₁.enter task),
        .started e d params (drains_stateOf drains) old queued delivery row rfl
          rfl seen⟩
  | decided e p force source id drains old undecided origin fresh row task seen =>
      have hnone : f = none := by
        refine (hinv.undecided ?_).1
        simp only [TxState.Undecided, stateOf, old]
        exact undecided
      subst hnone
      refine ⟨_, c, shows_stateOf (hf.enter task) (hc.other (by simp [fresh]) (by simp) task),
        .decided e p force source (drains_stateOf drains) old undecided ?_ ?_ row rfl rfl seen⟩
      · rintro rfl
        cases origin with
        | worker h => exact h
      · rintro rfl
        cases origin with
        | taskExit exit quiescing h hp => exact ⟨h, exit, quiescing, hp⟩
  | late e p force drains old decided forced row task seen =>
      exact ⟨f, c, shows_stateOf (hf.congr task) (hc.congr task),
        .late e p force (drains_stateOf drains) old decided forced row rfl rfl seen⟩
  | aborted keep cancel drains spares row task seen =>
      exact ⟨_, _, shows_stateOf (hf.abort task) (hc.abort task),
        .aborted keep (drains_stateOf drains) spares
          (.of_map row (fun _ => rfl) (fun _ => rfl) (fun _ => rfl) (fun _ => rfl))
          (pending_of_map row (fun _ => rfl)) (slotAborts_map _ _) (slotAborts_map _ _) seen⟩
  | moved id params pc pc' mail exited old awaits awaits' keeps route session row task seen =>
      obtain ⟨rfl, hc'⟩ := hc.set old task
      exact ⟨f, _, shows_stateOf (hf.beside old (by simp) task) hc',
        .moved params pc pc' mail exited rfl awaits awaits' keeps route
          (.of_map row (fun _ => rfl) (fun _ => rfl) (fun _ => rfl) (fun _ => rfl))
          (pending_of_map row (fun _ => rfl)) rfl rfl seen⟩
  | returned id params pc p mail exited old awaits route row task seen =>
      obtain ⟨rfl, hc'⟩ := hc.set old task
      exact ⟨f, _, shows_stateOf (hf.beside old (by simp) task) hc',
        .returned params pc p mail exited rfl awaits route row rfl rfl seen⟩
  | parked id params p abort drains old row task seen =>
      obtain ⟨rfl, hc'⟩ := hc.set old task
      refine ⟨f, _, shows_stateOf (hf.beside old (by simp) task) hc',
        .parked params p abort (drains_stateOf drains) rfl
          (.of_map row (fun _ => rfl) (fun _ => rfl) (fun _ => rfl) (fun _ => rfl)) ?_ rfl rfl
          seen⟩
      intro e' he'
      obtain ⟨e, _, rfl⟩ := Option.map_eq_some_iff.mp (row.symm.trans he')
      rfl
  | notified id params p abort mail exited route old row task seen =>
      obtain ⟨rfl, hc'⟩ := hc.set old task
      exact ⟨f, _, shows_stateOf (hf.beside old (by simp) task) hc',
        .notified params p abort _ mail exited route rfl row rfl rfl seen⟩
  | sealed id sealTx e pc drains old oldRow next row task seen =>
      obtain ⟨rfl, hf'⟩ := hf.set old task
      exact ⟨_, c, shows_stateOf hf' (hc.beside old (by simp) task),
        .sealed sealTx e pc (drains_stateOf drains) rfl oldRow next row rfl rfl seen⟩
  | orphaned id sealTx drains old absent row task seen =>
      obtain ⟨rfl, hf'⟩ := hf.set old task
      exact ⟨_, c, shows_stateOf hf' (hc.beside old (by simp) task),
        .orphaned sealTx _ (drains_stateOf drains) rfl absent row rfl rfl seen⟩
  | replied id snap d n drains old row task seen =>
      obtain ⟨rfl, hf'⟩ := hf.set old task
      exact ⟨_, c, shows_stateOf hf' (hc.beside old (by simp) task),
        .replied snap d n (drains_stateOf drains) rfl row rfl rfl seen⟩
  | settled id snap d n abort drains byFinalizer old row task seen =>
      obtain ⟨rfl, hf'⟩ := hf.set old task
      refine ⟨_, c, shows_stateOf hf' (hc.beside old (by simp) task),
        .settled id snap d n abort (drains_stateOf drains) byFinalizer rfl ?_ ?_ rfl rfl seen⟩
      · simp only [stateOf, row]
        split <;> simp
      · intro e' he'
        rw [show (stateOf s' tx _ c).row = _ from row] at he'
        split at he'
        · exact ⟨e', he', rfl, rfl, rfl, rfl, by rw [if_pos ‹_›]⟩
        · obtain ⟨e, he, rfl⟩ := Option.map_eq_some_iff.mp he'
          exact ⟨e, he, rfl, rfl, rfl, rfl, by rw [if_neg ‹_›]⟩
  | published id snap d n abort completion r drains old kind row task seen =>
      obtain ⟨rfl, hf'⟩ := hf.set old task
      exact ⟨_, c, shows_stateOf hf' (hc.beside old (by simp) task),
        .published snap d n abort completion r _ (drains_stateOf drains) rfl kind
          (.of_map row (fun _ => rfl) (fun _ => rfl) (fun _ => rfl) (fun _ => rfl))
          (pending_of_map row (fun _ => rfl)) rfl rfl seen⟩
  | ended id k body r drains old running finalizers coordinators row task seen =>
      obtain ⟨cls, abort, cell⟩ := k
      obtain rfl : cell = .running body := running
      by_cases hF : cls = .finalizer tx
      · subst hF
        obtain ⟨rfl, hf'⟩ := hf.set old task
        obtain ⟨pc, rfl⟩ := hinv.finalizer abort body rfl
        obtain ⟨hawaits, rfl : abort = true⟩ := finalizers pc rfl
        exact ⟨_, c, shows_stateOf hf' (hc.beside old (by simp) task),
          .finalizerAborted pc r (drains_stateOf drains) rfl hawaits row rfl rfl seen⟩
      · by_cases hC : cls = .transactionCoordinator tx
        · subst hC
          obtain ⟨rfl, hc'⟩ := hc.set old task
          obtain ⟨params, pc, rfl⟩ := hinv.coordinator abort body rfl
          obtain ⟨hawaits, hcause⟩ := coordinators params pc rfl
          exact ⟨f, _, shows_stateOf (hf.beside old (by simp) task) hc',
            .coordinatorEnded id abort params pc r (drains_stateOf drains) rfl old hawaits hcause
              row rfl rfl seen⟩
        · exact ⟨f, c, shows_stateOf (hf.beside old hF task) (hc.beside old hC task),
            .still (drains_stateOf drains) row rfl rfl seen⟩
  | joined id k r mail exited route old finished row task seen =>
      obtain ⟨cls, abort, cell⟩ := k
      obtain rfl : cell = .finished r := finished
      by_cases hF : cls = .finalizer tx
      · subst hF
        obtain rfl := hf.eq_some old rfl
        refine ⟨none, c, shows_stateOf (hf.leave old rfl task) (hc.other
          (fun k hk => by cases old.symm.trans hk; simp) (by simp) task),
          .finalizerJoined abort r mail (fun hm => ?_) route rfl row rfl rfl seen⟩
        exact (List.mem_cons.mp (exited hm)).resolve_left (by simp)
      · by_cases hC : cls = .transactionCoordinator tx
        · subst hC
          obtain rfl := hc.eq_some old rfl
          refine ⟨f, none, shows_stateOf (hf.other
            (fun k hk => by cases old.symm.trans hk; simp) (by simp) task) (hc.leave old rfl task),
            .coordinatorJoined abort r mail (fun hm => ?_) route rfl row rfl rfl seen⟩
          exact (List.mem_cons.mp (exited hm)).resolve_left (by simp)
        · refine ⟨f, c, shows_stateOf
            (hf.other (fun k hk => by cases old.symm.trans hk; exact hF) (by simp) task)
            (hc.other (fun k hk => by cases old.symm.trans hk; exact hC) (by simp) task),
            .still ⟨show (view s' tx).mail ⊆ _ from mail ▸ fun _ h => h, fun hm => ?_, fun hm => ?_,
              fun token => (congrFun route token).mp⟩ row rfl rfl seen⟩
          · exact (List.mem_cons.mp (exited hm)).resolve_left (fun h => hF h.symm)
          · exact (List.mem_cons.mp (exited hm)).resolve_left (fun h => hC h.symm)
  | removed e drains old idle past row task seen =>
      have hempty : ∀ cls, Slot (view s tx).task cls none := fun cls i k hk => by simp [idle] at hk
      obtain rfl := hf.unique (hempty _)
      obtain rfl := hc.unique (hempty _)
      exact ⟨none, none, shows_stateOf (hf.congr task) (hc.congr task),
        .removed e (drains_stateOf drains) old rfl rfl past row rfl rfl seen⟩
  | spawned id cls drains registers owned queued fresh row task seen =>
      obtain ⟨hF, hC⟩ := queued_class queued
      exact ⟨f, c, shows_stateOf (hf.other (by simp [fresh]) (by simpa using hF) task)
        (hc.other (by simp [fresh]) (by simpa using hC) task),
        .still (drains_stateOf drains) row rfl rfl seen⟩

theorem Shows.move {t : TxState} (ht : Shows s tx t) (hinv : SlotInv tx t)
    (h : TxStep s a tx (view s tx) (view s' tx)) :
    ∃ t', Shows s' tx t' ∧ TxMove s a tx t t' := by
  have heq : t = stateOf s tx t.finalizer t.coordinator :=
    ht.unique (shows_stateOf ht.finalizer ht.coordinator)
  rw [heq] at hinv ⊢
  obtain ⟨f', c', ht', hmove⟩ := h.move ht.finalizer ht.coordinator hinv
  exact ⟨_, ht', hmove⟩

theorem shows_new (config : RuntimeConfig) (tx : TransactionId) :
    Shows (Runtime.start config) tx .new := by
  have hempty : ∀ cls, Slot (view (Runtime.start config) tx).task cls none := by
    intro cls i k hk
    simp only [view, Runtime.start] at hk
    split at hk
    · rw [tasksOf_spawn, if_neg (by simp [TaskClass.transactionId])] at hk
      cases hk
    · cases hk
  refine ⟨rfl, hempty _, hempty _, rfl, rfl, ?_, rfl⟩
  funext token
  simp [TxState.new, view, Runtime.start, Mcp.McpRouteTable.owner_new]

/-! ## What the moves do to the slots -/

attribute [grind →] TxState.Drains.mail TxState.Drains.finalizerExit
  TxState.Drains.coordinatorExit RowLike.none_iff RowLike.kept RowLike.forth
  SlotAborts.none_iff SlotAborts.flag
attribute [grind] TxState.Undecided TxState.Unstarted Runtime.startRow Runtime.decideRow
  Runtime.cleanupRow

section Moves

variable {t t' : TxState}

theorem SlotInv.new (tx : TransactionId) : SlotInv tx .new := by
  constructor <;> simp [TxState.new]

/-- **The slots keep their invariant.** A slot is entered only while its task
is impossible: the finalizer's by the decision, the coordinator's by the start. -/
theorem SlotInv.step (h : TxMove s a tx t t') (hinv : SlotInv tx t) : SlotInv tx t' where
  finalizer := by
    have := hinv.finalizer
    cases h <;> grind
  coordinator := by
    have := hinv.coordinator
    cases h <;> grind
  joinedFinalizer := by
    have := hinv.joinedFinalizer
    -- no exit of an earlier finalizer is pending when one is registered
    have := hinv.undecided
    cases h <;> grind
  joinedCoordinator := by
    have := hinv.joinedCoordinator
    have := hinv.unstarted
    cases h <;> grind
  undecided := by
    have := hinv.undecided
    -- a removed row does not make its transaction undecided again
    have := hinv.admitted
    cases h <;> grind
  unstarted := by
    have := hinv.unstarted
    have := hinv.admitted
    cases h <;> grind
  gone := by
    have := hinv.gone
    cases h <;> grind
  queued := by
    have := hinv.queued
    -- a finalizer that settles belongs to a row that left the queue
    have := hinv.undecided
    cases h <;> grind
  admitted := by
    have := hinv.admitted
    cases h <;> grind

end Moves

/-! ## The rule for invariants of one transaction -/

section Reach

variable {ok : Runtime → Action → Prop} {t : TxState}

/-- In a reachable state every transaction has its slots, and its next step is
a move. -/
theorem exists_shows (h : runtime.Reach ok s) (tx : TransactionId) :
    ∃ t, Shows s tx t ∧ SlotInv tx t := by
  induction h with
  | init hi =>
      obtain ⟨config, rfl⟩ := hi
      exact ⟨.new, shows_new config tx, .new tx⟩
  | step hr _ hs ih =>
      obtain ⟨t, ht, hinv⟩ := ih
      obtain ⟨t', ht', hmove⟩ := ht.move hinv (step_view (loopInv_reach hr) hs tx)
      exact ⟨t', ht', hinv.step hmove⟩

theorem slotInv_reach (h : runtime.Reach ok s) (ht : Shows s tx t) : SlotInv tx t := by
  obtain ⟨t₀, ht₀, hinv⟩ := exists_shows h tx
  rwa [ht.unique ht₀]

theorem exists_move (h : runtime.Reach ok s) (hs : Runtime.step a s = some s') (ht : Shows s tx t) :
    ∃ t', Shows s' tx t' ∧ TxMove s a tx t t' :=
  ht.move (slotInv_reach h ht) (step_view (loopInv_reach h) hs tx)

/-- **The local rule.** An invariant of one transaction is established on
`TxMove`; earlier invariants are available through the reachability premise. -/
theorem Reach.local {I : TxState → Prop} (hnew : I .new)
    (hstep : ∀ s a t t', runtime.Reach ok s → ok s a → Shows s tx t → I t →
      TxMove s a tx t t' → I t')
    (h : runtime.Reach ok s) (ht : Shows s tx t) : I t := by
  induction h generalizing t with
  | init hi =>
      obtain ⟨config, rfl⟩ := hi
      rwa [ht.unique (shows_new config tx)]
  | step hr ha hs ih =>
      obtain ⟨t₀, ht₀, _⟩ := exists_shows hr tx
      obtain ⟨t', ht', hmove⟩ := exists_move hr hs ht₀
      rw [ht.unique ht']
      exact hstep _ _ _ _ hr ha ht₀ (ih ht₀) hmove

end Reach

end Monoloop.Lifecycle
