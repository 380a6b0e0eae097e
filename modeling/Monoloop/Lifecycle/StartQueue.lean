import Monoloop.Lifecycle.Reservations

/-!
# The start queue

The start queue is as long as there may be active transactions, so that the
holder of a reservation always finds room for its start command. That rests on
every queued command being backed by a row that still owns its reservation.
Cancelling a queued transaction leaves its command in the queue, and its
finalizer may be done before the supervisor takes the command: the row goes, the
reservation is free for another admission, and the stale command keeps the slot.

Runs that remove no row while its start command is queued keep the queue within
the held reservations.
-/

namespace Monoloop.Lifecycle

open Transition (System always)

variable {s s' : Runtime} {a : Action} {tx : TransactionId}

/-- The row of `tx` owns a reservation. -/
def LifecycleLedger.reserves (l : LifecycleLedger) (tx : TransactionId) : Bool :=
  (l.get tx).any (·.reservations)

theorem reserves_holdings (l : LifecycleLedger) (tx : TransactionId) :
    l.reserves tx = (l.holdings tx).any (·.2.1) := by
  unfold LifecycleLedger.reserves LifecycleLedger.holdings
  cases l.get tx <;> rfl

/-- Every queued start command is backed by a row with its reservation. -/
structure StartsBacked (s : Runtime) : Prop where
  nodup : s.startQueue.Nodup
  backed : ∀ tx ∈ s.startQueue, s.ledger.reserves tx = true

/-- The step removes no row whose start command is still queued. -/
def Runtime.removesStarted (s : Runtime) (a : Action) : Prop :=
  ∀ tx ∈ s.removing a, tx ∉ s.startQueue

instance (s : Runtime) (a : Action) : Decidable (s.removesStarted a) :=
  inferInstanceAs (Decidable (∀ tx ∈ s.removing a, _))

theorem StartsBacked.congr (h : StartsBacked s) (hqueue : s'.startQueue.Sublist s.startQueue)
    (hrows : ∀ tx ∈ s'.startQueue, s'.ledger.reserves tx = s.ledger.reserves tx) :
    StartsBacked s' where
  nodup := h.nodup.sublist hqueue
  backed tx htx := by
    rw [hrows tx htx]
    exact h.backed tx (hqueue.subset htx)

theorem StartsBacked.step (h : StartsBacked s) (hok : s.removesStarted a)
    (hs : HeldStep s s' a) : StartsBacked s' := by
  -- a step that keeps the rows' holdings and at most shortens the queue
  have hof : ∀ {u : Runtime}, s'.held = u.held → StartsBacked u → StartsBacked s' := by
    intro u hu hback
    have hqueue : s'.startQueue = u.startQueue := congrArg Held.startQueue hu
    have hrows : s'.ledger.holdings = u.ledger.holdings := congrArg Held.rows hu
    refine hback.congr (hqueue ▸ List.Sublist.refl _) (fun tx _ => ?_)
    rw [reserves_holdings, hrows, ← reserves_holdings]
  cases hs with
  | keeps hs => exact hof hs h
  | quiesced state _ hs => exact hof (u := { s with state }) hs ⟨h.nodup, h.backed⟩
  | started tx rest hqueue hs =>
      have hsub : rest.Sublist s.startQueue := hqueue ▸ List.sublist_cons_self tx rest
      refine hof (u := { s with startQueue := rest }) hs (h.congr hsub (fun _ _ => rfl))
  | bound tx key ledger hbind hs =>
      refine hof hs (h.congr (List.Sublist.refl _) (fun tx' _ => ?_))
      obtain ⟨f, hget⟩ := LifecycleLedger.get_bindSession hbind
      show (ledger.get tx').any _ = (s.ledger.get tx').any _
      rw [hget]
      split
      · cases s.ledger.get tx' <;> rfl
      · rfl
  | reserved request deadline pool _ _ _ hs =>
      subst hs
      exact ⟨h.nodup, h.backed⟩
  | refused n tx p e _ _ _ hs =>
      subst hs
      exact ⟨h.nodup, h.backed⟩
  | admitted n tx p _ _ _ hlocked =>
      obtain ⟨_, ledger, hins, rfl⟩ := admitLocked_inserts hlocked
      obtain ⟨hfresh, hget⟩ := LifecycleLedger.get_insertQueued hins
      -- a row that did not exist cannot have been queued before
      have hnew : tx ∉ s.startQueue := by
        intro hmem
        have hback := h.backed tx hmem
        rw [LifecycleLedger.reserves, show s.ledger.get tx = none from hfresh] at hback
        cases hback
      refine ⟨?_, fun tx' htx' => ?_⟩
      · show (s.startQueue ++ [tx]).Nodup
        rw [List.nodup_append]
        refine ⟨h.nodup, List.nodup_singleton tx, ?_⟩
        intro x hx y hy
        rw [List.mem_singleton.mp hy]
        exact fun heq => hnew (heq ▸ hx)
      · show (ledger.get tx').any _ = true
        rw [hget]
        split
        · rfl
        · rename_i hne
          rcases List.mem_append.mp htx' with hold | hlast
          · exact h.backed tx' hold
          · exact absurd (List.mem_singleton.mp hlast) hne
  | removed tx e hrow hremoving hs =>
      have hqueue : s'.startQueue = s.startQueue := congrArg Held.startQueue hs
      have hrows : s'.ledger.holdings = (s.ledger.remove tx).1.holdings := congrArg Held.rows hs
      refine h.congr (hqueue ▸ List.Sublist.refl _) (fun tx' htx' => ?_)
      have hne : tx' ≠ tx := by
        intro heq
        exact hok tx hremoving (heq ▸ hqueue ▸ htx')
      rw [reserves_holdings, hrows, ← reserves_holdings]
      show ((s.ledger.remove tx).1.get tx').any _ = _
      rw [LifecycleLedger.get_remove, if_neg hne]
      rfl

theorem startsBacked_reach (h : runtime.Reach Runtime.removesStarted s) : StartsBacked s := by
  refine h.invariant ?_ ?_
  · rintro s ⟨config, rfl⟩
    exact ⟨List.nodup_nil, fun tx htx => by cases htx⟩
  · intro s a s' _ hi hok hstep
    exact hi.step hok (step_held hstep)

/-- Queued commands and pending admissions hold reservations of their own. -/
theorem StartsBacked.length_le (h : StartsBacked s) :
    s.startQueue.length + s.admitting.length ≤ s.holders (fun _ => true) := by
  have hrows : s.startQueue.length ≤ s.ledger.reservedOn (fun _ => true) := by
    apply HashMap.length_le_countWhere h.nodup
    intro tx htx
    simpa [LifecycleLedger.reserves, LifecycleLedger.get] using h.backed tx htx
  simp only [Runtime.holders, List.countP_true]
  omega

/-- What the sizing of the start queue is for. -/
structure StartsFit (s : Runtime) : Prop where
  /-- No more start commands are queued than reservations are held. -/
  held : s.startQueue.length ≤ s.holders (fun _ => true)
  /-- Whoever holds a reservation and waits for the lock finds room. -/
  room : s.config.startCapacity = s.config.maxActiveTransactions →
    ∀ (n : Nat) p, s.admitting[n]? = some p → s.startQueue.length < s.config.startCapacity
  /-- So it is not refused for the queue while the queue is open. -/
  accepted : s.config.startCapacity = s.config.maxActiveTransactions →
    ∀ (n : Nat) p tx e, s.admitting[n]? = some p → s.receiversOpen = true →
      { s with admitting := s.admitting.eraseIdx n }.admitLocked p tx = .error e →
      e.kind ≠ .spawnFailed

/-- **The start queue never refuses a reservation**, in every run that removes
no row while its start command is queued. -/
theorem starts_fit (h : runtime.Reach Runtime.removesStarted s) : StartsFit s := by
  have hback := startsBacked_reach h
  have hacc := accounted_reach h
  have hlength := hback.length_le
  have hroom : s.config.startCapacity = s.config.maxActiveTransactions →
      ∀ (n : Nat) p, s.admitting[n]? = some p →
        s.startQueue.length < s.config.startCapacity := by
    intro hsize n p hp
    have hpending : n < s.admitting.length := (List.getElem?_eq_some_iff.mp hp).1
    have hwithin := hacc.within
    rw [hacc.global] at hwithin
    omega
  refine ⟨by omega, hroom, ?_⟩
  intro hsize n p tx e hp hopen hlocked hkind
  have hfits := hroom hsize n p hp
  unfold Runtime.admitLocked at hlocked
  dsimp only at hlocked
  split at hlocked
  · cases hlocked
    cases hkind
  · split at hlocked
    · cases hlocked
      cases hkind
    · split at hlocked
      · rename_i e' _
        cases hlocked
        cases e' <;> cases hkind
      · split at hlocked
        · cases hlocked
        · rename_i hfull
          apply hfull
          simp only [Bool.and_eq_true, decide_eq_true_eq]
          exact ⟨hopen, hfits⟩

/-- One start command is queued while another admission waits for the lock. -/
theorem queued_start_fits : ∃ s, runtime.Reach Runtime.removesStarted s ∧
    s.startQueue = [sampleTransaction] ∧ s.admitting.length = 1 ∧ StartsFit s := by
  obtain ⟨s, hs, hp⟩ := System.exists_of_runWhere Runtime.removesStarted sample_init
    [.reserve sampleRequest, .install 0 sampleTransaction, .reserve sampleRequest]
    (fun s => s.startQueue = [sampleTransaction] && s.admitting.length = 1) (by decide +kernel)
  simp only [Bool.and_eq_true, decide_eq_true_eq] at hp
  exact ⟨s, hs, hp.1, hp.2, starts_fit hs⟩

/-- The sample deployment with room for one transaction. -/
def oneSlotConfig : RuntimeConfig := { sampleConfig with maxActiveTransactions := 1 }

/-- A queued transaction is cancelled, finalized and removed within one lap: its
start command is still in the queue. -/
def staleStartRun : List Action :=
  [.reserve sampleRequest, .install 0 sampleTransaction,
      .terminate (.transaction sampleTransaction) .cancel] ++
    supervisorRuns 4 ++
    [.finalizer ⟨2⟩ (.resume .accepted), .finalizer ⟨2⟩ .settle,
      .finalizer ⟨2⟩ (.publish true), .supervisor (.joined ⟨1⟩)] ++ supervisorRuns 3

/-- **A stale start command outlives its reservation**: more commands are queued
than reservations are held, and the next admission, which gets the free
reservation, is refused for the full queue. -/
theorem stale_start_refuses_reservation : ∃ s s' p e, runtime.Reach always s ∧
    s.config.startCapacity = s.config.maxActiveTransactions ∧
    s.holders (fun _ => true) < s.startQueue.length ∧
    runtime.step (.reserve sampleRequest) s = some s' ∧ s'.admitting[0]? = some p ∧
    { s' with admitting := s'.admitting.eraseIdx 0 }.admitLocked p ⟨2⟩ = .error e ∧
    e.kind = .spawnFailed := by
  obtain ⟨s, hs, hp⟩ := System.exists_of_run (M := runtime) ⟨oneSlotConfig, rfl⟩ staleStartRun
    (fun s => s.config.startCapacity = s.config.maxActiveTransactions &&
      s.holders (fun _ => true) < s.startQueue.length &&
      (runtime.step (.reserve sampleRequest) s).any (fun s' => s'.admitting[0]?.any fun p =>
        match { s' with admitting := s'.admitting.eraseIdx 0 }.admitLocked p ⟨2⟩ with
        | .error e => e.kind = .spawnFailed
        | .ok _ => false)) (by decide +kernel)
  simp only [Bool.and_eq_true, decide_eq_true_eq, Option.any_eq_true] at hp
  obtain ⟨⟨hsize, hover⟩, s', hs', p, hpending, hrefused⟩ := hp
  split at hrefused
  · rename_i e hlocked
    exact ⟨s, s', p, e, hs, hsize, hover, hs', hpending, hlocked, by simpa using hrefused⟩
  · cases hrefused

end Monoloop.Lifecycle
