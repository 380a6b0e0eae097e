import Monoloop.ToolDispatch.Capacity

/-!
# The queue count of a transaction

A dispatch raises `txn_queued` before it validates its input and takes it down when
it is rejected or when `try_acquire` succeeds. Between the two it gives way at one
`await`, the `yield_now()` of the wait for capacity, and no guard holds the count
there. A dispatch future that is dropped at that point takes its place in the queue
with it; every other end gives the place back.

The count is therefore the number of dispatches that wait plus the number of
dispatches that were dropped while they did.
-/

namespace Monoloop.ToolDispatch

open Lifecycle (fetchSub fetchSub_add_one)
open Transition (System always)

namespace CapacityCall

/-- The call is between its enqueue and its acquisition or rejection. -/
def waits (k : CapacityCall) (t : Nat) : Bool :=
  match k.pc with
  | .validate | .loopHead | .yielded | .subQueued | .lock | .loadTxn | .loadShared | .casShared _
  | .raiseSlot | .addTxn | .takeQueued | .unlockRefused => t = k.txn
  | _ => false

/-- The call was dropped while it waited. -/
def leaks (k : CapacityCall) (t : Nat) : Bool :=
  match k.pc with
  | .finished .dropped => t = k.txn
  | _ => false

/-- The call has a place in the queue that it has not given back. -/
def queues (k : CapacityCall) (t : Nat) : Bool := k.waits t || k.leaks t

end CapacityCall

/-- The only calls are those of the dispatcher, which has no other use of the
capacity of a transaction. -/
def CapacityAction.dispatches : CapacityAction → Bool
  | .call kind _ _ _ => kind = .dispatch
  | _ => true

/-- The queue count is the number of dispatches that wait, and zero if none does. -/
def QueueCounted (s : CapacityState) : Prop :=
  ∀ t, s.pools.queued t = s.calls.countP (·.waits t) ∧
    (s.calls.countP (·.waits t) = 0 → s.pools.queued t = 0)

/-! ## One operation -/

section Operate

variable {pools pools' : ToolCapacities} {k k' : CapacityCall} {t : Nat} {pc : CapacityPc}
  {txn txn' : TransactionToolCapacity}

theorem queued_put (hget : pools.txns[t]? = some txn) (u : Nat) :
    (pools.put t txn').queued u = if u = t then txn'.txnQueued else pools.queued u := by
  unfold ToolCapacities.queued
  rw [get_put hget]
  by_cases hu : u = t
  · rw [if_pos hu, if_pos hu]
    rfl
  · rw [if_neg hu, if_neg hu]

theorem queued_get (hget : pools.txns[t]? = some txn) : pools.queued t = txn.txnQueued := by
  unfold ToolCapacities.queued
  rw [hget]
  rfl

/-- The queue counts move with the place of one call. -/
structure QueueShifts (pools pools' : ToolCapacities) (k k' : CapacityCall) : Prop where
  kind : k'.kind = k.kind
  queued : ∀ u, pools'.queued u + (k.queues u).toNat = pools.queued u + (k'.queues u).toNat

theorem QueueShifts.read (hqueues : ∀ u, (k.goto pc).queues u = k.queues u) :
    QueueShifts pools pools k (k.goto pc) where
  kind := rfl
  queued u := by rw [hqueues]

theorem QueueShifts.stay (hget : pools.txns[k.txn]? = some txn)
    (hqueued : txn'.txnQueued = txn.txnQueued)
    (hqueues : ∀ u, (k.goto pc).queues u = k.queues u) :
    QueueShifts pools (pools.put k.txn txn') k (k.goto pc) where
  kind := rfl
  queued u := by
    rw [hqueues, queued_put hget]
    by_cases hu : u = k.txn
    · rw [if_pos hu, hqueued, hu, queued_get hget]
    · rw [if_neg hu]

/-- The call takes a place. -/
theorem QueueShifts.enter (hget : pools.txns[k.txn]? = some txn)
    (hqueued : txn'.txnQueued = txn.txnQueued + 1) (hbefore : ∀ u, k.queues u = false)
    (hafter : ∀ u, (k.goto pc).queues u = decide (u = k.txn)) :
    QueueShifts pools (pools.put k.txn txn') k (k.goto pc) where
  kind := rfl
  queued u := by
    rw [hbefore, hafter, queued_put hget]
    by_cases hu : u = k.txn
    · rw [if_pos hu, hqueued, hu, queued_get hget]
      simp
    · rw [if_neg hu]
      simp [hu]

/-- The call gives its place back. -/
theorem QueueShifts.leave (hget : pools.txns[k.txn]? = some txn)
    (hpos : 0 < pools.queued k.txn) (hqueued : txn'.txnQueued = fetchSub txn.txnQueued)
    (hbefore : ∀ u, k.queues u = decide (u = k.txn))
    (hafter : ∀ u, (k.goto pc).queues u = false) :
    QueueShifts pools (pools.put k.txn txn') k (k.goto pc) where
  kind := rfl
  queued u := by
    rw [hbefore, hafter, queued_put hget]
    by_cases hu : u = k.txn
    · rw [queued_get hget] at hpos
      rw [if_pos hu, hqueued, hu, queued_get hget]
      simpa using fetchSub_add_one hpos
    · rw [if_neg hu]
      simp [hu]

/-- **One operation of a dispatch**, given that it finds its own place counted. -/
theorem operate_queue (h : k.operate pools = some (pools', k')) (hkind : k.kind = .dispatch)
    (hpos : ∀ u, k.queues u = true → 0 < pools.queued u) : QueueShifts pools pools' k k' := by
  obtain ⟨txn, hget, h⟩ := Option.bind_eq_some_iff.mp h
  obtain ⟨kind, t, tool, valid, pc⟩ := k
  obtain rfl : kind = .dispatch := hkind
  cases pc with
  | loadQueued =>
      simp only [CapacityCall.operateOn] at h
      split at h
      · cases h
        exact .read (fun _ => rfl)
      · cases h
        exact .read (fun _ => rfl)
  | casQueued q =>
      simp only [CapacityCall.operateOn] at h
      split at h
      · rename_i hq
        subst hq
        cases h
        refine .enter hget rfl (fun _ => rfl) ?_
        intro u
        exact Bool.or_false _
      · cases h
        exact .read (fun _ => rfl)
  | validate =>
      simp only [CapacityCall.operateOn] at h
      cases h
      refine .read ?_
      cases valid <;> exact fun _ => rfl
  | loopHead =>
      cases h
      exact .read (fun _ => rfl)
  | yielded =>
      cases h
      exact .read (fun _ => rfl)
  | subQueued =>
      cases h
      refine .leave hget (hpos t ?_) rfl ?_ (fun _ => rfl)
      · simp [CapacityCall.queues, CapacityCall.waits]
      · intro u
        exact Bool.or_false _
  | lock =>
      simp only [CapacityCall.operateOn] at h
      have hqueued : (txn.orInsert tool).txnQueued = txn.txnQueued := by
        unfold TransactionToolCapacity.orInsert
        split <;> rfl
      split at h
      · cases h
      · split at h
        · cases h
          exact .stay hget hqueued (fun _ => rfl)
        · cases h
          exact .stay hget hqueued (fun _ => rfl)
  | loadTxn =>
      simp only [CapacityCall.operateOn] at h
      split at h
      · cases h
        exact .read (fun _ => rfl)
      · cases h
        exact .read (fun _ => rfl)
  | loadShared =>
      simp only [CapacityCall.operateOn] at h
      split at h
      · cases h
        exact .read (fun _ => rfl)
      · cases h
        exact .read (fun _ => rfl)
  | casShared cur =>
      simp only [CapacityCall.operateOn] at h
      split at h
      · cases h
        exact ⟨rfl, fun _ => rfl⟩
      · cases h
        exact .read (fun _ => rfl)
  | raiseSlot =>
      cases h
      exact .stay hget rfl (fun _ => rfl)
  | addTxn =>
      cases h
      exact .stay hget rfl (fun _ => rfl)
  | takeQueued =>
      cases h
      refine .leave hget (hpos t ?_) rfl ?_ (fun _ => rfl)
      · simp [CapacityCall.queues, CapacityCall.waits]
      · intro u
        exact Bool.or_false _
  | unlock =>
      cases h
      exact .stay hget rfl (fun _ => rfl)
  | unlockRefused =>
      cases h
      exact .stay hget rfl (fun _ => rfl)
  | held => cases h
  | releaseShared =>
      cases h
      exact ⟨rfl, fun _ => rfl⟩
  | releaseTxn =>
      cases h
      exact .stay hget rfl (fun _ => rfl)
  | releaseSlot =>
      simp only [CapacityCall.operateOn] at h
      split at h
      · cases h
      · cases h
        exact .stay hget rfl (fun _ => rfl)
  | finished how => cases h

end Operate

/-! ## Every run of dispatches -/

variable {s s' : CapacityState} {a : CapacityAction} {as : List CapacityAction} {n : Nat}
  {k k' : CapacityCall}

/-- What holds between any two operations of dispatches. -/
structure Queued (s : CapacityState) : Prop where
  dispatch : ∀ k ∈ s.calls, k.kind = .dispatch
  count : ∀ t, s.pools.queued t = s.calls.countP (·.queues t)

theorem Queued.move {pools : ToolCapacities} (h : Queued s) (hk : s.calls[n]? = some k)
    (hshift : QueueShifts s.pools pools k k') : Queued ⟨pools, s.calls.set n k'⟩ := by
  constructor
  · intro j hj
    rcases List.mem_or_eq_of_mem_set hj with hj | rfl
    · exact h.dispatch j hj
    · rw [hshift.kind]
      exact h.dispatch k (List.mem_of_getElem? hk)
  · intro t
    have hset := Counting.countP_set_toNat (·.queues t) k' hk
    have hqueued := hshift.queued t
    have hbefore := h.count t
    show pools.queued t = (s.calls.set n k').countP _
    omega

theorem Queued.positive (h : Queued s) (hk : k ∈ s.calls) {t : Nat} (ht : k.queues t = true) :
    0 < s.pools.queued t := by
  rw [h.count]
  exact List.countP_pos_iff.mpr ⟨k, hk, ht⟩

theorem Queued.configure (h : Queued s) {txn : TransactionToolCapacity} (hzero : txn.txnQueued = 0) :
    Queued { s with pools := { s.pools with txns := s.pools.txns ++ [txn] } } := by
  refine ⟨h.dispatch, ?_⟩
  intro t
  have hbefore := h.count t
  unfold ToolCapacities.queued at hbefore ⊢
  rw [← hbefore, List.getElem?_append]
  by_cases ht : t < s.pools.txns.length
  · rw [if_pos ht]
  · rw [if_neg ht, List.getElem?_eq_none (l := s.pools.txns) (by omega)]
    cases htail : t - s.pools.txns.length with
    | zero => simpa using hzero
    | succ m => rfl

theorem Queued.step (h : Queued s) (ha : a.dispatches = true)
    (hstep : toolCapacity.step a s = some s') : Queued s' := by
  cases step_cases hstep with
  | configure maxConcurrent maxQueued tools =>
      obtain ⟨-, -, -, hzero⟩ := configured_zero tools
        (TransactionToolCapacity.new maxConcurrent maxQueued) rfl (fun _ => rfl) rfl rfl
      exact h.configure hzero
  | call kind txn tool valid =>
      obtain rfl : kind = .dispatch := of_decide_eq_true ha
      constructor
      · intro j hj
        rcases List.mem_append.mp hj with hj | hj
        · exact h.dispatch j hj
        · rw [List.mem_singleton.mp hj]
      · intro t
        show _ = (s.calls ++ [_]).countP _
        rw [List.countP_append, List.countP_singleton]
        exact h.count t
  | operate hk hop =>
      have hmem := List.mem_of_getElem? hk
      exact h.move hk (operate_queue hop (h.dispatch _ hmem) (fun _ => h.positive hmem))
  | @expire m k hk hpc =>
      obtain ⟨kind, t, tool, valid, pc⟩ := k
      cases hpc
      exact h.move hk (.read (fun _ => rfl))
  | @abandon m k hk hpc =>
      -- the place stays taken, now by a dispatch that no longer exists
      obtain ⟨kind, t, tool, valid, pc⟩ := k
      cases hpc
      refine h.move hk (.read ?_)
      intro u
      exact (Bool.or_false _).symm
  | @release m k hk hpc =>
      obtain ⟨kind, t, tool, valid, pc⟩ := k
      cases hpc
      exact h.move hk (.read (fun _ => rfl))

theorem queued_init (h : toolCapacity.init s) : Queued s := by
  obtain ⟨hcalls, max, hpools⟩ := h
  obtain ⟨pools, calls⟩ := s
  cases hcalls
  cases hpools
  constructor
  · intro k hk
    cases hk
  · intro t
    rfl

theorem Queued.run (h : Queued s) (has : ∀ a ∈ as, a.dispatches = true)
    (hrun : toolCapacity.run as s = some s') : Queued s' := by
  induction as generalizing s with
  | nil =>
      cases hrun
      exact h
  | cons a rest ih =>
      obtain ⟨s₁, hs₁, hrest⟩ := Option.bind_eq_some_iff.mp hrun
      apply ih (h.step (has a List.mem_cons_self) hs₁) _ hrest
      intro b hb
      exact has b (List.mem_cons_of_mem a hb)

/-- The dispatch future was dropped. -/
def CapacityCall.dropped (k : CapacityCall) : Bool := k.pc = .finished .dropped

def CapacityAction.abandons : CapacityAction → Bool
  | .abandon _ => true
  | _ => false

/-- An operation neither starts nor ends at a dropped dispatch. -/
theorem operate_dropped {pools pools' : ToolCapacities} (h : k.operate pools = some (pools', k')) :
    k.dropped = false ∧ k'.dropped = false := by
  obtain ⟨txn, -, h⟩ := Option.bind_eq_some_iff.mp h
  obtain ⟨kind, t, tool, valid, pc⟩ := k
  cases pc with
  | loadQueued =>
      simp only [CapacityCall.operateOn] at h
      split at h
      · cases h
        cases kind <;> exact ⟨rfl, rfl⟩
      · cases h
        exact ⟨rfl, rfl⟩
  | casQueued q =>
      simp only [CapacityCall.operateOn] at h
      split at h
      · cases h
        cases kind <;> exact ⟨rfl, rfl⟩
      · cases h
        exact ⟨rfl, rfl⟩
  | validate =>
      cases h
      cases valid <;> exact ⟨rfl, rfl⟩
  | subQueued =>
      cases h
      cases kind <;> exact ⟨rfl, rfl⟩
  | lock =>
      simp only [CapacityCall.operateOn] at h
      split at h
      · cases h
      · split at h
        · cases h
          exact ⟨rfl, rfl⟩
        · cases h
          exact ⟨rfl, rfl⟩
  | loadTxn =>
      simp only [CapacityCall.operateOn] at h
      split at h
      · cases h
        exact ⟨rfl, rfl⟩
      · cases h
        exact ⟨rfl, rfl⟩
  | loadShared =>
      simp only [CapacityCall.operateOn] at h
      split at h
      · cases h
        exact ⟨rfl, rfl⟩
      · cases h
        exact ⟨rfl, rfl⟩
  | casShared cur =>
      simp only [CapacityCall.operateOn] at h
      split at h
      · cases h
        exact ⟨rfl, rfl⟩
      · cases h
        exact ⟨rfl, rfl⟩
  | releaseSlot =>
      simp only [CapacityCall.operateOn] at h
      split at h
      · cases h
      · cases h
        exact ⟨rfl, rfl⟩
  | unlockRefused =>
      cases h
      cases kind <;> exact ⟨rfl, rfl⟩
  | held => cases h
  | finished how => cases h
  | _ =>
      cases h
      exact ⟨rfl, rfl⟩

/-- A call that was not dropped moves on. -/
theorem dropped_set (hk : s.calls[n]? = some k) (hbefore : k.dropped = false) (k' : CapacityCall) :
    (s.calls.set n k').countP (·.dropped) = s.calls.countP (·.dropped) + k'.dropped.toNat := by
  have hset := Counting.countP_set_toNat (·.dropped) k' hk
  rw [hbefore] at hset
  exact hset

theorem step_dropped (hstep : toolCapacity.step a s = some s') :
    s'.calls.countP (·.dropped) = s.calls.countP (·.dropped) + a.abandons.toNat := by
  cases step_cases hstep with
  | configure maxConcurrent maxQueued tools => rfl
  | call kind txn tool valid =>
      show (s.calls ++ [_]).countP _ = _
      rw [List.countP_append, List.countP_singleton]
      cases kind <;> rfl
  | operate hk hop =>
      obtain ⟨hbefore, hafter⟩ := operate_dropped hop
      rw [dropped_set hk hbefore, hafter]
      rfl
  | expire hk hpc => exact dropped_set hk (by simp [CapacityCall.dropped, hpc]) _
  | abandon hk hpc => exact dropped_set hk (by simp [CapacityCall.dropped, hpc]) _
  | release hk hpc => exact dropped_set hk (by simp [CapacityCall.dropped, hpc]) _

theorem run_dropped (hrun : toolCapacity.run as s = some s') :
    s'.calls.countP (·.dropped) = s.calls.countP (·.dropped) + as.countP (·.abandons) := by
  induction as generalizing s with
  | nil =>
      cases hrun
      rfl
  | cons a rest ih =>
      obtain ⟨s₁, hs₁, hrest⟩ := Option.bind_eq_some_iff.mp hrun
      rw [ih hrest, step_dropped hs₁, List.countP_cons]
      cases a.abandons <;> simp
      omega

/-- A call with a place in the queue either waits or was dropped. -/
theorem countP_queues (calls : List CapacityCall) (t : Nat) :
    calls.countP (·.queues t) = calls.countP (·.waits t) + calls.countP (·.leaks t) := by
  induction calls with
  | nil => rfl
  | cons k rest ih =>
      have hone : (k.queues t).toNat = (k.waits t).toNat + (k.leaks t).toNat := by
        obtain ⟨kind, u, tool, valid, pc⟩ := k
        cases pc <;> simp [CapacityCall.queues, CapacityCall.waits, CapacityCall.leaks]
      rw [List.countP_cons, List.countP_cons, List.countP_cons, ih]
      cases hw : k.waits t <;> cases hl : k.leaks t <;> cases hq : k.queues t <;>
        simp_all <;> omega

theorem leaks_iff (k : CapacityCall) (t : Nat) :
    k.leaks t = true ↔ k.dropped = true ∧ t = k.txn := by
  obtain ⟨kind, u, tool, valid, pc⟩ := k
  cases pc with
  | finished how => cases how <;> simp [CapacityCall.leaks, CapacityCall.dropped]
  | _ => simp [CapacityCall.leaks, CapacityCall.dropped]

theorem Queued.counted_iff (h : Queued s) :
    QueueCounted s ↔ s.calls.countP (·.dropped) = 0 := by
  have hleaks : ∀ t, s.pools.queued t =
      s.calls.countP (·.waits t) + s.calls.countP (·.leaks t) := by
    intro t
    rw [h.count, countP_queues]
  constructor
  · intro hcounted
    rw [List.countP_eq_zero]
    intro k hk hdropped
    have hpos : 0 < s.calls.countP (·.leaks k.txn) :=
      List.countP_pos_iff.mpr ⟨k, hk, (leaks_iff k k.txn).mpr ⟨hdropped, rfl⟩⟩
    have hsum := hleaks k.txn
    rw [(hcounted k.txn).1] at hsum
    omega
  · intro hzero t
    have hnone : s.calls.countP (·.leaks t) = 0 := by
      rw [List.countP_eq_zero] at hzero ⊢
      intro k hk hleak
      exact hzero k hk ((leaks_iff k t).mp hleak).1
    have hsum := hleaks t
    rw [hnone, Nat.add_zero] at hsum
    exact ⟨hsum, fun hwaits => hsum.trans hwaits⟩

/-- **When the queue count is right.** After any run of dispatches, the queue count
of every transaction is the number of its dispatches between enqueue and acquisition
or rejection exactly if the run dropped no dispatch at the `yield_now().await` of its
wait for capacity. -/
theorem queue_counted_iff {s₀ : CapacityState} (h₀ : toolCapacity.init s₀)
    (has : ∀ a ∈ as, a.dispatches = true) (hrun : toolCapacity.run as s₀ = some s) :
    QueueCounted s ↔ ∀ n, CapacityAction.abandon n ∉ as := by
  have hzero : s₀.calls.countP (·.dropped) = 0 := by
    rw [h₀.1]
    rfl
  rw [((queued_init h₀).run has hrun).counted_iff, run_dropped hrun, hzero, Nat.zero_add,
    List.countP_eq_zero]
  constructor
  · intro hnone n hn
    exact hnone _ hn rfl
  · intro hnone a ha habandons
    cases a with
    | abandon n => exact hnone n ha
    | _ => cases habandons

/-- While one dispatch runs and a second one waits, the count is right. -/
theorem busyTool_queue : ∃ s, toolCapacity.run busyTool fourTools = some s ∧ QueueCounted s := by
  obtain ⟨s, hrun, -⟩ := busyTool_run
  refine ⟨s, hrun, (queue_counted_iff fourTools_init ?_ hrun).mpr ?_⟩
  · decide
  · intro n hn
    simp [busyTool] at hn

/-- The second dispatch is dropped where it waits. Its place stays counted, and no
dispatch is left to give it back. -/
theorem dropped_place_leaks : ∃ s, toolCapacity.run (busyTool ++ [.abandon 1]) fourTools = some s ∧
    (∀ a ∈ busyTool ++ [CapacityAction.abandon 1], a.dispatches = true) ∧
    s.calls.countP (·.waits 0) = 0 ∧ s.pools.queued 0 = 1 ∧ ¬ QueueCounted s := by
  have hrun : (toolCapacity.run (busyTool ++ [.abandon 1]) fourTools).any (fun s =>
      s.calls.countP (·.waits 0) = 0 ∧ s.pools.queued 0 = 1) = true := by
    decide +kernel
  rw [Option.any_eq_true] at hrun
  obtain ⟨s, hrun, hs⟩ := hrun
  obtain ⟨hwaits, hqueued⟩ := of_decide_eq_true hs
  refine ⟨s, hrun, by decide, hwaits, hqueued, ?_⟩
  intro hcounted
  have hcount := (hcounted 0).1
  rw [hwaits, hqueued] at hcount
  cases hcount

end Monoloop.ToolDispatch
