import Monoloop.Lifecycle.Capacity

/-!
# Who can refuse a reservation

A call takes its permits in the order global, channel, ledger. The ledger is as
large as the global counter, so a call that has its channel permit gets its ledger
permit too: it is never refused. What can be rolled back is a global permit alone,
and while such a permit is held it counts against every other channel.
-/

namespace Monoloop.Lifecycle

open Transition (System always)

variable {s s' : PoolState} {a : PoolAction} {n : Nat} {k : ReserveCall}

/-- The call owns or owned its channel permit and is not rolling back. -/
def ReservePc.committed : ReservePc → Bool
  | .loadLedger | .casLedger _ | .held | .releaseLedger | .releaseChannel | .releaseGlobal
  | .released => true
  | _ => false

/-- The ledger has room for every call that owns a channel permit. -/
theorem Settled.ledger_room (h : Settled s) (hk : k ∈ s.calls)
    (hglobal : k.owns .global = true) (hledger : k.owns .ledger = false) :
    s.pool.ledgerActive < s.pool.maxLedger := by
  have howners : ∀ j ∈ s.calls, j.owns .ledger = true → j.owns .global = true := by
    intro j _ hj
    obtain ⟨channel, pc⟩ := j
    cases pc <;> first | rfl | cases hj
  have hlt := Counting.countP_lt_countP howners hk hledger hglobal
  rw [← h.count, ← h.count] at hlt
  have hwithin := h.within .global s.pool.maxGlobal rfl
  have hsame : s.pool.maxLedger = s.pool.maxGlobal := Option.some.inj h.ledger
  show s.pool.count .ledger < s.pool.maxLedger
  omega

/-- Past the channel exchange a call is never refused. -/
theorem Settled.committed_operate (h : Settled s) (hk : k ∈ s.calls) {pool : ReservationPool}
    {k' : ReserveCall} (hop : k.operate s.pool = some (pool, k')) (hpc : k.pc.committed = true) :
    k'.pc.committed = true := by
  have hroom := h.ledger_room hk
  obtain ⟨channel, pc⟩ := k
  cases pc <;> try cases hpc
  case loadLedger =>
    have hfree := hroom rfl rfl
    simp only [ReserveCall.operate, if_neg (Nat.not_le.mpr hfree)] at hop
    cases hop
    rfl
  case casLedger l =>
    simp only [ReserveCall.operate] at hop
    split at hop <;> cases hop <;> rfl
  all_goals
    cases hop
    try rfl

theorem Settled.committed_step (h : Settled s) (hs : reservationPool.step a s = some s')
    (hk : s.calls[n]? = some k) (hpc : k.pc.committed = true) :
    ∃ k', s'.calls[n]? = some k' ∧ k'.pc.committed = true := by
  have hn : n < s.calls.length := (List.getElem?_eq_some_iff.mp hk).1
  rcases h.step_cases hs with ⟨channel, rfl, rfl⟩ | ⟨m, j, j', hj, -, hcalls, hact⟩
  · refine ⟨k, ?_, hpc⟩
    show (s.calls ++ _)[n]? = some k
    rw [List.getElem?_append_left hn, hk]
  · rw [hcalls]
    by_cases hm : m = n
    · subst hm
      cases hk.symm.trans hj
      refine ⟨j', List.getElem?_set_self hn, ?_⟩
      rcases hact with ⟨-, hop⟩ | ⟨-, -, rfl, -⟩
      · exact h.committed_operate (List.mem_of_getElem? hk) hop hpc
      · rfl
    · exact ⟨k, by rw [List.getElem?_set_ne hm, hk], hpc⟩

/-- The `n`th call is refused in no continuation. -/
def PoolState.Secure (s : PoolState) (n : Nat) : Prop :=
  ∀ as s', reservationPool.run as s = some s' →
    ∃ k, s'.calls[n]? = some k ∧ k.pc.fails = false

theorem secure_of_committed (h : reservationPool.Reach always s) (hk : s.calls[n]? = some k)
    (hpc : k.pc.committed = true) : s.Secure n := by
  intro as
  induction as generalizing s k with
  | nil =>
      intro s' hrun
      cases hrun
      refine ⟨k, hk, ?_⟩
      obtain ⟨channel, pc⟩ := k
      cases pc <;> first | rfl | cases hpc
  | cons a rest ih =>
      intro s' hrun
      simp only [System.run, Option.bind_eq_some_iff] at hrun
      obtain ⟨u, hu, hrest⟩ := hrun
      obtain ⟨k', hk', hpc'⟩ := (settled_reach h).committed_step hu hk hpc
      exact ih (.step h trivial hu) hk' hpc' s' hrest

/-- The load after which a call fails. -/
theorem operate_fails {pool pool' : ReservationPool} {k' : ReserveCall}
    (hop : k.operate pool = some (pool', k')) (hbefore : k.pc.fails = false)
    (hfails : k'.pc.fails = true) :
    (k.pc = .loadGlobal ∧ pool.maxGlobal ≤ pool.globalActive) ∨
    (k.pc = .loadChannel ∧ ∃ m, pool.limit (.channel k.channel) = some m ∧
      m ≤ pool.count (.channel k.channel)) ∨
    (k.pc = .loadLedger ∧ pool.maxLedger ≤ pool.ledgerActive) := by
  obtain ⟨channel, pc⟩ := k
  cases pc with
  | loadGlobal =>
      simp only [ReserveCall.operate] at hop
      split at hop
      · rename_i hfull
        exact .inl ⟨rfl, hfull⟩
      · cases hop
        cases hfails
  | loadChannel =>
      simp only [ReserveCall.operate, Option.map_eq_some_iff] at hop
      obtain ⟨slot, hslot, hop⟩ := hop
      split at hop
      · rename_i hfull
        refine .inr (.inl ⟨rfl, slot.max, ?_, ?_⟩)
        · simp [ReservationPool.limit, hslot]
        · simpa [ReservationPool.count, ReservationPool.channelActive, hslot] using hfull
      · cases hop
        cases hfails
  | loadLedger =>
      simp only [ReserveCall.operate] at hop
      split at hop
      · rename_i hfull
        exact .inr (.inr ⟨rfl, hfull⟩)
      · cases hop
        cases hfails
  | casGlobal g =>
      simp only [ReserveCall.operate] at hop
      split at hop <;> cases hop <;> cases hfails
  | casChannel c =>
      simp only [ReserveCall.operate, Option.map_eq_some_iff] at hop
      obtain ⟨slot, -, hop⟩ := hop
      split at hop <;> cases hop <;> cases hfails
  | casLedger l =>
      simp only [ReserveCall.operate] at hop
      split at hop <;> cases hop <;> cases hfails
  | dropChannel => cases hbefore
  | dropGlobal => cases hbefore
  | refused => cases hbefore
  | held => cases hop
  | releaseLedger =>
      cases hop
      cases hfails
  | releaseChannel =>
      cases hop
      cases hfails
  | releaseGlobal =>
      cases hop
      cases hfails
  | released => cases hop

/-- A channel permit is rolled back only when the ledger is full. -/
theorem operate_to_dropChannel {pool pool' : ReservationPool} {k' : ReserveCall}
    (hop : k.operate pool = some (pool', k')) (hdrop : k'.pc = .dropChannel) :
    k.pc = .loadLedger ∧ pool.maxLedger ≤ pool.ledgerActive := by
  cases hbefore : k.pc.fails with
  | false =>
      rcases operate_fails hop hbefore (by rw [hdrop]; rfl) with ⟨hpc, hfull⟩ | ⟨hpc, -⟩ | hledger
      · simp only [ReserveCall.operate, hpc, if_pos hfull] at hop
        cases hop
        cases hdrop
      · simp only [ReserveCall.operate, hpc, Option.map_eq_some_iff] at hop
        obtain ⟨slot, -, hop⟩ := hop
        split at hop <;> cases hop <;> cases hdrop
      · exact hledger
  | true =>
      obtain ⟨channel, pc⟩ := k
      cases pc <;> cases hbefore <;> cases hop <;> cases hdrop

/-- No call rolls a channel permit back: the ledger never refuses. -/
theorem channel_never_rolled_back (h : reservationPool.Reach always s) :
    ∀ k ∈ s.calls, k.pc ≠ .dropChannel := by
  refine h.invariant (P := fun s => ∀ k ∈ s.calls, k.pc ≠ .dropChannel) ?_ ?_
  · intro s h₀ k hk
    rw [h₀.1] at hk
    cases hk
  · intro s a s' hreach ih _ hs k hk
    have hset := settled_reach hreach
    rcases hset.step_cases hs with ⟨channel, -, rfl⟩ | ⟨n, j, j', hj, -, hcalls, hact⟩
    · rcases List.mem_append.mp hk with hk | hk
      · exact ih k hk
      · cases List.mem_singleton.mp hk
        unfold ReserveCall.enter
        cases (s.pool.perChannel.lookup channel).isSome <;> simp
    · have hmem := List.mem_of_getElem? hj
      rw [hcalls] at hk
      rcases List.mem_or_eq_of_mem_set hk with hk | rfl
      · exact ih k hk
      · rcases hact with ⟨-, hop⟩ | ⟨-, -, rfl, -⟩
        · intro hdrop
          obtain ⟨hpc, hfull⟩ := operate_to_dropChannel hop hdrop
          have hroom := hset.ledger_room hmem (by simp [ReserveCall.owns, hpc])
            (by simp [ReserveCall.owns, hpc])
          omega
        · simp [ReserveCall.goto]

/-- Before its channel exchange a call owns at most a global permit. -/
theorem uncommitted_owns (h : reservationPool.Reach always s) (hk : k ∈ s.calls)
    (hpc : k.pc.committed = false) : k.owns .ledger = false ∧ ∀ c, k.owns (.channel c) = false := by
  have hdrop := channel_never_rolled_back h k hk
  obtain ⟨channel, pc⟩ := k
  cases pc with
  | dropChannel => exact absurd rfl hdrop
  | loadLedger => cases hpc
  | casLedger l => cases hpc
  | held => cases hpc
  | releaseLedger => cases hpc
  | releaseChannel => cases hpc
  | _ => exact ⟨rfl, fun _ => rfl⟩

theorem uncommitted_in_flight (howns : k.owns .global = true) (hpc : k.pc.committed = false) :
    k.pc.returned = false := by
  obtain ⟨channel, pc⟩ := k
  cases pc <;> cases hpc <;> first | rfl | cases howns

theorem committed_of_owns_channel (h : reservationPool.Reach always s) (hk : k ∈ s.calls)
    {c : ChannelId} (howns : k.owns (.channel c) = true) : k.pc.committed = true := by
  cases hpc : k.pc.committed with
  | true => rfl
  | false =>
      rw [(uncommitted_owns h hk hpc).2 c] at howns
      cases howns

/-- A call keeps its channel, and the pool its maxima. -/
theorem Settled.kept_step (h : Settled s) (hs : reservationPool.step a s = some s') :
    s'.pool.limit = s.pool.limit ∧ ∀ (n : Nat) (k : ReserveCall), s.calls[n]? = some k →
      ∃ k', s'.calls[n]? = some k' ∧ k'.channel = k.channel := by
  rcases h.step_cases hs with ⟨channel, -, rfl⟩ | ⟨m, j, j', hj, hshift, hcalls, -⟩
  · refine ⟨rfl, ?_⟩
    intro n k hk
    refine ⟨k, ?_, rfl⟩
    show (s.calls ++ _)[n]? = some k
    rw [List.getElem?_append_left (List.getElem?_eq_some_iff.mp hk).1, hk]
  · refine ⟨hshift.limit, ?_⟩
    intro n k hk
    rw [hcalls]
    by_cases hm : m = n
    · subst hm
      cases hk.symm.trans hj
      exact ⟨j', List.getElem?_set_self (List.getElem?_eq_some_iff.mp hj).1, hshift.channel⟩
    · exact ⟨k, by rw [List.getElem?_set_ne hm, hk], rfl⟩

theorem kept_run {as : List PoolAction} (h : reservationPool.Reach always s)
    (hrun : reservationPool.run as s = some s') :
    s'.pool.limit = s.pool.limit ∧ ∀ (n : Nat) (k : ReserveCall), s.calls[n]? = some k →
      ∃ k', s'.calls[n]? = some k' ∧ k'.channel = k.channel := by
  induction as generalizing s with
  | nil =>
      cases hrun
      exact ⟨rfl, fun n k hk => ⟨k, hk, rfl⟩⟩
  | cons a rest ih =>
      simp only [System.run, Option.bind_eq_some_iff] at hrun
      obtain ⟨u, hu, hrest⟩ := hrun
      obtain ⟨hlimit, hcalls⟩ := (settled_reach h).kept_step hu
      obtain ⟨hlimit', hcalls'⟩ := ih (.step h trivial hu) hrest
      refine ⟨hlimit'.trans hlimit, ?_⟩
      intro n k hk
      obtain ⟨k₁, hk₁, hchannel₁⟩ := hcalls n k hk
      obtain ⟨k₂, hk₂, hchannel₂⟩ := hcalls' n k₁ hk₁
      exact ⟨k₂, hk₂, hchannel₂.trans hchannel₁⟩

/-- The call is about to read a counter that is at its maximum. -/
def Refusing (s : PoolState) (k : ReserveCall) : Prop :=
  (k.pc = .loadGlobal ∧ s.pool.maxGlobal ≤ s.pool.globalActive) ∨
  (k.pc = .loadChannel ∧ ∃ m, s.pool.limit (.channel k.channel) = some m ∧
    m ≤ s.pool.count (.channel k.channel))

/-- The step after which a call on a configured channel fails. -/
theorem Settled.refusing (h : Settled s) (hs : reservationPool.step a s = some s')
    (hbefore : ∀ k, s.calls[n]? = some k → k.pc.fails = false) (hk : s'.calls[n]? = some k)
    (hfails : k.pc.fails = true) (hconf : (s.pool.limit (.channel k.channel)).isSome) :
    ∃ j, s.calls[n]? = some j ∧ j.channel = k.channel ∧ Refusing s j := by
  rcases h.step_cases hs with ⟨channel, -, rfl⟩ | ⟨m, j, j', hj, hshift, hcalls, hact⟩
  · -- a new call fails at once only on a channel that is not configured
    change (s.calls ++ _)[n]? = some k at hk
    rcases Nat.lt_or_ge n s.calls.length with hn | hn
    · rw [List.getElem?_append_left hn] at hk
      rw [hbefore k hk] at hfails
      cases hfails
    · rw [List.getElem?_append_right hn] at hk
      cases List.mem_singleton.mp (List.mem_of_getElem? hk)
      simp only [ReservationPool.limit, Option.isSome_map, ReserveCall.enter] at hconf
      simp [ReserveCall.enter, hconf, ReservePc.fails] at hfails
  · rw [hcalls] at hk
    by_cases hm : m = n
    · subst hm
      rw [List.getElem?_set_self (List.getElem?_eq_some_iff.mp hj).1] at hk
      cases hk
      refine ⟨j, hj, hshift.channel.symm, ?_⟩
      rcases hact with ⟨-, hop⟩ | ⟨-, -, rfl, -⟩
      · rcases operate_fails hop (hbefore j hj) hfails with hglobal | hchannel | ⟨hpc, hfull⟩
        · exact .inl hglobal
        · exact .inr hchannel
        · have hroom := h.ledger_room (List.mem_of_getElem? hj) (by simp [ReserveCall.owns, hpc])
            (by simp [ReserveCall.owns, hpc])
          omega
      · cases hfails
    · rw [List.getElem?_set_ne hm] at hk
      rw [hbefore k hk] at hfails
      cases hfails

/-- **The moment of refusal**: some state of the run in which the failed call is
about to read a counter that is at its maximum. -/
theorem refusal_moment {as : List PoolAction} (h : reservationPool.Reach always s)
    (hbefore : ∀ k, s.calls[n]? = some k → k.pc.fails = false)
    (hrun : reservationPool.run as s = some s') (hk : s'.calls[n]? = some k)
    (hfails : k.pc.fails = true) (hconf : (s.pool.limit (.channel k.channel)).isSome) :
    ∃ i u j, reservationPool.run (as.take i) s = some u ∧ u.calls[n]? = some j ∧
      j.channel = k.channel ∧ Refusing u j := by
  induction as generalizing s with
  | nil =>
      cases hrun
      rw [hbefore k hk] at hfails
      cases hfails
  | cons a rest ih =>
      simp only [System.run, Option.bind_eq_some_iff] at hrun
      obtain ⟨u, hu, hrest⟩ := hrun
      have hset := settled_reach h
      have hu' : reservationPool.Reach always u := .step h trivial hu
      by_cases hearly : ∃ j, u.calls[n]? = some j ∧ j.pc.fails = true
      · obtain ⟨j, hj, hjfails⟩ := hearly
        obtain ⟨k', hk', hchannel⟩ := (kept_run hu' hrest).2 n j hj
        cases hk.symm.trans hk'
        obtain ⟨j₀, hj₀, hchannel₀, hrefusing⟩ :=
          hset.refusing hu hbefore hj hjfails (hchannel ▸ hconf)
        exact ⟨0, s, j₀, rfl, hj₀, hchannel₀.trans hchannel.symm, hrefusing⟩
      · have hstill : ∀ j, u.calls[n]? = some j → j.pc.fails = false := by
          intro j hj
          cases hpc : j.pc.fails with
          | false => rfl
          | true => exact absurd ⟨j, hj, hpc⟩ hearly
        obtain ⟨i, v, j, hv, hj, hrefusing⟩ :=
          ih hu' hstill hrest (by rw [(hset.kept_step hu).1]; exact hconf)
        exact ⟨i + 1, v, j, by simp [System.run, hu, hv], hj, hrefusing⟩

theorem run_take_drop {as : List PoolAction} {i : Nat} {u : PoolState}
    (hrun : reservationPool.run as s = some s')
    (hu : reservationPool.run (as.take i) s = some u) :
    reservationPool.run (as.drop i) u = some s' := by
  induction as generalizing s i with
  | nil =>
      simp only [List.take_nil, List.drop_nil] at hu ⊢
      cases hu
      exact hrun
  | cons a rest ih =>
      cases i with
      | zero =>
          cases hu
          exact hrun
      | succ i =>
          simp only [List.take_succ_cons, System.run, Option.bind_eq_some_iff] at hu hrun
          obtain ⟨v, hv, hu⟩ := hu
          obtain ⟨v', hv', hrun⟩ := hrun
          cases hv.symm.trans hv'
          exact ih hrun hu

/-- **Why a call on a configured channel is refused.** At some moment of the call
either its channel's maximum is reached by calls that are refused in no
continuation, or the global maximum is reached by such calls together with calls
in flight that own a global permit and nothing else. The refused call itself never
owns a channel or ledger permit, so it cannot be what fills a channel. -/
theorem refusal_explained {s₀ : PoolState} {as : List PoolAction}
    (h₀ : reservationPool.init s₀) (hrun : reservationPool.run as s₀ = some s)
    (hk : s.calls[n]? = some k) (hrefused : k.pc = .refused)
    (hconf : (s₀.pool.limit (.channel k.channel)).isSome) :
    (∃ i u j, reservationPool.run (as.take i) s₀ = some u ∧
      u.calls[n]? = some j ∧ j.channel = k.channel ∧ j.pc.returned = false ∧
      ((u.pool.limit (.channel k.channel) =
          some (u.calls.countP (·.owns (.channel k.channel))) ∧
        ∀ (m : Nat) (o : ReserveCall), u.calls[m]? = some o → o.owns (.channel k.channel) = true →
          u.Secure m) ∨
        (u.pool.limit .global = some (u.calls.countP (·.owns .global)) ∧
        ∀ (m : Nat) (o : ReserveCall), u.calls[m]? = some o → o.owns .global = true →
          u.Secure m ∨
            (o.pc.returned = false ∧ o.owns .ledger = false ∧
              ∀ c, o.owns (.channel c) = false)))) ∧
    ∀ i u j, reservationPool.run (as.take i) s₀ = some u → u.calls[n]? = some j →
      j.owns .ledger = false ∧ ∀ c, j.owns (.channel c) = false := by
  have hinit : reservationPool.Reach always s₀ := .init h₀
  constructor
  · have hnone : ∀ k, s₀.calls[n]? = some k → k.pc.fails = false := by
      intro k hk
      rw [h₀.1] at hk
      cases hk
    obtain ⟨i, u, j, hu, hj, hchannel, hrefusing⟩ :=
      refusal_moment hinit hnone hrun hk (by rw [hrefused]; rfl) hconf
    have hreach := System.run_reach hinit hu
    have hset := settled_reach hreach
    refine ⟨i, u, j, hu, hj, hchannel, ?_, ?_⟩
    · rcases hrefusing with ⟨hpc, -⟩ | ⟨hpc, -⟩ <;> rw [hpc] <;> rfl
    · rcases hrefusing with ⟨-, hfull⟩ | ⟨-, m, hm, hfull⟩
      · right
        refine ⟨?_, ?_⟩
        · have hwithin := hset.within .global _ rfl
          rw [← hset.count]
          show some u.pool.maxGlobal = some u.pool.globalActive
          rw [Nat.le_antisymm hfull hwithin]
        · intro m o ho howns
          cases hpc : o.pc.committed with
          | true => exact .inl (secure_of_committed hreach ho hpc)
          | false =>
              right
              exact ⟨uncommitted_in_flight howns hpc,
                uncommitted_owns hreach (List.mem_of_getElem? ho) hpc⟩
      · left
        rw [hchannel] at hm hfull
        refine ⟨?_, ?_⟩
        · have hwithin := hset.within _ m hm
          rw [hm, ← hset.count, Nat.le_antisymm hfull hwithin]
        · intro m o ho howns
          exact secure_of_committed hreach ho
            (committed_of_owns_channel hreach (List.mem_of_getElem? ho) howns)
  · intro i u j hu hj
    have hreach := System.run_reach hinit hu
    have hfree : j.pc.committed = false := by
      cases hpc : j.pc.committed with
      | false => rfl
      | true =>
          obtain ⟨k', hk', hfine⟩ := secure_of_committed hreach hj hpc _ s (run_take_drop hrun hu)
          cases hk.symm.trans hk'
          rw [hrefused] at hfine
          cases hfine
    exact uncommitted_owns hreach (List.mem_of_getElem? hj) hfree

/-- The calls that own a permit of `counter` in `u` and have returned `Some` by `s`. -/
def PoolState.succeeding (s u : PoolState) (counter : Counter) : Nat :=
  (List.range u.calls.length).countP fun m =>
    u.calls[m]?.any (·.owns counter) &&
      s.calls[m]?.any fun k => k.pc.returned && !k.pc.fails

/-- The second call on the narrow channel takes a global permit it will roll back;
meanwhile a call on the wide channel reads the global counter. -/
def doomedRun : List PoolAction :=
  narrowHeld ++ [.call narrowChannel, .operate 1, .operate 1, .call wideChannel, .operate 2,
    .operate 1, .operate 1]

/-- The run of two calls on the narrow channel, and why the second is refused. -/
theorem second_narrow_call_refusal : ∃ s, reservationPool.run narrowTwice twoChannelPool = some s ∧
    s.calls[1]? = some ⟨narrowChannel, .refused⟩ ∧
    ∀ i u j, reservationPool.run (narrowTwice.take i) twoChannelPool = some u →
      u.calls[1]? = some j →
      j.owns .ledger = false ∧ ∀ c, j.owns (.channel c) = false := by
  obtain ⟨s, hrun, hrefused⟩ := narrow_refused_run
  exact ⟨s, hrun, hrefused,
    (refusal_explained twoChannelPool_init hrun hrefused rfl (by decide +kernel)).2⟩

/-- **A failing attempt refuses another channel**: a complete run in which the only
call on the wide channel is refused although, in every state of the run, the
reservations that succeed stay below the global and the channel's maximum. -/
theorem doomed_attempt_refuses : ∃ s, reservationPool.run doomedRun twoChannelPool = some s ∧
    (∀ k ∈ s.calls, k.pc.returned = true) ∧
    s.calls[2]? = some ⟨wideChannel, .refused⟩ ∧
    (twoChannelPool.pool.limit (.channel wideChannel)).isSome ∧
    ∀ i ≤ doomedRun.length, ∀ u, reservationPool.run (doomedRun.take i) twoChannelPool = some u →
      s.succeeding u .global < u.pool.maxGlobal ∧
      ∀ m, u.pool.limit (.channel wideChannel) = some m →
        s.succeeding u (.channel wideChannel) < m := by
  have hcheck : (reservationPool.run doomedRun twoChannelPool).any (fun s =>
      s.calls.all (·.pc.returned) && s.calls[2]? = some ⟨wideChannel, .refused⟩ &&
        (List.range (doomedRun.length + 1)).all fun i =>
          (reservationPool.run (doomedRun.take i) twoChannelPool).all fun u =>
            s.succeeding u .global < u.pool.maxGlobal &&
              (u.pool.limit (.channel wideChannel)).all
                (s.succeeding u (.channel wideChannel) < ·)) = true := by
    decide +kernel
  rw [Option.any_eq_true] at hcheck
  obtain ⟨s, hrun, hs⟩ := hcheck
  simp only [Bool.and_eq_true, List.all_eq_true, decide_eq_true_eq, List.mem_range,
    Option.all_eq_true] at hs
  obtain ⟨⟨hreturned, hrefused⟩, hstates⟩ := hs
  refine ⟨s, hrun, hreturned, hrefused, by decide +kernel, ?_⟩
  intro i hi u hu
  obtain ⟨hglobal, hchannel⟩ := hstates i (by omega) u hu
  exact ⟨hglobal, hchannel⟩

end Monoloop.Lifecycle
