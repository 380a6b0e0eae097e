import Monoloop.Lifecycle.Holdings

/-!
# Reservations are accounted for

The reservation pool counts exactly the admissions that wait for the ledger lock
and the rows that own a reservation, in every reachable state of the runtime. A
drop therefore always takes off what a reservation put on.
-/

namespace Monoloop.Lifecycle

open Transition (System always)

variable {s s' : Runtime} {a : Action} {tx : TransactionId}

/-! ## The counters of the pool -/

namespace ReservationPool

variable {pool pool' : ReservationPool} {channel : ChannelId}

/-- `pool'` counts one reservation of each kind more than `pool`. -/
structure OneMore (pool pool' : ReservationPool) (channel : ChannelId) : Prop where
  global : pool'.globalActive = pool.globalActive + 1
  ledger : pool'.ledgerActive = pool.ledgerActive + 1
  own : pool'.channelActive channel = pool.channelActive channel + 1
  other : ∀ c, c ≠ channel → pool'.channelActive c = pool.channelActive c

/-- The pools count the same. -/
structure SameCounters (pool pool' : ReservationPool) : Prop where
  global : pool'.globalActive = pool.globalActive
  ledger : pool'.ledgerActive = pool.ledgerActive
  channel : ∀ c, pool'.channelActive c = pool.channelActive c

/-- The configured bounds, which nothing changes. -/
def bounds (pool : ReservationPool) : Nat × Nat := (pool.maxGlobal, pool.maxLedger)

/-- A granted bundle found room in each of the three counters. -/
theorem tryReserve_some (h : pool.tryReserve channel = some pool') :
    OneMore pool pool' channel ∧ pool'.bounds = pool.bounds ∧
      pool.globalActive < pool.maxGlobal := by
  unfold tryReserve at h
  split at h
  · cases h
  · rename_i slot hslot
    split at h
    · cases h
    · split at h
      · cases h
      · split at h
        · cases h
        · cases h
          refine ⟨⟨rfl, rfl, ?_, ?_⟩, rfl, by omega⟩
          · simp [channelActive, hslot]
          · intro c hc
            simp [channelActive, AList.lookup_insert_ne hc]

theorem channelActive_release (pool : ReservationPool) (channel c : ChannelId) :
    (pool.release channel).channelActive c =
      if c = channel then pool.channelActive c - 1 else pool.channelActive c := by
  unfold release channelActive
  rw [HashMap.lookup_modify]
  by_cases hc : c = channel
  · subst hc
    rw [if_pos rfl, if_pos rfl]
    cases pool.perChannel.lookup c <;> rfl
  · simp only [hc, if_false]

/-- Dropping a counted bundle takes one off each of the three counters. -/
theorem release_oneMore (hglobal : 0 < pool.globalActive) (hledger : 0 < pool.ledgerActive)
    (hchannel : 0 < pool.channelActive channel) :
    OneMore (pool.release channel) pool channel where
  global := by
    show pool.globalActive = pool.globalActive - 1 + 1
    omega
  ledger := by
    show pool.ledgerActive = pool.ledgerActive - 1 + 1
    omega
  own := by
    rw [channelActive_release, if_pos rfl]
    omega
  other c hc := by
    rw [channelActive_release, if_neg hc]

/-- Reserved and dropped again: nothing is counted. -/
theorem OneMore.cancel {pool₀ pool₁ : ReservationPool} (h : OneMore pool pool₁ channel)
    (h' : OneMore pool₀ pool₁ channel) : SameCounters pool pool₀ where
  global := by
    have := h.global
    have := h'.global
    omega
  ledger := by
    have := h.ledger
    have := h'.ledger
    omega
  channel c := by
    by_cases hc : c = channel
    · subst hc
      have := h.own
      have := h'.own
      omega
    · rw [← h.other c hc, h'.other c hc]

end ReservationPool

/-! ## Who holds a reservation -/

/-- Rows that own a reservation on a channel satisfying `p`. -/
def LifecycleLedger.reservedOn (l : LifecycleLedger) (p : ChannelId → Bool) : Nat :=
  HashMap.countWhere l.byTransaction (fun e => e.reservations && p e.channelId)

/-- Reservations held on channels satisfying `p`: by admissions waiting for the
ledger lock and by rows. -/
def Runtime.holders (s : Runtime) (p : ChannelId → Bool) : Nat :=
  s.admitting.countP (fun a => p a.request.channelId) + s.ledger.reservedOn p

theorem reservedOn_congr {l l' : LifecycleLedger} (h : l'.holdings = l.holdings)
    (p : ChannelId → Bool) : l'.reservedOn p = l.reservedOn p :=
  HashMap.countWhere_congr LedgerEntry.holding (fun x => x.2.1 && p x.1) (congrFun h)

theorem reservedOn_insertQueued {l l' : LifecycleLedger} {entry : LedgerEntry} {max : Option Nat}
    (h : l.insertQueued entry max = .ok l') (p : ChannelId → Bool) :
    l'.reservedOn p =
      l.reservedOn p + if entry.reservations && p entry.channelId then 1 else 0 := by
  obtain ⟨hfresh, hrows, _⟩ := LifecycleLedger.insertQueued_ok h
  unfold LifecycleLedger.reservedOn
  rw [hrows]
  exact HashMap.countWhere_insert entry _ hfresh

theorem reservedOn_remove {l : LifecycleLedger} {e : LedgerEntry} (h : l.get tx = some e)
    (p : ChannelId → Bool) :
    (l.remove tx).1.reservedOn p + (if e.reservations && p e.channelId then 1 else 0) =
      l.reservedOn p := by
  have hrows : (l.remove tx).1.byTransaction = l.byTransaction.erase tx := by
    simp [LifecycleLedger.remove, h]
  unfold LifecycleLedger.reservedOn
  rw [hrows]
  exact HashMap.countWhere_erase (fun e => e.reservations && p e.channelId) h

theorem reservedOn_bindSession {l l' : LifecycleLedger} {key : SessionKey} {max : Option Nat}
    (h : l.bindSession tx key max = .ok l') (p : ChannelId → Bool) :
    l'.reservedOn p = l.reservedOn p := by
  obtain ⟨f, hget⟩ := LifecycleLedger.get_bindSession h
  refine HashMap.countWhere_congr (fun e : LedgerEntry => (e.channelId, e.reservations))
    (fun x => x.2 && p x.1) ?_
  intro k
  show (l'.get k).map _ = (l.get k).map _
  rw [hget]
  split
  · cases l.get k <;> rfl
  · rfl

/-- Taking the `n`th pending admission off the list. -/
theorem holders_eraseIdx {n : Nat} {a : PendingAdmission} (h : s.admitting[n]? = some a)
    (p : ChannelId → Bool) :
    (s.admitting.eraseIdx n).countP (fun a => p a.request.channelId) +
        (if p a.request.channelId then 1 else 0) =
      s.admitting.countP (fun a => p a.request.channelId) := by
  obtain ⟨hn, hget⟩ := List.getElem?_eq_some_iff.mp h
  have hperm : s.admitting.Perm (s.admitting[n] :: s.admitting.eraseIdx n) :=
    (List.getElem_cons_eraseIdx_perm hn).symm
  rw [hperm.countP_eq, List.countP_cons, hget]

/-- The pool counts exactly the holders, over the counts it was configured with,
and stays within the global bound. -/
structure Accounted (s : Runtime) : Prop where
  global : s.pool.globalActive = s.holders (fun _ => true)
  ledger : s.pool.ledgerActive = s.holders (fun _ => true)
  channel : ∀ c, s.pool.channelActive c =
    (ReservationPool.new s.config.maxActiveTransactions s.config.channelCapacity).channelActive c +
      s.holders (· = c)
  bounds : s.pool.bounds = (s.config.maxActiveTransactions, s.config.maxActiveTransactions)
  within : s.pool.globalActive ≤ s.config.maxActiveTransactions

/-- The same holders under the same pool are accounted for alike. -/
theorem Accounted.congr (h : Accounted s) (hconfig : s'.config = s.config)
    (hpool : s'.pool = s.pool) (hholders : ∀ p, s'.holders p = s.holders p) : Accounted s' where
  global := by rw [hpool, hholders, h.global]
  ledger := by rw [hpool, hholders, h.ledger]
  channel c := by rw [hpool, hholders, hconfig, h.channel]
  bounds := by rw [hpool, hconfig, h.bounds]
  within := by rw [hpool, hconfig]; exact h.within

/-- One holder more on `channel`, and one more of each kind counted. -/
theorem Accounted.oneMore {channel : ChannelId} (h : Accounted s) (hconfig : s'.config = s.config)
    (hpool : s.pool.OneMore s'.pool channel) (hbounds : s'.pool.bounds = s.pool.bounds)
    (hwithin : s.pool.globalActive < s.config.maxActiveTransactions)
    (hholders : ∀ p, s'.holders p = s.holders p + if p channel then 1 else 0) :
    Accounted s' where
  global := by simp [hpool.global, hholders, h.global]
  ledger := by simp [hpool.ledger, hholders, h.ledger]
  channel c := by
    rw [hholders, hconfig]
    by_cases hc : c = channel
    · subst hc
      simp [hpool.own, h.channel, Nat.add_assoc]
    · simp [hpool.other c hc, h.channel, Ne.symm hc]
  bounds := by rw [hbounds, hconfig, h.bounds]
  within := by rw [hpool.global, hconfig]; exact hwithin

/-- One holder less on `channel`: its bundle was counted, so the drop takes one
off each counter. -/
theorem Accounted.oneLess {channel : ChannelId} (h : Accounted s) (hconfig : s'.config = s.config)
    (hpool : s'.pool = s.pool.release channel)
    (hholders : ∀ p, s'.holders p + (if p channel then 1 else 0) = s.holders p) :
    s'.pool.OneMore s.pool channel ∧ Accounted s' := by
  have hall := hholders (fun _ => true)
  have hown := hholders (· = channel)
  simp only [if_true, decide_true] at hall hown
  have hmore : s'.pool.OneMore s.pool channel := by
    rw [hpool]
    apply ReservationPool.release_oneMore
    · rw [h.global]
      omega
    · rw [h.ledger]
      omega
    · rw [h.channel]
      omega
  refine ⟨hmore, ?_, ?_, ?_, ?_, ?_⟩
  · have := hmore.global
    have := h.global
    omega
  · have := hmore.ledger
    have := h.ledger
    omega
  · intro c
    rw [hconfig]
    have hbase := h.channel c
    by_cases hc : c = channel
    · subst hc
      have := hmore.own
      omega
    · have hsame := hholders (· = c)
      have := hmore.other c hc
      simp only [Ne.symm hc, decide_false, Bool.false_eq_true, if_false] at hsame
      omega
  · rw [hpool, hconfig]
    exact h.bounds
  · have := hmore.global
    have := h.within
    rw [hconfig]
    omega

theorem accounted_start (config : RuntimeConfig) : Accounted (Runtime.start config) where
  global := rfl
  ledger := rfl
  channel _ := rfl
  bounds := rfl
  within := Nat.zero_le _

/-- Steps that change neither rows nor pending admissions nor the pool. -/
theorem Accounted.of_held (h : Accounted s) (hconfig : s'.held.config = s.held.config)
    (hpool : s'.held.pool = s.held.pool) (hadmitting : s'.held.admitting = s.held.admitting)
    (hrows : s'.held.rows = s.held.rows) : Accounted s' := by
  refine h.congr hconfig hpool (fun p => ?_)
  have hsame : s'.admitting = s.admitting := hadmitting
  unfold Runtime.holders
  rw [hsame, reservedOn_congr hrows]

theorem Accounted.removed {e : LedgerEntry} (h : Accounted s) (hrow : s.ledger.get tx = some e)
    (hs : s'.held = s.removal tx e) : Accounted s' := by
  have hconfig : s'.config = s.config := congrArg Held.config hs
  have hadmitting : s'.admitting = s.admitting := congrArg Held.admitting hs
  have hrows : s'.ledger.holdings = (s.ledger.remove tx).1.holdings := congrArg Held.rows hs
  have hpool : s'.pool = if e.reservations then s.pool.release e.channelId else s.pool :=
    congrArg Held.pool hs
  have hholders : ∀ p, s'.holders p + (if e.reservations && p e.channelId then 1 else 0) =
      s.holders p := by
    intro p
    have := reservedOn_remove hrow p
    unfold Runtime.holders
    rw [hadmitting, reservedOn_congr hrows]
    omega
  cases hres : e.reservations with
  | true =>
      rw [hres, if_pos rfl] at hpool
      refine (h.oneLess hconfig hpool (fun p => ?_)).2
      simpa [hres] using hholders p
  | false =>
      rw [hres] at hpool
      refine h.congr hconfig hpool (fun p => ?_)
      simpa [hres] using hholders p

/-- A refused admission drops its reservation. -/
theorem Accounted.refused {n : Nat} {p : PendingAdmission} (h : Accounted s)
    (hp : s.admitting[n]? = some p)
    (hs : s' = { s with
      admitting := s.admitting.eraseIdx n
      pool := s.pool.release p.request.channelId }) :
    s'.pool.OneMore s.pool p.request.channelId ∧ Accounted s' := by
  refine h.oneLess (by rw [hs]) (by rw [hs]) (fun q => ?_)
  have hpending := holders_eraseIdx hp q
  simp only [hs, Runtime.holders]
  omega

theorem Accounted.step (h : Accounted s) (hs : HeldStep s s' a) : Accounted s' := by
  cases hs with
  | keeps hs => exact h.of_held (by rw [hs]) (by rw [hs]) (by rw [hs]) (by rw [hs])
  | quiesced state _ hs => exact h.of_held (by rw [hs]) (by rw [hs]) (by rw [hs]) (by rw [hs])
  | started tx rest _ hs => exact h.of_held (by rw [hs]) (by rw [hs]) (by rw [hs]) (by rw [hs])
  | bound tx key ledger hbind hs =>
      have hsame : Accounted { s with ledger } := by
        refine h.congr rfl rfl (fun p => ?_)
        simp only [Runtime.holders, reservedOn_bindSession hbind]
      exact hsame.of_held (by rw [hs]) (by rw [hs]) (by rw [hs]) (by rw [hs])
  | reserved request deadline pool _ _ hreserve hs =>
      subst hs
      obtain ⟨hmore, hbounds, hroom⟩ := ReservationPool.tryReserve_some hreserve
      refine h.oneMore rfl hmore hbounds ?_ (fun p => ?_)
      · have hmax : s.pool.maxGlobal = s.config.maxActiveTransactions :=
          congrArg Prod.fst h.bounds
        omega
      · simp only [Runtime.holders, List.countP_append, List.countP_singleton]
        omega
  | admitted n tx p _ hp _ hlocked =>
      -- the pending admission hands its reservation over to the new row
      obtain ⟨_, ledger, hins, rfl⟩ := admitLocked_inserts hlocked
      refine h.congr rfl rfl (fun q => ?_)
      have hpending := holders_eraseIdx hp q
      have hrow := reservedOn_insertQueued hins q
      simp only [Runtime.queuedEntry, Bool.true_and] at hrow
      simp only [Runtime.holders, Runtime.observe, hrow]
      omega
  | refused n tx p e _ hp _ hs => exact (h.refused hp hs).2
  | removed tx e hrow _ hs => exact h.removed hrow hs

/-- **Every reservation is accounted for** in every reachable state. -/
theorem accounted_reach {ok : Runtime → Action → Prop} (h : runtime.Reach ok s) :
    Accounted s := by
  refine h.invariant ?_ ?_
  · rintro s ⟨config, rfl⟩
    exact accounted_start config
  · intro s a s' _ hi _ hstep
    exact hi.step (step_held hstep)

end Monoloop.Lifecycle
