import Monoloop.Lib.Counting
import Monoloop.Lib.Transition
import Monoloop.Lib.Usize
import Monoloop.Lifecycle.Admission

/-!
# Reservations, one atomic operation at a time

`capacity.rs` takes a reservation through three compare-exchange loops, global,
channel, ledger, and rolls back with the drops of the permits it already has.
Any number of calls and drops run at once. Here every load, compare-exchange and
`fetch_sub` is a step of its own, and a call is its program counter. A
`fetch_sub` at zero wraps, as it does in the source.

`Settled` says what holds between any two atomic operations: a counter is the
number of calls that own one of its permits.
-/

namespace Monoloop.Lifecycle

open Transition (System always)

/-- `AtomicUsize::fetch_sub(1)`. -/
def fetchSub (x : Nat) : Nat := if x = 0 then usizeMax else x - 1

/-- Invalid reservation-pool construction. -/
inductive ReservationPoolError where
  | zeroGlobal
  | zeroChannel
deriving DecidableEq, Repr

/-- The loop of `try_new` over the configured channels. -/
def buildSlots : List (ChannelId × Nat) → HashMap ChannelId ChannelSlot →
    Except ReservationPoolError (HashMap ChannelId ChannelSlot)
  | [], slots => .ok slots
  | (id, max) :: rest, slots =>
      if max = 0 then .error .zeroChannel else buildSlots rest (slots.insert id ⟨max, 0⟩)

/-- Build from global and per-channel maxima; a zero capacity is an error. -/
def ReservationPool.tryNew (maxGlobal : Nat) (channels : List (ChannelId × Nat)) :
    Except ReservationPoolError ReservationPool :=
  if maxGlobal = 0 then .error .zeroGlobal
  else (buildSlots channels ∅).map (ReservationPool.new maxGlobal)

/-- The counters of the pool. -/
inductive Counter where
  | global
  | channel (c : ChannelId)
  | ledger
deriving DecidableEq

namespace ReservationPool

def count (pool : ReservationPool) : Counter → Nat
  | .global => pool.globalActive
  | .channel c => pool.channelActive c
  | .ledger => pool.ledgerActive

/-- The configured maximum; a channel that is not configured has none. -/
def limit (pool : ReservationPool) : Counter → Option Nat
  | .global => some pool.maxGlobal
  | .channel c => (pool.perChannel.lookup c).map (·.max)
  | .ledger => some pool.maxLedger

end ReservationPool

/-- The next atomic operation of a call, or how it ended. -/
inductive ReservePc where
  | loadGlobal
  | casGlobal (g : Nat)
  | loadChannel
  | casChannel (c : Nat)
  | loadLedger
  | casLedger (l : Nat)
  /-- Rollback of `try_reserve`: the permits drop in reverse order. -/
  | dropChannel
  | dropGlobal
  | refused
  | held
  /-- Drop of the reservation: ledger, channel, global. -/
  | releaseLedger
  | releaseChannel
  | releaseGlobal
  | released
deriving DecidableEq, Repr

/-- The call is on its way to `None`, or there. -/
def ReservePc.fails : ReservePc → Bool
  | .dropChannel | .dropGlobal | .refused => true
  | _ => false

/-- The call has returned. -/
def ReservePc.returned : ReservePc → Bool
  | .refused | .held | .releaseLedger | .releaseChannel | .releaseGlobal | .released => true
  | _ => false

/-- One call of `try_reserve`, with the life of the reservation it returns. -/
structure ReserveCall where
  channel : ChannelId
  pc : ReservePc
deriving DecidableEq

namespace ReserveCall

/-- The permits a call owns between two of its operations. -/
def owns (k : ReserveCall) : Counter → Bool
  | .global =>
      match k.pc with
      | .loadGlobal | .casGlobal _ | .refused | .released => false
      | _ => true
  | .channel c =>
      match k.pc with
      | .loadLedger | .casLedger _ | .dropChannel | .held | .releaseLedger | .releaseChannel =>
          c = k.channel
      | _ => false
  | .ledger =>
      match k.pc with
      | .held | .releaseLedger => true
      | _ => false

/-- The counter the next operation is a `fetch_sub` on. -/
def subtracts (k : ReserveCall) : Option Counter :=
  match k.pc with
  | .releaseLedger => some .ledger
  | .dropChannel | .releaseChannel => some (.channel k.channel)
  | .dropGlobal | .releaseGlobal => some .global
  | _ => none

/-- The counter the next operation is a compare-exchange on, and the value it
expects there. -/
def expects (k : ReserveCall) : Option (Counter × Nat) :=
  match k.pc with
  | .casGlobal g => some (.global, g)
  | .casChannel c => some (.channel k.channel, c)
  | .casLedger l => some (.ledger, l)
  | _ => none

/-- `let ch = self.per_channel.get(channel)?`. -/
def enter (pool : ReservationPool) (channel : ChannelId) : ReserveCall where
  channel := channel
  pc := if (pool.perChannel.lookup channel).isSome then .loadGlobal else .refused

def goto (k : ReserveCall) (pc : ReservePc) : ReserveCall := { k with pc }

/-- Drop of a `GlobalPermit`. -/
def dropGlobalPermit (pool : ReservationPool) : ReservationPool :=
  { pool with globalActive := fetchSub pool.globalActive }

/-- Drop of a `ChannelPermit`. -/
def dropChannelPermit (pool : ReservationPool) (channel : ChannelId) : ReservationPool :=
  { pool with perChannel := HashMap.modify pool.perChannel channel fun slot =>
      { slot with active := fetchSub slot.active } }

/-- Drop of a `LedgerPermit`. -/
def dropLedgerPermit (pool : ReservationPool) : ReservationPool :=
  { pool with ledgerActive := fetchSub pool.ledgerActive }

/-- One atomic operation of a call. -/
def operate (pool : ReservationPool) (k : ReserveCall) :
    Option (ReservationPool × ReserveCall) :=
  match k.pc with
  | .loadGlobal =>
      if pool.maxGlobal ≤ pool.globalActive then some (pool, k.goto .refused)
      else some (pool, k.goto (.casGlobal pool.globalActive))
  | .casGlobal g =>
      if pool.globalActive = g then
        some ({ pool with globalActive := g + 1 }, k.goto .loadChannel)
      else some (pool, k.goto .loadGlobal)
  | .loadChannel =>
      (pool.perChannel.lookup k.channel).map fun slot =>
        if slot.max ≤ slot.active then (pool, k.goto .dropGlobal)
        else (pool, k.goto (.casChannel slot.active))
  | .casChannel c =>
      (pool.perChannel.lookup k.channel).map fun slot =>
        if slot.active = c then
          ({ pool with perChannel := pool.perChannel.insert k.channel { slot with active := c + 1 } },
            k.goto .loadLedger)
        else (pool, k.goto .loadChannel)
  | .loadLedger =>
      if pool.maxLedger ≤ pool.ledgerActive then some (pool, k.goto .dropChannel)
      else some (pool, k.goto (.casLedger pool.ledgerActive))
  | .casLedger l =>
      if pool.ledgerActive = l then
        some ({ pool with ledgerActive := l + 1 }, k.goto .held)
      else some (pool, k.goto .loadLedger)
  | .dropChannel => some (dropChannelPermit pool k.channel, k.goto .dropGlobal)
  | .dropGlobal => some (dropGlobalPermit pool, k.goto .refused)
  | .releaseLedger => some (dropLedgerPermit pool, k.goto .releaseChannel)
  | .releaseChannel => some (dropChannelPermit pool k.channel, k.goto .releaseGlobal)
  | .releaseGlobal => some (dropGlobalPermit pool, k.goto .released)
  | .refused | .held | .released => none

end ReserveCall

/-- The pool and every call ever made on it. -/
structure PoolState where
  pool : ReservationPool
  calls : List ReserveCall

inductive PoolAction where
  /-- A thread calls `try_reserve`. -/
  | call (channel : ChannelId)
  /-- The `n`th call performs its next atomic operation. -/
  | operate (n : Nat)
  /-- The owner of the `n`th call's reservation drops it. -/
  | drop (n : Nat)
deriving DecidableEq

namespace PoolState

def step : PoolAction → PoolState → Option PoolState
  | .call channel, s => some { s with calls := s.calls ++ [.enter s.pool channel] }
  | .operate n, s =>
      s.calls[n]?.bind fun k => (k.operate s.pool).map fun (pool, k') =>
        { pool, calls := s.calls.set n k' }
  | .drop n, s =>
      s.calls[n]?.bind fun k =>
        if k.pc = .held then some { s with calls := s.calls.set n (k.goto .releaseLedger) }
        else none

end PoolState

/-- Concurrent reservations and drops on a pool fresh from `try_new`. -/
def reservationPool : System PoolState PoolAction where
  init s := s.calls = [] ∧ ∃ maxGlobal channels,
    ReservationPool.tryNew maxGlobal channels = .ok s.pool
  step := PoolState.step

/-! ## What one operation does -/

section Operate

variable {pool pool' : ReservationPool} {k k' : ReserveCall}

/-- The counters move with the permits of the call that operates, and a counter
goes up only from the value the call expected there. -/
structure Shifts (pool pool' : ReservationPool) (k k' : ReserveCall) : Prop where
  channel : k'.channel = k.channel
  limit : pool'.limit = pool.limit
  count : ∀ counter, pool'.count counter + (k.owns counter).toNat =
    pool.count counter + (k'.owns counter).toNat
  raised : ∀ counter, pool'.count counter ≤ pool.count counter ∨
    k.expects = some (counter, pool.count counter)
  read : ∀ counter v, k'.expects = some (counter, v) → ∀ m, pool.limit counter = some m → v < m

theorem fetchSub_add_one {x : Nat} (h : 0 < x) : fetchSub x + 1 = x := by
  unfold fetchSub
  split <;> omega

/-- An operation that only reads, or an exchange that fails. -/
theorem Shifts.stay {pc : ReservePc} (howns : ∀ counter, (k.goto pc).owns counter = k.owns counter)
    (hread : ∀ counter v, (k.goto pc).expects = some (counter, v) →
      ∀ m, pool.limit counter = some m → v < m) :
    Shifts pool pool k (k.goto pc) where
  channel := rfl
  limit := rfl
  count counter := by rw [howns]
  raised _ := .inl (Nat.le_refl _)
  read := hread

/-- What a write to the counter of one channel does. -/
theorem slot_written {channel : ChannelId} {slot : ChannelSlot} {x : Nat}
    {m : HashMap ChannelId ChannelSlot} (hslot : pool.perChannel.lookup channel = some slot)
    (hm : ∀ c, m.lookup c =
      if c = channel then some { slot with active := x } else pool.perChannel.lookup c) :
    ({ pool with perChannel := m } : ReservationPool).limit = pool.limit ∧
      ∀ c, ({ pool with perChannel := m } : ReservationPool).channelActive c =
        if c = channel then x else pool.channelActive c := by
  constructor
  · funext counter
    cases counter with
    | global => rfl
    | ledger => rfl
    | channel c =>
        show (m.lookup c).map (·.max) = (pool.perChannel.lookup c).map (·.max)
        rw [hm]
        by_cases hc : c = channel
        · subst hc
          rw [if_pos rfl, hslot]
          rfl
        · rw [if_neg hc]
  · intro c
    show ((m.lookup c).map (·.active)).getD 0 = _
    rw [hm]
    by_cases hc : c = channel
    · simp [hc]
    · simp [hc, ReservationPool.channelActive]

/-- A compare-exchange that succeeds. -/
theorem Shifts.take {pc : ReservePc} (counter : Counter)
    (hexpects : k.expects = some (counter, pool.count counter)) (hlimit : pool'.limit = pool.limit)
    (hcount : ∀ c, pool'.count c = pool.count c + if c = counter then 1 else 0)
    (howns : ∀ c, ((k.goto pc).owns c).toNat = (k.owns c).toNat + if c = counter then 1 else 0)
    (hread : (k.goto pc).expects = none) : Shifts pool pool' k (k.goto pc) where
  channel := rfl
  limit := hlimit
  count c := by
    rw [hcount, howns]
    omega
  raised c := by
    by_cases hc : c = counter
    · subst hc
      exact .inr hexpects
    · left
      rw [hcount, if_neg hc]
      omega
  read c v h := by
    rw [hread] at h
    cases h

/-- The drop of a permit. -/
theorem Shifts.give {pc : ReservePc} (counter : Counter) (hlimit : pool'.limit = pool.limit)
    (hcount : ∀ c, (pool'.count c + if c = counter then 1 else 0) = pool.count c)
    (howns : ∀ c, (((k.goto pc).owns c).toNat + if c = counter then 1 else 0) = (k.owns c).toNat)
    (hread : (k.goto pc).expects = none) : Shifts pool pool' k (k.goto pc) where
  channel := rfl
  limit := hlimit
  count c := by
    rw [← hcount, ← howns]
    omega
  raised c := by
    left
    rw [← hcount]
    omega
  read c v h := by
    rw [hread] at h
    cases h

theorem dropGlobalPermit_count (h : 0 < pool.count .global) (c : Counter) :
    ((ReserveCall.dropGlobalPermit pool).count c + if c = .global then 1 else 0) =
      pool.count c := by
  cases c with
  | global => exact fetchSub_add_one h
  | channel c => rfl
  | ledger => rfl

theorem dropLedgerPermit_count (h : 0 < pool.count .ledger) (c : Counter) :
    ((ReserveCall.dropLedgerPermit pool).count c + if c = .ledger then 1 else 0) =
      pool.count c := by
  cases c with
  | global => rfl
  | channel c => rfl
  | ledger => exact fetchSub_add_one h

theorem dropChannelPermit_spec {channel : ChannelId} (h : 0 < pool.count (.channel channel)) :
    (ReserveCall.dropChannelPermit pool channel).limit = pool.limit ∧
      ∀ c, ((ReserveCall.dropChannelPermit pool channel).count c +
        if c = .channel channel then 1 else 0) = pool.count c := by
  rcases hslot : pool.perChannel.lookup channel with _ | slot
  · simp [ReservationPool.count, ReservationPool.channelActive, hslot] at h
  · have hactive : pool.channelActive channel = slot.active := by
      simp [ReservationPool.channelActive, hslot]
    have hm : ∀ c, (HashMap.modify pool.perChannel channel fun slot =>
          { slot with active := fetchSub slot.active }).lookup c =
        if c = channel then some { slot with active := fetchSub slot.active }
        else pool.perChannel.lookup c := by
      intro c
      rw [HashMap.lookup_modify]
      by_cases hc : c = channel
      · subst hc
        simp [hslot]
      · simp [hc]
    obtain ⟨hlimit, hcount⟩ := slot_written hslot hm
    refine ⟨hlimit, ?_⟩
    intro c
    cases c with
    | global => rfl
    | ledger => rfl
    | channel c =>
        show (ReservationPool.channelActive _ c + _) = pool.channelActive c
        rw [ReserveCall.dropChannelPermit, hcount]
        by_cases hc : c = channel
        · subst hc
          have hpos : 0 < slot.active := hactive ▸ h
          rw [if_pos rfl, if_pos rfl, hactive]
          exact fetchSub_add_one hpos
        · rw [if_neg hc, if_neg (by simpa using hc)]
          rfl

/-- A channel exchange that succeeds. -/
theorem takeChannel_spec {channel : ChannelId} {slot : ChannelSlot}
    (hslot : pool.perChannel.lookup channel = some slot) :
    let pool' : ReservationPool :=
      { pool with perChannel := pool.perChannel.insert channel { slot with active := slot.active + 1 } }
    pool'.limit = pool.limit ∧
      ∀ c, pool'.count c = pool.count c + if c = .channel channel then 1 else 0 := by
  have hactive : pool.channelActive channel = slot.active := by
    simp [ReservationPool.channelActive, hslot]
  obtain ⟨hlimit, hcount⟩ := slot_written hslot
    (fun c => HashMap.lookup_insert_ite pool.perChannel c channel
      { slot with active := slot.active + 1 })
  refine ⟨hlimit, ?_⟩
  intro c
  cases c with
  | global => rfl
  | ledger => rfl
  | channel c =>
      show ReservationPool.channelActive _ c = pool.channelActive c + _
      rw [hcount]
      by_cases hc : c = channel
      · subst hc
        rw [if_pos rfl, if_pos rfl, hactive]
      · rw [if_neg hc, if_neg (by simpa using hc)]
        rfl

/-- **One operation**, given that a `fetch_sub` does not wrap. -/
theorem operate_shifts (h : k.operate pool = some (pool', k'))
    (hsub : ∀ counter, k.subtracts = some counter → 0 < pool.count counter) :
    Shifts pool pool' k k' := by
  obtain ⟨channel, pc⟩ := k
  cases pc with
  | loadGlobal =>
      simp only [ReserveCall.operate] at h
      split at h
      · cases h
        exact .stay (fun c => by cases c <;> rfl) (fun c v hv => by cases hv)
      · rename_i hfree
        cases h
        refine .stay (fun c => by cases c <;> rfl) ?_
        intro c v hv m hm
        cases hv
        cases hm
        exact Nat.lt_of_not_le hfree
  | casGlobal g =>
      simp only [ReserveCall.operate] at h
      split at h
      · rename_i hg
        cases h
        subst hg
        refine .take .global rfl rfl ?_ ?_ rfl
        · intro c
          cases c <;> rfl
        · intro c
          cases c <;> rfl
      · cases h
        exact .stay (fun c => by cases c <;> rfl) (fun c v hv => by cases hv)
  | loadChannel =>
      simp only [ReserveCall.operate, Option.map_eq_some_iff] at h
      obtain ⟨slot, hslot, h⟩ := h
      split at h
      · cases h
        exact .stay (fun c => by cases c <;> rfl) (fun c v hv => by cases hv)
      · rename_i hfree
        cases h
        refine .stay (fun c => by cases c <;> rfl) ?_
        intro c v hv m hm
        cases hv
        have hmax : some slot.max = some m := by
          rw [← hm]
          show _ = (pool.perChannel.lookup channel).map (·.max)
          rw [hslot]
          rfl
        cases hmax
        exact Nat.lt_of_not_le hfree
  | casChannel x =>
      simp only [ReserveCall.operate, Option.map_eq_some_iff] at h
      obtain ⟨slot, hslot, h⟩ := h
      split at h
      · rename_i hx
        cases h
        subst hx
        obtain ⟨hlimit, hcount⟩ := takeChannel_spec hslot
        refine .take (.channel channel) ?_ hlimit hcount ?_ rfl
        · simp [ReserveCall.expects, ReservationPool.count, ReservationPool.channelActive, hslot]
        · intro c
          cases c with
          | global => rfl
          | ledger => rfl
          | channel c => by_cases hc : c = channel <;> simp [ReserveCall.owns, ReserveCall.goto, hc]
      · cases h
        exact .stay (fun c => by cases c <;> rfl) (fun c v hv => by cases hv)
  | loadLedger =>
      simp only [ReserveCall.operate] at h
      split at h
      · cases h
        exact .stay (fun c => by cases c <;> rfl) (fun c v hv => by cases hv)
      · rename_i hfree
        cases h
        refine .stay (fun c => by cases c <;> rfl) ?_
        intro c v hv m hm
        cases hv
        cases hm
        exact Nat.lt_of_not_le hfree
  | casLedger l =>
      simp only [ReserveCall.operate] at h
      split at h
      · rename_i hl
        cases h
        subst hl
        refine .take .ledger rfl rfl ?_ ?_ rfl
        · intro c
          cases c <;> rfl
        · intro c
          cases c <;> rfl
      · cases h
        exact .stay (fun c => by cases c <;> rfl) (fun c v hv => by cases hv)
  | dropChannel =>
      cases h
      obtain ⟨hlimit, hcount⟩ := dropChannelPermit_spec (hsub _ rfl)
      refine .give (.channel channel) hlimit hcount ?_ rfl
      intro c
      cases c with
      | global => rfl
      | ledger => rfl
      | channel c => by_cases hc : c = channel <;> simp [ReserveCall.owns, ReserveCall.goto, hc]
  | dropGlobal =>
      cases h
      refine .give .global rfl (dropGlobalPermit_count (hsub _ rfl)) ?_ rfl
      intro c
      cases c <;> rfl
  | releaseLedger =>
      cases h
      refine .give .ledger rfl (dropLedgerPermit_count (hsub _ rfl)) ?_ rfl
      intro c
      cases c <;> rfl
  | releaseChannel =>
      cases h
      obtain ⟨hlimit, hcount⟩ := dropChannelPermit_spec (hsub _ rfl)
      refine .give (.channel channel) hlimit hcount ?_ rfl
      intro c
      cases c with
      | global => rfl
      | ledger => rfl
      | channel c => by_cases hc : c = channel <;> simp [ReserveCall.owns, ReserveCall.goto, hc]
  | releaseGlobal =>
      cases h
      refine .give .global rfl (dropGlobalPermit_count (hsub _ rfl)) ?_ rfl
      intro c
      cases c <;> rfl
  | refused => cases h
  | held => cases h
  | released => cases h

end Operate

/-! ## Any number of calls -/

variable {s s' : PoolState} {a : PoolAction} {n : Nat} {k : ReserveCall}

/-- What holds between any two atomic operations. -/
structure Settled (s : PoolState) : Prop where
  count : ∀ counter, s.pool.count counter = s.calls.countP (·.owns counter)
  within : ∀ counter m, s.pool.limit counter = some m → s.pool.count counter ≤ m
  read : ∀ k ∈ s.calls, ∀ counter v, k.expects = some (counter, v) →
    ∀ m, s.pool.limit counter = some m → v < m
  configured : ∀ k ∈ s.calls, k.pc ≠ .refused → (s.pool.limit (.channel k.channel)).isSome
  ledger : s.pool.limit .ledger = s.pool.limit .global

theorem subtracts_owned {counter : Counter} (h : k.subtracts = some counter) :
    k.owns counter = true := by
  obtain ⟨channel, pc⟩ := k
  cases pc <;> cases h <;> simp [ReserveCall.owns]

/-- No `fetch_sub` wraps. -/
theorem Settled.positive (h : Settled s) (hk : k ∈ s.calls) {counter : Counter}
    (howns : k.owns counter = true) : 0 < s.pool.count counter := by
  rw [h.count, List.countP_pos_iff]
  exact ⟨k, hk, howns⟩

/-- What a step can do: a new call that owns nothing, or a move of one call. -/
theorem Settled.step_cases (h : Settled s) (hs : reservationPool.step a s = some s') :
    (∃ channel, a = .call channel ∧
      s' = { s with calls := s.calls ++ [.enter s.pool channel] }) ∨
    ∃ n k k', s.calls[n]? = some k ∧ Shifts s.pool s'.pool k k' ∧ s'.calls = s.calls.set n k' ∧
      (a = .operate n ∧ k.operate s.pool = some (s'.pool, k') ∨
        a = .drop n ∧ k.pc = .held ∧ k' = k.goto .releaseLedger ∧ s'.pool = s.pool) := by
  cases a with
  | call channel =>
      left
      exact ⟨channel, rfl, (Option.some.inj hs).symm⟩
  | operate n =>
      right
      simp only [reservationPool, PoolState.step, Option.bind_eq_some_iff,
        Option.map_eq_some_iff] at hs
      obtain ⟨k, hk, ⟨pool, k'⟩, hop, rfl⟩ := hs
      have hmem : k ∈ s.calls := List.mem_of_getElem? hk
      have hshift := operate_shifts hop
        (fun counter hsub => h.positive hmem (subtracts_owned hsub))
      exact ⟨n, k, k', hk, hshift, rfl, .inl ⟨rfl, hop⟩⟩
  | drop n =>
      right
      simp only [reservationPool, PoolState.step, Option.bind_eq_some_iff] at hs
      obtain ⟨k, hk, hs⟩ := hs
      split at hs
      · rename_i hheld
        cases hs
        have hshift : Shifts s.pool s.pool k (k.goto .releaseLedger) := by
          obtain ⟨channel, pc⟩ := k
          cases hheld
          exact .stay (fun c => by cases c <;> rfl) (fun c v hv => by cases hv)
        exact ⟨n, k, _, hk, hshift, rfl, .inr ⟨rfl, hheld, rfl, rfl⟩⟩
      · cases hs

theorem enter_owns (pool : ReservationPool) (channel : ChannelId) (counter : Counter) :
    (ReserveCall.enter pool channel).owns counter = false := by
  unfold ReserveCall.enter
  cases (pool.perChannel.lookup channel).isSome <;> cases counter <;> rfl

theorem enter_expects (pool : ReservationPool) (channel : ChannelId) :
    (ReserveCall.enter pool channel).expects = none := by
  unfold ReserveCall.enter
  cases (pool.perChannel.lookup channel).isSome <;> rfl

/-- A call that is refused stays so. -/
theorem refused_final {pool pool' : ReservationPool} {k' : ReserveCall} (hpc : k.pc = .refused) :
    k.operate pool ≠ some (pool', k') := by
  intro h
  simp [ReserveCall.operate, hpc] at h

theorem Settled.step (h : Settled s) (hs : reservationPool.step a s = some s') : Settled s' := by
  rcases h.step_cases hs with ⟨channel, -, rfl⟩ | ⟨n, k, k', hk, hshift, hcalls, hact⟩
  · refine ⟨?_, h.within, ?_, ?_, h.ledger⟩
    · intro counter
      rw [List.countP_append, List.countP_singleton, enter_owns]
      exact h.count counter
    · intro k hk
      rcases List.mem_append.mp hk with hk | hk
      · exact h.read k hk
      · cases List.mem_singleton.mp hk
        rw [enter_expects]
        intro _ _ hv
        cases hv
    · intro k hk hpc
      rcases List.mem_append.mp hk with hk | hk
      · exact h.configured k hk hpc
      · cases List.mem_singleton.mp hk
        show ((s.pool.perChannel.lookup channel).map (·.max)).isSome
        rw [Option.isSome_map]
        -- an unconfigured channel is refused on entry
        by_contra hnone
        exact hpc (by simp [ReserveCall.enter, hnone])
  · have hmem : k ∈ s.calls := List.mem_of_getElem? hk
    have hmem' : ∀ j ∈ s'.calls, j ∈ s.calls ∨ j = k' := by
      intro j hj
      rw [hcalls] at hj
      exact List.mem_or_eq_of_mem_set hj
    refine ⟨?_, ?_, ?_, ?_, ?_⟩
    · intro counter
      have hset := Counting.countP_set_toNat (·.owns counter) k' hk
      have hcount := hshift.count counter
      rw [h.count] at hcount
      rw [hcalls]
      omega
    · intro counter m hm
      rw [hshift.limit] at hm
      rcases hshift.raised counter with hle | hexpects
      · exact Nat.le_trans hle (h.within counter m hm)
      · have hlt := h.read k hmem counter _ hexpects m hm
        have hcount := hshift.count counter
        have hone := Bool.toNat_le (k'.owns counter)
        omega
    · intro j hj counter v hv m hm
      rw [hshift.limit] at hm
      rcases hmem' j hj with hj | rfl
      · exact h.read j hj counter v hv m hm
      · exact hshift.read counter v hv m hm
    · intro j hj hpc
      rw [hshift.limit]
      rcases hmem' j hj with hj | rfl
      · exact h.configured j hj hpc
      · rw [hshift.channel]
        apply h.configured k hmem
        intro hrefused
        rcases hact with ⟨-, hop⟩ | ⟨-, hheld, -⟩
        · exact refused_final hrefused hop
        · rw [hrefused] at hheld
          cases hheld
    · rw [hshift.limit]
      exact h.ledger

/-- The slots of a fresh pool count nothing. -/
theorem buildSlots_active {channels : List (ChannelId × Nat)}
    {slots built : HashMap ChannelId ChannelSlot} (h : buildSlots channels slots = .ok built)
    (hslots : ∀ c slot, slots.lookup c = some slot → slot.active = 0) :
    ∀ c slot, built.lookup c = some slot → slot.active = 0 := by
  induction channels generalizing slots with
  | nil =>
      cases h
      exact hslots
  | cons entry rest ih =>
      simp only [buildSlots] at h
      split at h
      · cases h
      · apply ih h
        intro c slot hslot
        rw [HashMap.lookup_insert_ite] at hslot
        split at hslot
        · cases hslot
          rfl
        · exact hslots c slot hslot

theorem Settled.init (h : reservationPool.init s) : Settled s := by
  obtain ⟨pool, calls⟩ := s
  obtain ⟨rfl, maxGlobal, channels, hnew⟩ := h
  unfold ReservationPool.tryNew at hnew
  split at hnew
  · cases hnew
  · cases hslots : buildSlots channels ∅ with
    | error e =>
        rw [hslots] at hnew
        cases hnew
    | ok built =>
        rw [hslots] at hnew
        cases hnew
        have hzero : ∀ counter, (ReservationPool.new maxGlobal built).count counter = 0 := by
          intro counter
          cases counter with
          | global => rfl
          | ledger => rfl
          | channel c =>
              show ((built.lookup c).map (·.active)).getD 0 = 0
              cases hc : built.lookup c with
              | none => rfl
              | some slot => exact buildSlots_active hslots (by simp) c slot hc
        refine ⟨?_, ?_, ?_, ?_, rfl⟩
        · intro counter
          exact hzero counter
        · intro counter m _
          show (ReservationPool.new maxGlobal built).count counter ≤ m
          rw [hzero]
          omega
        · intro k hk
          cases hk
        · intro k hk
          cases hk

theorem settled_reach (h : reservationPool.Reach always s) : Settled s :=
  h.invariant (fun _ h₀ => .init h₀) (fun _ _ _ _ hset _ hs => hset.step hs)

/-- A call that has not returned can always perform its next operation. -/
theorem Settled.enabled (h : Settled s) (hk : s.calls[n]? = some k) (hpc : k.pc.returned = false) :
    ∃ s', reservationPool.step (.operate n) s = some s' := by
  have hconf := h.configured k (List.mem_of_getElem? hk)
  simp only [ReservationPool.limit, Option.isSome_map] at hconf
  -- only the two operations on the channel's slot can fail, and the slot is there
  have hslot : k.pc ≠ .refused → ∃ slot, s.pool.perChannel.lookup k.channel = some slot := by
    intro hne
    exact Option.isSome_iff_exists.mp (hconf hne)
  have hop : ∃ pool k', k.operate s.pool = some (pool, k') := by
    unfold ReserveCall.operate
    cases hcase : k.pc with
    | refused | held | released =>
        rw [hcase] at hpc
        cases hpc
    | loadGlobal | casGlobal | loadLedger | casLedger =>
        dsimp only
        split
        · exact ⟨_, _, rfl⟩
        · exact ⟨_, _, rfl⟩
    | loadChannel | casChannel =>
        obtain ⟨slot, hlookup⟩ := hslot (by rw [hcase]; intro heq; cases heq)
        dsimp only
        rw [hlookup, Option.map_some]
        exact ⟨_, _, rfl⟩
    | dropChannel | dropGlobal | releaseLedger | releaseChannel | releaseGlobal =>
        exact ⟨_, _, rfl⟩
  obtain ⟨pool, k', hop⟩ := hop
  exact ⟨⟨pool, s.calls.set n k'⟩, by simp [reservationPool, PoolState.step, hk, hop]⟩

/-! ## The net change of one call -/

/-- What the operations of the `n`th call add to a counter over a run. -/
def netChange (n : Nat) (counter : Counter) : List PoolAction → PoolState → Int
  | [], _ => 0
  | a :: rest, s =>
      match reservationPool.step a s with
      | none => 0
      | some s' =>
          (if a = .operate n then (s'.pool.count counter : Int) - s.pool.count counter else 0) +
            netChange n counter rest s'

/-- The permit of `counter` the `n`th call owns. -/
def PoolState.share (s : PoolState) (n : Nat) (counter : Counter) : Nat :=
  (s.calls[n]?.any (·.owns counter)).toNat

/-- A step of the `n`th call changes a counter by its own share; no other step
changes that share. -/
theorem Settled.share_step (h : Settled s) (hs : reservationPool.step a s = some s')
    (n : Nat) (counter : Counter) :
    (if a = .operate n then (s'.pool.count counter : Int) - s.pool.count counter else 0) =
      (s'.share n counter : Int) - s.share n counter := by
  rcases h.step_cases hs with ⟨channel, rfl, rfl⟩ | ⟨m, k, k', hk, hshift, hcalls, hact⟩
  · have hshare : ({ s with calls := s.calls ++ [.enter s.pool channel] } : PoolState).share n
        counter = s.share n counter := by
      unfold PoolState.share
      rcases Nat.lt_trichotomy n s.calls.length with hn | hn | hn
      · rw [List.getElem?_append_left hn]
      · subst hn
        simp [enter_owns]
      · rw [List.getElem?_eq_none (by simp; omega), List.getElem?_eq_none (by omega)]
    rw [hshare]
    simp
  · have hcount := hshift.count counter
    have hm : m < s.calls.length := (List.getElem?_eq_some_iff.mp hk).1
    by_cases hn : m = n
    · subst hn
      have hshare : s.share m counter = (k.owns counter).toNat := by
        simp [PoolState.share, hk]
      have hshare' : s'.share m counter = (k'.owns counter).toNat := by
        simp [PoolState.share, hcalls, List.getElem?_set_self hm]
      rw [hshare, hshare']
      rcases hact with ⟨rfl, -⟩ | ⟨rfl, -, -, hpool⟩
      · rw [if_pos rfl]
        omega
      · rw [hpool] at hcount
        rw [if_neg (by simp)]
        omega
    · have hshare : s'.share n counter = s.share n counter := by
        simp [PoolState.share, hcalls, List.getElem?_set_ne hn]
      have hact' : a ≠ .operate n := by
        rintro rfl
        rcases hact with ⟨heq, -⟩ | ⟨heq, -⟩
        · exact hn (by cases heq; rfl)
        · cases heq
      rw [hshare, if_neg hact']
      omega

theorem netChange_eq (n : Nat) (counter : Counter) {as : List PoolAction}
    (h : reservationPool.Reach always s) (hrun : reservationPool.run as s = some s') :
    netChange n counter as s = (s'.share n counter : Int) - s.share n counter := by
  induction as generalizing s with
  | nil =>
      cases hrun
      simp [netChange]
  | cons a rest ih =>
      simp only [System.run, Option.bind_eq_some_iff] at hrun
      obtain ⟨u, hu, hrest⟩ := hrun
      have hfirst := (settled_reach h).share_step hu n counter
      have htail := ih (.step h trivial hu) hrest
      simp only [netChange, hu, hfirst, htail]
      omega

/-- **The reservation pool at every interleaving point.** A counter is the number
of calls, completed or in flight, that own one of its permits; it stays within the
configured maximum; no `fetch_sub` meets a zero; and a call that returned `None`
has changed no counter. -/
theorem reservation_counters {s₀ : PoolState} {as : List PoolAction}
    (h₀ : reservationPool.init s₀) (hrun : reservationPool.run as s₀ = some s) :
    (∀ counter, s.pool.count counter = s.calls.countP (·.owns counter)) ∧
    (∀ counter m, s.pool.limit counter = some m → s.pool.count counter ≤ m) ∧
    (∀ k ∈ s.calls, ∀ counter, k.subtracts = some counter → 0 < s.pool.count counter) ∧
    ∀ n k, s.calls[n]? = some k → k.pc = .refused → ∀ counter, netChange n counter as s₀ = 0 := by
  have hreach := System.run_reach (.init h₀) hrun
  have hset := settled_reach hreach
  refine ⟨hset.count, hset.within, ?_, ?_⟩
  · intro k hk counter hsub
    exact hset.positive hk (subtracts_owned hsub)
  · intro n k hk hpc counter
    have hfresh : s₀.share n counter = 0 := by
      simp [PoolState.share, h₀.1]
    have hnone : s.share n counter = 0 := by
      obtain ⟨channel, pc⟩ := k
      cases hpc
      cases counter <;> simp [PoolState.share, hk, ReserveCall.owns]
    rw [netChange_eq n counter (.init h₀) hrun, hnone, hfresh]
    rfl

def narrowChannel : ChannelId := ⟨"narrow", by decide⟩

def wideChannel : ChannelId := ⟨"wide", by decide⟩

/-- Room for two reservations, one on each channel. -/
def twoChannelPool : PoolState where
  pool := .new 2 (((∅ : HashMap ChannelId ChannelSlot).insert narrowChannel ⟨1, 0⟩).insert
    wideChannel ⟨1, 0⟩)
  calls := []

theorem twoChannelPool_init : reservationPool.init twoChannelPool :=
  ⟨rfl, 2, [(narrowChannel, 1), (wideChannel, 1)], by rfl⟩

/-- The first call takes the only permit of its channel. -/
def narrowHeld : List PoolAction :=
  .call narrowChannel :: List.replicate 6 (.operate 0)

/-- A second call on the same channel. -/
def narrowTwice : List PoolAction :=
  narrowHeld ++ .call narrowChannel :: List.replicate 4 (.operate 1)

/-- Two calls on one channel of size one: the second finds the channel full. -/
theorem narrow_refused_run : ∃ s, reservationPool.run narrowTwice twoChannelPool = some s ∧
    s.calls[1]? = some ⟨narrowChannel, .refused⟩ := by
  have hrun : (reservationPool.run narrowTwice twoChannelPool).any
      (fun s => s.calls[1]? = some ⟨narrowChannel, .refused⟩) = true := by decide +kernel
  rw [Option.any_eq_true] at hrun
  obtain ⟨s, hrun, hs⟩ := hrun
  exact ⟨s, hrun, of_decide_eq_true hs⟩

/-- The refused call leaves nothing behind. -/
theorem second_narrow_call_nets_zero : ∃ s,
    reservationPool.run narrowTwice twoChannelPool = some s ∧
    s.calls[1]? = some ⟨narrowChannel, .refused⟩ ∧
    s.pool.count .global = s.calls.countP (·.owns .global) ∧
    netChange 1 .global narrowTwice twoChannelPool = 0 := by
  obtain ⟨s, hrun, hrefused⟩ := narrow_refused_run
  obtain ⟨hcount, -, -, hnet⟩ := reservation_counters twoChannelPool_init hrun
  exact ⟨s, hrun, hrefused, hcount .global, hnet 1 _ hrefused rfl .global⟩

end Monoloop.Lifecycle
