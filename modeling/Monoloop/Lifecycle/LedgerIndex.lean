import Monoloop.Lib.InPlace
import Monoloop.Lib.Transition
import Monoloop.Lifecycle.Ledger

/-!
# The session index over whole runs

`Ledger` states the three operations as functions that return a new ledger, so
an error cannot leave a half-made change behind. The source mutates `&mut self`
and returns early. Here each operation is written once more the way the source
runs it, as a program over the ledger whose writes survive an error, and is
shown to be the function of `Ledger`: the early returns all come before the
first write.

Over runs of these operations the index and the rows' session keys are mutually
inverse, and a channel whose calls all pass the same limit never holds more
distinct sessions than that limit.
-/

namespace Monoloop.Lifecycle

open Transition

/-- A ledger method as the source runs it. -/
abbrev LedgerCall := InPlace LedgerInsertError LifecycleLedger

namespace LedgerCall

/-- `insert_queued`, statement by statement. -/
def insertQueued (entry : LedgerEntry) (maxDistinctSessions : Option Nat) : LedgerCall Unit := do
  if ((← get).byTransaction.lookup entry.transactionId).isSome then
    throw .duplicateTransaction
  if let some key := entry.sessionKey then
    if ((← get).bySession.lookup key).isSome then
      throw .sessionAlreadyActive
    if let some max := maxDistinctSessions then
      if max ≤ (← get).distinctSessionsOnChannel key.channelId then
        throw .distinctSessionsExceeded
  if let some key := entry.sessionKey then
    modify fun l => { l with bySession := l.bySession.insert key entry.transactionId }
  modify fun l =>
    { l with byTransaction := l.byTransaction.insert entry.transactionId entry }

/-- `remove`, statement by statement. -/
def remove (id : TransactionId) : LedgerCall (Option LedgerEntry) := do
  let some entry := (← get).byTransaction.lookup id | return none
  modify fun l => { l with byTransaction := l.byTransaction.erase id }
  if let some key := entry.sessionKey then
    if (← get).bySession.lookup key = some id then
      modify fun l => { l with bySession := l.bySession.erase key }
  return some entry

/-- `bind_session`, statement by statement; the row is looked up a second time
for the write, as `get_mut`. -/
def bindSession (id : TransactionId) (key : SessionKey) (maxDistinctSessions : Option Nat) :
    LedgerCall Unit := do
  if let some holder := (← get).bySession.lookup key then
    if holder ≠ id then
      throw .sessionAlreadyActive
    return
  let some row := (← get).byTransaction.lookup id | throw .unknownTransaction
  let replacingSameChannel := row.sessionKey.any (·.channelId = key.channelId)
  if let some max := maxDistinctSessions then
    if !replacingSameChannel && max ≤ (← get).distinctSessionsOnChannel key.channelId then
      throw .distinctSessionsExceeded
  let some entry := (← get).byTransaction.lookup id | throw .unknownTransaction
  if let some old := entry.sessionKey then
    modify fun l => { l with bySession := l.bySession.erase old }
  modify fun l =>
    { l with byTransaction := l.byTransaction.insert id { entry with sessionKey := some key } }
  modify fun l => { l with bySession := l.bySession.insert key id }

end LedgerCall

/-- What a function of `Ledger` says about a call in place: the new ledger on
success, the old one on an error. -/
def LifecycleLedger.settled (l : LifecycleLedger) :
    Except LedgerInsertError LifecycleLedger → Except LedgerInsertError Unit × LifecycleLedger
  | .ok l' => (.ok (), l')
  | .error e => (.error e, l)

namespace LifecycleLedger

/-- The early returns of `insert_queued` all come before its first write. -/
theorem call_insertQueued (l : LifecycleLedger) (entry : LedgerEntry) (max : Option Nat) :
    InPlace.call (LedgerCall.insertQueued entry max) l = l.settled (l.insertQueued entry max) := by
  unfold LedgerCall.insertQueued insertQueued
  by_cases hdup : (l.byTransaction.lookup entry.transactionId).isSome
  · simp [hdup, settled, get]
  · rcases entry.sessionKey with _ | key
    · simp [hdup, settled, get]
    · by_cases hactive : (l.bySession.lookup key).isSome
      · simp [hdup, hactive, settled, get, sessionActive]
      · rcases max with _ | max
        · simp [hdup, hactive, settled, get, sessionActive, distinctSessionsExceeded]
        · by_cases hmax : max ≤ l.distinctSessionsOnChannel key.channelId <;>
            simp [hdup, hactive, hmax, settled, get, sessionActive, distinctSessionsExceeded]

/-- The same of `bind_session`; its second lookup of the row cannot miss. -/
theorem call_bindSession (l : LifecycleLedger) (id : TransactionId) (key : SessionKey)
    (max : Option Nat) :
    InPlace.call (LedgerCall.bindSession id key max) l = l.settled (l.bindSession id key max) := by
  unfold LedgerCall.bindSession bindSession
  rcases hholder : l.bySession.lookup key with _ | holder
  · rcases hrow : l.byTransaction.lookup id with _ | row
    · simp [hholder, hrow, settled, get]
    · rcases max with _ | max
      · rcases hold : row.sessionKey with _ | old <;>
          simp [hholder, hrow, hold, settled, get, distinctSessionsExceeded]
      · by_cases hmax : max ≤ l.distinctSessionsOnChannel key.channelId
        · rcases hold : row.sessionKey with _ | old
          · simp [hholder, hrow, hold, hmax, settled, get, distinctSessionsExceeded]
          · by_cases hsame : old.channelId = key.channelId <;>
              simp [hholder, hrow, hold, hmax, hsame, settled, get, distinctSessionsExceeded]
        · rcases hold : row.sessionKey with _ | old <;>
            simp [hholder, hrow, hold, hmax, settled, get, distinctSessionsExceeded]
  · by_cases hown : holder = id <;> simp [hholder, hown, settled]

theorem call_remove (l : LifecycleLedger) (id : TransactionId) :
    InPlace.call (LedgerCall.remove id) l = (.ok (l.remove id).2, (l.remove id).1) := by
  unfold LedgerCall.remove remove
  rcases hrow : l.byTransaction.lookup id with _ | row
  · simp [hrow, get]
  · rcases hkey : row.sessionKey with _ | key
    · simp [hrow, hkey, get]
    · by_cases hown : l.bySession.lookup key = some id <;> simp [hrow, hkey, hown, get]

/-! ## The index is the inverse of the rows' session keys -/

/-- A session maps to a transaction exactly when that transaction's row carries
the session. -/
def IndexInverse (l : LifecycleLedger) : Prop :=
  ∀ key tx, l.bySession.lookup key = some tx ↔
    ∃ row, l.get tx = some row ∧ row.sessionKey = some key

variable {l l' : LifecycleLedger}

theorem indexInverse_new : IndexInverse new := by
  intro key tx
  simp [new, get]

/-- Two rows that carry one session are the same row. -/
theorem IndexInverse.unique (h : IndexInverse l) {key : SessionKey} {tx₁ tx₂ : TransactionId}
    {row₁ row₂ : LedgerEntry} (h₁ : l.get tx₁ = some row₁) (h₂ : l.get tx₂ = some row₂)
    (hk₁ : row₁.sessionKey = some key) (hk₂ : row₂.sessionKey = some key) : tx₁ = tx₂ := by
  have hlookup₁ := (h key tx₁).mpr ⟨row₁, h₁, hk₁⟩
  have hlookup₂ := (h key tx₂).mpr ⟨row₂, h₂, hk₂⟩
  exact Option.some.inj (hlookup₁.symm.trans hlookup₂)

/-- A session that maps nowhere is carried by no row. -/
theorem IndexInverse.free (h : IndexInverse l) {key : SessionKey} {tx : TransactionId}
    {row : LedgerEntry} (hfree : l.bySession.lookup key = none) (hrow : l.get tx = some row) :
    row.sessionKey ≠ some key := by
  intro hkey
  rw [(h key tx).mpr ⟨row, hrow, hkey⟩] at hfree
  cases hfree

/-- The index less the key of row `id` maps to every transaction but `id`. -/
theorem IndexInverse.without_own (hi : IndexInverse l) {id : TransactionId} {row : LedgerEntry}
    (hrow : l.get id = some row) (key : SessionKey) (tx : TransactionId) :
    (if row.sessionKey = some key then none else l.bySession.lookup key) = some tx ↔
      tx ≠ id ∧ l.bySession.lookup key = some tx := by
  by_cases hkey : row.sessionKey = some key
  · rw [if_pos hkey, (hi key id).mpr ⟨row, hrow, hkey⟩]
    simp [eq_comm]
  · rw [if_neg hkey]
    refine ⟨fun hmap => ⟨?_, hmap⟩, fun h => h.2⟩
    intro htx
    subst htx
    obtain ⟨row', hrow', hsession⟩ := (hi key tx).mp hmap
    rw [hrow] at hrow'
    cases hrow'
    exact hkey hsession

/-- What a successful insert wrote, map by map. -/
theorem insertQueued_ok {entry : LedgerEntry} {max : Option Nat}
    (h : l.insertQueued entry max = .ok l') :
    l.get entry.transactionId = none ∧
      l'.byTransaction = l.byTransaction.insert entry.transactionId entry ∧
      ((entry.sessionKey = none ∧ l'.bySession = l.bySession) ∨
        ∃ key, entry.sessionKey = some key ∧ l.bySession.lookup key = none ∧
          l.distinctSessionsExceeded key.channelId max = false ∧
          l'.bySession = l.bySession.insert key entry.transactionId) := by
  unfold insertQueued at h
  split at h
  · cases h
  · rename_i hfresh
    refine ⟨by simpa using hfresh, ?_⟩
    split at h
    · rename_i hkey
      cases h
      exact ⟨rfl, .inl ⟨hkey, rfl⟩⟩
    · rename_i key hkey
      split at h
      · cases h
      · rename_i hactive
        split at h
        · cases h
        · rename_i hmax
          cases h
          exact ⟨rfl, .inr ⟨key, hkey, by simpa [sessionActive] using hactive,
            by simpa using hmax, rfl⟩⟩

/-- What a successful bind wrote: nothing when the key was already its own,
else the key moved from the row's old session, if any, to the new one. -/
theorem bindSession_ok {id : TransactionId} {key : SessionKey} {max : Option Nat}
    (h : l.bindSession id key max = .ok l') :
    l' = l ∨ ∃ row, l.bySession.lookup key = none ∧ l.get id = some row ∧
      l'.byTransaction = l.byTransaction.insert id { row with sessionKey := some key } ∧
      ((row.sessionKey = none ∧ l.distinctSessionsExceeded key.channelId max = false ∧
          l'.bySession = l.bySession.insert key id) ∨
        ∃ old, row.sessionKey = some old ∧
          (old.channelId = key.channelId ∨
            l.distinctSessionsExceeded key.channelId max = false) ∧
          l'.bySession = (l.bySession.erase old).insert key id) := by
  unfold bindSession at h
  rcases hholder : l.bySession.lookup key with _ | holder
  · rcases hrow : l.get id with _ | row
    · simp [hholder, hrow] at h
    · simp only [hholder, hrow] at h
      split at h
      · cases h
      · rename_i hmax
        cases h
        refine .inr ⟨row, rfl, rfl, rfl, ?_⟩
        rcases hold : row.sessionKey with _ | old
        · exact .inl ⟨rfl, by simpa [hold] using hmax, rfl⟩
        · refine .inr ⟨old, rfl, ?_, rfl⟩
          by_cases hsame : old.channelId = key.channelId
          · exact .inl hsame
          · exact .inr (by simpa [hold, hsame] using hmax)
  · simp only [hholder] at h
    split at h
    · cases h
      exact .inl rfl
    · cases h

theorem IndexInverse.insertQueued {entry : LedgerEntry} {max : Option Nat} (hi : IndexInverse l)
    (h : l.insertQueued entry max = .ok l') : IndexInverse l' := by
  obtain ⟨hfresh, hrows, hindex⟩ := insertQueued_ok h
  intro key tx
  have hget : l'.get tx = if tx = entry.transactionId then some entry else l.get tx := by
    rw [get, hrows, HashMap.lookup_insert_ite, get]
  rw [hget]
  by_cases htx : tx = entry.transactionId
  · -- The new row: before the insert nothing could map to it.
    subst htx
    have hbefore : l.bySession.lookup key ≠ some entry.transactionId := by
      intro hmap
      obtain ⟨row, hrow, _⟩ := (hi key _).mp hmap
      rw [hfresh] at hrow
      cases hrow
    rcases hindex with ⟨hnone, hsame⟩ | ⟨own, hown, _, _, hinsert⟩
    · simp [hsame, hbefore, hnone]
    · rw [hinsert, HashMap.lookup_insert_ite]
      by_cases hkey : key = own
      · simp [hkey, hown]
      · simp [hkey, hbefore, hown, Ne.symm hkey]
  · rw [if_neg htx, ← hi key tx]
    rcases hindex with ⟨_, hsame⟩ | ⟨own, _, hfree, _, hinsert⟩
    · rw [hsame]
    · rw [hinsert, HashMap.lookup_insert_ite]
      by_cases hkey : key = own
      · subst hkey
        simp [hfree, Ne.symm htx]
      · simp [hkey]

theorem IndexInverse.bindSession {id : TransactionId} {key : SessionKey} {max : Option Nat}
    (hi : IndexInverse l) (h : l.bindSession id key max = .ok l') : IndexInverse l' := by
  rcases bindSession_ok h with rfl | ⟨row, hfree, hrow, hrows, hindex⟩
  · exact hi
  · intro k tx
    have hget : l'.get tx = if tx = id then some { row with sessionKey := some key }
        else l.get tx := by
      rw [get, hrows, HashMap.lookup_insert_ite, get]
    -- Away from the new key the index lost exactly what the row's old key held.
    have hlookup : l'.bySession.lookup k = if k = key then some id
        else if row.sessionKey = some k then none else l.bySession.lookup k := by
      rcases hindex with ⟨hnone, _, hinsert⟩ | ⟨old, hold, _, hinsert⟩
      · rw [hinsert, HashMap.lookup_insert_ite, hnone]
        simp
      · rw [hinsert, HashMap.lookup_insert_ite, HashMap.lookup_erase_ite, hold]
        simp [eq_comm]
    rw [hget, hlookup]
    by_cases hk : k = key
    · subst hk
      by_cases htx : tx = id
      · simp [htx]
      · simp only [htx, if_true, if_false, Option.some.injEq, Ne.symm htx, false_iff]
        intro hother
        obtain ⟨other, hother, hsession⟩ := hother
        exact hi.free hfree hother hsession
    · rw [if_neg hk, hi.without_own hrow, hi k tx]
      by_cases htx : tx = id
      · simp [htx, Ne.symm hk]
      · simp [htx]

/-- Removing a row takes exactly its own key out of the index. -/
theorem IndexInverse.lookup_remove (hi : IndexInverse l) {id : TransactionId}
    {row : LedgerEntry} (hrow : l.get id = some row) (key : SessionKey) :
    (l.remove id).1.bySession.lookup key =
      if row.sessionKey = some key then none else l.bySession.lookup key := by
  unfold LifecycleLedger.remove
  rw [hrow]
  rcases hkey : row.sessionKey with _ | own
  · simp [hkey]
  · have hown := (hi own id).mpr ⟨row, hrow, hkey⟩
    simp [hkey, hown, HashMap.lookup_erase_ite, eq_comm]

theorem IndexInverse.remove (hi : IndexInverse l) (id : TransactionId) :
    IndexInverse (l.remove id).1 := by
  rcases hrow : l.get id with _ | row
  · rw [show (l.remove id).1 = l by simp [LifecycleLedger.remove, hrow]]
    exact hi
  · intro key tx
    rw [hi.lookup_remove hrow, hi.without_own hrow, hi key tx, get_remove]
    by_cases htx : tx = id
    · simp [htx]
    · simp [htx]

/-! ## The distinct-session limit -/

theorem distinctSessionsOnChannel_eq (l : LifecycleLedger) (channel : ChannelId) :
    l.distinctSessionsOnChannel channel =
      HashMap.countKeys l.bySession (·.channelId = channel) := rfl

theorem distinct_le_insertQueued {entry : LedgerEntry} {limit : Option Nat} {channel : ChannelId}
    {max : Nat} (hle : l.distinctSessionsOnChannel channel ≤ max)
    (hlimit : ∀ key, entry.sessionKey = some key → key.channelId = channel → limit = some max)
    (h : l.insertQueued entry limit = .ok l') : l'.distinctSessionsOnChannel channel ≤ max := by
  obtain ⟨_, _, hindex⟩ := insertQueued_ok h
  rcases hindex with ⟨_, hsame⟩ | ⟨key, hkey, hfree, hroom, hinsert⟩
  · rw [distinctSessionsOnChannel, hsame]
    exact hle
  · rw [distinctSessionsOnChannel_eq] at hle ⊢
    rw [hinsert, HashMap.countKeys_insert _ hfree]
    by_cases hchannel : key.channelId = channel
    · -- A new key on the channel: the limit was checked just before.
      rw [hlimit key hkey hchannel, distinctSessionsExceeded, hchannel,
        distinctSessionsOnChannel_eq] at hroom
      simp only [decide_eq_false_iff_not] at hroom
      simp only [hchannel, decide_true, if_true]
      omega
    · simp only [hchannel, decide_false]
      simpa using hle

theorem distinct_le_bindSession {id : TransactionId} {key : SessionKey} {limit : Option Nat}
    {channel : ChannelId} {max : Nat} (hi : IndexInverse l)
    (hle : l.distinctSessionsOnChannel channel ≤ max)
    (hlimit : key.channelId = channel → limit = some max)
    (h : l.bindSession id key limit = .ok l') : l'.distinctSessionsOnChannel channel ≤ max := by
  rcases bindSession_ok h with rfl | ⟨row, hfree, hrow, _, hindex⟩
  · exact hle
  · rw [distinctSessionsOnChannel_eq] at hle ⊢
    have hroomy : key.channelId = channel →
        l.distinctSessionsExceeded key.channelId limit = false →
        HashMap.countKeys l.bySession (·.channelId = channel) < max := by
      intro hchannel hroom
      rw [hlimit hchannel, distinctSessionsExceeded, hchannel,
        distinctSessionsOnChannel_eq] at hroom
      simpa using hroom
    rcases hindex with ⟨_, hroom, hinsert⟩ | ⟨old, hold, hroom, hinsert⟩
    · rw [hinsert, HashMap.countKeys_insert _ hfree]
      by_cases hchannel : key.channelId = channel
      · have := hroomy hchannel hroom
        simp only [hchannel, decide_true, if_true]
        omega
      · simpa [hchannel] using hle
    · -- The old key is in the index, so replacing it frees a slot of its channel.
      have hheld := (hi old id).mpr ⟨row, hrow, hold⟩
      have herase := HashMap.countKeys_erase (fun k => decide (k.channelId = channel)) hheld
      have hfree' : (l.bySession.erase old).lookup key = none := by
        rw [HashMap.lookup_erase_ite, hfree]
        simp
      rw [hinsert, HashMap.countKeys_insert _ hfree']
      by_cases hchannel : key.channelId = channel
      · simp only [hchannel, decide_true, if_true]
        rcases hroom with hsame | hroom
        · rw [hsame, hchannel] at herase
          simp only [decide_true, if_true] at herase
          omega
        · have := hroomy hchannel hroom
          omega
      · simp only [hchannel, decide_false]
        simp only [Bool.false_eq_true, if_false]
        omega

theorem distinct_remove_le (l : LifecycleLedger) (id : TransactionId) (channel : ChannelId) :
    (l.remove id).1.distinctSessionsOnChannel channel ≤ l.distinctSessionsOnChannel channel := by
  rw [distinctSessionsOnChannel_eq, distinctSessionsOnChannel_eq]
  unfold LifecycleLedger.remove
  rcases l.get id with _ | row
  · exact Nat.le_refl _
  · rcases hkey : row.sessionKey with _ | own
    · simp [hkey]
    · simp only [hkey]
      split
      · exact HashMap.countKeys_erase_le _ _ _
      · exact Nat.le_refl _

end LifecycleLedger

/-! ## Runs of ledger calls -/

/-- One call on the ledger. -/
inductive LedgerOp where
  | insertQueued (entry : LedgerEntry) (maxDistinctSessions : Option Nat)
  | bindSession (id : TransactionId) (key : SessionKey) (maxDistinctSessions : Option Nat)
  | remove (id : TransactionId)

namespace LedgerOp

/-- Run the call in place. `remove` has no error; its result is dropped. -/
def exec : LedgerOp → LifecycleLedger → Except LedgerInsertError Unit × LifecycleLedger
  | insertQueued entry max, l => InPlace.call (LedgerCall.insertQueued entry max) l
  | bindSession id key max, l => InPlace.call (LedgerCall.bindSession id key max) l
  | remove id, l => (.ok (), (InPlace.call (LedgerCall.remove id) l).2)

/-- A call for `channel`, one that brings a session key of it, passes the limit
`max`. -/
def Limits (channel : ChannelId) (max : Nat) : LedgerOp → Prop
  | insertQueued entry limit =>
      ∀ key, entry.sessionKey = some key → key.channelId = channel → limit = some max
  | bindSession _ key limit => key.channelId = channel → limit = some max
  | remove _ => True

end LedgerOp

/-- Any sequence of ledger calls, successful or failing, from the empty ledger. -/
def ledgerCalls : System LifecycleLedger LedgerOp where
  init l := l = .new
  step op l := some (op.exec l).2

namespace LifecycleLedger

/-- A call either fails and leaves the ledger, or is one of the three functions
of `Ledger`. -/
theorem exec_cases (op : LedgerOp) (l : LifecycleLedger) :
    (op.exec l).2 = l ∨
    (∃ entry max l', op = .insertQueued entry max ∧ l.insertQueued entry max = .ok l' ∧
      op.exec l = (.ok (), l')) ∨
    (∃ id key max l', op = .bindSession id key max ∧ l.bindSession id key max = .ok l' ∧
      op.exec l = (.ok (), l')) ∨
    (∃ id, op = .remove id ∧ op.exec l = (.ok (), (l.remove id).1)) := by
  cases op with
  | insertQueued entry max =>
      rcases h : l.insertQueued entry max with e | l'
      · exact .inl (by simp [LedgerOp.exec, call_insertQueued, h, settled])
      · exact .inr (.inl ⟨entry, max, l', rfl, h,
          by simp [LedgerOp.exec, call_insertQueued, h, settled]⟩)
  | bindSession id key max =>
      rcases h : l.bindSession id key max with e | l'
      · exact .inl (by simp [LedgerOp.exec, call_bindSession, h, settled])
      · exact .inr (.inr (.inl ⟨id, key, max, l', rfl, h,
          by simp [LedgerOp.exec, call_bindSession, h, settled]⟩))
  | remove id => exact .inr (.inr (.inr ⟨id, rfl, by simp [LedgerOp.exec, call_remove]⟩))

/-- A call that returns an error leaves the ledger exactly as it was. -/
theorem exec_error {op : LedgerOp} {e : LedgerInsertError} (h : op.exec l = (.error e, l')) :
    l' = l := by
  rcases exec_cases op l with hsame | ⟨_, _, _, _, _, hok⟩ | ⟨_, _, _, _, _, _, hok⟩ | ⟨_, _, hok⟩
  · rw [h] at hsame
    exact hsame
  all_goals
    rw [h] at hok
    cases hok

theorem IndexInverse.exec (hi : IndexInverse l) (op : LedgerOp) : IndexInverse (op.exec l).2 := by
  rcases exec_cases op l with
    hsame | ⟨_, _, _, _, hins, hok⟩ | ⟨_, _, _, _, _, hbind, hok⟩ | ⟨id, _, hok⟩
  · rw [hsame]
    exact hi
  · rw [hok]
    exact hi.insertQueued hins
  · rw [hok]
    exact hi.bindSession hbind
  · rw [hok]
    exact hi.remove id

theorem distinct_le_exec {channel : ChannelId} {max : Nat} (hi : IndexInverse l) (op : LedgerOp)
    (hle : l.distinctSessionsOnChannel channel ≤ max) (hlimit : op.Limits channel max) :
    (op.exec l).2.distinctSessionsOnChannel channel ≤ max := by
  rcases exec_cases op l with
    hsame | ⟨_, _, _, rfl, hins, hok⟩ | ⟨_, _, _, _, rfl, hbind, hok⟩ | ⟨id, _, hok⟩
  · rw [hsame]
    exact hle
  · rw [hok]
    exact distinct_le_insertQueued hle hlimit hins
  · rw [hok]
    exact distinct_le_bindSession hi hle hlimit hbind
  · rw [hok]
    exact Nat.le_trans (distinct_remove_le l id channel) hle

theorem indexInverse_reach {ok : LifecycleLedger → LedgerOp → Prop}
    (h : ledgerCalls.Reach ok l) : IndexInverse l := by
  refine h.invariant ?_ ?_
  · intro l hinit
    rw [hinit]
    exact indexInverse_new
  · intro l op l' _ hi _ hstep
    cases hstep
    exact hi.exec op

theorem distinct_le_reach {channel : ChannelId} {max : Nat}
    (h : ledgerCalls.Reach (fun _ op => op.Limits channel max) l) :
    l.distinctSessionsOnChannel channel ≤ max := by
  refine h.invariant (P := fun l => l.distinctSessionsOnChannel channel ≤ max) ?_ ?_
  · intro l hinit
    rw [hinit]
    exact Nat.zero_le _
  · intro l op l' hr hle hlimit hstep
    cases hstep
    exact distinct_le_exec (indexInverse_reach hr) op hle hlimit

/-- What the two maps of a ledger say about each other. -/
structure Indexed (l : LifecycleLedger) : Prop where
  inverse : ∀ key tx, l.bySession.lookup key = some tx ↔
    ∃ row, l.get tx = some row ∧ row.sessionKey = some key
  /-- No two live rows share a session. -/
  exclusive : ∀ tx₁ tx₂ row₁ row₂ key, l.get tx₁ = some row₁ → l.get tx₂ = some row₂ →
    row₁.sessionKey = some key → row₂.sessionKey = some key → tx₁ = tx₂
  /-- No index entry outlives its row. -/
  live : ∀ key tx, l.bySession.lookup key = some tx → l.get tx ≠ none

/-- **The index is exact over every run.** Whatever calls were made, successful
or not, index and rows are mutually inverse; a channel whose calls all pass one
limit stays within it; and a call that returns an error, or a removal that finds
nothing, changes nothing. -/
theorem session_index_exact :
    (∀ l, ledgerCalls.Reach always l → Indexed l) ∧
    (∀ channel max l, ledgerCalls.Reach (fun _ op => op.Limits channel max) l →
      l.distinctSessionsOnChannel channel ≤ max) ∧
    (∀ (l : LifecycleLedger) (op : LedgerOp) e l', op.exec l = (.error e, l') → l' = l) ∧
    (∀ l id l', InPlace.call (LedgerCall.remove id) l = (.ok none, l') → l' = l) := by
  refine ⟨?_, fun _ _ _ h => distinct_le_reach h, fun _ _ _ _ h => exec_error h, ?_⟩
  · intro l h
    have hi := indexInverse_reach h
    refine ⟨hi, fun _ _ _ _ _ h₁ h₂ hk₁ hk₂ => hi.unique h₁ h₂ hk₁ hk₂, ?_⟩
    intro key tx hmap habsent
    obtain ⟨row, hrow, _⟩ := (hi key tx).mp hmap
    rw [habsent] at hrow
    cases hrow
  · intro l id l' h
    rw [call_remove] at h
    rcases hrow : l.get id with _ | row
    · simp only [remove, hrow] at h
      cases h
      rfl
    · simp [remove, hrow] at h

end LifecycleLedger

/-! A session that is bound, refused to a second row, and free again after the
first row is removed. -/

def indexedSession : SessionKey := ⟨⟨"indexed", by decide⟩, ⟨"indexed-session", by decide⟩⟩

def indexedRow (id : TransactionId) (key : Option SessionKey) : LedgerEntry where
  transactionId := id
  channelId := indexedSession.channelId
  sessionKey := key
  phase := .queued
  terminal := none
  pendingWorkerProposal := none
  eventSequence := 0
  delivery := none
  completionTx := none
  publisherCmdTx := false
  publisherSealTx := false
  deadline := none
  tools := []
  reservations := true
  cancelled := false

def indexedCalls : List LedgerOp :=
  [.insertQueued (indexedRow ⟨1⟩ (some indexedSession)) (some 1),
    .insertQueued (indexedRow ⟨2⟩ none) (some 1),
    .bindSession ⟨2⟩ indexedSession (some 1)]

instance (channel : ChannelId) (max : Nat) (op : LedgerOp) : Decidable (op.Limits channel max) :=
  match op with
  | .insertQueued entry limit =>
      decidable_of_iff (∀ key ∈ entry.sessionKey, key.channelId = channel → limit = some max)
        Iff.rfl
  | .bindSession _ key limit =>
      inferInstanceAs (Decidable (key.channelId = channel → limit = some max))
  | .remove _ => inferInstanceAs (Decidable True)

theorem indexed_session_exclusive : ∃ l,
    (ledgerCalls.Reach always l ∧ LifecycleLedger.Indexed l) ∧
    (ledgerCalls.Reach (fun _ op => op.Limits indexedSession.channelId 1) l ∧
      l.distinctSessionsOnChannel indexedSession.channelId ≤ 1) ∧
    l.bySession.lookup indexedSession = some ⟨1⟩ ∧
    (LedgerOp.bindSession ⟨2⟩ indexedSession (some 1)).exec l =
      (.error .sessionAlreadyActive, l) := by
  obtain ⟨l, hr, hl⟩ := System.exists_of_runWhere (M := ledgerCalls)
    (fun _ op => op.Limits indexedSession.channelId 1) rfl indexedCalls
    (fun l => l.bySession.lookup indexedSession = some ⟨1⟩) (by decide)
  have hheld : l.bySession.lookup indexedSession = some ⟨1⟩ := by simpa using hl
  obtain ⟨hindexed, hlimit, herror, _⟩ := LifecycleLedger.session_index_exact
  refine ⟨l, ⟨hr.forget, hindexed l hr.forget⟩, ⟨hr, hlimit _ _ l hr⟩, hheld, ?_⟩
  have hrefused : ((LedgerOp.bindSession ⟨2⟩ indexedSession (some 1)).exec l).1 =
      .error .sessionAlreadyActive := by
    simp [LedgerOp.exec, LifecycleLedger.call_bindSession, LifecycleLedger.bindSession, hheld,
      LifecycleLedger.settled]
  have hsplit : (LedgerOp.bindSession ⟨2⟩ indexedSession (some 1)).exec l =
      (.error .sessionAlreadyActive,
        ((LedgerOp.bindSession ⟨2⟩ indexedSession (some 1)).exec l).2) := by
    rw [← hrefused]
  rw [hsplit, herror l _ _ _ hsplit]

end Monoloop.Lifecycle
