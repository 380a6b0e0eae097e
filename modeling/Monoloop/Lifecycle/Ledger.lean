import Monoloop.Lib.HashMap
import Monoloop.Contracts.Transaction

/-!
# The lifecycle ledger

`ledger.rs`: one row for each admitted transaction, and a session index. A row
holds the completion sender until the finalizer takes it; the sender inside
`delivery` moves to `completionTx` at start. Input, configurations, usage and
diagnostics of a row are never read by the lifecycle logic and are left out,
except the deadline of the effective configuration.

Rows are read through `get`; each operation has one lemma saying what it does
to `get` at an arbitrary transaction.
-/

namespace Monoloop.Lifecycle

/-- Ledger phase machine. -/
inductive TransactionPhase where
  | queued
  | establishingSession
  | running
  | cancelling
  | finalizing
  | completionPublished
  | cleanupPending
deriving DecidableEq, Repr

/-- Per-transaction ledger row. The two publisher ports are recorded as held or
taken; what travels through them is `Monoloop.Publisher`'s subject. -/
structure LedgerEntry where
  transactionId : TransactionId
  channelId : ChannelId
  /-- Session when known at admission or after claim. -/
  sessionKey : Option SessionKey
  phase : TransactionPhase
  /-- Terminal decision once selected. -/
  terminal : Option TerminalDecision
  /-- Coordinator proposal parked before the `WorkerExited` notify. -/
  pendingWorkerProposal : Option TerminalProposal
  eventSequence : Nat
  /-- Full delivery ports at admit; taken at start. -/
  delivery : Option TransactionDelivery
  /-- Completion sender retained until seal and publish. -/
  completionTx : Option TransactionCompletionSender
  publisherCmdTx : Bool
  publisherSealTx : Bool
  /-- Deadline of the effective configuration, in milliseconds. -/
  deadline : Option Nat
  tools : List ToolId
  /-- Whether the row still owns its capacity reservations. -/
  reservations : Bool
  /-- The sticky flag of `resources.cancel`. -/
  cancelled : Bool
deriving DecidableEq

/-- Source of truth from admission through completion publication. -/
structure LifecycleLedger where
  byTransaction : HashMap TransactionId LedgerEntry
  bySession : HashMap SessionKey TransactionId

/-- Ledger install / bind failure. -/
inductive LedgerInsertError where
  | duplicateTransaction
  | sessionAlreadyActive
  | distinctSessionsExceeded
  | unknownTransaction
deriving DecidableEq, Repr

namespace LifecycleLedger

def new : LifecycleLedger := { byTransaction := ∅, bySession := ∅ }

def length (l : LifecycleLedger) : Nat := l.byTransaction.keys.length

def isEmpty (l : LifecycleLedger) : Bool := l.byTransaction.keys.isEmpty

/-- Snapshot of all transaction ids. -/
def transactionIds (l : LifecycleLedger) : List TransactionId := l.byTransaction.keys

def get (l : LifecycleLedger) (id : TransactionId) : Option LedgerEntry :=
  l.byTransaction.lookup id

/-- Mutation through `get_mut`; an absent row stays absent. -/
def modify (l : LifecycleLedger) (id : TransactionId) (f : LedgerEntry → LedgerEntry) :
    LifecycleLedger :=
  { l with byTransaction := HashMap.modify l.byTransaction id f }

def sessionActive (l : LifecycleLedger) (key : SessionKey) : Bool :=
  (l.bySession.lookup key).isSome

def transactionForSession (l : LifecycleLedger) (key : SessionKey) : Option TransactionId :=
  l.bySession.lookup key

/-- Count distinct active sessions on a channel. -/
def distinctSessionsOnChannel (l : LifecycleLedger) (channel : ChannelId) : Nat :=
  (l.bySession.keys.filter (·.channelId = channel)).length

/-- Whether one more session on the channel would exceed the bound. -/
def distinctSessionsExceeded (l : LifecycleLedger) (channel : ChannelId) :
    Option Nat → Bool
  | none => false
  | some max => max ≤ l.distinctSessionsOnChannel channel

/-- Insert a complete queued entry. -/
def insertQueued (l : LifecycleLedger) (entry : LedgerEntry)
    (maxDistinctSessions : Option Nat) : Except LedgerInsertError LifecycleLedger :=
  if (l.get entry.transactionId).isSome then .error .duplicateTransaction
  else
    let byTransaction := l.byTransaction.insert entry.transactionId entry
    match entry.sessionKey with
    | none => .ok { l with byTransaction }
    | some key =>
        if l.sessionActive key then .error .sessionAlreadyActive
        else if l.distinctSessionsExceeded key.channelId maxDistinctSessions then
          .error .distinctSessionsExceeded
        else .ok { byTransaction, bySession := l.bySession.insert key entry.transactionId }

/-- Remove an entry; its session index entry goes with it when it is its own. -/
def remove (l : LifecycleLedger) (id : TransactionId) : LifecycleLedger × Option LedgerEntry :=
  match l.get id with
  | none => (l, none)
  | some entry =>
      ({ byTransaction := l.byTransaction.erase id
         bySession := match entry.sessionKey with
           | none => l.bySession
           | some key =>
               if l.bySession.lookup key = some id then l.bySession.erase key else l.bySession },
        some entry)

/-- Bind a session key after the external session claim. Re-confirming the
transaction's own reservation is a no-op, and replacing a key on the same
channel does not consume a distinct slot. -/
def bindSession (l : LifecycleLedger) (id : TransactionId) (key : SessionKey)
    (maxDistinctSessions : Option Nat) : Except LedgerInsertError LifecycleLedger :=
  match l.bySession.lookup key with
  | some holder => if holder = id then .ok l else .error .sessionAlreadyActive
  | none =>
      match l.get id with
      | none => .error .unknownTransaction
      | some entry =>
          let replacingSameChannel := entry.sessionKey.any (·.channelId = key.channelId)
          if !replacingSameChannel
              && l.distinctSessionsExceeded key.channelId maxDistinctSessions then
            .error .distinctSessionsExceeded
          else
            let bySession := match entry.sessionKey with
              | none => l.bySession
              | some old => l.bySession.erase old
            .ok { byTransaction := l.byTransaction.insert id { entry with sessionKey := some key }
                  bySession := bySession.insert key id }

/-! ## What each operation does to `get` -/

variable {l l' : LifecycleLedger} {tx : TransactionId}

theorem get_modify (l : LifecycleLedger) (id tx : TransactionId) (f : LedgerEntry → LedgerEntry) :
    (l.modify id f).get tx = if tx = id then (l.get tx).map f else l.get tx :=
  HashMap.lookup_modify l.byTransaction tx id f

theorem get_remove (l : LifecycleLedger) (id tx : TransactionId) :
    (l.remove id).1.get tx = if tx = id then none else l.get tx := by
  unfold remove
  cases hg : l.get id with
  | none =>
      by_cases h : tx = id
      · subst h
        simp [hg]
      · simp [h]
  | some entry => exact HashMap.lookup_erase_ite l.byTransaction tx id

/-- A successful insert found no row and installed exactly the new one. -/
theorem get_insertQueued {entry : LedgerEntry} {max : Option Nat}
    (h : l.insertQueued entry max = .ok l') :
    l.get entry.transactionId = none ∧
      ∀ tx, l'.get tx = if tx = entry.transactionId then some entry else l.get tx := by
  have hget : ∀ bySession tx,
      LifecycleLedger.get ⟨l.byTransaction.insert entry.transactionId entry, bySession⟩ tx =
        if tx = entry.transactionId then some entry else l.get tx :=
    fun _ tx => HashMap.lookup_insert_ite l.byTransaction tx entry.transactionId entry
  unfold insertQueued at h
  split at h
  · cases h
  · rename_i hfresh
    refine ⟨by simpa using hfresh, ?_⟩
    split at h
    · cases h
      exact hget _
    · split at h
      · cases h
      · split at h
        · cases h
        · cases h
          exact hget _

/-- A successful bind changes at most the session key of its own row. -/
theorem get_bindSession {id : TransactionId} {key : SessionKey} {max : Option Nat}
    (h : l.bindSession id key max = .ok l') :
    ∃ f : LedgerEntry → Option SessionKey, ∀ tx,
      l'.get tx = if tx = id then (l.get tx).map (fun e => { e with sessionKey := f e })
        else l.get tx := by
  unfold bindSession at h
  split at h
  · split at h
    · cases h
      exact ⟨LedgerEntry.sessionKey, fun tx => by simp⟩
    · cases h
  · split at h
    · cases h
    · rename_i entry hentry
      simp only at h
      split at h
      · cases h
      · cases h
        refine ⟨fun _ => some key, fun tx => (HashMap.lookup_insert_ite _ tx id _).trans ?_⟩
        by_cases htx : tx = id
        · subst htx
          simp [hentry]
        · simp only [htx, if_false]
          rfl

theorem mem_transactionIds (l : LifecycleLedger) (tx : TransactionId) :
    tx ∈ l.transactionIds ↔ ∃ e, l.get tx = some e :=
  HashMap.mem_keys_iff l.byTransaction tx

theorem isEmpty_iff (l : LifecycleLedger) : l.isEmpty = true ↔ ∀ tx, l.get tx = none := by
  rw [isEmpty, List.isEmpty_iff]
  exact HashMap.keys_eq_nil_iff l.byTransaction

end LifecycleLedger

end Monoloop.Lifecycle
