import Monoloop.Contracts.Identity

/-!
# Session identity of a transaction's events

`session_identity.rs`: an event needs a session id even when the transaction has
no session. The publisher then invents one from the transaction id, and gives it
up for the first authoritative id it is offered; an authoritative id it keeps.
-/

namespace Monoloop.Publisher

/-- The lower-case hexadecimal digits of a UUID, most significant first. -/
def uuidDigits (uuid : BitVec 128) : List Char :=
  (List.range 32).map fun i => Nat.digitChar (uuid.toNat / 16 ^ (31 - i) % 16)

/-- The hyphenated form, `8-4-4-4-12`. -/
def uuidText (uuid : BitVec 128) : String :=
  let digits := uuidDigits uuid
  let group (first count : Nat) := (digits.drop first).take count
  String.ofList (group 0 8 ++ '-' :: group 8 4 ++ '-' :: group 12 4 ++ '-' :: group 16 4 ++
    '-' :: group 20 12)

/-- The legacy id of sessionless events. -/
def directSession : SessionId := ⟨"direct", by decide⟩

/-- Session id for the events of a sessionless transaction. -/
def transactionScopedSessionId (tx : TransactionId) : SessionId :=
  match SessionId.tryNew ("tx-" ++ uuidText tx.uuid) with
  | .ok id => id
  | .error _ => directSession

/-- Whether `id` is the invented id of this transaction. Another id that merely
looks like one is not. -/
def isTransactionScopedSession (id : SessionId) (tx : TransactionId) : Bool :=
  id = directSession || id = transactionScopedSessionId tx

/-- The session of one event: the publisher's session afterwards, and the id the
event carries. -/
def ensureSession (session preferred : Option SessionId) (tx : TransactionId) :
    Option SessionId × SessionId :=
  match preferred, session with
  | some s, none => (some s, s)
  | some s, some current =>
      if isTransactionScopedSession current tx then (some s, s) else (some current, current)
  | none, some current => (some current, current)
  | none, none => (some (transactionScopedSessionId tx), transactionScopedSessionId tx)

/-- Ids the publisher never gives up. -/
def Authoritative (tx : TransactionId) (session : Option SessionId) : Prop :=
  ∃ id, session = some id ∧ isTransactionScopedSession id tx = false

instance (tx : TransactionId) (session : Option SessionId) : Decidable (Authoritative tx session) :=
  match session with
  | some id => decidable_of_iff (isTransactionScopedSession id tx = false) (by simp [Authoritative])
  | none => .isFalse (by simp [Authoritative])

section

variable {session preferred : Option SessionId} {tx : TransactionId} {id : SessionId}

/-- The publisher remembers the id it used. -/
@[simp] theorem ensureSession_fst :
    (ensureSession session preferred tx).1 = some (ensureSession session preferred tx).2 := by
  cases preferred with
  | none => cases session <;> rfl
  | some s =>
      cases session with
      | none => rfl
      | some current =>
          simp only [ensureSession]
          split <;> rfl

/-- Without an offer a session is used as it is. -/
@[simp] theorem ensureSession_none_some :
    ensureSession (some id) none tx = (some id, id) := rfl

@[simp] theorem transactionScopedSessionId_scoped :
    isTransactionScopedSession (transactionScopedSessionId tx) tx = true := by
  simp [isTransactionScopedSession]

/-- **An authoritative id is never replaced.** -/
theorem ensureSession_authoritative (h : isTransactionScopedSession id tx = false) :
    ensureSession (some id) preferred tx = (some id, id) := by
  cases preferred with
  | none => rfl
  | some s => simp [ensureSession, h]

/-- Anything else gives way to an offered id. -/
theorem ensureSession_offered (h : ¬ Authoritative tx session) :
    ensureSession session (some id) tx = (some id, id) := by
  cases session with
  | none => rfl
  | some current =>
      have hscoped : isTransactionScopedSession current tx = true := by
        by_contra hne
        exact h ⟨current, rfl, by simpa using hne⟩
      simp [ensureSession, hscoped]

end

end Monoloop.Publisher
