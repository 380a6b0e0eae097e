import Mathlib.Data.List.Basic
import Monoloop.Contracts.Transaction

/-!
# The host's event mailbox

`delivery.rs`: a bounded queue with a second bound on the bytes it holds. A send
is a future: it reserves its bytes, then waits for a slot, and a select may drop
it at either wait. `delivered` is not in the source: it records every event that
entered the queue, oldest first.

The size of an event is the length of its JSON form, computed by `serde_json`;
here it is a parameter.
-/

namespace Monoloop.Publisher

/-- `u64::saturating_add`. -/
def saturatingAdd (a b : Nat) : Nat := min (a + b) (2 ^ 64 - 1)

/-- How far a send future has come: its bytes are not reserved yet, or they are
and it waits for a slot. -/
inductive SendState where
  | fresh
  | reserved (nbytes : Nat)
deriving DecidableEq, Repr

/-- Result of polling a send. -/
inductive SendPoll where
  | pending (state : SendState)
  | ready (result : Except EventEnqueueError Unit)

/-- Both halves of the mailbox. A queued event owns its byte reservation. -/
structure Mailbox (Body : Type) where
  maxEventItems : Nat
  maxEventBytes : Nat
  queue : List (TransactionEvent Body × Nat)
  queuedBytes : Nat
  receiverAlive : Bool
  delivered : List (TransactionEvent Body)

namespace Mailbox

variable {Body : Type}

def new (sender : TransactionEventSender) : Mailbox Body where
  maxEventItems := sender.maxEventItems
  maxEventBytes := sender.maxEventBytes
  queue := []
  queuedBytes := 0
  receiverAlive := true
  delivered := []

/-- Drop of a byte permit. -/
def release (m : Mailbox Body) (nbytes : Nat) : Mailbox Body :=
  { m with queuedBytes := m.queuedBytes - nbytes }

/-- The second wait of `send`: a slot of the channel. -/
def pollItem (m : Mailbox Body) (event : TransactionEvent Body) (nbytes : Nat) :
    Mailbox Body × SendPoll :=
  if !m.receiverAlive then (m.release nbytes, .ready (.error .closed))
  else if m.queue.length < m.maxEventItems then
    ({ m with queue := m.queue ++ [(event, nbytes)], delivered := m.delivered ++ [event] },
      .ready (.ok ()))
  else (m, .pending (.reserved nbytes))

/-- One poll of `TransactionEventSender::send`. -/
def pollSend (estimateEventBytes : TransactionEvent Body → Nat) (m : Mailbox Body)
    (event : TransactionEvent Body) : SendState → Mailbox Body × SendPoll
  | .fresh =>
      let nbytes := estimateEventBytes event
      if m.maxEventBytes < nbytes then (m, .ready (.error .eventTooLarge))
      else if m.maxEventBytes < saturatingAdd m.queuedBytes nbytes then (m, .pending .fresh)
      else { m with queuedBytes := saturatingAdd m.queuedBytes nbytes }.pollItem event nbytes
  | .reserved nbytes => m.pollItem event nbytes

/-- Drop of an unfinished send. -/
def dropSend (m : Mailbox Body) : SendState → Mailbox Body
  | .fresh => m
  | .reserved nbytes => m.release nbytes

/-- The host receives the oldest event. -/
def recv (m : Mailbox Body) : Option (Mailbox Body) :=
  match m.queue with
  | [] => none
  | (_, nbytes) :: rest => some ({ m with queue := rest }.release nbytes)

/-- The host drops its receiver, and with it what is queued. -/
def dropReceiver (m : Mailbox Body) : Mailbox Body :=
  let queued := (m.queue.map (·.2)).sum
  { m with queue := [], queuedBytes := m.queuedBytes - queued, receiverAlive := false }

/-! ## What a poll delivers -/

variable {estimate : TransactionEvent Body → Nat} {m : Mailbox Body}
  {event : TransactionEvent Body} {state : SendState}

@[simp] theorem release_delivered (n : Nat) : (m.release n).delivered = m.delivered := rfl

@[simp] theorem dropSend_delivered : (m.dropSend state).delivered = m.delivered := by
  cases state <;> rfl

@[simp] theorem dropReceiver_delivered : m.dropReceiver.delivered = m.delivered := rfl

theorem recv_delivered {m' : Mailbox Body} (h : m.recv = some m') :
    m'.delivered = m.delivered := by
  unfold recv at h
  split at h
  · cases h
  · cases h
    rfl

theorem pollItem_delivered (n : Nat) :
    (m.pollItem event n).1.delivered =
      match (m.pollItem event n).2 with
      | .ready (.ok ()) => m.delivered ++ [event]
      | _ => m.delivered := by
  unfold pollItem
  split
  · rfl
  · split <;> rfl

/-- **A send delivers its event exactly when it succeeds.** -/
theorem pollSend_delivered (m : Mailbox Body) (estimate : TransactionEvent Body → Nat)
    (event : TransactionEvent Body) (state : SendState) :
    (m.pollSend estimate event state).1.delivered =
      match (m.pollSend estimate event state).2 with
      | .ready (.ok ()) => m.delivered ++ [event]
      | _ => m.delivered := by
  cases state with
  | fresh =>
      simp only [pollSend]
      split
      · rfl
      · split
        · rfl
        · rw [pollItem_delivered]
  | reserved n => exact pollItem_delivered n

end Mailbox

end Monoloop.Publisher
