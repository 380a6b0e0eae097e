import Monoloop.Lifecycle.Runtime
import Monoloop.Publisher.EventPublisher

/-!
# One transaction's publisher and finalizer

The event publisher of one transaction beside its ledger row and its finalizer,
under one clock (`publisher.now`). The runtime leaves open what the finalizer's
seal and the wait for its reply return; here they go through the publisher's
channels, and the row is changed by the runtime's own functions.

The seal's deadline is fixed when it is sent, and the finalizer waits for the
reply until 100 ms later. A poll of that wait tries the reply before the timer.
-/

namespace Monoloop.Publisher

open Lifecycle (LedgerEntry FinalizerPc FinalizerSnapshot Runtime)
open Transition (System)

structure Delivery (Body : Type) where
  publisher : EventPublisher Body
  /-- The transaction was started, so the publisher runs. -/
  started : Bool
  terminalEventDeliveryDeadline : Nat
  row : LedgerEntry
  /-- The running finalizer. -/
  finalizer : Option FinalizerPc
  /-- When the wait for the seal reply gives up. -/
  wakeAt : Nat
  completion : Option TransactionCompletion

/-- What can happen in one transaction's delivery. -/
inductive DeliveryAction (Body : Type) where
  | publisher (a : PublisherAction Body)
  /-- The coordinator claims a session. -/
  | bindSession (key : SessionKey)
  | acceptTerminal (proposal : TerminalProposal) (forceUpgrade : Bool)
  /-- The finalizer takes the row's ports and seals. -/
  | resume
  | awaitReply
  | settle
  | publish (ownedTasks ownedProcesses cooperativeTools : Nat)
  | abortFinalizer

namespace Delivery

variable {Body : Type}

/-- A row as admission installs it, without and with `handle_start`. -/
def init (estimateEventBytes : TransactionEvent Body → Nat) (row : LedgerEntry)
    (delivery : TransactionDelivery) (deadline now terminalEventDeliveryDeadline : Nat)
    (started : Bool) : Delivery Body where
  publisher := .start estimateEventBytes row.transactionId row.channelId
    (row.sessionKey.map (·.sessionId)) delivery.eventTx deadline now
  started := started
  terminalEventDeliveryDeadline := terminalEventDeliveryDeadline
  row := if started then Runtime.startRow delivery row else row
  finalizer := none
  wakeAt := 0
  completion := none

/-- The first decision registers the finalizer, which gets the seal sender. -/
def acceptTerminal (s : Delivery Body) (proposal : TerminalProposal) (forceUpgrade : Bool) :
    Delivery Body :=
  { s with
    row := Runtime.decideRow proposal forceUpgrade s.row
    finalizer := if s.row.terminal.isNone then some (.spawned s.row.publisherSealTx)
      else s.finalizer }

/-- Slack of the reply wait over the seal's deadline, in milliseconds. -/
def replySlack : Nat := 100

def sealCommand (s : Delivery Body) (snapshot : FinalizerSnapshot) : SealCommand :=
  { terminal := endEvent s.row.transactionId snapshot.channelId snapshot.sessionId snapshot.kind 0
    deadline := s.publisher.now + s.terminalEventDeliveryDeadline }

/-- Close ordinary admission, take the snapshot and send the seal. -/
def resume (s : Delivery Body) (sealTx : Bool) : Delivery Body :=
  let snapshot := Runtime.snapshotOf s.row
  let publisher := if s.row.publisherCmdTx then s.publisher.closeGate else s.publisher
  let s := { s with row := Runtime.cleanupRow s.row, publisher }
  if !sealTx then { s with finalizer := some (.replied snapshot .notAttempted 0) }
  else if s.publisher.gone then
    { s with
      finalizer := some (.replied snapshot .queueClosed 0)
      publisher := { s.publisher with sealTx := false } }
  else if s.publisher.sealQueue.isSome then
    { s with
      finalizer := some (.replied snapshot .deadlineExceeded 0)
      publisher := { s.publisher with sealTx := false } }
  else
    { s with
      finalizer := some (.awaitingReply snapshot)
      publisher := { s.publisher with sealQueue := some (s.sealCommand snapshot) }
      wakeAt := s.publisher.now + s.terminalEventDeliveryDeadline + replySlack }

/-- The wait is over; the seal sender is dropped with it. -/
def replied (s : Delivery Body) (snapshot : FinalizerSnapshot) (delivery : TerminalEventDelivery)
    (lastSeq : Nat) : Delivery Body :=
  { s with
    finalizer := some (.replied snapshot delivery lastSeq)
    publisher := { s.publisher with sealTx := false } }

/-- One poll of the wait for the reply. -/
def awaitReply (s : Delivery Body) (snapshot : FinalizerSnapshot) : Option (Delivery Body) :=
  match s.publisher.reply with
  | some r => some (s.replied snapshot r.delivery r.lastSequence)
  | none =>
      if s.publisher.gone || s.wakeAt ≤ s.publisher.now then
        some (s.replied snapshot .deadlineExceeded 0)
      else none

def settle (s : Delivery Body) (snapshot : FinalizerSnapshot) (delivery : TerminalEventDelivery)
    (lastSeq : Nat) : Delivery Body :=
  let kind := Runtime.downgradedKind delivery snapshot.kind
  let s := if kind = snapshot.kind then s
    else { s with row := { s.row with terminal := some ⟨kind⟩ } }
  { s with finalizer := some (.publishing { snapshot with kind := kind } delivery lastSeq) }

/-- The completion is sent if there is a sender, whoever still listens, and the
finalizer returns. -/
def publish (s : Delivery Body) (snapshot : FinalizerSnapshot) (delivery : TerminalEventDelivery)
    (lastSeq : Nat) (cleanup : CleanupStatus) : Delivery Body :=
  { s with
    row := { s.row with eventSequence := lastSeq }
    finalizer := none
    completion := snapshot.completionTx.elim s.completion fun _ =>
      some (buildCompletion (endEvent s.row.transactionId snapshot.channelId snapshot.sessionId
        snapshot.kind lastSeq) delivery cleanup) }

/-- One step. The publisher of a transaction that was never started does not
move, but the clock does. -/
def step : DeliveryAction Body → Delivery Body → Option (Delivery Body)
  | .publisher (.tick elapsed), s =>
      (s.publisher.step (.tick elapsed)).map ({ s with publisher := · })
  | .publisher a, s =>
      if s.started && !a.isFinalizers then (s.publisher.step a).map ({ s with publisher := · })
      else none
  | .bindSession key, s => some { s with row := { s.row with sessionKey := some key } }
  | .acceptTerminal proposal forceUpgrade, s => some (s.acceptTerminal proposal forceUpgrade)
  | .resume, s => match s.finalizer with
      | some (.spawned sealTx) => some (s.resume sealTx)
      | _ => none
  | .awaitReply, s => match s.finalizer with
      | some (.awaitingReply snapshot) => s.awaitReply snapshot
      | _ => none
  | .settle, s => match s.finalizer with
      | some (.replied snapshot delivery lastSeq) => some (s.settle snapshot delivery lastSeq)
      | _ => none
  | .publish tasks processes tools, s => match s.finalizer with
      | some (.publishing snapshot delivery lastSeq) =>
          some (s.publish snapshot delivery lastSeq (.pending tasks processes tools))
      | _ => none
  | .abortFinalizer, s => match s.finalizer with
      | some pc =>
          if pc.awaits then
            some { s with finalizer := none, publisher := { s.publisher with sealTx := false } }
          else none
      | none => none

end Delivery

/-- A row fresh from admission. -/
structure FreshRow (row : LedgerEntry) (delivery : TransactionDelivery) : Prop where
  undecided : row.terminal = none
  delivery : row.delivery = some delivery
  completionTx : row.completionTx = none
  unported : row.publisherCmdTx = false ∧ row.publisherSealTx = false

/-- The delivery of one transaction, started or not. -/
def delivery {Body : Type} : System (Delivery Body) (DeliveryAction Body) where
  init s := ∃ estimate row ports deadline now budget started, FreshRow row ports ∧
    s = .init estimate row ports deadline now budget started
  step := Delivery.step

end Monoloop.Publisher
