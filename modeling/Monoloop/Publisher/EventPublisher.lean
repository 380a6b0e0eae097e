import Monoloop.Lib.Transition
import Monoloop.Publisher.Mailbox
import Monoloop.Publisher.SessionIdentity

/-!
# The event publisher of one transaction

`event_publisher.rs` as a process. The publisher is the only writer of the host
mailbox and the only allocator of sequence numbers; it serves an ordinary command
channel and a seal channel of capacity one. Its future is a program counter, one
value for each select it can wait in.

A poll of a select is one step at one clock value: the arms are tried in the
order of the source, and a sleep whose deadline has passed is ready. Everything
else (senders, the host, the clock, an abort) moves between two polls.

`accepted`, `taken` and `sealed` are not in the source: they record the commands
that entered the ordinary channel and those the publisher took out of it, oldest
first, and the seal it took.
-/

namespace Monoloop.Publisher

open Transition (System)

/-- Ordinary and establish commands. -/
inductive EventPublisherCommand (Body : Type) where
  | establishExternal (external : ExternalSessionId)
  | publish (payload : TransactionEventPayload Body)
deriving DecidableEq

/-- Every caller publishes a unit or a tool event, never an establishment or a
terminal event. -/
def EventPublisherCommand.isOrdinary {Body : Type} : EventPublisherCommand Body → Bool
  | .establishExternal _ => true
  | .publish (.ordinary _) => true
  | .publish _ => false

/-- Terminal seal. Its reply port is the publisher's `reply`. -/
structure SealCommand where
  terminal : TransactionEndEvent
  deadline : Nat
deriving DecidableEq

/-- Result of a seal. -/
structure TerminalPublicationResult where
  delivery : TerminalEventDelivery
  lastSequence : Nat
deriving DecidableEq

/-- An event on its way into the mailbox. `establishes` is the session id that
its delivery establishes. -/
structure InFlight (Body : Type) where
  event : TransactionEvent Body
  establishes : Option SessionId
  send : SendState

/-- Where the publisher waits. -/
inductive PublisherPc (Body : Type) where
  /-- The select at the loop head. -/
  | select
  /-- A delivery failed: only the seal is awaited. -/
  | sticky (fail : TerminalEventDelivery)
  /-- `wait_send_or_seal`. -/
  | sending (flight : InFlight Body) (sealAlive : Bool)
  /-- The same, after the seal arrived. -/
  | sealedSending (flight : InFlight Body) (cmd : SealCommand)
  /-- The drain of `fence_drain_and_seal`. -/
  | fence (cmd : SealCommand)
  | fenceSending (flight : InFlight Body) (cmd : SealCommand)
  /-- `drain_to_disconnect`, after a failure. -/
  | draining (cmd : SealCommand) (fail : TerminalEventDelivery)
  /-- The enqueue of `Ended`. -/
  | ending (flight : InFlight Body) (cmd : SealCommand)
  /-- Returned, or aborted when there is no result. -/
  | returned (result : Option TerminalPublicationResult)

/-- The send that the future holds. -/
def PublisherPc.flight? {Body : Type} : PublisherPc Body → Option (InFlight Body)
  | .sending flight _ | .sealedSending flight _ | .fenceSending flight _ | .ending flight _ =>
      some flight
  | _ => none

/-- The seal that the future holds. -/
def PublisherPc.seal? {Body : Type} : PublisherPc Body → Option SealCommand
  | .sealedSending _ cmd | .fence cmd | .fenceSending _ cmd | .draining cmd _ | .ending _ cmd =>
      some cmd
  | _ => none

structure EventPublisher (Body : Type) where
  estimateEventBytes : TransactionEvent Body → Nat
  transactionId : TransactionId
  channelId : ChannelId
  sessionId : Option SessionId
  deadline : Nat
  now : Nat
  mailbox : Mailbox Body
  /-- The gate of `OrdinaryCmdAdmit` still holds its sender. -/
  gate : Bool
  /-- Sends that cloned the sender and wait for a slot. -/
  parked : List (EventPublisherCommand Body)
  queue : List (EventPublisherCommand Body)
  accepted : List (EventPublisherCommand Body)
  taken : List (EventPublisherCommand Body)
  sealTx : Bool
  sealQueue : Option SealCommand
  sealed : Option SealCommand
  reply : Option TerminalPublicationResult
  pc : PublisherPc Body
  nextSeq : Nat
  lastCommitted : Nat
  session : Option SessionId
  sessionEstablished : Bool
  cmdClosed : Bool
  sealClosed : Bool

variable {Body : Type}

namespace EventPublisher

/-- Capacity of the ordinary command channel. -/
def commandCapacity : Nat := 64

/-- The publisher as `handle_start` spawns it. -/
def start (estimateEventBytes : TransactionEvent Body → Nat) (transactionId : TransactionId)
    (channelId : ChannelId) (sessionId : Option SessionId) (sender : TransactionEventSender)
    (deadline now : Nat) : EventPublisher Body where
  estimateEventBytes := estimateEventBytes
  transactionId := transactionId
  channelId := channelId
  sessionId := sessionId
  deadline := deadline
  now := now
  mailbox := .new sender
  gate := true
  parked := []
  queue := []
  accepted := []
  taken := []
  sealTx := true
  sealQueue := none
  sealed := none
  reply := none
  pc := .select
  nextSeq := 1
  lastCommitted := 0
  session := sessionId
  sessionEstablished := false
  cmdClosed := false
  sealClosed := false

/-- Its receivers are dropped when the publisher is gone. -/
def gone (p : EventPublisher Body) : Bool :=
  match p.pc with
  | .returned _ => true
  | _ => false

def goto (p : EventPublisher Body) (pc : PublisherPc Body) : EventPublisher Body := { p with pc }

/-- The seal leaves its channel. -/
def takeSeal (p : EventPublisher Body) (cmd : SealCommand) : EventPublisher Body :=
  { p with sealQueue := none, sealed := some cmd }

/-- A command leaves its channel. -/
def takeNext (p : EventPublisher Body) (cmd : EventPublisherCommand Body)
    (rest : List (EventPublisherCommand Body)) : EventPublisher Body :=
  { p with queue := rest, taken := p.taken ++ [cmd] }

def closeGate (p : EventPublisher Body) : EventPublisher Body := { p with gate := false }

/-- No sender of the ordinary channel is left. -/
def disconnected (p : EventPublisher Body) : Bool := !p.gate && p.parked.isEmpty

/-- The last sender of the seal channel is gone and nothing is queued. -/
def sealDisconnected (p : EventPublisher Body) : Bool := !p.sealTx && p.sealQueue.isNone

def mapSendErr : EventEnqueueError → TerminalEventDelivery
  | .closed => .queueClosed
  | .eventTooLarge | .byteCapacityExceeded | .itemCapacityExceeded => .limitExceeded

def event (p : EventPublisher Body) (sessionId : SessionId)
    (payload : TransactionEventPayload Body) : TransactionEvent Body :=
  { transactionId := p.transactionId
    channelId := p.channelId
    sessionId
    sequence := p.nextSeq
    payload }

/-- The event is in the mailbox: its number is used up, and an establishment
takes effect. (`finish_seal` leaves `next_seq` alone; nothing reads it again.) -/
def commit (p : EventPublisher Body) (flight : InFlight Body) : EventPublisher Body :=
  let p := { p with
    lastCommitted := flight.event.sequence
    nextSeq := saturatingAdd flight.event.sequence 1 }
  match flight.establishes with
  | none => p
  | some sid =>
      { p with
        session := (ensureSession p.session (some sid) p.transactionId).1
        sessionEstablished := true }

/-- Drop of an unfinished send. -/
def abandon (p : EventPublisher Body) (flight : InFlight Body) : EventPublisher Body :=
  { p with mailbox := p.mailbox.dropSend flight.send }

/-- Return; a seal that was taken gets its reply. -/
def finish (p : EventPublisher Body) (delivery : TerminalEventDelivery) (replies : Bool) :
    EventPublisher Body :=
  let result : TerminalPublicationResult := ⟨delivery, p.lastCommitted⟩
  { p with pc := .returned (some result), reply := if replies then some result else none }

/-! ## Commands -/

/-- An establishment is ignored once anything was delivered. -/
def ignoresEstablish (p : EventPublisher Body) : Bool := p.sessionEstablished || p.nextSeq ≠ 1

def establishFlight (p : EventPublisher Body) (external : ExternalSessionId) : InFlight Body :=
  let sid := SessionId.fromExternal external
  ⟨p.event sid (.sessionEstablished external), some sid, .fresh⟩

/-- Handle one command; `wait` is the select its send waits in. -/
def takeCommand (p : EventPublisher Body) (wait : InFlight Body → PublisherPc Body)
    (cmd : EventPublisherCommand Body) : EventPublisher Body :=
  match cmd with
  | .establishExternal external =>
      if p.ignoresEstablish then p else p.goto (wait (p.establishFlight external))
  | .publish payload =>
      let (session, sid) := ensureSession p.session none p.transactionId
      { p with session }.goto (wait ⟨p.event sid payload, none, .fresh⟩)

/-- Poll the send of the event in flight. -/
def pollFlight (p : EventPublisher Body) (flight : InFlight Body)
    (wait : InFlight Body → PublisherPc Body)
    (done : EventPublisher Body → Except TerminalEventDelivery Unit → EventPublisher Body) :
    EventPublisher Body :=
  let (mailbox, poll) := p.mailbox.pollSend p.estimateEventBytes flight.event flight.send
  let p := { p with mailbox }
  match poll with
  | .pending send => p.goto (wait { flight with send })
  | .ready (.ok ()) => done (p.commit flight) (.ok ())
  | .ready (.error e) => done p (.error (mapSendErr e))

/-- `finish_seal` up to its enqueue. -/
def beginEnded (p : EventPublisher Body) (cmd : SealCommand) : EventPublisher Body :=
  let (session, sid) := ensureSession p.session cmd.terminal.sessionId p.transactionId
  let terminal := { cmd.terminal with emittedEvents := p.nextSeq, sessionId := some sid }
  { p with session }.goto (.ending ⟨p.event sid (.endedEvent terminal), none, .fresh⟩ cmd)

/-! ## One poll of each select -/

/-- The command arm of the loop head. -/
def pollSelectCommand (p : EventPublisher Body) : EventPublisher Body :=
  if p.cmdClosed then p
  else match p.queue with
    | cmd :: rest =>
        (p.takeNext cmd rest).takeCommand (.sending · true) cmd
    | [] =>
        if p.disconnected then
          let p := { p with cmdClosed := true }
          if p.sealClosed then p.finish .queueClosed false else p
        else p

def pollSelect (p : EventPublisher Body) : EventPublisher Body :=
  if p.sealClosed then p.pollSelectCommand
  else match p.sealQueue with
    | some cmd => (p.takeSeal cmd).closeGate.goto (.fence cmd)
    | none =>
        if p.sealDisconnected then
          let p := { p with sealClosed := true }.closeGate
          if p.cmdClosed then p.finish .queueClosed false else p
        else p.pollSelectCommand

def pollSticky (p : EventPublisher Body) (fail : TerminalEventDelivery) : EventPublisher Body :=
  match p.sealQueue with
  | some cmd => (p.takeSeal cmd).closeGate.goto (.draining cmd fail)
  | none => if p.sealDisconnected then p.closeGate.finish fail false else p

/-- The sleep and the send of `wait_send_or_seal`. -/
def pollSendingDeadline (p : EventPublisher Body) (flight : InFlight Body) (sealAlive : Bool) :
    EventPublisher Body :=
  if p.deadline ≤ p.now then (p.abandon flight).goto (.sticky .deadlineExceeded)
  else p.pollFlight flight (.sending · sealAlive) fun p result => match result with
    | .ok () => p.goto .select
    | .error fail => p.goto (.sticky fail)

def pollSending (p : EventPublisher Body) (flight : InFlight Body) (sealAlive : Bool) :
    EventPublisher Body :=
  if sealAlive then
    match p.sealQueue with
    | some cmd => (p.takeSeal cmd).goto (.sealedSending flight cmd)
    | none =>
        if p.sealDisconnected then p.goto (.sending flight false)
        else p.pollSendingDeadline flight sealAlive
  else p.pollSendingDeadline flight sealAlive

/-- After a send under the seal's deadline: on to the fence, or drain what the
failure made undeliverable. -/
def fenceOrDrain (cmd : SealCommand) (p : EventPublisher Body) :
    Except TerminalEventDelivery Unit → EventPublisher Body
  | .ok () => p.goto (.fence cmd)
  | .error fail => p.goto (.draining cmd fail)

def pollSealedSending (p : EventPublisher Body) (flight : InFlight Body) (cmd : SealCommand) :
    EventPublisher Body :=
  if cmd.deadline ≤ p.now then
    (p.abandon flight).closeGate.goto (.draining cmd .deadlineExceeded)
  else p.pollFlight flight (.sealedSending · cmd) fun p result =>
    fenceOrDrain cmd p.closeGate result

def pollFence (p : EventPublisher Body) (cmd : SealCommand) : EventPublisher Body :=
  if cmd.deadline ≤ p.now then p.goto (.draining cmd .deadlineExceeded)
  else match p.queue with
    | next :: rest =>
        (p.takeNext next rest).takeCommand (.fenceSending · cmd) next
    | [] => if p.disconnected then p.beginEnded cmd else p

def pollFenceSending (p : EventPublisher Body) (flight : InFlight Body) (cmd : SealCommand) :
    EventPublisher Body :=
  if cmd.deadline ≤ p.now then (p.abandon flight).goto (.draining cmd .deadlineExceeded)
  else p.pollFlight flight (.fenceSending · cmd) (fenceOrDrain cmd)

def pollDraining (p : EventPublisher Body) (cmd : SealCommand) (fail : TerminalEventDelivery) :
    EventPublisher Body :=
  if cmd.deadline ≤ p.now then p.finish fail true
  else match p.queue with
    | next :: rest => p.takeNext next rest
    | [] => if p.disconnected then p.finish fail true else p

def pollEnding (p : EventPublisher Body) (flight : InFlight Body) (cmd : SealCommand) :
    EventPublisher Body :=
  if cmd.deadline ≤ p.now then (p.abandon flight).finish .deadlineExceeded true
  else p.pollFlight flight (.ending · cmd) fun p result => match result with
    | .ok () => p.finish .published true
    | .error fail => p.finish fail true

/-- One poll of the publisher's future. -/
def poll (p : EventPublisher Body) : Option (EventPublisher Body) :=
  match p.pc with
  | .select => some p.pollSelect
  | .sticky fail => some (p.pollSticky fail)
  | .sending flight sealAlive => some (p.pollSending flight sealAlive)
  | .sealedSending flight cmd => some (p.pollSealedSending flight cmd)
  | .fence cmd => some (p.pollFence cmd)
  | .fenceSending flight cmd => some (p.pollFenceSending flight cmd)
  | .draining cmd fail => some (p.pollDraining cmd fail)
  | .ending flight cmd => some (p.pollEnding flight cmd)
  | .returned _ => none

/-- The future is dropped, and an unfinished send with it. -/
def abort (p : EventPublisher Body) : EventPublisher Body :=
  (p.pc.flight?.elim p p.abandon).goto (.returned none)

end EventPublisher

/-! ## The publisher and its surroundings -/

/-- Everything that can happen to the publisher. -/
inductive PublisherAction (Body : Type) where
  | poll
  /-- The task is aborted or panics. -/
  | abort
  /-- A send passes the gate. -/
  | send (cmd : EventPublisherCommand Body)
  /-- The `n`th parked send finds a slot, or finds the channel closed. -/
  | enqueue (n : Nat)
  /-- The `n`th parked send is dropped. -/
  | withdraw (n : Nat)
  | closeGate
  /-- `try_send` on the seal channel. -/
  | sendSeal (cmd : SealCommand)
  | dropSeal
  | hostRecv
  | hostDrop
  | tick (elapsed : Nat)

/-- The gate and the seal channel are the finalizer's to use. -/
def PublisherAction.isFinalizers {Body : Type} : PublisherAction Body → Bool
  | .closeGate | .sendSeal _ | .dropSeal => true
  | _ => false

namespace EventPublisher

/-- One step of the publisher or of what surrounds it. -/
def step : PublisherAction Body → EventPublisher Body → Option (EventPublisher Body)
  | .poll, p => p.poll
  | .abort, p => if p.gone then none else some p.abort
  | .send cmd, p =>
      if p.gate && cmd.isOrdinary then some { p with parked := p.parked ++ [cmd] } else none
  | .enqueue n, p => match p.parked[n]? with
      | some cmd =>
          let p := { p with parked := p.parked.eraseIdx n }
          if p.gone then some p
          else if p.queue.length < commandCapacity then
            some { p with queue := p.queue ++ [cmd], accepted := p.accepted ++ [cmd] }
          else none
      | none => none
  | .withdraw n, p => some { p with parked := p.parked.eraseIdx n }
  | .closeGate, p => some p.closeGate
  | .sendSeal cmd, p =>
      if p.sealTx && !p.gone && p.sealQueue.isNone then some { p with sealQueue := some cmd }
      else none
  | .dropSeal, p => some { p with sealTx := false }
  | .hostRecv, p => p.mailbox.recv.map ({ p with mailbox := · })
  | .hostDrop, p => some { p with mailbox := p.mailbox.dropReceiver }
  | .tick elapsed, p => some { p with now := p.now + elapsed }

end EventPublisher

/-- The event publisher of a started transaction. -/
def publisher : System (EventPublisher Body) (PublisherAction Body) where
  init p := ∃ estimate tx channel session sender deadline now,
    p = .start estimate tx channel session sender deadline now
  step := EventPublisher.step

end Monoloop.Publisher
