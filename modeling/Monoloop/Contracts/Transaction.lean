import Monoloop.Contracts.Identity

/-!
# Transaction events, completions and delivery results

`transaction.rs` and the value types of `delivery.rs`. The bodies of canonical
units, tool lifecycle events and diagnostics are never inspected by the
lifecycle layer, so the payload type is generic in them (`Body`).
-/

namespace Monoloop

/-- Closed terminal kinds. -/
inductive TransactionEndKind where
  | completed
  | continuationRequired
  | cancelled
  | terminated
  | runtimeShutdown
  | deadlineExceeded
  | channelOpenFailed
  | encodingFailed
  | connectorFailed
  | interpretationFailed
  | toolExchangeFailed
  | eventDeliveryFailed
  | limitExceeded
  | invariantFailed
deriving DecidableEq, Repr

/-- Outcome of attempting to enqueue the terminal `Ended` event. -/
inductive TerminalEventDelivery where
  | published
  | queueClosed
  | deadlineExceeded
  | limitExceeded
  | notAttempted
deriving DecidableEq, Repr

/-- Terminal event body of the event stream (usage and diagnostics are always
the defaults on this path and are left out). -/
structure TransactionEndEvent where
  transactionId : TransactionId
  sessionId : Option SessionId
  channelId : ChannelId
  kind : TransactionEndKind
  emittedEvents : Nat
deriving DecidableEq

/-- Event payload variants. `ordinary` stands for `CanonicalUnit`,
`ToolLifecycle` and `Diagnostic`. -/
inductive TransactionEventPayload (Body : Type) where
  | sessionEstablished (externalSessionId : ExternalSessionId)
  | ordinary (body : Body)
  | endedEvent (terminal : TransactionEndEvent)
deriving DecidableEq

/-- Ordered transaction event. -/
structure TransactionEvent (Body : Type) where
  transactionId : TransactionId
  channelId : ChannelId
  sessionId : SessionId
  sequence : Nat
  payload : TransactionEventPayload Body
deriving DecidableEq

/-- Status of owned cleanup after completion publication: the finalizer always
reports `Pending` with the live counts. -/
inductive CleanupStatus where
  | complete
  | pending (ownedTasks ownedProcesses cooperativeTools : Nat)
deriving DecidableEq, Repr

/-- One-shot completion mailbox payload. -/
structure TransactionCompletion where
  «end» : TransactionEndEvent
  terminalEventDelivery : TerminalEventDelivery
  cleanup : CleanupStatus
deriving DecidableEq

/-- Result of a one-shot completion publication attempt. -/
inductive CompletionPublishResult where
  | published
  | receiverDropped
  | invariantFailed
deriving DecidableEq, Repr

/-- Event enqueue failure. -/
inductive EventEnqueueError where
  | itemCapacityExceeded
  | byteCapacityExceeded
  | eventTooLarge
  | closed
deriving DecidableEq, Repr

/-- Runtime-held half of the event mailbox, as admission sees it. -/
structure TransactionEventSender where
  maxEventItems : Nat
  maxEventBytes : Nat
deriving DecidableEq, Repr

/-- Runtime-held one-shot completion sender; `live` is the inner
`Option<oneshot::Sender>`. -/
structure TransactionCompletionSender where
  live : Bool
deriving DecidableEq, Repr

/-- Ports installed at admission. -/
structure TransactionDelivery where
  eventTx : TransactionEventSender
  completionTx : TransactionCompletionSender
deriving DecidableEq, Repr

/-- `TransactionCompletionSender::send`; whether the host still holds its
receiver is the host's choice. -/
def TransactionCompletionSender.send (sender : TransactionCompletionSender)
    (receiverAlive : Bool) : CompletionPublishResult :=
  if sender.live then
    if receiverAlive then .published else .receiverDropped
  else .invariantFailed

/-- Immutable terminal decision selected once by the supervisor. -/
structure TerminalDecision where
  kind : TransactionEndKind
deriving DecidableEq, Repr

/-- Coordinator proposal. -/
structure TerminalProposal where
  kind : TransactionEndKind
deriving DecidableEq, Repr

/-- Build a terminal event body. -/
def endEvent (transactionId : TransactionId) (channelId : ChannelId)
    (sessionId : Option SessionId) (kind : TransactionEndKind) (emittedEvents : Nat) :
    TransactionEndEvent :=
  { transactionId, sessionId, channelId, kind, emittedEvents }

/-- Build a completion mailbox payload. -/
def buildCompletion («end» : TransactionEndEvent)
    (terminalEventDelivery : TerminalEventDelivery) (cleanup : CleanupStatus) :
    TransactionCompletion :=
  { «end», terminalEventDelivery, cleanup }

/-- Whether the channel talks to an external agent or a direct LLM API. -/
inductive ChannelKind where
  | externalAgent
  | directLlm
deriving DecidableEq, Repr

/-- How tools execute for transactions on a channel. -/
inductive ToolExecutionMode where
  | mcpGateway
  | modelToolCalls
  | none
deriving DecidableEq, Repr

/-- MCP configuration installability on the external agent. -/
inductive McpConfigurationCapability where
  | none
  | creationOnly
  | refreshable
deriving DecidableEq, Repr

/-- The caller's way to stop a transaction. -/
inductive TerminationMode where
  | cancel
  | forceTerminate
deriving DecidableEq, Repr

/-- Answer to a termination request. -/
inductive TerminationDisposition where
  | accepted
  | alreadyTerminal
  | notFound
  | controlCapacityExceeded
  | runtimeClosed
deriving DecidableEq, Repr

/-- Final shutdown report. -/
structure ShutdownReport where
  completionsPublished : Nat
  completionsReceiverDropped : Nat
  completionsInvariantFailed : Nat
  runtimeShutdownTerminals : Nat
deriving DecidableEq, Repr

end Monoloop
