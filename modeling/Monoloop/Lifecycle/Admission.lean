import Monoloop.Lifecycle.Ledger

/-!
# Admission checks and capacity reservations

The part of `admission.rs` that runs before the ledger lock is taken: request
validation against the runtime's limits, and the reservation bundle of
`capacity.rs`. The locked part needs the queues and is in `Runtime`.

The request carries what admission reads of it: the content part count of each
message, the canonical byte estimate (`none` when the estimate fails) and the
deadline of the merged effective configuration or the merge's error text.
-/

namespace Monoloop.Lifecycle

/-- Admission failure kinds. -/
inductive AdmissionErrorKind where
  | runtimeShuttingDown
  | unknownChannel
  | sessionAlreadyActive
  | unknownTool
  | duplicateTool
  | invalidInput
  | invalidConfiguration
  | capabilityMismatch
  | capacityExceeded
  | spawnFailed
deriving DecidableEq, Repr

structure AdmissionError where
  kind : AdmissionErrorKind
  message : String
deriving DecidableEq, Repr

/-- What the runtime knows of a realized channel. `hasSessions` is the presence
of a session adapter. -/
structure LiveChannel where
  kind : ChannelKind
  toolMode : ToolExecutionMode
  mcpConfiguration : McpConfigurationCapability
  maxDistinctSessions : Nat
  hasSessions : Bool
deriving DecidableEq

/-- The admission ceilings of `TransactionLimits`. -/
structure AdmissionLimits where
  maxEventQueue : Nat
  maxEventQueueBytes : Nat
  maxMessages : Nat
  maxContentParts : Nat
  maxInputBytes : Nat
  maxTools : Nat
deriving DecidableEq

structure TransactionSubmitRequest where
  channelId : ChannelId
  sessionId : Option SessionId
  messageParts : List Nat
  inputBytes : Option Nat
  tools : List ToolId
  delivery : TransactionDelivery
  effectiveDeadline : Except String (Option Nat)

/-- The channel serves tools through the gateway and installs its MCP
configuration only when the session is created. -/
def LiveChannel.creationOnlyGateway (live : LiveChannel) : Bool :=
  live.toolMode = .mcpGateway && live.mcpConfiguration = .creationOnly

/-- Such a channel cannot serve tool-enabled reuse of an existing session. -/
def LiveChannel.rejectsCreationOnlyToolReuse (live : LiveChannel) : Bool :=
  live.creationOnlyGateway

/-- The tool loop: duplicates are noticed before unknown ids. -/
def validateTools (registry : List ToolId) : List ToolId → List ToolId → Except AdmissionError Unit
  | _, [] => .ok ()
  | seen, tool :: rest =>
      if tool ∈ seen then .error ⟨.duplicateTool, "duplicate tool id"⟩
      else if tool ∉ registry then .error ⟨.unknownTool, "unknown tool id"⟩
      else validateTools registry (tool :: seen) rest

/-- Steps 2 to 4 of `admit`, in the source's order. -/
def validateRequest (limits : AdmissionLimits) (registry : List ToolId)
    (channel : Option LiveChannel) (request : TransactionSubmitRequest) :
    Except AdmissionError (Option Nat) := do
  let some live := channel | .error ⟨.unknownChannel, "unknown channel"⟩
  if limits.maxEventQueue < request.delivery.eventTx.maxEventItems then
    .error ⟨.invalidConfiguration, "delivery max_event_items exceeds max_event_queue"⟩
  if limits.maxEventQueueBytes < request.delivery.eventTx.maxEventBytes then
    .error ⟨.invalidConfiguration, "delivery max_event_bytes exceeds max_event_queue_bytes"⟩
  if limits.maxMessages < request.messageParts.length then
    .error ⟨.invalidInput, "message count exceeds max_messages"⟩
  if request.messageParts.any (limits.maxContentParts < ·) then
    .error ⟨.invalidInput, "content parts exceed max_content_parts"⟩
  match request.inputBytes with
  | none => .error ⟨.invalidInput, "canonical input byte estimate failed"⟩
  | some bytes =>
      if limits.maxInputBytes < bytes then
        .error ⟨.invalidInput, "canonical input exceeds max_input_bytes"⟩
  if limits.maxTools < request.tools.length then
    .error ⟨.invalidConfiguration, "too many tools"⟩
  validateTools registry [] request.tools
  if request.sessionId.isSome && !request.tools.isEmpty && live.rejectsCreationOnlyToolReuse then
    .error ⟨.capabilityMismatch, "CreationOnly rejects tool-enabled existing-session reuse"⟩
  match request.effectiveDeadline with
  | .error message => .error ⟨.invalidConfiguration, message⟩
  | .ok deadline =>
      if deadline = some 0 then
        .error ⟨.invalidConfiguration, "invocation deadline must be non-zero"⟩
      pure deadline

structure ChannelSlot where
  max : Nat
  active : Nat
deriving DecidableEq

/-- Runtime-wide reservation pool. -/
structure ReservationPool where
  maxGlobal : Nat
  maxLedger : Nat
  globalActive : Nat
  ledgerActive : Nat
  perChannel : HashMap ChannelId ChannelSlot

namespace ReservationPool

/-- Ledger capacity equals global. -/
def new (maxGlobal : Nat) (perChannel : HashMap ChannelId ChannelSlot) : ReservationPool :=
  { maxGlobal, maxLedger := maxGlobal, globalActive := 0, ledgerActive := 0, perChannel }

/-- Active reservations of one channel. -/
def channelActive (pool : ReservationPool) (channel : ChannelId) : Nat :=
  ((pool.perChannel.lookup channel).map (·.active)).getD 0

/-- Acquire the full bundle without waiting; a bundle that cannot be completed
leaves every counter as it was. -/
def tryReserve (pool : ReservationPool) (channel : ChannelId) : Option ReservationPool :=
  match pool.perChannel.lookup channel with
  | none => none
  | some slot =>
      if pool.maxGlobal ≤ pool.globalActive then none
      else if slot.max ≤ slot.active then none
      else if pool.maxLedger ≤ pool.ledgerActive then none
      else some { pool with
        globalActive := pool.globalActive + 1
        ledgerActive := pool.ledgerActive + 1
        perChannel := pool.perChannel.insert channel { slot with active := slot.active + 1 } }

/-- Drop of a reservation bundle. -/
def release (pool : ReservationPool) (channel : ChannelId) : ReservationPool :=
  { pool with
    globalActive := pool.globalActive - 1
    ledgerActive := pool.ledgerActive - 1
    perChannel := HashMap.modify pool.perChannel channel
      (fun slot => { slot with active := slot.active - 1 }) }

end ReservationPool

end Monoloop.Lifecycle
