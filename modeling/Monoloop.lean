import Monoloop.Lib.Transition
import Monoloop.Lib.HashMap
import Monoloop.Lib.OrderedMap
import Monoloop.Lib.Counting
import Monoloop.Lib.InPlace
import Monoloop.Lib.Pieces
import Monoloop.Lib.Triple
import Monoloop.Lib.Usize
import Monoloop.Lib.Utf8
import Monoloop.Lib.JsonText
import Monoloop.Lib.Framing
import Monoloop.Lib.Transducer
import Monoloop.Contracts.Identity
import Monoloop.Contracts.Transaction
import Monoloop.Contracts.Canonical
import Monoloop.Contracts.Input
import Monoloop.Contracts.JsonDepth
import Monoloop.Contracts.InputRules
import Monoloop.Lifecycle.TaskSupervisor
import Monoloop.Lifecycle.Reaping
import Monoloop.Lifecycle.Ledger
import Monoloop.Lifecycle.LedgerIndex
import Monoloop.Lifecycle.Admission
import Monoloop.Mcp.Binding
import Monoloop.Mcp.Routes
import Monoloop.Mcp.Gateway
import Monoloop.Lifecycle.Runtime
import Monoloop.Lifecycle.Supervisor
import Monoloop.Lifecycle.View
import Monoloop.Lifecycle.Simulation
import Monoloop.Lifecycle.Loop
import Monoloop.Lifecycle.LoopInvariant
import Monoloop.Lifecycle.Machine
import Monoloop.Lifecycle.Finalization
import Monoloop.Lifecycle.Completion
import Monoloop.Lifecycle.Accounts
import Monoloop.Lifecycle.Terminal
import Monoloop.Lifecycle.Proposal
import Monoloop.Lifecycle.Ownership
import Monoloop.Lifecycle.Holdings
import Monoloop.Lifecycle.Reservations
import Monoloop.Lifecycle.AdmissionAtomic
import Monoloop.Lifecycle.StartQueue
import Monoloop.Lifecycle.Capacity
import Monoloop.Lifecycle.Refusal
import Monoloop.Publisher.SessionIdentity
import Monoloop.Publisher.Mailbox
import Monoloop.Publisher.ByteBudget
import Monoloop.Publisher.EventPublisher
import Monoloop.Publisher.Poll
import Monoloop.Publisher.Sequencing
import Monoloop.Publisher.Delivery
import Monoloop.Publisher.Agreement
import Monoloop.Publisher.Coherence
import Monoloop.ToolLoop.Owner
import Monoloop.ToolLoop.Turns
import Monoloop.ToolLoop.Dispatch
import Monoloop.ToolLoop.Redelivery
import Monoloop.ToolLoop.History
import Monoloop.ToolLoop.Table
import Monoloop.ToolLoop.Terminal
import Monoloop.ToolLoop.Isolation
import Monoloop.ToolDispatch.Capacity
import Monoloop.ToolDispatch.QueueCount
import Monoloop.ToolDispatch.Permit
import Monoloop.ToolDispatch.ProcessTool
import Monoloop.ToolDispatch.ProcessTurns
import Monoloop.ToolDispatch.OwnedProcesses
import Monoloop.Coordinator.LoopDispatch
import Monoloop.Coordinator.Transcript
import Monoloop.Coordinator.Exchange
import Monoloop.Coordinator.Collection
import Monoloop.Coordinator.Accounting
import Monoloop.Coordinator.Continuation
import Monoloop.Interpreter.Sentence
import Monoloop.Interpreter.SentenceScan
import Monoloop.Interpreter.FirstSentence
import Monoloop.Interpreter.SentenceDrain
import Monoloop.Interpreter.Fragmentation
import Monoloop.Interpreter.JsonFraming
import Monoloop.Interpreter.Fragment
import Monoloop.Interpreter.OpenAiChat
import Monoloop.Interpreter.SseChunks
import Monoloop.Interpreter.ToolCalls
import Monoloop.Interpreter.Dialects
import Monoloop.Interpreter.Assembly
import Monoloop.Interpreter.Engine
import Monoloop.Interpreter.EngineRun
import Monoloop.Interpreter.ToolEvents
import Monoloop.Interpreter.ToolLifecycle
import Monoloop.Interpreter.PendingTools
import Monoloop.Interpreter.IterationOrder
import Monoloop.Interpreter.Quarantine
import Monoloop.Interpreter.FramedDialects
import Monoloop.Interpreter.CleanEnd
import Monoloop.Interpreter.Chunking
import Monoloop.Interpreter.Emission
import Monoloop.Interpreter.EndReport
import Monoloop.Interpreter.LaneOrder
import Monoloop.Interpreter.Attribution
import Monoloop.Interpreter.Speech
import Monoloop.Interpreter.SseGrammar
import Monoloop.Interpreter.SpelledText
import Monoloop.Connector.Control
import Monoloop.Connector.TerminalRace
import Monoloop.Connector.Wakeup
import Monoloop.Connector.HttpOwner
import Monoloop.Connector.HttpDelivery
import Monoloop.Grok.JsonRpc
import Monoloop.Grok.Inbound
import Monoloop.Grok.Panics
import Monoloop.Grok.Answers
import Monoloop.Cursor.Inbound
import Monoloop.Grok.RpcTable
import Monoloop.Grok.RpcLeak
import Monoloop.Grok.Sessions
import Monoloop.Grok.SessionRoutes
import Monoloop.Coordinator.Scoping
import Monoloop.ToolDispatch.Validation
import Monoloop.Coordinator.AcceptedOutput
import Monoloop.Lib.Calendar
import Monoloop.Lib.Decimal
import Monoloop.Interpreter.Timestamp
import Monoloop.Cursor.LineReader
import Monoloop.Mcp.Paths
import Monoloop.Outbound.Config
import Monoloop.Outbound.Encoding
import Monoloop.Outbound.OpenAiEncoder
import Monoloop.Outbound.Conversation
import Monoloop.Outbound.AcpEncoder
import Monoloop.Outbound.Extensions
import Monoloop.Coordinator.Requests
import Monoloop.Tools.Registry
import Monoloop.Tools.Surface
import Monoloop.Tools.Dispatch
import Monoloop.Tools.Outcome
import Monoloop.Coordinator.SupervisedPass
import Monoloop.Coordinator.PassRefinement
import Monoloop.Coordinator.PassProgress
