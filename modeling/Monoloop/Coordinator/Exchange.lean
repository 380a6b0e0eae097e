import Monoloop.Contracts.Canonical
import Monoloop.Lib.Transition
import Monoloop.Lib.Usize

/-!
# One provider exchange

`run_encoded_exchange` from the point where the connection is open: a pump moves
provider output to the interpretation, the interpretation publishes units and its
end report, a collector retains the units, and the coordinator selects over the
end reports, the limit signals, cancellation and the deadline before it waits for
its children within a grace period. Every receive, send and poll is a step of its
own.

What the interpretation makes of a chunk is an argument of the step: any units,
and any failure. `log` and `bytes` are observations that no step reads.
-/

namespace Monoloop.Coordinator

open Transition (System)

/-- Commands to the interpretation. -/
inductive InputCmd where
  | bytes (len : Nat)
  | finishClean
  | cancel
  | transportFailed
deriving DecidableEq, Repr

/-- Connection terminal kinds. -/
inductive ConnectionEndKind where
  | cancelled
  | terminated
  | transportFailure
  | remoteEof
  | localShutdown
deriving DecidableEq, Repr

/-- Failure before a successful terminal mapping. -/
inductive ExchangeFailure where
  | channelOpenFailed
  | encodingFailed
  | connectorFailed
  | interpretationFailed
  | cancelled
  | terminated
  | limitExceeded
  | deadlineExceeded
  | invariantFailed
  | spawnFailed
deriving DecidableEq, Repr

/-- A failure to report, or none when both ends are clean. -/
def reconcileTerminals (conn : ConnectionEndKind) (interp : InterpretationEndKind) :
    Option ExchangeFailure :=
  match conn with
  | .cancelled => some .cancelled
  | .terminated => some .terminated
  | .transportFailure => some .connectorFailed
  | .remoteEof | .localShutdown =>
      match interp with
      | .complete => none
      | .cancelled => some .cancelled
      | .terminated => some .terminated
      | .transportFailed => some .connectorFailed
      | .dialectFailed | .limitExceeded | .invariantFailed => some .interpretationFailed

def estimateRetainedUnitBytes (unit : CanonicalUnitEvent) : Nat :=
  let content :=
    match unit.snapshot.unit with
    | .text content => content.utf8ByteSize
    | .structural content => content.utf8ByteSize
    | .tool tool =>
        satAdd (tool.requestPayload.elim 0 (·.utf8ByteSize))
          (tool.resultPayload.elim 0 (·.utf8ByteSize))
    | .diagnostic message => message.utf8ByteSize
    | _ => 32
  satAdd content 128

/-- Capacity of the interpretation's command queue. -/
def commandCapacity : Nat := 64

/-- Capacity of its event queue, `InterpretationLimits::default`. -/
def eventCapacity : Nat := 4096

/-- Classes of interpreter errors that its end report distinguishes. -/
inductive InterpreterFailure where
  | cancelled
  | limit
  | other
deriving DecidableEq, Repr

/-- End of an interpretation that fails on a chunk. -/
def ingestEnd : InterpreterFailure → InterpretationEndKind
  | .cancelled => .cancelled
  | .limit => .limitExceeded
  | .other => .dialectFailed

/-- End of an interpretation that fails while it seals. -/
def sealEnd : InterpreterFailure → InterpretationEndKind
  | .cancelled => .cancelled
  | .limit => .limitExceeded
  | .other => .transportFailed

inductive Pump where
  | receiving
  | sending (cmd : InputCmd)
  | done
deriving DecidableEq, Repr

/-- What the interpretation does after publishing. -/
inductive Next where
  | resume
  | finish (kind : InterpretationEndKind)
deriving DecidableEq, Repr

inductive Interpreter where
  | idle
  /-- Units still to publish, what follows them, and what follows a failed send. -/
  | publishing (rest : List CanonicalUnitEvent) (next failed : Next)
  | finishing (kind : InterpretationEndKind)
  | reporting (kind : InterpretationEndKind)
  | ended
deriving DecidableEq

def Next.interpreter : Next → Interpreter
  | .resume => .idle
  | .finish kind => .finishing kind

inductive Collector where
  | absent
  | collecting (retained : Nat)
  | done
  /-- Never started: the exchange failed first. -/
  | dropped
deriving DecidableEq, Repr

/-- The arms of the biased select, in order. -/
inductive Arm where
  | cancel
  | limit
  | outputLimit
  | deadline
  | ends
deriving DecidableEq, Repr

structure EncodedExchangeOk where
  units : List CanonicalUnitEvent
  receivedOutputBytes : Nat
deriving DecidableEq

/-- Where the coordinator is. `none` is success. -/
inductive Phase where
  /-- Prompt gate, request, spawn of the collector. -/
  | preparing
  | selecting (arm : Arm)
  /-- Awaiting the children. -/
  | waiting (failure : Option ExchangeFailure)
  | leaving (failure : Option ExchangeFailure)
  | failed (failure : ExchangeFailure)
  | returned (ok : EncodedExchangeOk)
deriving DecidableEq

structure ExchangeBudget where
  maxRetained : Nat
  /-- Remaining provider output bytes. -/
  maxOutput : Nat
deriving DecidableEq, Repr

structure Exchange where
  pump : Pump
  /-- The shared `AtomicUsize`. -/
  received : Nat
  /-- Bytes the pump has received. -/
  bytes : Nat
  outputLimit : Bool
  commands : List InputCmd
  interpreter : Interpreter
  events : List InterpreterOutputEvent
  /-- Everything the interpretation published, in order. -/
  log : List InterpreterOutputEvent
  interpretationEnd : Option InterpretationEndKind
  connectionEnd : Option ConnectionEndKind
  ownerDone : Bool
  collector : Collector
  units : List CanonicalUnitEvent
  limit : Bool
  cancelled : Bool
  deadline : Bool
  phase : Phase
deriving DecidableEq

def Exchange.opened : Exchange where
  pump := .receiving
  received := 0
  bytes := 0
  outputLimit := false
  commands := []
  interpreter := .idle
  events := []
  log := []
  interpretationEnd := none
  connectionEnd := none
  ownerDone := false
  collector := .absent
  units := []
  limit := false
  cancelled := false
  deadline := false
  phase := .preparing

inductive ExchangeAction where
  /-- The pump receives a chunk, the end of the output, or an error. -/
  | chunk (len : Nat)
  | outputEnded
  | outputFailed (cancelled : Bool)
  /-- The pump's command is sent. -/
  | push
  /-- The interpretation handles a command. -/
  | interpret (units : List CanonicalUnitEvent) (failure : Option InterpreterFailure)
  | publish
  | report
  | connectionEnded (kind : ConnectionEndKind)
  | ownerDone
  | collect
  | cancel
  | deadline
  | prepared
  | prepareFailed (failure : ExchangeFailure)
  | poll
  /-- All children have ended. -/
  | joined
  | graceExpired
  | leave
deriving DecidableEq

/-- The longest slice. -/
def isizeMax : Nat := 2 ^ 63 - 1

namespace Exchange

variable (budget : ExchangeBudget) (s : Exchange)

/-- The event receiver is gone. -/
def closed : Bool := s.collector = .done || s.collector = .dropped

/-- A chunk: `fetch_add` wraps, the total that is checked saturates. -/
def onChunk (len : Nat) : Option Exchange :=
  if s.pump = .receiving ∧ len ≤ isizeMax then
    let total := satAdd s.received len
    let s := { s with received := (s.received + len) % 2 ^ 64, bytes := s.bytes + len }
    if budget.maxOutput < total then
      some { s with outputLimit := true, pump := .sending .transportFailed }
    else some { s with pump := .sending (.bytes len) }
  else none

/-- `Ok(None)`, or an error, from the connection's output. -/
def onOutputEnd (cmd : InputCmd) : Option Exchange :=
  if s.pump = .receiving then some { s with pump := .sending cmd } else none

/-- The pump goes on after a chunk and stops after anything else. -/
def pumpAfter : InputCmd → Pump
  | .bytes _ => .receiving
  | _ => .done

def onPush : Option Exchange :=
  match s.pump with
  | .sending cmd =>
      if s.interpreter = .ended then some { s with pump := .done }
      else if s.commands.length < commandCapacity then
        some { s with commands := s.commands ++ [cmd], pump := pumpAfter cmd }
      else none
  | _ => none

/-- What follows the units a command makes the interpretation publish. -/
def interpretation (units : List CanonicalUnitEvent) (failure : Option InterpreterFailure) :
    InputCmd → Interpreter
  | .bytes _ =>
      .publishing units (failure.elim .resume (.finish <| ingestEnd ·)) (.finish (ingestEnd .other))
  | .finishClean =>
      .publishing units (.finish (failure.elim .complete sealEnd)) (.finish (sealEnd .other))
  | .cancel => .publishing units (.finish .cancelled) (.finish .cancelled)
  | .transportFailed => .publishing units (.finish .transportFailed) (.finish .transportFailed)

def onInterpret (units : List CanonicalUnitEvent) (failure : Option InterpreterFailure) :
    Option Exchange :=
  match s.interpreter, s.commands with
  | .idle, cmd :: rest =>
      some { s with commands := rest, interpreter := interpretation units failure cmd }
  | _, _ => none

/-- Send an event; a send to a receiver that is gone fails. -/
def send (event : InterpreterOutputEvent) (sent unsent : Interpreter) : Option Exchange :=
  if s.closed then some { s with interpreter := unsent }
  else if s.events.length < eventCapacity then
    some { s with events := s.events ++ [event], log := s.log ++ [event], interpreter := sent }
  else none

def onPublish : Option Exchange :=
  match s.interpreter with
  | .publishing [] next _ => some { s with interpreter := next.interpreter }
  | .publishing (unit :: rest) next failed =>
      s.send (.unit unit) (.publishing rest next failed) failed.interpreter
  | .finishing kind => s.send (.ended kind) (.reporting kind) (.reporting kind)
  | _ => none

def onReport : Option Exchange :=
  match s.interpreter with
  | .reporting kind => some { s with interpretationEnd := some kind, interpreter := .ended }
  | _ => none

def onCollect : Option Exchange :=
  match s.collector, s.events with
  | .collecting retained, .unit unit :: rest =>
      let add := estimateRetainedUnitBytes unit
      if budget.maxRetained < satAdd retained add then
        some { s with limit := true, events := rest, collector := .done }
      else
        some { s with
          events := rest
          units := s.units ++ [unit]
          collector := .collecting (satAdd retained add) }
  | .collecting _, .ended _ :: rest => some { s with events := rest, collector := .done }
  | .collecting _, [] =>
      if s.interpreter = .ended then some { s with collector := .done } else none
  | _, _ => none

/-- One arm of the select. -/
def onPoll : Option Exchange :=
  match s.phase with
  | .selecting .cancel =>
      if s.cancelled then some { s with phase := .waiting (some .cancelled) }
      else some { s with phase := .selecting .limit }
  | .selecting .limit =>
      if s.limit then some { s with phase := .waiting (some .limitExceeded) }
      else some { s with phase := .selecting .outputLimit }
  | .selecting .outputLimit =>
      if s.outputLimit then some { s with phase := .waiting (some .limitExceeded) }
      else some { s with phase := .selecting .deadline }
  | .selecting .deadline =>
      if s.deadline then some { s with phase := .waiting (some .deadlineExceeded) }
      else some { s with phase := .selecting .ends }
  | .selecting .ends =>
      match s.interpretationEnd, s.connectionEnd with
      | some interp, some conn => some { s with phase := .waiting (reconcileTerminals conn interp) }
      | _, _ => some { s with phase := .selecting .cancel }
  | _ => none

/-- The wait for the children is over. -/
def onWaited : Option Exchange :=
  match s.phase with
  | .waiting failure => some { s with phase := .leaving failure }
  | _ => none

def onLeave : Option Exchange :=
  match s.phase with
  | .leaving none => some { s with phase := .returned ⟨s.units, s.received⟩ }
  | .leaving (some failure) => some { s with phase := .failed failure }
  | _ => none

def step : ExchangeAction → Option Exchange
  | .chunk len => s.onChunk budget len
  | .outputEnded => s.onOutputEnd .finishClean
  | .outputFailed cancelled => s.onOutputEnd (if cancelled then .cancel else .transportFailed)
  | .push => s.onPush
  | .interpret units failure => s.onInterpret units failure
  | .publish => s.onPublish
  | .report => s.onReport
  | .connectionEnded kind =>
      if s.connectionEnd = none then some { s with connectionEnd := some kind } else none
  | .ownerDone => some { s with ownerDone := true }
  | .collect => s.onCollect budget
  | .cancel => some { s with cancelled := true }
  | .deadline => some { s with deadline := true }
  | .prepared =>
      if s.phase = .preparing then
        some { s with phase := .selecting .cancel, collector := .collecting 0 }
      else none
  | .prepareFailed failure =>
      if s.phase = .preparing then
        some { s with phase := .waiting (some failure), collector := .dropped }
      else none
  | .poll => s.onPoll
  | .joined => if s.pump = .done ∧ s.ownerDone ∧ s.closed then s.onWaited else none
  | .graceExpired => s.onWaited
  | .leave => s.onLeave

end Exchange

/-- The exchange as a transition system. -/
def encodedExchange (budget : ExchangeBudget) : System Exchange ExchangeAction where
  init s := s = .opened
  step a s := s.step budget a

/-! ## What a step can do -/

/-- Every step of an exchange, with what enables it. -/
inductive ExchangeStep (budget : ExchangeBudget) (s : Exchange) : ExchangeAction → Exchange → Prop where
  | chunkOver (len : Nat) (hpump : s.pump = .receiving)
      (hover : budget.maxOutput < satAdd s.received len) :
      ExchangeStep budget s (.chunk len) { s with
        received := (s.received + len) % 2 ^ 64
        bytes := s.bytes + len
        outputLimit := true
        pump := .sending .transportFailed }
  | chunk (len : Nat) (hpump : s.pump = .receiving)
      (hunder : satAdd s.received len ≤ budget.maxOutput) :
      ExchangeStep budget s (.chunk len) { s with
        received := (s.received + len) % 2 ^ 64
        bytes := s.bytes + len
        pump := .sending (.bytes len) }
  | outputEnd (a : ExchangeAction) (cmd : InputCmd) (hpump : s.pump = .receiving) :
      ExchangeStep budget s a { s with pump := .sending cmd }
  | pushLost (cmd : InputCmd) (hpump : s.pump = .sending cmd) (hended : s.interpreter = .ended) :
      ExchangeStep budget s .push { s with pump := .done }
  | push (cmd : InputCmd) (hpump : s.pump = .sending cmd) :
      ExchangeStep budget s .push { s with
        commands := s.commands ++ [cmd]
        pump := Exchange.pumpAfter cmd }
  | interpret (units : List CanonicalUnitEvent) (failure : Option InterpreterFailure)
      (cmd : InputCmd) (rest : List InputCmd) (hidle : s.interpreter = .idle)
      (hcommands : s.commands = cmd :: rest) :
      ExchangeStep budget s (.interpret units failure) { s with
        commands := rest
        interpreter := Exchange.interpretation units failure cmd }
  | published (next failed : Next) (hnow : s.interpreter = .publishing [] next failed) :
      ExchangeStep budget s .publish { s with interpreter := next.interpreter }
  | publish (unit : CanonicalUnitEvent) (rest : List CanonicalUnitEvent) (next failed : Next)
      (hnow : s.interpreter = .publishing (unit :: rest) next failed) (hopen : s.closed = false) :
      ExchangeStep budget s .publish { s with
        events := s.events ++ [.unit unit]
        log := s.log ++ [.unit unit]
        interpreter := .publishing rest next failed }
  | publishFailed (unit : CanonicalUnitEvent) (rest : List CanonicalUnitEvent) (next failed : Next)
      (hnow : s.interpreter = .publishing (unit :: rest) next failed) (hclosed : s.closed = true) :
      ExchangeStep budget s .publish { s with interpreter := failed.interpreter }
  | finish (kind : InterpretationEndKind) (hnow : s.interpreter = .finishing kind)
      (hopen : s.closed = false) :
      ExchangeStep budget s .publish { s with
        events := s.events ++ [.ended kind]
        log := s.log ++ [.ended kind]
        interpreter := .reporting kind }
  | finishUnsent (kind : InterpretationEndKind) (hnow : s.interpreter = .finishing kind)
      (hclosed : s.closed = true) :
      ExchangeStep budget s .publish { s with interpreter := .reporting kind }
  | report (kind : InterpretationEndKind) (hnow : s.interpreter = .reporting kind) :
      ExchangeStep budget s .report { s with
        interpretationEnd := some kind
        interpreter := .ended }
  | connectionEnded (kind : ConnectionEndKind) (hnone : s.connectionEnd = none) :
      ExchangeStep budget s (.connectionEnded kind) { s with connectionEnd := some kind }
  | ownerDone : ExchangeStep budget s .ownerDone { s with ownerDone := true }
  | collectUnit (retained : Nat) (unit : CanonicalUnitEvent) (rest : List InterpreterOutputEvent)
      (hcollector : s.collector = .collecting retained) (hevents : s.events = .unit unit :: rest)
      (hfits : satAdd retained (estimateRetainedUnitBytes unit) ≤ budget.maxRetained) :
      ExchangeStep budget s .collect { s with
        events := rest
        units := s.units ++ [unit]
        collector := .collecting (satAdd retained (estimateRetainedUnitBytes unit)) }
  | collectLimit (retained : Nat) (unit : CanonicalUnitEvent) (rest : List InterpreterOutputEvent)
      (hcollector : s.collector = .collecting retained) (hevents : s.events = .unit unit :: rest)
      (hover : budget.maxRetained < satAdd retained (estimateRetainedUnitBytes unit)) :
      ExchangeStep budget s .collect { s with limit := true, events := rest, collector := .done }
  | collectEnd (retained : Nat) (kind : InterpretationEndKind) (rest : List InterpreterOutputEvent)
      (hcollector : s.collector = .collecting retained) (hevents : s.events = .ended kind :: rest) :
      ExchangeStep budget s .collect { s with events := rest, collector := .done }
  | collectClosed (retained : Nat) (hcollector : s.collector = .collecting retained)
      (hevents : s.events = []) (hended : s.interpreter = .ended) :
      ExchangeStep budget s .collect { s with collector := .done }
  | cancel : ExchangeStep budget s .cancel { s with cancelled := true }
  | deadline : ExchangeStep budget s .deadline { s with deadline := true }
  | prepared (hphase : s.phase = .preparing) :
      ExchangeStep budget s .prepared { s with
        phase := .selecting .cancel
        collector := .collecting 0 }
  | prepareFailed (failure : ExchangeFailure) (hphase : s.phase = .preparing) :
      ExchangeStep budget s (.prepareFailed failure) { s with
        phase := .waiting (some failure)
        collector := .dropped }
  | pollFails (arm : Arm) (failure : ExchangeFailure) (hphase : s.phase = .selecting arm) :
      ExchangeStep budget s .poll { s with phase := .waiting (some failure) }
  | pollNext (arm next : Arm) (hphase : s.phase = .selecting arm) :
      ExchangeStep budget s .poll { s with phase := .selecting next }
  | pollEnds (interp : InterpretationEndKind) (conn : ConnectionEndKind)
      (hphase : s.phase = .selecting .ends) (hinterp : s.interpretationEnd = some interp)
      (hconn : s.connectionEnd = some conn) :
      ExchangeStep budget s .poll { s with phase := .waiting (reconcileTerminals conn interp) }
  | waited (a : ExchangeAction) (failure : Option ExchangeFailure)
      (hphase : s.phase = .waiting failure)
      (hwhy : a = .graceExpired ∨ (s.pump = .done ∧ s.closed = true)) :
      ExchangeStep budget s a { s with phase := .leaving failure }
  | returned (hphase : s.phase = .leaving none) :
      ExchangeStep budget s .leave { s with phase := .returned ⟨s.units, s.received⟩ }
  | failed (failure : ExchangeFailure) (hphase : s.phase = .leaving (some failure)) :
      ExchangeStep budget s .leave { s with phase := .failed failure }

section

variable {budget : ExchangeBudget} {s s' : Exchange} {a : ExchangeAction}

theorem send_cases {event : InterpreterOutputEvent} {sent unsent : Interpreter}
    (h : s.send event sent unsent = some s') :
    (s.closed = true ∧ s' = { s with interpreter := unsent }) ∨
      (s.closed = false ∧ s' = { s with
        events := s.events ++ [event]
        log := s.log ++ [event]
        interpreter := sent }) := by
  unfold Exchange.send at h
  split at h
  · rename_i hclosed
    exact .inl ⟨hclosed, (Option.some.inj h).symm⟩
  · rename_i hopen
    split at h
    · exact .inr ⟨by simpa using hopen, (Option.some.inj h).symm⟩
    · cases h

theorem onPublish_cases (h : s.onPublish = some s') : ExchangeStep budget s .publish s' := by
  unfold Exchange.onPublish at h
  split at h
  · rename_i next failed hnow
    cases h
    exact .published next failed hnow
  · rename_i unit rest next failed hnow
    rcases send_cases h with ⟨hclosed, rfl⟩ | ⟨hopen, rfl⟩
    · exact .publishFailed unit rest next failed hnow hclosed
    · exact .publish unit rest next failed hnow hopen
  · rename_i kind hnow
    rcases send_cases h with ⟨hclosed, rfl⟩ | ⟨hopen, rfl⟩
    · exact .finishUnsent kind hnow hclosed
    · exact .finish kind hnow hopen
  · cases h

theorem onCollect_cases (h : s.onCollect budget = some s') : ExchangeStep budget s .collect s' := by
  unfold Exchange.onCollect at h
  split at h
  · rename_i retained unit rest hcollector hevents
    dsimp only at h
    split at h
    · rename_i hover
      cases h
      exact .collectLimit retained unit rest hcollector hevents hover
    · rename_i hfits
      cases h
      exact .collectUnit retained unit rest hcollector hevents (Nat.le_of_not_lt hfits)
  · rename_i retained kind rest hcollector hevents
    cases h
    exact .collectEnd retained kind rest hcollector hevents
  · rename_i retained hcollector hevents
    split at h
    · rename_i hended
      cases h
      exact .collectClosed retained hcollector hevents hended
    · cases h
  · cases h

theorem onPoll_cases (h : s.onPoll = some s') : ExchangeStep budget s .poll s' := by
  have harm : ∀ (arm next : Arm) (failure : ExchangeFailure) (c : Bool),
      s.phase = .selecting arm →
      (if c then some { s with phase := .waiting (some failure) }
        else some { s with phase := .selecting next }) = some s' →
      ExchangeStep budget s .poll s' := by
    intro arm next failure c hphase h
    split at h
    · cases h
      exact .pollFails arm failure hphase
    · cases h
      exact .pollNext arm next hphase
  unfold Exchange.onPoll at h
  split at h
  · rename_i hphase
    exact harm _ _ _ _ hphase h
  · rename_i hphase
    exact harm _ _ _ _ hphase h
  · rename_i hphase
    exact harm _ _ _ _ hphase h
  · rename_i hphase
    exact harm _ _ _ _ hphase h
  · rename_i hphase
    split at h
    · rename_i interp conn hinterp hconn
      cases h
      exact .pollEnds interp conn hphase hinterp hconn
    · cases h
      exact .pollNext _ _ hphase
  · cases h

theorem onWaited_cases (h : s.onWaited = some s')
    (hwhy : a = .graceExpired ∨ (s.pump = .done ∧ s.closed = true)) :
    ExchangeStep budget s a s' := by
  unfold Exchange.onWaited at h
  split at h
  · rename_i failure hphase
    cases h
    exact .waited a failure hphase hwhy
  · cases h

/-- **The steps of an exchange, case by case.** -/
theorem exchange_step (h : s.step budget a = some s') : ExchangeStep budget s a s' := by
  cases a with
  | chunk len =>
      unfold Exchange.step Exchange.onChunk at h
      dsimp only at h
      split at h
      · rename_i hready
        split at h
        · rename_i hover
          cases h
          exact .chunkOver len hready.1 hover
        · rename_i hunder
          cases h
          exact .chunk len hready.1 (Nat.le_of_not_lt hunder)
      · cases h
  | outputEnded =>
      unfold Exchange.step Exchange.onOutputEnd at h
      dsimp only at h
      split at h
      · rename_i hpump
        cases h
        exact .outputEnd _ _ hpump
      · cases h
  | outputFailed cancelled =>
      unfold Exchange.step Exchange.onOutputEnd at h
      dsimp only at h
      split at h
      · rename_i hpump
        cases h
        exact .outputEnd _ _ hpump
      · cases h
  | push =>
      unfold Exchange.step Exchange.onPush at h
      dsimp only at h
      split at h
      · rename_i cmd hpump
        split at h
        · rename_i hended
          cases h
          exact .pushLost cmd hpump hended
        · split at h
          · cases h
            exact .push cmd hpump
          · cases h
      · cases h
  | interpret units failure =>
      unfold Exchange.step Exchange.onInterpret at h
      dsimp only at h
      split at h
      · rename_i cmd rest hidle hcommands
        cases h
        exact .interpret units failure cmd rest hidle hcommands
      · cases h
  | publish => exact onPublish_cases h
  | report =>
      unfold Exchange.step Exchange.onReport at h
      dsimp only at h
      split at h
      · rename_i kind hnow
        cases h
        exact .report kind hnow
      · cases h
  | connectionEnded kind =>
      unfold Exchange.step at h
      dsimp only at h
      split at h
      · rename_i hnone
        cases h
        exact .connectionEnded kind hnone
      · cases h
  | ownerDone =>
      cases h
      exact .ownerDone
  | collect => exact onCollect_cases h
  | cancel =>
      cases h
      exact .cancel
  | deadline =>
      cases h
      exact .deadline
  | prepared =>
      unfold Exchange.step at h
      dsimp only at h
      split at h
      · rename_i hphase
        cases h
        exact .prepared hphase
      · cases h
  | prepareFailed failure =>
      unfold Exchange.step at h
      dsimp only at h
      split at h
      · rename_i hphase
        cases h
        exact .prepareFailed failure hphase
      · cases h
  | poll => exact onPoll_cases h
  | joined =>
      unfold Exchange.step at h
      dsimp only at h
      split at h
      · rename_i hdone
        exact onWaited_cases h (.inr ⟨hdone.1, hdone.2.2⟩)
      · cases h
  | graceExpired => exact onWaited_cases h (.inl rfl)
  | leave =>
      unfold Exchange.step Exchange.onLeave at h
      dsimp only at h
      split at h
      · rename_i hphase
        cases h
        exact .returned hphase
      · rename_i failure hphase
        cases h
        exact .failed failure hphase
      · cases h

end

end Monoloop.Coordinator
