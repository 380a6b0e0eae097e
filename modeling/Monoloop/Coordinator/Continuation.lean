import Monoloop.Contracts.Transaction
import Monoloop.Coordinator.Accounting
import Monoloop.Coordinator.Transcript

/-!
# The continuation loop

`run_coordinator`, `finish_after_exchange` and `run_inline_tool_continuation`: a
first exchange and then, while the provider asks for tools, one exchange for each
round of tool results. Exchanges, rounds, request bytes and response bytes are
limited over the whole transaction.

What the provider, the tools and the clock do is part of the action. The result
of an exchange comes with the run of `encodedExchange` that ends in it, so its
byte count is what the pump really counted. `exchanges` is an observation: every
exchange that was entered, with the bytes that really went over it.
-/

namespace Monoloop.Coordinator

open Transition (System always)

variable {Json : Type}

/-- Tool-continuation policy of a transaction. -/
inductive ContinuationPolicy where
  | inlineToolContinuation
  | callerControlled
deriving DecidableEq, Repr

/-- The transaction limits that the coordinator reads, all of them `usize`. -/
structure TransactionLimits where
  maxContinuations : Nat
  maxProviderExchanges : Nat
  maxContinuationContextBytes : Nat
  maxTotalProviderInputBytes : Nat
  maxTotalProviderOutputBytes : Nat
  exchanges_le : maxProviderExchanges ≤ usizeMax
  input_le : maxTotalProviderInputBytes ≤ usizeMax
  output_le : maxTotalProviderOutputBytes ≤ usizeMax

/-- Length of the encoded request, or none when encoding fails. -/
structure OutboundDialectEncoder (Json : Type) where
  encodeInitial : ExchangeId → List (CanonicalMessage Json) → Option Nat
  encodeToolContinuation : ExchangeId → List (CanonicalMessage Json) →
    List (CanonicalToolResult Json) → Option Nat

/-- A transaction as its coordinator gets it. -/
structure CoordinatorParams (Json : Type) where
  transactionId : TransactionId
  channelId : ChannelId
  sessionId : Option SessionId
  /-- `CanonicalInput::messages`. -/
  input : List (CanonicalMessage Json)
  toolMode : ToolExecutionMode
  continuationPolicy : ContinuationPolicy
  encoder : OutboundDialectEncoder Json
  serde : SerdeJson Json
  /-- `max_encoded_exchange_bytes` of the channel. -/
  maxEncoded : Nat
  limits : TransactionLimits

/-- Unit retention of an exchange. -/
def CoordinatorParams.maxRetained (p : CoordinatorParams Json) : Nat := max p.maxEncoded (64 * 1024)

/-! ## Exchanges -/

def ExchangeFailure.toTerminal : ExchangeFailure → TransactionEndKind
  | .cancelled => .cancelled
  | .terminated => .terminated
  | .limitExceeded => .limitExceeded
  | .deadlineExceeded => .deadlineExceeded
  | .invariantFailed | .spawnFailed => .invariantFailed
  | .channelOpenFailed => .channelOpenFailed
  | .encodingFailed => .encodingFailed
  | .connectorFailed => .connectorFailed
  | .interpretationFailed => .interpretationFailed

/-- How `run_encoded_exchange` can end, and the bytes received until then. -/
inductive ExchangeEnds (budget : ExchangeBudget) :
    Except ExchangeFailure EncodedExchangeOk → Nat → Prop where
  /-- Before there is a pump. -/
  | unopened (failure : ExchangeFailure) : ExchangeEnds budget (.error failure) 0
  | failed {s : Exchange} {failure : ExchangeFailure}
      (h : (encodedExchange budget).Reach always s) (hphase : s.phase = .failed failure) :
      ExchangeEnds budget (.error failure) s.bytes
  | returned {s : Exchange} {ok : EncodedExchangeOk}
      (h : (encodedExchange budget).Reach always s) (hphase : s.phase = .returned ok) :
      ExchangeEnds budget (.ok ok) s.bytes

/-- A finished `run_encoded_exchange`. -/
structure ExchangeRun (budget : ExchangeBudget) where
  result : Except ExchangeFailure EncodedExchangeOk
  externalSessionId : Option ExternalSessionId
  bytes : Nat
  ends : ExchangeEnds budget result bytes

/-- An exchange that was entered. -/
structure ExchangeRecord where
  sent : Nat
  received : Nat
  completed : Bool
deriving DecidableEq, Repr

structure DirectExchangeOutcome where
  units : List CanonicalUnitEvent
  terminal : TransactionEndKind
  externalSessionId : Option ExternalSessionId
  encodedInputBytes : Nat
  receivedOutputBytes : Nat
  entered : Option ExchangeRecord

def failedOutcome (terminal : TransactionEndKind) : DirectExchangeOutcome where
  units := []
  terminal := terminal
  externalSessionId := none
  encodedInputBytes := 0
  receivedOutputBytes := 0
  entered := none

/-- The outcome of an exchange that was entered with `len` request bytes. -/
def exchangeOutcome {budget : ExchangeBudget} (len : Nat) (run : ExchangeRun budget) :
    DirectExchangeOutcome :=
  match run.result with
  | .ok ok =>
      { units := ok.units
        terminal := .completed
        externalSessionId := run.externalSessionId
        encodedInputBytes := len
        receivedOutputBytes := ok.receivedOutputBytes
        entered := some ⟨len, run.bytes, true⟩ }
  | .error failure =>
      { failedOutcome failure.toTerminal with entered := some ⟨len, run.bytes, false⟩ }

def runDirectLlmExchange (encoded : Option Nat) (maxEncoded maxRetained maxInput maxOutput : Nat)
    (exchange : ∀ budget, ExchangeRun budget) : DirectExchangeOutcome :=
  match encoded with
  | none => failedOutcome .encodingFailed
  | some len =>
      if maxEncoded < len then failedOutcome .encodingFailed
      else if maxInput = 0 ∨ maxInput < len then failedOutcome .limitExceeded
      else if maxOutput = 0 then failedOutcome .limitExceeded
      else exchangeOutcome len (exchange ⟨maxRetained, maxOutput⟩)

def runDirectLlmContinuation (encoded : Option Nat)
    (maxEncoded maxContext maxRetained maxInput maxOutput : Nat)
    (exchange : ∀ budget, ExchangeRun budget) : DirectExchangeOutcome :=
  match encoded with
  | none => failedOutcome .encodingFailed
  | some len =>
      if maxContext < len then failedOutcome .limitExceeded
      else if maxEncoded < len then failedOutcome .encodingFailed
      else if maxInput = 0 ∨ maxInput < len then failedOutcome .limitExceeded
      else if maxOutput = 0 then failedOutcome .limitExceeded
      else exchangeOutcome len (exchange ⟨maxRetained, maxOutput⟩)

/-! ## The coordinator -/

/-- Why a command did not reach the publisher. -/
inductive PublishFailure where
  | cancelled
  | closed
deriving DecidableEq, Repr

def PublishFailure.toTerminal : PublishFailure → TransactionEndKind
  | .cancelled => .cancelled
  | .closed => .eventDeliveryFailed

/-- Publish units; without units nothing can fail. -/
def publishUnits (failure : Option PublishFailure) (units : List CanonicalUnitEvent) :
    Option PublishFailure :=
  if units.isEmpty then none else failure

def LoopDispatchError.toTerminal : LoopDispatchError → TransactionEndKind
  | .cancelled => .cancelled
  | .deadlineExceeded => .deadlineExceeded
  | .publishFailed => .eventDeliveryFailed
  | .startFailed | .loopFailed => .invariantFailed

/-- `exchanges_used`, `provider_input_used` and `provider_output_used`. -/
structure Usage where
  exchanges : Nat
  input : Nat
  output : Nat
deriving DecidableEq, Repr

def providerUsageAfterExchange (outcome : DirectExchangeOutcome) : Usage :=
  if outcome.terminal = .completed then ⟨1, outcome.encodedInputBytes, outcome.receivedOutputBytes⟩
  else ⟨0, 0, 0⟩

/-- The counters after a completed continuation exchange. -/
def Usage.add (u : Usage) (outcome : DirectExchangeOutcome) : Usage where
  exchanges := satAdd u.exchanges 1
  input := satAdd u.input outcome.encodedInputBytes
  output := satAdd u.output outcome.receivedOutputBytes

/-- Where the coordinator is; `rounds` are the rounds the loop has left. -/
inductive CoordinatorPhase where
  | starting
  | continuing (rounds : Nat)
  | ended (kind : TransactionEndKind)
deriving DecidableEq, Repr

structure CoordinatorState (Json : Type) where
  phase : CoordinatorPhase
  sessionId : Option SessionId
  messages : List (CanonicalMessage Json)
  readyUnits : List CanonicalUnitEvent
  toolResults : List (CanonicalToolResult Json)
  usage : Usage
  exchanges : List ExchangeRecord

/-- Attachment of an external agent's session; a direct channel has none to wait for. -/
inductive Attachment where
  | attached
  | failed
  | cancelled
deriving DecidableEq, Repr

/-- What the first exchange meets. -/
structure Opening where
  channelMissing : Bool
  late : Bool
  attachment : Attachment
  exchangeId : ExchangeId
  exchange : ∀ budget, ExchangeRun budget
  /-- Session claimed at the prompt gate. -/
  claimed : Option SessionId
  alreadyEstablished : Bool
  establishing : Option PublishFailure
  publishing : Option PublishFailure
  pass : LoopPass

/-- What a continuation round meets. -/
structure Round where
  late : Bool
  exchangeId : ExchangeId
  exchange : ∀ budget, ExchangeRun budget
  publishing : Option PublishFailure
  pass : LoopPass

inductive CoordinatorAction where
  | start (o : Opening)
  | round (r : Round)
  /-- The loop is left after its last round. -/
  | roundsOver

namespace CoordinatorState

def initial (p : CoordinatorParams Json) : CoordinatorState Json where
  phase := .starting
  sessionId := p.sessionId
  messages := p.input
  readyUnits := []
  toolResults := []
  usage := ⟨0, 0, 0⟩
  exchanges := []

variable (p : CoordinatorParams Json) (c : CoordinatorState Json)

def stop (kind : TransactionEndKind) : CoordinatorState Json := { c with phase := .ended kind }

/-- Whose units the next pass works on. -/
def toolExchange (exchange : ExchangeId) : ToolExchange :=
  ⟨p.transactionId, p.channelId, c.sessionId, exchange⟩

/-- The Loop over the units of the first exchange, and what follows. -/
def dispatchFirst (o : Opening) (terminal : TransactionEndKind) (units : List CanonicalUnitEvent) :
    CoordinatorState Json :=
  match runSupervisedLoop p.serde o.pass (c.toolExchange p o.exchangeId) units with
  | .ok results =>
      if terminal = .completed ∧ p.continuationPolicy = .callerControlled then
        c.stop .continuationRequired
      else if terminal = .completed ∧ p.continuationPolicy = .inlineToolContinuation then
        if results.isEmpty then c.stop .invariantFailed
        else { c with
          phase := .continuing p.limits.maxContinuations
          messages := p.input
          readyUnits := units
          toolResults := results }
      else c.stop terminal
  | .error e => c.stop e.toTerminal

def finishAfterExchange (o : Opening) (outcome : DirectExchangeOutcome) : CoordinatorState Json :=
  let establish := !o.alreadyEstablished && outcome.externalSessionId.isSome
  match if establish then o.establishing else none with
  | some failure => c.stop failure.toTerminal
  | none =>
      let units := scopeToolUnitsForExchange outcome.units o.exchangeId
      let terminal := ((publishUnits o.publishing units).map PublishFailure.toTerminal).getD
        outcome.terminal
      if p.toolMode = .mcpGateway then c.stop terminal
      else if (terminal = .completed ∨ terminal = .continuationRequired) ∧
          needsLoopDispatch units then
        c.dispatchFirst p o terminal units
      else c.stop terminal

/-- `run_coordinator` up to the continuation loop. -/
def onStart (o : Opening) : CoordinatorState Json :=
  if o.channelMissing then c.stop .invariantFailed
  else if o.late then c.stop .deadlineExceeded
  else if p.limits.maxProviderExchanges = 0 then c.stop .limitExceeded
  else
    match o.attachment with
    | .failed => c.stop .invariantFailed
    | .cancelled => c.stop .cancelled
    | .attached =>
        let outcome := runDirectLlmExchange (p.encoder.encodeInitial o.exchangeId p.input)
          p.maxEncoded p.maxRetained p.limits.maxTotalProviderInputBytes
          p.limits.maxTotalProviderOutputBytes o.exchange
        finishAfterExchange p { c with
          sessionId := o.claimed <|> c.sessionId
          usage := providerUsageAfterExchange outcome
          exchanges := c.exchanges ++ outcome.entered.toList } o outcome

/-- Publish the units of a continuation exchange and run the Loop over them. -/
def afterContinuation (r : Round) (outcome : DirectExchangeOutcome) : CoordinatorState Json :=
  let units := scopeToolUnitsForExchange outcome.units r.exchangeId
  match publishUnits r.publishing units with
  | some failure => c.stop failure.toTerminal
  | none =>
      if needsLoopDispatch units then
        match runSupervisedLoop p.serde r.pass (c.toolExchange p r.exchangeId) units with
        | .ok results =>
            if results.isEmpty then c.stop .invariantFailed
            else { c with readyUnits := units, toolResults := results }
        | .error e => c.stop e.toTerminal
      else c.stop .completed

def remainingInput : Nat := p.limits.maxTotalProviderInputBytes - c.usage.input

def remainingOutput : Nat := p.limits.maxTotalProviderOutputBytes - c.usage.output

/-- The exchange of a round. -/
def continueExchange (r : Round) (messages : List (CanonicalMessage Json)) : CoordinatorState Json :=
  let outcome := runDirectLlmContinuation
    (p.encoder.encodeToolContinuation r.exchangeId messages c.toolResults) p.maxEncoded
    p.limits.maxContinuationContextBytes p.maxRetained (c.remainingInput p) (c.remainingOutput p)
    r.exchange
  let c := { c with
    messages := messages
    exchanges := c.exchanges ++ outcome.entered.toList }
  if outcome.terminal = .completed then
    afterContinuation p { c with usage := c.usage.add outcome } r outcome
  else c.stop outcome.terminal

/-- One round of `run_inline_tool_continuation`. -/
def onRound (r : Round) : CoordinatorState Json :=
  if r.late then c.stop .deadlineExceeded
  else if p.limits.maxProviderExchanges ≤ c.usage.exchanges then c.stop .limitExceeded
  else
    match appendToolRound p.serde c.messages c.readyUnits c.toolResults with
    | none => c.stop .encodingFailed
    | some messages =>
        -- `ContinuationContext::try_new`
        if messages.isEmpty then c.stop .encodingFailed
        else if c.remainingInput p = 0 ∨ c.remainingOutput p = 0 then c.stop .limitExceeded
        else c.continueExchange p r messages

def step : CoordinatorAction → Option (CoordinatorState Json)
  | .start o => if c.phase = .starting then some (c.onStart p o) else none
  | .round r =>
      match c.phase with
      | .continuing (rounds + 1) => some (onRound p { c with phase := .continuing rounds } r)
      | _ => none
  | .roundsOver => if c.phase = .continuing 0 then some (c.stop .limitExceeded) else none

end CoordinatorState

/-- The coordinator of a transaction as a transition system. -/
def coordinator (p : CoordinatorParams Json) : System (CoordinatorState Json) CoordinatorAction where
  init c := c = .initial p
  step a c := c.step p a

/-! ## What was spent -/

/-- The exact counters: completed exchanges, their request and response bytes. -/
def exactUsage (exchanges : List ExchangeRecord) : Usage where
  exchanges := (exchanges.filter (·.completed)).length
  input := ((exchanges.filter (·.completed)).map (·.sent)).sum
  output := ((exchanges.filter (·.completed)).map (·.received)).sum

/-- The exchanges stay within the limits. Request bytes count for every exchange
that was entered, response bytes for the completed ones. -/
structure Within (limits : TransactionLimits) (exchanges : List ExchangeRecord) : Prop where
  count : exchanges.length ≤ limits.maxProviderExchanges
  sent : (exchanges.map (·.sent)).sum ≤ limits.maxTotalProviderInputBytes
  received : (exactUsage exchanges).output ≤ limits.maxTotalProviderOutputBytes

theorem exactUsage_completed {exchanges : List ExchangeRecord}
    (h : ∀ x ∈ exchanges, x.completed = true) :
    exactUsage exchanges = ⟨exchanges.length, (exchanges.map (·.sent)).sum,
      (exchanges.map (·.received)).sum⟩ := by
  unfold exactUsage
  rw [List.filter_eq_self.mpr h]

theorem exactUsage_append (exchanges : List ExchangeRecord) (x : ExchangeRecord) :
    exactUsage (exchanges ++ [x]) =
      if x.completed then
        ⟨(exactUsage exchanges).exchanges + 1, (exactUsage exchanges).input + x.sent,
          (exactUsage exchanges).output + x.received⟩
      else exactUsage exchanges := by
  unfold exactUsage
  rw [List.filter_append]
  cases hx : x.completed with
  | true => simp [hx]
  | false => simp [hx]

theorem Within.none (limits : TransactionLimits) : Within limits [] where
  count := Nat.zero_le _
  sent := Nat.zero_le _
  received := Nat.zero_le _

/-- One more exchange, within what the completed ones left. -/
theorem Within.enter {limits : TransactionLimits} {exchanges : List ExchangeRecord}
    {x : ExchangeRecord} (h : Within limits exchanges) (hall : ∀ x ∈ exchanges, x.completed = true)
    (hcount : (exactUsage exchanges).exchanges < limits.maxProviderExchanges)
    (hsent : x.sent ≤ limits.maxTotalProviderInputBytes - (exactUsage exchanges).input)
    (hreceived : x.completed = true →
      x.received ≤ limits.maxTotalProviderOutputBytes - (exactUsage exchanges).output) :
    Within limits (exchanges ++ [x]) where
  count := by
    rw [exactUsage_completed hall] at hcount
    rw [List.length_append]
    exact hcount
  sent := by
    have hbefore := h.sent
    rw [exactUsage_completed hall] at hsent
    dsimp only at hsent
    rw [List.map_append, List.sum_append]
    show (exchanges.map (·.sent)).sum + (x.sent + 0) ≤ _
    omega
  received := by
    have hbefore := h.received
    rw [exactUsage_append]
    split
    · rename_i hx
      have hroom := hreceived hx
      dsimp only
      omega
    · exact hbefore

/-! ## What an exchange reports -/

/-- An exchange outcome, within `maxInput` and `maxOutput`; `counted` is when the
reported byte count is the true one. -/
inductive Reports (maxInput maxOutput : Nat) (counted : Prop) (outcome : DirectExchangeOutcome) :
    Prop where
  | refused (hentered : outcome.entered = none) (hterminal : outcome.terminal ≠ .completed)
  | failed (x : ExchangeRecord) (hentered : outcome.entered = some x) (hx : x.completed = false)
      (hsent : x.sent ≤ maxInput) (hterminal : outcome.terminal ≠ .completed)
  | completed (x : ExchangeRecord) (hentered : outcome.entered = some x) (hx : x.completed = true)
      (hsent : x.sent ≤ maxInput) (hterminal : outcome.terminal = .completed)
      (hinput : outcome.encodedInputBytes = x.sent)
      (houtput : outcome.receivedOutputBytes ≤ maxOutput)
      (hcounted : counted → outcome.receivedOutputBytes = x.received)

/-- The pump's counter does not pass `2 ^ 64`: the budget is below the largest, or
so are the bytes. -/
def Counts {budget : ExchangeBudget} (run : ExchangeRun budget) : Prop :=
  budget.maxOutput < usizeMax ∨ run.bytes ≤ usizeMax

instance {budget : ExchangeBudget} (run : ExchangeRun budget) : Decidable (Counts run) :=
  inferInstanceAs (Decidable (_ ∨ _))

theorem toTerminal_ne_completed (failure : ExchangeFailure) : failure.toTerminal ≠ .completed := by
  cases failure <;> decide

theorem exchangeOutcome_reports {budget : ExchangeBudget} {maxInput len : Nat}
    (run : ExchangeRun budget) (hlen : len ≤ maxInput) :
    Reports maxInput budget.maxOutput (Counts run) (exchangeOutcome len run) := by
  obtain ⟨result, external, bytes, hends⟩ := run
  cases hends with
  | unopened failure =>
      exact .failed ⟨len, 0, false⟩ rfl rfl hlen (toTerminal_ne_completed failure)
  | @failed s failure _ _ =>
      exact .failed ⟨len, s.bytes, false⟩ rfl rfl hlen (toTerminal_ne_completed failure)
  | @returned s ok h hphase =>
      obtain ⟨hwithin, hexact⟩ := returned_output h hphase
      exact .completed ⟨len, s.bytes, true⟩ rfl rfl hlen rfl rfl hwithin hexact

theorem failedOutcome_reports {maxInput maxOutput : Nat} {counted : Prop}
    {terminal : TransactionEndKind} (h : terminal ≠ .completed) :
    Reports maxInput maxOutput counted (failedOutcome terminal) := .refused rfl h

theorem runDirectLlmExchange_reports (encoded : Option Nat)
    (maxEncoded maxRetained maxInput maxOutput : Nat) (exchange : ∀ budget, ExchangeRun budget) :
    Reports maxInput maxOutput (Counts (exchange ⟨maxRetained, maxOutput⟩))
      (runDirectLlmExchange encoded maxEncoded maxRetained maxInput maxOutput exchange) := by
  unfold runDirectLlmExchange
  cases encoded with
  | none => exact failedOutcome_reports (by decide)
  | some len =>
      dsimp only
      split
      · exact failedOutcome_reports (by decide)
      · split
        · exact failedOutcome_reports (by decide)
        · rename_i hfits
          have hlen : len ≤ maxInput := by omega
          split
          · exact failedOutcome_reports (by decide)
          · exact exchangeOutcome_reports (exchange ⟨maxRetained, maxOutput⟩) hlen

theorem runDirectLlmContinuation_reports (encoded : Option Nat)
    (maxEncoded maxContext maxRetained maxInput maxOutput : Nat)
    (exchange : ∀ budget, ExchangeRun budget) :
    Reports maxInput maxOutput (Counts (exchange ⟨maxRetained, maxOutput⟩))
      (runDirectLlmContinuation encoded maxEncoded maxContext maxRetained maxInput maxOutput
        exchange) := by
  unfold runDirectLlmContinuation
  cases encoded with
  | none => exact failedOutcome_reports (by decide)
  | some len =>
      dsimp only
      split
      · exact failedOutcome_reports (by decide)
      · split
        · exact failedOutcome_reports (by decide)
        · split
          · exact failedOutcome_reports (by decide)
          · rename_i hfits
            have hlen : len ≤ maxInput := by omega
            split
            · exact failedOutcome_reports (by decide)
            · exact exchangeOutcome_reports (exchange ⟨maxRetained, maxOutput⟩) hlen

/-- Whether an exchange completed decides what it adds to the counters. -/
inductive Spent (exchanges : List ExchangeRecord) (outcome : DirectExchangeOutcome) : Prop where
  | ended (hterminal : outcome.terminal ≠ .completed)
      (husage : exactUsage (exchanges ++ outcome.entered.toList) = exactUsage exchanges)
  | completed (hterminal : outcome.terminal = .completed)
      (husage : exactUsage (exchanges ++ outcome.entered.toList) =
        ⟨(exactUsage exchanges).exchanges + 1,
          (exactUsage exchanges).input + outcome.encodedInputBytes,
          (exactUsage exchanges).output + outcome.receivedOutputBytes⟩)
      (hall : ∀ x ∈ exchanges ++ outcome.entered.toList, x.completed = true)

/-- **An exchange within the rest of the budgets keeps the whole within them.** -/
theorem Within.spend {limits : TransactionLimits} {exchanges : List ExchangeRecord}
    {outcome : DirectExchangeOutcome} {counted : Prop} (h : Within limits exchanges)
    (hall : ∀ x ∈ exchanges, x.completed = true)
    (hcount : (exactUsage exchanges).exchanges < limits.maxProviderExchanges)
    (hreports : Reports (limits.maxTotalProviderInputBytes - (exactUsage exchanges).input)
      (limits.maxTotalProviderOutputBytes - (exactUsage exchanges).output) counted outcome)
    (hcounted : counted) :
    Within limits (exchanges ++ outcome.entered.toList) ∧ Spent exchanges outcome ∧
      (exchanges ++ outcome.entered.toList).length ≤ exchanges.length + 1 := by
  cases hreports with
  | refused hentered hterminal =>
      rw [hentered, Option.toList_none, List.append_nil]
      refine ⟨h, .ended hterminal ?_, Nat.le_succ _⟩
      rw [hentered, Option.toList_none, List.append_nil]
  | failed x hentered hx hsent hterminal =>
      rw [hentered, Option.toList_some]
      refine ⟨h.enter hall hcount hsent (by simp [hx]), .ended hterminal ?_, by simp⟩
      rw [hentered, Option.toList_some, exactUsage_append]
      simp [hx]
  | completed x hentered hx hsent hterminal hinput houtput hexact =>
      have hreceived := hexact hcounted
      rw [hentered, Option.toList_some]
      refine ⟨h.enter hall hcount hsent (fun _ => by omega), .completed hterminal ?_ ?_, by simp⟩
      · rw [hentered, Option.toList_some, exactUsage_append, hinput, hreceived]
        simp [hx]
      · intro y hy
        rw [hentered, Option.toList_some] at hy
        rcases List.mem_append.mp hy with hy | hy
        · exact hall y hy
        · rw [List.mem_singleton.mp hy]
          exact hx

/-- Counters that stay within the limits do not saturate. -/
theorem Usage.add_eq {limits : TransactionLimits} {exchanges : List ExchangeRecord}
    {outcome : DirectExchangeOutcome} {u : Usage} (h : Within limits exchanges)
    (husage : exactUsage exchanges =
      ⟨u.exchanges + 1, u.input + outcome.encodedInputBytes,
        u.output + outcome.receivedOutputBytes⟩)
    (hall : ∀ x ∈ exchanges, x.completed = true) : u.add outcome = exactUsage exchanges := by
  obtain ⟨hcount, hsent, hreceived⟩ := h
  have hexact := exactUsage_completed hall
  rw [husage] at hexact hreceived ⊢
  obtain ⟨hexchanges, hinput, -⟩ := Usage.mk.inj hexact
  have hcountMax := limits.exchanges_le
  have hinputMax := limits.input_le
  have houtputMax := limits.output_le
  unfold Usage.add
  rw [satAdd_eq (by omega), satAdd_eq (by omega), satAdd_eq (by dsimp only at hreceived; omega)]

/-! ## After an exchange -/

namespace CoordinatorState

/-- Same counters and exchanges. -/
structure Keeps (c c' : CoordinatorState Json) : Prop where
  usage : c'.usage = c.usage
  exchanges : c'.exchanges = c.exchanges

variable (p : CoordinatorParams Json) (c : CoordinatorState Json)

theorem stop_keeps (kind : TransactionEndKind) : c.Keeps (c.stop kind) := ⟨rfl, rfl⟩

/-- The Loop only follows a completed exchange into the continuation loop. -/
theorem dispatchFirst_cases (o : Opening) (terminal : TransactionEndKind)
    (units : List CanonicalUnitEvent) :
    c.Keeps (c.dispatchFirst p o terminal units) ∧
      ((∃ kind, (c.dispatchFirst p o terminal units).phase = .ended kind) ∨
        ((c.dispatchFirst p o terminal units).phase = .continuing p.limits.maxContinuations ∧
          terminal = .completed)) := by
  unfold dispatchFirst
  split
  · split
    · exact ⟨c.stop_keeps _, .inl ⟨_, rfl⟩⟩
    · split
      · rename_i hinline
        split
        · exact ⟨c.stop_keeps _, .inl ⟨_, rfl⟩⟩
        · exact ⟨⟨rfl, rfl⟩, .inr ⟨rfl, hinline.1⟩⟩
      · exact ⟨c.stop_keeps _, .inl ⟨_, rfl⟩⟩
  · exact ⟨c.stop_keeps _, .inl ⟨_, rfl⟩⟩

theorem publishFailure_ne_completed (failure : PublishFailure) :
    failure.toTerminal ≠ .completed := by
  cases failure <;> decide

theorem finishAfterExchange_cases (o : Opening) (outcome : DirectExchangeOutcome) :
    c.Keeps (c.finishAfterExchange p o outcome) ∧
      ((∃ kind, (c.finishAfterExchange p o outcome).phase = .ended kind) ∨
        ((c.finishAfterExchange p o outcome).phase = .continuing p.limits.maxContinuations ∧
          outcome.terminal = .completed)) := by
  unfold finishAfterExchange
  dsimp only
  split
  · exact ⟨c.stop_keeps _, .inl ⟨_, rfl⟩⟩
  · split
    · exact ⟨c.stop_keeps _, .inl ⟨_, rfl⟩⟩
    · split
      · obtain ⟨hkeeps, hphase⟩ := dispatchFirst_cases p c o
          (((publishUnits o.publishing
            (scopeToolUnitsForExchange outcome.units o.exchangeId)).map
              PublishFailure.toTerminal).getD outcome.terminal)
          (scopeToolUnitsForExchange outcome.units o.exchangeId)
        refine ⟨hkeeps, hphase.imp_right ?_⟩
        rintro ⟨hcontinuing, hterminal⟩
        refine ⟨hcontinuing, ?_⟩
        -- a failed publication is no completion
        revert hterminal
        cases publishUnits o.publishing (scopeToolUnitsForExchange outcome.units o.exchangeId) with
        | none => exact id
        | some failure =>
            intro hterminal
            exact absurd hterminal (publishFailure_ne_completed failure)
      · exact ⟨c.stop_keeps _, .inl ⟨_, rfl⟩⟩

theorem afterContinuation_cases (r : Round) (outcome : DirectExchangeOutcome) :
    c.Keeps (c.afterContinuation p r outcome) ∧
      ((∃ kind, (c.afterContinuation p r outcome).phase = .ended kind) ∨
        (c.afterContinuation p r outcome).phase = c.phase) := by
  unfold afterContinuation
  dsimp only
  split
  · exact ⟨c.stop_keeps _, .inl ⟨_, rfl⟩⟩
  · split
    · split
      · split
        · exact ⟨c.stop_keeps _, .inl ⟨_, rfl⟩⟩
        · exact ⟨⟨rfl, rfl⟩, .inr rfl⟩
      · exact ⟨c.stop_keeps _, .inl ⟨_, rfl⟩⟩
    · exact ⟨c.stop_keeps _, .inl ⟨_, rfl⟩⟩

end CoordinatorState

/-! ## Every run -/

/-- **When the counted bytes are the received bytes**: the exchange of the step has
less than the largest output budget, or receives at most that many bytes. -/
def CountsFully (p : CoordinatorParams Json) (c : CoordinatorState Json) :
    CoordinatorAction → Prop
  | .start o => Counts (o.exchange ⟨p.maxRetained, p.limits.maxTotalProviderOutputBytes⟩)
  | .round r => Counts (r.exchange ⟨p.maxRetained, c.remainingOutput p⟩)
  | .roundsOver => True

instance (p : CoordinatorParams Json) (c : CoordinatorState Json) (a : CoordinatorAction) :
    Decidable (CountsFully p c a) :=
  match a with
  | .start o => inferInstanceAs (Decidable (Counts (o.exchange _)))
  | .round r => inferInstanceAs (Decidable (Counts (r.exchange _)))
  | .roundsOver => inferInstanceAs (Decidable True)

/-- The counters are exact and the exchanges within the limits; in the loop all
exchanges so far have completed, and those still allowed fit its bound. -/
structure Accounted (p : CoordinatorParams Json) (c : CoordinatorState Json) : Prop where
  within : Within p.limits c.exchanges
  usage : c.usage = exactUsage c.exchanges
  rounds : c.exchanges.length ≤ p.limits.maxContinuations + 1
  starting : c.phase = .starting → c.exchanges = []
  continuing : ∀ rounds, c.phase = .continuing rounds →
    (∀ x ∈ c.exchanges, x.completed = true) ∧
      c.exchanges.length + rounds ≤ p.limits.maxContinuations + 1

section

variable {p : CoordinatorParams Json} {c c' : CoordinatorState Json}

theorem Accounted.initial : Accounted p (.initial p) where
  within := .none _
  usage := rfl
  rounds := Nat.zero_le _
  starting _ := rfl
  continuing rounds h := by cases h

/-- From exact counters to where the transaction ends or its loop goes on. -/
theorem Accounted.keeps (hwithin : Within p.limits c.exchanges)
    (husage : c.usage = exactUsage c.exchanges)
    (hrounds : c.exchanges.length ≤ p.limits.maxContinuations + 1) (hkeeps : c.Keeps c')
    (hphase : (∃ kind, c'.phase = .ended kind) ∨
      ∃ rounds, c'.phase = .continuing rounds ∧ (∀ x ∈ c.exchanges, x.completed = true) ∧
        c.exchanges.length + rounds ≤ p.limits.maxContinuations + 1) :
    Accounted p c' := by
  obtain ⟨hsame, hexchanges⟩ := hkeeps
  rw [← hexchanges] at hwithin husage hrounds hphase
  refine ⟨hwithin, hsame.trans husage, hrounds, ?_, ?_⟩
  · intro hstarting
    rcases hphase with ⟨kind, hphase⟩ | ⟨rounds, hphase, -⟩
    · rw [hphase] at hstarting
      cases hstarting
    · rw [hphase] at hstarting
      cases hstarting
  · intro rounds hcontinuing
    rcases hphase with ⟨kind, hphase⟩ | ⟨left, hphase, hall, hleft⟩
    · rw [hphase] at hcontinuing
      cases hcontinuing
    · rw [hphase] at hcontinuing
      cases hcontinuing
      exact ⟨hall, hleft⟩

theorem Accounted.stop (h : Accounted p c) (kind : TransactionEndKind) :
    Accounted p (c.stop kind) :=
  .keeps h.within h.usage h.rounds (c.stop_keeps kind) (.inl ⟨kind, rfl⟩)

/-- The first exchange. -/
theorem Accounted.start (h : Accounted p c) (hphase : c.phase = .starting) {o : Opening}
    (hcounted : CountsFully p c (.start o)) : Accounted p (c.onStart p o) := by
  unfold CoordinatorState.onStart
  split
  · exact h.stop _
  · split
    · exact h.stop _
    · split
      · exact h.stop _
      · rename_i hexchanges
        split
        · exact h.stop _
        · exact h.stop _
        · dsimp only
          have hnone := h.starting hphase
          have hreports := runDirectLlmExchange_reports
            (p.encoder.encodeInitial o.exchangeId p.input) p.maxEncoded p.maxRetained
            p.limits.maxTotalProviderInputBytes p.limits.maxTotalProviderOutputBytes o.exchange
          revert hreports
          generalize runDirectLlmExchange _ _ _ _ _ _ = outcome
          intro hreports
          rw [hnone]
          obtain ⟨hwithin, hspent, hlength⟩ := (Within.none p.limits).spend
            (fun x hx => by cases hx) (Nat.pos_of_ne_zero hexchanges) hreports hcounted
          have hkeeps := CoordinatorState.finishAfterExchange_cases p { c with
            sessionId := o.claimed <|> c.sessionId
            usage := providerUsageAfterExchange outcome
            exchanges := [] ++ outcome.entered.toList } o outcome
          obtain ⟨hkeeps, hend⟩ := hkeeps
          cases hspent with
          | ended hterminal husage =>
              refine .keeps hwithin ?_ (Nat.le_trans hlength (Nat.le_add_left ..)) hkeeps
                (.inl ?_)
              · rw [husage]
                exact if_neg hterminal
              · rcases hend with hend | ⟨-, hcompleted⟩
                · exact hend
                · exact absurd hcompleted hterminal
          | completed hterminal husage hall =>
              refine .keeps hwithin ?_ (Nat.le_trans hlength (Nat.le_add_left ..)) hkeeps ?_
              · rw [husage]
                show providerUsageAfterExchange outcome = ⟨0 + 1, 0 + _, 0 + _⟩
                rw [Nat.zero_add, Nat.zero_add, Nat.zero_add]
                exact if_pos hterminal
              · rcases hend with hend | ⟨hcontinuing, -⟩
                · exact .inl hend
                · refine .inr ⟨_, hcontinuing, hall, ?_⟩
                  have hone : ([] ++ outcome.entered.toList).length ≤ 1 := hlength
                  show ([] ++ outcome.entered.toList).length + _ ≤ _
                  omega

/-- The exchange of a round. -/
theorem Accounted.continueExchange {rounds : Nat} (h : Accounted p c)
    (hphase : c.phase = .continuing rounds)
    (hleft : c.exchanges.length + 1 + rounds ≤ p.limits.maxContinuations + 1)
    (hcount : c.usage.exchanges < p.limits.maxProviderExchanges) {r : Round}
    (hcounted : CountsFully p c (.round r)) (messages : List (CanonicalMessage Json)) :
    Accounted p (c.continueExchange p r messages) := by
  unfold CoordinatorState.continueExchange
  dsimp only
  have hall := (h.continuing rounds hphase).1
  have hreports := runDirectLlmContinuation_reports
    (p.encoder.encodeToolContinuation r.exchangeId messages c.toolResults) p.maxEncoded
    p.limits.maxContinuationContextBytes p.maxRetained (c.remainingInput p) (c.remainingOutput p)
    r.exchange
  revert hreports
  generalize runDirectLlmContinuation _ _ _ _ _ _ _ = outcome
  intro hreports
  unfold CoordinatorState.remainingInput CoordinatorState.remainingOutput at hreports
  rw [h.usage] at hreports hcount
  have hcounted' : Counts (r.exchange ⟨p.maxRetained,
      p.limits.maxTotalProviderOutputBytes - (exactUsage c.exchanges).output⟩) := by
    rw [← h.usage]
    exact hcounted
  obtain ⟨hwithin, hspent, hlength⟩ := h.within.spend hall hcount hreports hcounted'
  have hrounds : (c.exchanges ++ outcome.entered.toList).length ≤
      p.limits.maxContinuations + 1 := by
    omega
  cases hspent with
  | ended hterminal husage =>
      rw [if_neg hterminal]
      refine .keeps hwithin ?_ hrounds (CoordinatorState.stop_keeps _ _) (.inl ⟨_, rfl⟩)
      exact h.usage.trans husage.symm
  | completed hterminal husage hallNow =>
      rw [if_pos hterminal]
      rw [← h.usage] at husage
      obtain ⟨hkeeps, hend⟩ := CoordinatorState.afterContinuation_cases p { c with
        messages := messages
        exchanges := c.exchanges ++ outcome.entered.toList
        usage := c.usage.add outcome } r outcome
      refine .keeps hwithin (Usage.add_eq hwithin husage hallNow) hrounds hkeeps ?_
      rcases hend with hend | hcontinuing
      · exact .inl hend
      · refine .inr ⟨rounds, hcontinuing.trans hphase, hallNow, ?_⟩
        show (c.exchanges ++ outcome.entered.toList).length + rounds ≤ _
        omega

/-- One round of the loop. -/
theorem Accounted.round {rounds : Nat} (h : Accounted p c)
    (hphase : c.phase = .continuing (rounds + 1)) {r : Round}
    (hcounted : CountsFully p c (.round r)) :
    Accounted p (CoordinatorState.onRound p { c with phase := .continuing rounds } r) := by
  obtain ⟨hall, hleft⟩ := h.continuing (rounds + 1) hphase
  have hround : Accounted p { c with phase := .continuing rounds } := by
    refine .keeps h.within h.usage h.rounds ⟨rfl, rfl⟩ (.inr ⟨rounds, rfl, hall, ?_⟩)
    omega
  unfold CoordinatorState.onRound
  split
  · exact hround.stop _
  · split
    · exact hround.stop _
    · rename_i hcount
      split
      · exact hround.stop _
      · split
        · exact hround.stop _
        · split
          · exact hround.stop _
          · exact hround.continueExchange rfl (by show c.exchanges.length + 1 + rounds ≤ _; omega)
              (Nat.lt_of_not_le hcount) hcounted _

end

/-- The exchange after `bytes` bytes without a unit. -/
def streaming (bytes : Nat) : Exchange :=
  { Exchange.opened with
    received := bytes % 2 ^ 64
    bytes := bytes
    collector := .collecting 0
    phase := .selecting .cancel }

end Monoloop.Coordinator
