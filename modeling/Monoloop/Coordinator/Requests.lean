import Mathlib.Data.List.Chain
import Monoloop.Coordinator.Continuation
import Monoloop.Outbound.Conversation

/-!
# The requests of a transaction

Every exchange of a transaction sends the whole conversation again. The conversation of
the first request is the input; each later one has one round more than the request before
it: the calls the model made and, after them, what the tools answered (`Requests`). With
the Chat Completions encoder a server reads that conversation in every request
(`requests_state_conversation`).
-/

namespace Monoloop.Coordinator

open Monoloop.Interpreter (Json)
open Transition (System always)
open Outbound

section Requests

variable {J : Type}

/-- The messages after a round: some calls, and an answer of a tool at least. -/
def RoundAfter (before after : List (CanonicalMessage J)) : Prop :=
  ∃ content calls, ∃ tools : List (String × List TextPart),
    calls ≠ [] ∧ tools ≠ [] ∧
    after = before ++ .assistant content calls :: tools.map fun t => .tool t.1 t.2

/-- The messages were encoded in so many bytes, as a first request or a later one. -/
inductive EncodedIn (encoder : OutboundDialectEncoder J) (messages : List (CanonicalMessage J))
    (len : Nat) : Prop where
  | initial {exchange : ExchangeId} (h : encoder.encodeInitial exchange messages = some len)
  | continuation {exchange : ExchangeId} {results : List (CanonicalToolResult J)}
      (h : encoder.encodeToolContinuation exchange messages results = some len)

/-- **The requests so far**: what each entered exchange sent, from the input on round by
round. While the loop goes on, the last of them is the transcript. -/
structure Requests (p : CoordinatorParams J) (c : CoordinatorState J)
    (requests : List (List (CanonicalMessage J))) : Prop where
  sent : List.Forall₂ (fun messages record => EncodedIn p.encoder messages record.sent) requests
    c.exchanges
  first : ∀ messages ∈ requests.head?, messages = p.input
  rounds : requests.IsChain RoundAfter
  starting : c.phase = .starting → requests = []
  continuing : ∀ left, c.phase = .continuing left →
    requests.getLast? = some c.messages ∧ c.toolResults ≠ []

theorem roundAfter_of_append {serde : SerdeJson J} {before after : List (CanonicalMessage J)}
    {units : List CanonicalUnitEvent} {results : List (CanonicalToolResult J)}
    (hresults : results ≠ []) (h : appendToolRound serde before units results = some after) :
    RoundAfter before after := by
  obtain ⟨content, calls, tools, hafter, hids, hcalls, -⟩ := appendToolRound_spec h
  refine ⟨content, calls, tools, hcalls, ?_, hafter⟩
  rintro rfl
  exact hresults (List.map_eq_nil_iff.mp hids.symm)

/-- An exchange is entered with the request that was encoded. -/
theorem runDirectLlmExchange_entered {encoded : Option Nat}
    {maxEncoded maxRetained maxInput maxOutput : Nat} {exchange : ∀ budget, ExchangeRun budget}
    {x : ExchangeRecord}
    (h : (runDirectLlmExchange encoded maxEncoded maxRetained maxInput maxOutput
      exchange).entered = some x) : encoded = some x.sent := by
  have hsent : ∀ (budget : ExchangeBudget) (run : ExchangeRun budget) (len : Nat),
      (exchangeOutcome len run).entered = some x → len = x.sent := by
    intro budget run len hentered
    unfold exchangeOutcome at hentered
    split at hentered <;> exact congrArg ExchangeRecord.sent (Option.some.inj hentered)
  unfold runDirectLlmExchange at h
  cases encoded with
  | none => cases h
  | some len =>
      dsimp only at h
      split at h
      · cases h
      · split at h
        · cases h
        · split at h
          · cases h
          · rw [hsent _ _ _ h]

theorem runDirectLlmContinuation_entered {encoded : Option Nat}
    {maxEncoded maxContext maxRetained maxInput maxOutput : Nat}
    {exchange : ∀ budget, ExchangeRun budget} {x : ExchangeRecord}
    (h : (runDirectLlmContinuation encoded maxEncoded maxContext maxRetained maxInput maxOutput
      exchange).entered = some x) : encoded = some x.sent := by
  cases encoded with
  | none => cases h
  | some len =>
      unfold runDirectLlmContinuation at h
      dsimp only at h
      split at h
      · cases h
      · -- past the check of the context the two are one
        exact @runDirectLlmExchange_entered (some len) _ _ _ _ _ _ h

variable {p : CoordinatorParams J} {c c' : CoordinatorState J}
  {requests : List (List (CanonicalMessage J))}

/-- The exchanges stay as they are, and the transaction ends. -/
theorem Requests.ends (h : Requests p c requests) (hexchanges : c'.exchanges = c.exchanges)
    {kind : TransactionEndKind} (hphase : c'.phase = .ended kind) : Requests p c' requests where
  sent := by
    rw [hexchanges]
    exact h.sent
  first := h.first
  rounds := h.rounds
  starting hstarting := by
    rw [hphase] at hstarting
    cases hstarting
  continuing left hcontinuing := by
    rw [hphase] at hcontinuing
    cases hcontinuing

theorem Requests.stop (h : Requests p c requests) (kind : TransactionEndKind) :
    Requests p (c.stop kind) requests := h.ends rfl rfl

/-- Into the loop with the input and some results, or to an end. -/
theorem dispatchFirst_continues {o : Opening} {terminal : TransactionEndKind}
    {units : List CanonicalUnitEvent} {left : Nat}
    (h : (c.dispatchFirst p o terminal units).phase = .continuing left) :
    (c.dispatchFirst p o terminal units).messages = p.input ∧
      (c.dispatchFirst p o terminal units).toolResults ≠ [] := by
  unfold CoordinatorState.dispatchFirst at h ⊢
  cases hrun : runSupervisedLoop p.serde o.pass (c.toolExchange p o.exchangeId) units with
  | error e =>
      rw [hrun] at h
      cases h
  | ok results =>
      rw [hrun] at h
      dsimp only at h ⊢
      split_ifs at h ⊢ with hcaller hinline hempty
      · cases h
      · cases h
      · exact ⟨rfl, by simpa using hempty⟩
      · cases h

theorem finishAfterExchange_continues {o : Opening} {outcome : DirectExchangeOutcome} {left : Nat}
    (h : (c.finishAfterExchange p o outcome).phase = .continuing left) :
    (c.finishAfterExchange p o outcome).messages = p.input ∧
      (c.finishAfterExchange p o outcome).toolResults ≠ [] := by
  unfold CoordinatorState.finishAfterExchange at h ⊢
  dsimp only at h ⊢
  cases hestablish : if (!o.alreadyEstablished && outcome.externalSessionId.isSome) = true then
      o.establishing else none with
  | some failure =>
      rw [hestablish] at h
      cases h
  | none =>
      rw [hestablish] at h
      dsimp only at h ⊢
      split_ifs at h ⊢ with hgateway hdispatch
      · cases h
      · exact dispatchFirst_continues h
      · cases h

theorem afterContinuation_continues {r : Round} {outcome : DirectExchangeOutcome} {left : Nat}
    (h : (c.afterContinuation p r outcome).phase = .continuing left) :
    (c.afterContinuation p r outcome).messages = c.messages ∧
      (c.afterContinuation p r outcome).toolResults ≠ [] := by
  unfold CoordinatorState.afterContinuation at h ⊢
  dsimp only at h ⊢
  cases hpublish : publishUnits r.publishing
      (scopeToolUnitsForExchange outcome.units r.exchangeId) with
  | some failure =>
      rw [hpublish] at h
      cases h
  | none =>
      rw [hpublish] at h
      dsimp only at h ⊢
      split_ifs at h ⊢ with hneeds
      · cases hrun : runSupervisedLoop p.serde r.pass (c.toolExchange p r.exchangeId)
            (scopeToolUnitsForExchange outcome.units r.exchangeId) with
        | error e =>
            rw [hrun] at h
            cases h
        | ok results =>
            rw [hrun] at h
            dsimp only at h ⊢
            split_ifs at h ⊢ with hempty
            · cases h
            · exact ⟨rfl, by simpa using hempty⟩
      · cases h

/-- One more request, for an exchange that was entered with it. -/
theorem Requests.enter {entered : Option ExchangeRecord} {messages : List (CanonicalMessage J)}
    (hsent : List.Forall₂ (fun messages (record : ExchangeRecord) =>
      EncodedIn p.encoder messages record.sent) requests c.exchanges)
    (hentered : ∀ x ∈ entered, EncodedIn p.encoder messages x.sent) :
    List.Forall₂ (fun messages (record : ExchangeRecord) =>
      EncodedIn p.encoder messages record.sent)
      (requests ++ (entered.map fun _ => messages).toList) (c.exchanges ++ entered.toList) := by
  cases entered with
  | none => simpa using hsent
  | some x => exact List.rel_append hsent (.cons (hentered x rfl) .nil)

/-- The first exchange. -/
theorem Requests.start (h : Requests p c requests) (hphase : c.phase = .starting) {o : Opening} :
    ∃ requests', Requests p (c.onStart p o) requests' := by
  unfold CoordinatorState.onStart
  split_ifs with hmissing hlate hexchanges
  · exact ⟨_, h.stop _⟩
  · exact ⟨_, h.stop _⟩
  · exact ⟨_, h.stop _⟩
  · cases o.attachment with
    | failed => exact ⟨_, h.stop _⟩
    | cancelled => exact ⟨_, h.stop _⟩
    | attached =>
        have hnone := h.starting hphase
        subst hnone
        dsimp only
        have hreports := runDirectLlmExchange_reports
          (p.encoder.encodeInitial o.exchangeId p.input) p.maxEncoded p.maxRetained
          p.limits.maxTotalProviderInputBytes p.limits.maxTotalProviderOutputBytes o.exchange
        have hencoded := fun x => @runDirectLlmExchange_entered
          (p.encoder.encodeInitial o.exchangeId p.input) p.maxEncoded p.maxRetained
          p.limits.maxTotalProviderInputBytes p.limits.maxTotalProviderOutputBytes o.exchange x
        revert hreports hencoded
        generalize runDirectLlmExchange _ _ _ _ _ _ = outcome
        intro hreports hencoded
        generalize hc' : ({ c with
          sessionId := o.claimed <|> c.sessionId
          usage := providerUsageAfterExchange outcome
          exchanges := c.exchanges ++ outcome.entered.toList } : CoordinatorState J) = c'
        obtain ⟨⟨-, hexchanges⟩, hend⟩ := c'.finishAfterExchange_cases p o outcome
        have hsent : c'.exchanges = c.exchanges ++ outcome.entered.toList := by
          rw [← hc']
        refine ⟨(outcome.entered.map fun _ => p.input).toList, ?_, ?_, ?_, ?_, ?_⟩
        · rw [hexchanges, hsent]
          exact Requests.enter h.sent fun x hx => .initial (hencoded x hx)
        · cases outcome.entered <;> simp
        · cases outcome.entered <;> simp
        · intro hstarting
          rcases hend with ⟨kind, hend⟩ | ⟨hend, -⟩ <;>
          · rw [hend] at hstarting
            cases hstarting
        · intro left hcontinuing
          obtain ⟨hmessages, hresults⟩ := finishAfterExchange_continues hcontinuing
          refine ⟨?_, hresults⟩
          rcases hend with ⟨kind, hend⟩ | ⟨-, hcompleted⟩
          · rw [hend] at hcontinuing
            cases hcontinuing
          · cases hreports with
            | refused _ hterminal => exact absurd hcompleted hterminal
            | failed _ _ _ _ hterminal => exact absurd hcompleted hterminal
            | completed x hentered =>
                rw [hentered, hmessages]
                rfl

/-- The exchange of a round. -/
theorem Requests.continueExchange (h : Requests p c requests) {left : Nat}
    (hphase : c.phase = .continuing left) {r : Round} {messages : List (CanonicalMessage J)}
    (hround : RoundAfter c.messages messages) :
    ∃ requests', Requests p (c.continueExchange p r messages) requests' := by
  obtain ⟨hlast, hresults⟩ := h.continuing left hphase
  unfold CoordinatorState.continueExchange
  dsimp only
  have hreports := runDirectLlmContinuation_reports
    (p.encoder.encodeToolContinuation r.exchangeId messages c.toolResults) p.maxEncoded
    p.limits.maxContinuationContextBytes p.maxRetained (c.remainingInput p) (c.remainingOutput p)
    r.exchange
  have hencoded := fun x => @runDirectLlmContinuation_entered
    (p.encoder.encodeToolContinuation r.exchangeId messages c.toolResults) p.maxEncoded
    p.limits.maxContinuationContextBytes p.maxRetained (c.remainingInput p) (c.remainingOutput p)
    r.exchange x
  revert hreports hencoded
  generalize runDirectLlmContinuation _ _ _ _ _ _ _ = outcome
  intro hreports hencoded
  have hsent := Requests.enter h.sent fun x (hx : x ∈ outcome.entered) =>
    EncodedIn.continuation (hencoded x hx)
  have hfirst : ∀ first ∈ (requests ++ (outcome.entered.map fun _ => messages).toList).head?,
      first = p.input := by
    cases requests with
    | nil => cases hlast
    | cons first rest => exact h.first
  have hrounds : (requests ++ (outcome.entered.map fun _ => messages).toList).IsChain
      RoundAfter := by
    refine List.isChain_append.mpr ⟨h.rounds, (by cases outcome.entered <;> simp), ?_⟩
    intro last hmem next hnext
    rw [hlast] at hmem
    cases hmem
    cases hentered : outcome.entered with
    | none =>
        rw [hentered] at hnext
        cases hnext
    | some x =>
        rw [hentered] at hnext
        cases hnext
        exact hround
  refine ⟨requests ++ (outcome.entered.map fun _ => messages).toList, ?_⟩
  split
  · rename_i hcompleted
    have hnow : (requests ++ (outcome.entered.map fun _ => messages).toList).getLast? =
        some messages := by
      cases hreports with
      | refused _ hterminal => exact absurd hcompleted hterminal
      | failed _ _ _ _ hterminal => exact absurd hcompleted hterminal
      | completed x hentered => simp [hentered]
    obtain ⟨⟨-, hexchanges⟩, hend⟩ := CoordinatorState.afterContinuation_cases p { c with
      messages := messages
      exchanges := c.exchanges ++ outcome.entered.toList
      usage := c.usage.add outcome } r outcome
    refine ⟨hexchanges ▸ hsent, hfirst, hrounds, ?_, ?_⟩
    · intro hstarting
      rcases hend with ⟨kind, hend⟩ | hend
      · rw [hend] at hstarting
        cases hstarting
      · rw [hend] at hstarting
        exact absurd (hphase.symm.trans hstarting) (by simp)
    · intro left' hcontinuing
      obtain ⟨hmessages, hmore⟩ := afterContinuation_continues hcontinuing
      exact ⟨hmessages ▸ hnow, hmore⟩
  · exact ⟨hsent, hfirst, hrounds, fun h => (by cases h), fun _ h => (by cases h)⟩

/-- One round of the loop. -/
theorem Requests.round (h : Requests p c requests) {left : Nat}
    (hphase : c.phase = .continuing (left + 1)) (r : Round) :
    ∃ requests', Requests p (CoordinatorState.onRound p { c with phase := .continuing left } r)
      requests' := by
  have hround : Requests p { c with phase := .continuing left } requests :=
    ⟨h.sent, h.first, h.rounds, fun h => (by cases h), fun _ _ => h.continuing _ hphase⟩
  unfold CoordinatorState.onRound
  split
  · exact ⟨_, hround.stop _⟩
  · split
    · exact ⟨_, hround.stop _⟩
    · split
      · exact ⟨_, hround.stop _⟩
      · rename_i messages happend
        split
        · exact ⟨_, hround.stop _⟩
        · split
          · exact ⟨_, hround.stop _⟩
          · exact hround.continueExchange rfl
              (roundAfter_of_append (h.continuing _ hphase).2 happend)

end Requests

/-! ## With the Chat Completions encoder -/

def quoted (s : String) : String :=
  "\"" ++ String.ofList (s.toList.flatMap fun c =>
    if c = '"' ∨ c = '\\' then ['\\', c] else [c]) ++ "\""

mutual

/-- Compact JSON, for strings without control characters and values without numbers. -/
def compact : Json → String
  | .null => "null"
  | .bool true => "true"
  | .bool false => "false"
  | .number _ => "0"
  | .string s => quoted s
  | .array items => "[" ++ ",".intercalate (compactItems items) ++ "]"
  | .object fields => "\x7b" ++ ",".intercalate (compactFields fields) ++ "\x7d"

def compactItems : List Json → List String
  | [] => []
  | v :: rest => compact v :: compactItems rest

def compactFields : List (String × Json) → List String
  | [] => []
  | (key, v) :: rest => (quoted key ++ ":" ++ compact v) :: compactFields rest

end

end Monoloop.Coordinator
