import Monoloop.ToolLoop.Turns

/-!
# Exactly one result per dispatched action

A dispatch request names its action and generation but not its interpretation;
the interpretation is the one of the delivered unit that caused it. So a run is
read as its trace: every input with the events emitted while it was handled.
-/

namespace Monoloop.ToolLoop

open LoopOwner

variable {env : LoopEnvironment} {o : LoopOwner} {i : InterpretationId} {a : ToolActionId}

/-- The generations of the dispatch requests for an action. -/
def dispatchesIn (a : ToolActionId) (emitted : List LoopOutputEvent) : List Nat :=
  emitted.filterMap fun
    | .toolDispatchRequested action generation => if action = a then some generation else none
    | _ => none

/-- The generations of the outbound results for an action of an interpretation. -/
def resultsIn (i : InterpretationId) (a : ToolActionId) (emitted : List LoopOutputEvent) :
    List Nat :=
  emitted.filterMap fun
    | .outboundToolResult r =>
        if r.sourceInterpretationId = i ∧ r.toolActionId = a then some r.requestGeneration else none
    | _ => none

def LoopOutputEvent.isResult : LoopOutputEvent → Bool
  | .outboundToolResult _ => true
  | _ => false

def LoopOutputEvent.isUnavailable : LoopOutputEvent → Bool
  | .toolUnavailable _ _ => true
  | _ => false

/-- The interpretation of the unit an input delivers. -/
def LoopInput.interpretation : LoopInput → Option InterpretationId
  | .delivered ⟨_, .unit event⟩ => some event.snapshot.interpretationId
  | _ => none

/-- The dispatch requests one turn emitted for an action of an interpretation. -/
def turnDispatches (i : InterpretationId) (a : ToolActionId)
    (turn : LoopInput × List LoopOutputEvent) : List Nat :=
  if turn.1.interpretation = some i then dispatchesIn a turn.2 else []

/-- The dispatch requests a run emitted for an action of an interpretation. -/
def dispatchesOf (i : InterpretationId) (a : ToolActionId)
    (trace : List (LoopInput × List LoopOutputEvent)) : List Nat :=
  trace.flatMap (turnDispatches i a)

/-- The key of an action, as `on_unit` builds it. -/
def pairKey (i : InterpretationId) (a : ToolActionId) : String := i.value ++ ":" ++ a.value

/-- What a turn owes to the actions: at most one request for an action not yet
dispatched, and if it succeeds, a result for every request and exact counters. -/
structure TurnFacts (o : LoopOwner) (snap : CanonicalUnitSnapshot) (t : Turn) : Prop where
  once : ∀ a, dispatchesIn a t.emitted = [] ∨
    ((dispatchesIn a t.emitted).length = 1 ∧ o.dispatched (pairKey snap.interpretationId a) = false)
  marked : t.result = .ok () → ∀ a, dispatchesIn a t.emitted ≠ [] →
    t.owner.dispatched (pairKey snap.interpretationId a) = true
  kept : t.result = .ok () → ∀ k, o.dispatched k = true → t.owner.dispatched k = true
  results : t.result = .ok () → ∀ i a, resultsIn i a t.emitted =
    if snap.interpretationId = i then dispatchesIn a t.emitted else []
  resultCount : t.result = .ok () →
    t.owner.outboundResults = o.outboundResults + t.emitted.countP LoopOutputEvent.isResult
  unavailableCount : t.result = .ok () →
    t.owner.toolsUnavailable = o.toolsUnavailable + t.emitted.countP LoopOutputEvent.isUnavailable
  ended : t.result = .ok () → t.owner.ended = o.ended
  failure : ∀ kind, t.result = .error kind → kind ≠ .drained ∧ kind ≠ .cancelled

/-- A turn that emits nothing. -/
theorem TurnFacts.silent {snap : CanonicalUnitSnapshot} {o' : LoopOwner}
    (hkept : ∀ k, o'.dispatched k = o.dispatched k) (hresults : o'.outboundResults = o.outboundResults)
    (hunavailable : o'.toolsUnavailable = o.toolsUnavailable) (hended : o'.ended = o.ended) :
    TurnFacts o snap ⟨o', [], .ok ()⟩ where
  once _ := .inl rfl
  marked _ a h := absurd rfl h
  kept _ k hk := (hkept k).trans hk
  results _ i a := by simp [resultsIn, dispatchesIn]
  resultCount _ := hresults
  unavailableCount _ := hunavailable
  ended _ := hended
  failure _ h := by cases h

@[simp] theorem dispatchesIn_requested (a action : ToolActionId) (generation : Nat)
    (rest : List LoopOutputEvent) :
    dispatchesIn a (.toolDispatchRequested action generation :: rest) =
      if action = a then generation :: dispatchesIn a rest else dispatchesIn a rest := by
  unfold dispatchesIn
  by_cases h : action = a <;> simp [h]

@[simp] theorem dispatchesIn_unavailable (a action : ToolActionId) (reason : ToolUnavailableReason)
    (rest : List LoopOutputEvent) :
    dispatchesIn a (.toolUnavailable action reason :: rest) = dispatchesIn a rest := rfl

@[simp] theorem dispatchesIn_result (a : ToolActionId) (r : OutboundToolResult)
    (rest : List LoopOutputEvent) :
    dispatchesIn a (.outboundToolResult r :: rest) = dispatchesIn a rest := rfl

@[simp] theorem dispatchesIn_nil (a : ToolActionId) : dispatchesIn a [] = [] := rfl

@[simp] theorem resultsIn_requested (i : InterpretationId) (a action : ToolActionId)
    (generation : Nat) (rest : List LoopOutputEvent) :
    resultsIn i a (.toolDispatchRequested action generation :: rest) = resultsIn i a rest := rfl

@[simp] theorem resultsIn_unavailable (i : InterpretationId) (a action : ToolActionId)
    (reason : ToolUnavailableReason) (rest : List LoopOutputEvent) :
    resultsIn i a (.toolUnavailable action reason :: rest) = resultsIn i a rest := rfl

@[simp] theorem resultsIn_result (i : InterpretationId) (a : ToolActionId) (r : OutboundToolResult)
    (rest : List LoopOutputEvent) : resultsIn i a (.outboundToolResult r :: rest) =
      if r.sourceInterpretationId = i ∧ r.toolActionId = a then
        r.requestGeneration :: resultsIn i a rest
      else resultsIn i a rest := by
  unfold resultsIn
  by_cases h : r.sourceInterpretationId = i ∧ r.toolActionId = a <;> simp [h]

@[simp] theorem resultsIn_nil (i : InterpretationId) (a : ToolActionId) : resultsIn i a [] = [] :=
  rfl

theorem dispatchesIn_append (a : ToolActionId) (l l' : List LoopOutputEvent) :
    dispatchesIn a (l ++ l') = dispatchesIn a l ++ dispatchesIn a l' := by
  unfold dispatchesIn
  exact List.filterMap_append

theorem resultsIn_append (i : InterpretationId) (a : ToolActionId) (l l' : List LoopOutputEvent) :
    resultsIn i a (l ++ l') = resultsIn i a l ++ resultsIn i a l' := by
  unfold resultsIn
  exact List.filterMap_append

/-- One request, one result of the same action and generation. -/
theorem results_of_request {snap : CanonicalUnitSnapshot} {tool : ToolActionEvent}
    {r : OutboundToolResult} (hinterpretation : r.sourceInterpretationId = snap.interpretationId)
    (haction : r.toolActionId = tool.toolActionId)
    (hgeneration : r.requestGeneration = snap.unitGeneration) (i : InterpretationId)
    (a : ToolActionId) : resultsIn i a [.outboundToolResult r] =
      if snap.interpretationId = i then
        dispatchesIn a [.toolDispatchRequested tool.toolActionId snap.unitGeneration]
      else [] := by
  rw [resultsIn_result, hinterpretation, haction, hgeneration]
  by_cases hi : snap.interpretationId = i <;> by_cases ha : tool.toolActionId = a <;>
    simp [hi, ha]

theorem TurnFacts.dispatched {snap : CanonicalUnitSnapshot} {tool : ToolActionEvent} {t : Turn}
    {base : LoopOwner} {generation : Nat}
    (hleaves : DispatchLeaves base t.owner (actionKey snap tool) generation)
    (hemits : DispatchEmits base snap tool t)
    (hfresh : o.dispatched (actionKey snap tool) = false)
    (hbase : ∀ k, k ≠ actionKey snap tool → base.dispatched k = o.dispatched k)
    (hresults : base.outboundResults = o.outboundResults)
    (hunavailable : base.toolsUnavailable = o.toolsUnavailable) (hended : base.ended = o.ended) :
    TurnFacts o snap t := by
  -- every emitted list has the request, if any, in front
  have hrequest : ∀ a, dispatchesIn a t.emitted = [] ∨
      (tool.toolActionId = a ∧ dispatchesIn a t.emitted = [snap.unitGeneration]) := by
    intro a
    cases hemits with
    | answered r _ _ _ _ _ _ hemitted =>
        rw [hemitted]
        by_cases ha : tool.toolActionId = a <;> simp [ha]
    | unavailable r reason _ _ _ _ _ _ hemitted =>
        rw [hemitted]
        by_cases ha : tool.toolActionId = a <;> simp [ha]
    | failed kind _ _ hemitted =>
        rcases hemitted with hnone | hone | ⟨reason, htwo⟩
        · simp [hnone]
        · by_cases ha : tool.toolActionId = a <;> simp [hone, ha]
        · by_cases ha : tool.toolActionId = a <;> simp [htwo, ha]
  refine ⟨?_, ?_, ?_, ?_, ?_, ?_, ?_, ?_⟩
  · intro a
    rcases hrequest a with hnone | ⟨rfl, hone⟩
    · exact .inl hnone
    · exact .inr ⟨by rw [hone]; rfl, hfresh⟩
  · intro _ a hsome
    rcases hrequest a with hnone | ⟨rfl, -⟩
    · exact absurd hnone hsome
    · exact (hleaves.dispatched _).trans (if_pos rfl)
  · intro _ k hk
    rw [hleaves.dispatched]
    split
    · rfl
    · rename_i hne
      rw [hbase k hne, hk]
  · intro hok i a
    cases hemits with
    | answered r _ hinterpretation haction hgeneration _ _ hemitted =>
        rw [hemitted, resultsIn_requested,
          results_of_request hinterpretation haction hgeneration]
        by_cases ha : tool.toolActionId = a <;> simp [ha]
    | unavailable r reason _ hinterpretation haction hgeneration _ _ hemitted =>
        rw [hemitted, resultsIn_requested, resultsIn_unavailable,
          results_of_request hinterpretation haction hgeneration]
        by_cases ha : tool.toolActionId = a <;> simp [ha]
    | failed kind hresult _ _ =>
        rw [hresult] at hok
        cases hok
  · intro hok
    rw [← hresults]
    cases hemits with
    | answered r _ _ _ _ hcount _ hemitted =>
        rw [hcount, hemitted]
        rfl
    | unavailable r reason _ _ _ _ hcount _ hemitted =>
        rw [hcount, hemitted]
        rfl
    | failed kind hresult _ _ =>
        rw [hresult] at hok
        cases hok
  · intro hok
    rw [← hunavailable]
    cases hemits with
    | answered r _ _ _ _ _ hcount hemitted =>
        rw [hcount, hemitted]
        rfl
    | unavailable r reason _ _ _ _ _ hcount hemitted =>
        rw [hcount, hemitted]
        rfl
    | failed kind hresult _ _ =>
        rw [hresult] at hok
        cases hok
  · intro _
    exact hleaves.ended.trans hended
  · intro kind herror
    cases hemits with
    | answered r hresult _ _ _ _ _ _ =>
        rw [hresult] at herror
        cases herror
    | unavailable r reason hresult _ _ _ _ _ _ =>
        rw [hresult] at herror
        cases herror
    | failed kind' hresult hkind _ =>
        cases hresult.symm.trans herror
        rcases hkind with rfl | rfl <;> simp

theorem onUnit_facts (env : LoopEnvironment) (o : LoopOwner) (event : CanonicalUnitEvent) :
    TurnFacts o event.snapshot (o.onUnit env event) := by
  have hturn := onUnit_turn env o event
  generalize o.onUnit env event = t at hturn
  generalize event.snapshot = snap at hturn
  cases hturn with
  | observed _ => exact .silent (fun _ => rfl) rfl rfl rfl
  | duplicate tool _ _ => exact .silent (fun _ => rfl) rfl rfl rfl
  | refused tool o' _ =>
      refine ⟨fun _ => .inl rfl, ?_, ?_, ?_, ?_, ?_, ?_, ?_⟩ <;> intro h
      · cases h
      · cases h
      · cases h
      · cases h
      · cases h
      · cases h
      · intro h'
        cases h'
        simp
  | recorded tool o' _ hrecorded =>
      exact .silent hrecorded.dispatched hrecorded.results hrecorded.unavailable hrecorded.ended
  | dispatched tool record _ hfresh _ _ _ =>
      refine .dispatched (dispatch_leaves _ _ _ _ _ _) (dispatch_emits _ _ _ _ _ _) hfresh ?_
        rfl rfl rfl
      intro k hk
      rw [setAction_dispatched, if_neg hk]
      rfl

/-! ## Whole runs -/

theorem step_ended (env : LoopEnvironment) (input : LoopInput) (h : o.ended.isSome) :
    o.step env input = (o, []) := by
  unfold LoopOwner.step
  rw [if_pos h]

/-- What one turn of `run` does to an owner that has not ended. -/
inductive RunTurn (env : LoopEnvironment) (o : LoopOwner) (input : LoopInput) : Prop where
  /-- The Loop goes on. -/
  | continues (o' : LoopOwner) (emitted : List LoopOutputEvent)
      (hstep : o.step env input = (o', emitted)) (hended : o'.ended = none)
      (honce : ∀ i a, turnDispatches i a (input, emitted) = [] ∨
        ((turnDispatches i a (input, emitted)).length = 1 ∧ o.dispatched (pairKey i a) = false ∧
          o'.dispatched (pairKey i a) = true))
      (hkept : ∀ k, o.dispatched k = true → o'.dispatched k = true)
      (hresults : ∀ i a, resultsIn i a emitted = turnDispatches i a (input, emitted))
      (hcount : o'.outboundResults =
        o.outboundResults + emitted.countP LoopOutputEvent.isResult)
      (hunavailable : o'.toolsUnavailable =
        o.toolsUnavailable + emitted.countP LoopOutputEvent.isUnavailable)
  /-- The Loop ends between two units. -/
  | finishes (kind : LoopEndKind) (hstep : o.step env input = o.finish env kind)
  /-- A handler fails. -/
  | fails (o' : LoopOwner) (emitted : List LoopOutputEvent) (kind : LoopEndKind)
      (hstep : (o.step env input) = ((o'.finish env kind).1, emitted ++ (o'.finish env kind).2))
      (honce : ∀ i a, turnDispatches i a (input, emitted) = [] ∨
        ((turnDispatches i a (input, emitted)).length = 1 ∧ o.dispatched (pairKey i a) = false))
      (hkind : kind ≠ .drained ∧ kind ≠ .cancelled)

/-- A turn that emits nothing and keeps the actions. -/
theorem RunTurn.quiet {input : LoopInput} {o' : LoopOwner} (hstep : o.step env input = (o', []))
    (hended : o'.ended = none) (hactions : o'.actions = o.actions)
    (hresults : o'.outboundResults = o.outboundResults)
    (hunavailable : o'.toolsUnavailable = o.toolsUnavailable) : RunTurn env o input := by
  refine .continues o' [] hstep hended ?_ ?_ ?_ hresults hunavailable
  · intro i a
    left
    simp [turnDispatches]
  · intro k hk
    unfold LoopOwner.dispatched
    rw [hactions]
    exact hk
  · intro i a
    simp [turnDispatches]

theorem turnDispatches_unit (i : InterpretationId) (a : ToolActionId) (sequence : Nat)
    (event : CanonicalUnitEvent) (emitted : List LoopOutputEvent) :
    turnDispatches i a (.delivered ⟨sequence, .unit event⟩, emitted) =
      if event.snapshot.interpretationId = i then dispatchesIn a emitted else [] := by
  simp [turnDispatches, LoopInput.interpretation]

/-- A delivered unit; `o₁` is the owner with the delivery counted. -/
theorem run_turn_of_facts {o₁ : LoopOwner} {sequence : Nat} {event : CanonicalUnitEvent} {t : Turn}
    (hcounted : o₁ = { o with lastSeq := sequence, deliveryEvents := o.deliveryEvents + 1 })
    (hended : o.ended = none)
    (hstep : o.step env (.delivered ⟨sequence, .unit event⟩) = close env t)
    (hfacts : TurnFacts o₁ event.snapshot t) :
    RunTurn env o (.delivered ⟨sequence, .unit event⟩) := by
  have hdispatched : ∀ k, o₁.dispatched k = o.dispatched k := by
    intro k
    rw [hcounted]
    rfl
  unfold close at hstep
  split at hstep
  · rename_i hok
    refine .continues t.owner t.emitted hstep ?_ ?_ ?_ ?_ ?_ ?_
    · rw [hfacts.ended hok, hcounted]
      exact hended
    · intro i a
      rw [turnDispatches_unit]
      split
      · rename_i hi
        subst hi
        by_cases hnone : dispatchesIn a t.emitted = []
        · exact .inl hnone
        · right
          rcases hfacts.once a with h | ⟨hone, hfresh⟩
          · exact absurd h hnone
          · rw [hdispatched] at hfresh
            exact ⟨hone, hfresh, hfacts.marked hok a hnone⟩
      · exact .inl rfl
    · intro k hk
      exact hfacts.kept hok k ((hdispatched k).trans hk)
    · intro i a
      rw [turnDispatches_unit]
      exact hfacts.results hok i a
    · rw [hfacts.resultCount hok, hcounted]
    · rw [hfacts.unavailableCount hok, hcounted]
  · rename_i kind herror
    refine .fails t.owner t.emitted kind hstep ?_ (hfacts.failure kind herror)
    intro i a
    rw [turnDispatches_unit]
    split
    · rename_i hi
      subst hi
      rcases hfacts.once a with h | ⟨hone, hfresh⟩
      · exact .inl h
      · rw [hdispatched] at hfresh
        exact .inr ⟨hone, hfresh⟩
    · exact .inl rfl

theorem run_turn (env : LoopEnvironment) (input : LoopInput) (h : o.ended = none) :
    RunTurn env o input := by
  cases input with
  | cancelled => exact .finishes .cancelled (by simp [LoopOwner.step, h])
  | closed => exact .finishes .drained (by simp [LoopOwner.step, h])
  | status status =>
      cases status with
      | gap expected observed => exact .finishes .subscriptionLost (by simp [LoopOwner.step, h])
      | lost => exact .finishes .subscriptionLost (by simp [LoopOwner.step, h])
      | opened => exact .quiet (by simp [LoopOwner.step, h]) h rfl rfl rfl
      | closing => exact .quiet (by simp [LoopOwner.step, h]) h rfl rfl rfl
  | delivered delivered =>
      have hstep : o.step env (.delivered delivered) = close env (o.onDelivered env delivered) := by
        simp [LoopOwner.step, h]
      unfold LoopOwner.onDelivered at hstep
      split at hstep
      · exact .fails _ [] .subscriptionLost hstep (fun i a => .inl (by simp [turnDispatches]))
          ⟨by simp, by simp⟩
      · obtain ⟨sequence, event⟩ := delivered
        cases event with
        | ended kind => exact .quiet hstep h rfl rfl rfl
        | unit event =>
            dsimp only at hstep
            have hfacts := onUnit_facts env
              { o with lastSeq := sequence, deliveryEvents := o.deliveryEvents + 1 } event
            generalize LoopOwner.onUnit env _ event = t at hstep hfacts
            exact run_turn_of_facts rfl h hstep hfacts

/-- The report itself is no request, no result and no unavailability. -/
theorem finish_emits (env : LoopEnvironment) (o : LoopOwner) (kind : LoopEndKind) :
    (∀ a, dispatchesIn a (o.finish env kind).2 = []) ∧
      (∀ i a, resultsIn i a (o.finish env kind).2 = []) ∧
      (o.finish env kind).2.countP LoopOutputEvent.isResult = 0 ∧
      (o.finish env kind).2.countP LoopOutputEvent.isUnavailable = 0 := by
  unfold LoopOwner.finish
  cases env.endAccepted <;>
    simp [dispatchesIn, resultsIn, LoopOutputEvent.isResult, LoopOutputEvent.isUnavailable]

theorem turnDispatches_finish (env : LoopEnvironment) (o : LoopOwner) (i : InterpretationId)
    (a : ToolActionId) (input : LoopInput) (emitted : List LoopOutputEvent) (kind : LoopEndKind) :
    turnDispatches i a (input, emitted ++ (o.finish env kind).2) =
      turnDispatches i a (input, emitted) := by
  have hfinish := (finish_emits env o kind).1 a
  unfold turnDispatches
  split
  · show dispatchesIn a (emitted ++ _) = dispatchesIn a emitted
    rw [dispatchesIn_append, hfinish, List.append_nil]
  · rfl

theorem dispatchesOf_cons (i : InterpretationId) (a : ToolActionId) (input : LoopInput)
    (rest : List LoopInput) (o : LoopOwner) : dispatchesOf i a (o.trace env (input :: rest)) =
      turnDispatches i a (input, (o.step env input).2) ++
        dispatchesOf i a ((o.step env input).1.trace env rest) := rfl

theorem output_cons (input : LoopInput) (rest : List LoopInput) (o : LoopOwner) :
    o.output env (input :: rest) =
      (o.step env input).2 ++ (o.step env input).1.output env rest := rfl

theorem trace_ended (env : LoopEnvironment) (inputs : List LoopInput) (h : o.ended.isSome) :
    (∀ i a, dispatchesOf i a (o.trace env inputs) = []) ∧ o.output env inputs = [] ∧
      o.run env inputs = o := by
  induction inputs with
  | nil => exact ⟨fun _ _ => rfl, rfl, rfl⟩
  | cons input rest ih =>
      obtain ⟨hdispatches, houtput, hrun⟩ := ih
      have hstep := step_ended env input h
      refine ⟨?_, ?_, ?_⟩
      · intro i a
        rw [dispatchesOf_cons, hstep, hdispatches]
        simp [turnDispatches]
      · rw [output_cons, hstep, houtput]
        rfl
      · simp only [LoopOwner.run, hstep]
        exact hrun

theorem finish_ended (env : LoopEnvironment) (o : LoopOwner) (kind : LoopEndKind) :
    (o.finish env kind).1.ended.isSome := rfl

/-- **At most once**: a run requests an action of an interpretation at most once,
and not at all when the action is already marked. -/
theorem dispatches_le (i : InterpretationId) (a : ToolActionId) (inputs : List LoopInput)
    (o : LoopOwner) : (dispatchesOf i a (o.trace env inputs)).length ≤
      if o.dispatched (pairKey i a) then 0 else 1 := by
  induction inputs generalizing o with
  | nil => simp [dispatchesOf, LoopOwner.trace]
  | cons input rest ih =>
      cases hended : o.ended with
      | some report =>
          rw [(trace_ended env (input :: rest) (by simp [hended])).1]
          simp
      | none =>
          rw [dispatchesOf_cons, List.length_append]
          cases run_turn env input hended with
          | continues o' emitted hstep hended' honce hkept _ _ _ =>
              have hrest := ih o'
              rw [hstep]
              dsimp only
              rcases honce i a with hnone | ⟨hone, hfresh, hmarked⟩
              · rw [hnone]
                by_cases hk : o.dispatched (pairKey i a) = true
                · rw [hkept _ hk] at hrest
                  simpa [hk] using hrest
                · have hle : (if o'.dispatched (pairKey i a) = true then 0 else 1) ≤ 1 := by
                    split <;> omega
                  simp only [List.length_nil, Nat.zero_add, if_neg hk]
                  exact Nat.le_trans hrest hle
              · rw [hmarked] at hrest
                rw [hone, hfresh]
                simp only [if_true, Nat.le_zero] at hrest
                simp [hrest]
          | finishes kind hstep =>
              have hnone := turnDispatches_finish env o i a input [] kind
              rw [hstep, (trace_ended env rest (finish_ended env o kind)).1]
              rw [List.nil_append] at hnone
              rw [hnone]
              simp [turnDispatches]
          | fails o' emitted kind hstep honce hkind =>
              rw [hstep, (trace_ended env rest (finish_ended env o' kind)).1, turnDispatches_finish]
              rcases honce i a with hnone | ⟨hone, hfresh⟩
              · simp [hnone]
              · simp [hone, hfresh]

/-- A run that ends drained or cancelled answered every request, and its report
counts what was emitted. -/
theorem answered_run {inputs : List LoopInput} {r : LoopEnd} (hlive : o.ended = none)
    (hend : (o.run env inputs).ended = some r) (hkind : r.kind = .drained ∨ r.kind = .cancelled) :
    (∀ i a, resultsIn i a (o.output env inputs) = dispatchesOf i a (o.trace env inputs)) ∧
      r.outboundResultsEmitted =
        o.outboundResults + (o.output env inputs).countP LoopOutputEvent.isResult ∧
      r.toolsUnavailable =
        o.toolsUnavailable + (o.output env inputs).countP LoopOutputEvent.isUnavailable := by
  induction inputs generalizing o with
  | nil =>
      rw [LoopOwner.run, hlive] at hend
      cases hend
  | cons input rest ih =>
      simp only [LoopOwner.run] at hend
      simp only [dispatchesOf_cons, output_cons, List.countP_append]
      cases run_turn env input hlive with
      | continues o' emitted hstep hended' _ _ hresults hcount hunavailable =>
          rw [hstep] at hend ⊢
          obtain ⟨hmatch, hresultCount, hunavailableCount⟩ := ih hended' hend
          dsimp only
          refine ⟨?_, ?_, ?_⟩
          · intro i a
            rw [resultsIn_append, hresults, hmatch]
          · rw [hresultCount, hcount]
            omega
          · rw [hunavailableCount, hunavailable]
            omega
      | finishes kind hstep =>
          obtain ⟨hdispatches, hresults, hresultCount, hunavailableCount⟩ := finish_emits env o kind
          obtain ⟨hnone, hsilent, hrun⟩ :=
            trace_ended env rest (finish_ended env o kind)
          rw [hstep] at hend ⊢
          rw [hrun] at hend
          have hr : r = o.report kind := (Option.some.inj hend).symm
          rw [hsilent]
          refine ⟨?_, ?_, ?_⟩
          · intro i a
            have hturn := turnDispatches_finish env o i a input [] kind
            rw [List.nil_append] at hturn
            rw [hnone, List.append_nil, List.append_nil, hresults, hturn]
            simp [turnDispatches]
          · rw [hresultCount, hr]
            rfl
          · rw [hunavailableCount, hr]
            rfl
      | fails o' emitted kind hstep _ hkind' =>
          have hrun := (trace_ended env rest (finish_ended env o' kind)).2.2
          rw [hstep, hrun] at hend
          have hr : r = o'.report kind := (Option.some.inj hend).symm
          subst hr
          rcases hkind with h | h
          · exact absurd h hkind'.1
          · exact absurd h hkind'.2

/-- Requests are emitted only while a delivered unit is handled. -/
theorem step_dispatches (env : LoopEnvironment) (o : LoopOwner) (input : LoopInput)
    (a : ToolActionId) (h : dispatchesIn a (o.step env input).2 ≠ []) :
    ∃ i, input.interpretation = some i := by
  cases hended : o.ended with
  | some report =>
      rw [step_ended env input (by simp [hended])] at h
      exact absurd rfl h
  | none =>
      cases input with
      | cancelled => exact absurd (by simp [LoopOwner.step, hended, finish_emits]) h
      | closed => exact absurd (by simp [LoopOwner.step, hended, finish_emits]) h
      | status status =>
          cases status <;> exact absurd (by simp [LoopOwner.step, hended, finish_emits]) h
      | delivered delivered =>
          obtain ⟨sequence, event⟩ := delivered
          cases event with
          | unit event => exact ⟨_, rfl⟩
          | ended kind =>
              exfalso
              apply h
              have hstep : o.step env (.delivered ⟨sequence, .ended kind⟩) =
                  close env (o.onDelivered env ⟨sequence, .ended kind⟩) := by
                simp [LoopOwner.step, hended]
              rw [hstep]
              unfold LoopOwner.onDelivered
              split
              · exact (finish_emits env _ _).1 a
              · rfl

theorem request_attributed {inputs : List LoopInput} {generation : Nat}
    (h : .toolDispatchRequested a generation ∈ o.output env inputs) :
    ∃ i, generation ∈ dispatchesOf i a (o.trace env inputs) := by
  induction inputs generalizing o with
  | nil => cases h
  | cons input rest ih =>
      rw [output_cons, List.mem_append] at h
      rcases h with hnow | hlater
      · have hmem : generation ∈ dispatchesIn a (o.step env input).2 := by
          unfold dispatchesIn
          rw [List.mem_filterMap]
          exact ⟨_, hnow, by simp⟩
        obtain ⟨i, hi⟩ := step_dispatches env o input a (List.ne_nil_of_mem hmem)
        refine ⟨i, ?_⟩
        rw [dispatchesOf_cons, List.mem_append]
        left
        rw [turnDispatches, if_pos hi]
        exact hmem
      · obtain ⟨i, hi⟩ := ih hlater
        refine ⟨i, ?_⟩
        rw [dispatchesOf_cons, List.mem_append]
        exact .inr hi

/-- **Exactly one result per dispatched action.** In every run of a fresh Loop an
action of an interpretation is requested at most once, every request belongs to
some interpretation, and a Loop that ends drained or cancelled has sent for each
requested action exactly one result, of the requested generation, with a report
that counts the results and unavailabilities actually emitted. -/
theorem dispatched_exactly_once (env : LoopEnvironment) (inputs : List LoopInput)
    (run : MonoloopRunId) (loop : LoopId) (scope : LoopScope) (limits : LoopLimits) :
    let o := LoopOwner.new run loop scope limits
    (∀ i a, (dispatchesOf i a (o.trace env inputs)).length ≤ 1) ∧
    (∀ a generation, .toolDispatchRequested a generation ∈ o.output env inputs →
      ∃ i, generation ∈ dispatchesOf i a (o.trace env inputs)) ∧
    ∀ r, (o.run env inputs).ended = some r → r.kind = .drained ∨ r.kind = .cancelled →
      (∀ i a generation, generation ∈ dispatchesOf i a (o.trace env inputs) →
        resultsIn i a (o.output env inputs) = [generation]) ∧
      (∀ i a, resultsIn i a (o.output env inputs) = dispatchesOf i a (o.trace env inputs)) ∧
      r.outboundResultsEmitted = (o.output env inputs).countP LoopOutputEvent.isResult ∧
      r.toolsUnavailable = (o.output env inputs).countP LoopOutputEvent.isUnavailable := by
  intro o
  have honce : ∀ i a, (dispatchesOf i a (o.trace env inputs)).length ≤ 1 := by
    intro i a
    refine Nat.le_trans (dispatches_le i a inputs o) ?_
    split <;> omega
  refine ⟨honce, fun _ _ h => request_attributed h, ?_⟩
  intro r hend hkind
  obtain ⟨hmatch, hresults, hunavailable⟩ := answered_run (o := o) rfl hend hkind
  refine ⟨?_, hmatch, ?_, ?_⟩
  · intro i a generation hmem
    have hle := honce i a
    rw [hmatch]
    cases hlist : dispatchesOf i a (o.trace env inputs) with
    | nil =>
        rw [hlist] at hmem
        cases hmem
    | cons first rest =>
        rw [hlist] at hmem hle
        have hrest : rest = [] := List.length_eq_zero_iff.mp (by simpa using hle)
        subst hrest
        cases List.mem_singleton.mp hmem
        rfl
  · rw [hresults]
    exact Nat.zero_add _
  · rw [hunavailable]
    exact Nat.zero_add _

def sampleConnection : ConnectionId := ⟨"connection", by decide⟩

/-- A ready request of one action at a generation. -/
def sampleUnit (generation : Nat) : CanonicalUnitEvent :=
  .advanced {
    unitId := ⟨"unit"⟩
    unitGeneration := generation
    interpretationId := ⟨"interpretation"⟩
    connectionId := sampleConnection
    externalSessionId := none
    unit := .tool {
      toolActionId := ⟨"action"⟩
      toolName := some "lookup"
      requestState := .ready
      executionState := .notObserved
      resultState := .absent
      requestPayload := some "payload"
      resultPayload := none
      terminalOutcome := none
      waitingFor := none } }

def sampleRun : MonoloopRunId := ⟨"run", by decide⟩

def sampleLoop : LoopOwner :=
  .new sampleRun ⟨"loop"⟩ ⟨[], [], [], true⟩ ⟨8, 8⟩

/-- Every tool is found and succeeds. -/
def sampleEnvironment : LoopEnvironment where
  reply _ := ⟨3, some .available, .ok (.terminal ⟨.success, "found"⟩), "result", ⟨"execution"⟩⟩
  endAccepted := true

/-- The request is delivered at two generations before the subscription closes. -/
def sampleInputs : List LoopInput :=
  [.delivered ⟨1, .unit (sampleUnit 1)⟩, .delivered ⟨2, .unit (sampleUnit 2)⟩, .closed]

/-- The repeated request is answered once, at its first generation. -/
theorem sample_answered_once :
    dispatchesOf ⟨"interpretation"⟩ ⟨"action"⟩ (sampleLoop.trace sampleEnvironment sampleInputs) =
      [1] ∧
    resultsIn ⟨"interpretation"⟩ ⟨"action"⟩ (sampleLoop.output sampleEnvironment sampleInputs) =
      [1] := by
  have hdispatched : dispatchesOf ⟨"interpretation"⟩ ⟨"action"⟩
      (sampleLoop.trace sampleEnvironment sampleInputs) = [1] := by decide +kernel
  have hdrained : (sampleLoop.run sampleEnvironment sampleInputs).ended.map (·.kind) =
      some .drained := by decide +kernel
  obtain ⟨r, hend, hkind⟩ := Option.map_eq_some_iff.mp hdrained
  have hresults := ((dispatched_exactly_once sampleEnvironment sampleInputs sampleRun ⟨"loop"⟩
    ⟨[], [], [], true⟩ ⟨8, 8⟩).2.2 r hend (.inl hkind)).1
  have hone : 1 ∈ dispatchesOf ⟨"interpretation"⟩ ⟨"action"⟩
      (sampleLoop.trace sampleEnvironment sampleInputs) := by
    rw [hdispatched]
    exact List.mem_singleton.mpr rfl
  exact ⟨hdispatched, hresults _ _ 1 hone⟩

end Monoloop.ToolLoop
