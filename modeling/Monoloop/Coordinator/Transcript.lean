import Monoloop.Coordinator.LoopDispatch

/-!
# The transcript of a tool round

`append_tool_round` writes a round of tool calls into the transcript: an assistant
message with one call for every ready unit, then one tool message for every
result. The calls come from the units and the results from the Loop, which
answers an action once; the two agree exactly when every ready unit is the one
the Loop answers.
-/

namespace Monoloop.Coordinator

open ToolLoop

variable {Json : Type}

/-! ## Writing a round -/

/-- The id a ready unit's call gets: that of its result, else the provider part of
the action, else the action. -/
def callIdOf (results : List (CanonicalToolResult Json)) (action : ToolActionId) : String :=
  match results.find? fun r => r.toolActionId = action with
  | some r => r.providerToolCallId
  | none =>
      ((results.head?.map (·.exchangeId)).bind fun exchange =>
        providerToolCallIdFromAction exchange action).getD action.value

/-- The contents and calls of the assistant message. -/
def roundCalls (serde : SerdeJson Json) (results : List (CanonicalToolResult Json)) :
    List CanonicalUnitEvent → Option (List TextPart × List (CanonicalAssistantToolCall Json))
  | [] => some ([], [])
  | unit :: rest =>
      match unit.snapshot.unit with
      | .text content =>
          match TextPart.tryNew content InputLimits.default.maxTextPartBytes with
          | .error _ => none
          | .ok part => (roundCalls serde results rest).map fun r => (part :: r.1, r.2)
      | .tool tool =>
          if tool.requestState ≠ .ready then roundCalls serde results rest
          else
            match tool.toolName, tool.requestPayload with
            | some name, some payload =>
                match serde.parse payload, ToolName.tryNew name with
                | some arguments, .ok toolName =>
                    (roundCalls serde results rest).map fun r =>
                      (r.1, ⟨callIdOf results tool.toolActionId, toolName, arguments⟩ :: r.2)
                | _, _ => none
            | _, _ => none
      | _ => roundCalls serde results rest

/-- The text of a result. -/
def resultText (serde : SerdeJson Json) : CanonicalToolResultOutcome Json → Option String
  | .succeeded (.json value) => serde.render value
  | .succeeded (.text text) => some text
  | .domainFailed error => serde.renderError error

def resultMessage (serde : SerdeJson Json) (result : CanonicalToolResult Json) :
    Option (CanonicalMessage Json) := do
  let text ← resultText serde result.outcome
  match TextPart.tryNew text InputLimits.default.maxTextPartBytes with
  | .error _ => none
  | .ok part => some (.tool result.providerToolCallId [part])

/-- The messages after a round, if it can be written. -/
def appendToolRound (serde : SerdeJson Json) (messages : List (CanonicalMessage Json))
    (units : List CanonicalUnitEvent) (results : List (CanonicalToolResult Json)) :
    Option (List (CanonicalMessage Json)) := do
  let (content, calls) ← roundCalls serde results units
  if calls.isEmpty then none
  else
    let tools ← results.mapM (resultMessage serde)
    some (messages ++ .assistant content calls :: tools)

/-! ## What a round should be -/

/-- **A well-formed round**: one assistant message and one tool message per result
follow the prior messages, the calls have distinct ids, the tool messages answer
exactly these calls, and the whole is a transcript. -/
def WellFormedRound (prior messages : List (CanonicalMessage Json))
    (results : List (CanonicalToolResult Json)) : Prop :=
  ∃ content calls, ∃ tools : List (String × List TextPart),
    messages = prior ++ .assistant content calls :: tools.map (fun t => .tool t.1 t.2) ∧
    tools.map (·.1) = results.map (·.providerToolCallId) ∧
    (calls.map (·.toolCallId)).Nodup ∧
    (calls.map (·.toolCallId)).Perm (tools.map (·.1)) ∧
    Correlated [] messages

/-- The tool units of an exchange as the Loop gets them: scoped by the coordinator
and again by the pass. -/
def roundTools (exchange : ExchangeId) (units : List CanonicalUnitEvent) : List ToolUnit :=
  (scopeToolUnitsForExchange (scopeToolUnitsForExchange units exchange) exchange).filterMap toolUnit

/-- The provider's call ids of the ready units. -/
def roundCallIds (exchange : ExchangeId) (units : List CanonicalUnitEvent) : List String :=
  ((roundTools exchange units).filter fun v => v.tool.requestState = .ready).map fun v =>
    providerIdForResult exchange v.tool.toolActionId

/-- What the units and the prior messages must satisfy. -/
structure RoundCondition (exchange : ExchangeId) (units : List CanonicalUnitEvent)
    (prior : List (CanonicalMessage Json)) : Prop where
  /-- No ready unit repeats a ready action, and none is older than what was seen of
  its action. -/
  current : (roundTools exchange units).Pairwise Supersedes
  distinct : (roundCallIds exchange units).Nodup
  accepted : Correlated [] prior
  fresh : ∀ id ∈ roundCallIds exchange units, id ∉ announcedIds prior

/-! ## Provider ids -/

variable {exchange : ExchangeId}

theorem stripLeading_append (lead s : String) : stripLeading lead (lead ++ s) = some s := by
  unfold stripLeading
  rw [String.toList_append, if_pos (by simp), List.drop_left, String.ofList_toList]

theorem providerToolCallId_scoped (providerId : String) (h : providerId ≠ "") :
    providerToolCallIdFromAction exchange (toolActionIdForExchange exchange providerId) =
      some providerId := by
  unfold providerToolCallIdFromAction toolActionIdForExchange
  rw [stripLeading_append]
  simp [Option.filter, h]

theorem toolActionIdForExchange_ne_empty (providerId : String) :
    (toolActionIdForExchange exchange providerId).value ≠ "" := by
  intro h
  have hlist := congrArg String.toList h
  simp [toolActionIdForExchange, exchangeTag] at hlist

/-- Scoping an action keeps the provider id of its result. -/
theorem providerIdForResult_scope {tool : ToolActionEvent} (h : tool.toolActionId.value ≠ "") :
    providerIdForResult exchange (scopeToolAction exchange tool).toolActionId =
      providerIdForResult exchange tool.toolActionId := by
  unfold scopeToolAction
  split
  · rename_i hnone
    unfold providerIdForResult
    rw [providerToolCallId_scoped _ h, Option.isNone_iff_eq_none.mp hnone]
    rfl
  · rfl

theorem scopeToolAction_ne_empty (tool : ToolActionEvent) :
    (scopeToolAction exchange tool).toolActionId.value ≠ "" := by
  unfold scopeToolAction
  split
  · exact toolActionIdForExchange_ne_empty _
  · rename_i hsome
    intro hempty
    apply hsome
    unfold providerToolCallIdFromAction stripLeading
    rw [hempty]
    simp [exchangeTag]

@[simp] theorem scopeToolAction_requestState (tool : ToolActionEvent) :
    (scopeToolAction exchange tool).requestState = tool.requestState := by
  unfold scopeToolAction
  split <;> rfl

theorem scopeToolAction_dispatchable (tool : ToolActionEvent) :
    (scopeToolAction exchange tool).Dispatchable ↔ tool.Dispatchable := by
  unfold scopeToolAction
  split <;> rfl

/-! ## The calls of a round -/

/-- A ready request. -/
def readyTool (unit : CanonicalUnitEvent) : Option ToolActionEvent :=
  match unit.snapshot.unit with
  | .tool tool => if tool.requestState = .ready then some tool else none
  | _ => none

def readyTools (units : List CanonicalUnitEvent) : List ToolActionEvent :=
  units.filterMap readyTool

theorem readyTools_cons_tool {unit : CanonicalUnitEvent} {tool : ToolActionEvent}
    (h : unit.snapshot.unit = .tool tool) (rest : List CanonicalUnitEvent) :
    readyTools (unit :: rest) =
      if tool.requestState = .ready then tool :: readyTools rest else readyTools rest := by
  have hunit : readyTool unit = if tool.requestState = .ready then some tool else none := by
    unfold readyTool
    rw [h]
  by_cases hready : tool.requestState = .ready
  · rw [if_pos hready] at hunit ⊢
    exact List.filterMap_cons_some hunit
  · rw [if_neg hready] at hunit ⊢
    exact List.filterMap_cons_none hunit

theorem readyTools_cons_other {unit : CanonicalUnitEvent}
    (h : ∀ tool, unit.snapshot.unit ≠ .tool tool) (rest : List CanonicalUnitEvent) :
    readyTools (unit :: rest) = readyTools rest := by
  refine List.filterMap_cons_none ?_
  unfold readyTool
  split
  · rename_i tool hunit
    exact absurd hunit (h tool)
  · rfl

variable {serde : SerdeJson Json} {results : List (CanonicalToolResult Json)}

/-- One call for every ready request, all of them complete. -/
theorem roundCalls_spec {units : List CanonicalUnitEvent} {content : List TextPart}
    {calls : List (CanonicalAssistantToolCall Json)}
    (h : roundCalls serde results units = some (content, calls)) :
    calls.map (·.toolCallId) =
        (readyTools units).map (fun tool => callIdOf results tool.toolActionId) ∧
      ∀ tool ∈ readyTools units, tool.Dispatchable := by
  induction units generalizing content calls with
  | nil =>
      cases h
      exact ⟨rfl, by simp [readyTools]⟩
  | cons unit rest ih =>
      rw [roundCalls] at h
      split at h
      · rename_i text hunit
        rw [readyTools_cons_other (by simp [hunit])]
        split at h
        · cases h
        · obtain ⟨⟨content', calls'⟩, hrest, heq⟩ := Option.map_eq_some_iff.mp h
          cases heq
          exact ih hrest
      · rename_i tool hunit
        rw [readyTools_cons_tool hunit]
        split at h
        · rename_i hready
          rw [if_neg hready]
          exact ih h
        · rename_i hready
          have hready := not_not.mp hready
          rw [if_pos hready]
          split at h
          · rename_i name payload hname hpayload
            split at h
            · obtain ⟨⟨content', calls'⟩, hrest, heq⟩ := Option.map_eq_some_iff.mp h
              cases heq
              obtain ⟨hids, hfull⟩ := ih hrest
              refine ⟨by rw [List.map_cons, List.map_cons, hids], ?_⟩
              intro tool' hmem
              rcases List.mem_cons.mp hmem with rfl | hmem
              · exact ⟨hready, by simp [hname], by simp [hpayload]⟩
              · exact hfull tool' hmem
            · cases h
          · cases h
      · rename_i htext htool
        rw [readyTools_cons_other htool]
        exact ih h

theorem scopeOneToolUnit_snapshot (exchange : ExchangeId) (unit : CanonicalUnitEvent) :
    (scopeOneToolUnit exchange unit).snapshot = scopeSnapshot exchange unit.snapshot := by
  cases unit <;> rfl

/-- The ready tool units the Loop sees are those of the round, scoped once more. -/
theorem ready_toolUnits (exchange : ExchangeId) (units : List CanonicalUnitEvent) :
    (((scopeToolUnitsForExchange units exchange).filterMap toolUnit).filter
        fun v => v.tool.requestState = .ready).map (·.tool) =
      (readyTools units).map (scopeToolAction exchange) := by
  induction units with
  | nil => rfl
  | cons unit rest ih =>
      rw [show scopeToolUnitsForExchange (unit :: rest) exchange =
        scopeOneToolUnit exchange unit :: scopeToolUnitsForExchange rest exchange from rfl]
      by_cases htool : ∃ tool, unit.snapshot.unit = .tool tool
      · obtain ⟨tool, hunit⟩ := htool
        have hscoped : (scopeOneToolUnit exchange unit).snapshot.unit =
            .tool (scopeToolAction exchange tool) := by
          rw [scopeOneToolUnit_snapshot, scopeSnapshot, hunit]
        have hsome : ∃ v, toolUnit (scopeOneToolUnit exchange unit) = some v ∧
            v.tool = scopeToolAction exchange tool := by
          unfold toolUnit
          rw [hscoped]
          -- opaque here, or `rfl` would run the scoping of the id
          generalize scopeToolAction exchange tool = action
          exact ⟨_, rfl, rfl⟩
        obtain ⟨v, hv, hvtool⟩ := hsome
        rw [List.filterMap_cons_some hv, readyTools_cons_tool hunit]
        by_cases hready : tool.requestState = .ready
        · rw [if_pos hready, List.filter_cons_of_pos (by simp [hvtool, hready]), List.map_cons,
            List.map_cons, hvtool, ih]
        · rw [if_neg hready, List.filter_cons_of_neg (by simp [hvtool, hready]), ih]
      · have hother : ∀ tool, unit.snapshot.unit ≠ .tool tool := fun tool h => htool ⟨tool, h⟩
        have hnone : toolUnit (scopeOneToolUnit exchange unit) = none := by
          unfold toolUnit
          rw [scopeOneToolUnit_snapshot, scopeSnapshot]
          split
          · rename_i tool hunit
            split at hunit
            · rename_i tool' hunit'
              exact absurd hunit' (hother tool')
            · exact absurd hunit (hother tool)
          · rfl
        rw [List.filterMap_cons_none hnone, readyTools_cons_other hother, ih]

/-! ## The results of a pass -/

/-- The result belongs to the exchange and answers the provider's own call. -/
def Own (exchange : ExchangeId) (result : CanonicalToolResult Json) : Prop :=
  result.exchangeId = exchange ∧
    result.providerToolCallId = providerIdForResult exchange result.toolActionId

/-- Every outbound result of a pass becomes one canonical result, in order. -/
theorem collectResults_answers (hserde : FaithfulSerde serde) {x : ToolExchange}
    {emitted : List LoopOutputEvent} (hlast : EndsLast emitted)
    (hhost : ∀ r ∈ resultsOf emitted, r.outcome = .success ∨ r.outcome = .executionFailed →
      HostPayload serde x.exchangeId r.toolActionId r.payload)
    (collected : List (CanonicalToolResult Json)) :
    ∃ new, collectResults serde x emitted collected = collected ++ new ∧
      new.map (·.toolActionId) = (resultsOf emitted).map (·.toolActionId) ∧
      ∀ result ∈ new, Own x.exchangeId result := by
  obtain ⟨body, last, rfl, hbody, hend⟩ := hlast
  induction body generalizing collected with
  | nil =>
      refine ⟨[], ?_, ?_, by simp⟩
      · rcases hend with rfl | ⟨r, rfl⟩ <;> simp [collectResults]
      · rcases hend with rfl | ⟨r, rfl⟩ <;> rfl
  | cons event rest ih =>
      have hrest : ∀ e ∈ rest, LoopOutputEvent.isEnd e = false :=
        fun e he => hbody e (List.mem_cons_of_mem _ he)
      cases event with
      | outboundToolResult r =>
          let result := toolResult serde x (collected.length % 2 ^ 32) r
          obtain ⟨new, hnew, hactions, hown⟩ :=
            ih (collected ++ [result]) (fun r' h => hhost r' (List.mem_cons_of_mem r h)) hrest
          have hanswers : AnswersCall x r result :=
            toolResult_answers hserde _ (hhost r (List.mem_cons_self ..))
          refine ⟨result :: new, ?_, ?_, ?_⟩
          · rw [List.cons_append, collectResults, hnew, List.append_assoc]
            rfl
          · rw [List.map_cons, hactions, hanswers.action]
            rfl
          · intro result' hmem
            rcases List.mem_cons.mp hmem with rfl | hmem
            · exact ⟨hanswers.exchange, by rw [hanswers.provider, hanswers.action]⟩
            · exact hown result' hmem
      | toolDispatchRequested action generation => exact ih collected hhost hrest
      | toolUnavailable action reason => exact ih collected hhost hrest
      | diagnostic message => exact ih collected hhost hrest
      | loopEnded report =>
          have hopen := hbody _ (List.mem_cons_self ..)
          cases hopen

/-- What the results of a pass are to the coordinator. -/
structure PassResults (exchange : ExchangeId) (tools : List ToolUnit)
    (results : List (CanonicalToolResult Json)) : Prop where
  providers : results.map (·.providerToolCallId) = (answeredUnits [] [] tools).map fun v =>
    providerIdForResult exchange v.tool.toolActionId
  own : ∀ r ∈ results, Own exchange r

/-- **The results of a pass** are those of the units the Loop answers. -/
theorem runSupervisedLoop_results (hserde : FaithfulSerde serde) {pass : LoopPass}
    {x : ToolExchange} {units : List CanonicalUnitEvent}
    (hhost : HostAnswered serde pass x units)
    (hrun : runSupervisedLoop serde pass x units = .ok results) :
    PassResults x.exchangeId
      ((scopeToolUnitsForExchange units x.exchangeId).filterMap toolUnit) results := by
  unfold runSupervisedLoop at hrun
  split at hrun
  · cases hrun
  · dsimp only at hrun
    split at hrun
    · rename_i hkind
      obtain ⟨r, hend, hdrained⟩ := Option.map_eq_some_iff.mp hkind
      have hanswers := drained_answers (History.new _ _ _ _ rfl) (new_known _ _ _ _) rfl
        (.inl rfl) hend hdrained
      obtain ⟨new, hnew, hactions, hown⟩ := collectResults_answers hserde
        (output_endsLast pass.loop (passInputs x units) (preparedLoop x.transactionId)) hhost []
      have hresults : new = results := by
        rw [← Except.ok.inj hrun, hnew]
        rfl
      subst hresults
      refine ⟨?_, hown⟩
      calc new.map (·.providerToolCallId)
          = new.map fun r => providerIdForResult x.exchangeId r.toolActionId :=
            List.map_congr_left fun r hr => (hown r hr).2
        _ = (new.map (·.toolActionId)).map (providerIdForResult x.exchangeId) := by
            rw [List.map_map, Function.comp_def]
        _ = _ := by
            rw [hactions]
            refine (congrArg (List.map (providerIdForResult x.exchangeId)) hanswers).trans ?_
            rw [List.map_map, Function.comp_def]
    · cases hrun
    · cases hrun

/-! ## What was written -/

/-- The call id of a ready unit is the provider id of its action. -/
theorem callIdOf_eq {exchange : ExchangeId} (hown : ∀ r ∈ results, Own exchange r)
    (hsome : results ≠ []) (action : ToolActionId) :
    callIdOf results action = providerIdForResult exchange action := by
  unfold callIdOf
  split
  · rename_i r hfind
    have haction : r.toolActionId = action := by simpa using List.find?_some hfind
    rw [(hown r (List.mem_of_find?_eq_some hfind)).2, haction]
  · cases results with
    | nil => exact absurd rfl hsome
    | cons r rest =>
        have hexchange := (hown r (List.mem_cons_self ..)).1
        rw [List.head?_cons, Option.map_some, Option.bind_some, hexchange]
        rfl

theorem mapM_resultMessage {messages : List (CanonicalMessage Json)}
    (h : results.mapM (resultMessage serde) = some messages) :
    ∃ tools : List (String × List TextPart), messages = tools.map (fun t => .tool t.1 t.2) ∧
      tools.map (·.1) = results.map (·.providerToolCallId) := by
  induction results generalizing messages with
  | nil =>
      cases h
      exact ⟨[], rfl, rfl⟩
  | cons r rest ih =>
      rw [List.mapM_cons] at h
      obtain ⟨msg, hmsg, h⟩ := Option.bind_eq_some_iff.mp h
      obtain ⟨more, hmore, h⟩ := Option.bind_eq_some_iff.mp h
      cases h
      obtain ⟨tools, rfl, hids⟩ := ih hmore
      obtain ⟨text, -, hmsg⟩ := Option.bind_eq_some_iff.mp hmsg
      split at hmsg
      · cases hmsg
      · rename_i part _
        cases hmsg
        exact ⟨(r.providerToolCallId, [part]) :: tools, rfl, by
          rw [List.map_cons, List.map_cons, hids]⟩

/-- What `append_tool_round` wrote. -/
theorem appendToolRound_spec {prior messages : List (CanonicalMessage Json)}
    {units : List CanonicalUnitEvent}
    (h : appendToolRound serde prior units results = some messages) :
    ∃ content calls, ∃ tools : List (String × List TextPart),
      messages = prior ++ .assistant content calls :: tools.map (fun t => .tool t.1 t.2) ∧
      tools.map (·.1) = results.map (·.providerToolCallId) ∧ calls ≠ [] ∧
      calls.map (·.toolCallId) =
        (readyTools units).map (fun tool => callIdOf results tool.toolActionId) ∧
      ∀ tool ∈ readyTools units, tool.Dispatchable := by
  obtain ⟨⟨content, calls⟩, hcalls, h⟩ := Option.bind_eq_some_iff.mp h
  dsimp only at h
  split at h
  · cases h
  · rename_i hempty
    obtain ⟨more, hmore, h⟩ := Option.bind_eq_some_iff.mp h
    cases h
    obtain ⟨tools, rfl, hids⟩ := mapM_resultMessage hmore
    obtain ⟨hcallIds, hfull⟩ := roundCalls_spec hcalls
    exact ⟨content, calls, tools, rfl, hids, by simpa using hempty, hcallIds, hfull⟩

theorem readyTool_scoped_ne_empty {unit : CanonicalUnitEvent} {tool : ToolActionEvent}
    (h : readyTool (scopeOneToolUnit exchange unit) = some tool) :
    tool.toolActionId.value ≠ "" := by
  unfold readyTool at h
  rw [scopeOneToolUnit_snapshot, scopeSnapshot] at h
  split at h
  · rename_i tool' hunit
    have hsame : tool' = tool := Option.some.inj (Option.ite_none_right_eq_some.mp h).2
    split at hunit
    · rename_i raw _
      have hscoped : scopeToolAction exchange raw = tool' := CanonicalUnit.tool.inj hunit
      rw [← hsame, ← hscoped]
      exact scopeToolAction_ne_empty raw
    · rename_i hother
      exact absurd hunit (hother tool')
  · cases h

/-- The calls of a round have the provider ids of the ready units. -/
theorem calls_eq_roundCallIds {units : List CanonicalUnitEvent} (hown : ∀ r ∈ results, Own exchange r)
    (hsome : results ≠ []) :
    (readyTools (scopeToolUnitsForExchange units exchange)).map
        (fun tool => callIdOf results tool.toolActionId) =
      roundCallIds exchange units := by
  have hid : ∀ tool ∈ readyTools (scopeToolUnitsForExchange units exchange),
      callIdOf results tool.toolActionId =
        providerIdForResult exchange (scopeToolAction exchange tool).toolActionId := by
    intro tool hmem
    obtain ⟨unit, hunit, htool⟩ := List.mem_filterMap.mp hmem
    obtain ⟨raw, -, rfl⟩ := List.mem_map.mp hunit
    rw [callIdOf_eq hown hsome, providerIdForResult_scope (readyTool_scoped_ne_empty htool)]
  have htools := congrArg
    (List.map fun tool : ToolActionEvent => providerIdForResult exchange tool.toolActionId)
    (ready_toolUnits exchange (scopeToolUnitsForExchange units exchange))
  rw [List.map_map, List.map_map, Function.comp_def, Function.comp_def] at htools
  rw [List.map_congr_left hid]
  exact htools.symm

/-- **When a tool round is well formed.** A round that was written is well formed
exactly when each ready unit is the first of its action and newer than what came
before it, the calls have distinct provider ids, and none of these ids occurs in
the prior transcript. -/
theorem tool_round_well_formed_iff (serde : SerdeJson Json) (hserde : FaithfulSerde serde)
    (pass : LoopPass) (x : ToolExchange) (units : List CanonicalUnitEvent)
    (prior messages : List (CanonicalMessage Json)) (results : List (CanonicalToolResult Json))
    (hhost : HostAnswered serde pass x (scopeToolUnitsForExchange units x.exchangeId))
    (hrun : runSupervisedLoop serde pass x (scopeToolUnitsForExchange units x.exchangeId) =
      .ok results)
    (happend : appendToolRound serde prior (scopeToolUnitsForExchange units x.exchangeId) results =
      some messages) :
    WellFormedRound prior messages results ↔ RoundCondition x.exchangeId units prior := by
  obtain ⟨hproviders, hown⟩ := runSupervisedLoop_results hserde hhost hrun
  obtain ⟨content, calls, tools, hmessages, htools, hcalls, hcallIds, hfull⟩ :=
    appendToolRound_spec happend
  have hready := ready_toolUnits x.exchangeId (scopeToolUnitsForExchange units x.exchangeId)
  rw [show (scopeToolUnitsForExchange (scopeToolUnitsForExchange units x.exchangeId)
    x.exchangeId).filterMap toolUnit = roundTools x.exchangeId units from rfl] at hproviders hready
  have hdispatchable : ∀ v ∈ roundTools x.exchangeId units, v.tool.requestState = .ready →
      v.tool.Dispatchable := by
    intro v hv hstate
    have hmem : v.tool ∈ (readyTools (scopeToolUnitsForExchange units x.exchangeId)).map
        (scopeToolAction x.exchangeId) := by
      rw [← hready]
      exact List.mem_map_of_mem (List.mem_filter.mpr ⟨hv, by simpa using hstate⟩)
    obtain ⟨tool, htool, heq⟩ := List.mem_map.mp hmem
    rw [← heq]
    exact (scopeToolAction_dispatchable tool).mpr (hfull tool htool)
  have hall : answeredUnits [] [] (roundTools x.exchangeId units) =
      (roundTools x.exchangeId units).filter (fun v => v.tool.requestState = .ready) ↔ _ :=
    answeredUnits_eq_iff List.filter_nil.symm hdispatchable
  have hids : results ≠ [] → calls.map (·.toolCallId) = roundCallIds x.exchangeId units :=
    fun hsome => hcallIds.trans (calls_eq_roundCallIds hown hsome)
  constructor
  · rintro ⟨content', calls', tools', hmessages', htools', hnodup, hperm, hcorrelated⟩
    have hsame := List.append_cancel_left (hmessages.symm.trans hmessages')
    obtain ⟨rfl, rfl⟩ := CanonicalMessage.assistant.inj (List.cons.inj hsame).1
    have hsome : results ≠ [] := by
      rintro rfl
      rw [htools'] at hperm
      exact hcalls (by simpa using hperm)
    rw [hids hsome] at hnodup hperm
    -- as many answers as calls: every ready unit was answered
    have hanswered : answeredUnits [] [] (roundTools x.exchangeId units) =
        (roundTools x.exchangeId units).filter fun v => v.tool.requestState = .ready := by
      refine (answeredUnits_sublist [] [] _).eq_of_length ?_
      have hlength := hperm.length_eq
      rw [htools', hproviders, List.length_map, roundCallIds, List.length_map] at hlength
      exact hlength.symm
    rw [hmessages, correlated_append, List.nil_append] at hcorrelated
    obtain ⟨haccepted, hfollows, -⟩ := hcorrelated
    refine ⟨(hall.mp hanswered).2, hnodup, haccepted, ?_⟩
    intro id hid
    rw [← hids hsome] at hid
    obtain ⟨call, hcall, rfl⟩ := List.mem_map.mp hid
    exact hfollows.2 call hcall
  · intro hcondition
    have hanswered := hall.mpr ⟨by simp, hcondition.current⟩
    rw [hanswered] at hproviders
    have hproviders : results.map (·.providerToolCallId) = roundCallIds x.exchangeId units :=
      hproviders
    have hsome : results ≠ [] := by
      rintro rfl
      have hnone : roundCallIds x.exchangeId units = [] := hproviders.symm
      unfold roundCallIds at hnone
      rw [List.map_eq_nil_iff.mp hnone, List.map_nil] at hready
      rw [List.map_eq_nil_iff.mp hready.symm, List.map_nil] at hcallIds
      exact hcalls (List.map_eq_nil_iff.mp hcallIds)
    have hids := hids hsome
    have hmatch : calls.map (·.toolCallId) = tools.map (·.1) := by
      rw [hids, htools, hproviders]
    refine ⟨content, calls, tools, hmessages, htools, ?_, ?_, ?_⟩
    · rw [hids]
      exact hcondition.distinct
    · rw [hmatch]
    · rw [hmessages, correlated_append, List.nil_append]
      refine ⟨hcondition.accepted, ⟨?_, ?_⟩, ?_⟩
      · rw [hids]
        exact hcondition.distinct
      · intro call hcall
        apply hcondition.fresh
        rw [← hids]
        exact List.mem_map_of_mem hcall
      · apply correlated_tools
        intro msg hmsg
        obtain ⟨tool, htool, rfl⟩ := List.mem_map.mp hmsg
        refine ⟨tool.1, tool.2, rfl, List.mem_append_right _ ?_⟩
        show tool.1 ∈ calls.map (·.toolCallId)
        rw [hmatch]
        exact List.mem_map_of_mem htool

/-! ## Rounds of unavailable tools -/

/-- A ready request without arguments. -/
def readyUnit (action : String) (generation : Nat) : CanonicalUnitEvent :=
  .advanced {
    unitId := ⟨"unit-" ++ action⟩
    unitGeneration := generation
    interpretationId := ⟨"interpretation"⟩
    connectionId := sampleConnection
    externalSessionId := none
    unit := .tool {
      toolActionId := ⟨action⟩
      toolName := some "lookup"
      requestState := .ready
      executionState := .notObserved
      resultState := .absent
      requestPayload := some "\x7b\x7d"
      resultPayload := none
      terminalOutcome := none
      waitingFor := none } }

/-- JSON texts for their own values, enough to read empty arguments and to write
an error without data. -/
def textSerde : SerdeJson String where
  parse s := if s = "\x7b\x7d" then some s else none
  render := some
  renderError e := some ("\x7b\"error\":\x7b\"code\":\"" ++ e.code ++
    "\",\"data\":null,\"message\":\"" ++ e.message ++ "\"\x7d\x7d")
  parseResult _ := none
  renderResult _ := none
  depth _ := 1

theorem textSerde_faithful : FaithfulSerde textSerde where
  callId result text decoded h := by cases h
  word c rest h := rfl
  encodeFailure := rfl

/-- A pass with no registered tool. -/
def emptyPass : LoopPass where
  loop := {
    reply := fun _ => ⟨3, some (.unavailable .noRegisteredTool), .ok .absent, "result", ⟨"execution"⟩⟩
    endAccepted := true }
  interrupted := none

def firstExchange : ToolExchange where
  transactionId := ⟨1⟩
  channelId := ⟨"channel", by decide⟩
  sessionId := none
  exchangeId := ⟨2⟩

def userQuestion : List (CanonicalMessage String) := [.user [⟨"question"⟩] none]

/-- The pass and the round written from its results. -/
def emptyRound (units : List CanonicalUnitEvent) :
    Option (List (CanonicalToolResult String) × List (CanonicalMessage String)) :=
  let units := scopeToolUnitsForExchange units firstExchange.exchangeId
  match runSupervisedLoop textSerde emptyPass firstExchange units with
  | .ok results => (appendToolRound textSerde userQuestion units results).map fun m => (results, m)
  | .error _ => none

theorem emptyRound_spec {units : List CanonicalUnitEvent} {results : List (CanonicalToolResult String)}
    {messages : List (CanonicalMessage String)} (h : emptyRound units = some (results, messages)) :
    runSupervisedLoop textSerde emptyPass firstExchange
        (scopeToolUnitsForExchange units firstExchange.exchangeId) = .ok results ∧
      appendToolRound textSerde userQuestion
        (scopeToolUnitsForExchange units firstExchange.exchangeId) results = some messages := by
  unfold emptyRound at h
  dsimp only at h
  split at h
  · rename_i results' hrun
    obtain ⟨m, hm, heq⟩ := Option.map_eq_some_iff.mp h
    cases heq
    exact ⟨hrun, hm⟩
  · cases h

def twoCalls : List CanonicalUnitEvent :=
  scopeToolUnitsForExchange [readyUnit "call_1" 1, readyUnit "call_2" 1] firstExchange.exchangeId

/-- Two calls, both unavailable: the round is written and well formed. -/
theorem two_calls_well_formed : ∃ results messages,
    runSupervisedLoop textSerde emptyPass firstExchange twoCalls = .ok results ∧
      appendToolRound textSerde userQuestion twoCalls results = some messages ∧
      WellFormedRound userQuestion messages results := by
  have hwritten : (emptyRound [readyUnit "call_1" 1, readyUnit "call_2" 1]).isSome = true := by
    decide +kernel
  obtain ⟨⟨results, messages⟩, hround⟩ := Option.isSome_iff_exists.mp hwritten
  obtain ⟨hrun, happend⟩ := emptyRound_spec hround
  refine ⟨results, messages, hrun, happend, ?_⟩
  refine (tool_round_well_formed_iff textSerde textSerde_faithful emptyPass firstExchange
    [readyUnit "call_1" 1, readyUnit "call_2" 1] userQuestion messages results ?_ hrun happend).mpr ?_
  · intro r hr houtcome
    have hunavailable : ∀ r ∈ resultsOf ((preparedLoop firstExchange.transactionId).output
        emptyPass.loop (passInputs firstExchange twoCalls)), r.outcome = .toolUnavailable := by decide +kernel
    rw [hunavailable r hr] at houtcome
    rcases houtcome with h | h <;> cases h
  · refine ⟨by decide +kernel, by decide +kernel, ⟨trivial, trivial⟩, ?_⟩
    intro id _ hmem
    cases hmem

def repeatedCall : List CanonicalUnitEvent :=
  scopeToolUnitsForExchange [readyUnit "call_1" 1, readyUnit "call_1" 2] firstExchange.exchangeId

/-- **One action, two ready snapshots.** The Loop answers the first, the assistant
message announces the call twice. -/
theorem repeated_ready_announced_twice : ∃ results messages,
    runSupervisedLoop textSerde emptyPass firstExchange repeatedCall = .ok results ∧
      appendToolRound textSerde userQuestion repeatedCall results = some messages ∧
      ¬ WellFormedRound userQuestion messages results := by
  have hwritten : (emptyRound [readyUnit "call_1" 1, readyUnit "call_1" 2]).map
      (fun r => announcedIds r.2) = some ["call_1", "call_1"] := by decide +kernel
  obtain ⟨⟨results, messages⟩, hround, hids⟩ := Option.map_eq_some_iff.mp hwritten
  obtain ⟨hrun, happend⟩ := emptyRound_spec hround
  refine ⟨results, messages, hrun, happend, ?_⟩
  rintro ⟨content, calls, tools, rfl, -, hnodup, -, -⟩
  have hannounced : ∀ tools : List (String × List TextPart),
      announcedIds (tools.map fun t => (.tool t.1 t.2 : CanonicalMessage String)) = [] := by
    intro tools
    induction tools with
    | nil => rfl
    | cons tool rest ih => exact ih
  have hcalls : calls.map (·.toolCallId) = ["call_1", "call_1"] := by
    have hsplit : announcedIds (userQuestion ++
        .assistant content calls :: tools.map fun t => .tool t.1 t.2) =
        calls.map (·.toolCallId) ++ announcedIds (tools.map fun t => .tool t.1 t.2) := rfl
    rw [hannounced, List.append_nil] at hsplit
    exact hsplit.symm.trans hids
  rw [hcalls] at hnodup
  exact absurd hnodup (by decide)

end Monoloop.Coordinator
