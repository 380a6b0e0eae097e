import Monoloop.ToolLoop.Redelivery

/-!
# The action table

`max_tool_actions` bounds the records the Loop keeps. Only a ready request is
checked against it: a request that is still assembling, incomplete or malformed is
recorded whatever the table holds. So the bound is kept by exactly the runs in
which no such request of a new action meets a full table.
-/

namespace Monoloop.ToolLoop

open LoopOwner

variable {env : LoopEnvironment} {o : LoopOwner} {snap : CanonicalUnitSnapshot}

/-! ## What a unit writes -/

/-- What no turn changes. -/
def LoopOwner.config (o : LoopOwner) : MonoloopRunId × LoopId × LoopScope × LoopLimits :=
  (o.monoloopRunId, o.loopId, o.scope, o.limits)

/-- The unit passes deduplication. -/
structure Admitted (o : LoopOwner) (snap : CanonicalUnitSnapshot) (tool : ToolActionEvent) :
    Prop where
  unseen : o.dedup.lookup (digKey (actionKey snap tool) snap.unitGeneration) ≠
    some snap.unitGeneration
  space : o.dedup.keys.length < o.limits.maxDedupEntries

/-- What a unit does to the table: nothing, or one record of its own action. Only
a ready request asks for room. -/
inductive TableTurn (o : LoopOwner) (snap : CanonicalUnitSnapshot) (t : Turn) : Prop where
  | kept (hactions : t.owner.actions = o.actions)
      (hwhy : ∀ tool, ToolInScope o snap tool → Admitted o snap tool → tool.requestState = .ready)
  | written (tool : ToolActionEvent) (record : ActionRecord) (h : ToolInScope o snap tool)
      (hadmitted : Admitted o snap tool)
      (hactions : t.owner.actions = o.actions.insert (actionKey snap tool) record)
      (hroom : tool.requestState = .ready →
        o.actions.keys.length < o.limits.maxToolActions ∨
          (o.actions.lookup (actionKey snap tool)).isSome)

theorem diag_config (o : LoopOwner) (message : String) : (o.diag message).config = o.config := by
  unfold LoopOwner.diag
  split <;> rfl

theorem dispatch_table (reply : DispatchReply) (o : LoopOwner) (key : String)
    (snap : CanonicalUnitSnapshot) (tool : ToolActionEvent) (record : ActionRecord) :
    (dispatch reply o key snap tool record).owner.config = o.config ∧
      ∃ record', (dispatch reply o key snap tool record).owner.actions =
        o.actions.insert key record' := by
  -- both records written on the way are the action's own
  have htwice : ∀ r r' : ActionRecord,
      ((o.setAction key r).setAction key r').actions = o.actions.insert key r' :=
    fun r r' => AList.insert_insert _
  unfold dispatch
  dsimp only
  split
  · exact ⟨rfl, _, rfl⟩
  · split
    · exact ⟨rfl, _, rfl⟩
    · split
      · exact ⟨rfl, _, htwice _ _⟩
      · split <;> exact ⟨rfl, _, htwice _ _⟩
    · split
      · split
        · exact ⟨diag_config _ _, _, (diag_fields _ _).1⟩
        · exact ⟨diag_config _ _, _, (diag_fields _ _).1⟩
      · split <;> exact ⟨rfl, _, rfl⟩

/-- The limit check of a ready request that goes on. -/
theorem room_of_unrefused {key : String}
    (h : ¬ (decide (o.limits.maxToolActions ≤ o.actions.keys.length) &&
      (o.actions.lookup key).isNone) = true) :
    o.actions.keys.length < o.limits.maxToolActions ∨ (o.actions.lookup key).isSome := by
  by_cases hlt : o.actions.keys.length < o.limits.maxToolActions
  · exact .inl hlt
  · right
    by_contra hnone
    apply h
    simp only [Bool.and_eq_true, decide_eq_true_eq]
    exact ⟨by omega, by simpa using hnone⟩

/-- A ready request is checked against the limit before its record is written. -/
theorem onRequestReady_table (env : LoopEnvironment) (o : LoopOwner) (key : String)
    (snap : CanonicalUnitSnapshot) (tool : ToolActionEvent) :
    (o.onRequestReady env key snap tool).owner.config = o.config ∧
      ((o.onRequestReady env key snap tool).owner.actions = o.actions ∨
        (o.actions.keys.length < o.limits.maxToolActions ∨ (o.actions.lookup key).isSome) ∧
          ∃ record, (o.onRequestReady env key snap tool).owner.actions =
            o.actions.insert key record) := by
  unfold LoopOwner.onRequestReady
  generalize o.entry key snap tool .requestReady = record
  dsimp only
  split
  · exact ⟨rfl, .inl rfl⟩
  · rename_i hroom
    have hroom := room_of_unrefused hroom
    split
    · exact ⟨rfl, .inr ⟨hroom, _, rfl⟩⟩
    · split
      · exact ⟨rfl, .inr ⟨hroom, _, rfl⟩⟩
      · split
        · exact ⟨diag_config _ _, .inr ⟨hroom, _, (diag_fields _ _).1⟩⟩
        · split
          · exact ⟨diag_config _ _, .inr ⟨hroom, _, (diag_fields _ _).1⟩⟩
          · obtain ⟨hconfig, record', hactions⟩ := dispatch_table (env.reply o.dispatches)
              (o.setAction key { record with lastGeneration := snap.unitGeneration }) key snap tool
              { record with lastGeneration := snap.unitGeneration }
            exact ⟨hconfig, .inr ⟨hroom, record', hactions.trans (AList.insert_insert _)⟩⟩

theorem trackWaiting_table (o : LoopOwner) (key : String) (snap : CanonicalUnitSnapshot)
    (tool : ToolActionEvent) : (o.trackWaiting key snap tool).config = o.config ∧
      ∃ record, (o.trackWaiting key snap tool).actions = o.actions.insert key record := by
  unfold LoopOwner.trackWaiting
  dsimp only
  split
  · exact ⟨rfl, _, rfl⟩
  · split <;> exact ⟨rfl, _, rfl⟩

theorem markIncomplete_table (o : LoopOwner) (key : String) (snap : CanonicalUnitSnapshot)
    (tool : ToolActionEvent) : (o.markIncomplete key snap tool).config = o.config ∧
      ∃ record, (o.markIncomplete key snap tool).actions = o.actions.insert key record := by
  unfold LoopOwner.markIncomplete
  dsimp only
  split <;> exact ⟨rfl, _, rfl⟩

/-- **What a unit does to the table.** -/
theorem onUnit_table (env : LoopEnvironment) (o : LoopOwner) (event : CanonicalUnitEvent) :
    (o.onUnit env event).owner.config = o.config ∧
      TableTurn o event.snapshot (o.onUnit env event) := by
  unfold LoopOwner.onUnit
  dsimp only
  generalize event.snapshot = snap
  split
  · rename_i hscope
    refine ⟨rfl, .kept rfl (fun tool h => ?_)⟩
    simp [h.scope] at hscope
  · rename_i hscope
    split
    · rename_i tool hunit
      have hin : ToolInScope o snap tool := ⟨hunit, by simpa using hscope⟩
      split
      · rename_i hseen
        refine ⟨rfl, .kept rfl (fun tool' h' hadmitted => ?_)⟩
        cases toolInScope_unique hin h'
        exact absurd hseen hadmitted.unseen
      · rename_i hunseen
        split
        · rename_i hfull
          refine ⟨rfl, .kept rfl (fun tool' h' hadmitted => ?_)⟩
          have hspace := hadmitted.space
          omega
        · rename_i hspace
          have hadmitted : Admitted o snap tool := ⟨hunseen, by omega⟩
          split
          · rename_i hstate
            obtain ⟨hconfig, record, hactions⟩ :=
              trackWaiting_table (o.noted snap tool) (actionKey snap tool) snap tool
            refine ⟨hconfig, .written tool record hin hadmitted hactions ?_⟩
            intro hready
            rw [hstate] at hready
            cases hready
          · rename_i hready
            obtain ⟨hconfig, hkept | ⟨hroom, record, hactions⟩⟩ :=
              onRequestReady_table env (o.noted snap tool) (actionKey snap tool) snap tool
            · refine ⟨hconfig, .kept hkept (fun tool' h' _ => ?_)⟩
              cases toolInScope_unique hin h'
              exact hready
            · exact ⟨hconfig, .written tool record hin hadmitted hactions (fun _ => hroom)⟩
          all_goals
            rename_i hstate
            obtain ⟨hconfig, record, hactions⟩ :=
              markIncomplete_table (o.noted snap tool) (actionKey snap tool) snap tool
            refine ⟨hconfig, .written tool record hin hadmitted hactions ?_⟩
            intro hready
            rw [hstate] at hready
            cases hready
    · rename_i hother
      refine ⟨rfl, .kept rfl (fun tool h => ?_)⟩
      exact absurd h.unit (hother tool)

/-! ## What a turn writes -/

/-- The input is a unit that reaches the handler: the Loop is live and the number
does not break the sequence. -/
structure Handled (o : LoopOwner) (input : LoopInput) (sequence : Nat)
    (event : CanonicalUnitEvent) : Prop where
  live : o.ended = none
  delivered : input = .delivered ⟨sequence, .unit event⟩
  inSequence : o.lastSeq = 0 ∨ sequence = o.lastSeq + 1

theorem close_tables (env : LoopEnvironment) (t : Turn) :
    (close env t).1.actions = t.owner.actions ∧ (close env t).1.dedup = t.owner.dedup ∧
      (close env t).1.config = t.owner.config := by
  unfold close
  split <;> exact ⟨rfl, rfl, rfl⟩

/-- A turn that handles no unit writes nothing. -/
theorem step_kept (env : LoopEnvironment) (input : LoopInput)
    (h : ∀ sequence event, ¬ Handled o input sequence event) :
    (o.step env input).1.actions = o.actions ∧ (o.step env input).1.dedup = o.dedup ∧
      (o.step env input).1.config = o.config := by
  cases hlive : o.ended with
  | some report =>
      rw [step_ended env input (by simp [hlive])]
      exact ⟨rfl, rfl, rfl⟩
  | none =>
      cases input with
      | cancelled => simp [LoopOwner.step, hlive, LoopOwner.finish, LoopOwner.config]
      | closed => simp [LoopOwner.step, hlive, LoopOwner.finish, LoopOwner.config]
      | status status =>
          cases status <;> simp [LoopOwner.step, hlive, LoopOwner.finish, LoopOwner.config]
      | delivered delivered =>
          obtain ⟨sequence, event⟩ := delivered
          by_cases hseq : o.lastSeq = 0 ∨ sequence = o.lastSeq + 1
          · cases event with
            | unit event => exact absurd ⟨hlive, rfl, hseq⟩ (h sequence event)
            | ended kind =>
                rw [step_delivered hlive hseq]
                exact close_tables env _
          · rw [step_break hlive hseq]
            exact ⟨(diag_fields _ _).1, (diag_fields _ _).2.1, diag_config _ _⟩

theorem step_handled {input : LoopInput} {sequence : Nat} {event : CanonicalUnitEvent}
    (env : LoopEnvironment) (h : Handled o input sequence event) :
    (o.step env input).1.actions =
        ((o.counted sequence).onUnit env event).owner.actions ∧
      (o.step env input).1.config = o.config := by
  rw [h.delivered, step_delivered h.live h.inSequence]
  obtain ⟨hactions, -, hconfig⟩ := close_tables env ((o.counted sequence).handle env (.unit event))
  exact ⟨hactions, hconfig.trans (onUnit_table env (o.counted sequence) event).1⟩

theorem step_config (env : LoopEnvironment) (o : LoopOwner) (input : LoopInput) :
    (o.step env input).1.config = o.config := by
  by_cases h : ∃ sequence event, Handled o input sequence event
  · obtain ⟨sequence, event, h⟩ := h
    exact (step_handled env h).2
  · simp only [not_exists] at h
    exact (step_kept env input h).2.2

theorem run_config (env : LoopEnvironment) (inputs : List LoopInput) (o : LoopOwner) :
    (o.run env inputs).config = o.config := by
  induction inputs generalizing o with
  | nil => rfl
  | cons input rest ih => exact (ih _).trans (step_config env o input)

theorem run_limits (env : LoopEnvironment) (inputs : List LoopInput) (o : LoopOwner) :
    (o.run env inputs).limits = o.limits :=
  congrArg (·.2.2.2) (run_config env inputs o)

/-! ## The bound -/

/-- A request that is not ready, of an action without a record, meets a full
table. -/
def Overfills (o : LoopOwner) (input : LoopInput) : Prop :=
  ∃ sequence event tool, Handled o input sequence event ∧ ToolInScope o event.snapshot tool ∧
    Admitted o event.snapshot tool ∧ tool.requestState ≠ .ready ∧
    o.actions.lookup (actionKey event.snapshot tool) = none ∧
    o.limits.maxToolActions ≤ o.actions.keys.length

theorem step_overfills (env : LoopEnvironment) (input : LoopInput)
    (hbound : o.actions.keys.length ≤ o.limits.maxToolActions) :
    (o.step env input).1.actions.keys.length ≤ o.limits.maxToolActions ↔ ¬ Overfills o input := by
  by_cases h : ∃ sequence event, Handled o input sequence event
  · obtain ⟨sequence, event, h⟩ := h
    rw [(step_handled env h).1]
    have hunique : ∀ sequence' event', Handled o input sequence' event' → event' = event := by
      intro sequence' event' h'
      cases h'.delivered.symm.trans h.delivered
      rfl
    cases (onUnit_table env (o.counted sequence) event).2 with
    | kept hactions hwhy =>
        rw [hactions]
        refine iff_of_true hbound ?_
        rintro ⟨sequence', event', tool, h', hin, hadmitted, hstate, -⟩
        cases hunique _ _ h'
        exact hstate (hwhy tool ⟨hin.unit, hin.scope⟩ ⟨hadmitted.unseen, hadmitted.space⟩)
    | written tool record hin hadmitted hactions hroom =>
        have hlength := HashMap.length_keys_insert o.actions (actionKey event.snapshot tool) record
        rw [hactions]
        rw [show (o.counted sequence).actions = o.actions from rfl] at hroom ⊢
        rw [hlength]
        constructor
        · rintro hle ⟨sequence', event', tool', h', hin', -, -, hnone, hfull⟩
          cases hunique _ _ h'
          cases CanonicalUnit.tool.inj (hin.unit.symm.trans hin'.unit)
          rw [hnone] at hle
          simp only [Option.isSome_none, Bool.false_eq_true, if_false] at hle
          omega
        · intro hnot
          cases hlookup : o.actions.lookup (actionKey event.snapshot tool) with
          | some known =>
              simp only [Option.isSome_some, if_true]
              omega
          | none =>
              simp only [Option.isSome_none, Bool.false_eq_true, if_false]
              -- a new action: ready requests were checked, the others are the defect
              by_cases hready : tool.requestState = .ready
              · rcases hroom hready with hlt | hsome
                · exact hlt
                · rw [hlookup] at hsome
                  cases hsome
              · by_contra hfull
                refine hnot ⟨sequence, event, tool, h, ⟨hin.unit, hin.scope⟩,
                  ⟨hadmitted.unseen, hadmitted.space⟩, hready, hlookup, ?_⟩
                omega
  · simp only [not_exists] at h
    rw [(step_kept env input h).1]
    refine iff_of_true hbound ?_
    rintro ⟨sequence, event, tool, h', -⟩
    exact h sequence event h'

theorem run_snoc (env : LoopEnvironment) (inputs : List LoopInput) (input : LoopInput)
    (o : LoopOwner) : o.run env (inputs ++ [input]) = ((o.run env inputs).step env input).1 :=
  run_append env inputs [input] o

/-- **The action table stays within its limit through a run exactly when no request
that is not ready brings a new action to a full table.** -/
theorem table_bounded_iff (env : LoopEnvironment) (run : MonoloopRunId) (loop : LoopId)
    (scope : LoopScope) (limits : LoopLimits) (inputs : List LoopInput) :
    (∀ before, before <+: inputs →
      (((LoopOwner.new run loop scope limits).run env before).actions.keys.length ≤
        limits.maxToolActions)) ↔
    ∀ before input, before ++ [input] <+: inputs →
      ¬ Overfills ((LoopOwner.new run loop scope limits).run env before) input := by
  set o := LoopOwner.new run loop scope limits with ho
  have hlimits : ∀ before, (o.run env before).limits = limits :=
    fun before => run_limits env before o
  constructor
  · intro hbound before input hlead
    have hbefore := hbound before ((List.prefix_append before [input]).trans hlead)
    have hafter := hbound _ hlead
    rw [run_snoc] at hafter
    rw [← hlimits before] at hbefore hafter
    exact (step_overfills env input hbefore).mp hafter
  · intro hnever before hlead
    induction before using List.reverseRecOn with
    | nil =>
        show (∅ : HashMap String ActionRecord).keys.length ≤ limits.maxToolActions
        exact Nat.zero_le _
    | append_singleton before input ih =>
        have hbefore := ih ((List.prefix_append before [input]).trans hlead)
        rw [← hlimits before] at hbefore
        rw [run_snoc, ← hlimits before]
        exact (step_overfills env input hbefore).mpr (hnever before input hlead)

/-- A request still assembling, of the action named. -/
def assemblingUnit (action : String) : CanonicalUnitEvent :=
  .advanced {
    unitId := ⟨"unit"⟩
    unitGeneration := 1
    interpretationId := ⟨"interpretation"⟩
    connectionId := sampleConnection
    externalSessionId := none
    unit := .tool {
      toolActionId := ⟨action⟩
      toolName := none
      requestState := .assembling
      executionState := .notObserved
      resultState := .absent
      requestPayload := none
      resultPayload := none
      terminalOutcome := none
      waitingFor := none } }

/-- With a limit of one action, two actions are recorded. -/
theorem assembling_overfills :
    ¬ ∀ (env : LoopEnvironment) (run : MonoloopRunId) (loop : LoopId) (scope : LoopScope)
      (limits : LoopLimits) (inputs : List LoopInput),
      ((LoopOwner.new run loop scope limits).run env inputs).actions.keys.length ≤
        limits.maxToolActions := by
  intro h
  have hone := h sampleEnvironment sampleRun ⟨"loop"⟩ ⟨[], [], [], true⟩ ⟨1, 8⟩
    [.delivered ⟨1, .unit (assemblingUnit "first")⟩, .delivered ⟨2, .unit (assemblingUnit "second")⟩]
  revert hone
  decide +kernel

end Monoloop.ToolLoop
