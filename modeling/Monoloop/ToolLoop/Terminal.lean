import Monoloop.ToolLoop.Table

/-!
# Actions with a terminal state

An action whose request was recorded incomplete or malformed, or that was shown
with a terminal execution, should not be dispatched any more. The Loop marks only
dispatched actions: `on_request_ready` reads neither the state of the record nor
the execution state of the unit. So a newer ready request of such an action, as
long as it was never dispatched, is dispatched like any other.
-/

namespace Monoloop.ToolLoop

open LoopOwner

variable {env : LoopEnvironment} {o : LoopOwner} {i : InterpretationId} {a : ToolActionId}

/-! ## When a request is emitted -/

theorem dispatch_requests (reply : DispatchReply) (o : LoopOwner) (key : String)
    (snap : CanonicalUnitSnapshot) (tool : ToolActionEvent) (record : ActionRecord)
    (a : ToolActionId) :
    dispatchesIn a (dispatch reply o key snap tool record).emitted ≠ [] ↔
      tool.toolActionId = a ∧ 1 ≤ reply.accepted := by
  by_cases haccepted : reply.accepted < 1
  · unfold dispatch
    dsimp only
    rw [if_pos haccepted]
    refine iff_of_false (fun h => h rfl) ?_
    omega
  · -- every other branch emits the request first
    have hfirst : ∃ rest, (dispatch reply o key snap tool record).emitted =
        .toolDispatchRequested tool.toolActionId snap.unitGeneration :: rest ∧
        dispatchesIn a rest = [] := by
      unfold dispatch
      dsimp only
      rw [if_neg haccepted]
      split
      · exact ⟨[], rfl, rfl⟩
      · split
        · exact ⟨[], rfl, rfl⟩
        · split <;> exact ⟨_, rfl, rfl⟩
      · split <;> split <;> exact ⟨_, rfl, rfl⟩
    obtain ⟨rest, hemitted, hrest⟩ := hfirst
    rw [hemitted, dispatchesIn_requested, hrest]
    by_cases ha : tool.toolActionId = a
    · simp only [ha, if_true]
      simp
      omega
    · simp [ha]

/-- What `on_request_ready` asks of a request before it dispatches it. -/
structure ReadyFor (env : LoopEnvironment) (o : LoopOwner) (key : String) (generation : Nat) :
    Prop where
  room : o.actions.keys.length < o.limits.maxToolActions ∨ (o.actions.lookup key).isSome
  notPassed : ¬ PassedOver o key generation
  accepted : 1 ≤ (env.reply o.dispatches).accepted

theorem onRequestReady_requests (env : LoopEnvironment) (o : LoopOwner) (key : String)
    (snap : CanonicalUnitSnapshot) (tool : ToolActionEvent) (a : ToolActionId)
    (hstate : tool.requestState = .ready) :
    dispatchesIn a (o.onRequestReady env key snap tool).emitted ≠ [] ↔
      tool.toolActionId = a ∧ tool.Dispatchable ∧ ReadyFor env o key snap.unitGeneration := by
  have hlast := entry_lastGeneration o key snap tool .requestReady
  have hdispatched := entry_dispatched o key snap tool .requestReady
  have hsilent : ∀ {P : Prop}, ¬ P → (dispatchesIn a [] ≠ [] ↔ P) :=
    fun hnot => iff_of_false (fun h => h rfl) hnot
  unfold LoopOwner.onRequestReady
  generalize o.entry key snap tool .requestReady = record at hlast hdispatched
  dsimp only
  split
  · rename_i hfull
    simp only [Bool.and_eq_true, decide_eq_true_eq] at hfull
    refine hsilent ?_
    rintro ⟨-, -, hready⟩
    rcases hready.room with hlt | hsome
    · omega
    · rw [Option.isNone_iff_eq_none.mp hfull.2] at hsome
      cases hsome
  · rename_i hroom
    split
    · rename_i hstale
      refine hsilent ?_
      rintro ⟨-, -, hready⟩
      exact hready.notPassed (.inr (by omega))
    · rename_i hcurrent
      split
      · rename_i hmarked
        refine hsilent ?_
        rintro ⟨-, -, hready⟩
        exact hready.notPassed (.inl (hdispatched.symm.trans hmarked))
      · rename_i hfresh
        split
        · rename_i hname
          refine hsilent ?_
          rintro ⟨-, hdispatchable, -⟩
          have := hdispatchable.2.1
          simp [Option.isNone_iff_eq_none.mp hname] at this
        · rename_i hname
          split
          · rename_i hpayload
            refine hsilent ?_
            rintro ⟨-, hdispatchable, -⟩
            have := hdispatchable.2.2
            simp [Option.isNone_iff_eq_none.mp hpayload] at this
          · rename_i hpayload
            rw [dispatch_requests]
            constructor
            · rintro ⟨ha, haccepted⟩
              refine ⟨ha, ⟨hstate, ?_, ?_⟩, ?_, ?_, haccepted⟩
              · simpa [Option.isSome_iff_ne_none] using hname
              · simpa [Option.isSome_iff_ne_none] using hpayload
              · exact room_of_unrefused hroom
              · rintro (hmarked | hstale)
                · exact hfresh (hdispatched.trans hmarked)
                · omega
            · rintro ⟨ha, -, hready⟩
              exact ⟨ha, hready.accepted⟩

/-- **When a unit is dispatched.** -/
theorem onUnit_requests (env : LoopEnvironment) (o : LoopOwner) (event : CanonicalUnitEvent)
    (a : ToolActionId) :
    dispatchesIn a (o.onUnit env event).emitted ≠ [] ↔
      ∃ tool, ToolInScope o event.snapshot tool ∧ tool.toolActionId = a ∧ tool.Dispatchable ∧
        Admitted o event.snapshot tool ∧
        ReadyFor env o (actionKey event.snapshot tool) event.snapshot.unitGeneration := by
  have hsilent : ∀ {P : Prop}, ¬ P → (dispatchesIn a [] ≠ [] ↔ P) :=
    fun hnot => iff_of_false (fun h => h rfl) hnot
  unfold LoopOwner.onUnit
  dsimp only
  generalize event.snapshot = snap
  split
  · rename_i hscope
    refine hsilent ?_
    rintro ⟨tool, hin, -⟩
    simp [hin.scope] at hscope
  · rename_i hscope
    split
    · rename_i tool hunit
      have hin : ToolInScope o snap tool := ⟨hunit, by simpa using hscope⟩
      split
      · rename_i hseen
        refine hsilent ?_
        rintro ⟨tool', hin', -, -, hadmitted, -⟩
        cases toolInScope_unique hin hin'
        exact hadmitted.unseen hseen
      · rename_i hunseen
        split
        · rename_i hfull
          refine hsilent ?_
          rintro ⟨tool', hin', -, -, hadmitted, -⟩
          have hspace := hadmitted.space
          omega
        · rename_i hspace
          have hother : tool.requestState ≠ .ready → ¬ ∃ tool', ToolInScope o snap tool' ∧
              tool'.toolActionId = a ∧ tool'.Dispatchable ∧ Admitted o snap tool' ∧
              ReadyFor env o (actionKey snap tool') snap.unitGeneration := by
            rintro hstate ⟨tool', hin', -, hdispatchable, -⟩
            cases toolInScope_unique hin hin'
            exact hstate hdispatchable.1
          split
          · rename_i hstate
            exact hsilent (hother (by rw [hstate]; decide))
          · rename_i hstate
            rw [onRequestReady_requests env _ _ snap tool a hstate]
            constructor
            · rintro ⟨ha, hdispatchable, hready⟩
              exact ⟨tool, hin, ha, hdispatchable, ⟨hunseen, by omega⟩, hready.room,
                hready.notPassed, hready.accepted⟩
            · rintro ⟨tool', hin', ha, hdispatchable, -, hready⟩
              cases toolInScope_unique hin hin'
              exact ⟨ha, hdispatchable, hready.room, hready.notPassed, hready.accepted⟩
          · rename_i hstate
            exact hsilent (hother (by rw [hstate]; decide))
          · rename_i hstate
            exact hsilent (hother (by rw [hstate]; decide))
    · rename_i hother
      refine hsilent ?_
      rintro ⟨tool, hin, -⟩
      exact hother tool hin.unit

/-! ## Records and notes -/

/-- In a Loop that goes on, the noted generations and the records of an action back
each other. -/
structure Backed (o : LoopOwner) : Prop where
  recorded : ∀ key generation, o.dedup.lookup (digKey key generation) = some generation →
    ∃ record, o.actions.lookup key = some record ∧ generation ≤ record.lastGeneration
  noted : ∀ key record, o.actions.lookup key = some record →
    o.dedup.lookup (digKey key record.lastGeneration) = some record.lastGeneration

theorem Backed.new (run : MonoloopRunId) (loop : LoopId) (scope : LoopScope)
    (limits : LoopLimits) : Backed (.new run loop scope limits) where
  recorded key generation h := by
    change (∅ : HashMap String Nat).lookup (digKey key generation) = some generation at h
    simp at h
  noted key record h := by
    change (∅ : HashMap String ActionRecord).lookup key = some record at h
    simp at h

theorem Backed.same {o' : LoopOwner} (h : Backed o) (hactions : o'.actions = o.actions)
    (hdedup : o'.dedup = o.dedup) : Backed o' := by
  constructor
  · rw [hactions, hdedup]
    exact h.recorded
  · rw [hactions, hdedup]
    exact h.noted

/-- A unit that is noted and raises the record of its action to its generation. -/
theorem Backed.raise {o' : LoopOwner} {snap : CanonicalUnitSnapshot} {tool : ToolActionEvent}
    {record : ActionRecord} (h : Backed o)
    (hactions : o'.actions = o.actions.insert (actionKey snap tool) record)
    (hdedup : o'.dedup = (o.noted snap tool).dedup)
    (hlast : record.lastGeneration =
      max (o.lastGeneration (actionKey snap tool)) snap.unitGeneration) : Backed o' := by
  have hnoted := noted_lookup o snap tool
  constructor
  · intro key generation
    rw [hactions, hdedup, hnoted, HashMap.lookup_insert_ite]
    by_cases hkey : key = actionKey snap tool
    · subst hkey
      intro hlookup
      refine ⟨record, by simp, ?_⟩
      split at hlookup
      · cases hlookup
        omega
      · obtain ⟨known, hknown, hle⟩ := h.recorded _ _ hlookup
        rw [LoopOwner.lastGeneration, hknown] at hlast
        simp only [Option.map_some, Option.getD_some] at hlast
        omega
    · rw [if_neg (fun hdig => hkey (digKey_inj hdig).1), if_neg hkey]
      exact h.recorded key generation
  · intro key known
    rw [hactions, hdedup, hnoted, HashMap.lookup_insert_ite]
    by_cases hkey : key = actionKey snap tool
    · subst hkey
      rw [if_pos rfl]
      rintro hlookup
      cases hlookup
      by_cases hle : o.lastGeneration (actionKey snap tool) ≤ snap.unitGeneration
      · rw [hlast, max_eq_right hle, if_pos rfl]
      · -- the record is older than the unit and keeps its own generation
        rw [hlast, max_eq_left (by omega)]
        rw [if_neg (fun hdig => hle (Nat.le_of_eq (digKey_inj hdig).2))]
        cases hknown : o.actions.lookup (actionKey snap tool) with
        | none =>
            rw [LoopOwner.lastGeneration, hknown] at hle
            exact absurd (Nat.zero_le _) hle
        | some known =>
            have hsame : o.lastGeneration (actionKey snap tool) = known.lastGeneration := by
              rw [LoopOwner.lastGeneration, hknown]
              rfl
            rw [hsame]
            exact h.noted _ _ hknown
    · rw [if_neg hkey]
      intro hlookup
      rw [if_neg (fun hdig => hkey (digKey_inj hdig).1)]
      exact h.noted key known hlookup

/-- A handler that succeeds keeps the backing, and a tool unit in scope has a record
afterwards. -/
theorem onUnit_backed (env : LoopEnvironment) (event : CanonicalUnitEvent) (h : Backed o)
    (hok : (o.onUnit env event).result = .ok ()) :
    Backed (o.onUnit env event).owner ∧ ∀ tool, ToolInScope o event.snapshot tool →
      ((o.onUnit env event).owner.actions.lookup (actionKey event.snapshot tool)).isSome := by
  have hturn := onUnit_turn env o event
  generalize o.onUnit env event = t at hturn hok
  generalize event.snapshot = snap at hturn
  cases hturn with
  | observed hnone => exact ⟨h, fun tool hin => absurd hin (hnone tool)⟩
  | duplicate tool hin hseen =>
      refine ⟨h.same rfl rfl, ?_⟩
      intro tool' hin'
      cases toolInScope_unique hin hin'
      obtain ⟨record, hrecord, -⟩ := h.recorded _ _ hseen
      simp [hrecord]
  | refused tool o' hin => cases hok
  | recorded tool o' hin hrecorded =>
      obtain ⟨record, hactions, -, hlast⟩ := hrecorded.actions
      refine ⟨h.raise hactions hrecorded.dedup hlast, ?_⟩
      intro tool' hin'
      cases toolInScope_unique hin hin'
      rw [hactions, HashMap.lookup_insert_ite, if_pos rfl]
      rfl
  | dispatched tool record hin hfresh hlast hrecord hready hunseen =>
      set base := (o.noted snap tool).setAction (actionKey snap tool) record with hbase
      have hleaves := dispatch_leaves (env.reply o.dispatches) base (actionKey snap tool) snap tool
        record
      obtain ⟨-, record', hactions⟩ := dispatch_table (env.reply o.dispatches) base
        (actionKey snap tool) snap tool record
      have hactions' : (dispatch (env.reply o.dispatches) base (actionKey snap tool) snap tool
          record).owner.actions = o.actions.insert (actionKey snap tool) record' :=
        hactions.trans (AList.insert_insert _)
      have hgeneration := hleaves.lastGeneration (actionKey snap tool)
      rw [if_pos rfl, LoopOwner.lastGeneration, hactions', HashMap.lookup_insert_ite, if_pos rfl]
        at hgeneration
      simp only [Option.map_some, Option.getD_some] at hgeneration
      refine ⟨h.raise hactions' hleaves.dedup ?_, ?_⟩
      · rw [hgeneration, hrecord, max_eq_right hlast]
      · intro tool' hin'
        cases toolInScope_unique hin hin'
        rw [hactions', HashMap.lookup_insert_ite, if_pos rfl]
        rfl

theorem live_of_step {input : LoopInput} (h : (o.step env input).1.ended = none) :
    o.ended = none := by
  cases hended : o.ended with
  | none => rfl
  | some report =>
      rw [step_ended env input (by simp [hended]), hended] at h
      cases h

/-- A delivery that does not end the Loop. -/
theorem step_live {n : Nat} {event : InterpreterOutputEvent} (hlive : o.ended = none)
    (hseq : o.lastSeq = 0 ∨ n = o.lastSeq + 1)
    (hnext : (o.step env (.delivered ⟨n, event⟩)).1.ended = none) :
    ((o.counted n).handle env event).result = .ok () ∧
      o.step env (.delivered ⟨n, event⟩) =
        (((o.counted n).handle env event).owner, ((o.counted n).handle env event).emitted) := by
  rw [step_delivered hlive hseq] at hnext ⊢
  generalize (o.counted n).handle env event = t at hnext
  unfold close at hnext ⊢
  split at hnext
  · rename_i hok
    rw [hok]
    exact ⟨rfl, rfl⟩
  · cases hnext

/-- A handled unit, when the Loop goes on. -/
theorem step_handled_live {input : LoopInput} {sequence : Nat} {event : CanonicalUnitEvent}
    (h : Handled o input sequence event) (hlive : (o.step env input).1.ended = none) :
    ((o.counted sequence).onUnit env event).result = .ok () ∧
      (o.step env input).1 = ((o.counted sequence).onUnit env event).owner := by
  rw [h.delivered] at hlive ⊢
  obtain ⟨hok, hstep⟩ := step_live h.live h.inSequence hlive
  exact ⟨hok, congrArg (·.1) hstep⟩

theorem step_backed (input : LoopInput) (h : Backed o)
    (hlive : (o.step env input).1.ended = none) : Backed (o.step env input).1 := by
  by_cases hhandled : ∃ sequence event, Handled o input sequence event
  · obtain ⟨sequence, event, hhandled⟩ := hhandled
    obtain ⟨hok, hstep⟩ := step_handled_live hhandled hlive
    rw [hstep]
    have hcounted : Backed (o.counted sequence) := h.same rfl rfl
    exact (onUnit_backed env event hcounted hok).1
  · simp only [not_exists] at hhandled
    obtain ⟨hactions, hdedup, -⟩ := step_kept env input hhandled
    exact h.same hactions hdedup

theorem run_backed (env : LoopEnvironment) (inputs : List LoopInput) (h : Backed o)
    (hlive : (o.run env inputs).ended = none) : Backed (o.run env inputs) := by
  induction inputs using List.reverseRecOn with
  | nil => exact h
  | append_singleton before input ih =>
      rw [run_snoc] at hlive ⊢
      exact step_backed input (ih (live_of_step hlive)) hlive

/-- A record is never removed. -/
theorem step_record (env : LoopEnvironment) (input : LoopInput) {key : String}
    (h : (o.actions.lookup key).isSome) :
    ((o.step env input).1.actions.lookup key).isSome := by
  by_cases hhandled : ∃ sequence event, Handled o input sequence event
  · obtain ⟨sequence, event, hhandled⟩ := hhandled
    rw [(step_handled env hhandled).1]
    cases (onUnit_table env (o.counted sequence) event).2 with
    | kept hactions =>
        rw [hactions]
        exact h
    | written tool record hin hadmitted hactions =>
        rw [hactions, HashMap.lookup_insert_ite]
        split
        · rfl
        · exact h
  · simp only [not_exists] at hhandled
    rw [(step_kept env input hhandled).1]
    exact h

theorem run_record (env : LoopEnvironment) (inputs : List LoopInput) {key : String}
    (h : (o.actions.lookup key).isSome) :
    ((o.run env inputs).actions.lookup key).isSome := by
  induction inputs generalizing o with
  | nil => exact h
  | cons input rest ih => exact ih (step_record env input h)

/-! ## Terminal actions -/

/-- The unit shows its action with a terminal execution. -/
def ShownTerminal (tool : ToolActionEvent) : Prop :=
  tool.terminalOutcome.isSome ∨ tool.executionState = .terminal

/-- The input makes the action terminal: it shows a terminal execution, or its
request is recorded incomplete or malformed. -/
def MarksTerminal (env : LoopEnvironment) (o : LoopOwner) (input : LoopInput)
    (i : InterpretationId) (a : ToolActionId) : Prop :=
  ∃ sequence event tool, Handled o input sequence event ∧ ToolInScope o event.snapshot tool ∧
    event.snapshot.interpretationId = i ∧ tool.toolActionId = a ∧
    (ShownTerminal tool ∨
      (tool.requestState = .incomplete ∨ tool.requestState = .malformed) ∧
        ((o.step env input).1.actions.lookup (pairKey i a)).map (·.state) = some .incomplete)

/-- The action became terminal in the course of `inputs`. -/
def TerminalKnown (env : LoopEnvironment) (o : LoopOwner) (inputs : List LoopInput)
    (i : InterpretationId) (a : ToolActionId) : Prop :=
  ∃ before input, before ++ [input] <+: inputs ∧ MarksTerminal env (o.run env before) input i a

/-- A ready request of the action, newer than what its record has seen, reaches a
Loop that has room to note it and has not dispatched the action. -/
def Reopens (env : LoopEnvironment) (o : LoopOwner) (input : LoopInput) (i : InterpretationId)
    (a : ToolActionId) : Prop :=
  ∃ sequence event tool, Handled o input sequence event ∧ ToolInScope o event.snapshot tool ∧
    event.snapshot.interpretationId = i ∧ tool.toolActionId = a ∧ tool.Dispatchable ∧
    o.dispatched (pairKey i a) = false ∧
    o.lastGeneration (pairKey i a) < event.snapshot.unitGeneration ∧
    o.dedup.keys.length < o.limits.maxDedupEntries ∧ 1 ≤ (env.reply o.dispatches).accepted

/-- An action that became terminal in a Loop that is still live has a record. -/
theorem TerminalKnown.record {inputs : List LoopInput} (h : TerminalKnown env o inputs i a)
    (hbacked : Backed o) (hlive : (o.run env inputs).ended = none) :
    ((o.run env inputs).actions.lookup (pairKey i a)).isSome := by
  obtain ⟨before, input, ⟨rest, hinputs⟩, sequence, event, tool, hhandled, hin, rfl, rfl, -⟩ := h
  rw [← hinputs, run_append, run_snoc] at hlive ⊢
  -- the Loop was live right after the marking turn
  have hafter : ((o.run env before).step env input).1.ended = none := by
    cases hended : ((o.run env before).step env input).1.ended with
    | none => rfl
    | some report =>
        rw [(trace_ended env rest (by simp [hended])).2.2, hended] at hlive
        cases hlive
  apply run_record
  obtain ⟨hok, hstep⟩ := step_handled_live hhandled hafter
  rw [hstep]
  have hcounted : Backed ((o.run env before).counted sequence) :=
    (run_backed env before hbacked hhandled.live).same rfl rfl
  exact (onUnit_backed env event hcounted hok).2 tool ⟨hin.unit, hin.scope⟩

theorem close_dispatches (env : LoopEnvironment) (t : Turn) (a : ToolActionId) :
    dispatchesIn a (close env t).2 = dispatchesIn a t.emitted := by
  unfold close
  split
  · rfl
  · rw [dispatchesIn_append, (finish_emits env _ _).1, List.append_nil]

/-- A turn that handles no unit emits no request. -/
theorem unhandled_silent (env : LoopEnvironment) {input : LoopInput}
    (h : ∀ sequence event, ¬ Handled o input sequence event) (a : ToolActionId) :
    dispatchesIn a (o.step env input).2 = [] := by
  by_contra hsome
  obtain ⟨i, hi⟩ := step_dispatches env o input a hsome
  cases hlive : o.ended with
  | some report =>
      rw [step_ended env input (by simp [hlive])] at hsome
      exact hsome rfl
  | none =>
      cases input with
      | cancelled => cases hi
      | closed => cases hi
      | status status => cases hi
      | delivered delivered =>
          obtain ⟨sequence, event⟩ := delivered
          cases event with
          | ended kind => cases hi
          | unit event =>
              by_cases hseq : o.lastSeq = 0 ∨ sequence = o.lastSeq + 1
              · exact h sequence event ⟨hlive, rfl, hseq⟩
              · rw [step_break hlive hseq] at hsome
                exact hsome ((finish_emits env _ _).1 a)

/-- For an action with a record, a request is emitted exactly when it reopens. -/
theorem step_reopens (env : LoopEnvironment) (input : LoopInput) (hbacked : o.ended = none → Backed o)
    (hrecord : o.ended = none → (o.actions.lookup (pairKey i a)).isSome) :
    turnDispatches i a (input, (o.step env input).2) ≠ [] ↔ Reopens env o input i a := by
  constructor
  · intro hsome
    have hinterpretation : input.interpretation = some i := by
      by_contra hne
      rw [turnDispatches, if_neg hne] at hsome
      exact hsome rfl
    rw [turnDispatches, if_pos hinterpretation] at hsome
    by_cases hhandled : ∃ sequence event, Handled o input sequence event
    · obtain ⟨sequence, event, hhandled⟩ := hhandled
      have hlive := hhandled.live
      obtain ⟨record, hlookup⟩ := Option.isSome_iff_exists.mp (hrecord hlive)
      rw [hhandled.delivered] at hsome hinterpretation
      rw [step_delivered hlive hhandled.inSequence, close_dispatches, LoopOwner.handle,
        onUnit_requests] at hsome
      obtain ⟨tool, hin, rfl, hdispatchable, hadmitted, hready⟩ := hsome
      cases hinterpretation
      have hfresh : o.dispatched (actionKey event.snapshot tool) = false := by
        rw [← Bool.not_eq_true]
        exact fun hmarked => hready.notPassed (.inl hmarked)
      refine ⟨sequence, event, tool, hhandled, ⟨hin.unit, hin.scope⟩, rfl, rfl, hdispatchable,
        hfresh, ?_, hadmitted.space, hready.accepted⟩
      -- the record's own generation was noted, so an unseen one is newer
      have hle : o.lastGeneration (actionKey event.snapshot tool) ≤
          event.snapshot.unitGeneration :=
        Nat.le_of_not_lt fun hstale => hready.notPassed (.inr hstale)
      have hlast : o.lastGeneration (actionKey event.snapshot tool) = record.lastGeneration := by
        rw [LoopOwner.lastGeneration, show o.actions.lookup (actionKey event.snapshot tool) =
          some record from hlookup]
        rfl
      refine Nat.lt_of_le_of_ne hle (fun heq => ?_)
      have hnoted := (hbacked hlive).noted _ _ hlookup
      rw [← hlast, show o.lastGeneration (actionKey event.snapshot tool) =
        event.snapshot.unitGeneration from heq] at hnoted
      exact hadmitted.unseen hnoted
    · simp only [not_exists] at hhandled
      exact absurd (unhandled_silent env hhandled a) hsome
  · rintro ⟨sequence, event, tool, hhandled, hin, rfl, rfl, hdispatchable, hfresh, hnewer, hspace,
      haccepted⟩
    have hlive := hhandled.live
    rw [hhandled.delivered, turnDispatches_unit, if_pos rfl,
      step_delivered hlive hhandled.inSequence, close_dispatches, LoopOwner.handle,
      onUnit_requests]
    refine ⟨tool, ⟨hin.unit, hin.scope⟩, rfl, hdispatchable, ⟨?_, hspace⟩, .inr (hrecord hlive), ?_,
      haccepted⟩
    · intro hseen
      obtain ⟨record, hlookup, hle⟩ := (hbacked hlive).recorded _ _ hseen
      have hlast : o.lastGeneration (actionKey event.snapshot tool) = record.lastGeneration := by
        rw [LoopOwner.lastGeneration, hlookup]
        rfl
      have hnewer : o.lastGeneration (actionKey event.snapshot tool) <
        event.snapshot.unitGeneration := hnewer
      omega
    · rintro (hmarked | hstale)
      · exact Bool.false_ne_true (hfresh.symm.trans hmarked)
      · exact Nat.lt_asymm hnewer hstale

/-- **A terminal action is dispatched exactly by a newer ready request.** In a run of
a fresh Loop no terminal action is dispatched later, if and only if no turn brings
a terminal action, not dispatched before, a ready request newer than its record. -/
theorem terminal_undispatched_iff (env : LoopEnvironment) (run : MonoloopRunId) (loop : LoopId)
    (scope : LoopScope) (limits : LoopLimits) (inputs : List LoopInput) :
    let o := LoopOwner.new run loop scope limits
    (∀ before input i a, before ++ [input] <+: inputs → TerminalKnown env o before i a →
      turnDispatches i a (input, ((o.run env before).step env input).2) = []) ↔
    ∀ before input i a, before ++ [input] <+: inputs → TerminalKnown env o before i a →
      ¬ Reopens env (o.run env before) input i a := by
  intro o
  have hbacked : Backed o := .new run loop scope limits
  have hturn : ∀ before input i a, TerminalKnown env o before i a →
      (turnDispatches i a (input, ((o.run env before).step env input).2) = [] ↔
        ¬ Reopens env (o.run env before) input i a) := by
    intro before input i a hknown
    rw [← not_iff_not, not_not]
    exact step_reopens env input (run_backed env before hbacked) (hknown.record hbacked)
  constructor
  · intro h before input i a hlead hknown
    exact (hturn before input i a hknown).mp (h before input i a hlead hknown)
  · intro h before input i a hlead hknown
    exact (hturn before input i a hknown).mpr (h before input i a hlead hknown)

/-- The first generation of the sample action, cut off. -/
def incompleteUnit : CanonicalUnitEvent :=
  .incomplete {
    unitId := ⟨"unit"⟩
    unitGeneration := 1
    interpretationId := ⟨"interpretation"⟩
    connectionId := sampleConnection
    externalSessionId := none
    unit := .tool {
      toolActionId := ⟨"action"⟩
      toolName := some "lookup"
      requestState := .incomplete
      executionState := .notObserved
      resultState := .absent
      requestPayload := none
      resultPayload := none
      terminalOutcome := none
      waitingFor := none } }

/-- The sample action is recorded incomplete at its first generation and dispatched
at its second. -/
theorem incomplete_then_dispatched :
    ¬ ∀ (env : LoopEnvironment) (run : MonoloopRunId) (loop : LoopId) (scope : LoopScope)
      (limits : LoopLimits) (before : List LoopInput) (input : LoopInput) (i : InterpretationId)
      (a : ToolActionId),
      TerminalKnown env (LoopOwner.new run loop scope limits) before i a →
      turnDispatches i a
        (input, (((LoopOwner.new run loop scope limits).run env before).step env input).2) = [] := by
  intro h
  have hnone := h sampleEnvironment sampleRun ⟨"loop"⟩ ⟨[], [], [], true⟩ ⟨8, 8⟩
    [.delivered ⟨1, .unit incompleteUnit⟩] (.delivered ⟨2, .unit (sampleUnit 2)⟩)
    ⟨"interpretation"⟩ ⟨"action"⟩
    ⟨[], .delivered ⟨1, .unit incompleteUnit⟩, ⟨[], rfl⟩, 1, incompleteUnit, _,
      ⟨rfl, rfl, .inl rfl⟩, ⟨rfl, rfl⟩, rfl, rfl, .inr ⟨.inl rfl, by decide +kernel⟩⟩
  revert hnone
  decide +kernel

end Monoloop.ToolLoop
