import Monoloop.ToolLoop.Owner

/-!
# What one turn of the Loop does

`UnitTurn` lists, once, what a canonical unit can do to the owner: nothing, a
duplicate, a refusal, a record, or a dispatch. Every later proof about the Loop
goes through it and never opens the handlers again.
-/

namespace Monoloop.ToolLoop

open LoopOwner

variable {env : LoopEnvironment} {o : LoopOwner} {snap : CanonicalUnitSnapshot}
  {tool : ToolActionEvent} {key : String} {record : ActionRecord}

/-- The unit is a tool unit in the Loop's scope. -/
structure ToolInScope (o : LoopOwner) (snap : CanonicalUnitSnapshot) (tool : ToolActionEvent) :
    Prop where
  unit : snap.unit = .tool tool
  scope : o.inScope snap = true

/-- The owner with the deduplication entry of a unit. -/
def LoopOwner.noted (o : LoopOwner) (snap : CanonicalUnitSnapshot) (tool : ToolActionEvent) :
    LoopOwner :=
  o.note (digKey (actionKey snap tool) snap.unitGeneration) snap.unitGeneration

/-- What the owner knows of an action: its last generation and whether it was
dispatched. -/
def LoopOwner.lastGeneration (o : LoopOwner) (key : String) : Nat :=
  ((o.actions.lookup key).map (·.lastGeneration)).getD 0

def LoopOwner.dispatched (o : LoopOwner) (key : String) : Bool :=
  (o.actions.lookup key).any (·.dispatched)

/-- The Loop does not dispatch a request of this action and generation: the action
was dispatched, or a later generation was seen. -/
def PassedOver (o : LoopOwner) (key : String) (generation : Nat) : Prop :=
  o.dispatched key = true ∨ generation < o.lastGeneration key

/-- A unit that only updates the record of its action. -/
structure Recorded (o o' : LoopOwner) (key : String) (generation : Nat) : Prop where
  actions : ∃ record, o'.actions = o.actions.insert key record ∧
    record.dispatched = o.dispatched key ∧
    record.lastGeneration = max (o.lastGeneration key) generation
  dedup : o'.dedup = o.dedup
  scope : o'.scope = o.scope
  unavailable : o'.toolsUnavailable = o.toolsUnavailable
  results : o'.outboundResults = o.outboundResults
  sequence : o'.lastSeq = o.lastSeq
  ended : o'.ended = o.ended

/-- What a canonical unit can do. -/
inductive UnitTurn (env : LoopEnvironment) (o : LoopOwner) (snap : CanonicalUnitSnapshot) :
    Turn → Prop where
  | observed (h : ∀ tool, ¬ ToolInScope o snap tool) : UnitTurn env o snap ⟨o, [], .ok ()⟩
  | duplicate (tool : ToolActionEvent) (h : ToolInScope o snap tool)
      (hseen : o.dedup.lookup (digKey (actionKey snap tool) snap.unitGeneration) =
        some snap.unitGeneration) :
      UnitTurn env o snap ⟨{ o with duplicates := o.duplicates + 1 }, [], .ok ()⟩
  | refused (tool : ToolActionEvent) (o' : LoopOwner) (h : ToolInScope o snap tool) :
      UnitTurn env o snap ⟨o', [], .error .invariantFailed⟩
  | recorded (tool : ToolActionEvent) (o' : LoopOwner) (h : ToolInScope o snap tool)
      (hrecorded : Recorded (o.noted snap tool) o' (actionKey snap tool) snap.unitGeneration)
      (hunseen : o.dedup.lookup (digKey (actionKey snap tool) snap.unitGeneration) ≠
        some snap.unitGeneration)
      (hpassed : tool.Dispatchable → PassedOver o (actionKey snap tool) snap.unitGeneration) :
      UnitTurn env o snap ⟨o', [], .ok ()⟩
  | dispatched (tool : ToolActionEvent) (record : ActionRecord) (h : ToolInScope o snap tool)
      (hfresh : o.dispatched (actionKey snap tool) = false)
      (hlast : o.lastGeneration (actionKey snap tool) ≤ snap.unitGeneration)
      (hrecord : record.lastGeneration = snap.unitGeneration)
      (hready : tool.Dispatchable)
      (hunseen : o.dedup.lookup (digKey (actionKey snap tool) snap.unitGeneration) ≠
        some snap.unitGeneration) :
      UnitTurn env o snap (dispatch (env.reply o.dispatches)
        ((o.noted snap tool).setAction (actionKey snap tool) record)
        (actionKey snap tool) snap tool record)

theorem diag_fields (o : LoopOwner) (message : String) :
    (o.diag message).actions = o.actions ∧ (o.diag message).dedup = o.dedup ∧
      (o.diag message).scope = o.scope ∧ (o.diag message).toolsUnavailable = o.toolsUnavailable ∧
      (o.diag message).outboundResults = o.outboundResults ∧
      (o.diag message).lastSeq = o.lastSeq ∧ (o.diag message).ended = o.ended := by
  unfold LoopOwner.diag
  split <;> simp

theorem entry_lastGeneration (o : LoopOwner) (key : String) (snap : CanonicalUnitSnapshot)
    (tool : ToolActionEvent) (state : ActionState) :
    (o.entry key snap tool state).lastGeneration = o.lastGeneration key := by
  unfold LoopOwner.entry LoopOwner.lastGeneration
  cases o.actions.lookup key <;> rfl

theorem entry_dispatched (o : LoopOwner) (key : String) (snap : CanonicalUnitSnapshot)
    (tool : ToolActionEvent) (state : ActionState) :
    (o.entry key snap tool state).dispatched = o.dispatched key := by
  unfold LoopOwner.entry LoopOwner.dispatched
  cases o.actions.lookup key <;> rfl

/-- Writing a record that keeps the dispatch mark and raises the generation. -/
theorem recorded_setAction {generation : Nat} (hdispatched : record.dispatched = o.dispatched key)
    (hlast : record.lastGeneration = max (o.lastGeneration key) generation) :
    Recorded o (o.setAction key record) key generation where
  actions := ⟨record, rfl, hdispatched, hlast⟩
  dedup := rfl
  scope := rfl
  unavailable := rfl
  results := rfl
  sequence := rfl
  ended := rfl

theorem recorded_trackWaiting (o : LoopOwner) (key : String) (snap : CanonicalUnitSnapshot)
    (tool : ToolActionEvent) :
    Recorded o (o.trackWaiting key snap tool) key snap.unitGeneration := by
  have hlast := entry_lastGeneration o key snap tool .observedWaiting
  have hdispatched := entry_dispatched o key snap tool .observedWaiting
  unfold LoopOwner.trackWaiting
  dsimp only
  split
  · exact recorded_setAction hdispatched (by omega)
  · have hmax : snap.unitGeneration = max (o.lastGeneration key) snap.unitGeneration := by omega
    split
    · exact recorded_setAction hdispatched hmax
    · exact recorded_setAction hdispatched hmax

theorem recorded_markIncomplete (o : LoopOwner) (key : String) (snap : CanonicalUnitSnapshot)
    (tool : ToolActionEvent) :
    Recorded o (o.markIncomplete key snap tool) key snap.unitGeneration := by
  have hlast := entry_lastGeneration o key snap tool .incomplete
  have hdispatched := entry_dispatched o key snap tool .incomplete
  unfold LoopOwner.markIncomplete
  dsimp only
  split
  · have hmax : snap.unitGeneration = max (o.lastGeneration key) snap.unitGeneration := by omega
    exact recorded_setAction hdispatched hmax
  · exact recorded_setAction hdispatched (by omega)

/-- A ready request that does not reach the dispatch, with its diagnostic. -/
theorem recorded_diag {o' : LoopOwner} {generation : Nat} (message : String)
    (h : Recorded o o' key generation) : Recorded o (o'.diag message) key generation := by
  obtain ⟨hactions, hdedup, hscope, hunavailable, hresults, hsequence, hended⟩ :=
    diag_fields o' message
  obtain ⟨record, hrecord⟩ := h.actions
  refine ⟨⟨record, ?_⟩, ?_, ?_, ?_, ?_, ?_, ?_⟩
  · rw [hactions]
    exact hrecord
  · rw [hdedup, h.dedup]
  · rw [hscope, h.scope]
  · rw [hunavailable, h.unavailable]
  · rw [hresults, h.results]
  · rw [hsequence, h.sequence]
  · rw [hended, h.ended]

/-- A ready request: refused, recorded, or dispatched. -/
theorem onRequestReady_cases (env : LoopEnvironment) (o : LoopOwner) (key : String)
    (snap : CanonicalUnitSnapshot) (tool : ToolActionEvent) :
    (∃ o', o.onRequestReady env key snap tool = ⟨o', [], .error .invariantFailed⟩) ∨
    (∃ o', Recorded o o' key snap.unitGeneration ∧
      (tool.toolName.isSome → tool.requestPayload.isSome →
        PassedOver o key snap.unitGeneration) ∧
      o.onRequestReady env key snap tool = ⟨o', [], .ok ()⟩) ∨
    ∃ record, o.dispatched key = false ∧ o.lastGeneration key ≤ snap.unitGeneration ∧
      record.lastGeneration = snap.unitGeneration ∧
      tool.toolName.isSome ∧ tool.requestPayload.isSome ∧
      o.onRequestReady env key snap tool =
        dispatch (env.reply o.dispatches) (o.setAction key record) key snap tool record := by
  have hlast := entry_lastGeneration o key snap tool .requestReady
  have hdispatched := entry_dispatched o key snap tool .requestReady
  unfold LoopOwner.onRequestReady
  generalize o.entry key snap tool .requestReady = record at hlast hdispatched
  dsimp only
  split
  · exact .inl ⟨o, rfl⟩
  · right
    split
    · rename_i hstale
      exact .inl ⟨_, recorded_setAction hdispatched (by omega), fun _ _ => .inr (by omega), rfl⟩
    · have hmax : snap.unitGeneration = max (o.lastGeneration key) snap.unitGeneration := by omega
      have hset : Recorded o
          (o.setAction key { record with lastGeneration := snap.unitGeneration }) key
          snap.unitGeneration := recorded_setAction hdispatched hmax
      split
      · rename_i hmarked
        left
        refine ⟨_, ?_, fun _ _ => .inl (hdispatched.symm.trans hmarked), rfl⟩
        exact ⟨hset.actions, hset.dedup, hset.scope, hset.unavailable, hset.results, hset.sequence,
          hset.ended⟩
      · rename_i hfresh
        split
        · rename_i hnone
          left
          refine ⟨_, recorded_diag _ hset, ?_, rfl⟩
          intro hname
          simp [Option.isNone_iff_eq_none.mp hnone] at hname
        · rename_i hname
          split
          · rename_i hnone
            left
            refine ⟨_, recorded_diag _ hset, ?_, rfl⟩
            intro _ hpayload
            simp [Option.isNone_iff_eq_none.mp hnone] at hpayload
          · rename_i hpayload
            right
            refine ⟨{ record with lastGeneration := snap.unitGeneration }, ?_, by omega, rfl, ?_, ?_,
              rfl⟩
            · rw [← hdispatched]
              simpa using hfresh
            · simpa [Option.isSome_iff_ne_none] using hname
            · simpa [Option.isSome_iff_ne_none] using hpayload

/-- **The Loop's unit handler, case by case.** -/
theorem onUnit_turn (env : LoopEnvironment) (o : LoopOwner) (event : CanonicalUnitEvent) :
    UnitTurn env o event.snapshot (o.onUnit env event) := by
  unfold LoopOwner.onUnit
  dsimp only
  generalize event.snapshot = snap
  split
  · rename_i hscope
    refine .observed (fun tool h => ?_)
    simp [h.scope] at hscope
  · rename_i hscope
    have hscope : o.inScope snap = true := by simpa using hscope
    split
    · rename_i tool hunit
      have hin : ToolInScope o snap tool := ⟨hunit, hscope⟩
      split
      · rename_i hseen
        exact .duplicate tool hin hseen
      · rename_i hunseen
        -- a request that is not ready is recorded and never passed over
        have hother : tool.requestState ≠ .ready → tool.Dispatchable →
            PassedOver o (actionKey snap tool) snap.unitGeneration := by
          intro hstate h
          exact absurd h.1 hstate
        split
        · exact .refused tool _ hin
        · split
          · rename_i hstate
            exact .recorded tool _ hin (recorded_trackWaiting _ _ _ _) hunseen
              (hother (by rw [hstate]; decide))
          · rename_i hready
            rcases onRequestReady_cases env (o.noted snap tool) (actionKey snap tool) snap tool with
              ⟨o', hturn⟩ | ⟨o', hrecorded, hpassed, hturn⟩ |
                ⟨record, hfresh, hlast, hgeneration, hname, hpayload, hturn⟩
            · exact hturn ▸ .refused tool o' hin
            · exact hturn ▸ .recorded tool o' hin hrecorded hunseen (fun h => hpassed h.2.1 h.2.2)
            · exact hturn ▸ .dispatched tool record hin hfresh hlast hgeneration
                ⟨hready, hname, hpayload⟩ hunseen
          · rename_i hstate
            exact .recorded tool _ hin (recorded_markIncomplete _ _ _ _) hunseen
              (hother (by rw [hstate]; decide))
          · rename_i hstate
            exact .recorded tool _ hin (recorded_markIncomplete _ _ _ _) hunseen
              (hother (by rw [hstate]; decide))
    · rename_i hother
      refine .observed (fun tool h => ?_)
      exact hother tool h.unit

/-! ## What the owner knows afterwards -/

theorem setAction_dispatched (o : LoopOwner) (key : String) (record : ActionRecord) (k : String) :
    (o.setAction key record).dispatched k = if k = key then record.dispatched else o.dispatched k := by
  unfold LoopOwner.dispatched LoopOwner.setAction
  rw [HashMap.lookup_insert_ite]
  split <;> rfl

theorem setAction_lastGeneration (o : LoopOwner) (key : String) (record : ActionRecord)
    (k : String) : (o.setAction key record).lastGeneration k =
      if k = key then record.lastGeneration else o.lastGeneration k := by
  unfold LoopOwner.lastGeneration LoopOwner.setAction
  rw [HashMap.lookup_insert_ite]
  split <;> rfl

theorem Recorded.dispatched {o' : LoopOwner} {generation : Nat} (h : Recorded o o' key generation)
    (k : String) : o'.dispatched k = o.dispatched k := by
  obtain ⟨record, hactions, hdispatched, -⟩ := h.actions
  have hset := setAction_dispatched o key record k
  unfold LoopOwner.dispatched LoopOwner.setAction at hset
  unfold LoopOwner.dispatched
  rw [hactions, hset]
  split
  · rename_i hk
    rw [hk, hdispatched]
    rfl
  · rfl

theorem Recorded.lastGeneration {o' : LoopOwner} {generation : Nat}
    (h : Recorded o o' key generation) (k : String) : o'.lastGeneration k =
      if k = key then max (o.lastGeneration key) generation else o.lastGeneration k := by
  obtain ⟨record, hactions, -, hlast⟩ := h.actions
  have hset := setAction_lastGeneration o key record k
  unfold LoopOwner.lastGeneration LoopOwner.setAction at hset
  rw [← hlast]
  unfold LoopOwner.lastGeneration
  rw [hactions, hset]

/-- What a dispatch emits, by how it went. -/
inductive DispatchEmits (o : LoopOwner) (snap : CanonicalUnitSnapshot) (tool : ToolActionEvent) :
    Turn → Prop where
  | answered (t : Turn) (r : OutboundToolResult) (hresult : t.result = .ok ())
      (hinterpretation : r.sourceInterpretationId = snap.interpretationId)
      (haction : r.toolActionId = tool.toolActionId)
      (hgeneration : r.requestGeneration = snap.unitGeneration)
      (hcount : t.owner.outboundResults = o.outboundResults + 1)
      (hunavailable : t.owner.toolsUnavailable = o.toolsUnavailable)
      (hemitted : t.emitted = [.toolDispatchRequested tool.toolActionId snap.unitGeneration,
        .outboundToolResult r]) : DispatchEmits o snap tool t
  | unavailable (t : Turn) (r : OutboundToolResult) (reason : ToolUnavailableReason)
      (hresult : t.result = .ok ())
      (hinterpretation : r.sourceInterpretationId = snap.interpretationId)
      (haction : r.toolActionId = tool.toolActionId)
      (hgeneration : r.requestGeneration = snap.unitGeneration)
      (hcount : t.owner.outboundResults = o.outboundResults + 1)
      (hunavailable : t.owner.toolsUnavailable = o.toolsUnavailable + 1)
      (hemitted : t.emitted = [.toolDispatchRequested tool.toolActionId snap.unitGeneration,
        .toolUnavailable tool.toolActionId reason, .outboundToolResult r]) :
      DispatchEmits o snap tool t
  | failed (t : Turn) (kind : LoopEndKind) (hresult : t.result = .error kind)
      (hkind : kind = .outputFailed ∨ kind = .invariantFailed)
      (hemitted : t.emitted = [] ∨
        t.emitted = [.toolDispatchRequested tool.toolActionId snap.unitGeneration] ∨
        ∃ reason, t.emitted = [.toolDispatchRequested tool.toolActionId snap.unitGeneration,
          .toolUnavailable tool.toolActionId reason]) : DispatchEmits o snap tool t

theorem dispatch_emits (reply : DispatchReply) (o : LoopOwner) (key : String)
    (snap : CanonicalUnitSnapshot) (tool : ToolActionEvent) (record : ActionRecord) :
    DispatchEmits o snap tool (dispatch reply o key snap tool record) := by
  unfold dispatch
  dsimp only
  split
  · exact .failed _ .outputFailed rfl (.inl rfl) (.inl rfl)
  · split
    · exact .failed _ .invariantFailed rfl (.inr rfl) (.inr (.inl rfl))
    · split
      · exact .failed _ .outputFailed rfl (.inl rfl) (.inr (.inl rfl))
      · split
        · exact .failed _ .outputFailed rfl (.inl rfl) (.inr (.inr ⟨_, rfl⟩))
        · exact .unavailable _ _ _ rfl rfl rfl rfl rfl rfl rfl
    · split
      · split
        · exact .failed _ .outputFailed rfl (.inl rfl) (.inr (.inl rfl))
        · refine .answered _ _ rfl rfl rfl rfl ?_ ?_ rfl
          · show (LoopOwner.diag _ _).outboundResults + 1 = o.outboundResults + 1
            rw [(diag_fields _ _).2.2.2.2.1]
            rfl
          · show (LoopOwner.diag _ _).toolsUnavailable = o.toolsUnavailable
            rw [(diag_fields _ _).2.2.2.1]
            rfl
      · split
        · exact .failed _ .outputFailed rfl (.inl rfl) (.inr (.inl rfl))
        · exact .answered _ _ rfl rfl rfl rfl rfl rfl rfl

/-- What a dispatch leaves of the owner. -/
structure DispatchLeaves (o o' : LoopOwner) (key : String) (generation : Nat) : Prop where
  dispatched : ∀ k, o'.dispatched k = if k = key then true else o.dispatched k
  lastGeneration : ∀ k, o'.lastGeneration k = if k = key then generation else o.lastGeneration k
  dedup : o'.dedup = o.dedup
  scope : o'.scope = o.scope
  sequence : o'.lastSeq = o.lastSeq
  ended : o'.ended = o.ended

theorem dispatchLeaves_of_actions {o' : LoopOwner} (record : ActionRecord)
    (hmark : record.dispatched = true) (hactions : o'.actions = (o.setAction key record).actions)
    (hdedup : o'.dedup = o.dedup) (hscope : o'.scope = o.scope) (hsequence : o'.lastSeq = o.lastSeq)
    (hended : o'.ended = o.ended) : DispatchLeaves o o' key record.lastGeneration where
  dispatched k := by
    have hset := setAction_dispatched o key record k
    rw [hmark] at hset
    rw [← hset]
    unfold LoopOwner.dispatched
    rw [hactions]
  lastGeneration k := by
    rw [← setAction_lastGeneration o key record k]
    unfold LoopOwner.lastGeneration
    rw [hactions]
  dedup := hdedup
  scope := hscope
  sequence := hsequence
  ended := hended

theorem dispatch_leaves (reply : DispatchReply) (o : LoopOwner) (key : String)
    (snap : CanonicalUnitSnapshot) (tool : ToolActionEvent) (record : ActionRecord) :
    DispatchLeaves o (dispatch reply o key snap tool record).owner key record.lastGeneration := by
  -- both records written on the way carry the mark and the generation
  have hready : ∀ o' : LoopOwner, o'.actions =
      (o.setAction key { record with state := .requestReady, dispatched := true }).actions →
      o'.dedup = o.dedup → o'.scope = o.scope → o'.lastSeq = o.lastSeq → o'.ended = o.ended →
      DispatchLeaves o o' key record.lastGeneration := by
    intro o' hactions hdedup hscope hsequence hended
    exact dispatchLeaves_of_actions { record with state := .requestReady, dispatched := true }
      rfl hactions hdedup hscope hsequence hended
  have hunavailable : ∀ o' : LoopOwner, o'.actions =
      ((o.setAction key { record with state := .requestReady, dispatched := true }).setAction key
        { record with state := .unavailable, dispatched := true }).actions →
      o'.dedup = o.dedup → o'.scope = o.scope → o'.lastSeq = o.lastSeq → o'.ended = o.ended →
      DispatchLeaves o o' key record.lastGeneration := by
    intro o' hactions hdedup hscope hsequence hended
    refine dispatchLeaves_of_actions { record with state := .unavailable, dispatched := true }
      rfl (hactions.trans ?_) hdedup hscope hsequence hended
    exact AList.insert_insert _
  unfold dispatch
  dsimp only
  split
  · exact hready _ rfl rfl rfl rfl rfl
  · split
    · exact hready _ rfl rfl rfl rfl rfl
    · split
      · exact hunavailable _ rfl rfl rfl rfl rfl
      · split <;> exact hunavailable _ rfl rfl rfl rfl rfl
    · split
      · obtain ⟨hactions, hdedup, hscope, -, -, hsequence, hended⟩ := diag_fields
          { o.setAction key { record with state := .requestReady, dispatched := true } with
            dispatches := o.dispatches + 1 } _
        split <;> exact hready _ hactions hdedup hscope hsequence hended
      · split <;> exact hready _ rfl rfl rfl rfl rfl

end Monoloop.ToolLoop
