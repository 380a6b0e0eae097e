import Monoloop.ToolLoop.Terminal

/-!
# One action beside the others

Records and notes are kept under texts built from an interpretation id and an
action id. The Loop is compared with one that is delivered the events of a single
action only: both share what is kept under the key of that action, as long as no
other action has the same key text. The text does not determine the pair, so two
actions can share one.
-/

namespace Monoloop.ToolLoop

open LoopOwner

variable {env env' : LoopEnvironment} {o o' : LoopOwner} {key : String} {record : ActionRecord}
  {snap : CanonicalUnitSnapshot} {tool : ToolActionEvent} {i : InterpretationId} {a : ToolActionId}

/-! ## What two owners share of an action -/

/-- Both owners keep the same of one action, and the second keeps no more in all. -/
structure Shares (key : String) (o o' : LoopOwner) : Prop where
  config : o'.config = o.config
  record : o'.actions.lookup key = o.actions.lookup key
  notes : ∀ generation, o'.dedup.lookup (digKey key generation) =
    o.dedup.lookup (digKey key generation)
  fewerRecords : o'.actions.keys.length ≤ o.actions.keys.length
  fewerNotes : o'.dedup.keys.length ≤ o.dedup.keys.length

/-- Only the tables and the configuration are shared. -/
theorem Shares.same {o₁ o₁' : LoopOwner} (h : Shares key o o')
    (hconfig : o₁.config = o.config) (hactions : o₁.actions = o.actions)
    (hdedup : o₁.dedup = o.dedup) (hconfig' : o₁'.config = o'.config)
    (hactions' : o₁'.actions = o'.actions) (hdedup' : o₁'.dedup = o'.dedup) :
    Shares key o₁ o₁' := by
  constructor
  · rw [hconfig, hconfig', h.config]
  · rw [hactions, hactions', h.record]
  · rw [hdedup, hdedup']
    exact h.notes
  · rw [hactions, hactions']
    exact h.fewerRecords
  · rw [hdedup, hdedup']
    exact h.fewerNotes

theorem Shares.setAction (h : Shares key o o') (record : ActionRecord) :
    Shares key (o.setAction key record) (o'.setAction key record) where
  config := h.config
  record := by
    unfold LoopOwner.setAction
    rw [HashMap.lookup_insert_ite, HashMap.lookup_insert_ite, if_pos rfl, if_pos rfl]
  notes := h.notes
  fewerRecords := by
    have hfewer := h.fewerRecords
    unfold LoopOwner.setAction
    rw [HashMap.length_keys_insert, HashMap.length_keys_insert, h.record]
    omega
  fewerNotes := h.fewerNotes

theorem Shares.note (h : Shares key o o') (generation : Nat) :
    Shares key (o.note (digKey key generation) generation)
      (o'.note (digKey key generation) generation) where
  config := h.config
  record := h.record
  notes g := by
    unfold LoopOwner.note
    rw [HashMap.lookup_insert_ite, HashMap.lookup_insert_ite, h.notes]
  fewerRecords := h.fewerRecords
  fewerNotes := by
    have hfewer := h.fewerNotes
    unfold LoopOwner.note
    rw [HashMap.length_keys_insert, HashMap.length_keys_insert, h.notes]
    omega

theorem Shares.diag (h : Shares key o o') (message : String) :
    Shares key (o.diag message) (o'.diag message) :=
  h.same (diag_config _ _) (diag_fields _ _).1 (diag_fields _ _).2.1 (diag_config _ _)
    (diag_fields _ _).1 (diag_fields _ _).2.1

theorem Shares.entry (h : Shares key o o') (snap : CanonicalUnitSnapshot) (tool : ToolActionEvent)
    (state : ActionState) : o'.entry key snap tool state = o.entry key snap tool state := by
  unfold LoopOwner.entry
  rw [h.record]

theorem Shares.dispatched (h : Shares key o o') : o'.dispatched key = o.dispatched key := by
  unfold LoopOwner.dispatched
  rw [h.record]

theorem Shares.limits (h : Shares key o o') : o'.limits = o.limits :=
  congrArg (·.2.2.2) h.config

/-! ## The action's own units -/

theorem Shares.trackWaiting (h : Shares key o o') (snap : CanonicalUnitSnapshot)
    (tool : ToolActionEvent) :
    Shares key (o.trackWaiting key snap tool) (o'.trackWaiting key snap tool) := by
  unfold LoopOwner.trackWaiting
  rw [h.entry]
  dsimp only
  split
  · exact h.setAction _
  · split <;> exact h.setAction _

theorem Shares.markIncomplete (h : Shares key o o') (snap : CanonicalUnitSnapshot)
    (tool : ToolActionEvent) :
    Shares key (o.markIncomplete key snap tool) (o'.markIncomplete key snap tool) := by
  unfold LoopOwner.markIncomplete
  rw [h.entry]
  dsimp only
  split <;> exact h.setAction _

/-- Handlers that share before also share afterwards and emit the same. -/
structure SameTurn (key : String) (t t' : Turn) : Prop where
  shares : Shares key t.owner t'.owner
  emitted : t'.emitted = t.emitted
  result : t'.result = t.result

theorem Shares.outbound (h : Shares key o o') (reply : DispatchReply)
    (snap : CanonicalUnitSnapshot) (tool : ToolActionEvent) (execution : Option ToolExecutionId)
    (outcome : OutboundToolOutcome) (payload : String) :
    o'.outbound reply snap tool execution outcome payload =
      o.outbound reply snap tool execution outcome payload := by
  have hrun : o'.monoloopRunId = o.monoloopRunId := congrArg (·.1) h.config
  have hloop : o'.loopId = o.loopId := congrArg (·.2.1) h.config
  unfold LoopOwner.outbound
  rw [hrun, hloop]

theorem Shares.dispatch (h : Shares key o o') (reply : DispatchReply)
    (snap : CanonicalUnitSnapshot) (tool : ToolActionEvent) (record : ActionRecord) :
    SameTurn key (dispatch reply o key snap tool record)
      (dispatch reply o' key snap tool record) := by
  -- the records, the marks and the results are written alike
  have hset := h.setAction { record with state := .requestReady, dispatched := true }
  unfold LoopOwner.dispatch
  dsimp only
  split
  · exact ⟨hset.same rfl rfl rfl rfl rfl rfl, rfl, rfl⟩
  · split
    · exact ⟨hset.same rfl rfl rfl rfl rfl rfl, rfl, rfl⟩
    · have htwice := hset.setAction { record with state := .unavailable, dispatched := true }
      split
      · exact ⟨htwice.same rfl rfl rfl rfl rfl rfl, rfl, rfl⟩
      · split
        · exact ⟨htwice.same rfl rfl rfl rfl rfl rfl, rfl, rfl⟩
        · refine ⟨htwice.same rfl rfl rfl rfl rfl rfl, ?_, rfl⟩
          exact congrArg (fun r => [_, _, LoopOutputEvent.outboundToolResult r])
            (h.outbound reply snap tool none _ _)
    · split
      · rename_i message hstarted
        have hbegun : Shares key
            { o.setAction key { record with state := .requestReady, dispatched := true } with
              dispatches := o.dispatches + 1 }
            { o'.setAction key { record with state := .requestReady, dispatched := true } with
              dispatches := o'.dispatches + 1 } := hset.same rfl rfl rfl rfl rfl rfl
        have hdiag := hbegun.diag ("tool runtime start failed: tool runtime: " ++ message)
        split
        · exact ⟨hdiag, rfl, rfl⟩
        · refine ⟨hdiag.same rfl rfl rfl rfl rfl rfl, ?_, rfl⟩
          exact congrArg (fun r => [_, LoopOutputEvent.outboundToolResult r])
            (hdiag.outbound reply snap tool none _ _)
      · split
        · exact ⟨hset.same rfl rfl rfl rfl rfl rfl, rfl, rfl⟩
        · refine ⟨hset.same rfl rfl rfl rfl rfl rfl, ?_, rfl⟩
          exact congrArg (fun r => [_, LoopOutputEvent.outboundToolResult r])
            (h.outbound reply snap tool _ _ _)

/-- A ready request that the Loop accepts: the smaller owner has room as well. -/
theorem Shares.onRequestReady (h : Shares key o o')
    (hok : (o.onRequestReady env key snap tool).result = .ok ())
    (hreply : (o.onRequestReady env key snap tool).owner.dispatched key = true →
      o.dispatched key = false → env'.reply o'.dispatches = env.reply o.dispatches) :
    SameTurn key (o.onRequestReady env key snap tool) (o'.onRequestReady env' key snap tool) := by
  have hdispatched := entry_dispatched o key snap tool .requestReady
  unfold LoopOwner.onRequestReady at hok hreply ⊢
  rw [h.entry, h.limits, h.record]
  generalize o.entry key snap tool .requestReady = record at hok hreply hdispatched ⊢
  dsimp only at hok hreply ⊢
  by_cases hfull : (decide (o.limits.maxToolActions ≤ o.actions.keys.length) &&
      (o.actions.lookup key).isNone) = true
  · rw [if_pos hfull] at hok
    cases hok
  · have hroom : ¬ (decide (o.limits.maxToolActions ≤ o'.actions.keys.length) &&
        (o.actions.lookup key).isNone) = true := by
      intro hfull'
      apply hfull
      simp only [Bool.and_eq_true, decide_eq_true_eq] at hfull' ⊢
      exact ⟨Nat.le_trans hfull'.1 h.fewerRecords, hfull'.2⟩
    rw [if_neg hfull] at hok hreply ⊢
    rw [if_neg hroom]
    split
    · exact ⟨h.setAction _, rfl, rfl⟩
    · rename_i hcurrent
      rw [if_neg hcurrent] at hok hreply
      have hset := h.setAction { record with lastGeneration := snap.unitGeneration }
      split
      · exact ⟨hset.same rfl rfl rfl rfl rfl rfl, rfl, rfl⟩
      · rename_i hfresh
        rw [if_neg hfresh] at hok hreply
        split
        · exact ⟨hset.diag _, rfl, rfl⟩
        · rename_i hname
          rw [if_neg hname] at hok hreply
          split
          · exact ⟨hset.diag _, rfl, rfl⟩
          · rename_i hpayload
            rw [if_neg hpayload] at hok hreply
            have hmark := (dispatch_leaves (env.reply o.dispatches)
              (o.setAction key { record with lastGeneration := snap.unitGeneration }) key snap tool
              { record with lastGeneration := snap.unitGeneration }).dispatched key
            rw [if_pos rfl] at hmark
            have hsame : env'.reply o'.dispatches = env.reply o.dispatches :=
              hreply hmark (hdispatched.symm.trans (by simpa using hfresh))
            rw [show (o'.setAction key { record with
              lastGeneration := snap.unitGeneration }).dispatches = o'.dispatches from rfl, hsame]
            exact hset.dispatch _ snap tool _

/-- **A unit of the action itself** does the same to both owners. -/
theorem Shares.onUnit {event : CanonicalUnitEvent}
    (hkey : ∀ tool, ToolInScope o event.snapshot tool → actionKey event.snapshot tool = key)
    (h : Shares key o o') (hok : (o.onUnit env event).result = .ok ())
    (hreply : (o.onUnit env event).owner.dispatched key = true →
      o.dispatched key = false → env'.reply o'.dispatches = env.reply o.dispatches) :
    SameTurn key (o.onUnit env event) (o'.onUnit env' event) := by
  have hscope : o'.inScope event.snapshot = o.inScope event.snapshot := by
    have hsame : o'.scope = o.scope := congrArg (·.2.2.1) h.config
    unfold LoopOwner.inScope
    rw [hsame]
  unfold LoopOwner.onUnit at hok hreply ⊢
  dsimp only at hok hreply ⊢
  rw [hscope]
  generalize event.snapshot = snap at *
  split
  · exact ⟨h, rfl, rfl⟩
  · rename_i hin
    rw [if_neg hin] at hok hreply
    split
    · rename_i tool hunit
      have hkey : actionKey snap tool = key := hkey tool ⟨hunit, by simpa using hin⟩
      rw [hunit] at hok hreply
      dsimp only at hok hreply
      rw [hkey, h.notes]
      rw [hkey] at hok hreply
      split
      · exact ⟨h.same rfl rfl rfl rfl rfl rfl, rfl, rfl⟩
      · rename_i hunseen
        rw [if_neg hunseen] at hok hreply
        by_cases hfull : o.limits.maxDedupEntries ≤ o.dedup.keys.length
        · rw [if_pos hfull] at hok
          cases hok
        · have hfewer := h.fewerNotes
          have hspace : ¬ o'.limits.maxDedupEntries ≤ o'.dedup.keys.length := by
            rw [h.limits]
            omega
          rw [if_neg hfull] at hok hreply ⊢
          rw [if_neg hspace]
          have hnote := h.note snap.unitGeneration
          cases hstate : tool.requestState with
          | assembling => exact ⟨hnote.trackWaiting snap tool, rfl, rfl⟩
          | ready =>
              rw [hstate] at hok hreply
              exact hnote.onRequestReady hok hreply
          | malformed => exact ⟨hnote.markIncomplete snap tool, rfl, rfl⟩
          | incomplete => exact ⟨hnote.markIncomplete snap tool, rfl, rfl⟩
    · exact ⟨h, rfl, rfl⟩

/-! ## Units of other actions -/

/-- What a unit handled without error leaves of the owner besides the records. -/
structure UnitLeaves (o : LoopOwner) (snap : CanonicalUnitSnapshot) (t : Turn) : Prop where
  sequence : t.owner.lastSeq = o.lastSeq
  ended : t.owner.ended = o.ended
  dedup : t.owner.dedup = o.dedup ∨
    ∃ tool, ToolInScope o snap tool ∧ t.owner.dedup = (o.noted snap tool).dedup

theorem onUnit_leaves (env : LoopEnvironment) (event : CanonicalUnitEvent)
    (hok : (o.onUnit env event).result = .ok ()) :
    UnitLeaves o event.snapshot (o.onUnit env event) := by
  have hturn := onUnit_turn env o event
  generalize o.onUnit env event = t at hturn hok
  generalize event.snapshot = snap at hturn
  cases hturn with
  | observed hnone => exact ⟨rfl, rfl, .inl rfl⟩
  | duplicate tool hin hseen => exact ⟨rfl, rfl, .inl rfl⟩
  | refused tool o' hin => cases hok
  | recorded tool o' hin hrecorded =>
      exact ⟨hrecorded.sequence, hrecorded.ended, .inr ⟨tool, hin, hrecorded.dedup⟩⟩
  | dispatched tool record hin =>
      have hleaves := dispatch_leaves (env.reply o.dispatches)
        ((o.noted snap tool).setAction (actionKey snap tool) record) (actionKey snap tool) snap tool
        record
      exact ⟨hleaves.sequence, hleaves.ended, .inr ⟨tool, hin, hleaves.dedup⟩⟩

/-- **A unit of another action** leaves what is shared alone. -/
theorem Shares.foreign {event : CanonicalUnitEvent} (h : Shares key o o')
    (hkey : ∀ tool, ToolInScope o event.snapshot tool → actionKey event.snapshot tool ≠ key)
    (hok : (o.onUnit env event).result = .ok ()) : Shares key (o.onUnit env event).owner o' := by
  obtain ⟨hconfig, htable⟩ := onUnit_table env o event
  have hdedup := (onUnit_leaves env event hok).dedup
  generalize o.onUnit env event = t at hconfig htable hdedup
  -- the record and the notes are written under other keys
  have hrecords : t.owner.actions.lookup key = o.actions.lookup key ∧
      o.actions.keys.length ≤ t.owner.actions.keys.length := by
    cases htable with
    | kept hactions =>
        rw [hactions]
        exact ⟨rfl, Nat.le_refl _⟩
    | written tool record hin hadmitted hactions =>
        rw [hactions, HashMap.lookup_insert_ite, if_neg (Ne.symm (hkey tool hin)),
          HashMap.length_keys_insert]
        exact ⟨rfl, Nat.le_add_right _ _⟩
  have hnotes : (∀ generation, t.owner.dedup.lookup (digKey key generation) =
      o.dedup.lookup (digKey key generation)) ∧
      o.dedup.keys.length ≤ t.owner.dedup.keys.length := by
    rcases hdedup with hdedup | ⟨tool, hin, hdedup⟩
    · rw [hdedup]
      exact ⟨fun _ => rfl, Nat.le_refl _⟩
    · rw [hdedup]
      refine ⟨fun generation => ?_, ?_⟩
      · rw [noted_lookup, if_neg]
        intro hdig
        exact hkey tool hin (digKey_inj hdig).1.symm
      · unfold LoopOwner.noted LoopOwner.note
        rw [HashMap.length_keys_insert]
        exact Nat.le_add_right _ _
  have hfewerRecords := h.fewerRecords
  have hfewerNotes := h.fewerNotes
  refine ⟨?_, ?_, ?_, by omega, by omega⟩
  · rw [hconfig, h.config]
  · rw [hrecords.1, h.record]
  · intro generation
    rw [hnotes.1, h.notes]

/-- The output event is about the action. -/
def LoopOutputEvent.concerns (a : ToolActionId) : LoopOutputEvent → Bool
  | .toolDispatchRequested action _ => action = a
  | .toolUnavailable action _ => action = a
  | .outboundToolResult r => r.toolActionId = a
  | _ => false

/-- The events one turn emitted about an action of an interpretation. -/
def turnEvents (i : InterpretationId) (a : ToolActionId)
    (turn : LoopInput × List LoopOutputEvent) : List LoopOutputEvent :=
  if turn.1.interpretation = some i then turn.2.filter (LoopOutputEvent.concerns a) else []

/-- The events a run emitted about an action of an interpretation: the request, the
unavailability and the result. -/
def pairEvents (i : InterpretationId) (a : ToolActionId)
    (trace : List (LoopInput × List LoopOutputEvent)) : List LoopOutputEvent :=
  trace.flatMap (turnEvents i a)

theorem pairEvents_cons (i : InterpretationId) (a : ToolActionId) (input : LoopInput)
    (rest : List LoopInput) (o : LoopOwner) : pairEvents i a (o.trace env (input :: rest)) =
      turnEvents i a (input, (o.step env input).2) ++
        pairEvents i a ((o.step env input).1.trace env rest) := rfl

theorem turnEvents_unit (i : InterpretationId) (a : ToolActionId) (sequence : Nat)
    (event : CanonicalUnitEvent) (emitted : List LoopOutputEvent) :
    turnEvents i a (.delivered ⟨sequence, .unit event⟩, emitted) =
      if event.snapshot.interpretationId = i then emitted.filter (LoopOutputEvent.concerns a)
      else [] := by
  simp [turnEvents, LoopInput.interpretation]

/-- A unit emits events about its own action only. -/
theorem onUnit_concerns (env : LoopEnvironment) (o : LoopOwner) (event : CanonicalUnitEvent)
    (a : ToolActionId) (h : (o.onUnit env event).emitted.filter (LoopOutputEvent.concerns a) ≠ []) :
    ∃ tool, ToolInScope o event.snapshot tool ∧ tool.toolActionId = a := by
  have hturn := onUnit_turn env o event
  generalize o.onUnit env event = t at hturn h
  generalize event.snapshot = snap at hturn
  cases hturn with
  | observed hnone => exact absurd rfl h
  | duplicate tool hin hseen => exact absurd rfl h
  | refused tool o' hin => exact absurd rfl h
  | recorded tool o' hin hrecorded => exact absurd rfl h
  | dispatched tool record hin =>
      refine ⟨tool, hin, ?_⟩
      have hemits := dispatch_emits (env.reply o.dispatches)
        ((o.noted snap tool).setAction (actionKey snap tool) record) (actionKey snap tool) snap tool
        record
      generalize dispatch (env.reply o.dispatches)
        ((o.noted snap tool).setAction (actionKey snap tool) record) (actionKey snap tool) snap tool
        record = t at hemits h
      by_contra hne
      apply h
      cases hemits with
      | answered r _ _ haction _ _ _ hemitted =>
          rw [hemitted]
          simp [LoopOutputEvent.concerns, haction, hne]
      | unavailable r reason _ _ haction _ _ _ hemitted =>
          rw [hemitted]
          simp [LoopOutputEvent.concerns, haction, hne]
      | failed kind _ _ hemitted =>
          rcases hemitted with hnone | hone | ⟨reason, htwo⟩
          · rw [hnone]
            rfl
          · rw [hone]
            simp [LoopOutputEvent.concerns, hne]
          · rw [htwo]
            simp [LoopOutputEvent.concerns, hne]

theorem diag_dispatches (o : LoopOwner) (message : String) :
    (o.diag message).dispatches = o.dispatches := by
  unfold LoopOwner.diag
  split <;> rfl

/-- The dispatch counter moves only when an action is marked. -/
theorem onUnit_dispatches (env : LoopEnvironment) (o : LoopOwner) (event : CanonicalUnitEvent) :
    (o.onUnit env event).owner.dispatches = o.dispatches ∨
      ∃ tool, ToolInScope o event.snapshot tool ∧
        (o.onUnit env event).owner.dispatched (actionKey event.snapshot tool) = true := by
  unfold LoopOwner.onUnit
  dsimp only
  generalize event.snapshot = snap
  split
  · exact .inl rfl
  · rename_i hscope
    split
    · rename_i tool hunit
      have hin : ToolInScope o snap tool := ⟨hunit, by simpa using hscope⟩
      split
      · exact .inl rfl
      · split
        · exact .inl rfl
        · split
          · left
            unfold LoopOwner.trackWaiting
            dsimp only
            split
            · rfl
            · split <;> rfl
          · unfold LoopOwner.onRequestReady
            dsimp only
            split
            · exact .inl rfl
            · split
              · exact .inl rfl
              · split
                · exact .inl rfl
                · split
                  · exact .inl (diag_dispatches _ _)
                  · split
                    · exact .inl (diag_dispatches _ _)
                    · right
                      refine ⟨tool, hin, ?_⟩
                      rw [(dispatch_leaves _ _ _ _ _ _).dispatched, if_pos rfl]
          all_goals
            left
            unfold LoopOwner.markIncomplete
            dsimp only
            split <;> rfl
    · exact .inl rfl

/-! ## The Loop beside its smaller copy -/

/-- The pair of ids an input carries. -/
def LoopSource.pair : LoopSource → Option (InterpretationId × ToolActionId)
  | .event (.unit unit) =>
      match unit.snapshot.unit with
      | .tool tool => some (unit.snapshot.interpretationId, tool.toolActionId)
      | _ => none
  | _ => none

/-- The inputs without the tool units of other actions. -/
def only (i : InterpretationId) (a : ToolActionId) (sources : List LoopSource) : List LoopSource :=
  sources.filter fun source => (LoopSource.pair source).all (· = (i, a))

/-- The environment from its `k`-th reply on. -/
def LoopEnvironment.skip (env : LoopEnvironment) (k : Nat) : LoopEnvironment :=
  { env with reply := fun n => env.reply (k + n) }

/-- The reply the first dispatch of an action meets in a run. -/
def dispatchIndex (env : LoopEnvironment) (key : String) : List LoopInput → LoopOwner → Nat
  | [], o => o.dispatches
  | input :: rest, o =>
      if (o.step env input).1.dispatched key then o.dispatches
      else dispatchIndex env key rest (o.step env input).1

/-- Two live owners that share an action, before the deliveries `n` and `n'`. -/
structure Beside (key : String) (o o' : LoopOwner) (n n' : Nat) : Prop where
  shares : Shares key o o'
  live : o.ended = none
  live' : o'.ended = none
  aligned : o.lastSeq = 0 ∨ n = o.lastSeq + 1
  aligned' : o'.lastSeq = 0 ∨ n' = o'.lastSeq + 1
  idle : o.dispatched key = false → o'.dispatches = 0

theorem step_of_ok {n : Nat} {event : InterpreterOutputEvent} (hlive : o.ended = none)
    (hseq : o.lastSeq = 0 ∨ n = o.lastSeq + 1)
    (hok : ((o.counted n).handle env event).result = .ok ()) :
    o.step env (.delivered ⟨n, event⟩) =
        (((o.counted n).handle env event).owner, ((o.counted n).handle env event).emitted) := by
  rw [step_delivered hlive hseq]
  unfold close
  rw [hok]

/-- A unit of another action: only the larger Loop is delivered it. -/
theorem Beside.foreign {n n' : Nat} {event : CanonicalUnitEvent} (h : Beside (pairKey i a) o o' n n')
    (hkey : ∀ tool, event.snapshot.unit = .tool tool →
      actionKey event.snapshot tool ≠ pairKey i a)
    (hnext : (o.step env (.delivered ⟨n, .unit event⟩)).1.ended = none) :
    Beside (pairKey i a) (o.step env (.delivered ⟨n, .unit event⟩)).1 o' (n + 1) n' ∧
      turnEvents i a (.delivered ⟨n, .unit event⟩, (o.step env (.delivered ⟨n, .unit event⟩)).2) =
        [] := by
  obtain ⟨hok, hstep⟩ := step_live h.live h.aligned hnext
  rw [hstep]
  rw [LoopOwner.handle] at hok ⊢
  have hleaves := onUnit_leaves env event hok
  have hcounted : Shares (pairKey i a) (o.counted n) o' := h.shares.same rfl rfl rfl rfl rfl rfl
  have hshares := hcounted.foreign (fun tool hin => hkey tool hin.unit) hok
  refine ⟨⟨hshares, hleaves.ended.trans h.live, h.live', ?_, h.aligned', ?_⟩, ?_⟩
  · right
    rw [hleaves.sequence]
    rfl
  · intro hfresh
    apply h.idle
    rw [← hfresh, ← h.shares.dispatched, ← hshares.dispatched]
  · rw [turnEvents_unit]
    split
    · rename_i hi
      by_contra hsome
      obtain ⟨tool, hin, rfl⟩ := onUnit_concerns env _ event a hsome
      exact hkey tool hin.unit (hi ▸ rfl)
    · rfl

/-- A delivery to both. -/
theorem Beside.own {n n' k : Nat} {event : InterpreterOutputEvent}
    (h : Beside (pairKey i a) o o' n n')
    (hkey : ∀ unit, event = .unit unit → ∀ tool, unit.snapshot.unit = .tool tool →
      actionKey unit.snapshot tool = pairKey i a)
    (hk : o.dispatched (pairKey i a) = false →
      (o.step env (.delivered ⟨n, event⟩)).1.dispatched (pairKey i a) = true → k = o.dispatches)
    (hnext : (o.step env (.delivered ⟨n, event⟩)).1.ended = none) :
    Beside (pairKey i a) (o.step env (.delivered ⟨n, event⟩)).1
        (o'.step (env.skip k) (.delivered ⟨n', event⟩)).1 (n + 1) (n' + 1) ∧
      turnEvents i a (.delivered ⟨n', event⟩, (o'.step (env.skip k) (.delivered ⟨n', event⟩)).2) =
        turnEvents i a (.delivered ⟨n, event⟩, (o.step env (.delivered ⟨n, event⟩)).2) := by
  obtain ⟨hok, hstep⟩ := step_live h.live h.aligned hnext
  rw [hstep] at hk ⊢
  have hcounted : Shares (pairKey i a) (o.counted n) (o'.counted n') :=
    h.shares.same rfl rfl rfl rfl rfl rfl
  cases event with
  | ended kind =>
      rw [step_of_ok h.live' h.aligned' (by rfl)]
      exact ⟨⟨hcounted, h.live, h.live', .inr rfl, .inr rfl, h.idle⟩, rfl⟩
  | unit event =>
      have hown := hkey event rfl
      rw [LoopOwner.handle] at hok hk ⊢
      have hleaves := onUnit_leaves env event hok
      have hsame : SameTurn (pairKey i a) ((o.counted n).onUnit env event)
          ((o'.counted n').onUnit (env.skip k) event) := by
        refine hcounted.onUnit (fun tool hin => hown tool hin.unit) hok ?_
        intro hmarked hfresh
        have hzero : (o'.counted n').dispatches = 0 := h.idle hfresh
        rw [hzero, show (o.counted n).dispatches = k from (hk hfresh hmarked).symm]
        rfl
      have hok' : ((o'.counted n').handle (env.skip k) (.unit event)).result = .ok () :=
        hsame.result.trans hok
      have hleaves' := onUnit_leaves (env.skip k) event hok'
      rw [step_of_ok h.live' h.aligned' hok', LoopOwner.handle, hsame.emitted]
      refine ⟨⟨hsame.shares, hleaves.ended.trans h.live, hleaves'.ended.trans h.live', ?_, ?_, ?_⟩,
        rfl⟩
      · right
        rw [hleaves.sequence]
        rfl
      · right
        rw [hleaves'.sequence]
        rfl
      · intro hfresh
        have hbefore : o.dispatched (pairKey i a) = false := by
          by_contra hmarked
          have hmarked : o.dispatched (pairKey i a) = true := by simpa using hmarked
          have hkept := (onUnit_facts env (o.counted n) event).kept hok (pairKey i a) hmarked
          rw [hkept] at hfresh
          cases hfresh
        rcases onUnit_dispatches (env.skip k) (o'.counted n') event with hcount | ⟨tool, hin, hmark⟩
        · rw [hcount]
          exact h.idle hbefore
        · rw [hown tool hin.unit, hsame.shares.dispatched, hfresh] at hmark
          cases hmark

/-- No input of another action has the key text of this one. -/
def Unshared (i : InterpretationId) (a : ToolActionId) (sources : List LoopSource) : Prop :=
  ∀ source ∈ sources, ∀ q, LoopSource.pair source = some q →
    pairKey q.1 q.2 = pairKey i a → q = (i, a)

theorem pair_tool {event : CanonicalUnitEvent} (h : event.snapshot.unit = .tool tool) :
    LoopSource.pair (.event (.unit event)) =
      some (event.snapshot.interpretationId, tool.toolActionId) := by
  unfold LoopSource.pair
  simp only [h]

theorem live_of_run {inputs : List LoopInput} (h : (o.run env inputs).ended = none) :
    o.ended = none := by
  cases hended : o.ended with
  | none => rfl
  | some report =>
      rw [(trace_ended env inputs (by simp [hended])).2.2, hended] at h
      cases h

/-- A mark is never taken back. -/
theorem undispatched_before {input : LoopInput} (hlive : o.ended = none)
    (hnext : (o.step env input).1.ended = none)
    (h : (o.step env input).1.dispatched key = false) : o.dispatched key = false := by
  by_contra hmarked
  have hmarked : o.dispatched key = true := by simpa using hmarked
  cases run_turn env input hlive with
  | continues o₁ emitted hstep hended honce hkept =>
      rw [hstep, hkept key hmarked] at h
      cases h
  | finishes kind hstep =>
      rw [hstep] at hnext
      cases hnext
  | fails o₁ emitted kind hstep =>
      rw [hstep] at hnext
      cases hnext

/-- **The two runs side by side**, by induction on the inputs. -/
theorem Beside.run {k : Nat} (sources : List LoopSource) {o o' : LoopOwner} {n n' : Nat}
    (h : Beside (pairKey i a) o o' n n') (hunshared : Unshared i a sources)
    (hk : o.dispatched (pairKey i a) = false →
      k = dispatchIndex env (pairKey i a) (number n sources) o)
    (hlive : (o.run env (number n sources)).ended = none) :
    (o'.run (env.skip k) (number n' (only i a sources))).ended = none ∧
    Shares (pairKey i a) (o.run env (number n sources))
      (o'.run (env.skip k) (number n' (only i a sources))) ∧
    pairEvents i a (o'.trace (env.skip k) (number n' (only i a sources))) =
      pairEvents i a (o.trace env (number n sources)) := by
  induction sources generalizing o o' n n' with
  | nil => exact ⟨h.live', h.shares, rfl⟩
  | cons source rest ih =>
      have hrest : Unshared i a rest :=
        fun s hs => hunshared s (List.mem_cons_of_mem _ hs)
      have hnext : (o.step env (source.input n)).1.ended = none := live_of_run hlive
      -- the reply index, after this turn
      have hk' : (o.step env (source.input n)).1.dispatched (pairKey i a) = false →
          k = dispatchIndex env (pairKey i a) (number (source.next n) rest)
            (o.step env (source.input n)).1 := by
        intro hafter
        rw [hk (undispatched_before h.live hnext hafter), number, dispatchIndex, hafter]
        rfl
      cases source with
      | cancelled => simp [LoopSource.input, LoopOwner.step, h.live, LoopOwner.finish] at hnext
      | closed => simp [LoopSource.input, LoopOwner.step, h.live, LoopOwner.finish] at hnext
      | status status =>
          have hidle : o.step env (.status status) = (o, []) ∧
              o'.step (env.skip k) (.status status) = (o', []) := by
            cases status with
            | opened => simp [LoopOwner.step, h.live, h.live']
            | closing => simp [LoopOwner.step, h.live, h.live']
            | gap expected observed =>
                simp [LoopSource.input, LoopOwner.step, h.live, LoopOwner.finish] at hnext
            | lost => simp [LoopSource.input, LoopOwner.step, h.live, LoopOwner.finish] at hnext
          have hbeside : Beside (pairKey i a) (o.step env (.status status)).1
              (o'.step (env.skip k) (.status status)).1 n n' := by
            rw [hidle.1, hidle.2]
            exact h
          obtain ⟨hended, hshares, hevents⟩ := ih hbeside hrest hk' hlive
          refine ⟨hended, hshares, ?_⟩
          have hkeep : only i a (.status status :: rest) = .status status :: only i a rest := rfl
          rw [hkeep, number, number, pairEvents_cons, pairEvents_cons]
          exact congrArg (turnEvents i a (.status status, _) ++ ·) hevents
      | event event =>
          by_cases hown : LoopSource.pair (.event event) = none ∨
              LoopSource.pair (.event event) = some (i, a)
          · have hkeep : only i a (.event event :: rest) = .event event :: only i a rest := by
              unfold only
              rw [List.filter_cons, if_pos]
              rcases hown with hnone | hsome
              · rw [hnone]
                rfl
              · rw [hsome]
                simp
            have hkey : ∀ unit, event = .unit unit → ∀ tool, unit.snapshot.unit = .tool tool →
                actionKey unit.snapshot tool = pairKey i a := by
              rintro unit rfl tool htool
              rw [pair_tool htool] at hown
              rcases hown with hnone | hsome
              · cases hnone
              · cases hsome
                rfl
            have hindex : o.dispatched (pairKey i a) = false →
                (o.step env (.delivered ⟨n, event⟩)).1.dispatched (pairKey i a) = true →
                k = o.dispatches := by
              intro hfresh hmarked
              rw [hk hfresh, number, dispatchIndex]
              exact if_pos hmarked
            obtain ⟨hbeside, hturn⟩ := h.own hkey hindex hnext
            obtain ⟨hended, hshares, hevents⟩ := ih hbeside hrest hk' hlive
            rw [hkeep]
            refine ⟨hended, hshares, ?_⟩
            rw [number, number, pairEvents_cons, pairEvents_cons]
            exact congrArg₂ (· ++ ·) hturn hevents
          · -- a tool unit of another action, under another key
            have hdrop : only i a (.event event :: rest) = only i a rest := by
              unfold only
              rw [List.filter_cons, if_neg]
              intro hall
              apply hown
              cases hpair : LoopSource.pair (.event event) with
              | none => exact .inl rfl
              | some q =>
                  rw [hpair] at hall
                  exact .inr (congrArg some (by simpa using hall))
            cases event with
            | ended kind => exact absurd (.inl rfl) hown
            | unit event =>
                have hkey : ∀ tool, event.snapshot.unit = .tool tool →
                    actionKey event.snapshot tool ≠ pairKey i a := by
                  intro tool htool hsame
                  have hq := hunshared _ List.mem_cons_self _ (pair_tool htool) hsame
                  exact hown (.inr ((pair_tool htool).trans (congrArg some hq)))
                obtain ⟨hbeside, hturn⟩ := h.foreign hkey hnext
                obtain ⟨hended, hshares, hevents⟩ := ih hbeside hrest hk' hlive
                rw [hdrop]
                refine ⟨hended, hshares, ?_⟩
                rw [number, pairEvents_cons]
                refine hevents.trans ?_
                exact (congrArg (· ++ _) hturn).symm

/-- As long as the Loop runs, it keeps and emits for the action what it would if
delivered no other action's units. -/
def Isolated (env : LoopEnvironment) (o : LoopOwner) (i : InterpretationId) (a : ToolActionId)
    (sources : List LoopSource) : Prop :=
  (o.run env (number 1 sources)).ended = none →
    ∃ k, (o.run (env.skip k) (number 1 (only i a sources))).ended = none ∧
      (o.run (env.skip k) (number 1 (only i a sources))).actions.lookup (pairKey i a) =
        (o.run env (number 1 sources)).actions.lookup (pairKey i a) ∧
      pairEvents i a (o.trace (env.skip k) (number 1 (only i a sources))) =
        pairEvents i a (o.trace env (number 1 sources))

theorem isolated_of_unshared (env : LoopEnvironment) (run : MonoloopRunId) (loop : LoopId)
    (scope : LoopScope) (limits : LoopLimits) {sources : List LoopSource}
    (h : Unshared i a sources) :
    Isolated env (LoopOwner.new run loop scope limits) i a sources := by
  intro hlive
  have hbeside : Beside (pairKey i a) (LoopOwner.new run loop scope limits)
      (LoopOwner.new run loop scope limits) 1 1 := by
    refine ⟨⟨rfl, rfl, fun _ => rfl, Nat.le_refl _, Nat.le_refl _⟩, rfl, rfl, .inl rfl, .inl rfl, ?_⟩
    intro _
    rfl
  obtain ⟨hended, hshares, hevents⟩ := hbeside.run sources h (fun _ => rfl) hlive
  exact ⟨_, hended, hshares.record, hevents⟩

/-! ## Two pairs with one key -/

/-- A first request of an action. -/
def firstRequest (i : InterpretationId) (a : ToolActionId) : CanonicalUnitEvent :=
  .completed {
    unitId := ⟨"unit"⟩
    unitGeneration := 1
    interpretationId := i
    connectionId := sampleConnection
    externalSessionId := none
    unit := .tool {
      toolActionId := a
      toolName := some "lookup"
      requestState := .ready
      executionState := .notObserved
      resultState := .absent
      requestPayload := some "payload"
      resultPayload := none
      terminalOutcome := none
      waitingFor := none } }

/-- A fresh Loop answers a first request. -/
theorem firstRequest_answered (i : InterpretationId) (a : ToolActionId) :
    ((sampleLoop.counted 1).onUnit sampleEnvironment (firstRequest i a)).result = .ok () ∧
      .toolDispatchRequested a 1 ∈
        ((sampleLoop.counted 1).onUnit sampleEnvironment (firstRequest i a)).emitted :=
  ⟨rfl, List.mem_cons_self⟩

/-- First requests of two pairs. -/
def bothRequests (q : InterpretationId × ToolActionId) (i : InterpretationId) (a : ToolActionId) :
    List LoopSource :=
  [.event (.unit (firstRequest q.1 q.2)), .event (.unit (firstRequest i a))]

/-- A second request with the same key text is taken for a duplicate of the first. -/
theorem bothRequests_silent {q : InterpretationId × ToolActionId}
    (hkey : pairKey q.1 q.2 = pairKey i a) (hne : q ≠ (i, a)) :
    (sampleLoop.run sampleEnvironment (number 1 (bothRequests q i a))).ended = none ∧
      pairEvents i a (sampleLoop.trace sampleEnvironment (number 1 (bothRequests q i a))) = [] := by
  obtain ⟨hok, -⟩ := firstRequest_answered q.1 q.2
  have hleaves := onUnit_leaves sampleEnvironment (firstRequest q.1 q.2) hok
  have hknown : Known (sampleLoop.counted 1) :=
    new_known sampleRun ⟨"loop"⟩ ⟨[], [], [], true⟩ ⟨8, 8⟩
  have hnoted := (onUnit_notes sampleEnvironment (firstRequest q.1 q.2) hknown hok).noted _ ⟨rfl, rfl⟩
  have hsilent : turnEvents i a (.delivered ⟨1, .unit (firstRequest q.1 q.2)⟩,
      ((sampleLoop.counted 1).onUnit sampleEnvironment (firstRequest q.1 q.2)).emitted) = [] := by
    rw [turnEvents_unit]
    split
    · rename_i hi
      by_contra hsome
      obtain ⟨tool, hin, rfl⟩ := onUnit_concerns sampleEnvironment _ _ a hsome
      cases hin.unit
      exact hne (Prod.ext hi rfl)
    · rfl
  have hfirst : sampleLoop.step sampleEnvironment
      (.delivered ⟨1, .unit (firstRequest q.1 q.2)⟩) =
        (((sampleLoop.counted 1).onUnit sampleEnvironment (firstRequest q.1 q.2)).owner,
          ((sampleLoop.counted 1).onUnit sampleEnvironment (firstRequest q.1 q.2)).emitted) :=
    step_of_ok rfl (.inl rfl) hok
  generalize (sampleLoop.counted 1).onUnit sampleEnvironment (firstRequest q.1 q.2) = t at *
  -- the entry of the first request is found under the second's key
  have hsecond := redelivered_step (o := t.owner) (n := 2) sampleEnvironment (firstRequest i a)
    hleaves.ended (.inr (congrArg (· + 1) hleaves.sequence.symm)) (by
      intro tool hin
      cases hin.unit
      show t.owner.dedup.lookup (digKey (pairKey i a) 1) = some 1
      rw [← hkey]
      exact hnoted.1)
  have hinputs : number 1 (bothRequests q i a) = [.delivered ⟨1, .unit (firstRequest q.1 q.2)⟩,
      .delivered ⟨2, .unit (firstRequest i a)⟩] := rfl
  rw [hinputs, pairEvents_cons, pairEvents_cons, LoopOwner.run, LoopOwner.run, hfirst, hsilent,
    hsecond.1, turnEvents_unit]
  refine ⟨hsecond.2.2.1, ?_⟩
  simp [LoopOwner.trace, pairEvents]

theorem bothRequests_only {q : InterpretationId × ToolActionId} (hne : q ≠ (i, a)) :
    only i a (bothRequests q i a) = [.event (.unit (firstRequest i a))] := by
  have hpair : ∀ j b, LoopSource.pair (.event (.unit (firstRequest j b))) = some (j, b) :=
    fun _ _ => rfl
  simp [only, bothRequests, hpair, hne]

theorem firstRequest_alone (i : InterpretationId) (a : ToolActionId) :
    pairEvents i a (sampleLoop.trace sampleEnvironment
      (number 1 [.event (.unit (firstRequest i a))])) ≠ [] := by
  obtain ⟨hok, hmem⟩ := firstRequest_answered i a
  have hstep : sampleLoop.step sampleEnvironment (.delivered ⟨1, .unit (firstRequest i a)⟩) =
      (((sampleLoop.counted 1).onUnit sampleEnvironment (firstRequest i a)).owner,
        ((sampleLoop.counted 1).onUnit sampleEnvironment (firstRequest i a)).emitted) :=
    step_of_ok rfl (.inl rfl) hok
  have hinputs : number 1 [.event (.unit (firstRequest i a))] =
      [.delivered ⟨1, .unit (firstRequest i a)⟩] := rfl
  rw [hinputs, pairEvents_cons, hstep, turnEvents_unit,
    if_pos (show (firstRequest i a).snapshot.interpretationId = i from rfl)]
  have hrequested := List.mem_filter.mpr
    ⟨hmem, show LoopOutputEvent.concerns a (.toolDispatchRequested a 1) = true by
      simp [LoopOutputEvent.concerns]⟩
  exact List.append_ne_nil_of_left_ne_nil (List.ne_nil_of_mem hrequested) _

theorem bothRequests_interfere {q : InterpretationId × ToolActionId}
    (hkey : pairKey q.1 q.2 = pairKey i a) (hne : q ≠ (i, a)) :
    ¬ Isolated sampleEnvironment sampleLoop i a (bothRequests q i a) := by
  intro hisolated
  obtain ⟨hlive, hsilent⟩ := bothRequests_silent hkey hne
  obtain ⟨k, -, -, hevents⟩ := hisolated hlive
  rw [hsilent, bothRequests_only hne] at hevents
  exact firstRequest_alone i a hevents

/-- **An action is isolated from others exactly when none of them has its key
text.** Over all runs that carry the pair `(i, a)` and pairs from `others`, what the
Loop keeps and emits for `(i, a)` does not depend on the others, if and only if
no other pair concatenates to the same key. -/
theorem isolated_iff (i : InterpretationId) (a : ToolActionId)
    (others : Set (InterpretationId × ToolActionId)) :
    (∀ (env : LoopEnvironment) (run : MonoloopRunId) (loop : LoopId) (scope : LoopScope)
      (limits : LoopLimits) (sources : List LoopSource),
      (∀ source ∈ sources, ∀ q, LoopSource.pair source = some q → q = (i, a) ∨ q ∈ others) →
      Isolated env (LoopOwner.new run loop scope limits) i a sources) ↔
    ∀ q ∈ others, pairKey q.1 q.2 = pairKey i a → q = (i, a) := by
  constructor
  · intro h q hq hkey
    by_contra hne
    refine bothRequests_interfere hkey hne (h sampleEnvironment sampleRun ⟨"loop"⟩
      ⟨[], [], [], true⟩ ⟨8, 8⟩ _ ?_)
    intro source hsource p hp
    rcases List.mem_cons.mp hsource with rfl | hsource
    · cases hp
      exact .inr hq
    · cases List.mem_singleton.mp hsource
      cases hp
      exact .inl rfl
  · intro h env run loop scope limits sources hcarried
    apply isolated_of_unshared
    intro source hsource q hq hkey
    rcases hcarried source hsource q hq with hsame | hother
    · exact hsame
    · exact h q hother hkey

/-- Two different pairs with the key `a:b:c`. -/
theorem colliding_pairs :
    ¬ ∀ (env : LoopEnvironment) (run : MonoloopRunId) (loop : LoopId) (scope : LoopScope)
      (limits : LoopLimits) (i : InterpretationId) (a : ToolActionId) (sources : List LoopSource),
      Isolated env (LoopOwner.new run loop scope limits) i a sources := by
  intro h
  exact bothRequests_interfere (i := ⟨"a"⟩) (a := ⟨"b:c"⟩) (q := (⟨"a:b"⟩, ⟨"c"⟩)) (by decide)
    (by decide) (h sampleEnvironment sampleRun ⟨"loop"⟩ ⟨[], [], [], true⟩ ⟨8, 8⟩ _ _ _)

end Monoloop.ToolLoop
