import Monoloop.Interpreter.ToolLifecycle

/-!
# The abrupt end

At an end that is not complete, open tools are told incomplete and no buffered
text becomes a sentence. The loop over the open tools publishes one event for
each, in the order of the map, as far as the receiver takes them
(`published_quarantine`). An error in a chunk skips that loop.
-/

namespace Monoloop.Interpreter

open InPlace Utf8

/-! ## What a run publishes before its end -/

/-- An event of a run that goes on. -/
def Ongoing (e : InterpreterOutputEvent) : Prop := ∃ u, e = .unit u ∧ ∀ s, u ≠ .incomplete s

theorem OtherUnit.ongoing {e : InterpreterOutputEvent} (h : OtherUnit e) : Ongoing e := by
  obtain ⟨s, rfl, -⟩ := h
  exact ⟨_, rfl, by simp⟩

theorem ongoing_signalEvent (isNew : Bool) (signal : ToolSignal) (s : CanonicalUnitSnapshot) :
    Ongoing (.unit (signalEvent isNew signal s)) := by
  refine ⟨_, rfl, ?_⟩
  intro s'
  cases signal <;> cases isNew <;> simp [signalEvent]

/-- The assembly of a run that goes on. -/
structure Running (a : Assembly) : Prop where
  ongoing : ∀ e ∈ a.published, Ongoing e
  unitIds : ∀ id tool, a.tools.lookup id = some tool → tool.unitId = toolUnitId id

theorem running_empty : Running {} where
  ongoing := by simp
  unitIds := by
    intro id tool h
    cases h

theorem Running.aside {a a' : Assembly} (h : Running a) (haside : Aside a a') : Running a' where
  ongoing := by
    obtain ⟨out, hout, hother⟩ := haside.published
    rw [hout]
    intro e he
    rcases List.mem_append.mp he with he | he
    · exact h.ongoing e he
    · exact (hother e he).ongoing
  unitIds := by
    rw [haside.tools]
    exact h.unitIds

theorem Running.receiving_unitId {a : Assembly} (h : Running a) (id : ToolActionId) :
    (a.receiving id).unitId = toolUnitId id := by
  unfold Assembly.receiving
  cases hl : a.tools.lookup id with
  | none => rfl
  | some tool => exact h.unitIds id tool hl

/-- A tool is stored under the unit id of its action. -/
theorem Running.put {a : Assembly} (h : Running a) {id : ToolActionId} {tool : ToolAssembler}
    (hunit : tool.unitId = toolUnitId id) : Running { a with tools := a.tools.put id tool } where
  ongoing := h.ongoing
  unitIds := by
    intro id' tool' hl
    rw [HashMap.lookup_put] at hl
    split at hl
    · rename_i hid
      cases hl
      rw [hid]
      exact hunit
    · exact h.unitIds id' tool' hl

theorem Running.publish {a : Assembly} (h : Running a) {e : InterpreterOutputEvent}
    (he : Ongoing e) : Running { a with published := a.published ++ [e] } where
  ongoing := by
    intro e' he'
    rcases List.mem_append.mp he' with he' | he'
    · exact h.ongoing e' he'
    · rw [List.mem_singleton.mp he']
      exact he
  unitIds := h.unitIds

section Run

variable (serde : SerdeJson) (orders : Iteration) (room : Option Nat) (request : StartInterpretation)

theorem Running.onTool {a : Assembly} (h : Running a) (id : ToolActionId) (signal : ToolSignal) :
    Running (call (onTool room request.limits id signal) a).2 := by
  have hreceived : ((a.receiving id).receive signal).unitId = toolUnitId id :=
    (ToolAssembler.receive_unitId _ _).trans (h.receiving_unitId id)
  rcases onTool_cases room request.limits a id signal with
    ⟨-, e, hcall⟩ | ⟨-, e, hcall⟩ | ⟨-, e, hcall⟩ | ⟨-, hcall⟩
  · rw [hcall]
    exact h
  · rw [hcall]
    exact h.put (h.receiving_unitId id)
  · rw [hcall]
    exact h.put hreceived
  · rw [hcall]
    exact (h.put hreceived).publish (ongoing_signalEvent _ _ _)

theorem Running.ops {a : Assembly} (h : Running a) (ops : List EngineOp) :
    Running (call (forEach (Owner.applyOp orders room request) ops) a).2 := by
  apply forEach_invariant h
  intro p op q b _ _ hb
  by_cases htool : ∃ id signal, op = .fragment (.tool id signal)
  · obtain ⟨id, signal, rfl⟩ := htool
    exact hb.onTool room request id signal
  · apply hb.aside
    apply aside_applyOp
    intro id signal hop
    exact htool ⟨id, signal, hop⟩

/-! ## The tools at the abrupt end -/

/-- The output, the tools and the counters of units are as they were. -/
structure Quiet (a b : Assembly) : Prop where
  published : b.published = a.published
  tools : b.tools = a.tools
  laneOrdinals : b.laneOrdinals = a.laneOrdinals
  nextUnit : b.nextUnit = a.nextUnit
  sentenceCount : b.sentenceCount = a.sentenceCount

theorem Quiet.refl (a : Assembly) : Quiet a a := ⟨rfl, rfl, rfl, rfl, rfl⟩

theorem Quiet.trans {a b c : Assembly} (h : Quiet a b) (h' : Quiet b c) : Quiet a c :=
  ⟨h'.published.trans h.published, h'.tools.trans h.tools, h'.laneOrdinals.trans h.laneOrdinals,
    h'.nextUnit.trans h.nextUnit, h'.sentenceCount.trans h.sentenceCount⟩

/-- A tool without a terminal outcome. -/
def Unresolved (a : Assembly) (id : ToolActionId) : Prop :=
  ∃ tool, a.tools.lookup id = some tool ∧ tool.terminal = none

/-- What a tool is told at the abrupt end. -/
def interruptEvent (a : Assembly) (id : ToolActionId) : Option CanonicalUnitEvent :=
  ((a.tools.lookup id).filter fun tool => tool.terminal.isNone).map fun tool =>
    .incomplete (a.toolSnapshot tool.interrupt)

/-- What the receiver takes of some more events. -/
def accepted (a : Assembly) (events : List CanonicalUnitEvent) : List InterpreterOutputEvent :=
  match room with
  | none => events.map .unit
  | some n => (events.take (n - a.published.length)).map .unit

theorem interruptEvent_congr {a a' : Assembly} (hlanes : a'.laneOrdinals = a.laneOrdinals)
    {id : ToolActionId} (hl : a'.tools.lookup id = a.tools.lookup id) :
    interruptEvent a' id = interruptEvent a id := by
  have hsnapshot : ∀ tool, a'.toolSnapshot tool = a.toolSnapshot tool := by
    intro tool
    simp only [Assembly.toolSnapshot, Assembly.snapshot, Assembly.laneOrdinal, hlanes]
  simp only [interruptEvent, hl, hsnapshot]

/-- One tool: resolved and left alone, or told as long as somebody receives. -/
theorem quarantineTool_cases (id : ToolActionId) (a : Assembly) :
    (interruptEvent a id = none ∧ call (quarantineTool room id) a = (.ok (), a)) ∨
    ∃ tool event, a.tools.lookup id = some tool ∧ interruptEvent a id = some event ∧
      ((Gone room a ∧ call (quarantineTool room id) a =
          (.error .backpressure, { a with tools := a.tools.put id tool.interrupt })) ∨
        (¬ Gone room a ∧ call (quarantineTool room id) a =
          (.ok (), { a with
            tools := a.tools.put id tool.interrupt
            published := a.published ++ [.unit event] }))) := by
  unfold quarantineTool
  rw [call_get_bind]
  cases hl : a.tools.lookup id with
  | none => exact .inl ⟨by simp [interruptEvent, hl], rfl⟩
  | some tool =>
      cases hterm : tool.terminal with
      | some outcome => exact .inl ⟨by simp [interruptEvent, hl, hterm], by simp [hterm]⟩
      | none =>
          refine .inr ⟨tool, .incomplete (a.toolSnapshot tool.interrupt), rfl,
            by simp [interruptEvent, hl, hterm], ?_⟩
          simp only [hterm, Option.isSome_none, Bool.false_eq_true, if_false, setTool,
            call_modify_bind]
          exact publish_cases room (.unit (.incomplete (a.toolSnapshot tool.interrupt)))
            { a with tools := a.tools.put id tool.interrupt }

/-- **The loop over the tools** tells the open ones, as far as the receiver
takes it. -/
theorem published_quarantineTools {ids : List ToolActionId} (hnodup : ids.Nodup) (a : Assembly) :
    (call (forEach (quarantineTool room) ids) a).2.published =
      a.published ++ accepted room a (ids.filterMap (interruptEvent a)) := by
  induction ids generalizing a with
  | nil => cases room <;> simp [accepted]
  | cons id ids ih =>
      obtain ⟨hid, hids⟩ := List.nodup_cons.mp hnodup
      rw [call_forEach_cons]
      rcases quarantineTool_cases room id a with
        ⟨hnone, hcall⟩ | ⟨tool, event, -, hevent, ⟨hgone, hcall⟩ | ⟨hgo, hcall⟩⟩
      · rw [hcall, List.filterMap_cons_none hnone]
        exact ih hids a
      · -- the loop stops, and the receiver takes nothing
        rw [hcall, List.filterMap_cons_some hevent]
        cases room with
        | none => cases hgone
        | some n =>
            simp only [Gone, Option.any_some, decide_eq_true_eq] at hgone
            simp [accepted, Nat.sub_eq_zero_of_le hgone]
      · rw [hcall, List.filterMap_cons_some hevent]
        simp only
        rw [ih hids]
        -- the other tools are as they were
        have hrest : ids.filterMap (interruptEvent { a with
            tools := a.tools.put id tool.interrupt
            published := a.published ++ [.unit event] }) = ids.filterMap (interruptEvent a) := by
          apply List.filterMap_congr
          intro id' hid'
          apply interruptEvent_congr
          · rfl
          · have hne : id' ≠ id := by
              rintro rfl
              exact hid hid'
            rw [HashMap.lookup_put, if_neg hne]
        rw [hrest]
        cases room with
        | none => simp [accepted]
        | some n =>
            simp only [Gone, Option.any_some, decide_eq_true_eq] at hgo
            have hsub : n - a.published.length = n - (a.published.length + 1) + 1 := by omega
            simp [accepted, hsub]

/-- The tools at the end are those of the loop, open or not as before. -/
theorem unresolved_quarantineTools (ids : List ToolActionId) (a : Assembly) (id : ToolActionId) :
    Unresolved (call (forEach (quarantineTool room) ids) a).2 id ↔ Unresolved a id := by
  have hmoves : Moves (fun a a' => ∀ id, Unresolved a' id ↔ Unresolved a id)
      (forEach (quarantineTool room) ids) := by
    apply Moves.forEach
    · intro a id
      exact Iff.rfl
    · intro a b c hab hbc id
      exact (hbc id).trans (hab id)
    · intro id _ a id'
      have hput : ∀ tool published, a.tools.lookup id = some tool →
          (Unresolved { a with tools := a.tools.put id tool.interrupt, published } id' ↔
            Unresolved a id') := by
        intro tool published hl
        unfold Unresolved
        rw [HashMap.lookup_put]
        by_cases hid : id' = id
        · subst hid
          rw [if_pos rfl, hl]
          simp [ToolAssembler.interrupt]
        · rw [if_neg hid]
      rcases quarantineTool_cases room id a with
        ⟨-, hcall⟩ | ⟨tool, event, hl, -, ⟨-, hcall⟩ | ⟨-, hcall⟩⟩
      · rw [hcall]
      · rw [hcall]
        exact hput tool a.published hl
      · rw [hcall]
        exact hput tool _ hl
  exact hmoves a id

/-- Dropping unresolved text does not fail, and touches no output. -/
theorem call_takeUnresolveds (channels : List TextChannel) (a : Assembly) :
    ∃ b, call (forEach takeUnresolved channels) a = (.ok (), b) ∧ Quiet a b := by
  induction channels generalizing a with
  | nil => exact ⟨a, rfl, .refl a⟩
  | cons channel channels ih =>
      have hone : ∃ b, call (takeUnresolved channel) a = (.ok (), b) ∧ Quiet a b := by
        unfold takeUnresolved
        rw [call_get_bind]
        split
        · exact ⟨a, rfl, .refl a⟩
        · split
          · exact ⟨a, rfl, .refl a⟩
          · exact ⟨_, rfl, rfl, rfl, rfl, rfl, rfl⟩
      obtain ⟨b, hb, hquiet⟩ := hone
      obtain ⟨c, hc, hquiet'⟩ := ih b
      refine ⟨c, ?_, hquiet.trans hquiet'⟩
      rw [call_forEach_cons, hb]
      exact hc

/-- What the open tools are told, in the order of the map. -/
def interruptEvents (a : Assembly) : List CanonicalUnitEvent :=
  (orders.tools.keys a.tools).filterMap (interruptEvent a)

/-- **The quarantine** publishes the events of the open tools and nothing else. -/
theorem call_quarantine (frameBytes : Nat) (a : Assembly) :
    (call (Owner.quarantine orders room frameBytes) a).2.published =
        a.published ++ accepted room a (interruptEvents orders a) ∧
      ∀ id, Unresolved (call (Owner.quarantine orders room frameBytes) a).2 id ↔
        Unresolved a id := by
  obtain ⟨b, hb, hpublished, htools, hlanes, -, -⟩ :=
    call_takeUnresolveds (orders.channels.keys a.channels) a
  have hcall : call (Owner.quarantine orders room frameBytes) a =
      call (forEach (quarantineTool room) (orders.tools.keys b.tools))
        { b with unresolvedBytesAtEnd := b.unresolvedBytesAtEnd + frameBytes } := by
    unfold Owner.quarantine
    rw [call_get_bind, call_bind, hb]
    rfl
  have hnodup : (orders.tools.keys b.tools).Nodup := orders.tools.nodup_keys b.tools
  rw [hcall]
  constructor
  · rw [published_quarantineTools room hnodup,
      show orders.tools.keys b.tools = orders.tools.keys a.tools by rw [htools]]
    have hevents : (orders.tools.keys a.tools).filterMap (interruptEvent
        { b with unresolvedBytesAtEnd := b.unresolvedBytesAtEnd + frameBytes }) =
        interruptEvents orders a := by
      apply List.filterMap_congr
      intro id _
      apply interruptEvent_congr
      · exact hlanes
      · exact congrArg (AList.lookup id) htools
    rw [hevents]
    show b.published ++ accepted room _ _ = _
    rw [hpublished]
    cases room with
    | none => rfl
    | some n => rfl
  · intro id
    rw [unresolved_quarantineTools]
    unfold Unresolved
    rw [htools]

theorem interruptEvent_isSome {a : Assembly} {id : ToolActionId} :
    (interruptEvent a id).isSome = true ↔ Unresolved a id := by
  unfold interruptEvent Unresolved
  cases hl : a.tools.lookup id with
  | none => simp
  | some tool => cases hterm : tool.terminal <;> simp [hterm]

/-- As many events as there are open tools. -/
theorem length_interruptEvents (a : Assembly) :
    (interruptEvents orders a).length =
      HashMap.countWhere a.tools fun tool => tool.terminal.isNone := by
  unfold interruptEvents
  rw [List.length_filterMap_eq_countP, HashMap.countWhere]
  have hperm : (orders.tools.keys a.tools).Perm a.tools.keys := orders.tools.perm _
  rw [hperm.countP_eq]
  apply List.countP_congr
  intro id _
  unfold interruptEvent
  cases hl : a.tools.lookup id with
  | none => simp
  | some tool => cases hterm : tool.terminal <;> simp [hterm]

variable {orders}

/-- Of the events told, a tool's unit has the tool's own. -/
theorem toolEvents_interruptEvents {a : Assembly} (h : Running a) (id : ToolActionId) :
    toolEvents id ((interruptEvents orders a).map .unit) = (interruptEvent a id).toList := by
  have hown : ∀ id' event, interruptEvent a id' = some event →
      event.snapshot.unitId = toolUnitId id' := by
    intro id' event hevent
    unfold interruptEvent at hevent
    obtain ⟨tool, htool, rfl⟩ := Option.map_eq_some_iff.mp hevent
    exact h.unitIds id' tool (Option.filter_eq_some_iff.mp htool).1
  have hmem : interruptEvent a id ≠ none → id ∈ orders.tools.keys a.tools := by
    intro hsome
    obtain ⟨tool, hl, -⟩ := interruptEvent_isSome.mp (Option.isSome_iff_ne_none.mpr hsome)
    exact (orders.tools.mem_keys a.tools id).mpr ⟨tool, hl⟩
  have hnodup : (orders.tools.keys a.tools).Nodup := orders.tools.nodup_keys a.tools
  unfold interruptEvents
  revert hmem
  generalize orders.tools.keys a.tools = ids at hnodup
  intro hmem
  induction ids with
  | nil =>
      cases hevent : interruptEvent a id with
      | none => rfl
      | some event => exact absurd (hmem (by simp [hevent])) (by simp)
  | cons id' ids ih =>
      obtain ⟨hid', hids⟩ := List.nodup_cons.mp hnodup
      by_cases hid : id' = id
      · subst hid
        -- the tools after it are others
        have hrest : toolEvents id' ((ids.filterMap (interruptEvent a)).map .unit) = [] := by
          apply List.filterMap_eq_nil_iff.mpr
          intro e he
          obtain ⟨event, hevent, rfl⟩ := List.mem_map.mp he
          obtain ⟨id'', hid'', hsome⟩ := List.mem_filterMap.mp hevent
          apply if_neg
          rw [hown id'' event hsome]
          intro heq
          rw [toolUnitId_inj heq] at hid''
          exact hid' hid''
        cases hevent : interruptEvent a id' with
        | none => rw [List.filterMap_cons_none hevent, hrest, Option.toList_none]
        | some event =>
            rw [List.filterMap_cons_some hevent, List.map_cons]
            have hmine : eventOf id' (.unit event) = some event := if_pos (hown id' event hevent)
            rw [toolEvents, List.filterMap_cons_some hmine,
              show List.filterMap (eventOf id') _ = [] from hrest, Option.toList_some]
      · have hrest := ih hids (by
          intro hsome
          rcases List.mem_cons.mp (hmem hsome) with heq | hin
          · exact absurd heq.symm hid
          · exact hin)
        cases hevent : interruptEvent a id' with
        | none => rw [List.filterMap_cons_none hevent, hrest]
        | some event =>
            rw [List.filterMap_cons_some hevent, List.map_cons]
            have hother : eventOf id (.unit event) = none := by
              apply if_neg
              rw [hown id' event hevent]
              intro heq
              exact hid (toolUnitId_inj heq)
            rw [toolEvents, List.filterMap_cons_none hother]
            exact hrest

end Run

/-! ## What an abrupt end owes -/

/-- A tool's unit is told incomplete once, at its end. -/
def ToldIncomplete (events : List CanonicalUnitEvent) : Prop :=
  ∃ before s, events = before ++ [.incomplete s] ∧ s.unitState = .incomplete ∧
    ∀ s', .incomplete s' ∉ before

theorem Running.not_incomplete {a : Assembly} (h : Running a) (id : ToolActionId)
    (s : CanonicalUnitSnapshot) : .incomplete s ∉ toolEvents id a.published := by
  intro hs
  obtain ⟨e, he, heq⟩ := List.mem_filterMap.mp hs
  obtain ⟨u, rfl, hu⟩ := h.ongoing e he
  simp only [eventOf] at heq
  split at heq
  · cases heq
    exact hu s rfl
  · cases heq

/-- Everything is taken while there is room for it. -/
theorem accepted_all {room : Option Nat} {a : Assembly} {events : List CanonicalUnitEvent}
    (h : ∀ n ∈ room, events.length ≤ n - a.published.length) :
    accepted room a events = events.map .unit := by
  cases room with
  | none => rfl
  | some n => rw [accepted, List.take_of_length_le (h n rfl)]

/-- Without room, some open tool is told nothing. -/
theorem accepted_short {orders : Iteration} {a : Assembly} (h : Running a) {n : Nat}
    (hn : n - a.published.length < (interruptEvents orders a).length) :
    ∃ id, Unresolved a id ∧ toolEvents id (accepted (some n) a (interruptEvents orders a)) = [] := by
  let k := n - a.published.length
  obtain ⟨id, -, hevent⟩ := List.mem_filterMap.mp (List.getElem_mem hn)
  refine ⟨id, interruptEvent_isSome.mp (by rw [hevent]; rfl), ?_⟩
  -- the tool's only event is not among the first ones
  have hall := @toolEvents_interruptEvents orders a h id
  rw [← List.take_append_drop k (interruptEvents orders a), List.map_append, toolEvents_append,
    List.drop_eq_getElem_cons hn, hevent, List.map_cons] at hall
  have hmine : eventOf id (.unit (interruptEvents orders a)[k]) =
      some (interruptEvents orders a)[k] := by
    apply if_pos
    obtain ⟨tool, htool, htold⟩ := Option.map_eq_some_iff.mp hevent
    rw [← htold]
    exact h.unitIds id tool (Option.filter_eq_some_iff.mp htool).1
  rw [show toolEvents id (.unit (interruptEvents orders a)[k] :: _) = _ :: _ from
    List.filterMap_cons_some hmine] at hall
  have hlength := congrArg List.length hall
  simp only [List.length_append, List.length_cons, Option.toList_some, List.length_nil] at hlength
  show toolEvents id (((interruptEvents orders a).take k).map .unit) = []
  apply List.eq_nil_of_length_eq_zero
  omega

/-- No open tool has a complete request. -/
def NoneReady (a : Assembly) : Prop :=
  ∀ id tool, a.tools.lookup id = some tool → tool.terminal = none → tool.requestState ≠ .ready

/-- The receiver takes one more event for each open tool. -/
def TakesOpen (room : Option Nat) (a : Assembly) : Prop :=
  ∀ n ∈ room,
    HashMap.countWhere a.tools (fun tool => tool.terminal.isNone) ≤ n - a.published.length

theorem unitState_interrupt {tool : ToolAssembler} (h : tool.terminal = none) :
    tool.interrupt.unitState = .incomplete ↔ tool.requestState ≠ .ready := by
  unfold ToolAssembler.unitState ToolAssembler.interrupt
  simp only [h, Option.isSome_none, Bool.false_eq_true, if_false]
  by_cases hready : tool.requestState = .ready <;> simp [hready]

/-- **The open tools are told incomplete** exactly when none is ready and the
receiver takes all they are told. -/
theorem told_iff {orders : Iteration} {room : Option Nat} {a : Assembly} (h : Running a) :
    (∀ id, Unresolved a id → ToldIncomplete (toolEvents id
      (a.published ++ accepted room a (interruptEvents orders a)))) ↔
      NoneReady a ∧ TakesOpen room a := by
  have hall : TakesOpen room a → ∀ id, toolEvents id
      (a.published ++ accepted room a (interruptEvents orders a)) =
        toolEvents id a.published ++ (interruptEvent a id).toList := by
    intro htakes id
    rw [accepted_all (by rw [length_interruptEvents]; exact htakes), toolEvents_append,
      toolEvents_interruptEvents h]
  have hevent : ∀ {id tool}, a.tools.lookup id = some tool → tool.terminal = none →
      interruptEvent a id = some (.incomplete (a.toolSnapshot tool.interrupt)) := by
    intro id tool hl hterm
    simp [interruptEvent, hl, hterm]
  constructor
  · intro htold
    have htakes : TakesOpen room a := by
      intro n hn
      rw [← length_interruptEvents orders]
      apply Nat.le_of_not_lt
      intro hlt
      obtain ⟨id, hid, hnone⟩ := accepted_short h hlt
      obtain ⟨before, s, heq, -, -⟩ := htold id hid
      rw [hn, toolEvents_append, hnone, List.append_nil] at heq
      exact h.not_incomplete id s (by rw [heq]; simp)
    refine ⟨?_, htakes⟩
    intro id tool hl hterm
    obtain ⟨before, s, heq, hstate, -⟩ := htold id ⟨tool, hl, hterm⟩
    rw [hall htakes, hevent hl hterm, Option.toList_some] at heq
    obtain ⟨-, hlast⟩ := List.append_inj' heq rfl
    cases hlast
    exact (unitState_interrupt hterm).mp hstate
  · rintro ⟨hready, htakes⟩ id ⟨tool, hl, hterm⟩
    refine ⟨toolEvents id a.published, a.toolSnapshot tool.interrupt, ?_, ?_, ?_⟩
    · rw [hall htakes, hevent hl hterm, Option.toList_some]
    · exact (unitState_interrupt hterm).mpr (hready id tool hl hterm)
    · exact h.not_incomplete id

/-! ## Sentences -/

def CanonicalUnit.isText : CanonicalUnit → Bool
  | .text _ _ _ _ => true
  | _ => false

def isSentence : InterpreterOutputEvent → Bool
  | .unit u => u.snapshot.unit.isText
  | .ended _ => false

def sentencesOf (published : List InterpreterOutputEvent) : List InterpreterOutputEvent :=
  published.filter isSentence

theorem sentencesOf_append (p q : List InterpreterOutputEvent) :
    sentencesOf (p ++ q) = sentencesOf p ++ sentencesOf q := List.filter_append ..

theorem sentencesOf_concat {p : List InterpreterOutputEvent} {e : InterpreterOutputEvent}
    (h : isSentence e = false) : sentencesOf (p ++ [e]) = sentencesOf p := by
  rw [sentencesOf_append, sentencesOf, sentencesOf, List.filter_cons_of_neg (by simp [h]),
    List.filter_nil, List.append_nil]

/-- The quarantine emits no sentence. -/
theorem sentencesOf_accepted (orders : Iteration) (room : Option Nat) (a : Assembly) :
    sentencesOf (accepted room a (interruptEvents orders a)) = [] := by
  have hnone : ∀ event ∈ interruptEvents orders a, isSentence (.unit event) = false := by
    intro event hevent
    obtain ⟨id, -, hsome⟩ := List.mem_filterMap.mp hevent
    obtain ⟨tool, -, rfl⟩ := Option.map_eq_some_iff.mp hsome
    rfl
  apply List.filter_eq_nil_iff.mpr
  intro e he
  have hmem : ∃ event ∈ interruptEvents orders a, .unit event = e := by
    cases room with
    | none => exact List.mem_map.mp he
    | some n =>
        obtain ⟨event, hevent, heq⟩ := List.mem_map.mp he
        exact ⟨event, List.mem_of_mem_take hevent, heq⟩
  obtain ⟨event, hevent, rfl⟩ := hmem
  rw [hnone event hevent]
  exact Bool.false_ne_true

/-- Sentences are published as long as somebody receives, and there is no other
error. -/
structure Sealed (room : Option Nat) (a : Assembly)
    (result : Except InterpreterError Unit × Assembly) : Prop where
  published : ∃ out, result.2.published = a.published ++ out ∧ ∀ e ∈ out, isSentence e = true
  gone : Gone room a → result.2.published = a.published
  failed : ∀ e, result.1 = .error e → Gone room result.2

def Seals (room : Option Nat) (method : Assembling) : Prop := ∀ a, Sealed room a (call method a)

section Seals

variable {room : Option Nat}

theorem seals_pure : Seals room (pure ()) := by
  intro a
  refine ⟨⟨[], (List.append_nil _).symm, by simp⟩, fun _ => rfl, ?_⟩
  intro e he
  cases he

theorem seals_get {f : Assembly → Assembling} (h : ∀ a, Seals room (f a)) :
    Seals room (get >>= f) := by
  intro a
  rw [call_get_bind]
  exact h a a

theorem seals_modify {g : Assembly → Assembly} (hpublished : ∀ a, (g a).published = a.published) :
    Seals room (modify g) := by
  intro a
  refine ⟨⟨[], ?_, by simp⟩, fun _ => hpublished a, ?_⟩
  · rw [List.append_nil]
    exact hpublished a
  · intro e he
    cases he

theorem seals_bind {m : Assembling} {f : Unit → Assembling} (h : Seals room m)
    (hf : ∀ u, Seals room (f u)) : Seals room (m >>= f) := by
  intro a
  have hm := h a
  rw [call_bind]
  rcases hcall : call m a with ⟨e | u, b⟩
  · rw [hcall] at hm
    exact hm
  · rw [hcall] at hm
    have hrest := hf u b
    obtain ⟨out, hout, hall⟩ := hm.published
    obtain ⟨out', hout', hall'⟩ := hrest.published
    replace hout : b.published = a.published ++ out := hout
    refine ⟨⟨out ++ out', ?_, ?_⟩, ?_, hrest.failed⟩
    · show (call (f u) b).2.published = _
      rw [hout', hout, List.append_assoc]
    · intro e he
      rcases List.mem_append.mp he with he | he
      · exact hall e he
      · exact hall' e he
    · intro hgone
      have hsame : b.published = a.published := hm.gone hgone
      exact (hrest.gone (hgone.mono (Nat.le_of_eq (by rw [hsame])))).trans hsame

theorem seals_forEach {α : Type} {f : α → Assembling} (xs : List α) (h : ∀ x, Seals room (f x)) :
    Seals room (forEach f xs) := by
  induction xs with
  | nil => exact seals_pure
  | cons x xs ih => exact seals_bind (h x) (fun _ => ih)

theorem seals_publish {event : InterpreterOutputEvent} (h : isSentence event = true) :
    Seals room (publish room event) := by
  intro a
  rcases publish_cases room event a with ⟨hgone, hcall⟩ | ⟨hgo, hcall⟩
  · rw [hcall]
    exact ⟨⟨[], (List.append_nil _).symm, by simp⟩, fun _ => rfl, fun _ _ => hgone⟩
  · rw [hcall]
    refine ⟨⟨[event], rfl, ?_⟩, fun hgone => absurd hgone hgo, ?_⟩
    · intro e he
      rw [List.mem_singleton.mp he]
      exact h
    · intro e he
      cases he

theorem seals_emitSentence (channel : TextChannel) (content : Str) :
    Seals room (emitSentence room channel content) :=
  seals_get (fun _ => seals_bind (seals_modify (fun _ => rfl))
    (fun _ => seals_get (fun _ => seals_bind (seals_modify (fun _ => rfl))
      (fun _ => seals_publish rfl))))

theorem seals_sealChannel (channel : TextChannel) : Seals room (sealChannel room channel) := by
  refine seals_get (fun a => ?_)
  split
  · exact seals_pure
  · exact seals_bind (seals_modify (fun _ => rfl))
      (fun _ => seals_forEach _ (seals_emitSentence channel))

theorem seals_sealTextChannels (channelOrder : HashMap.IterOrder TextChannel) :
    Seals room (sealTextChannels room channelOrder) :=
  seals_get (fun _ => seals_forEach _ seals_sealChannel)

/-- **Sealing that fails** has emitted no sentence exactly when nobody received
from the start. -/
theorem sentencesOf_sealTextChannels {channelOrder : HashMap.IterOrder TextChannel}
    {a b : Assembly} {e : InterpreterError}
    (h : call (sealTextChannels room channelOrder) a = (.error e, b)) :
    sentencesOf b.published = sentencesOf a.published ↔ Gone room a := by
  have hseals : Sealed room a _ := seals_sealTextChannels channelOrder a
  rw [h] at hseals
  obtain ⟨out, hout, hall⟩ := hseals.published
  replace hout : b.published = a.published ++ out := hout
  constructor
  · intro hsame
    rw [hout, sentencesOf_append] at hsame
    have hnil : sentencesOf out = [] := List.append_right_eq_self.mp hsame
    rw [show sentencesOf out = out from List.filter_eq_self.mpr hall] at hnil
    have hgone : Gone room b := hseals.failed e rfl
    apply hgone.mono
    rw [hout, hnil, List.append_nil]
  · intro hgone
    rw [show b.published = a.published from hseals.gone hgone]

end Seals

/-! ## Runs -/

/-- **An abrupt end** tells every open tool incomplete, once and before the end,
and makes no sentence of text that the chunks left in a buffer. -/
structure EndsIncomplete (ingested final : Assembly) : Prop where
  told : ∀ id, Unresolved final id → ToldIncomplete (toolEvents id final.published)
  endedLast : ∀ p report q, final.published = p ++ .ended report :: q → q = []
  sentences : sentencesOf final.published = sentencesOf ingested.published

section Run

variable (serde : SerdeJson) (orders : Iteration) (room : Option Nat) (request : StartInterpretation)

/-- The receiver does not go away between two sentences of a clean end. -/
def SealsThrough (o : Owner) : Prop :=
  ∀ ops d b, o.decoder.sealOps serde orders.calls request.family = (.ok ops, d) →
    call (forEach (Owner.applyOp orders room request) ops) o.assembly = (.ok (), b) →
    ¬ Gone room b → (call (sealTextChannels room orders.channels) b).1 = .ok ()

/-- The quarantine reaches what it is for: no tool is open after an error in a
chunk; elsewhere no open tool has a complete request and the receiver stays. -/
def QuarantineCovers (cmds : List InputCmd) : Prop :=
  match (Owner.new request).ingestAll serde orders room request (chunksOf cmds) with
  | (.error _, o) => ∀ id, ¬ Unresolved o.assembly id
  | (.ok (), o) =>
      let closing := if stopOf cmds = .finishClean then (o.sealClean serde orders room request).2 else o
      NoneReady closing.assembly ∧ TakesOpen room closing.assembly ∧
        (stopOf cmds = .finishClean → SealsThrough serde orders room request o)

variable {serde orders room request}

theorem endedLast_of_ongoing {p out : List InterpreterOutputEvent} (h : ∀ e ∈ p, ∃ u, e = .unit u)
    (hout : out = [] ∨ ∃ report, out = [.ended report]) :
    ∀ p' report q, p ++ out = p' ++ .ended report :: q → q = [] := by
  intro p' report q heq
  rcases List.append_eq_append_iff.mp heq with ⟨r, rfl, hr⟩ | ⟨r, rfl, hr⟩
  · rcases hout with rfl | ⟨report', rfl⟩
    · simp at hr
    · cases r with
      | nil =>
          obtain ⟨-, hq⟩ := List.cons.inj hr
          exact hq.symm
      | cons x r =>
          obtain ⟨-, hnil⟩ := List.cons.inj hr
          simp at hnil
  · cases r with
    | nil =>
        rcases hout with rfl | ⟨report', rfl⟩
        · simp at hr
        · obtain ⟨-, hq⟩ := List.cons.inj hr
          exact hq
    | cons x r =>
        -- what was published before the end is no end
        obtain ⟨rfl, -⟩ := List.cons.inj hr
        obtain ⟨u, hu⟩ := h _ (List.mem_append_right _ List.mem_cons_self)
        cases hu

theorem sentencesOf_ended {out : List InterpreterOutputEvent}
    (hout : out = [] ∨ ∃ report, out = [.ended report]) : sentencesOf out = [] := by
  rcases hout with rfl | ⟨report, rfl⟩
  · rfl
  · rfl

theorem toolEvents_ended {out : List InterpreterOutputEvent}
    (hout : out = [] ∨ ∃ report, out = [.ended report]) (id : ToolActionId) :
    toolEvents id out = [] := by
  rcases hout with rfl | ⟨report, rfl⟩
  · rfl
  · rfl

/-- An end with a quarantine. -/
theorem quarantineAndFinish_iff {c : Owner} (h : Running c.assembly) (ingested : Assembly)
    (kind : InterpretationEndKind) :
    EndsIncomplete ingested (c.quarantineAndFinish orders room kind).assembly ↔
      NoneReady c.assembly ∧ TakesOpen room c.assembly ∧
        sentencesOf c.assembly.published = sentencesOf ingested.published := by
  obtain ⟨hpublished, hopen⟩ := call_quarantine orders room c.decoder.frameBuf.length c.assembly
  obtain ⟨htools, out, hout, hended⟩ :=
    @assembly_finish room (c.quarantinePartials orders room).2 kind
  have hfinal : (c.quarantineAndFinish orders room kind).assembly.published =
      c.assembly.published ++ accepted room c.assembly (interruptEvents orders c.assembly) ++ out := by
    rw [← hpublished]
    exact hout
  have hunresolved : ∀ id, Unresolved (c.quarantineAndFinish orders room kind).assembly id ↔
      Unresolved c.assembly id := by
    intro id
    rw [← hopen id]
    unfold Unresolved
    rw [show (c.quarantineAndFinish orders room kind).assembly.tools = _ from htools]
    rfl
  have hunits : ∀ e ∈ c.assembly.published ++
      accepted room c.assembly (interruptEvents orders c.assembly), ∃ u, e = .unit u := by
    intro e he
    rcases List.mem_append.mp he with he | he
    · obtain ⟨u, hu, -⟩ := h.ongoing e he
      exact ⟨u, hu⟩
    · cases room with
      | none =>
          obtain ⟨u, -, hu⟩ := List.mem_map.mp he
          exact ⟨u, hu.symm⟩
      | some n =>
          obtain ⟨u, -, hu⟩ := List.mem_map.mp he
          exact ⟨u, hu.symm⟩
  have htold : (∀ id, Unresolved (c.quarantineAndFinish orders room kind).assembly id →
      ToldIncomplete (toolEvents id (c.quarantineAndFinish orders room kind).assembly.published)) ↔
      NoneReady c.assembly ∧ TakesOpen room c.assembly := by
    rw [← @told_iff orders room c.assembly h]
    apply forall_congr'
    intro id
    rw [hunresolved, hfinal, toolEvents_append _ _ out, toolEvents_ended hended, List.append_nil]
  have hsentences : sentencesOf (c.quarantineAndFinish orders room kind).assembly.published =
      sentencesOf c.assembly.published := by
    rw [hfinal, sentencesOf_append, sentencesOf_append, sentencesOf_accepted,
      sentencesOf_ended hended, List.append_nil, List.append_nil]
  constructor
  · intro hends
    obtain ⟨hready, htakes⟩ := htold.mp hends.told
    exact ⟨hready, htakes, hsentences.symm.trans hends.sentences⟩
  · rintro ⟨hready, htakes, hsame⟩
    refine ⟨htold.mpr ⟨hready, htakes⟩, ?_, hsentences.trans hsame⟩
    rw [hfinal]
    exact endedLast_of_ongoing hunits hended

/-- The operations of a clean end emit no sentence. -/
theorem sentencesOf_sealOps {d d' : Decoder} {ops : List EngineOp}
    (hseal : d.sealOps serde orders.calls request.family = (.ok ops, d')) (a : Assembly) :
    sentencesOf (call (forEach (Owner.applyOp orders room request) ops) a).2.published =
      sentencesOf a.published := by
  have hmoves : Moves (fun a a' => sentencesOf a'.published = sentencesOf a.published)
      (forEach (Owner.applyOp orders room request) ops) := by
    apply Moves.forEach
    · intro a
      rfl
    · intro a b c hab hbc
      exact hbc.trans hab
    · intro op hop a
      obtain ⟨id, name, waitingFor, rfl⟩ := sealOps_waiting serde orders hseal op hop
      show sentencesOf (call (onTool room request.limits id (.waiting name waitingFor)) a).2.published = _
      rcases onTool_cases room request.limits a id (.waiting name waitingFor) with
        ⟨-, e, hcall⟩ | ⟨-, e, hcall⟩ | ⟨-, e, hcall⟩ | ⟨-, hcall⟩
      · rw [hcall]
      · rw [hcall]
      · rw [hcall]
      · rw [hcall]
        have htool : isSentence (.unit (signalEvent (a.tools.lookup id).isNone
            (.waiting name waitingFor)
            (a.toolSnapshot ((a.receiving id).receive (.waiting name waitingFor))))) = false := by
          simp only [isSentence, signalEvent_snapshot]
          rfl
        exact sentencesOf_concat htool
  exact hmoves a

/-- A clean end that is cut off. -/
theorem sealing_cut {o : Owner} (h : Running o.assembly) {d : Decoder} {ops : List EngineOp}
    {a : Assembly} {e : InterpreterError}
    (hseal : o.decoder.sealOps serde orders.calls request.family = (.ok ops, d))
    (hall : call (Owner.sealAll orders room request ops) o.assembly = (.error e, a)) :
    Running a ∧ (sentencesOf a.published = sentencesOf o.assembly.published ↔
      SealsThrough serde orders room request o) := by
  have hrunning := h.ops orders room request ops
  have hsentences : sentencesOf (call _ o.assembly).2.published = _ :=
    @sentencesOf_sealOps serde orders room request _ _ _ hseal o.assembly
  unfold Owner.sealAll at hall
  rw [call_bind] at hall
  rcases hops : call (forEach (Owner.applyOp orders room request) ops) o.assembly with ⟨e' | u, b⟩
  · rw [hops] at hall hrunning hsentences
    cases hall
    refine ⟨hrunning, ?_⟩
    constructor
    · intro _ ops' d' b' hops' hb'
      rw [hseal] at hops'
      cases hops'
      rw [hops] at hb'
      cases hb'
    · intro _
      exact hsentences
  · rw [hops] at hall hrunning hsentences
    replace hall : call (sealTextChannels room orders.channels) b = (.error e, a) := hall
    replace hsentences : sentencesOf b.published = sentencesOf o.assembly.published := hsentences
    have haside := aside_sealTextChannels room orders.channels b
    rw [hall] at haside
    refine ⟨hrunning.aside haside, ?_⟩
    rw [← hsentences, sentencesOf_sealTextChannels hall]
    constructor
    · intro hgone ops' d' b' hops' hb' hgo
      rw [hseal] at hops'
      cases hops'
      rw [hops] at hb'
      cases hb'
      exact absurd hgone hgo
    · intro hthrough
      apply Decidable.byContradiction
      intro hgo
      have hok := hthrough ops d b hseal hops hgo
      rw [hall] at hok
      cases hok

/-- The chunks that went in leave a run that goes on. -/
theorem running_ingestAll {cmds : List InputCmd} {result : Except InterpreterError Unit}
    {o : Owner}
    (hin : (Owner.new request).ingestAll serde orders room request (chunksOf cmds) = (result, o)) :
    Running o.assembly ∧ o.ended = false := by
  obtain ⟨hassembly, hended, -⟩ :=
    (Owner.new request).ingestAll_eq serde orders room request (chunksOf cmds)
  rw [hin] at hassembly hended
  refine ⟨?_, hended⟩
  rw [show o.assembly = _ from hassembly]
  exact running_empty.ops orders room request _

end Run

/-- **An end that is not complete** tells the open tools incomplete and drops
the buffered text exactly when the quarantine covers them. -/
theorem endsIncomplete_iff (serde : SerdeJson) (orders : Iteration) (room : Option Nat)
    (request : StartInterpretation) (cmds : List InputCmd)
    (hkind : ∀ report ∈ ((Owner.new request).run serde orders room request cmds).completion,
      report.kind ≠ .complete) :
    EndsIncomplete
        ((Owner.new request).ingestAll serde orders room request (chunksOf cmds)).2.assembly
        ((Owner.new request).run serde orders room request cmds).assembly ↔
      QuarantineCovers serde orders room request cmds := by
  have hends := (Owner.new request).run_ends serde orders room request cmds
  revert hkind
  generalize (Owner.new request).run serde orders room request cmds = final at hends
  intro hkind
  unfold QuarantineCovers
  cases hends with
  | @refused o e hin =>
      rw [hin]
      obtain ⟨hrunning, -⟩ := running_ingestAll hin
      obtain ⟨htools, out, hout, hended⟩ := @assembly_finish room o (ingestEndKind e.kind)
      constructor
      · rintro hends id hopen
        have hopen' : Unresolved (o.finish room (ingestEndKind e.kind)).assembly id := by
          unfold Unresolved
          rw [htools]
          exact hopen
        obtain ⟨before, s, heq, -, -⟩ := hends.told id hopen'
        rw [toolEvents_finish] at heq
        exact hrunning.not_incomplete id s (by rw [heq]; simp)
      · intro hnone
        refine ⟨?_, ?_, ?_⟩
        · intro id hopen
          unfold Unresolved at hopen
          rw [htools] at hopen
          exact absurd hopen (hnone id)
        · rw [hout]
          apply endedLast_of_ongoing _ hended
          intro e' he'
          obtain ⟨u, hu, -⟩ := hrunning.ongoing e' he'
          exact ⟨u, hu⟩
        · rw [hout, sentencesOf_append, sentencesOf_ended hended, List.append_nil]
  | @aborted o hin hstop =>
      rw [hin]
      obtain ⟨hrunning, -⟩ := running_ingestAll hin
      rw [quarantineAndFinish_iff hrunning]
      simp [hstop]
  | @unsealable o d e hin hstop hseal =>
      rw [hin]
      obtain ⟨hrunning, -⟩ := running_ingestAll hin
      rw [quarantineAndFinish_iff (c := { o with decoder := d }) hrunning]
      have hclosing : (o.sealClean serde orders room request).2 = { o with decoder := d } := by
        rw [Owner.sealClean, hseal]
      have hthrough : SealsThrough serde orders room request o := by
        intro ops d' b hops
        rw [hseal] at hops
        cases hops
      simp only [hstop, if_true, hclosing, hthrough, forall_true_left]
  | @unsealed o d ops a e hin hstop hseal hall =>
      rw [hin]
      obtain ⟨hrunning, -⟩ := running_ingestAll hin
      have hclosing : (o.sealClean serde orders room request).2 =
          { o with decoder := d, assembly := a } := by
        rw [Owner.sealClean, hseal]
        simp only [Owner.assemble, hall]
      obtain ⟨hafter, hthrough⟩ := sealing_cut hrunning hseal hall
      rw [quarantineAndFinish_iff (c := { o with decoder := d, assembly := a }) hafter]
      simp only [hstop, if_true, hclosing, forall_true_left, hthrough]
  | @complete o d ops a hin hstop hseal hall =>
      obtain ⟨-, hended⟩ := running_ingestAll hin
      obtain ⟨report, hreport, hcomplete⟩ := Owner.completion_finish
        (o := { o with decoder := d, assembly := a }) room hended .complete
      exact absurd hcomplete (hkind report hreport)

section Samples

/-- A tool call of which only the id is known. -/
def sampleToolCall : Json :=
  .object [("method", .string "session/update"), ("params", .object
    [("sessionUpdate", .string "tool_call"), ("toolCallId", .string "a")])]

def sampleToolCallText : String :=
  "\x7b\"method\":\"session/update\",\"params\":\x7b\"sessionUpdate\":\"tool_call\"," ++
    "\"toolCallId\":\"a\"\x7d\x7d"

/-- The ACP dialect, with that tool call taken in. -/
def sampleToolIngested : Except InterpreterError Unit × Owner :=
  (Owner.new (sampleRequest .acp)).ingestAll (readerOf sampleToolCallText sampleToolCall) entryOrders
    none (sampleRequest .acp) [bytes sampleToolCallText.toList]

/-- A run that starts so. -/
def sampleToolRun (cmds : List InputCmd) : Owner :=
  (Owner.new (sampleRequest .acp)).run (readerOf sampleToolCallText sampleToolCall) entryOrders none
    (sampleRequest .acp) (.bytes (bytes sampleToolCallText.toList) :: cmds)

theorem kind_ne_complete {o : Owner} {kind : InterpretationEndKind}
    (h : o.completion.map InterpretationEnd.kind = some kind) (hkind : kind ≠ .complete) :
    ∀ report ∈ o.completion, report.kind ≠ .complete := by
  intro report hreport hcomplete
  rw [hreport, Option.map_some, hcomplete] at h
  exact hkind (Option.some.inj h).symm

theorem endsIncomplete_cancelled :
    EndsIncomplete sampleToolIngested.2.assembly (sampleToolRun [.cancel]).assembly := by
  have hkind : (sampleToolRun [.cancel]).completion.map InterpretationEnd.kind = some .cancelled := by
    decide +kernel
  have hok : sampleToolIngested.1.isOk = true := by decide +kernel
  have hkeys : sampleToolIngested.2.assembly.tools.keys = [⟨"a"⟩] := by decide +kernel
  have hstate : (sampleToolIngested.2.assembly.tools.lookup ⟨"a"⟩).map
      ToolAssembler.requestState = some .assembling := by
    decide +kernel
  apply (endsIncomplete_iff (readerOf sampleToolCallText sampleToolCall) entryOrders none
    (sampleRequest .acp) [.bytes (bytes sampleToolCallText.toList), .cancel]
    (kind_ne_complete hkind (by decide))).mpr
  show match sampleToolIngested with
    | (.error _, o) => ∀ id, ¬ Unresolved o.assembly id
    | (.ok (), o) => _
  rcases hin : sampleToolIngested with ⟨e | u, o⟩
  · rw [hin] at hok
    cases hok
  · rw [hin] at hkeys hstate
    refine ⟨?_, ?_, ?_⟩
    · intro id tool hl _
      replace hl : o.assembly.tools.lookup id = some tool := hl
      have hid : id ∈ o.assembly.tools.keys := (HashMap.mem_keys_iff _ _).mpr ⟨tool, hl⟩
      rw [hkeys, List.mem_singleton] at hid
      subst hid
      rw [hl] at hstate
      rw [Option.some.inj hstate]
      simp
    · intro n hn
      cases hn
    · intro hstop
      cases hstop

/-- A chunk over the limit while a tool is open: the tool is told nothing. -/
theorem open_tool_at_limit :
    ¬ ∀ (serde : SerdeJson) (orders : Iteration) (room : Option Nat)
      (request : StartInterpretation) (cmds : List InputCmd),
      (∀ report ∈ ((Owner.new request).run serde orders room request cmds).completion,
        report.kind ≠ .complete) →
      EndsIncomplete
        ((Owner.new request).ingestAll serde orders room request (chunksOf cmds)).2.assembly
        ((Owner.new request).run serde orders room request cmds).assembly := by
  intro h
  have hkind : (sampleToolRun [.bytes (List.replicate 300 0x20)]).completion.map
      InterpretationEnd.kind = some .limitExceeded := by
    decide +kernel
  have hends := h (readerOf sampleToolCallText sampleToolCall) entryOrders none
    (sampleRequest .acp)
    [.bytes (bytes sampleToolCallText.toList), .bytes (List.replicate 300 0x20)]
    (kind_ne_complete hkind (by decide))
  have hopen : ((sampleToolRun [.bytes (List.replicate 300 0x20)]).assembly.tools.lookup
      ⟨"a"⟩).map ToolAssembler.terminal = some none := by
    decide +kernel
  obtain ⟨tool, hl, hterm⟩ := Option.map_eq_some_iff.mp hopen
  obtain ⟨before, s, heq, -, -⟩ := hends.told ⟨"a"⟩ ⟨tool, hl, hterm⟩
  have hevents : toolEvents ⟨"a"⟩
      (sampleToolRun [.bytes (List.replicate 300 0x20)]).assembly.published = [.created
        { unitId := ⟨"tool-a"⟩, unitGeneration := 1, unitState := .waiting, laneId := .tool,
          laneOrdinal := 0,
          unit := .tool
            { toolActionId := ⟨"a"⟩, toolName := none, requestState := .assembling,
              executionState := .waiting, resultState := .absent, requestPayload := none,
              resultPayload := none, terminalOutcome := none,
              waitingFor := some "complete tool request" } }] := by
    decide +kernel
  obtain ⟨-, hlast⟩ := List.append_inj' (heq.symm.trans (hevents.trans (List.nil_append _).symm)) rfl
  cases hlast

end Samples

end Monoloop.Interpreter
