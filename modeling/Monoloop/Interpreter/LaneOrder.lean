import Monoloop.Lib.Numbering
import Monoloop.Interpreter.Chunking
import Monoloop.Interpreter.Emission

/-!
# Ordinals within a lane

Only a sentence advances the ordinal of its lane; boundaries, diagnostics and
tools carry its present value. So the published units are a log numbered by lane
(`Laned`), and the ordinals of new units strictly increase exactly when every
unit that is no sentence finds its lane empty (`strictLanes_iff`).
-/

namespace Monoloop.Interpreter

open InPlace Numbering Utf8

/-- A unit's id, lane and ordinal; sentences advance their lane. -/
def laneScheme : Scheme CanonicalUnitEvent UnitId LaneId where
  key e := e.snapshot.unitId
  lane e := e.snapshot.laneId
  ordinal e := e.snapshot.laneOrdinal
  advances e := e.snapshot.unit.isText

/-- **The law of lane order**: of two units of one lane, the one that is first
emitted later has the greater ordinal. -/
def StrictLanes (a : Assembly) : Prop := laneScheme.Strict (unitsOf a.published)

/-! ## Unit ids -/

theorem toString_inj {n m : Nat} (h : toString n = toString m) : n = m := by
  have hdigits := congrArg String.toList h
  rw [Nat.toString_eq_ofList_toDigits, Nat.toString_eq_ofList_toDigits, String.toList_ofList,
    String.toList_ofList] at hdigits
  rw [← @Nat.ofDigitChars_ten_toDigits n, hdigits, Nat.ofDigitChars_ten_toDigits]

/-- The prefixes of numbered units, by the letter they start with. -/
def numberedPrefix (c : Char) : String := String.ofList [c, '-']

theorem numberedId_inj {c c' : Char} {n m : Nat}
    (h : (⟨numberedPrefix c ++ toString n⟩ : UnitId) = ⟨numberedPrefix c' ++ toString m⟩) : n = m := by
  have hvalue := congrArg (fun u => u.value.toList) h
  simp only [numberedPrefix, String.toList_append, String.toList_ofList, List.cons_append,
    List.nil_append, List.cons.injEq, true_and] at hvalue
  exact toString_inj (String.toList_inj.mp hvalue.2)

/-- The id of a numbered unit below `n`. -/
def NumberedBelow (n : Nat) (id : UnitId) : Prop :=
  ∃ c m, c ≠ 't' ∧ m < n ∧ id = ⟨numberedPrefix c ++ toString m⟩

theorem NumberedBelow.mono {n m : Nat} {id : UnitId} (h : NumberedBelow n id) (hle : n ≤ m) :
    NumberedBelow m id := by
  obtain ⟨c, k, hc, hk, hid⟩ := h
  exact ⟨c, k, hc, Nat.lt_of_lt_of_le hk hle, hid⟩

theorem NumberedBelow.ne_tool {n : Nat} {id : UnitId} (h : NumberedBelow n id) (tool : ToolActionId) :
    id ≠ toolUnitId tool := by
  obtain ⟨c, m, hc, -, rfl⟩ := h
  exact unitId_ne_tool (by simp [numberedPrefix]) hc _ tool

theorem NumberedBelow.ne_next {n : Nat} {id : UnitId} (h : NumberedBelow n id) (c : Char) :
    id ≠ ⟨numberedPrefix c ++ toString n⟩ := by
  rintro rfl
  obtain ⟨c', m, -, hm, heq⟩ := h
  have hnm := numberedId_inj heq
  omega

def Notice.letter : Notice → Char
  | .boundary _ => 'b'
  | .diagnostic _ _ => 'd'

theorem Notice.idPrefix_eq (notice : Notice) : notice.idPrefix = numberedPrefix notice.letter := by
  cases notice with
  | boundary kind => rfl
  | diagnostic kind message => rfl

theorem Notice.letter_ne (notice : Notice) : notice.letter ≠ 't' := by
  cases notice <;> simp [Notice.letter]

/-! ## The log of units -/

/-- The counters of an assembly that may publish more. -/
structure Current (a : Assembly) : Prop where
  ordinals : ∀ lane, a.laneOrdinal lane = laneScheme.count lane (unitsOf a.published)
  named : ∀ e ∈ unitsOf a.published,
    (∃ id, e.snapshot.unitId = toolUnitId id ∧ e.snapshot.laneId = .tool) ∨
      NumberedBelow a.nextUnit e.snapshot.unitId
  stored : ∀ id tool, a.tools.lookup id = some tool → tool.unitId = toolUnitId id

/-- The published units are numbered by lane. -/
structure Laned (room : Option Nat) (a : Assembly) : Prop where
  numbered : laneScheme.Numbered (unitsOf a.published)
  keyed : laneScheme.Keyed (unitsOf a.published)
  current : Gone room a ∨ Current a

theorem laned_empty (room : Option Nat) : Laned room {} where
  numbered := Scheme.numbered_nil
  keyed := Scheme.keyed_nil
  current := by
    refine .inr ⟨fun _ => rfl, ?_, ?_⟩
    · intro e he
      cases he
    · intro id tool h
      cases h

theorem Current.unitIdOf {a : Assembly} (h : Current a) (id : ToolActionId) :
    a.unitIdOf id = toolUnitId id := by
  unfold Assembly.unitIdOf
  cases hl : a.tools.lookup id with
  | none => rfl
  | some tool => exact h.stored id tool hl

/-- A numbered unit is new. -/
theorem Current.new {a : Assembly} (h : Current a) {e : CanonicalUnitEvent} {c : Char}
    (hc : c ≠ 't') (hid : e.snapshot.unitId = ⟨numberedPrefix c ++ toString a.nextUnit⟩) :
    laneScheme.New (unitsOf a.published) e := by
  intro e' he' hkey
  replace hkey : e'.snapshot.unitId = e.snapshot.unitId := hkey
  rw [hid] at hkey
  rcases h.named e' he' with ⟨id, htool, -⟩ | hbelow
  · have hnext : NumberedBelow (a.nextUnit + 1) ⟨numberedPrefix c ++ toString a.nextUnit⟩ :=
      ⟨c, a.nextUnit, hc, Nat.lt_succ_self _, rfl⟩
    exact hnext.ne_tool id (hkey.symm.trans htool)
  · exact hbelow.ne_next c hkey

theorem unitsOf_concat (p : List InterpreterOutputEvent) (e : CanonicalUnitEvent) :
    unitsOf (p ++ [.unit e]) = unitsOf p ++ [e] := by
  rw [unitsOf_append]
  rfl

variable {room : Option Nat} {voices : Voice → Prop}

/-- A numbered unit, published with the ordinal that it makes. -/
theorem Laned.numberedUnit {a b : Assembly} (h : Laned room a) (hcur : Current a)
    {e : CanonicalUnitEvent} {c : Char} (hc : c ≠ 't')
    (hid : e.snapshot.unitId = ⟨numberedPrefix c ++ toString a.nextUnit⟩)
    (hpublished : b.published = a.published ++ [.unit e]) (hnext : b.nextUnit = a.nextUnit + 1)
    (htools : b.tools = a.tools)
    (hordinal : e.snapshot.laneOrdinal = b.laneOrdinal e.snapshot.laneId)
    (hordinals : ∀ lane, b.laneOrdinal lane = a.laneOrdinal lane + laneScheme.count lane [e]) :
    Laned room b := by
  have hunits : unitsOf b.published = unitsOf a.published ++ [e] := by
    rw [hpublished, unitsOf_concat]
  have hcounts : ∀ lane, b.laneOrdinal lane = laneScheme.count lane (unitsOf b.published) := by
    intro lane
    rw [hordinals, hcur.ordinals, hunits, Scheme.count_append]
  have hnew : laneScheme.New (unitsOf a.published) e := hcur.new hc hid
  refine ⟨?_, ?_, .inr ⟨hcounts, ?_, ?_⟩⟩
  · rw [hunits]
    apply h.numbered.concat
    show e.snapshot.laneOrdinal = _
    rw [hordinal, hcounts, hunits]
    rfl
  · rw [hunits]
    apply h.keyed.concat (fun _ => hnew)
    intro e' he' hkey
    exact absurd hkey (hnew e' he')
  · intro e' he'
    rw [hunits] at he'
    rw [hnext]
    rcases List.mem_append.mp he' with he' | he'
    · rcases hcur.named e' he' with htool | hbelow
      · exact .inl htool
      · exact .inr (hbelow.mono (Nat.le_succ _))
    · rw [List.mem_singleton.mp he']
      exact .inr ⟨c, a.nextUnit, hc, Nat.lt_succ_self _, hid⟩
  · rw [htools]
    exact hcur.stored

/-- A tool stored, with or without an event of its unit. -/
theorem Current.put {a : Assembly} (h : Current a) {id : ToolActionId} {tool : ToolAssembler}
    (hunit : tool.unitId = a.unitIdOf id) :
    ∀ id' tool', (a.tools.put id tool).lookup id' = some tool' → tool'.unitId = toolUnitId id' := by
  intro id' tool' hl
  rw [HashMap.lookup_put] at hl
  split at hl
  · rename_i hid
    cases hl
    rw [hid, hunit, h.unitIdOf]
  · exact h.stored id' tool' hl

/-- **What one step preserves.** -/
theorem Laned.emits {a b : Assembly} (h : Laned room a) (hstep : Emits room voices a b) :
    Laned room b := by
  cases hstep with
  | still hstill =>
      obtain ⟨hnumbered, hkeyed, hcur⟩ := h
      rw [← hstill.published] at hnumbered hkeyed
      refine ⟨hnumbered, hkeyed, ?_⟩
      rcases hcur with hgone | hcur
      · exact .inl (hgone.mono (Nat.le_of_eq (by rw [hstill.published])))
      · refine .inr ⟨?_, ?_, ?_⟩
        · intro lane
          rw [hstill.published, ← hcur.ordinals]
          unfold Assembly.laneOrdinal
          rw [hstill.laneOrdinals]
        · rw [hstill.published, hstill.nextUnit]
          exact hcur.named
        · rw [hstill.tools]
          exact hcur.stored
  | sentence channel content _ hgo =>
      have hcur := h.current.resolve_left hgo
      have hput : ∀ lane, (a.saySentence channel content).laneOrdinal lane =
          if lane = channel.lane then a.laneOrdinal channel.lane + 1 else a.laneOrdinal lane := by
        intro lane
        simp only [Assembly.saySentence, Assembly.laneOrdinal, HashMap.lookup_put]
        split <;> rfl
      refine h.numberedUnit hcur (c := 's') (by decide) rfl rfl rfl rfl ?_ ?_
      · exact ((hput channel.lane).trans (if_pos rfl)).symm
      · intro lane
        rw [hput]
        by_cases hlane : lane = channel.lane
        · subst hlane
          rw [if_pos rfl]
          simp [Scheme.count, laneScheme, CanonicalUnitEvent.snapshot, CanonicalUnit.isText]
        · rw [if_neg hlane]
          simp [Scheme.count, laneScheme, CanonicalUnitEvent.snapshot, Ne.symm hlane]
  | notice notice _ hgo =>
      have hcur := h.current.resolve_left hgo
      refine h.numberedUnit hcur notice.letter_ne ?_ rfl rfl rfl rfl ?_
      · show (⟨notice.idPrefix ++ toString a.nextUnit⟩ : UnitId) = _
        rw [notice.idPrefix_eq]
      · intro lane
        have hnone : laneScheme.count lane [.created (a.snapshot
            ⟨notice.idPrefix ++ toString a.nextUnit⟩ 1 .complete .response notice.unit)] = 0 := by
          cases notice <;>
            simp [Scheme.count, laneScheme, CanonicalUnitEvent.snapshot, Assembly.snapshot,
              Notice.unit, CanonicalUnit.isText]
        rw [hnone]
        rfl
  | @tool id tool event _ hgo hunit hevent =>
      have hcur := h.current.resolve_left hgo
      have hid : event.snapshot.unitId = toolUnitId id := by
        rw [hevent]
        exact hunit.trans (hcur.unitIdOf id)
      have hlane : event.snapshot.laneId = .tool := by
        rw [hevent]
        rfl
      have hplain : event.snapshot.unit.isText = false := by
        rw [hevent]
        rfl
      have hnone : ∀ lane, laneScheme.count lane [event] = 0 := by
        intro lane
        simp [Scheme.count, laneScheme, hplain]
      refine ⟨?_, ?_, .inr ⟨?_, ?_, hcur.put hunit⟩⟩
      · rw [unitsOf_concat]
        apply h.numbered.concat
        rw [Scheme.count_append, hnone, Nat.add_zero]
        show event.snapshot.laneOrdinal = laneScheme.count event.snapshot.laneId _
        rw [hlane, ← hcur.ordinals, hevent]
        rfl
      · rw [unitsOf_concat]
        apply h.keyed.concat
        · intro hadvances
          rw [show laneScheme.advances event = false from hplain] at hadvances
          cases hadvances
        · intro e he hkey
          replace hkey : e.snapshot.unitId = event.snapshot.unitId := hkey
          rcases hcur.named e he with ⟨-, -, htool⟩ | hbelow
          · exact htool.trans hlane.symm
          · exact absurd (hkey.trans hid) (hbelow.ne_tool id)
      · intro lane
        rw [unitsOf_concat, Scheme.count_append, hnone, Nat.add_zero]
        exact hcur.ordinals lane
      · intro e he
        rw [unitsOf_concat] at he
        rcases List.mem_append.mp he with he | he
        · exact hcur.named e he
        · rw [List.mem_singleton.mp he]
          exact .inl ⟨id, hid, hlane⟩
  | touched _ hunit =>
      refine ⟨h.numbered, h.keyed, ?_⟩
      rcases h.current with hgone | hcur
      · exact .inl hgone
      · exact .inr ⟨hcur.ordinals, hcur.named, hcur.put hunit⟩
  | lost hgone hpublished _ =>
      obtain ⟨hnumbered, hkeyed, -⟩ := h
      rw [← hpublished] at hnumbered hkeyed
      exact ⟨hnumbered, hkeyed, .inl (hgone.mono (Nat.le_of_eq (by rw [hpublished])))⟩

theorem Laned.still {a b : Assembly} (h : Laned room a) (hstill : Still a b) : Laned room b :=
  h.emits (@Emits.still room anyVoice a b hstill)

theorem Laned.emission {a b : Assembly} (h : Laned room a) (hrun : Emission room voices a b) :
    Laned room b := hrun.invariant h (fun _ _ hstep ha => ha.emits hstep)

/-! ## The operations -/

/-- Nothing has been published on the lane. -/
def Clear (a : Assembly) (lane : LaneId) : Prop := laneScheme.Clear (unitsOf a.published) lane

/-- An event of the tool's unit has been published. -/
def Known (a : Assembly) (id : ToolActionId) : Prop :=
  ∃ e ∈ unitsOf a.published, e.snapshot.unitId = toolUnitId id

section Ops

variable (orders : Iteration) (room : Option Nat) (request : StartInterpretation)

/-- A unit that is no sentence and that the operation would publish for the
first time finds its lane empty, or nobody who receives it. -/
def KeepsLane (a : Assembly) : EngineOp → Prop
  | .startResponse => a.responseStarted = true ∨ Gone room a ∨ Clear a .response
  | .fragment (.textDelta _ _) => True
  | .fragment (.tool id signal) =>
      Refused room request.limits a id signal ∨ Known a id ∨ Clear a .tool
  | .fragment .responseFinished =>
      let sealed := (call (sealTextChannels room orders.channels) a).2
      Gone room sealed ∨ Clear sealed .response
  | .fragment (.diagnostic _) => Gone room a ∨ Clear a .response

variable {orders room request}

/-- A new unit that does not advance opens its lane or breaks the law. -/
theorem opening_concat {a b : Assembly} {e : CanonicalUnitEvent}
    (h : laneScheme.Opening (unitsOf a.published))
    (hpublished : b.published = a.published ++ [.unit e])
    (hnew : laneScheme.New (unitsOf a.published) e) (hplain : e.snapshot.unit.isText = false) :
    laneScheme.Opening (unitsOf b.published) ↔ Clear a e.snapshot.laneId := by
  rw [hpublished, unitsOf_concat]
  constructor
  · intro hopening
    exact hopening _ e [] rfl hnew hplain
  · intro hclear
    exact h.concat (fun _ _ => hclear)

/-- Sentences leave the law as it is. -/
theorem opening_text {a b : Assembly} (h : laneScheme.Opening (unitsOf a.published))
    (hrun : Emission room textOnly a b) :
    laneScheme.Opening (unitsOf b.published) := by
  apply hrun.invariant (P := fun b => laneScheme.Opening (unitsOf b.published)) h
  intro a b hstep ha
  cases hstep with
  | still hstill =>
      rw [hstill.published]
      exact ha
  | sentence channel content _ _ =>
      show laneScheme.Opening (unitsOf (a.published ++ [.unit _]))
      rw [unitsOf_concat]
      apply ha.concat
      intro _ hplain
      cases hplain
  | notice _ hv _ => cases hv
  | tool hv _ _ _ => cases hv
  | touched hv _ => cases hv
  | lost _ hpublished _ =>
      rw [hpublished]
      exact ha

/-- A boundary or a diagnostic. -/
theorem opening_notice {a : Assembly} (hlaned : Laned room a)
    (h : laneScheme.Opening (unitsOf a.published)) (notice : Notice) :
    laneScheme.Opening (unitsOf (call (emitUnit room notice.idPrefix .response
      (fun _ => notice.unit)) a).2.published) ↔ Gone room a ∨ Clear a .response := by
  rcases @emitNotice_cases room notice a with ⟨hgone, hcall⟩ | ⟨hgo, hcall⟩
  · rw [hcall]
    exact ⟨fun _ => .inl hgone, fun _ => h⟩
  · rw [hcall]
    have hcur := hlaned.current.resolve_left hgo
    have hiff := @opening_concat a (a.sayNotice notice) _ h rfl
      (hcur.new notice.letter_ne (by
        show (⟨notice.idPrefix ++ toString a.nextUnit⟩ : UnitId) = _
        rw [notice.idPrefix_eq]))
      (by cases notice <;> rfl)
    rw [hiff]
    constructor
    · exact .inr
    · rintro (hgone | hclear)
      · exact absurd hgone hgo
      · exact hclear

/-- A tool signal. -/
theorem opening_onTool {a : Assembly} (hlaned : Laned room a)
    (h : laneScheme.Opening (unitsOf a.published)) (id : ToolActionId) (signal : ToolSignal) :
    laneScheme.Opening (unitsOf (call (onTool room request.limits id signal) a).2.published) ↔
      Refused room request.limits a id signal ∨ Known a id ∨ Clear a .tool := by
  rcases onTool_cases room request.limits a id signal with
    ⟨hrefused, e, hcall⟩ | ⟨hlong, e, hcall⟩ | ⟨hgone, e, hcall⟩ | ⟨hgo, hcall⟩
  · rw [hcall]
    exact ⟨fun _ => .inl hrefused, fun _ => h⟩
  · rw [hcall]
    exact ⟨fun _ => .inl (.tooLong hlong), fun _ => h⟩
  · rw [hcall]
    exact ⟨fun _ => .inl (.gone hgone), fun _ => h⟩
  · rw [hcall]
    have hcur := hlaned.current.resolve_left (fun hgone => hgo (.gone hgone))
    let tool := (a.receiving id).receive signal
    let event := signalEvent (a.tools.lookup id).isNone signal (a.toolSnapshot tool)
    have hsnapshot : event.snapshot = a.toolSnapshot tool := signalEvent_snapshot _ _ _
    have hid : event.snapshot.unitId = toolUnitId id := by
      rw [hsnapshot]
      exact ((ToolAssembler.receive_unitId _ _).trans (a.receiving_unitId id)).trans
        (hcur.unitIdOf id)
    show laneScheme.Opening (unitsOf (a.published ++ [.unit event])) ↔ _
    by_cases hknown : Known a id
    · constructor
      · intro _
        exact .inr (.inl hknown)
      · intro _
        rw [unitsOf_concat]
        apply h.concat
        intro hnew _
        obtain ⟨e, he, hkey⟩ := hknown
        exact absurd (hkey.trans hid.symm) (hnew e he)
    · have hnew : laneScheme.New (unitsOf a.published) event := by
        intro e he hkey
        exact hknown ⟨e, he, hkey.trans hid⟩
      have hiff := @opening_concat a { a with published := a.published ++ [.unit event] } event h rfl
        hnew (by rw [hsnapshot]; rfl)
      rw [show event.snapshot.laneId = .tool by rw [hsnapshot]; rfl] at hiff
      rw [hiff]
      constructor
      · intro hclear
        exact .inr (.inr hclear)
      · rintro (hrefused | hold | hclear)
        · exact absurd hrefused hgo
        · exact absurd hold hknown
        · exact hclear

/-- **One operation** keeps the law exactly when it keeps to its lane. -/
theorem opening_op {a : Assembly} (hlaned : Laned room a)
    (h : laneScheme.Opening (unitsOf a.published)) (op : EngineOp) :
    laneScheme.Opening (unitsOf (call (Owner.applyOp orders room request op) a).2.published) ↔
      KeepsLane orders room request a op := by
  cases op with
  | startResponse =>
      show laneScheme.Opening (unitsOf (call (startResponse room) a).2.published) ↔ _
      unfold startResponse
      rw [call_get_bind]
      by_cases hstarted : a.responseStarted = true
      · rw [if_pos hstarted]
        exact ⟨fun _ => .inl hstarted, fun _ => h⟩
      · rw [if_neg hstarted, call_modify_bind]
        have hstart : Laned room { a with responseStarted := true } :=
          hlaned.still ⟨⟨rfl, rfl, rfl, rfl, rfl⟩, rfl⟩
        refine (opening_notice hstart h (.boundary .responseStarted)).trans ?_
        constructor
        · exact .inr
        · rintro (hyes | hrest)
          · exact absurd hyes hstarted
          · exact hrest
  | fragment frag =>
      cases frag with
      | textDelta channel text =>
          refine ⟨fun _ => trivial, fun _ => ?_⟩
          exact opening_text h (emission_onText room request.limits textOnly_text channel text a)
      | tool id signal => exact opening_onTool hlaned h id signal
      | diagnostic message =>
          show laneScheme.Opening (unitsOf (call (do
            pushDiagnostic request.limits message
            emitDiagnostic room .unsupportedEvent message) a).2.published) ↔ _
          unfold pushDiagnostic
          rw [call_modify_bind]
          have hpushed : Laned room { a with
              diagnostics :=
                if a.diagnostics.length < request.limits.maxSafeDiagnostics then
                  a.diagnostics ++ [message]
                else a.diagnostics } :=
            hlaned.still ⟨⟨rfl, rfl, rfl, rfl, rfl⟩, rfl⟩
          exact opening_notice hpushed h (.diagnostic .unsupportedEvent message)
      | responseFinished =>
          show laneScheme.Opening (unitsOf (call (do
            sealTextChannels room orders.channels
            emitBoundary room .responseFinished) a).2.published) ↔
            Gone room (call (sealTextChannels room orders.channels) a).2 ∨
              Clear (call (sealTextChannels room orders.channels) a).2 .response
          have hsealing : Emission room textOnly a _ :=
            emission_sealTextChannels room orders.channels textOnly_text a
          have hseals : Sealed room a _ := seals_sealTextChannels orders.channels a
          rw [call_bind]
          rcases hcall : call (sealTextChannels room orders.channels) a with ⟨e | u, b⟩
          · rw [hcall] at hsealing hseals
            exact ⟨fun _ => .inl (hseals.failed e rfl), fun _ => opening_text h hsealing⟩
          · rw [hcall] at hsealing
            exact opening_notice (hlaned.emission hsealing) (opening_text h hsealing)
              (.boundary .responseFinished)

/-- The law held before as much as it holds now. -/
theorem opening_of_grew {a b : Assembly} (hgrew : Grew a b)
    (h : laneScheme.Opening (unitsOf b.published)) : laneScheme.Opening (unitsOf a.published) := by
  obtain ⟨rest, hrest⟩ := hgrew
  rw [← hrest, unitsOf_append] at h
  exact h.of_append

/-- **Operations** keep the law exactly when each of them keeps to its lane. -/
theorem opening_ops {a : Assembly} (hlaned : Laned room a)
    (h : laneScheme.Opening (unitsOf a.published)) (ops : List EngineOp) :
    laneScheme.Opening
        (unitsOf (call (forEach (Owner.applyOp orders room request) ops) a).2.published) ↔
      ∀ p op q b, ops = p ++ op :: q →
        call (forEach (Owner.applyOp orders room request) p) a = (.ok (), b) →
        KeepsLane orders room request b op := by
  induction ops generalizing a with
  | nil =>
      refine ⟨?_, fun _ => h⟩
      intro _ p op q b heq
      simp at heq
  | cons op ops ih =>
      have hop := @opening_op orders room request a hlaned h op
      have hemission := emission_applyOp room orders request op a
      rw [call_forEach_cons]
      rcases hcall : call (Owner.applyOp orders room request op) a with ⟨e | u, b⟩
      · -- the operation fails, and no other comes to its turn
        rw [hcall] at hop
        refine hop.trans ⟨?_, fun hkeeps => hkeeps [] op ops a rfl rfl⟩
        intro hkeeps p op' q b' heq hp
        cases p with
        | nil =>
            cases heq
            cases hp
            exact hkeeps
        | cons x p =>
            obtain ⟨rfl, -⟩ := List.cons.inj heq
            rw [call_forEach_cons, hcall] at hp
            cases hp
      · rw [hcall] at hop hemission
        replace hop : laneScheme.Opening (unitsOf b.published) ↔ _ := hop
        constructor
        · intro hrun p op' q b' heq hp
          have hb : laneScheme.Opening (unitsOf b.published) :=
            opening_of_grew (grew_ops ops b) hrun
          cases p with
          | nil =>
              cases heq
              cases hp
              exact hop.mp hb
          | cons x p =>
              obtain ⟨rfl, hops⟩ := List.cons.inj heq
              rw [call_forEach_cons, hcall] at hp
              exact (ih (hlaned.emission hemission) hb).mp hrun p op' q b' hops hp
        · intro hkeeps
          have hb := hop.mpr (hkeeps [] op ops a rfl rfl)
          apply (ih (hlaned.emission hemission) hb).mpr
          intro p op' q b' heq hp
          apply hkeeps (op :: p) op' q b'
          · rw [heq, List.cons_append]
          · rw [call_forEach_cons, hcall]
            exact hp

/-! ## The end -/

/-- Of every tool an event has been published. -/
def Told (a : Assembly) : Prop :=
  ∀ id tool, a.tools.lookup id = some tool → tool.unitId = toolUnitId id ∧ Known a id

theorem Known.grew {a b : Assembly} {id : ToolActionId} (h : Known a id) (hgrew : Grew a b) :
    Known b id := by
  obtain ⟨rest, hrest⟩ := hgrew
  obtain ⟨e, he, hid⟩ := h
  refine ⟨e, ?_, hid⟩
  rw [← hrest, unitsOf_append]
  exact List.mem_append_left _ he

theorem Told.aside {a b : Assembly} (h : Told a) (haside : Aside a b) : Told b := by
  intro id tool hl
  rw [haside.tools] at hl
  obtain ⟨hunit, hknown⟩ := h id tool hl
  exact ⟨hunit, hknown.grew haside.grew⟩

/-- After some operations, of which one was over the payload limit or none. -/
structure ToldAfter (room : Option Nat) (result : Except InterpreterError Unit × Assembly)
    (long : Prop) : Prop where
  ok : result.1 = .ok () → Told result.2
  short : ¬ long → Told result.2 ∨ Gone room result.2

theorem Told.after {a : Assembly} (h : Told a) (r : Except InterpreterError Unit) (long : Prop) :
    ToldAfter room (r, a) long := ⟨fun _ => h, fun _ => .inl h⟩

theorem ToldAfter.failed {a : Assembly} {long : Prop} (e : InterpreterError)
    (h : ¬ long → Told a ∨ Gone room a) : ToldAfter room (.error e, a) long where
  ok := by
    intro hok
    cases hok
  short := h

theorem Told.op {a : Assembly} (h : Told a) (op : EngineOp) :
    ToldAfter room (call (Owner.applyOp orders room request op) a) (TooLong request op) := by
  by_cases htool : ∃ id signal, op = .fragment (.tool id signal)
  · obtain ⟨id, signal, rfl⟩ := htool
    show ToldAfter room (call (onTool room request.limits id signal) a) _
    rcases onTool_cases room request.limits a id signal with
      ⟨-, e, hcall⟩ | ⟨hlong, e, hcall⟩ | ⟨hgone, e, hcall⟩ | ⟨-, hcall⟩
    · rw [hcall]
      exact h.after _ _
    · rw [hcall]
      apply ToldAfter.failed
      intro hshort
      exact absurd ⟨id, signal, rfl, hlong⟩ hshort
    · rw [hcall]
      exact ToldAfter.failed e (fun _ => .inr hgone)
    · rw [hcall]
      apply Told.after
      intro id' tool' hl
      have hreceived : ((a.receiving id).receive signal).unitId = toolUnitId id := by
        rw [ToolAssembler.receive_unitId]
        unfold Assembly.receiving
        cases hold : a.tools.lookup id with
        | none => rfl
        | some tool => exact (h id tool hold).1
      replace hl : (a.tools.put id ((a.receiving id).receive signal)).lookup id' = some tool' := hl
      rw [HashMap.lookup_put] at hl
      split at hl
      · rename_i hid
        cases hl
        subst hid
        refine ⟨hreceived, signalEvent (a.tools.lookup id').isNone signal
          (a.toolSnapshot ((a.receiving id').receive signal)), ?_, ?_⟩
        · rw [unitsOf_concat]
          simp
        · rw [signalEvent_snapshot]
          exact hreceived
      · obtain ⟨hunit, hknown⟩ := h id' tool' hl
        exact ⟨hunit, hknown.grew ⟨_, rfl⟩⟩
  · have haside := @aside_applyOp orders room request op (fun id signal hop => htool ⟨id, signal, hop⟩) a
    exact (h.aside haside).after _ _

theorem Told.ops {a : Assembly} (h : Told a) (ops : List EngineOp) :
    ToldAfter room (call (forEach (Owner.applyOp orders room request) ops) a)
      (∃ op ∈ ops, TooLong request op) := by
  induction ops generalizing a with
  | nil => exact h.after _ _
  | cons op ops ih =>
      have hop := @Told.op orders room request a h op
      rw [call_forEach_cons]
      rcases hcall : call (Owner.applyOp orders room request op) a with ⟨e | u, b⟩
      · rw [hcall] at hop
        apply ToldAfter.failed
        intro hshort
        exact hop.short (fun hlong => hshort ⟨op, List.mem_cons_self, hlong⟩)
      · rw [hcall] at hop
        obtain ⟨hok, hshort⟩ := ih (hop.ok rfl)
        refine ⟨hok, ?_⟩
        intro hnone
        apply hshort
        rintro ⟨op', hop', hlong⟩
        exact hnone ⟨op', List.mem_cons_of_mem _ hop', hlong⟩

/-- Without room nothing is taken. -/
theorem accepted_gone {a : Assembly} (h : Gone room a) (events : List CanonicalUnitEvent) :
    accepted room a events = [] := by
  cases room with
  | none => cases h
  | some n =>
      simp only [Gone, Option.any_some, decide_eq_true_eq] at h
      simp [accepted, Nat.sub_eq_zero_of_le h]

theorem mem_unitsOf_accepted {a : Assembly} {events : List CanonicalUnitEvent}
    {e : CanonicalUnitEvent} (h : e ∈ unitsOf (accepted room a events)) : e ∈ events := by
  obtain ⟨out, hout, he⟩ := List.mem_filterMap.mp h
  cases room with
  | none =>
      obtain ⟨e', he', rfl⟩ := List.mem_map.mp hout
      cases he
      exact he'
  | some n =>
      obtain ⟨e', he', rfl⟩ := List.mem_map.mp hout
      cases he
      exact List.mem_of_mem_take he'

/-- The quarantine tells of known tools only. -/
theorem opening_quarantine {a : Assembly} (h : laneScheme.Opening (unitsOf a.published))
    (htold : Told a ∨ Gone room a) (frameBytes : Nat) :
    laneScheme.Opening
      (unitsOf (call (Owner.quarantine orders room frameBytes) a).2.published) := by
  rw [(call_quarantine orders room frameBytes a).1, unitsOf_append]
  rcases htold with htold | hgone
  · apply h.append
    intro e he
    obtain ⟨id, -, hevent⟩ := List.mem_filterMap.mp (mem_unitsOf_accepted he)
    obtain ⟨tool, htool, rfl⟩ := Option.map_eq_some_iff.mp hevent
    obtain ⟨hunit, e', he', hid⟩ := htold id tool (Option.filter_eq_some_iff.mp htool).1
    exact ⟨e', he', hid.trans hunit.symm⟩
  · rw [accepted_gone hgone]
    show laneScheme.Opening (unitsOf a.published ++ [])
    rw [List.append_nil]
    exact h

theorem laned_quarantine {a : Assembly} (h : Laned room a) (frameBytes : Nat) :
    Laned room (call (Owner.quarantine orders room frameBytes) a).2 := by
  obtain ⟨b, hb, hquiet⟩ := call_takeUnresolveds (orders.channels.keys a.channels) a
  let c : Assembly := { b with unresolvedBytesAtEnd := b.unresolvedBytesAtEnd + frameBytes }
  have hcall : call (Owner.quarantine orders room frameBytes) a =
      call (forEach (quarantineTool room) (orders.tools.keys b.tools)) c := by
    unfold Owner.quarantine
    rw [call_get_bind, call_bind, hb]
    rfl
  have hc : Laned room c := by
    let d : Assembly := { c with unresolvedBytesAtEnd := a.unresolvedBytesAtEnd }
    have hd : Laned room d := h.still ⟨⟨hquiet.published, hquiet.tools, hquiet.laneOrdinals,
      hquiet.nextUnit, hquiet.sentenceCount⟩, rfl⟩
    exact ⟨hd.numbered, hd.keyed, hd.current.imp_right fun hcur =>
      ⟨hcur.ordinals, hcur.named, hcur.stored⟩⟩
  rw [hcall]
  exact hc.emission (emission_forEach _ (emission_quarantineTool room) c)

end Ops

/-! ## Runs -/

section Run

variable (serde : SerdeJson) (orders : Iteration) (room : Option Nat) (request : StartInterpretation)

/-- Every operation that the run handles keeps to its lane. -/
def LanesKept (cmds : List InputCmd) : Prop :=
  ∀ p op q a, handledOps serde orders request cmds = p ++ op :: q →
    call (forEach (Owner.applyOp orders room request) p) {} = (.ok (), a) →
    KeepsLane orders room request a op

variable {serde orders room request}

theorem laned_quarantineAndFinish {o : Owner} (h : Laned room o.assembly)
    (kind : InterpretationEndKind) :
    laneScheme.Numbered (unitsOf (o.quarantineAndFinish orders room kind).assembly.published) ∧
      laneScheme.Keyed (unitsOf (o.quarantineAndFinish orders room kind).assembly.published) := by
  rw [Owner.quarantineAndFinish, units_finish]
  have hlaned := @laned_quarantine orders room o.assembly h o.decoder.frameBuf.length
  exact ⟨hlaned.numbered, hlaned.keyed⟩

theorem opening_quarantineAndFinish {o : Owner} (htold : Told o.assembly ∨ Gone room o.assembly)
    (kind : InterpretationEndKind) (h : laneScheme.Opening (unitsOf o.assembly.published)) :
    laneScheme.Opening (unitsOf (o.quarantineAndFinish orders room kind).assembly.published) := by
  rw [Owner.quarantineAndFinish, units_finish]
  exact @opening_quarantine orders room o.assembly h htold o.decoder.frameBuf.length

/-- **Every run** publishes units numbered by lane. -/
theorem laned_run (cmds : List InputCmd) :
    laneScheme.Numbered
        (unitsOf ((Owner.new request).run serde orders room request cmds).assembly.published) ∧
      laneScheme.Keyed
        (unitsOf ((Owner.new request).run serde orders room request cmds).assembly.published) := by
  have hends := (Owner.new request).run_ends serde orders room request cmds
  generalize (Owner.new request).run serde orders room request cmds = final at hends
  have hin : ∀ {r o}, (Owner.new request).ingestAll serde orders room request (chunksOf cmds) =
      (r, o) → Laned room o.assembly := fun hin =>
    (laned_empty room).emission (emission_ingestAll room hin)
  cases hends with
  | @refused o e ho =>
      rw [units_finish]
      exact ⟨(hin ho).numbered, (hin ho).keyed⟩
  | aborted ho _ => exact laned_quarantineAndFinish (hin ho) _
  | @unsealable o d e ho _ _ =>
      have hlaned : Laned room o.assembly := hin ho
      exact @laned_quarantineAndFinish orders room { o with decoder := d } hlaned _
  | @unsealed o d ops a e ho _ _ hall =>
      have hsealing := emission_sealAll room orders request ops o.assembly
      rw [hall] at hsealing
      have hlaned : Laned room a := (hin ho).emission hsealing
      exact @laned_quarantineAndFinish orders room { o with decoder := d, assembly := a } hlaned _
  | @complete o d ops a ho _ _ hall =>
      have hsealing := emission_sealAll room orders request ops o.assembly
      rw [hall] at hsealing
      have hlaned : Laned room a := (hin ho).emission hsealing
      rw [units_finish]
      exact ⟨hlaned.numbered, hlaned.keyed⟩

/-- What the end of a run publishes beyond its operations opens nothing. -/
theorem opening_run {cmds : List InputCmd}
    (h : laneScheme.Opening (unitsOf (call (forEach (Owner.applyOp orders room request)
      (handledOps serde orders request cmds)) {}).2.published)) :
    laneScheme.Opening
      (unitsOf ((Owner.new request).run serde orders room request cmds).assembly.published) := by
  have hends := (Owner.new request).run_ends serde orders room request cmds
  have htold : Told {} := by
    intro id tool hl
    cases hl
  have hchunks : ∀ {o : Owner},
      (Owner.new request).ingestAll serde orders room request (chunksOf cmds) = (.ok (), o) →
      Told o.assembly := by
    intro o hin
    obtain ⟨hrun, -⟩ := ingested_ops hin
    have hafter := @Told.ops orders room request {} htold
      (decodeAll serde orders request (Owner.new request).decoder (chunksOf cmds)).1
    rw [hrun] at hafter
    exact hafter.ok rfl
  have hplain : ∀ {o : Owner},
      (Owner.new request).ingestAll serde orders room request (chunksOf cmds) = (.ok (), o) →
      (∀ ops d, stopOf cmds = .finishClean →
        o.decoder.sealOps serde orders.calls request.family ≠ (.ok ops, d)) →
      laneScheme.Opening (unitsOf o.assembly.published) := by
    intro o hin hno
    rw [handled_plain hin hno] at h
    exact h
  -- at a clean end tools are told waiting, and then sentences are sealed
  have hclean : ∀ {o : Owner} {d ops r a},
      (Owner.new request).ingestAll serde orders room request (chunksOf cmds) = (.ok (), o) →
      stopOf cmds = .finishClean →
      o.decoder.sealOps serde orders.calls request.family = (.ok ops, d) →
      call (Owner.sealAll orders room request ops) o.assembly = (r, a) →
      (Told a ∨ Gone room a) ∧ laneScheme.Opening (unitsOf a.published) := by
    intro o d ops r a hin hstop hseal hall
    rw [handled_clean hin hstop hseal] at h
    have hshort : ¬ ∃ op ∈ ops, TooLong request op := by
      rintro ⟨op, hop, id, signal, hsignal, hlong⟩
      obtain ⟨id', name, waitingFor, rfl⟩ := sealOps_waiting serde orders hseal op hop
      cases hsignal
      cases hlong
    have hafter := (@Told.ops orders room request o.assembly (hchunks hin) ops).short hshort
    unfold Owner.sealAll at hall
    rw [call_bind] at hall
    rcases hops : call (forEach (Owner.applyOp orders room request) ops) o.assembly with ⟨e | u, b⟩
    · rw [hops] at hall hafter h
      cases hall
      exact ⟨hafter, h⟩
    · rw [hops] at hall hafter h
      replace hall : call (sealTextChannels room orders.channels) b = (r, a) := hall
      have haside := aside_sealTextChannels room orders.channels b
      have hsealing := emission_sealTextChannels room orders.channels textOnly_text b
      rw [hall] at haside hsealing
      refine ⟨?_, opening_text h hsealing⟩
      rcases hafter with htold' | hgone
      · exact .inl (htold'.aside haside)
      · exact .inr (hgone.mono haside.grew.length_le)
  generalize (Owner.new request).run serde orders room request cmds = final at hends
  cases hends with
  | refused hin =>
      rw [units_finish, ← refused_ops hin]
      exact h
  | @aborted o hin hstop =>
      exact opening_quarantineAndFinish (.inl (hchunks hin)) _
        (hplain hin (fun _ _ hclean => absurd hclean hstop))
  | @unsealable o d e hin hstop hseal =>
      have hopening := hplain hin (fun ops d' _ hok => by rw [hseal] at hok; cases hok)
      have htold' : Told o.assembly := hchunks hin
      exact @opening_quarantineAndFinish orders room { o with decoder := d } (.inl htold') _ hopening
  | @unsealed o d ops a e hin hstop hseal hall =>
      obtain ⟨htold', hopening⟩ := hclean hin hstop hseal hall
      exact @opening_quarantineAndFinish orders room { o with decoder := d, assembly := a } htold' _
        hopening
  | @complete o d ops a hin hstop hseal hall =>
      rw [units_finish]
      exact (hclean hin hstop hseal hall).2

/-- **The ordinals within a lane strictly increase** exactly when every
operation keeps to its lane. -/
theorem strictLanes_iff (serde : SerdeJson) (orders : Iteration) (room : Option Nat)
    (request : StartInterpretation) (cmds : List InputCmd) :
    StrictLanes ((Owner.new request).run serde orders room request cmds).assembly ↔
      LanesKept serde orders room request cmds := by
  obtain ⟨hnumbered, hkeyed⟩ := @laned_run serde orders room request cmds
  have hops := @opening_ops orders room request {} (laned_empty room) Scheme.opening_nil
    (handledOps serde orders request cmds)
  constructor
  · intro hstrict
    exact hops.mp (opening_of_grew (grew_run cmds) (hstrict.opening hnumbered hkeyed))
  · intro hkept
    exact (opening_run (hops.mpr hkept)).strict hnumbered

end Run

section Samples

/-- The answer that ends a prompt. -/
def samplePromptEnd : Json :=
  .object [("id", .string "1"), ("result", .object [("stopReason", .string "end_turn")])]

def samplePromptEndText : String :=
  "\x7b\"id\":\"1\",\"result\":\x7b\"stopReason\":\"end_turn\"\x7d\x7d"

/-- The response starts and finishes at one ordinal. -/
theorem started_and_finished_alike :
    ¬ ∀ (serde : SerdeJson) (orders : Iteration) (room : Option Nat)
      (request : StartInterpretation) (cmds : List InputCmd),
      StrictLanes ((Owner.new request).run serde orders room request cmds).assembly := by
  intro h
  have hstrict := h (readerOf samplePromptEndText samplePromptEnd) entryOrders none
    (sampleRequest .acp) [.bytes (bytes samplePromptEndText.toList), .finishClean]
  have hunits : unitsOf ((Owner.new (sampleRequest .acp)).run
      (readerOf samplePromptEndText samplePromptEnd) entryOrders none (sampleRequest .acp)
      [.bytes (bytes samplePromptEndText.toList), .finishClean]).assembly.published =
      [.created
        { unitId := ⟨"b-1"⟩, unitGeneration := 1, unitState := .complete, laneId := .response,
          laneOrdinal := 0, unit := .boundary .responseStarted },
       .created
        { unitId := ⟨"b-2"⟩, unitGeneration := 1, unitState := .complete, laneId := .response,
          laneOrdinal := 0, unit := .boundary .responseFinished }] := by
    decide +kernel
  unfold StrictLanes at hstrict
  rw [hunits] at hstrict
  have hlt := hstrict [] _ [] _ [] rfl (by simp [Scheme.New]) (by
    intro e he
    rw [List.mem_singleton.mp he]
    decide) rfl
  exact absurd hlt (by decide)

end Samples

end Monoloop.Interpreter
