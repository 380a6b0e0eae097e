import Mathlib.Logic.Relation
import Monoloop.Interpreter.Quarantine

/-!
# What the assembly emits

Every method of the assembly is a sequence of small steps on its output
(`Emits`): nothing, one sentence with its lane's next ordinal, one other new
unit, one event of a tool, or a loss after which nobody receives. What holds of
the published events is shown by induction on these steps, without looking at a
method again. Which kinds of events a method has a voice for is a parameter.
-/

namespace Monoloop.Interpreter

open InPlace Relation

/-- A quiet step that drops no text. -/
structure Still (a b : Assembly) : Prop extends Quiet a b where
  unresolved : b.unresolvedBytesAtEnd = a.unresolvedBytesAtEnd

/-- The next sentence of a channel, published. -/
def Assembly.saySentence (a : Assembly) (channel : TextChannel) (content : Str) : Assembly :=
  let ordinal := a.laneOrdinal channel.lane + 1
  let unitId : UnitId := ⟨"s-" ++ toString a.nextUnit⟩
  { a with
    sentenceCount := a.sentenceCount + 1
    laneOrdinals := a.laneOrdinals.put channel.lane ordinal
    nextUnit := a.nextUnit + 1
    published := a.published ++ [.unit (.created
      { unitId, unitGeneration := 1, unitState := .complete, laneId := channel.lane,
        laneOrdinal := ordinal,
        unit := .text unitId channel ordinal (String.ofList content) })] }

/-- The units that are neither sentences nor tools. -/
inductive Notice where
  | boundary (kind : BoundaryKind)
  | diagnostic (kind : DiagnosticKind) (message : String)

namespace Notice

def idPrefix : Notice → String
  | .boundary _ => "b-"
  | .diagnostic _ _ => "d-"

def unit : Notice → CanonicalUnit
  | .boundary kind => .boundary kind
  | .diagnostic kind message => .diagnostic kind message

end Notice

/-- A boundary or a diagnostic, published. -/
def Assembly.sayNotice (a : Assembly) (notice : Notice) : Assembly :=
  { a with
    nextUnit := a.nextUnit + 1
    published := a.published ++ [.unit (.created
      (a.snapshot ⟨notice.idPrefix ++ toString a.nextUnit⟩ 1 .complete .response notice.unit))] }

/-- The unit a tool's events belong to. -/
def Assembly.unitIdOf (a : Assembly) (id : ToolActionId) : UnitId :=
  ((a.tools.lookup id).map ToolAssembler.unitId).getD (toolUnitId id)

inductive Voice where
  | text
  | notice
  | tool

/-- One step of the assembly on its output. -/
inductive Emits (room : Option Nat) (voices : Voice → Prop) (a : Assembly) : Assembly → Prop where
  | still {b} : Still a b → Emits room voices a b
  | sentence (channel : TextChannel) (content : Str) : voices .text → ¬ Gone room a →
      Emits room voices a (a.saySentence channel content)
  | notice (notice : Notice) : voices .notice → ¬ Gone room a →
      Emits room voices a (a.sayNotice notice)
  | tool {id tool event} : voices .tool → ¬ Gone room a → tool.unitId = a.unitIdOf id →
      event.snapshot = a.toolSnapshot tool →
      Emits room voices a
        { a with tools := a.tools.put id tool, published := a.published ++ [.unit event] }
  /-- A tool whose payload is over the limit keeps a trace of the signal. -/
  | touched {id tool} : voices .tool → tool.unitId = a.unitIdOf id →
      Emits room voices a { a with tools := a.tools.put id tool }
  | lost {b} : Gone room a → b.published = a.published →
      b.unresolvedBytesAtEnd = a.unresolvedBytesAtEnd → Emits room voices a b

def Emission (room : Option Nat) (voices : Voice → Prop) : Assembly → Assembly → Prop :=
  ReflTransGen (Emits room voices)

/-- Every kind of event. -/
def anyVoice (_ : Voice) : Prop := True

/-- Sentences only. -/
def textOnly (voice : Voice) : Prop := voice = .text

theorem textOnly_text : textOnly .text := rfl

variable {room : Option Nat} {voices : Voice → Prop}

theorem emission_refl (a : Assembly) : Emission room voices a a := .refl

theorem emission_trans (a b c : Assembly) (h : Emission room voices a b) (h' : Emission room voices b c) :
    Emission room voices a c := h.trans h'

theorem Emits.emission {a b : Assembly} (h : Emits room voices a b) : Emission room voices a b := .single h

theorem emission_lost {a b : Assembly} (h : Gone room a) (hpublished : b.published = a.published)
    (hunresolved : b.unresolvedBytesAtEnd = a.unresolvedBytesAtEnd) : Emission room voices a b :=
  (Emits.lost h hpublished hunresolved).emission

theorem Still.emission {a b : Assembly} (h : Still a b) : Emission room voices a b := (Emits.still h).emission

/-- **The run lemma**: what every step preserves holds at the end. -/
theorem Emission.invariant {P : Assembly → Prop} {a b : Assembly} (h : Emission room voices a b) (ha : P a)
    (hstep : ∀ a b, Emits room voices a b → P a → P b) : P b := by
  induction h with
  | refl => exact ha
  | tail _ h ih => exact hstep _ _ h ih

/-! ## The methods -/

theorem emission_pure : Moves (Emission room voices) (pure () : Assembling) := emission_refl

theorem emission_get {f : Assembly → Assembling} (h : ∀ a, Moves (Emission room voices) (f a)) :
    Moves (Emission room voices) (get >>= f) := by
  intro a
  rw [call_get_bind]
  exact h a a

theorem emission_modify {g : Assembly → Assembly} (h : ∀ a, Still a (g a)) :
    Moves (Emission room voices) (modify g : Assembling) := by
  intro a
  exact (h a).emission

theorem emission_bind {m : Assembling} {f : Unit → Assembling} (h : Moves (Emission room voices) m)
    (hf : ∀ u, Moves (Emission room voices) (f u)) : Moves (Emission room voices) (m >>= f) :=
  Moves.bind emission_trans h hf

theorem emission_forEach {α : Type} {f : α → Assembling} (xs : List α)
    (h : ∀ x, Moves (Emission room voices) (f x)) : Moves (Emission room voices) (forEach f xs) :=
  Moves.forEach emission_refl emission_trans xs (fun x _ => h x)

/-- A new unit is published, or nobody receives it. -/
theorem emitUnit_cases (idPrefix : String) (lane : LaneId) (unit : UnitId → CanonicalUnit)
    (a : Assembly) :
    (Gone room a ∧ call (emitUnit room idPrefix lane unit) a =
      (.error .backpressure, { a with nextUnit := a.nextUnit + 1 })) ∨
    (¬ Gone room a ∧ call (emitUnit room idPrefix lane unit) a =
      (.ok (), { a with
        nextUnit := a.nextUnit + 1
        published := a.published ++ [.unit (.created (a.snapshot ⟨idPrefix ++ toString a.nextUnit⟩
          1 .complete lane (unit ⟨idPrefix ++ toString a.nextUnit⟩)))] })) := by
  simp only [emitUnit, call_get_bind, call_modify_bind]
  exact publish_cases room (.unit (.created (a.snapshot ⟨idPrefix ++ toString a.nextUnit⟩
    1 .complete lane (unit ⟨idPrefix ++ toString a.nextUnit⟩)))) { a with nextUnit := a.nextUnit + 1 }

theorem emitSentence_cases (channel : TextChannel) (content : Str) (a : Assembly) :
    (Gone room a ∧ ∃ b, call (emitSentence room channel content) a = (.error .backpressure, b) ∧
      b.published = a.published ∧ b.unresolvedBytesAtEnd = a.unresolvedBytesAtEnd ∧
      b.tools = a.tools) ∨
    (¬ Gone room a ∧
      call (emitSentence room channel content) a = (.ok (), a.saySentence channel content)) := by
  unfold emitSentence
  simp only [call_get_bind, call_modify_bind]
  rcases @emitUnit_cases room "s-" channel.lane
    (fun unitId => .text unitId channel (a.laneOrdinal channel.lane + 1) (String.ofList content))
    { a with
      sentenceCount := a.sentenceCount + 1
      laneOrdinals := a.laneOrdinals.put channel.lane (a.laneOrdinal channel.lane + 1) } with
    ⟨hgone, hcall⟩ | ⟨hgo, hcall⟩
  · exact .inl ⟨hgone, _, hcall, rfl, rfl, rfl⟩
  · refine .inr ⟨hgo, ?_⟩
    rw [hcall]
    simp only [Assembly.saySentence, Assembly.snapshot, Assembly.laneOrdinal, HashMap.lookup_put,
      if_true, Option.getD_some]

/-- A boundary or a diagnostic is published, or nobody receives it. -/
theorem emitNotice_cases (notice : Notice) (a : Assembly) :
    let method := emitUnit room notice.idPrefix .response (fun _ => notice.unit)
    (Gone room a ∧ call method a = (.error .backpressure, { a with nextUnit := a.nextUnit + 1 })) ∨
    (¬ Gone room a ∧ call method a = (.ok (), a.sayNotice notice)) :=
  emitUnit_cases notice.idPrefix .response (fun _ => notice.unit) a

theorem emission_emitSentence (hv : voices .text) (channel : TextChannel) (content : Str) :
    Moves (Emission room voices) (emitSentence room channel content) := by
  intro a
  rcases @emitSentence_cases room channel content a with
    ⟨hgone, b, hcall, hpublished, hunresolved, -⟩ | ⟨hgo, hcall⟩
  · rw [hcall]
    exact emission_lost hgone hpublished hunresolved
  · rw [hcall]
    exact (Emits.sentence channel content hv hgo).emission

theorem emission_notice (hv : voices .notice) (notice : Notice) :
    Moves (Emission room voices) (emitUnit room notice.idPrefix .response (fun _ => notice.unit)) := by
  intro a
  rcases @emitNotice_cases room notice a with ⟨hgone, hcall⟩ | ⟨hgo, hcall⟩
  · rw [hcall]
    exact emission_lost hgone rfl rfl
  · rw [hcall]
    exact (Emits.notice notice hv hgo).emission

variable (room)

theorem emission_emitBoundary (hv : voices .notice) (kind : BoundaryKind) :
    Moves (Emission room voices) (emitBoundary room kind) :=
  emission_notice hv (.boundary kind)

theorem emission_emitDiagnostic (hv : voices .notice) (kind : DiagnosticKind) (message : String) :
    Moves (Emission room voices) (emitDiagnostic room kind message) :=
  emission_notice hv (.diagnostic kind message)

theorem emission_setChannel (channel : TextChannel) (s : SentenceSegmenter) :
    Moves (Emission room voices) (setChannel channel s) :=
  emission_modify (fun _ => ⟨⟨rfl, rfl, rfl, rfl, rfl⟩, rfl⟩)

variable (limits : InterpretationLimits) (channelOrder : HashMap.IterOrder TextChannel)

theorem emission_onText (hv : voices .text) (channel : TextChannel) (text : String) :
    Moves (Emission room voices) (onText room limits channel text) := by
  refine emission_get (fun a => ?_)
  simp only
  split
  · exact emission_bind (emission_setChannel room _ _) (fun _ => emission_refl)
  · exact emission_bind (emission_setChannel room _ _)
      (fun _ => emission_forEach _ (emission_emitSentence hv channel))

theorem emission_sealChannel (hv : voices .text) (channel : TextChannel) :
    Moves (Emission room voices) (sealChannel room channel) := by
  refine emission_get (fun a => ?_)
  split
  · exact emission_pure
  · exact emission_bind (emission_setChannel room _ _)
      (fun _ => emission_forEach _ (emission_emitSentence hv channel))

theorem emission_sealTextChannels (hv : voices .text) :
    Moves (Emission room voices) (sealTextChannels room channelOrder) :=
  emission_get (fun _ => emission_forEach _ (emission_sealChannel room hv))

theorem emission_startResponse (hv : voices .notice) :
    Moves (Emission room voices) (startResponse room) := by
  refine emission_get (fun a => ?_)
  split
  · exact emission_pure
  · exact emission_bind (emission_modify (fun _ => ⟨⟨rfl, rfl, rfl, rfl, rfl⟩, rfl⟩))
      (fun _ => emission_emitBoundary room hv _)

theorem Assembly.receiving_unitId (a : Assembly) (id : ToolActionId) :
    (a.receiving id).unitId = a.unitIdOf id := by
  unfold Assembly.receiving Assembly.unitIdOf
  cases a.tools.lookup id with
  | none => rfl
  | some tool => rfl

theorem emission_onTool (hv : voices .tool) (id : ToolActionId) (signal : ToolSignal) :
    Moves (Emission room voices) (onTool room limits id signal) := by
  intro a
  rcases onTool_cases room limits a id signal with
    ⟨-, e, hcall⟩ | ⟨-, e, hcall⟩ | ⟨hgone, e, hcall⟩ | ⟨hgo, hcall⟩
  · rw [hcall]
    exact emission_refl a
  · rw [hcall]
    exact (Emits.touched hv (a.receiving_unitId id)).emission
  · rw [hcall]
    exact emission_lost hgone rfl rfl
  · rw [hcall]
    have hunit : ((a.receiving id).receive signal).unitId = a.unitIdOf id :=
      (ToolAssembler.receive_unitId _ _).trans (a.receiving_unitId id)
    exact (Emits.tool hv (fun h => hgo (.gone h)) hunit (signalEvent_snapshot _ _ _)).emission

theorem emission_onFragment (frag : AcpFragment) :
    Moves (Emission room anyVoice) (onFragment room limits channelOrder frag) := by
  cases frag with
  | textDelta channel text => exact emission_onText room limits trivial channel text
  | tool id signal => exact emission_onTool room limits trivial id signal
  | responseFinished =>
      exact emission_bind (emission_sealTextChannels room channelOrder trivial)
        (fun _ => emission_emitBoundary room trivial _)
  | diagnostic message =>
      exact emission_bind (emission_modify (fun _ => ⟨⟨rfl, rfl, rfl, rfl, rfl⟩, rfl⟩))
        (fun _ => emission_emitDiagnostic room trivial _ _)

theorem emission_quarantineTool (id : ToolActionId) :
    Moves (Emission room anyVoice) (quarantineTool room id) := by
  intro a
  rcases quarantineTool_cases room id a with
    ⟨-, hcall⟩ | ⟨tool, event, hl, hevent, ⟨hgone, hcall⟩ | ⟨hgo, hcall⟩⟩
  · rw [hcall]
    exact emission_refl a
  · rw [hcall]
    exact emission_lost hgone rfl rfl
  · rw [hcall]
    obtain ⟨tool', htool', rfl⟩ := Option.map_eq_some_iff.mp hevent
    obtain rfl : tool = tool' := by
      have hl' := (Option.filter_eq_some_iff.mp htool').1
      rw [hl] at hl'
      exact Option.some.inj hl'
    have hunit : tool.interrupt.unitId = a.unitIdOf id := by simp [Assembly.unitIdOf, hl,
      ToolAssembler.interrupt]
    exact (Emits.tool trivial hgo hunit rfl).emission

theorem emission_applyOp (orders : Iteration) (request : StartInterpretation) (op : EngineOp) :
    Moves (Emission room anyVoice) (Owner.applyOp orders room request op) := by
  cases op with
  | startResponse => exact emission_startResponse room trivial
  | fragment frag => exact emission_onFragment room request.limits orders.channels frag

/-- The last fragments and the sealing. -/
theorem emission_sealAll (orders : Iteration) (request : StartInterpretation) (ops : List EngineOp) :
    Moves (Emission room anyVoice) (Owner.sealAll orders room request ops) :=
  emission_bind (emission_forEach ops (emission_applyOp room orders request))
    (fun _ => emission_sealTextChannels room orders.channels trivial)

/-- What the chunks that went in have emitted. -/
theorem emission_ingestAll {serde : SerdeJson} {orders : Iteration} {request : StartInterpretation}
    {cmds : List InputCmd} {result : Except InterpreterError Unit} {o : Owner}
    (hin : (Owner.new request).ingestAll serde orders room request (chunksOf cmds) = (result, o)) :
    Emission room anyVoice {} o.assembly := by
  obtain ⟨hassembly, -⟩ :=
    (Owner.new request).ingestAll_eq serde orders room request (chunksOf cmds)
  rw [hin] at hassembly
  rw [show o.assembly = _ from hassembly]
  exact emission_forEach _ (emission_applyOp room orders request) {}

end Monoloop.Interpreter
