import Monoloop.Interpreter.EngineRun

/-!
# The events of a tool unit

Only two methods of the owner touch tools or publish events of their units, the
one for a tool signal and the one for an abrupt end. All others but the one that
ends the run pass aside (`Aside`): the tools are as before, and the events
published are of other units, created with one event.
-/

namespace Monoloop.Interpreter

open InPlace

/-- The event, when it is one of the tool's unit. -/
def eventOf (id : ToolActionId) : InterpreterOutputEvent → Option CanonicalUnitEvent
  | .unit e => if e.snapshot.unitId = toolUnitId id then some e else none
  | .ended _ => none

/-- The events of a tool unit, in order. -/
def toolEvents (id : ToolActionId) (published : List InterpreterOutputEvent) :
    List CanonicalUnitEvent :=
  published.filterMap (eventOf id)

theorem toolEvents_append (id : ToolActionId) (p q : List InterpreterOutputEvent) :
    toolEvents id (p ++ q) = toolEvents id p ++ toolEvents id q := List.filterMap_append

theorem toolUnitId_inj {id id' : ToolActionId} (h : toolUnitId id = toolUnitId id') : id = id' := by
  have hvalue := congrArg (fun u => u.value.toList) h
  simp only [toolUnitId, String.toList_append, List.append_cancel_left_eq] at hvalue
  have hstring : id.value = id'.value := String.toList_inj.mp hvalue
  cases id
  cases id'
  exact congrArg _ hstring

/-- Ids of other units start with another letter. -/
theorem unitId_ne_tool {idPrefix : String} {c : Char} (hlead : idPrefix.toList.head? = some c)
    (hc : c ≠ 't') (n : String) (id : ToolActionId) :
    (⟨idPrefix ++ n⟩ : UnitId) ≠ toolUnitId id := by
  intro h
  have hvalue := congrArg (fun u => u.value.toList.head?) h
  simp only [toolUnitId, String.toList_append, List.head?_append, hlead] at hvalue
  exact hc (Option.some.inj hvalue)

/-- A new unit that is no tool's. -/
def OtherUnit (e : InterpreterOutputEvent) : Prop :=
  ∃ s, e = .unit (.created s) ∧ ∀ id, s.unitId ≠ toolUnitId id

theorem OtherUnit.eventOf {e : InterpreterOutputEvent} (h : OtherUnit e) (id : ToolActionId) :
    eventOf id e = none := by
  obtain ⟨s, rfl, hid⟩ := h
  exact if_neg (hid id)

/-- The tools are as before, and what was published concerns none of them. -/
structure Aside (a a' : Assembly) : Prop where
  tools : a'.tools = a.tools
  published : ∃ out, a'.published = a.published ++ out ∧ ∀ e ∈ out, OtherUnit e

theorem Aside.refl (a : Assembly) : Aside a a := ⟨rfl, [], (List.append_nil _).symm, by simp⟩

theorem Aside.trans (a b c : Assembly) (h : Aside a b) (h' : Aside b c) : Aside a c := by
  obtain ⟨out, hout, hnone⟩ := h.published
  obtain ⟨out', hout', hnone'⟩ := h'.published
  refine ⟨h'.tools.trans h.tools, out ++ out', ?_, ?_⟩
  · rw [hout', hout, List.append_assoc]
  · intro e he
    rcases List.mem_append.mp he with he | he
    · exact hnone e he
    · exact hnone' e he

theorem Aside.toolEvents {a a' : Assembly} (h : Aside a a') (id : ToolActionId) :
    toolEvents id a'.published = toolEvents id a.published := by
  obtain ⟨out, hout, hnone⟩ := h.published
  have hempty : Interpreter.toolEvents id out = [] := by
    apply List.filterMap_eq_nil_iff.mpr
    intro e he
    exact (hnone e he).eventOf id
  rw [hout, toolEvents_append, hempty, List.append_nil]

/-- A method that goes on whatever it read. -/
theorem aside_get {f : Assembly → Assembling} (h : ∀ a, Moves Aside (f a)) :
    Moves Aside (get >>= f) := by
  intro a
  rw [call_get_bind]
  exact h a a

theorem aside_bind {m : Assembling} {f : Unit → Assembling} (h : Moves Aside m)
    (hf : ∀ u, Moves Aside (f u)) : Moves Aside (m >>= f) := Moves.bind Aside.trans h hf

theorem aside_pure : Moves Aside (pure () : Assembling) := Aside.refl

theorem aside_throw (e : InterpreterError) : Moves Aside (throw e : Assembling) := Aside.refl

theorem aside_forEach {α : Type} {f : α → Assembling} (xs : List α) (h : ∀ x, Moves Aside (f x)) :
    Moves Aside (forEach f xs) := Moves.forEach Aside.refl Aside.trans xs (fun x _ => h x)

theorem aside_modify {g : Assembly → Assembly} (htools : ∀ a, (g a).tools = a.tools)
    (hpublished : ∀ a, (g a).published = a.published) : Moves Aside (modify g : Assembling) := by
  intro a
  exact ⟨htools a, [], by rw [List.append_nil]; exact hpublished a, by simp⟩

section Methods

variable (room : Option Nat)

theorem aside_publish {event : InterpreterOutputEvent} (h : OtherUnit event) :
    Moves Aside (publish room event) := by
  intro a
  rcases publish_cases room event a with ⟨-, hcall⟩ | ⟨-, hcall⟩
  · rw [hcall]
    exact .refl a
  · rw [hcall]
    refine ⟨rfl, [event], rfl, ?_⟩
    intro e he
    rw [List.mem_singleton.mp he]
    exact h

theorem aside_emitUnit {idPrefix : String} {c : Char} (hlead : idPrefix.toList.head? = some c)
    (hc : c ≠ 't') (lane : LaneId) (unit : UnitId → CanonicalUnit) :
    Moves Aside (emitUnit room idPrefix lane unit) := by
  refine aside_get (fun a => aside_bind (aside_modify (fun _ => rfl) (fun _ => rfl)) (fun _ => ?_))
  apply aside_publish
  exact ⟨_, rfl, unitId_ne_tool hlead hc _⟩

theorem aside_emitSentence (channel : TextChannel) (content : Str) :
    Moves Aside (emitSentence room channel content) :=
  aside_get (fun _ => aside_bind (aside_modify (fun _ => rfl) (fun _ => rfl))
    (fun _ => aside_emitUnit room rfl (by decide) _ _))

theorem aside_emitBoundary (kind : BoundaryKind) : Moves Aside (emitBoundary room kind) :=
  aside_emitUnit room rfl (by decide) _ _

theorem aside_emitDiagnostic (kind : DiagnosticKind) (message : String) :
    Moves Aside (emitDiagnostic room kind message) :=
  aside_emitUnit room rfl (by decide) _ _

theorem aside_setChannel (channel : TextChannel) (s : SentenceSegmenter) :
    Moves Aside (setChannel channel s) := aside_modify (fun _ => rfl) (fun _ => rfl)

variable (limits : InterpretationLimits) (channelOrder : HashMap.IterOrder TextChannel)

theorem aside_onText (channel : TextChannel) (text : String) :
    Moves Aside (onText room limits channel text) := by
  refine aside_get (fun a => ?_)
  simp only
  split
  · exact aside_bind (aside_setChannel _ _) (fun _ => aside_throw _)
  · exact aside_bind (aside_setChannel _ _)
      (fun _ => aside_forEach _ (aside_emitSentence room channel))

theorem aside_sealChannel (channel : TextChannel) : Moves Aside (sealChannel room channel) := by
  refine aside_get (fun a => ?_)
  split
  · exact aside_pure
  · exact aside_bind (aside_setChannel _ _)
      (fun _ => aside_forEach _ (aside_emitSentence room channel))

theorem aside_sealTextChannels : Moves Aside (sealTextChannels room channelOrder) :=
  aside_get (fun _ => aside_forEach _ (aside_sealChannel room))

theorem aside_startResponse : Moves Aside (startResponse room) := by
  refine aside_get (fun a => ?_)
  split
  · exact aside_pure
  · exact aside_bind (aside_modify (fun _ => rfl) (fun _ => rfl))
      (fun _ => aside_emitBoundary room _)

theorem aside_takeUnresolved (channel : TextChannel) : Moves Aside (takeUnresolved channel) := by
  refine aside_get (fun a => ?_)
  split
  · exact aside_pure
  · split
    · exact aside_pure
    · exact aside_bind (aside_setChannel _ _) (fun _ => aside_modify (fun _ => rfl) (fun _ => rfl))

/-- **Every fragment but a tool signal passes aside.** -/
theorem aside_onFragment {frag : AcpFragment} (h : ∀ id signal, frag ≠ .tool id signal) :
    Moves Aside (onFragment room limits channelOrder frag) := by
  cases frag with
  | textDelta channel text => exact aside_onText room limits channel text
  | tool id signal => exact absurd rfl (h id signal)
  | responseFinished =>
      exact aside_bind (aside_sealTextChannels room channelOrder)
        (fun _ => aside_emitBoundary room _)
  | diagnostic message =>
      exact aside_bind (aside_modify (fun _ => rfl) (fun _ => rfl))
        (fun _ => aside_emitDiagnostic room _ _)

end Methods

end Monoloop.Interpreter
