import Monoloop.Interpreter.ToolEvents

/-!
# The life of a tool unit

The events of a tool unit follow the life-cycle as long as the signals the owner
handles do: the first signal of a tool is no result, and nothing comes after its
result. A signal that is refused publishes nothing and does not count.
-/

namespace Monoloop.Interpreter

open InPlace Utf8

namespace CanonicalUnitEvent

def generation (e : CanonicalUnitEvent) : Nat := e.snapshot.unitGeneration

/-- The event shows a terminal execution. -/
def Terminal (e : CanonicalUnitEvent) : Prop :=
  ∃ t, e.snapshot.unit = .tool t ∧ t.executionState = .terminal

end CanonicalUnitEvent

/-- The life of a unit, as its events tell it. -/
structure Lifecycle (events : List CanonicalUnitEvent) : Prop where
  created : ∀ e ∈ events.head?, ∃ s, e = .created s
  generations : events.map CanonicalUnitEvent.generation = List.range' 1 events.length
  completedLast : ∀ p s q, events = p ++ .completed s :: q → q = []
  staysTerminal : ∀ p e q, events = p ++ e :: q → e.Terminal → ∀ e' ∈ q, e'.Terminal
  completeIff : ∀ e ∈ events, e.snapshot.unitState = .complete ↔ e.Terminal

/-- Nothing has ended yet. -/
def Unfinished (events : List CanonicalUnitEvent) : Prop :=
  ∀ e ∈ events, ¬ e.Terminal ∧ ∀ s, e ≠ .completed s

theorem lifecycle_nil : Lifecycle [] where
  created := by simp
  generations := rfl
  completedLast := by simp
  staysTerminal := by simp
  completeIff := by simp

/-- An unfinished life goes on. -/
theorem Lifecycle.concat {events : List CanonicalUnitEvent} (h : Lifecycle events)
    (hopen : Unfinished events) {e : CanonicalUnitEvent} (hgen : e.generation = events.length + 1)
    (hcreated : events = [] → ∃ s, e = .created s)
    (hstate : e.snapshot.unitState = .complete ↔ e.Terminal) : Lifecycle (events ++ [e]) where
  created := by
    cases events with
    | nil =>
        intro e' he'
        cases he'
        exact hcreated rfl
    | cons e₀ events => exact h.created
  generations := by
    rw [List.map_append, h.generations, List.length_append, List.length_singleton,
      List.range'_concat, List.map_singleton, hgen, Nat.one_mul, Nat.add_comm]
  completedLast := by
    intro p s q heq
    rcases List.append_eq_append_iff.mp heq with ⟨r, rfl, hr⟩ | ⟨r, rfl, hr⟩
    · -- the completed event is the new one
      cases r with
      | nil =>
          obtain ⟨-, hq⟩ := List.cons.inj hr
          exact hq.symm
      | cons x r =>
          obtain ⟨-, hnil⟩ := List.cons.inj hr
          simp at hnil
    · cases r with
      | nil =>
          obtain ⟨-, hq⟩ := List.cons.inj hr
          exact hq
      | cons x r =>
          obtain ⟨rfl, -⟩ := List.cons.inj hr
          exact absurd rfl ((hopen _ (by simp)).2 s)
  staysTerminal := by
    intro p e₀ q heq hterm
    rcases List.append_eq_append_iff.mp heq with ⟨r, rfl, hr⟩ | ⟨r, rfl, hr⟩
    · cases r with
      | nil =>
          obtain ⟨-, hq⟩ := List.cons.inj hr
          simp [← hq]
      | cons x r =>
          obtain ⟨-, hnil⟩ := List.cons.inj hr
          simp at hnil
    · cases r with
      | nil =>
          obtain ⟨-, hq⟩ := List.cons.inj hr
          simp [hq]
      | cons x r =>
          obtain ⟨rfl, -⟩ := List.cons.inj hr
          exact absurd hterm (hopen _ (by simp)).1
  completeIff := by
    intro e' he'
    rcases List.mem_append.mp he' with he' | he'
    · exact h.completeIff e' he'
    · rw [List.mem_singleton.mp he']
      exact hstate

/-- The events so far of a life are a life. -/
theorem Lifecycle.of_append {p q : List CanonicalUnitEvent} (h : Lifecycle (p ++ q)) :
    Lifecycle p where
  created := by
    intro e he
    apply h.created e
    rw [List.head?_append]
    cases hp : p.head? with
    | none => simp [hp] at he
    | some e' =>
        rw [hp] at he
        exact he
  generations := by
    have hgen := congrArg (List.take p.length) h.generations
    rw [List.map_append, List.take_left' (List.length_map _), List.length_append,
      ← List.range'_append_1, List.take_left' List.length_range'] at hgen
    exact hgen
  completedLast := by
    intro p' s q' hp
    have hq := h.completedLast p' s (q' ++ q) (by rw [hp, List.append_assoc]; rfl)
    exact (List.append_eq_nil_iff.mp hq).1
  staysTerminal := by
    intro p' e q' hp hterm e' he'
    exact h.staysTerminal p' e (q' ++ q) (by rw [hp, List.append_assoc]; rfl) hterm e'
      (List.mem_append_left _ he')
  completeIff := fun e he => h.completeIff e (List.mem_append_left _ he)

/-! ## What the tools have to do with their events -/

/-- A tool and the events of its unit. -/
structure Follows (id : ToolActionId) (events : List CanonicalUnitEvent) (tool : ToolAssembler) :
    Prop where
  unitId : tool.unitId = toolUnitId id
  lifecycle : Lifecycle events
  nonempty : events ≠ []
  generation : events.length = tool.generation
  unfinished : tool.terminal = none → tool.executionState ≠ .terminal ∧ Unfinished events
  finished : tool.terminal ≠ none → ∃ s, .completed s ∈ events

/-- Every tool follows its events, and nothing was told of a tool that is not
known. -/
def Sound (a : Assembly) : Prop :=
  ∀ id, match a.tools.lookup id with
    | none => toolEvents id a.published = []
    | some tool => Follows id (toolEvents id a.published) tool

/-- Every tool unit has followed the life-cycle. -/
def Orderly (a : Assembly) : Prop := ∀ id, Lifecycle (toolEvents id a.published)

theorem Sound.orderly {a : Assembly} (h : Sound a) : Orderly a := by
  intro id
  have hid := h id
  cases hl : a.tools.lookup id with
  | none =>
      rw [hl] at hid
      replace hid : toolEvents id a.published = [] := hid
      rw [hid]
      exact lifecycle_nil
  | some tool =>
      rw [hl] at hid
      exact hid.lifecycle

theorem Sound.aside {a a' : Assembly} (h : Sound a) (haside : Aside a a') : Sound a' := by
  intro id
  rw [haside.tools, haside.toolEvents]
  exact h id

theorem sound_empty : Sound {} := by
  intro id
  exact rfl

/-- One tool moves on and its event goes out. -/
theorem Sound.advance {a : Assembly} (h : Sound a) {id : ToolActionId} {tool : ToolAssembler}
    {e : CanonicalUnitEvent} (he : e.snapshot.unitId = toolUnitId id)
    (hfollows : Follows id (toolEvents id a.published ++ [e]) tool) :
    Sound { a with tools := a.tools.put id tool, published := a.published ++ [.unit e] } := by
  intro id'
  rw [HashMap.lookup_put, toolEvents_append]
  by_cases hid : id' = id
  · subst hid
    have hone : toolEvents id' [.unit e] = [e] := by
      simp [toolEvents, eventOf, he]
    rw [if_pos rfl, hone]
    exact hfollows
  · have hnone : toolEvents id' [.unit e] = [] := by
      have hne : ¬ e.snapshot.unitId = toolUnitId id' := by
        rw [he]
        intro heq
        exact hid (toolUnitId_inj heq).symm
      simp [toolEvents, eventOf, hne]
    rw [if_neg hid, hnone, List.append_nil]
    exact h id'

/-- The known tool, or a new one without events. -/
theorem Sound.known {a : Assembly} (h : Sound a) (id : ToolActionId) :
    (a.receiving id).unitId = toolUnitId id ∧
      (a.receiving id).generation = (toolEvents id a.published).length + 1 ∧
      Lifecycle (toolEvents id a.published) := by
  have hid := h id
  unfold Assembly.receiving
  cases hl : a.tools.lookup id with
  | none =>
      rw [hl] at hid
      replace hid : toolEvents id a.published = [] := hid
      rw [hid]
      exact ⟨rfl, rfl, lifecycle_nil⟩
  | some tool =>
      rw [hl] at hid
      exact ⟨hid.unitId, by rw [hid.generation]; rfl, hid.lifecycle⟩

/-! ## A signal -/

/-- A signal in its place: no result first, and nothing after a result. -/
def InPlaceSignal (a : Assembly) (id : ToolActionId) (signal : ToolSignal) : Prop :=
  match a.tools.lookup id with
  | none => ∀ success result, signal ≠ .resolved success result
  | some tool => tool.terminal = none

theorem signalEvent_snapshot (isNew : Bool) (signal : ToolSignal) (s : CanonicalUnitSnapshot) :
    (signalEvent isNew signal s).snapshot = s := by
  cases signal <;> cases isNew <;> rfl

/-- The event shows the tool. -/
theorem terminal_toolSnapshot {e : CanonicalUnitEvent} {a : Assembly} {tool : ToolAssembler}
    (he : e.snapshot = a.toolSnapshot tool) :
    (e.Terminal ↔ tool.executionState = .terminal) ∧
      (e.snapshot.unitState = .complete ↔ tool.terminal ≠ none) := by
  constructor
  · unfold CanonicalUnitEvent.Terminal
    rw [he]
    constructor
    · rintro ⟨t, ht, hterm⟩
      cases ht
      exact hterm
    · intro hterm
      exact ⟨tool.event, rfl, hterm⟩
  · rw [he]
    show tool.unitState = .complete ↔ _
    unfold ToolAssembler.unitState
    cases tool.terminal with
    | none =>
        simp only [Option.isSome_none, Bool.false_eq_true, if_false]
        split <;> simp
    | some o => simp

/-- **A signal in its place** keeps the tool in step with its events. -/
theorem Sound.receive {a : Assembly} (h : Sound a) {id : ToolActionId} {signal : ToolSignal}
    (hsignal : InPlaceSignal a id signal) :
    Follows id (toolEvents id a.published ++
        [signalEvent (a.tools.lookup id).isNone signal
          (a.toolSnapshot ((a.receiving id).receive signal))])
      ((a.receiving id).receive signal) := by
  obtain ⟨hunit, hgen, hlife⟩ := h.known id
  have hid := h id
  -- the tool has not ended before
  have hbefore : (a.receiving id).terminal = none ∧ Unfinished (toolEvents id a.published) := by
    unfold InPlaceSignal at hsignal
    unfold Assembly.receiving
    cases hl : a.tools.lookup id with
    | none =>
        rw [hl] at hid
        replace hid : toolEvents id a.published = [] := hid
        rw [hid]
        exact ⟨rfl, by simp [Unfinished]⟩
    | some tool =>
        rw [hl] at hid hsignal
        exact ⟨hsignal, (hid.unfinished hsignal).2⟩
  have hnew : toolEvents id a.published = [] → (a.tools.lookup id).isNone = true := by
    intro hnil
    cases hl : a.tools.lookup id with
    | none => rfl
    | some tool =>
        rw [hl] at hid
        exact absurd hnil hid.nonempty
  have hold : ∀ success result, signal = .resolved success result →
      toolEvents id a.published ≠ [] := by
    intro success result hs hnil
    unfold InPlaceSignal at hsignal
    have hnone := Option.isNone_iff_eq_none.mp (hnew hnil)
    rw [hnone] at hsignal
    exact hsignal success result hs
  obtain ⟨hterm, hstate⟩ := terminal_toolSnapshot
    (signalEvent_snapshot (a.tools.lookup id).isNone signal
      (a.toolSnapshot ((a.receiving id).receive signal)))
  -- the state of the tool after the signal
  have hafter : ((a.receiving id).receive signal).terminal ≠ none ↔
      ((a.receiving id).receive signal).executionState = .terminal := by
    cases signal with
    | waiting name waitingFor => simp [ToolAssembler.receive, hbefore.1]
    | requestReady name arguments => simp [ToolAssembler.receive, hbefore.1]
    | resolved success result => simp [ToolAssembler.receive]
  refine ⟨by rw [ToolAssembler.receive_unitId, hunit], ?_, by simp, ?_, ?_, ?_⟩
  · apply hlife.concat hbefore.2
    · rw [CanonicalUnitEvent.generation, signalEvent_snapshot]
      exact (ToolAssembler.receive_generation _ _).trans hgen
    · intro hnil
      rw [hnew hnil]
      cases signal with
      | waiting name waitingFor => exact ⟨_, rfl⟩
      | requestReady name arguments => exact ⟨_, rfl⟩
      | resolved success result => exact absurd hnil (hold success result rfl)
    · rw [hstate, hafter, hterm]
  · rw [List.length_append, List.length_singleton, ToolAssembler.receive_generation, hgen]
  · intro hnone
    have hexec : ((a.receiving id).receive signal).executionState ≠ .terminal := by
      intro hexec
      exact hafter.mpr hexec hnone
    refine ⟨hexec, ?_⟩
    intro e he
    rcases List.mem_append.mp he with he | he
    · exact hbefore.2 e he
    · rw [List.mem_singleton.mp he]
      refine ⟨fun ht => hexec (hterm.mp ht), ?_⟩
      cases signal with
      | waiting name waitingFor => cases (a.tools.lookup id).isNone <;> simp [signalEvent]
      | requestReady name arguments => cases (a.tools.lookup id).isNone <;> simp [signalEvent]
      | resolved success result => simp [ToolAssembler.receive] at hnone
  · intro hsome
    cases signal with
    | waiting name waitingFor => exact absurd hbefore.1 hsome
    | requestReady name arguments => exact absurd hbefore.1 hsome
    | resolved success result => exact ⟨_, List.mem_append_right _ List.mem_cons_self⟩

/-- A signal out of its place ends the life-cycle, once its event is out. -/
theorem Sound.misplaced {a : Assembly} (h : Sound a) {id : ToolActionId} {signal : ToolSignal}
    (hsignal : ¬ InPlaceSignal a id signal) :
    ¬ Lifecycle (toolEvents id a.published ++
        [signalEvent (a.tools.lookup id).isNone signal
          (a.toolSnapshot ((a.receiving id).receive signal))]) := by
  intro hlife
  have hid := h id
  unfold InPlaceSignal at hsignal
  cases hl : a.tools.lookup id with
  | none =>
      rw [hl] at hid hsignal hlife
      replace hid : toolEvents id a.published = [] := hid
      rw [hid] at hlife
      apply hsignal
      rintro success result rfl
      obtain ⟨s, hs⟩ := hlife.created _ rfl
      cases hs
  | some tool =>
      rw [hl] at hid hsignal
      obtain ⟨s, hs⟩ := hid.finished hsignal
      obtain ⟨p, q, hpq⟩ := List.append_of_mem hs
      rw [hpq, List.append_assoc] at hlife
      have hnil := hlife.completedLast p s _ rfl
      simp at hnil

/-! ## Operations -/

section Run

variable (serde : SerdeJson) (orders : Iteration) (room : Option Nat) (request : StartInterpretation)

/-- The operation, if it is a tool signal that is not refused, is one in its
place. -/
def Meets (a : Assembly) (op : EngineOp) : Prop :=
  ∀ id signal, op = .fragment (.tool id signal) → ¬ Refused room request.limits a id signal →
    InPlaceSignal a id signal

/-- After an error the tools may be ahead of their events, which matters as long
as there is somebody to receive more. -/
def Settled (a : Assembly) : Prop := Sound a ∨ (Gone room a ∧ Orderly a)

theorem Settled.orderly {a : Assembly} (h : Settled room a) : Orderly a := by
  rcases h with h | ⟨-, h⟩
  · exact h.orderly
  · exact h

theorem aside_applyOp {op : EngineOp} (h : ∀ id signal, op ≠ .fragment (.tool id signal)) :
    Moves Aside (Owner.applyOp orders room request op) := by
  cases op with
  | startResponse => exact aside_startResponse room
  | fragment frag =>
      apply aside_onFragment
      rintro id signal rfl
      exact h id signal rfl

/-- After some operations, in which a payload was over the limit or not. -/
structure AfterOps (result : Except InterpreterError Unit × Assembly) (long : Prop) : Prop where
  sound : result.1 = .ok () → Sound result.2
  orderly : Orderly result.2
  settled : ¬ long → Settled room result.2

theorem Sound.after {a : Assembly} (h : Sound a) (r : Except InterpreterError Unit) (long : Prop) :
    AfterOps room (r, a) long := ⟨fun _ => h, h.orderly, fun _ => .inl h⟩

theorem Orderly.failed {a : Assembly} (h : Orderly a) (e : InterpreterError) {long : Prop}
    (hset : ¬ long → Settled room a) : AfterOps room (.error e, a) long where
  sound := by
    intro hok
    cases hok
  orderly := h
  settled := hset

/-- A request over the limit. -/
def TooLong (op : EngineOp) : Prop :=
  ∃ id signal, op = .fragment (.tool id signal) ∧ signal.exceeds request.limits = true

/-- **One operation.** Only a payload over the limit leaves a tool ahead of its
events while somebody still receives. -/
theorem Sound.op {a : Assembly} (h : Sound a) {op : EngineOp} (hop : Meets room request a op) :
    AfterOps room (call (Owner.applyOp orders room request op) a) (TooLong request op) := by
  by_cases htool : ∃ id signal, op = .fragment (.tool id signal)
  · obtain ⟨id, signal, rfl⟩ := htool
    show AfterOps room (call (onTool room request.limits id signal) a) _
    rcases onTool_cases room request.limits a id signal with
      ⟨-, e, hcall⟩ | ⟨hlong, e, hcall⟩ | ⟨hgone, e, hcall⟩ | ⟨hgo, hcall⟩
    · rw [hcall]
      exact h.after room _ _
    · rw [hcall]
      apply Orderly.failed
      · exact h.orderly
      · intro hshort
        exact absurd ⟨id, signal, rfl, hlong⟩ hshort
    · rw [hcall]
      apply Orderly.failed
      · exact h.orderly
      · intro _
        exact .inr ⟨hgone, h.orderly⟩
    · rw [hcall]
      apply Sound.after
      refine h.advance ?_ (h.receive (hop id signal rfl hgo))
      rw [signalEvent_snapshot]
      exact (ToolAssembler.receive_unitId _ _).trans (h.known id).1
  · have hsound : Sound (call (Owner.applyOp orders room request op) a).2 := by
      apply h.aside
      apply aside_applyOp
      intro id signal hop
      exact htool ⟨id, signal, hop⟩
    exact hsound.after room _ _

/-- **A run of operations**, each of which meets the condition where it comes. -/
theorem Sound.ops {a : Assembly} (h : Sound a) {ops : List EngineOp}
    (hops : ∀ p op q b, ops = p ++ op :: q →
      call (forEach (Owner.applyOp orders room request) p) a = (.ok (), b) →
      Meets room request b op) :
    AfterOps room (call (forEach (Owner.applyOp orders room request) ops) a)
      (∃ op ∈ ops, TooLong request op) := by
  induction ops using List.reverseRecOn with
  | nil => exact h.after room _ _
  | append_singleton ops op ih =>
      have hbefore := ih (by
        intro p op' q b hp
        exact hops p op' (q ++ [op]) b (by simp [hp]))
      rw [call_forEach_append]
      rcases hrun : call (forEach (Owner.applyOp orders room request) ops) a with ⟨e | u, b⟩
      · -- the run has stopped before
        rw [hrun] at hbefore
        apply hbefore.orderly.failed
        intro hshort
        apply hbefore.settled
        rintro ⟨op', hmem, hlong⟩
        exact hshort ⟨op', List.mem_append_left _ hmem, hlong⟩
      · rw [hrun] at hbefore
        simp only [call_forEach_singleton]
        have hlast := (hbefore.sound rfl).op orders room request (hops ops op [] b rfl hrun)
        refine ⟨hlast.sound, hlast.orderly, ?_⟩
        intro hshort
        apply hlast.settled
        intro hlong
        exact hshort ⟨op, by simp, hlong⟩

/-! ## The end of a run -/

variable {room}

theorem Settled.aside {a a' : Assembly} (h : Settled room a) (haside : Aside a a') :
    Settled room a' := by
  rcases h with h | ⟨hgone, hord⟩
  · exact .inl (h.aside haside)
  · obtain ⟨out, hout, -⟩ := haside.published
    refine .inr ⟨hgone.mono (by rw [hout, List.length_append]; omega), ?_⟩
    intro id
    rw [haside.toolEvents]
    exact hord id

/-- The quarantine of a tool is one more event of its life. -/
theorem Sound.interrupt {a : Assembly} (h : Sound a) {id : ToolActionId} {tool : ToolAssembler}
    (hl : a.tools.lookup id = some tool) (hopen : tool.terminal = none) :
    Follows id (toolEvents id a.published ++ [.incomplete (a.toolSnapshot tool.interrupt)])
      tool.interrupt := by
  have hid := h id
  rw [hl] at hid
  replace hid : Follows id (toolEvents id a.published) tool := hid
  obtain ⟨hexec, hunfinished⟩ := hid.unfinished hopen
  obtain ⟨hterm, hstate⟩ := terminal_toolSnapshot
    (e := .incomplete (a.toolSnapshot tool.interrupt)) rfl
  have hnot : ¬ (CanonicalUnitEvent.incomplete (a.toolSnapshot tool.interrupt)).Terminal := by
    rw [hterm]
    exact hexec
  refine ⟨hid.unitId, ?_, by simp, ?_, ?_, ?_⟩
  · apply hid.lifecycle.concat hunfinished
    · show tool.generation + 1 = _
      rw [hid.generation]
    · intro hnil
      exact absurd hnil hid.nonempty
    · rw [hstate]
      exact ⟨fun hsome => absurd hopen hsome, fun ht => absurd ht hnot⟩
  · rw [List.length_append, List.length_singleton, hid.generation]
    rfl
  · intro _
    refine ⟨hexec, ?_⟩
    intro e he
    rcases List.mem_append.mp he with he | he
    · exact hunfinished e he
    · rw [List.mem_singleton.mp he]
      exact ⟨hnot, by simp⟩
  · intro hsome
    exact absurd hopen hsome

theorem Settled.quarantineTool {a : Assembly} (h : Settled room a) (id : ToolActionId) :
    Settled room (call (quarantineTool room id) a).2 := by
  unfold Interpreter.quarantineTool
  rw [call_get_bind]
  cases hl : a.tools.lookup id with
  | none => exact h
  | some tool =>
      simp only
      split
      · exact h
      · rename_i hopen
        rw [Option.not_isSome_iff_eq_none] at hopen
        simp only [setTool, call_modify_bind]
        rcases publish_cases room (.unit (.incomplete (a.toolSnapshot tool.interrupt)))
            { a with tools := a.tools.put id tool.interrupt } with ⟨hgone, hcall⟩ | ⟨hgo, hcall⟩
        · rw [hcall]
          exact .inr ⟨hgone, h.orderly⟩
        · rw [hcall]
          rcases h with h | ⟨hgone, -⟩
          · have hid := h id
            rw [hl] at hid
            exact .inl (h.advance hid.unitId (h.interrupt hl hopen))
          · exact absurd hgone hgo

theorem Settled.quarantine {a : Assembly} (h : Settled room a) (frameBytes : Nat) :
    Orderly (call (Owner.quarantine orders room frameBytes) a).2 := by
  have hchannels : Settled room
      (call (forEach takeUnresolved (orders.channels.keys a.channels)) a).2 :=
    h.aside (aside_forEach _ aside_takeUnresolved a)
  unfold Owner.quarantine
  rw [call_get_bind, call_bind]
  rcases hcall : call (forEach takeUnresolved (orders.channels.keys a.channels)) a with ⟨e | u, b⟩
  · rw [hcall] at hchannels
    exact hchannels.orderly
  · rw [hcall] at hchannels
    simp only [call_modify_bind, call_get_bind]
    have hcounted : Settled room
        { b with unresolvedBytesAtEnd := b.unresolvedBytesAtEnd + frameBytes } :=
      hchannels.aside ⟨rfl, [], (List.append_nil _).symm, by simp⟩
    have hall : Settled room (call (forEach (Interpreter.quarantineTool room)
        (orders.tools.keys b.tools))
        { b with unresolvedBytesAtEnd := b.unresolvedBytesAtEnd + frameBytes }).2 := by
      apply forEach_invariant hcounted
      intro p id q c _ _ hc
      exact hc.quarantineTool id
    exact hall.orderly

/-- The terminal report comes last, unless nobody receives it. -/
theorem assembly_finish (o : Owner) (kind : InterpretationEndKind) :
    (o.finish room kind).assembly.tools = o.assembly.tools ∧
      ∃ out, (o.finish room kind).assembly.published = o.assembly.published ++ out ∧
        (out = [] ∨ ∃ report, out = [.ended report]) := by
  unfold Owner.finish
  split
  · exact ⟨rfl, [], (List.append_nil _).symm, .inl rfl⟩
  · simp only [Owner.assemble]
    rcases publish_cases room (.ended _) o.assembly with ⟨-, hcall⟩ | ⟨-, hcall⟩
    · rw [hcall]
      exact ⟨rfl, [], (List.append_nil _).symm, .inl rfl⟩
    · rw [hcall]
      exact ⟨rfl, _, rfl, .inr ⟨_, rfl⟩⟩

theorem toolEvents_finish (o : Owner) (kind : InterpretationEndKind) (id : ToolActionId) :
    toolEvents id (o.finish room kind).assembly.published =
      toolEvents id o.assembly.published := by
  obtain ⟨-, out, hout, hended⟩ := @assembly_finish room o kind
  have hnone : toolEvents id out = [] := by
    rcases hended with rfl | ⟨report, rfl⟩
    · rfl
    · rfl
  rw [hout, toolEvents_append, hnone, List.append_nil]

theorem Settled.quarantineAndFinish {o : Owner} (h : Settled room o.assembly)
    (kind : InterpretationEndKind) :
    Orderly (o.quarantineAndFinish orders room kind).assembly := by
  intro id
  rw [Owner.quarantineAndFinish, toolEvents_finish]
  exact h.quarantine orders o.decoder.frameBuf.length id

theorem Orderly.finish {o : Owner} (h : Orderly o.assembly) (kind : InterpretationEndKind) :
    Orderly (o.finish room kind).assembly := by
  intro id
  rw [toolEvents_finish]
  exact h id

variable (room)

/-- At the clean end, calls are told waiting and nothing else. -/
theorem sealOps_waiting {family : DialectFamily} {d d' : Decoder} {ops : List EngineOp}
    (h : d.sealOps serde orders.calls family = (.ok ops, d')) :
    ∀ op ∈ ops, ∃ id name waitingFor, op = .fragment (.tool id (.waiting name waitingFor)) := by
  have hfrags : ∀ st frags, d.openai.sealClean serde orders.calls = .ok (st, frags) →
      ∀ frag ∈ frags, ∃ id name waitingFor, frag = .tool id (.waiting name waitingFor) := by
    intro st frags hseal frag hfrag
    unfold OpenAiSseState.sealClean at hseal
    simp only at hseal
    split at hseal
    · cases hseal
    · split at hseal
      · cases hseal
      · split at hseal
        · cases hseal
        · cases hseal
          obtain ⟨k, -, hk⟩ := List.mem_filterMap.mp hfrag
          unfold OpenAiSseState.sealedCall at hk
          split at hk
          · cases hk
          · split at hk
            · cases hk
              exact ⟨_, _, _, rfl⟩
            · cases hk
  unfold Decoder.sealOps at h
  split at h
  · split at h
    · cases h
    · rename_i st frags hseal
      cases h
      intro op hop
      obtain ⟨frag, hfrag, rfl⟩ := List.mem_map.mp hop
      obtain ⟨id, name, waitingFor, rfl⟩ := hfrags _ _ hseal frag hfrag
      exact ⟨id, name, waitingFor, rfl⟩
  · cases h
    simp

/-- The operations of a run, in order: those of its chunks, then those of its
clean end. -/
def handledOps (cmds : List InputCmd) : List EngineOp :=
  let decoded := decodeAll serde orders request (Owner.new request).decoder (chunksOf cmds)
  decoded.1 ++
    match decoded.2 with
    | .error _ => []
    | .ok d =>
        if stopOf cmds = .finishClean then
          ((d.sealOps serde orders.calls request.family).1.toOption).getD []
        else []

/-- Every tool signal that the run handles and does not refuse is in its place. -/
def SignalsInPlace (cmds : List InputCmd) : Prop :=
  ∀ p op q a, handledOps serde orders request cmds = p ++ op :: q →
    call (forEach (Owner.applyOp orders room request) p) {} = (.ok (), a) →
    Meets room request a op

variable {serde orders room request} {cmds : List InputCmd}

/-- The chunks that went in, as operations. -/
theorem ingested_ops {o : Owner}
    (hin : (Owner.new request).ingestAll serde orders room request (chunksOf cmds) = (.ok (), o)) :
    call (forEach (Owner.applyOp orders room request)
      (decodeAll serde orders request (Owner.new request).decoder (chunksOf cmds)).1) {} =
        (.ok (), o.assembly) ∧
      (decodeAll serde orders request (Owner.new request).decoder (chunksOf cmds)).2 =
        .ok o.decoder := by
  obtain ⟨hassembly, -, -, hresult, hdecoder⟩ :=
    (Owner.new request).ingestAll_eq serde orders room request (chunksOf cmds)
  rw [hin] at hassembly hresult hdecoder
  obtain ⟨u, hu, -⟩ := Except.bind_eq_ok.mp hresult.symm
  exact ⟨Prod.ext hu hassembly.symm, hdecoder rfl⟩

/-- The chunks of a run, taken in. -/
theorem SignalsInPlace.ingested (h : SignalsInPlace serde orders room request cmds) {o : Owner}
    {result : Except InterpreterError Unit}
    (hin : (Owner.new request).ingestAll serde orders room request (chunksOf cmds) = (result, o)) :
    Orderly o.assembly ∧ (result = .ok () → Sound o.assembly) := by
  let ops := (decodeAll serde orders request (Owner.new request).decoder (chunksOf cmds)).1
  have hafter : AfterOps room (call (forEach (Owner.applyOp orders room request) ops) {})
      (∃ op ∈ ops, TooLong request op) := by
    apply sound_empty.ops
    intro p op q b hp
    have hops : handledOps serde orders request cmds = ops ++ _ := rfl
    rw [hp, List.append_assoc] at hops
    exact h p op _ b hops
  obtain ⟨hassembly, -, -, hresult, -⟩ :=
    (Owner.new request).ingestAll_eq serde orders room request (chunksOf cmds)
  rw [hin] at hassembly hresult
  replace hassembly : o.assembly = _ := hassembly
  rw [hassembly]
  refine ⟨hafter.orderly, ?_⟩
  intro hok
  apply hafter.sound
  rw [hok] at hresult
  obtain ⟨u, hu, -⟩ := Except.bind_eq_ok.mp hresult.symm
  exact hu

/-- The last fragments of a run. -/
theorem SignalsInPlace.sealing (h : SignalsInPlace serde orders room request cmds) {o : Owner}
    (hin : (Owner.new request).ingestAll serde orders room request (chunksOf cmds) = (.ok (), o))
    (hstop : stopOf cmds = .finishClean) {d : Decoder} {ops : List EngineOp}
    (hseal : o.decoder.sealOps serde orders.calls request.family = (.ok ops, d)) :
    AfterOps room (call (forEach (Owner.applyOp orders room request) ops) o.assembly) False := by
  obtain ⟨hrun, hdecoder⟩ := ingested_ops hin
  have hhandled : handledOps serde orders request cmds =
      (decodeAll serde orders request (Owner.new request).decoder (chunksOf cmds)).1 ++ ops := by
    unfold handledOps
    simp only [hdecoder, hstop, if_true, hseal]
    rfl
  have hafter : AfterOps room (call (forEach (Owner.applyOp orders room request) ops) o.assembly)
      (∃ op ∈ ops, TooLong request op) := by
    apply ((h.ingested hin).2 rfl).ops
    intro p op q b hp hcall
    apply h (_ ++ p) op q b
    · rw [hhandled, hp, List.append_assoc]
    · rw [call_forEach_append, hrun]
      exact hcall
  refine ⟨hafter.sound, hafter.orderly, ?_⟩
  intro _
  apply hafter.settled
  rintro ⟨op, hop, id, signal, hsignal, hlong⟩
  obtain ⟨id', name, waitingFor, rfl⟩ := sealOps_waiting serde orders hseal op hop
  cases hsignal
  cases hlong

/-- **Signals in their places keep every tool unit to its life-cycle.** -/
theorem SignalsInPlace.orderly (h : SignalsInPlace serde orders room request cmds) :
    Orderly ((Owner.new request).run serde orders room request cmds).assembly := by
  have hends := (Owner.new request).run_ends serde orders room request cmds
  have hsealed : ∀ {o d ops r a},
      (Owner.new request).ingestAll serde orders room request (chunksOf cmds) = (.ok (), o) →
      stopOf cmds = .finishClean →
      o.decoder.sealOps serde orders.calls request.family = (.ok ops, d) →
      call (Owner.sealAll orders room request ops) o.assembly = (r, a) → Settled room a := by
    intro o d ops r a hin hstop hseal hall
    have hafter := h.sealing hin hstop hseal
    unfold Owner.sealAll at hall
    rw [call_bind] at hall
    rcases hops : call (forEach (Owner.applyOp orders room request) ops) o.assembly with ⟨e | u, b⟩
    · rw [hops] at hafter hall
      cases hall
      exact hafter.settled id
    · rw [hops] at hafter hall
      replace hall : call (sealTextChannels room orders.channels) b = (r, a) := hall
      have haside := aside_sealTextChannels room orders.channels b
      rw [hall] at haside
      exact (hafter.settled id).aside haside
  generalize (Owner.new request).run serde orders room request cmds = final at hends
  cases hends with
  | refused hin => exact (h.ingested hin).1.finish _
  | aborted hin _ =>
      exact Settled.quarantineAndFinish orders (.inl ((h.ingested hin).2 rfl)) _
  | @unsealable o d e hin _ _ =>
      have hsound : Settled room o.assembly := .inl ((h.ingested hin).2 rfl)
      exact Settled.quarantineAndFinish (o := { o with decoder := d }) orders hsound _
  | @unsealed o d ops a e hin hstop hseal hall =>
      exact Settled.quarantineAndFinish (o := { o with decoder := d, assembly := a }) orders
        (hsealed hin hstop hseal hall) _
  | @complete o d ops a hin hstop hseal hall =>
      exact Orderly.finish (o := { o with decoder := d, assembly := a })
        (hsealed hin hstop hseal hall).orderly _

/-! ## The converse -/

/-- More has been published. -/
def Grew (a a' : Assembly) : Prop := a.published <+: a'.published

theorem Grew.refl (a : Assembly) : Grew a a := List.prefix_refl _

theorem Grew.trans (a b c : Assembly) (h : Grew a b) (h' : Grew b c) : Grew a c :=
  List.IsPrefix.trans h h'

theorem Aside.grew {a a' : Assembly} (h : Aside a a') : Grew a a' := by
  obtain ⟨out, hout, -⟩ := h.published
  exact ⟨out, hout.symm⟩

theorem grew_finish (o : Owner) (kind : InterpretationEndKind) :
    Grew o.assembly (o.finish room kind).assembly := by
  obtain ⟨-, out, hout, -⟩ := @assembly_finish room o kind
  exact ⟨out, hout.symm⟩

theorem grew_applyOp (op : EngineOp) : Moves Grew (Owner.applyOp orders room request op) := by
  intro a
  by_cases htool : ∃ id signal, op = .fragment (.tool id signal)
  · obtain ⟨id, signal, rfl⟩ := htool
    show Grew a (call (onTool room request.limits id signal) a).2
    rcases onTool_cases room request.limits a id signal with
      ⟨-, e, hcall⟩ | ⟨-, e, hcall⟩ | ⟨-, e, hcall⟩ | ⟨-, hcall⟩
    · rw [hcall]
      exact List.prefix_refl _
    · rw [hcall]
      exact List.prefix_refl _
    · rw [hcall]
      exact List.prefix_refl _
    · rw [hcall]
      exact List.prefix_append _ _
  · apply Aside.grew
    apply aside_applyOp
    intro id signal hop
    exact htool ⟨id, signal, hop⟩

theorem grew_ops (ops : List EngineOp) :
    Moves Grew (forEach (Owner.applyOp orders room request) ops) :=
  Moves.forEach Grew.refl Grew.trans ops (fun op _ => grew_applyOp op)

theorem grew_quarantineTool (id : ToolActionId) : Moves Grew (quarantineTool room id) := by
  intro a
  unfold Interpreter.quarantineTool
  rw [call_get_bind]
  split
  · exact List.prefix_refl _
  · split
    · exact List.prefix_refl _
    · rename_i tool _ _
      simp only [setTool, call_modify_bind]
      rcases publish_cases room (.unit (.incomplete (a.toolSnapshot tool.interrupt)))
          { a with tools := a.tools.put id tool.interrupt } with ⟨-, hcall⟩ | ⟨-, hcall⟩
      · rw [hcall]
        exact List.prefix_refl _
      · rw [hcall]
        exact List.prefix_append _ _

theorem grew_quarantine (frameBytes : Nat) : Moves Grew (Owner.quarantine orders room frameBytes) := by
  intro a
  unfold Owner.quarantine
  rw [call_get_bind]
  apply Moves.bind Grew.trans
  · intro b
    exact (aside_forEach _ aside_takeUnresolved b).grew
  · intro u b
    rw [call_modify_bind, call_get_bind]
    exact Moves.forEach Grew.refl Grew.trans _
      (fun id _ => grew_quarantineTool id) { b with
        unresolvedBytesAtEnd := b.unresolvedBytesAtEnd + frameBytes }

theorem grew_quarantineAndFinish (o : Owner) (kind : InterpretationEndKind) :
    Grew o.assembly (o.quarantineAndFinish orders room kind).assembly :=
  Grew.trans _ _ _ (grew_quarantine o.decoder.frameBuf.length o.assembly)
    (grew_finish (Owner.quarantinePartials orders room o).2 kind)

/-- An error in the chunks is the last of what the run handles. -/
theorem refused_ops {o : Owner} {e : InterpreterError}
    (hin : (Owner.new request).ingestAll serde orders room request (chunksOf cmds) =
      (.error e, o)) :
    (call (forEach (Owner.applyOp orders room request)
      (handledOps serde orders request cmds)) {}).2 = o.assembly := by
  obtain ⟨hassembly, -, -, hresult, -⟩ :=
    (Owner.new request).ingestAll_eq serde orders room request (chunksOf cmds)
  rw [hin] at hassembly hresult
  rw [show o.assembly = _ from hassembly]
  rw [handledOps, call_forEach_append]
  rcases hrun : call (forEach (Owner.applyOp orders room request)
    (decodeAll serde orders request (Owner.new request).decoder (chunksOf cmds)).1) {} with
    ⟨e' | u, b⟩
  · exact (congrArg Prod.snd hrun).symm
  · -- everything was assembled, so the decoder has refused the rest
    rw [show call (forEach (Owner.applyOp orders room request) _) (Owner.new request).assembly = _
      from hrun] at hresult ⊢
    cases hdecoder :
      (decodeAll serde orders request (Owner.new request).decoder (chunksOf cmds)).2 with
    | error e' => rfl
    | ok d =>
        rw [hdecoder] at hresult
        cases hresult

/-- Without operations at the end, the chunks are all that a run handles. -/
theorem handled_plain {o : Owner}
    (hin : (Owner.new request).ingestAll serde orders room request (chunksOf cmds) = (.ok (), o))
    (hno : ∀ ops d, stopOf cmds = .finishClean →
      o.decoder.sealOps serde orders.calls request.family ≠ (.ok ops, d)) :
    (call (forEach (Owner.applyOp orders room request)
      (handledOps serde orders request cmds)) {}).2 = o.assembly := by
  obtain ⟨hrun, hdecoder⟩ := ingested_ops hin
  have hnil : (if stopOf cmds = .finishClean then
      ((o.decoder.sealOps serde orders.calls request.family).1.toOption).getD [] else []) = [] := by
    split
    · rename_i hstop
      rcases hseal : o.decoder.sealOps serde orders.calls request.family with ⟨e | ops, d⟩
      · rfl
      · exact absurd hseal (hno ops d hstop)
    · rfl
  rw [handledOps]
  simp only [hdecoder, hnil, List.append_nil, hrun]

/-- A clean end handles its operations after those of the chunks. -/
theorem handled_clean {o : Owner} {d : Decoder} {ops : List EngineOp}
    (hin : (Owner.new request).ingestAll serde orders room request (chunksOf cmds) = (.ok (), o))
    (hstop : stopOf cmds = .finishClean)
    (hseal : o.decoder.sealOps serde orders.calls request.family = (.ok ops, d)) :
    call (forEach (Owner.applyOp orders room request) (handledOps serde orders request cmds)) {} =
      call (forEach (Owner.applyOp orders room request) ops) o.assembly := by
  obtain ⟨hrun, hdecoder⟩ := ingested_ops hin
  rw [handledOps]
  simp only [hdecoder, hstop, if_true, hseal, call_forEach_append, hrun]
  rfl

/-- What a run has handled is published in the end. -/
theorem grew_run (cmds : List InputCmd) :
    Grew (call (forEach (Owner.applyOp orders room request)
        (handledOps serde orders request cmds)) {}).2
      ((Owner.new request).run serde orders room request cmds).assembly := by
  have hends := (Owner.new request).run_ends serde orders room request cmds
  have hclean : ∀ {o : Owner} {d ops r a},
      (Owner.new request).ingestAll serde orders room request (chunksOf cmds) = (.ok (), o) →
      stopOf cmds = .finishClean →
      o.decoder.sealOps serde orders.calls request.family = (.ok ops, d) →
      call (Owner.sealAll orders room request ops) o.assembly = (r, a) →
      Grew (call (forEach (Owner.applyOp orders room request)
        (handledOps serde orders request cmds)) {}).2 a := by
    intro o d ops r a hin hstop hseal hall
    rw [handled_clean hin hstop hseal]
    unfold Owner.sealAll at hall
    rw [call_bind] at hall
    rcases hops : call (forEach (Owner.applyOp orders room request) ops) o.assembly with ⟨e | u, b⟩
    · rw [hops] at hall
      cases hall
      exact .refl _
    · rw [hops] at hall
      replace hall : call (sealTextChannels room orders.channels) b = (r, a) := hall
      have haside := aside_sealTextChannels room orders.channels b
      rw [hall] at haside
      exact haside.grew
  generalize (Owner.new request).run serde orders room request cmds = final at hends
  cases hends with
  | @refused o e hin =>
      rw [refused_ops hin]
      exact grew_finish o _
  | @aborted o hin hstop =>
      rw [handled_plain hin (fun _ _ h => absurd h hstop)]
      exact grew_quarantineAndFinish o _
  | @unsealable o d e hin hstop hseal =>
      rw [handled_plain hin (fun ops d' _ h => by rw [hseal] at h; cases h)]
      exact grew_quarantineAndFinish { o with decoder := d } _
  | @unsealed o d ops a e hin hstop hseal hall =>
      exact Grew.trans _ _ _ (hclean hin hstop hseal hall)
        (grew_quarantineAndFinish { o with decoder := d, assembly := a } _)
  | @complete o d ops a hin hstop hseal hall =>
      exact Grew.trans _ _ _ (hclean hin hstop hseal hall)
        (grew_finish { o with decoder := d, assembly := a } _)

/-- A signal out of its place is told, and what is told stays. -/
theorem Orderly.meets
    (h : Orderly ((Owner.new request).run serde orders room request cmds).assembly)
    {p q : List EngineOp} {op : EngineOp} {a : Assembly} (hsound : Sound a)
    (hops : handledOps serde orders request cmds = p ++ op :: q)
    (hp : call (forEach (Owner.applyOp orders room request) p) {} = (.ok (), a)) :
    Meets room request a op := by
  rintro id signal rfl hgo
  apply Classical.byContradiction
  intro hmisplaced
  have hgrew := @grew_run serde orders room request cmds
  rw [hops, call_forEach_append, hp] at hgrew
  replace hgrew : Grew (call (forEach (Owner.applyOp orders room request)
    (.fragment (.tool id signal) :: q)) a).2 _ := hgrew
  rw [call_forEach_cons] at hgrew
  rw [show call (Owner.applyOp orders room request (.fragment (.tool id signal))) a =
    call (onTool room request.limits id signal) a from rfl] at hgrew
  rcases onTool_cases room request.limits a id signal with
    ⟨hrefused, -⟩ | ⟨hlong, -⟩ | ⟨hgone, -⟩ | ⟨-, hcall⟩
  · exact hgo hrefused
  · exact hgo (.tooLong hlong)
  · exact hgo (.gone hgone)
  · rw [hcall] at hgrew
    obtain ⟨rest, hrest⟩ := Grew.trans _ _ _ (grew_ops q _) hgrew
    have hlife := h id
    rw [← hrest, toolEvents_append] at hlife
    have hearly := hlife.of_append
    rw [toolEvents_append] at hearly
    apply hsound.misplaced hmisplaced
    have hunit : (a.toolSnapshot ((a.receiving id).receive signal)).unitId = toolUnitId id :=
      (ToolAssembler.receive_unitId _ _).trans (hsound.known id).1
    have hone : toolEvents id [.unit (signalEvent (a.tools.lookup id).isNone signal
        (a.toolSnapshot ((a.receiving id).receive signal)))] =
        [signalEvent (a.tools.lookup id).isNone signal
          (a.toolSnapshot ((a.receiving id).receive signal))] := by
      simp [toolEvents, eventOf, signalEvent_snapshot, hunit]
    rw [← hone]
    exact hearly

/-- As long as every life is in order, the tools follow their events. -/
theorem Orderly.sound
    (h : Orderly ((Owner.new request).run serde orders room request cmds).assembly)
    (p : List EngineOp) :
    ∀ q a, handledOps serde orders request cmds = p ++ q →
      call (forEach (Owner.applyOp orders room request) p) {} = (.ok (), a) → Sound a := by
  induction p using List.reverseRecOn with
  | nil =>
      intro q a _ hp
      cases hp
      exact sound_empty
  | append_singleton p op ih =>
      intro q a hops hp
      rw [List.append_assoc] at hops
      rw [call_forEach_append] at hp
      rcases hbefore : call (forEach (Owner.applyOp orders room request) p) {} with ⟨e | u, b⟩
      · rw [hbefore] at hp
        cases hp
      · rw [hbefore] at hp
        simp only [call_forEach_singleton] at hp
        have hsound := ih (op :: q) b hops hbefore
        have hafter := hsound.op orders room request (h.meets hsound hops hbefore)
        rw [hp] at hafter
        exact hafter.sound rfl

/-- **A tool unit keeps to its life-cycle exactly when its signals do.** -/
theorem orderly_iff_signalsInPlace (serde : SerdeJson) (orders : Iteration) (room : Option Nat)
    (request : StartInterpretation) (cmds : List InputCmd) :
    Orderly ((Owner.new request).run serde orders room request cmds).assembly ↔
      SignalsInPlace serde orders room request cmds := by
  constructor
  · intro h p op q a hops hp
    exact h.meets (h.sound p (op :: q) a hops hp) hops hp
  · intro h
    exact h.orderly

end Run

section Samples

/-- A reader of one text. -/
def readerOf (text : String) (value : Json) : SerdeJson where
  fromSlice slice := if slice = bytes text.toList then .ok value else .error "expected value"
  fromStr s := if s = text then some value else none
  toString _ := "null"

/-- Every map in the order of its entries. -/
def entryOrders : Iteration := ⟨⟨id, fun _ => .refl _⟩, ⟨id, fun _ => .refl _⟩, ⟨id, fun _ => .refl _⟩⟩

def sampleRequest (family : DialectFamily) : StartInterpretation :=
  ⟨family, 256, 256, 256, 8, 64, 8⟩

/-- A result of the tool `a`. -/
def sampleToolResult : Json :=
  .object [("type", .string "user"), ("message", .object [("content", .array [.object
    [("type", .string "tool_result"), ("tool_use_id", .string "a")]])])]

def sampleToolResultText : String :=
  "\x7b\"type\":\"user\",\"message\":\x7b\"content\":[\x7b\"type\":\"tool_result\"," ++
    "\"tool_use_id\":\"a\"\x7d]\x7d\x7d"

/-- A result of a tool that no use was seen of: its unit starts with Completed. -/
theorem result_before_use :
    ¬ ∀ (serde : SerdeJson) (orders : Iteration) (room : Option Nat)
      (request : StartInterpretation) (cmds : List InputCmd),
      Orderly ((Owner.new request).run serde orders room request cmds).assembly := by
  intro h
  have hlife := h (readerOf sampleToolResultText sampleToolResult) entryOrders none
    (sampleRequest .claudeCode)
    [.bytes (bytes (sampleToolResultText ++ "\n").toList), .finishClean] ⟨"a"⟩
  have hfirst : (toolEvents ⟨"a"⟩ ((Owner.new (sampleRequest .claudeCode)).run
      (readerOf sampleToolResultText sampleToolResult) entryOrders none
      (sampleRequest .claudeCode)
      [.bytes (bytes (sampleToolResultText ++ "\n").toList), .finishClean]).assembly.published).head? =
      some (.completed
        { unitId := ⟨"tool-a"⟩, unitGeneration := 1, unitState := .complete, laneId := .tool,
          laneOrdinal := 0,
          unit := .tool
            { toolActionId := ⟨"a"⟩, toolName := none, requestState := .assembling,
              executionState := .terminal, resultState := .complete, requestPayload := none,
              resultPayload := none, terminalOutcome := some .success, waitingFor := none } }) := by
    decide +kernel
  obtain ⟨s, hs⟩ := hlife.created _ hfirst
  cases hs

end Samples

end Monoloop.Interpreter
