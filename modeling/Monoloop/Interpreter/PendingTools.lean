import Monoloop.Interpreter.ToolLifecycle

/-!
# The limit on pending tools

The owner refuses a tool action it does not know when its table has as many entries as
actions may be pending. Nothing is ever removed from the table, so an action counts for
the rest of the run, resolved or not. `Table` says what the table holds after the
operations so far; the number of actions that are really pending follows from it.
-/

namespace Monoloop.Interpreter

open InPlace Utf8

/-- What the limit refuses an action with. -/
def pendingLimit : InterpreterError := ⟨.toolLimitExceeded, "max pending tool actions"⟩

/-- The tools of the table that have not reached a terminal state. -/
def openTools (a : Assembly) : Nat := HashMap.countWhere a.tools fun tool => tool.terminal.isNone

namespace EngineOp

/-- The action that a tool signal is about. -/
def action : EngineOp → Option ToolActionId
  | .fragment (.tool id _) => some id
  | _ => none

/-- The operation brings the result of an action. -/
def Resolves (op : EngineOp) (id : ToolActionId) : Prop :=
  ∃ success result, op = .fragment (.tool id (.resolved success result))

end EngineOp

/-- The actions of some operations, each as often as it is signalled. -/
def signalled (ops : List EngineOp) : List ToolActionId := ops.filterMap EngineOp.action

/-! ## What the table holds -/

/-- **The table after some operations.** -/
structure Table (limits : InterpretationLimits) (done : List EngineOp) (a : Assembly) : Prop where
  size : a.tools.keys.length ≤ limits.maxPendingToolActions
  known : ∀ id, (a.tools.lookup id).isSome = true ↔ id ∈ signalled done
  resolved : ∀ id tool, a.tools.lookup id = some tool →
    (tool.terminal.isSome = true ↔ ∃ op ∈ done, op.Resolves id)

section Run

variable {orders : Iteration} {room : Option Nat} {request : StartInterpretation}
  {limits : InterpretationLimits} {done : List EngineOp} {a : Assembly}

theorem table_empty : Table limits [] {} where
  size := Nat.zero_le _
  known id := by
    show (none : Option ToolAssembler).isSome = true ↔ _
    simp [signalled]
  resolved id tool h := by cases h

/-- The table has one entry for each action that was signalled. -/
theorem Table.length_keys (h : Table limits done a) :
    a.tools.keys.length = (signalled done).dedup.length := by
  apply List.Perm.length_eq
  rw [List.perm_ext_iff_of_nodup a.tools.keys_nodup (List.nodup_dedup _)]
  intro id
  rw [HashMap.mem_keys_iff, ← Option.isSome_iff_exists, h.known, List.mem_dedup]

/-- Operations that are no tool signals leave the table as it is. -/
theorem Table.aside (h : Table limits done a) {op : EngineOp}
    (hop : ∀ id signal, op ≠ .fragment (.tool id signal)) {a' : Assembly}
    (htools : a'.tools = a.tools) : Table limits (done ++ [op]) a' := by
  have haction : op.action = none := by
    cases op with
    | startResponse => rfl
    | fragment frag =>
        cases frag with
        | tool id signal => exact absurd rfl (hop id signal)
        | textDelta _ _ | responseFinished | diagnostic _ => rfl
  have hsignalled : signalled (done ++ [op]) = signalled done := by
    rw [signalled, List.filterMap_append, List.filterMap_cons_none haction, List.filterMap_nil,
      List.append_nil]
    rfl
  have hresolves : ∀ id, ¬ op.Resolves id := by
    rintro id ⟨success, result, heq⟩
    exact hop _ _ heq
  refine ⟨by rw [htools]; exact h.size, ?_, ?_⟩
  · intro id
    rw [htools, hsignalled]
    exact h.known id
  · intro id tool hlookup
    rw [htools] at hlookup
    rw [h.resolved id tool hlookup]
    simp [hresolves]

/-- A signal leaves a tool terminal when it brings the result, or when the tool was. -/
theorem terminal_receive (tool : ToolAssembler) (signal : ToolSignal) :
    (tool.receive signal).terminal.isSome = true ↔
      tool.terminal.isSome = true ∨ ∃ success result, signal = .resolved success result := by
  cases signal <;> simp [ToolAssembler.receive]

/-- Nothing was signalled of an action that is not in the table. -/
theorem Table.unresolved (h : Table limits done a) {id : ToolActionId}
    (hnone : a.tools.lookup id = none) : ¬ ∃ op ∈ done, op.Resolves id := by
  rintro ⟨op, hmem, success, result, rfl⟩
  have hknown := (h.known id).mpr (List.mem_filterMap.mpr ⟨_, hmem, rfl⟩)
  rw [hnone] at hknown
  cases hknown

/-- **A tool signal that is taken** adds its action to the table. -/
theorem Table.signal (h : Table limits done a) {id : ToolActionId} {signal : ToolSignal}
    (hroom : ¬ (limits.maxPendingToolActions ≤ a.tools.keys.length ∧ a.tools.lookup id = none))
    {a' : Assembly} (htools : a'.tools = a.tools.put id ((a.receiving id).receive signal)) :
    Table limits (done ++ [.fragment (.tool id signal)]) a' := by
  have hresolves : ∀ other, (∃ op ∈ done ++ [.fragment (.tool id signal)], op.Resolves other) ↔
      (∃ op ∈ done, op.Resolves other) ∨
        other = id ∧ ∃ success result, signal = .resolved success result := by
    intro other
    simp only [List.mem_append, List.mem_singleton, or_and_right, exists_or, exists_eq_left]
    refine or_congr_right ?_
    constructor
    · rintro ⟨success, result, heq⟩
      cases heq
      exact ⟨rfl, success, result, rfl⟩
    · rintro ⟨rfl, success, result, rfl⟩
      exact ⟨success, result, rfl⟩
  refine ⟨?_, ?_, ?_⟩
  · rw [htools]
    cases hlookup : a.tools.lookup id with
    | none =>
        rw [HashMap.put, hlookup, Option.isSome_none, if_neg (by simp),
          HashMap.length_keys_insert, hlookup]
        have hlt : a.tools.keys.length < limits.maxPendingToolActions := by
          by_contra hfull
          exact hroom ⟨Nat.le_of_not_lt hfull, hlookup⟩
        rw [Option.isSome_none, if_neg (by simp)]
        omega
    | some tool =>
        rw [HashMap.keys_put _ (by rw [hlookup]; rfl)]
        exact h.size
  · intro other
    rw [htools, HashMap.lookup_put, signalled, List.filterMap_append, List.mem_append]
    by_cases hid : other = id
    · simp [hid, EngineOp.action]
    · have hother : other ∉ [EngineOp.fragment (.tool id signal)].filterMap EngineOp.action := by
        rintro hmem
        exact hid (List.mem_singleton.mp hmem)
      rw [if_neg hid, h.known other, or_iff_left hother]
      rfl
  · intro other tool hlookup
    rw [htools, HashMap.lookup_put] at hlookup
    rw [hresolves]
    by_cases hid : other = id
    · subst hid
      rw [if_pos rfl] at hlookup
      cases hlookup
      rw [terminal_receive]
      apply or_congr
      · cases hold : a.tools.lookup other with
        | none => simp [Assembly.receiving, hold, ToolAssembler.new, h.unresolved hold]
        | some tool =>
            rw [← h.resolved other tool hold]
            simp [Assembly.receiving, hold]
      · simp
    · rw [if_neg hid] at hlookup
      rw [h.resolved other tool hlookup]
      simp [hid]

/-- The step of the table. -/
theorem Table.op (h : Table request.limits done a) {op : EngineOp} {a' : Assembly}
    (hcall : call (Owner.applyOp orders room request op) a = (.ok (), a')) :
    Table request.limits (done ++ [op]) a' := by
  by_cases htool : ∃ id signal, op = .fragment (.tool id signal)
  · obtain ⟨id, signal, rfl⟩ := htool
    replace hcall : call (onTool room request.limits id signal) a = (.ok (), a') := hcall
    rcases onTool_cases room request.limits a id signal with
      ⟨-, e, hfailed⟩ | ⟨-, e, hfailed⟩ | ⟨-, e, hfailed⟩ | ⟨hgo, hok⟩
    · rw [hfailed] at hcall
      cases hcall
    · rw [hfailed] at hcall
      cases hcall
    · rw [hfailed] at hcall
      cases hcall
    · rw [hok] at hcall
      obtain rfl := congrArg Prod.snd hcall
      refine h.signal ?_ rfl
      rintro ⟨hfull, hnone⟩
      exact hgo (.pending hfull hnone)
  · have haside := aside_applyOp orders room request
      (fun id signal heq => htool ⟨id, signal, heq⟩) a
    rw [hcall] at haside
    exact h.aside (fun id signal heq => htool ⟨id, signal, heq⟩) haside.tools

/-- **The table of a run**, after the operations it has taken. -/
theorem table_run (hrun : call (forEach (Owner.applyOp orders room request) done) {} = (.ok (), a)) :
    Table request.limits done a := by
  induction done using List.reverseRecOn generalizing a with
  | nil =>
      cases hrun
      exact table_empty
  | append_singleton done op ih =>
      rw [call_forEach_append] at hrun
      rcases hdone : call (forEach (Owner.applyOp orders room request) done) {} with ⟨e | u, b⟩
      · rw [hdone] at hrun
        cases hrun
      · rw [hdone] at hrun
        simp only [call_forEach_singleton] at hrun
        exact (ih hdone).op hrun

/-- Every entry is open exactly when no action was resolved. -/
theorem Table.open_iff (h : Table limits done a) :
    a.tools.keys.length ≤ openTools a ↔ ∀ op ∈ done, ∀ id, ¬ op.Resolves id := by
  have hle : openTools a ≤ a.tools.keys.length := List.countP_le_length
  have hall : a.tools.keys.length ≤ openTools a ↔
      ∀ id ∈ a.tools.keys, (a.tools.lookup id).any (fun tool => tool.terminal.isNone) = true := by
    rw [← List.countP_eq_length]
    exact ⟨fun hge => Nat.le_antisymm hle hge, fun heq => Nat.le_of_eq heq.symm⟩
  rw [hall]
  constructor
  · intro hopen op hop id hresolves
    obtain ⟨success, result, rfl⟩ := hresolves
    have hknown := (h.known id).mpr (List.mem_filterMap.mpr ⟨_, hop, rfl⟩)
    obtain ⟨tool, htool⟩ := Option.isSome_iff_exists.mp hknown
    have hterminal := (h.resolved id tool htool).mpr ⟨_, hop, success, result, rfl⟩
    have hnone := hopen id ((HashMap.mem_keys_iff _ _).mpr ⟨tool, htool⟩)
    rw [htool, Option.any_some, Option.isNone_iff_eq_none] at hnone
    rw [hnone] at hterminal
    cases hterminal
  · intro hnever id hid
    obtain ⟨tool, htool⟩ := (HashMap.mem_keys_iff _ _).mp hid
    rw [htool, Option.any_some]
    cases hterminal : tool.terminal with
    | none => rfl
    | some outcome =>
        obtain ⟨op, hop, hresolves⟩ := (h.resolved id tool htool).mp (by rw [hterminal]; rfl)
        exact absurd hresolves (hnever op hop id)

/-! ## Who meets the limit -/

/-- A method whose errors are not about tools. -/
def ToolFree (m : Assembling) : Prop :=
  ∀ a e, (call m a).1 = .error e → e.kind ≠ .toolLimitExceeded

theorem toolFree_get {f : Assembly → Assembling} (h : ∀ a, ToolFree (f a)) : ToolFree (get >>= f) :=
  fun a e he => h a a e he

theorem toolFree_bind {m : Assembling} {f : Unit → Assembling} (h : ToolFree m)
    (hf : ∀ u, ToolFree (f u)) : ToolFree (m >>= f) := by
  intro a e he
  rw [call_bind] at he
  rcases hm : call m a with ⟨e' | u, b⟩
  · rw [hm] at he
    cases he
    exact h a e (congrArg Prod.fst hm)
  · rw [hm] at he
    exact hf u b e he

theorem toolFree_pure : ToolFree (pure ()) := by
  intro a e he
  cases he

theorem toolFree_modify (g : Assembly → Assembly) : ToolFree (modify g) := by
  intro a e he
  cases he

theorem toolFree_forEach {α : Type} {f : α → Assembling} (xs : List α) (h : ∀ x, ToolFree (f x)) :
    ToolFree (forEach f xs) := by
  induction xs with
  | nil => exact toolFree_pure
  | cons x xs ih => exact toolFree_bind (h x) (fun _ => ih)

theorem toolFree_publish (event : InterpreterOutputEvent) : ToolFree (publish room event) := by
  intro a e he
  rcases publish_cases room event a with ⟨-, hcall⟩ | ⟨-, hcall⟩
  · rw [hcall] at he
    cases he
    simp [InterpreterError.backpressure]
  · rw [hcall] at he
    cases he

theorem toolFree_emitUnit (idPrefix : String) (lane : LaneId) (unit : UnitId → CanonicalUnit) :
    ToolFree (emitUnit room idPrefix lane unit) :=
  toolFree_get (fun _ => toolFree_bind (toolFree_modify _) (fun _ => toolFree_publish _))

theorem toolFree_emitSentence (channel : TextChannel) (content : Str) :
    ToolFree (emitSentence room channel content) :=
  toolFree_get (fun _ => toolFree_bind (toolFree_modify _) (fun _ => toolFree_emitUnit _ _ _))

theorem toolFree_onText (channel : TextChannel) (text : String) :
    ToolFree (onText room limits channel text) := by
  refine toolFree_get (fun a => ?_)
  simp only
  split
  · refine toolFree_bind (toolFree_modify _) (fun _ => ?_)
    intro b e he
    cases he
    simp
  · exact toolFree_bind (toolFree_modify _) (fun _ => toolFree_forEach _ (toolFree_emitSentence channel))

theorem toolFree_sealChannel (channel : TextChannel) : ToolFree (sealChannel room channel) := by
  refine toolFree_get (fun a => ?_)
  split
  · exact toolFree_pure
  · exact toolFree_bind (toolFree_modify _) (fun _ => toolFree_forEach _ (toolFree_emitSentence channel))

theorem toolFree_startResponse : ToolFree (startResponse room) := by
  refine toolFree_get (fun a => ?_)
  split
  · exact toolFree_pure
  · exact toolFree_bind (toolFree_modify _) (fun _ => toolFree_emitUnit _ _ _)

theorem toolFree_applyOp {op : EngineOp} (h : ∀ id signal, op ≠ .fragment (.tool id signal)) :
    ToolFree (Owner.applyOp orders room request op) := by
  cases op with
  | startResponse => exact toolFree_startResponse
  | fragment frag =>
      cases frag with
      | textDelta channel text => exact toolFree_onText channel text
      | tool id signal => exact absurd rfl (h id signal)
      | responseFinished =>
          exact toolFree_bind (toolFree_get (fun _ => toolFree_forEach _ toolFree_sealChannel))
            (fun _ => toolFree_emitUnit _ _ _)
      | diagnostic message =>
          exact toolFree_bind (toolFree_modify _) (fun _ => toolFree_emitUnit _ _ _)

theorem onTool_pendingLimit {id : ToolActionId} {signal : ToolSignal} :
    (call (onTool room limits id signal) a).1 = .error pendingLimit ↔
      a.tools.lookup id = none ∧ limits.maxPendingToolActions ≤ a.tools.keys.length := by
  unfold onTool
  rw [call_get_bind]
  by_cases hfull : limits.maxPendingToolActions ≤ a.tools.keys.length ∧
      (a.tools.lookup id).isNone = true
  · simp only [if_pos hfull, call_throw]
    exact iff_of_true rfl ⟨Option.isNone_iff_eq_none.mp hfull.2, hfull.1⟩
  · simp only [if_neg hfull]
    refine iff_of_false ?_ ?_
    · by_cases hlong : signal.exceeds limits = true
      · simp [if_pos hlong, setTool, pendingLimit]
      · simp only [if_neg hlong, setTool, call_modify_bind]
        intro he
        exact toolFree_publish _ _ _ he rfl
    · rintro ⟨hnone, hle⟩
      exact hfull ⟨hle, Option.isNone_iff_eq_none.mpr hnone⟩

/-- The limit refuses unknown actions, when the table is full, and nothing else. -/
theorem applyOp_pendingLimit {op : EngineOp} :
    (call (Owner.applyOp orders room request op) a).1 = .error pendingLimit ↔
      ∃ id signal, op = .fragment (.tool id signal) ∧ a.tools.lookup id = none ∧
        request.limits.maxPendingToolActions ≤ a.tools.keys.length := by
  constructor
  · intro he
    by_cases htool : ∃ id signal, op = .fragment (.tool id signal)
    · obtain ⟨id, signal, rfl⟩ := htool
      exact ⟨id, signal, rfl, onTool_pendingLimit.mp he⟩
    · exact absurd rfl (toolFree_applyOp (fun id signal heq => htool ⟨id, signal, heq⟩) a _ he)
  · rintro ⟨id, signal, rfl, hfull⟩
    exact onTool_pendingLimit.mpr hfull

end Run

/-! ## Runs -/

section Runs

variable (serde : SerdeJson) (orders : Iteration) (room : Option Nat) (request : StartInterpretation)
  (cmds : List InputCmd)

/-- The run takes `done` and comes to `op` with the assembly `a`. -/
def ComesTo (done : List EngineOp) (op : EngineOp) (a : Assembly) : Prop :=
  ∃ rest, handledOps serde orders request cmds = done ++ op :: rest ∧
    call (forEach (Owner.applyOp orders room request) done) {} = (.ok (), a)

/-- The limit strikes only when as many tools are open as may be pending. -/
def StrikesWhenPending : Prop :=
  ∀ done op a, ComesTo serde orders room request cmds done op a →
    (call (Owner.applyOp orders room request op) a).1 = .error pendingLimit →
      request.limits.maxPendingToolActions ≤ openTools a

/-- No action is resolved before an unknown one comes after so many others that the
table is full. -/
def ResolvesNoneBeforeFull : Prop :=
  ∀ done id signal a, ComesTo serde orders room request cmds done (.fragment (.tool id signal)) a →
    id ∉ signalled done → request.limits.maxPendingToolActions ≤ (signalled done).dedup.length →
      ∀ op ∈ done, ∀ resolved, ¬ op.Resolves resolved

/-- **The limit counts pending tools only, exactly when no tool is resolved before the
table is full.** -/
theorem strikesWhenPending_iff :
    StrikesWhenPending serde orders room request cmds ↔
      ResolvesNoneBeforeFull serde orders room request cmds := by
  constructor
  · intro h done id signal a hcomes hnew hfull
    obtain ⟨rest, hops, hrun⟩ := hcomes
    have htable := table_run hrun
    have hnone : a.tools.lookup id = none := by
      rw [← Option.not_isSome_iff_eq_none, htable.known]
      exact hnew
    rw [← htable.length_keys] at hfull
    have hopen := h done _ a ⟨rest, hops, hrun⟩ (onTool_pendingLimit.mpr ⟨hnone, hfull⟩)
    exact htable.open_iff.mp (Nat.le_trans htable.size hopen)
  · intro h done op a hcomes hstruck
    obtain ⟨id, signal, rfl, hnone, hfull⟩ := applyOp_pendingLimit.mp hstruck
    obtain ⟨rest, hops, hrun⟩ := hcomes
    have htable := table_run hrun
    have hnew : id ∉ signalled done := by
      rw [← htable.known, hnone]
      simp
    have hfull' := hfull
    rw [htable.length_keys] at hfull'
    exact Nat.le_trans hfull (htable.open_iff.mpr (h done id signal a ⟨rest, hops, hrun⟩ hnew hfull'))

end Runs

/-! ## Two tools, one after the other -/

/-- A message of `claude_code` with one block. -/
def blockMessage (role : String) (block : List (String × Json)) : Json :=
  .object [("type", .string role), ("message", .object [("content", .array [.object block])])]

def blockText (role block : String) : String :=
  "\x7b\"type\":\"" ++ role ++ "\",\"message\":\x7b\"content\":[\x7b" ++ block ++ "\x7d]\x7d\x7d"

/-- Each line with its value: `a` is used, has a result, and then `b` is used. -/
def sequentialLines : List (String × Json) :=
  [(blockText "assistant" "\"type\":\"tool_use\",\"id\":\"a\",\"name\":\"read\"",
      blockMessage "assistant"
        [("type", .string "tool_use"), ("id", .string "a"), ("name", .string "read")]),
    (blockText "user" "\"type\":\"tool_result\",\"tool_use_id\":\"a\"",
      blockMessage "user" [("type", .string "tool_result"), ("tool_use_id", .string "a")]),
    (blockText "assistant" "\"type\":\"tool_use\",\"id\":\"b\",\"name\":\"read\"",
      blockMessage "assistant"
        [("type", .string "tool_use"), ("id", .string "b"), ("name", .string "read")])]

def sequentialReader : SerdeJson where
  fromSlice _ := .error "expected value"
  fromStr s := Json.lookup s sequentialLines
  toString _ := "null"

/-- One pending action, the other limits as in the samples. -/
def oneTool : StartInterpretation := ⟨.claudeCode, 1024, 1024, 256, 1, 64, 8⟩

def sequentialCmds : List InputCmd :=
  [.bytes (bytes (sequentialLines.flatMap fun line => line.1.toList ++ ['\n'])), .finishClean]

def sequentialDone : List EngineOp :=
  [.startResponse, .fragment (.tool ⟨"a"⟩ (.requestReady "read" "\x7b\x7d")),
    .startResponse, .fragment (.tool ⟨"a"⟩ (.resolved true none)), .startResponse]

/-- **The second tool is refused when none is pending.** -/
theorem strikes_without_pending :
    ¬ StrikesWhenPending sequentialReader entryOrders none oneTool sequentialCmds := by
  intro h
  have hops : handledOps sequentialReader entryOrders oneTool sequentialCmds =
      sequentialDone ++ [.fragment (.tool ⟨"b"⟩ (.requestReady "read" "\x7b\x7d"))] := by
    decide +kernel
  have hdone : (call (forEach (Owner.applyOp entryOrders none oneTool) sequentialDone) {}).1 =
      .ok () := rfl
  have hopen : openTools
      (call (forEach (Owner.applyOp entryOrders none oneTool) sequentialDone) {}).2 = 0 := rfl
  have hrefused : (call (Owner.applyOp entryOrders none oneTool
        (.fragment (.tool ⟨"b"⟩ (.requestReady "read" "\x7b\x7d"))))
      (call (forEach (Owner.applyOp entryOrders none oneTool) sequentialDone) {}).2).1 =
        .error pendingLimit := rfl
  have hpending : 1 ≤ openTools
      (call (forEach (Owner.applyOp entryOrders none oneTool) sequentialDone) {}).2 :=
    h sequentialDone _ _ ⟨[], hops, Prod.ext hdone rfl⟩ hrefused
  rw [hopen] at hpending
  exact absurd hpending (by decide)

end Monoloop.Interpreter
