import Mathlib.Tactic.IntervalCases
import Monoloop.Interpreter.SseChunks

/-!
# Tool calls of a chat stream

A chunk is a list of operations on the accumulated calls: content, a delta of a
call, a finish reason (`mapChunk_eq`). Over the operations that went through,
the map of calls holds, under each key, exactly the deltas of that key put
together, and a log of the releases says at which finish each key was released
(`Accumulated`). `toolCalls_committed` reads this off for the provider's own
indices, which are the keys as long as no two of them are cut to the same 32
bits.
-/

namespace Monoloop.Interpreter

open Transducer Utf8

namespace OpenAiSseState

/-! ## Chunks as operations -/

inductive ChatOp where
  | content (text : String)
  | delta (call : Json)
  | finish (reason : String)

def deltaOps (delta : Json) : List ChatOp :=
  (match delta.str? "content" with
    | some text => if text = "" then [] else [.content text]
    | none => []) ++
  (match (delta.get? "tool_calls").bind Json.asArray with
    | some calls => calls.map .delta
    | none => [])

/-- What a choice that is read asks for. -/
def readOps (choice : Json) : List ChatOp :=
  (match choice.get? "delta" with
    | some delta => deltaOps delta
    | none => []) ++
  (match choice.str? "finish_reason" with
    | some reason => [.finish reason]
    | none => [])

def choiceOps (choice : Json) : List ChatOp :=
  if indexOf choice ≠ defaultChoiceIndex then [] else readOps choice

def choicesOf (value : Json) : List Json :=
  ((value.get? "choices").bind Json.asArray).getD []

def chunkOps (value : Json) : List ChatOp := (choicesOf value).flatMap choiceOps

section Ops

variable (serde : SerdeJson) (order : HashMap.IterOrder CallIndex)

def applyOp (st : OpenAiSseState) : ChatOp → SseResult
  | .content text => .ok (st, [.textDelta .publicResponse text])
  | .delta call => ingestToolDelta st call
  | .finish reason => onFinishReason serde order st reason

theorem onDelta_eq (st : OpenAiSseState) (delta : Json) :
    onDelta st delta = run (applyOp serde order) st (deltaOps delta) := by
  have hcontent : onContent st delta = run (applyOp serde order) st
      (match delta.str? "content" with
        | some text => if text = "" then [] else [.content text]
        | none => []) := by
    unfold onContent
    cases delta.str? "content" with
    | none => rfl
    | some text =>
        simp only
        split
        · rfl
        · rw [run_singleton]
          rfl
  rw [onDelta, deltaOps, run_append, hcontent]
  congr 1
  funext st'
  cases (delta.get? "tool_calls").bind Json.asArray with
  | none => rfl
  | some calls =>
      show run ingestToolDelta st' calls = run (applyOp serde order) st' (calls.map .delta)
      rw [run_map]
      rfl

theorem onChoice_eq {st : OpenAiSseState} (hst : st.choiceIndex = defaultChoiceIndex)
    (choice : Json) :
    onChoice serde order st choice = run (applyOp serde order) st (choiceOps choice) := by
  unfold onChoice choiceOps readOps
  rw [hst]
  split
  · rfl
  · rw [run_append]
    congr 1
    · cases choice.get? "delta" with
      | none => rfl
      | some delta => exact onDelta_eq serde order st delta
    · funext st'
      cases choice.str? "finish_reason" with
      | none => rfl
      | some reason =>
          simp only
          rw [run_singleton]
          rfl

theorem onlyTools_choiceIndex {st st' : OpenAiSseState} (h : OnlyTools st st')
    (hst : st.choiceIndex = defaultChoiceIndex) : st'.choiceIndex = defaultChoiceIndex := by
  obtain ⟨tools, rfl⟩ := h
  exact hst

/-- **A chunk is its operations, one after the other.** -/
theorem mapChunk_eq {st : OpenAiSseState} (hst : st.choiceIndex = defaultChoiceIndex)
    (value : Json) :
    mapChunk serde order st value = run (applyOp serde order) st (chunkOps value) := by
  unfold mapChunk chunkOps choicesOf
  cases (value.get? "choices").bind Json.asArray with
  | none => rfl
  | some choices =>
      exact run_flatMap (P := fun st => st.choiceIndex = defaultChoiceIndex)
        (fun st choice hst => onChoice_eq serde order hst choice)
        (fun _ _ _ _ hst h => onlyTools_choiceIndex (onlyTools_onChoice serde order h) hst)
        hst choices

end Ops

/-! ## What the deltas of a call come to -/

def ChatOp.delta? : ChatOp → Option Json
  | .delta call => some call
  | _ => none

/-- The deltas among some operations. -/
def deltas (ops : List ChatOp) : List Json := ops.filterMap ChatOp.delta?

def concat (texts : List String) : String := texts.foldr (· ++ ·) ""

/-- The last id that is not empty. -/
def idText (calls : List Json) : String :=
  ((calls.filterMap (Json.str? "id")).filter (· ≠ "")).getLast?.getD ""

def nameOf (call : Json) : Option String := (call.get? "function").bind (Json.str? "name")

def nameText (calls : List Json) : String := concat (calls.filterMap nameOf)

/-- The argument deltas, one after the other. -/
def argumentsText (calls : List Json) : String := concat (calls.filterMap argumentsOf)

theorem concat_append (a b : List String) : concat (a ++ b) = concat a ++ concat b := by
  induction a with
  | nil => simp [concat]
  | cons x a ih =>
      simp only [concat, List.cons_append, List.foldr_cons] at ih ⊢
      rw [ih, String.append_assoc]

theorem deltas_append (p q : List ChatOp) : deltas (p ++ q) = deltas p ++ deltas q :=
  List.filterMap_append

/-- The deltas of a key. -/
def keyCalls (k : CallIndex) (ops : List ChatOp) : List Json :=
  (deltas ops).filter (fun call => indexOf call = k)

/-- An entry holds some deltas put together. -/
def Holds (calls : List Json) (released : Bool) : Option PartialToolCall → Prop
  | none => calls = [] ∧ released = false
  | some entry => calls ≠ [] ∧ entry.id = idText calls ∧ entry.name = nameText calls ∧
      entry.arguments = argumentsText calls ∧ entry.ready = released

/-- The call that some deltas put together, as it is released. -/
def readyCall (calls : List Json) : AcpFragment :=
  .tool ⟨idText calls⟩ (.requestReady (nameText calls) (argumentsText calls))

def isReady : AcpFragment → Bool
  | .tool _ (.requestReady _ _) => true
  | _ => false

/-- A call that may be released. -/
def Complete (serde : SerdeJson) (calls : List Json) : Prop :=
  idText calls ≠ "" ∧ nameText calls ≠ "" ∧
    isCompleteJsonValue serde (argumentsText calls) = true

/-! ## One delta -/

theorem idText_append (calls : List Json) (call : Json) :
    idText (calls ++ [call]) =
      match call.str? "id" with
      | some id => if id = "" then idText calls else id
      | none => idText calls := by
  unfold idText
  rw [List.filterMap_append, List.filter_append]
  cases hid : call.str? "id" with
  | none => simp only [List.filterMap_cons, List.filterMap_nil, hid, List.filter_nil, List.append_nil]
  | some id =>
      simp only [List.filterMap_cons, List.filterMap_nil, hid]
      split
      · rename_i hempty
        subst hempty
        simp only [ne_eq, not_true, decide_false, List.filter_cons_of_neg, Bool.false_eq_true,
          not_false_eq_true, List.filter_nil, List.append_nil]
      · rename_i hne
        rw [List.filter_cons_of_pos (by simpa using hne), List.filter_nil,
          List.getLast?_append_of_ne_nil _ (by simp)]
        rfl

theorem nameText_append (calls : List Json) (call : Json) :
    nameText (calls ++ [call]) = nameText calls ++ (nameOf call).getD "" := by
  unfold nameText
  rw [List.filterMap_append, concat_append]
  cases hname : nameOf call with
  | none => simp [hname, concat]
  | some name => simp [hname, concat]

theorem argumentsText_append (calls : List Json) (call : Json) :
    argumentsText (calls ++ [call]) = argumentsText calls ++ (argumentsOf call).getD "" := by
  unfold argumentsText
  rw [List.filterMap_append, concat_append]
  cases hargs : argumentsOf call with
  | none => simp [hargs, concat]
  | some args => simp [hargs, concat]

/-- The id and the name of a delta go where they belong; nothing else changes. -/
theorem noteIdentity_spec {entry : PartialToolCall} {calls : List Json} (call : Json)
    (hid : entry.id = idText calls) (hname : entry.name = nameText calls) :
    noteIdentity entry call =
      { entry with id := idText (calls ++ [call]), name := nameText (calls ++ [call]) } := by
  rw [idText_append, nameText_append, ← hid, ← hname]
  unfold noteIdentity
  change (match nameOf call with
    | some name => if name = "" then _ else _
    | none => _) = _
  cases entry
  cases call.str? "id" with
  | none =>
      cases nameOf call with
      | none => simp
      | some name =>
          by_cases hn : name = ""
          · simp [hn]
          · simp [hn]
  | some id =>
      by_cases hi : id = ""
      · cases nameOf call with
        | none => simp [hi]
        | some name =>
            by_cases hn : name = ""
            · simp [hi, hn]
            · simp [hi, hn]
      · cases nameOf call with
        | none => simp [hi]
        | some name =>
            by_cases hn : name = ""
            · simp [hi, hn]
            · simp [hi, hn]

theorem keyCalls_append (k : CallIndex) (p q : List ChatOp) :
    keyCalls k (p ++ q) = keyCalls k p ++ keyCalls k q := by
  simp only [keyCalls, deltas_append, List.filter_append]

theorem keyCalls_delta (k : CallIndex) (call : Json) :
    keyCalls k [.delta call] = if indexOf call = k then [call] else [] := by
  by_cases h : indexOf call = k <;> simp [keyCalls, deltas, ChatOp.delta?, h]

/-- The map holds the deltas of every key put together. -/
def HoldsAll (ops : List ChatOp) (released : CallIndex → Bool) (st : OpenAiSseState) : Prop :=
  ∀ k, Holds (keyCalls k ops) (released k) (st.tools.lookup k)

/-- What an entry is before the next delta of its key, or the default there is not one yet. -/
theorem HoldsAll.entry {ops : List ChatOp} {released : CallIndex → Bool} {st : OpenAiSseState}
    (h : HoldsAll ops released st) (k : CallIndex) :
    let entry := (st.tools.lookup k).getD {}
    entry.id = idText (keyCalls k ops) ∧ entry.name = nameText (keyCalls k ops) ∧
      entry.arguments = argumentsText (keyCalls k ops) ∧ entry.ready = released k := by
  have hk := h k
  cases hl : st.tools.lookup k with
  | none =>
      rw [hl] at hk
      obtain ⟨hcalls, hrel⟩ := hk
      rw [hcalls, hrel]
      exact ⟨rfl, rfl, rfl, rfl⟩
  | some entry =>
      rw [hl] at hk
      exact hk.2

/-- **A delta is added to the entry of its key**, and nothing becomes ready. -/
theorem ingestToolDelta_holds {ops : List ChatOp} {released : CallIndex → Bool}
    {st st' : OpenAiSseState} {call : Json} {out : List AcpFragment}
    (hinv : HoldsAll ops released st) (h : ingestToolDelta st call = .ok (st', out)) :
    HoldsAll (ops ++ [.delta call]) released st' ∧ ∀ f ∈ out, isReady f = false := by
  obtain ⟨hid, hname, hargs, hready⟩ := hinv.entry (indexOf call)
  -- the entry as it is stored, and what `noteWaiting` makes of it
  have hstore : ∀ entry : PartialToolCall,
      entry.id = idText (keyCalls (indexOf call) ops ++ [call]) →
      entry.name = nameText (keyCalls (indexOf call) ops ++ [call]) →
      entry.arguments = argumentsText (keyCalls (indexOf call) ops ++ [call]) →
      entry.ready = released (indexOf call) →
      noteWaiting st (indexOf call) entry = .ok (st', out) →
      HoldsAll (ops ++ [.delta call]) released st' ∧ ∀ f ∈ out, isReady f = false := by
    intro entry h1 h2 h3 h4 hn
    have hlookup : ∀ e : PartialToolCall, e.id = entry.id → e.name = entry.name →
        e.arguments = entry.arguments → e.ready = entry.ready →
        HoldsAll (ops ++ [.delta call]) released
          { st with tools := st.tools.insert (indexOf call) e } := by
      intro e g1 g2 g3 g4 k
      rw [keyCalls_append, keyCalls_delta, HashMap.lookup_insert_ite]
      by_cases hk : k = indexOf call
      · subst hk
        rw [if_pos rfl, if_pos rfl]
        exact ⟨by simp, g1.trans h1, g2.trans h2, g3.trans h3, g4.trans h4⟩
      · rw [if_neg hk, if_neg (Ne.symm hk), List.append_nil]
        exact hinv k
    unfold noteWaiting at hn
    split at hn
    · cases hn
      refine ⟨hlookup _ rfl rfl rfl rfl, ?_⟩
      intro f hf
      rw [List.mem_singleton.mp hf]
      rfl
    · cases hn
      exact ⟨hlookup _ rfl rfl rfl rfl, by simp⟩
  unfold ingestToolDelta at h
  simp only [noteIdentity_spec call hid hname] at h
  cases hargsOf : argumentsOf call with
  | none =>
      rw [hargsOf] at h
      refine hstore _ ?_ ?_ ?_ ?_ h
      · rfl
      · rfl
      · simp only [argumentsText_append, hargsOf, hargs, Option.getD_none, String.append_empty]
      · exact hready
  | some args =>
      rw [hargsOf] at h
      simp only at h
      split at h
      · cases h
      · refine hstore _ ?_ ?_ ?_ ?_ h
        · rfl
        · rfl
        · simp only [argumentsText_append, hargsOf, hargs, Option.getD_some]
        · exact hready

/-! ## The release -/

section Release

variable (serde : SerdeJson)

/-- What the release of a key gives out. -/
def pendingCall (st : OpenAiSseState) (k : CallIndex) : Option AcpFragment :=
  match st.tools.lookup k with
  | none => none
  | some entry =>
      if entry.ready then none
      else some (.tool ⟨entry.id⟩ (.requestReady entry.name entry.arguments))

/-- An entry that stops the release. -/
def Blocks (entry : PartialToolCall) : Prop :=
  entry.ready = false ∧
    (entry.id = "" ∨ entry.name = "" ∨ ¬ isCompleteJsonValue serde entry.arguments)

/-- One key: it stops the release, or it is ready afterwards. -/
theorem releaseCall_cases (st : OpenAiSseState) (k : CallIndex) :
    (∃ entry, st.tools.lookup k = some entry ∧ Blocks serde entry ∧
        releaseCall serde st k =
          .error ⟨.malformedSemanticPayload, "incomplete tool call at tool_calls finish"⟩) ∨
      ((∀ entry, st.tools.lookup k = some entry → ¬ Blocks serde entry) ∧
        ∃ tools, releaseCall serde st k =
            .ok ({ st with tools }, (pendingCall st k).toList) ∧
          ∀ k', tools.lookup k' = if k' = k then
            (st.tools.lookup k).map (fun e => { e with ready := true }) else st.tools.lookup k') := by
  unfold releaseCall pendingCall
  cases hl : st.tools.lookup k with
  | none =>
      refine .inr ⟨fun entry he => by simp at he, st.tools, rfl, ?_⟩
      intro k'
      by_cases hk : k' = k
      · rw [if_pos hk, hk, hl]
        rfl
      · rw [if_neg hk]
  | some entry =>
      cases hr : entry.ready with
      | true =>
          right
          refine ⟨?_, st.tools, ?_, ?_⟩
          · rintro e he ⟨hnot, -⟩
            cases he
            rw [hr] at hnot
            cases hnot
          · simp [hr]
          · intro k'
            by_cases hk : k' = k
            · rw [if_pos hk, hk, hl, Option.map_some, ← hr]
            · rw [if_neg hk]
      | false =>
          by_cases hb : entry.id = "" ∨ entry.name = "" ∨
              ¬ isCompleteJsonValue serde entry.arguments
          · refine .inl ⟨entry, rfl, ⟨hr, hb⟩, ?_⟩
            simp only [hr, Bool.false_eq_true, if_false, if_pos hb]
          · right
            refine ⟨?_, st.tools.insert k { entry with ready := true }, ?_, ?_⟩
            · rintro e he ⟨-, hbad⟩
              cases he
              exact hb hbad
            · simp only [hr, Bool.false_eq_true, if_false, if_neg hb]
              rfl
            · intro k'
              rw [HashMap.lookup_insert_ite]
              by_cases hk : k' = k
              · rw [if_pos hk, if_pos hk]
                rfl
              · rw [if_neg hk, if_neg hk]

/-- **All or none**: a walk over keys releases every key that is pending, or
stops with an error when one of them is incomplete. -/
theorem run_releaseCall {ks : List CallIndex} (hnodup : ks.Nodup) (st : OpenAiSseState) :
    ((∃ k ∈ ks, ∃ entry, st.tools.lookup k = some entry ∧ Blocks serde entry) ∧
        run (releaseCall serde) st ks =
          .error ⟨.malformedSemanticPayload, "incomplete tool call at tool_calls finish"⟩) ∨
      ((∀ k ∈ ks, ∀ entry, st.tools.lookup k = some entry → ¬ Blocks serde entry) ∧
        ∃ tools, run (releaseCall serde) st ks =
            .ok ({ st with tools }, ks.filterMap (pendingCall st)) ∧
          ∀ k', tools.lookup k' = if k' ∈ ks then
            (st.tools.lookup k').map (fun e => { e with ready := true }) else st.tools.lookup k') := by
  induction ks generalizing st with
  | nil => exact .inr ⟨by simp, st.tools, rfl, by simp⟩
  | cons k ks ih =>
      obtain ⟨hk, hks⟩ := List.nodup_cons.mp hnodup
      rcases releaseCall_cases serde st k with ⟨entry, hl, hb, he⟩ | ⟨hfree, tools, he, hlook⟩
      · refine .inl ⟨⟨k, List.mem_cons_self, entry, hl, hb⟩, ?_⟩
        rw [run, he, andThen_error]
      · -- the other keys are as they were
        have hsame : ∀ k' ∈ ks, tools.lookup k' = st.tools.lookup k' := by
          intro k' hk'
          have hne : k' ≠ k := by
            rintro rfl
            exact hk hk'
          rw [hlook, if_neg hne]
        have hpending : ks.filterMap (pendingCall { st with tools }) =
            ks.filterMap (pendingCall st) := by
          apply List.filterMap_congr
          intro k' hk'
          simp only [pendingCall, hsame k' hk']
        rcases ih hks { st with tools } with ⟨⟨k', hk', e, hl, hb⟩, hr⟩ | ⟨hall, tools', hr, hlook'⟩
        · refine .inl ⟨⟨k', List.mem_cons_of_mem _ hk', e, ?_, hb⟩, ?_⟩
          · rw [← hsame k' hk']
            exact hl
          · simp only [run, he, andThen, hr]
        · right
          refine ⟨?_, tools', ?_, ?_⟩
          · intro k' hk' e hl
            rcases List.mem_cons.mp hk' with rfl | hk'
            · exact hfree e hl
            · exact hall k' hk' e (by rw [← hl]; exact hsame k' hk')
          · simp only [run, he, andThen, hr, hpending, List.filterMap_cons]
            cases pendingCall st k <;> rfl
          · intro k'
            rw [hlook']
            simp only [List.mem_cons]
            by_cases h1 : k' = k
            · subst h1
              rw [if_neg hk, if_pos (Or.inl rfl)]
              simp only [hlook, if_true]
            · simp only [h1, false_or]
              simp only [hlook, if_neg h1]

end Release

/-! ## The run -/

section Run

variable (serde : SerdeJson) (order : HashMap.IterOrder CallIndex)

/-- After the operations `ops`, which gave out `out`: what the map holds, and a
log of the releases, each with the position of its finish. -/
structure Accumulated (ops : List ChatOp) (log : List (Nat × CallIndex)) (st : OpenAiSseState)
    (out : List AcpFragment) : Prop where
  holds : HoldsAll ops (fun k => decide (k ∈ log.map Prod.snd)) st
  nodup : (log.map Prod.snd).Nodup
  readies : out.filter isReady = log.map (fun r => readyCall (keyCalls r.2 (ops.take r.1)))
  sound : ∀ r ∈ log, ops[r.1]? = some (.finish "tool_calls") ∧
    keyCalls r.2 (ops.take r.1) ≠ [] ∧ Complete serde (keyCalls r.2 (ops.take r.1))
  all : ∀ n : Nat, ops[n]? = some (.finish "tool_calls") → ∀ k, keyCalls k (ops.take n) ≠ [] →
    ∃ m ≤ n, (m, k) ∈ log

variable {serde} {ops : List ChatOp} {log : List (Nat × CallIndex)} {st st' : OpenAiSseState}
  {out out' : List AcpFragment}

/-- The logged positions lie in the past. -/
theorem Accumulated.lt (h : Accumulated serde ops log st out) {r : Nat × CallIndex}
    (hr : r ∈ log) : r.1 < ops.length :=
  (List.getElem?_eq_some_iff.mp (h.sound r hr).1).1

/-- What is logged does not change with later operations. -/
theorem Accumulated.past (h : Accumulated serde ops log st out) (op : ChatOp)
    {r : Nat × CallIndex} (hr : r ∈ log) :
    (ops ++ [op]).take r.1 = ops.take r.1 ∧ (ops ++ [op])[r.1]? = ops[r.1]? := by
  have hlt := h.lt hr
  rw [List.take_append_of_le_length (by omega), List.getElem?_append_left hlt]
  exact ⟨rfl, rfl⟩

/-- An operation that releases nothing. -/
theorem Accumulated.keep (h : Accumulated serde ops log st out) {op : ChatOp}
    (hop : op ≠ .finish "tool_calls")
    (hholds : HoldsAll (ops ++ [op]) (fun k => decide (k ∈ log.map Prod.snd)) st')
    (hout : ∀ f ∈ out', isReady f = false) :
    Accumulated serde (ops ++ [op]) log st' (out ++ out') where
  holds := hholds
  nodup := h.nodup
  readies := by
    have hnone : out'.filter isReady = [] := by
      rw [List.filter_eq_nil_iff]
      intro f hf
      simp [hout f hf]
    rw [List.filter_append, hnone, List.append_nil, h.readies]
    apply List.map_congr_left
    intro r hr
    rw [(h.past op hr).1]
  sound := by
    intro r hr
    rw [(h.past op hr).1, (h.past op hr).2]
    exact h.sound r hr
  all := by
    intro n hn k hk
    rcases Nat.lt_or_ge n ops.length with hlt | hge
    · rw [List.getElem?_append_left hlt] at hn
      rw [List.take_append_of_le_length (by omega)] at hk
      exact h.all n hn k hk
    · -- the last operation is no finish that releases
      rw [List.getElem?_append_right hge] at hn
      rw [List.mem_singleton.mp (List.mem_of_getElem? hn)] at hop
      exact absurd rfl hop

theorem keyCalls_finish (k : CallIndex) (ops : List ChatOp) (reason : String) :
    keyCalls k (ops ++ [.finish reason]) = keyCalls k ops := by
  rw [keyCalls_append]
  exact List.append_nil _

/-- **A finish that releases**: every pending key is released, and all of them
are complete. -/
theorem Accumulated.release (h : Accumulated serde ops log st out)
    (hrun : run (releaseCall serde) st (order.keys st.tools) = .ok (st', out')) :
    ∃ log', Accumulated serde (ops ++ [.finish "tool_calls"]) log' st' (out ++ out') := by
  have hperm := order.perm st.tools.keys
  have hmem : ∀ k, k ∈ order.keys st.tools ↔ ∃ e, st.tools.lookup k = some e := by
    intro k
    rw [← HashMap.mem_keys_iff]
    exact hperm.mem_iff
  have hnodup : (order.keys st.tools).Nodup := hperm.nodup_iff.mpr st.tools.keys_nodup
  rcases run_releaseCall serde hnodup st with ⟨-, herr⟩ | ⟨hfree, tools, hok, hlook⟩
  · rw [herr] at hrun
    cases hrun
  rw [hok] at hrun
  obtain ⟨rfl, rfl⟩ := Prod.mk.inj (Except.ok.inj hrun)
  let fresh := (order.keys st.tools).filter (fun k => decide (k ∉ log.map Prod.snd))
  have hfresh : ∀ k, k ∈ fresh ↔ (∃ e, st.tools.lookup k = some e) ∧ k ∉ log.map Prod.snd := by
    intro k
    rw [List.mem_filter, hmem, decide_eq_true_eq]
  -- an entry of the map, by what the map is known to hold
  have hentry : ∀ k e, st.tools.lookup k = some e → keyCalls k ops ≠ [] ∧
      e.id = idText (keyCalls k ops) ∧ e.name = nameText (keyCalls k ops) ∧
      e.arguments = argumentsText (keyCalls k ops) ∧ e.ready = decide (k ∈ log.map Prod.snd) := by
    intro k e hl
    have hk := h.holds k
    rw [hl] at hk
    exact hk
  have hpending : (order.keys st.tools).filterMap (pendingCall st) =
      fresh.map (fun k => readyCall (keyCalls k ops)) := by
    rw [← List.filterMap_eq_map, List.filterMap_filter]
    apply List.filterMap_congr
    intro k hk
    obtain ⟨e, hl⟩ := (hmem k).mp hk
    obtain ⟨-, hid, hname, hargs, hready⟩ := hentry k e hl
    simp only [pendingCall, hl, hready, readyCall]
    by_cases hlog : k ∈ log.map Prod.snd
    · simp [hlog]
    · simp [hlog, hid, hname, hargs]
  refine ⟨log ++ fresh.map (fun k => (ops.length, k)), ?_, ?_, ?_, ?_, ?_⟩
  · intro k
    rw [keyCalls_finish]
    have hk := h.holds k
    show Holds _ _ (tools.lookup k)
    rw [hlook]
    simp only [List.map_append, List.map_map, Function.comp_def, List.map_id', List.mem_append]
    cases hl : st.tools.lookup k with
    | none =>
        rw [hl] at hk
        have hnot : k ∉ fresh := by
          rw [hfresh, hl]
          simp
        have hlog : k ∉ log.map Prod.snd := by simpa using hk.2
        rw [if_neg (by rw [hmem, hl]; simp)]
        exact ⟨hk.1, by simp only [hlog, hnot, or_self, decide_false]⟩
    | some e =>
        obtain ⟨hne, hid, hname, hargs, -⟩ := hentry k e hl
        rw [if_pos ((hmem k).mpr ⟨e, hl⟩)]
        have hin : k ∈ log.map Prod.snd ∨ k ∈ fresh := by
          by_cases hlog : k ∈ log.map Prod.snd
          · exact .inl hlog
          · exact .inr ((hfresh k).mpr ⟨⟨e, hl⟩, hlog⟩)
        exact ⟨hne, hid, hname, hargs, (decide_eq_true hin).symm⟩
  · rw [List.map_append, List.map_map, List.nodup_append']
    refine ⟨h.nodup, ?_, ?_⟩
    · show (fresh.map id).Nodup
      rw [List.map_id]
      exact hnodup.filter _
    · intro k hk hk'
      have hin : k ∈ fresh := by simpa [Function.comp_def] using hk'
      exact ((hfresh k).mp hin).2 hk
  · have hall : (fresh.map (fun k => readyCall (keyCalls k ops))).filter isReady =
        fresh.map (fun k => readyCall (keyCalls k ops)) := by
      rw [List.filter_eq_self]
      intro f hf
      obtain ⟨k, -, rfl⟩ := List.mem_map.mp hf
      rfl
    rw [hpending, List.filter_append, hall, h.readies, List.map_append, List.map_map]
    congr 1
    · apply List.map_congr_left
      intro r hr
      rw [(h.past _ hr).1]
    · apply List.map_congr_left
      intro k _
      simp
  · intro r hr
    rcases List.mem_append.mp hr with hr | hr
    · rw [(h.past _ hr).1, (h.past _ hr).2]
      exact h.sound r hr
    · obtain ⟨k, hk, rfl⟩ := List.mem_map.mp hr
      obtain ⟨⟨e, hl⟩, hlog⟩ := (hfresh k).mp hk
      obtain ⟨hne, hid, hname, hargs, hready⟩ := hentry k e hl
      have hgo := hfree k ((hmem k).mpr ⟨e, hl⟩) e hl
      simp only [Blocks, hready, hid, hname, hargs, decide_eq_false_iff_not, hlog,
        not_false_eq_true, true_and, not_or, not_not] at hgo
      simp only [List.take_left, List.getElem?_append_right (Nat.le_refl _), Nat.sub_self]
      exact ⟨rfl, hne, hgo.1, hgo.2.1, hgo.2.2⟩
  · intro n hn k hk
    rcases Nat.lt_or_ge n ops.length with hlt | hge
    · rw [List.getElem?_append_left hlt] at hn
      rw [List.take_append_of_le_length (by omega)] at hk
      obtain ⟨m, hm, hin⟩ := h.all n hn k hk
      exact ⟨m, hm, List.mem_append_left _ hin⟩
    · have hlen : n < (ops ++ [ChatOp.finish "tool_calls"]).length :=
        (List.getElem?_eq_some_iff.mp hn).1
      rw [List.length_append, List.length_singleton] at hlen
      obtain rfl : n = ops.length := by omega
      rw [List.take_left] at hk
      by_cases hlog : k ∈ log.map Prod.snd
      · obtain ⟨r, hr, rfl⟩ := List.mem_map.mp hlog
        exact ⟨r.1, Nat.le_of_lt (h.lt hr), List.mem_append_left _ hr⟩
      · have hhold := h.holds k
        cases hl : st.tools.lookup k with
        | none =>
            rw [hl] at hhold
            exact absurd hhold.1 hk
        | some e =>
            exact ⟨ops.length, Nat.le_refl _, List.mem_append_right _
              (List.mem_map.mpr ⟨k, (hfresh k).mpr ⟨⟨e, hl⟩, hlog⟩, rfl⟩)⟩

theorem keyCalls_content (k : CallIndex) (ops : List ChatOp) (text : String) :
    keyCalls k (ops ++ [.content text]) = keyCalls k ops := by
  rw [keyCalls_append]
  exact List.append_nil _

/-- One operation keeps the account, and only a finish adds to the log. -/
theorem Accumulated.step (h : Accumulated serde ops log st out) {op : ChatOp}
    (hop : applyOp serde order st op = .ok (st', out')) :
    ∃ log', Accumulated serde (ops ++ [op]) log' st' (out ++ out') := by
  cases op with
  | content text =>
      cases hop
      refine ⟨log, h.keep (by simp) ?_ ?_⟩
      · intro k
        rw [keyCalls_content]
        exact h.holds k
      · intro f hf
        rw [List.mem_singleton.mp hf]
        rfl
  | delta call =>
      obtain ⟨hholds, hsilent⟩ := ingestToolDelta_holds h.holds hop
      exact ⟨log, h.keep (by simp) hholds hsilent⟩
  | finish reason =>
      change onFinishReason serde order st reason = .ok (st', out') at hop
      unfold onFinishReason at hop
      split at hop
      · rename_i hreason
        subst hreason
        exact h.release order hop
      · rename_i hreason
        split at hop
        · cases hop
          refine ⟨log, h.keep (by simpa using hreason) ?_ (by simp)⟩
          intro k
          rw [keyCalls_finish]
          exact h.holds k
        · cases hop

end Run

/-! ## The provider's indices -/

/-- The index the provider wrote; where it wrote none, the first. -/
def wireIndex (v : Json) : JsonNumber :=
  match v.get? "index" with
  | some (.number n) => n
  | _ => .posInt 0

/-- The key an index is cut to. -/
def cutIndex (n : JsonNumber) : CallIndex :=
  UInt32.ofNat ((Json.asU64 (.number n)).getD 0)

theorem indexOf_eq (v : Json) : indexOf v = cutIndex (wireIndex v) := by
  unfold indexOf wireIndex cutIndex
  cases v.get? "index" with
  | none => rfl
  | some x => cases x <;> rfl

/-- The operations of the provider's first choice. -/
def providerOps (values : List Json) : List ChatOp :=
  values.flatMap fun value => (choicesOf value).flatMap fun choice =>
    if wireIndex choice = .posInt 0 then readOps choice else []

/-- The deltas of a provider index. -/
def indexCalls (i : JsonNumber) (ops : List ChatOp) : List Json :=
  (deltas ops).filter (fun call => wireIndex call = i)

def isJsonSpace (c : Char) : Bool := c = ' ' || c = '\t' || c = '\n' || c = '\r'

/-- What is trimmed off a text is white space of JSON too. -/
def Spaced (text : String) : Prop :=
  ∃ a b : List Char, (∀ c ∈ a ++ b, isJsonSpace c = true) ∧ text.toList = a ++ trim text.toList ++ b

end OpenAiSseState

/-- White space around a value is no part of it. -/
def SerdeJson.IgnoresSpace (serde : SerdeJson) : Prop :=
  ∀ a t b : List Char, (∀ c ∈ a ++ b, OpenAiSseState.isJsonSpace c = true) →
    (serde.fromStr (String.ofList t)).isSome = true →
    (serde.fromStr (String.ofList (a ++ t ++ b))).isSome = true

namespace OpenAiSseState

/-- The chunks in which 32 bits are enough: the choices that are read are the
provider's first, and no two indices of its calls share a key. At a finish, the
arguments so far are padded with nothing but JSON's own white space. -/
structure Unaliased (values : List Json) : Prop where
  choices : ∀ value ∈ values, ∀ choice ∈ choicesOf value,
    indexOf choice = defaultChoiceIndex → wireIndex choice = .posInt 0
  calls : ∀ c ∈ deltas (providerOps values), ∀ d ∈ deltas (providerOps values),
    indexOf c = indexOf d → wireIndex c = wireIndex d
  spaced : ∀ n : Nat, (providerOps values)[n]? = some (.finish "tool_calls") →
    ∀ i, Spaced (argumentsText (indexCalls i ((providerOps values).take n)))

/-- The calls released are those of the provider's indices: each index once, at
a finish, with its own deltas put together; and a finish releases all the
indices seen or stops the stream. -/
structure Committed (serde : SerdeJson) (ops : List ChatOp) (log : List (Nat × JsonNumber))
    (out : List AcpFragment) : Prop where
  once : (log.map Prod.snd).Nodup
  readies : out.filter isReady = log.map (fun r => readyCall (indexCalls r.2 (ops.take r.1)))
  atFinish : ∀ r ∈ log, ops[r.1]? = some (.finish "tool_calls")
  valid : ∀ r ∈ log, let calls := indexCalls r.2 (ops.take r.1)
    idText calls ≠ "" ∧ nameText calls ≠ "" ∧ (serde.fromStr (argumentsText calls)).isSome = true
  allOrNone : ∀ n : Nat, ops[n]? = some (.finish "tool_calls") →
    ∀ i, indexCalls i (ops.take n) ≠ [] → ∃ m ≤ n, (m, i) ∈ log

theorem mem_deltas_take {ops : List ChatOp} {n : Nat} {c : Json} (h : c ∈ deltas (ops.take n)) :
    c ∈ deltas ops :=
  List.Sublist.subset ((List.take_sublist n ops).filterMap _) h

/-- The deltas of a key are those of the index of any one of them. -/
theorem Unaliased.indexCalls_eq {values : List Json} (h : Unaliased values) {n : Nat}
    {k : CallIndex} {c : Json} (hc : c ∈ keyCalls k ((providerOps values).take n)) :
    indexCalls (wireIndex c) ((providerOps values).take n) =
      keyCalls k ((providerOps values).take n) := by
  obtain ⟨hmem, hkey⟩ := List.mem_filter.mp hc
  rw [decide_eq_true_eq] at hkey
  apply List.filter_congr
  intro d hd
  rw [decide_eq_decide, indexOf_eq d, ← hkey, indexOf_eq c]
  constructor
  · intro hw
    rw [hw]
  · intro hcut
    rw [← indexOf_eq, ← indexOf_eq] at hcut
    exact h.calls d (mem_deltas_take hd) c (mem_deltas_take hmem) hcut

/-- Arguments that pass the check are valid as they are. -/
theorem valid_of_isComplete {serde : SerdeJson} (hserde : serde.IgnoresSpace) {text : String}
    (hspaced : Spaced text) (h : isCompleteJsonValue serde text = true) :
    (serde.fromStr text).isSome = true := by
  unfold isCompleteJsonValue at h
  simp only at h
  split at h
  · cases h
  · obtain ⟨a, b, hws, htext⟩ := hspaced
    have := hserde a (trim text.toList) b hws h
    rw [← htext, String.ofList_toList] at this
    exact this

section Provider

variable {serde : SerdeJson} (order : HashMap.IterOrder CallIndex) {values : List Json}
  {log : List (Nat × CallIndex)} {st : OpenAiSseState} {out : List AcpFragment}

/-- The account by keys is one by indices. -/
theorem Accumulated.committed (hserde : serde.IgnoresSpace) (h : Unaliased values)
    (hacc : Accumulated serde (providerOps values) log st out) :
    ∃ log', Committed serde (providerOps values) log' out := by
  let ops := providerOps values
  -- the index of a logged key is that of the first delta it had
  let index : Nat × CallIndex → JsonNumber := fun r =>
    ((keyCalls r.2 (ops.take r.1)).head?.map wireIndex).getD (.posInt 0)
  have hindex : ∀ r ∈ log, cutIndex (index r) = r.2 ∧
      indexCalls (index r) (ops.take r.1) = keyCalls r.2 (ops.take r.1) := by
    intro r hr
    cases hcalls : keyCalls r.2 (ops.take r.1) with
    | nil => exact absurd hcalls (hacc.sound r hr).2.1
    | cons c cs =>
        have hc : c ∈ keyCalls r.2 (ops.take r.1) := by
          rw [hcalls]
          exact List.mem_cons_self
        have hval : index r = wireIndex c := by
          show ((keyCalls r.2 (ops.take r.1)).head?.map wireIndex).getD _ = _
          rw [hcalls]
          rfl
        rw [hval, ← hcalls]
        refine ⟨?_, h.indexCalls_eq hc⟩
        have hkey := (List.mem_filter.mp hc).2
        rw [decide_eq_true_eq, indexOf_eq] at hkey
        exact hkey
  refine ⟨log.map (fun r => (r.1, index r)), ?_, ?_, ?_, ?_, ?_⟩
  · -- two equal indices would be two equal keys
    apply List.Nodup.of_map cutIndex
    have hkeys : ((log.map (fun r => (r.1, index r))).map Prod.snd).map cutIndex =
        log.map Prod.snd := by
      rw [List.map_map, List.map_map]
      apply List.map_congr_left
      intro r hr
      exact (hindex r hr).1
    rw [hkeys]
    exact hacc.nodup
  · rw [hacc.readies, List.map_map]
    apply List.map_congr_left
    intro r hr
    exact congrArg readyCall (hindex r hr).2.symm
  · intro r' hr'
    obtain ⟨r, hr, rfl⟩ := List.mem_map.mp hr'
    exact (hacc.sound r hr).1
  · intro r' hr'
    obtain ⟨r, hr, rfl⟩ := List.mem_map.mp hr'
    obtain ⟨hfinish, -, hid, hname, hargs⟩ := hacc.sound r hr
    have hspaced := h.spaced r.1 hfinish (index r)
    show idText (indexCalls (index r) (ops.take r.1)) ≠ "" ∧ _
    rw [(hindex r hr).2] at hspaced ⊢
    exact ⟨hid, hname, valid_of_isComplete hserde hspaced hargs⟩
  · intro n hn i hi
    obtain ⟨c, hc⟩ := List.exists_mem_of_ne_nil _ hi
    obtain ⟨hmem, hwire⟩ := List.mem_filter.mp hc
    rw [decide_eq_true_eq] at hwire
    have hin : c ∈ keyCalls (cutIndex i) (ops.take n) := by
      apply List.mem_filter.mpr
      rw [decide_eq_true_eq, indexOf_eq, hwire]
      exact ⟨hmem, rfl⟩
    obtain ⟨m, hm, hlog⟩ := hacc.all n hn _ (List.ne_nil_of_mem hin)
    refine ⟨m, hm, List.mem_map.mpr ⟨(m, cutIndex i), hlog, ?_⟩⟩
    -- the key was released under an index of its own, which is this one
    obtain ⟨hcut, hsame⟩ := hindex (m, cutIndex i) hlog
    obtain ⟨d, hd⟩ := List.exists_mem_of_ne_nil _ (hacc.sound _ hlog).2.1
    rw [← hsame] at hd
    obtain ⟨hdmem, hdwire⟩ := List.mem_filter.mp hd
    rw [decide_eq_true_eq] at hdwire
    have heq := h.calls d (mem_deltas_take hdmem) c (mem_deltas_take hmem)
      (by rw [indexOf_eq, indexOf_eq, hdwire, hwire, hcut])
    rw [← hdwire, heq, hwire]

end Provider

section Samples

/-- A reader that knows the empty object only, and white space around it. -/
def emptyObjectSerde : SerdeJson where
  fromSlice _ := .error ""
  fromStr s := if s.toList.filter (fun c => !isJsonSpace c) = ['\x7b', '\x7d'] then some (.object []) else none
  toString _ := "\x7b\x7d"

end Samples

end OpenAiSseState

end Monoloop.Interpreter
