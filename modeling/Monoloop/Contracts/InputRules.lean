import Monoloop.Contracts.Input
import Monoloop.Contracts.JsonDepth

/-!
# The rules of canonical input

`InputRules` says what `limits.rs` and the comments of `input.rs` ask of a list of
messages, one field per rule. `CanonicalInput::try_new` is a fold with a growing total and
a growing list of ids; one lemma per function of the source says when it succeeds.

The bound on tool calls is the one rule that the fold checks message by message.
-/

namespace Monoloop

variable {Json : Type}

/-! ## The rules -/

/-- A name or a call id: not empty, not too long, no control characters. -/
def Shaped (maxBytes : Nat) (s : String) : Prop :=
  s ≠ "" ∧ s.utf8ByteSize ≤ maxBytes ∧ ∀ c ∈ s.toList, isControl c = false

/-- The text parts of one message. -/
def PartsFit (limits : InputLimits) (parts : List TextPart) : Prop :=
  parts.length ≤ limits.maxContentParts ∧
    ∀ p ∈ parts, p.text ≠ "" ∧ p.text.utf8ByteSize ≤ limits.maxTextPartBytes

/-- Arguments that can be written, in few bytes and few levels. -/
def ArgumentsFit (serde : SerdeJson Json) (limits : InputLimits) (value : Json) : Prop :=
  serde.depth value ≤ limits.maxJsonDepth ∧
    ∃ encoded, serde.render value = some encoded ∧
      encoded.utf8ByteSize ≤ limits.maxToolArgumentBytes

namespace CanonicalMessage

def content : CanonicalMessage Json → List TextPart
  | .system content _ | .user content _ | .assistant content _ | .tool _ content => content

def toolCalls : CanonicalMessage Json → List (CanonicalAssistantToolCall Json)
  | .assistant _ toolCalls => toolCalls
  | _ => []

/-- The rules for a message by itself. -/
def WellFormed (serde : SerdeJson Json) (limits : InputLimits) (msg : CanonicalMessage Json) : Prop :=
  PartsFit limits msg.content ∧
    (∀ call ∈ msg.toolCalls, Shaped limits.maxToolCallIdBytes call.toolCallId ∧
      ArgumentsFit serde limits call.arguments) ∧
    match msg with
    | .system content name | .user content name =>
        content ≠ [] ∧ ∀ n ∈ name, Shaped limits.maxNameBytes n
    | .assistant content toolCalls => content ≠ [] ∨ toolCalls ≠ []
    | .tool toolCallId content => content ≠ [] ∧ Shaped limits.maxToolCallIdBytes toolCallId

/-- The bytes of the text of a message. -/
def textBytes (msg : CanonicalMessage Json) : Nat := (msg.content.map (·.text.utf8ByteSize)).sum

end CanonicalMessage

/-- The bytes of all text, as far as a `usize` counts. -/
def totalTextBytes (messages : List (CanonicalMessage Json)) : Nat :=
  min (messages.map (·.textBytes)).sum usizeMax

/-- **The rules of an input**, without the one on the number of tool calls. -/
structure InputRules (serde : SerdeJson Json) (limits : InputLimits)
    (messages : List (CanonicalMessage Json)) : Prop where
  count : 1 ≤ messages.length ∧ messages.length ≤ limits.maxMessages
  each : ∀ msg ∈ messages, msg.WellFormed serde limits
  text : totalTextBytes messages ≤ limits.maxAggregateTextBytes
  distinct : (announcedIds messages).Nodup
  /-- A tool message answers a call of an earlier message. -/
  answers : ∀ (i : Nat) id content, messages[i]? = some (.tool id content) →
    id ∈ announcedIds (messages.take i)

/-- How many tool calls the assistant messages of an input make. -/
def callCount (messages : List (CanonicalMessage Json)) : Nat := (announcedIds messages).length

/-! ## When the checks of one message succeed -/

section

variable {serde : SerdeJson Json} {limits : InputLimits} {seen : List String} {aggregate : Nat}

/-- The three tests of a name or a call id. -/
theorem shape_ok {ε : Type} {e₁ e₂ e₃ : ε} {maxBytes : Nat} {s : String} {u : Unit} :
    (if s.isEmpty then .error e₁
      else if maxBytes < s.utf8ByteSize then .error e₂
      else if s.toList.any isControl then .error e₃
      else .ok ()) = (.ok u : Except ε Unit) ↔ Shaped maxBytes s := by
  unfold Shaped
  split_ifs with hempty hlong hcontrol
  · simp [String.isEmpty_iff.mp hempty]
  · simp only [false_iff, not_and]
    intro _ hle
    omega
  · simp only [false_iff, not_and]
    intro _ _ hall
    obtain ⟨c, hc, hcontrol⟩ := List.any_eq_true.mp hcontrol
    rw [hall c hc] at hcontrol
    cases hcontrol
  · simp only [true_iff]
    refine ⟨fun h => hempty (String.isEmpty_iff.mpr h), by omega, ?_⟩
    intro c hc
    rw [← Bool.not_eq_true]
    exact fun h => hcontrol (List.any_eq_true.mpr ⟨c, hc, h⟩)

theorem validateToolCallId_ok {id : String} {u : Unit} :
    validateToolCallId id limits = .ok u ↔ Shaped limits.maxToolCallIdBytes id := shape_ok

theorem validateName_ok {name : Option String} {u : Unit} :
    validateName name limits = .ok u ↔ ∀ n ∈ name, Shaped limits.maxNameBytes n := by
  cases name with
  | none => simp [validateName]
  | some n =>
      simp only [Option.mem_some_iff, forall_eq']
      exact shape_ok

theorem validateParts_ok {parts : List TextPart} {total : Nat} :
    validateParts limits parts aggregate = .ok total ↔
      (∀ p ∈ parts, p.text ≠ "" ∧ p.text.utf8ByteSize ≤ limits.maxTextPartBytes) ∧
        total = parts.foldl (fun n p => satAdd n p.text.utf8ByteSize) aggregate := by
  induction parts generalizing aggregate with
  | nil =>
      rw [validateParts, Except.ok.injEq, List.foldl_nil]
      exact ⟨fun h => ⟨by simp, h.symm⟩, fun h => h.2.symm⟩
  | cons p rest ih =>
      rw [validateParts, List.forall_mem_cons, List.foldl_cons]
      split_ifs with hempty hlong
      · simp [String.isEmpty_iff.mp hempty]
      · simp only [false_iff, not_and]
        rintro ⟨⟨-, hle⟩, -⟩
        omega
      · rw [ih]
        have hp : p.text ≠ "" ∧ p.text.utf8ByteSize ≤ limits.maxTextPartBytes :=
          ⟨fun h => hempty (String.isEmpty_iff.mpr h), by omega⟩
        simp [hp]

/-- Saturating sums stop at the largest `usize`. -/
theorem foldl_satAdd {parts : List TextPart} (h : aggregate ≤ usizeMax) :
    parts.foldl (fun n p => satAdd n p.text.utf8ByteSize) aggregate =
      min (aggregate + (parts.map (·.text.utf8ByteSize)).sum) usizeMax := by
  induction parts generalizing aggregate with
  | nil => simp [h]
  | cons p rest ih =>
      rw [List.foldl_cons, ih (satAdd_le_max _ _), List.map_cons, List.sum_cons, satAdd]
      omega

theorem validateTextParts_ok {parts : List TextPart} {required : Bool} {total : Nat}
    (h : aggregate ≤ usizeMax) :
    validateTextParts parts limits required aggregate = .ok total ↔
      (required = true → parts ≠ []) ∧ PartsFit limits parts ∧
        total = min (aggregate + (parts.map (·.text.utf8ByteSize)).sum) usizeMax := by
  unfold validateTextParts PartsFit
  rw [← foldl_satAdd h]
  split_ifs with hrequired hmany
  · simp only [Bool.and_eq_true, List.isEmpty_iff] at hrequired
    simp [hrequired]
  · simp only [false_iff, not_and]
    rintro - ⟨hle, -⟩
    omega
  · rw [validateParts_ok]
    simp only [Bool.and_eq_true, List.isEmpty_iff, not_and] at hrequired
    have hle : parts.length ≤ limits.maxContentParts := Nat.le_of_not_lt hmany
    constructor
    · rintro ⟨hparts, htotal⟩
      exact ⟨hrequired, ⟨hle, hparts⟩, htotal⟩
    · rintro ⟨-, ⟨-, hparts⟩, htotal⟩
      exact ⟨hparts, htotal⟩

theorem validateJsonValue_ok {value : Json} {u : Unit} :
    validateJsonValue serde value limits.maxJsonDepth limits.maxToolArgumentBytes = .ok u ↔
      ArgumentsFit serde limits value := by
  unfold validateJsonValue ArgumentsFit
  split_ifs with hdeep
  · simp only [false_iff, not_and]
    intro hle
    omega
  · cases hrender : serde.render value with
    | none => simp
    | some encoded =>
        simp only [Option.some.injEq, exists_eq_left']
        split_ifs with hlong <;> simp <;> omega

theorem validateCalls_iff {calls : List (CanonicalAssistantToolCall Json)} {seen' : List String} :
    validateCalls serde limits calls seen = .ok seen' ↔
      (∀ call ∈ calls, Shaped limits.maxToolCallIdBytes call.toolCallId ∧
        ArgumentsFit serde limits call.arguments) ∧
      ((calls.map (·.toolCallId)).Nodup ∧ ∀ call ∈ calls, call.toolCallId ∉ seen) ∧
      seen' = seen ++ calls.map (·.toolCallId) := by
  constructor
  · intro h
    obtain ⟨hnodup, hfresh, hseen⟩ := validateCalls_ok h
    refine ⟨?_, ⟨hnodup, hfresh⟩, hseen⟩
    clear hnodup hfresh hseen
    induction calls generalizing seen with
    | nil => simp
    | cons call rest ih =>
        unfold validateCalls at h
        obtain ⟨_, hid, h⟩ := Except.bind_eq_ok.mp h
        split at h
        · cases h
        · obtain ⟨_, hargs, h⟩ := Except.bind_eq_ok.mp h
          rw [List.forall_mem_cons]
          exact ⟨⟨validateToolCallId_ok.mp hid, validateJsonValue_ok.mp hargs⟩, ih h⟩
  · rintro ⟨hcalls, ⟨hnodup, hfresh⟩, rfl⟩
    induction calls generalizing seen with
    | nil => simp [validateCalls]
    | cons call rest ih =>
        rw [List.forall_mem_cons] at hcalls hfresh
        rw [List.map_cons, List.nodup_cons] at hnodup
        unfold validateCalls
        refine Except.bind_eq_ok.mpr ⟨(), validateToolCallId_ok.mpr hcalls.1.1, ?_⟩
        rw [if_neg hfresh.1]
        refine Except.bind_eq_ok.mpr ⟨(), validateJsonValue_ok.mpr hcalls.1.2, ?_⟩
        have hfresh' : ∀ call' ∈ rest, call'.toolCallId ∉ seen ++ [call.toolCallId] := by
          intro call' hmem hseen
          rcases List.mem_append.mp hseen with hseen | hseen
          · exact hfresh.2 call' hmem hseen
          · apply hnodup.1
            rw [← List.mem_singleton.mp hseen]
            exact List.mem_map_of_mem hmem
        rw [ih hcalls.2 hnodup.2 hfresh']
        simp

/-- The text of a message that needs some. -/
theorem requiredText_ok {parts : List TextPart} {total : Nat} (h : aggregate ≤ usizeMax) :
    validateTextParts parts limits true aggregate = .ok total ↔
      parts ≠ [] ∧ PartsFit limits parts ∧
        total = min (aggregate + (parts.map (·.text.utf8ByteSize)).sum) usizeMax := by
  rw [validateTextParts_ok h]
  simp

/-- **One message is accepted** when it is well formed, fits to the ids that were seen and
does not make too many calls itself. -/
theorem validate_iff {msg : CanonicalMessage Json} {index : Nat} {r : Nat × List String}
    (h : aggregate ≤ usizeMax) :
    msg.validate serde limits index aggregate seen = .ok r ↔
      msg.WellFormed serde limits ∧ msg.toolCalls.length ≤ limits.maxToolCalls ∧
        msg.Follows seen ∧
        r = (min (aggregate + msg.textBytes) usizeMax, seen ++ msg.announced) := by
  obtain ⟨total, seen'⟩ := r
  cases msg with
  | system content name | user content name =>
      constructor
      · intro hok
        obtain ⟨_, hname, hok⟩ := Except.bind_eq_ok.mp hok
        obtain ⟨_, htext, hok⟩ := Except.bind_eq_ok.mp hok
        obtain ⟨hne, hparts, rfl⟩ := (requiredText_ok h).mp htext
        cases hok
        refine ⟨⟨hparts, by simp [CanonicalMessage.toolCalls], hne, validateName_ok.mp hname⟩,
          Nat.zero_le _, trivial, ?_⟩
        exact congrArg (Prod.mk _) (List.append_nil seen).symm
      · rintro ⟨⟨hparts, -, hne, hname⟩, -, -, hr⟩
        simp only [CanonicalMessage.announced, List.append_nil] at hr
        rw [hr]
        exact Except.bind_eq_ok.mpr ⟨(), validateName_ok.mpr hname,
          Except.bind_eq_ok.mpr ⟨_, (requiredText_ok h).mpr ⟨hne, hparts, rfl⟩, rfl⟩⟩
  | assistant content toolCalls =>
      have htext : ∀ total, validateTextParts content limits false aggregate = .ok total ↔
          (false = true → content ≠ []) ∧ PartsFit limits content ∧
            total = min (aggregate + (content.map (·.text.utf8ByteSize)).sum) usizeMax :=
        fun _ => validateTextParts_ok h
      rw [CanonicalMessage.validate]
      constructor
      · intro hok
        split at hok
        · cases hok
        · rename_i hsome
          obtain ⟨aggregate', htext', hok⟩ := Except.bind_eq_ok.mp hok
          obtain ⟨-, hparts, rfl⟩ := (htext _).mp htext'
          split at hok
          · cases hok
          · rename_i hmany
            obtain ⟨_, hcalls, hok⟩ := Except.bind_eq_ok.mp hok
            cases hok
            obtain ⟨hargs, hfollows, rfl⟩ := validateCalls_iff.mp hcalls
            refine ⟨⟨hparts, hargs, ?_⟩, Nat.le_of_not_lt hmany, hfollows, rfl⟩
            rw [Bool.and_eq_true, List.isEmpty_iff, List.isEmpty_iff, not_and_or] at hsome
            exact hsome
      · rintro ⟨⟨hparts, hargs, hsome⟩, hmany, hfollows, hr⟩
        rw [if_neg, hr]
        · refine Except.bind_eq_ok.mpr ⟨_, (htext _).mpr ⟨by simp, hparts, rfl⟩, ?_⟩
          have hmany' : ¬ limits.maxToolCalls < toolCalls.length := Nat.not_lt.mpr hmany
          rw [if_neg hmany']
          exact Except.bind_eq_ok.mpr ⟨_, validateCalls_iff.mpr ⟨hargs, hfollows, rfl⟩, rfl⟩
        · rw [Bool.and_eq_true, List.isEmpty_iff, List.isEmpty_iff, not_and_or]
          exact hsome
  | tool id content =>
      rw [CanonicalMessage.validate]
      constructor
      · intro hok
        obtain ⟨_, hid, hok⟩ := Except.bind_eq_ok.mp hok
        split at hok
        · cases hok
        · rename_i hseen
          obtain ⟨_, htext, hok⟩ := Except.bind_eq_ok.mp hok
          obtain ⟨hne, hparts, rfl⟩ := (requiredText_ok h).mp htext
          cases hok
          refine ⟨⟨hparts, by simp [CanonicalMessage.toolCalls], hne, validateToolCallId_ok.mp hid⟩,
            Nat.zero_le _, not_not.mp hseen, ?_⟩
          exact congrArg (Prod.mk _) (List.append_nil seen).symm
      · rintro ⟨⟨hparts, -, hne, hid⟩, -, hseen, hr⟩
        simp only [CanonicalMessage.announced, List.append_nil] at hr
        rw [hr]
        refine Except.bind_eq_ok.mpr ⟨(), validateToolCallId_ok.mpr hid, ?_⟩
        have hseen' : ¬ id ∉ seen := not_not.mpr hseen
        rw [if_neg hseen']
        exact Except.bind_eq_ok.mpr ⟨_, (requiredText_ok h).mpr ⟨hne, hparts, rfl⟩, rfl⟩

/-- The fold succeeds when every message is accepted and the list is a transcript. -/
theorem validateMessages_iff {messages : List (CanonicalMessage Json)} {index : Nat}
    {r : Nat × List String} (h : aggregate ≤ usizeMax) :
    validateMessages serde limits messages index aggregate seen = .ok r ↔
      (∀ msg ∈ messages, msg.WellFormed serde limits ∧
        msg.toolCalls.length ≤ limits.maxToolCalls) ∧
      Correlated seen messages ∧
      r = (min (aggregate + (messages.map (·.textBytes)).sum) usizeMax,
        seen ++ announcedIds messages) := by
  induction messages generalizing index aggregate seen with
  | nil =>
      rw [validateMessages, Except.ok.injEq]
      simp only [List.not_mem_nil, false_implies, implies_true, true_and, Correlated,
        List.map_nil, List.sum_nil, Nat.add_zero, Nat.min_eq_left h, announcedIds,
        List.flatMap_nil, List.append_nil]
      exact eq_comm
  | cons msg rest ih =>
      have hrest : min (min (aggregate + msg.textBytes) usizeMax +
          (rest.map (·.textBytes)).sum) usizeMax =
          min (aggregate + ((msg :: rest).map (·.textBytes)).sum) usizeMax := by
        rw [List.map_cons, List.sum_cons]
        omega
      have hids : seen ++ announcedIds (msg :: rest) =
          (seen ++ msg.announced) ++ announcedIds rest := by
        rw [List.append_assoc]
        rfl
      rw [validateMessages, List.forall_mem_cons, Correlated, ← hrest, hids]
      constructor
      · intro hok
        obtain ⟨_, hmsg, hok⟩ := Except.bind_eq_ok.mp hok
        obtain ⟨hwell, hcalls, hfollows, rfl⟩ := (validate_iff h).mp hmsg
        obtain ⟨hall, hcorrelated, hr⟩ := (ih (Nat.min_le_right _ _)).mp hok
        exact ⟨⟨⟨hwell, hcalls⟩, hall⟩, ⟨hfollows, hcorrelated⟩, hr⟩
      · rintro ⟨⟨⟨hwell, hcalls⟩, hall⟩, ⟨hfollows, hcorrelated⟩, hr⟩
        exact Except.bind_eq_ok.mpr ⟨_, (validate_iff h).mpr ⟨hwell, hcalls, hfollows, rfl⟩,
          (ih (Nat.min_le_right _ _)).mpr ⟨hall, hcorrelated, hr⟩⟩

end

/-! ## Transcripts -/

theorem follows_iff {msg : CanonicalMessage Json} {seen : List String} :
    msg.Follows seen ↔ (msg.announced.Nodup ∧ ∀ id ∈ msg.announced, id ∉ seen) ∧
      ∀ id content, msg = .tool id content → id ∈ seen := by
  cases msg <;> simp [CanonicalMessage.Follows, CanonicalMessage.announced]

/-- The two rules of a transcript, each about the whole list. -/
theorem correlated_iff {messages : List (CanonicalMessage Json)} {seen : List String} :
    Correlated seen messages ↔
      ((announcedIds messages).Nodup ∧ ∀ id ∈ announcedIds messages, id ∉ seen) ∧
      ∀ (i : Nat) id content, messages[i]? = some (.tool id content) →
        id ∈ seen ++ announcedIds (messages.take i) := by
  induction messages generalizing seen with
  | nil => simp [Correlated, announcedIds]
  | cons msg rest ih =>
      have hids : announcedIds (msg :: rest) = msg.announced ++ announcedIds rest := rfl
      rw [Correlated, follows_iff, ih, hids, List.nodup_append']
      constructor
      · rintro ⟨⟨⟨hnodup, hfresh⟩, htool⟩, ⟨hnodup', hfresh'⟩, htools⟩
        refine ⟨⟨⟨hnodup, hnodup', ?_⟩, ?_⟩, ?_⟩
        · intro id hid hid'
          exact hfresh' id hid' (List.mem_append_right _ hid)
        · intro id hid
          rcases List.mem_append.mp hid with hid | hid
          · exact hfresh id hid
          · exact fun hseen => hfresh' id hid (List.mem_append_left _ hseen)
        · intro i id content hi
          cases i with
          | zero =>
              rw [List.getElem?_cons_zero, Option.some.injEq] at hi
              exact List.mem_append_left _ (htool id content hi)
          | succ i =>
              have hmem := htools i id content hi
              rw [List.append_assoc] at hmem
              exact hmem
      · rintro ⟨⟨⟨hnodup, hnodup', hdisjoint⟩, hfresh⟩, htools⟩
        refine ⟨⟨⟨hnodup, fun id hid => hfresh id (List.mem_append_left _ hid)⟩, ?_⟩,
          ⟨hnodup', ?_⟩, ?_⟩
        · intro id content hmsg
          have hmem := htools 0 id content (by rw [hmsg]; rfl)
          rw [List.take_zero] at hmem
          exact (List.mem_append.mp hmem).resolve_right List.not_mem_nil
        · intro id hid hseen
          rcases List.mem_append.mp hseen with hseen | hseen
          · exact hfresh id (List.mem_append_right _ hid) hseen
          · exact hdisjoint hseen hid
        · intro i id content hi
          rw [List.append_assoc]
          exact htools (i + 1) id content hi

/-! ## What is accepted -/

section

variable {serde : SerdeJson Json} {limits : InputLimits} {messages : List (CanonicalMessage Json)}

/-- `CanonicalInput::try_new` follows the rules, with a bound on the calls of each message. -/
theorem tryNew_iff {input : CanonicalInput Json} :
    CanonicalInput.tryNew serde messages limits = .ok input ↔
      (InputRules serde limits messages ∧
        ∀ msg ∈ messages, msg.toolCalls.length ≤ limits.maxToolCalls) ∧
      input = ⟨messages⟩ := by
  unfold CanonicalInput.tryNew
  split_ifs with hempty hmany
  · simp only [false_iff, not_and]
    rintro ⟨hrules, -⟩
    have hcount := hrules.count.1
    rw [List.isEmpty_iff.mp hempty] at hcount
    simp at hcount
  · simp only [false_iff, not_and]
    rintro ⟨hrules, -⟩
    have hcount := hrules.count.2
    omega
  · have hne : 1 ≤ messages.length := by
      rw [List.isEmpty_iff] at hempty
      exact List.length_pos_iff.mpr hempty
    constructor
    · intro h
      obtain ⟨_, hfold, h⟩ := Except.bind_eq_ok.mp h
      obtain ⟨hall, hcorrelated, rfl⟩ := (validateMessages_iff (Nat.zero_le _)).mp hfold
      obtain ⟨⟨hnodup, -⟩, htools⟩ := correlated_iff.mp hcorrelated
      simp only [Nat.zero_add] at h
      split at h
      · cases h
      · rename_i htext
        cases h
        exact ⟨⟨⟨⟨hne, Nat.le_of_not_lt hmany⟩, fun msg hmem => (hall msg hmem).1,
          Nat.le_of_not_lt htext, hnodup, htools⟩, fun msg hmem => (hall msg hmem).2⟩, rfl⟩
    · rintro ⟨⟨hrules, hcalls⟩, rfl⟩
      have hcorrelated : Correlated [] messages :=
        correlated_iff.mpr ⟨⟨hrules.distinct, fun _ _ => List.not_mem_nil⟩, hrules.answers⟩
      refine Except.bind_eq_ok.mpr ⟨_, (validateMessages_iff (Nat.zero_le _)).mpr
        ⟨fun msg hmem => ⟨hrules.each msg hmem, hcalls msg hmem⟩, hcorrelated, rfl⟩, ?_⟩
      simp only [Nat.zero_add]
      rw [if_neg]
      exact Nat.not_lt.mpr hrules.text

/-- Every message makes some of the calls of the input. -/
theorem calls_le_callCount {msg : CanonicalMessage Json} (h : msg ∈ messages) :
    msg.toolCalls.length ≤ callCount messages := by
  have hlen : msg.toolCalls.length = msg.announced.length := by
    cases msg <;> simp [CanonicalMessage.toolCalls, CanonicalMessage.announced]
  rw [hlen]
  exact (List.sublist_flatten_of_mem (List.mem_map_of_mem h)).length_le

end

/-- The library, with the `json_depth` of `input.rs`. -/
def withDepth (serde : SerdeJson Interpreter.Json) : SerdeJson Interpreter.Json :=
  { serde with depth := jsonDepth }

/-- **An input is accepted exactly by the documented rules** when those messages whose
calls are few one by one make few calls together. -/
theorem tryNew_documented_iff (serde : SerdeJson Interpreter.Json) (limits : InputLimits)
    (messages : List (CanonicalMessage Interpreter.Json)) :
    (((∃ input, CanonicalInput.tryNew (withDepth serde) messages limits = .ok input) ↔
        InputRules (withDepth serde) limits messages ∧
          callCount messages ≤ limits.maxToolCalls) ∧
      ∀ input, CanonicalInput.tryNew (withDepth serde) messages limits = .ok input →
        input.messages = messages) ↔
    (InputRules (withDepth serde) limits messages →
      (∀ msg ∈ messages, msg.toolCalls.length ≤ limits.maxToolCalls) →
        callCount messages ≤ limits.maxToolCalls) := by
  simp only [tryNew_iff, exists_and_left, exists_eq, and_true]
  constructor
  · rintro ⟨hiff, -⟩ hrules hcalls
    exact (hiff.mp ⟨hrules, hcalls⟩).2
  · intro hfew
    refine ⟨⟨fun ⟨hrules, hcalls⟩ => ⟨hrules, hfew hrules hcalls⟩, ?_⟩, ?_⟩
    · rintro ⟨hrules, hcount⟩
      exact ⟨hrules, fun msg hmem => Nat.le_trans (calls_le_callCount hmem) hcount⟩
    · rintro input ⟨-, rfl⟩
      rfl

/-- An assistant message with one call, and nothing else. -/
def lonelyCall (id : String) : CanonicalMessage Interpreter.Json :=
  .assistant [] [⟨id, ⟨"read", by decide⟩, .object []⟩]

/-- A library that writes the empty object, which is all it is asked for. -/
def emptyObjectSerde : SerdeJson Interpreter.Json where
  parse _ := none
  render _ := some "\x7b\x7d"
  renderError _ := none
  parseResult _ := none
  renderResult _ := none
  depth _ := 0

/-- **Two calls where one is allowed**, in a message each. -/
theorem tryNew_two_calls :
    ¬ ((∃ input, CanonicalInput.tryNew (withDepth emptyObjectSerde)
          [lonelyCall "a", lonelyCall "b"] { InputLimits.default with maxToolCalls := 1 } =
            .ok input) ↔
        InputRules (withDepth emptyObjectSerde) { InputLimits.default with maxToolCalls := 1 }
          [lonelyCall "a", lonelyCall "b"] ∧ callCount [lonelyCall "a", lonelyCall "b"] ≤ 1) := by
  intro h
  have haccepted : ∃ input, CanonicalInput.tryNew (withDepth emptyObjectSerde)
      [lonelyCall "a", lonelyCall "b"] { InputLimits.default with maxToolCalls := 1 } =
        .ok input := ⟨_, rfl⟩
  have hcount : callCount [lonelyCall "a", lonelyCall "b"] ≤ 1 := (h.mp haccepted).2
  have htwo : callCount [lonelyCall "a", lonelyCall "b"] = 2 := rfl
  omega

end Monoloop
