import Monoloop.Lib.Utf8
import Monoloop.Interpreter.Engine
import Monoloop.Outbound.Config

/-!
# Encoded exchanges

`encoder.rs` and `dialect.rs`: what an encoder is given, what it makes of it and how it
fails; and the JSON objects that encoders build, as maps whose lookups are the fields.
-/

namespace Monoloop.Outbound

open Interpreter (Json DialectFamily)
open Utf8

structure DialectDescriptor where
  family : DialectFamily
  version : String
  framing : String
  profile : Option String
deriving DecidableEq

namespace DialectDescriptor

def openaiChatCompletions (version : String) : DialectDescriptor :=
  ⟨.openAiChatCompletions, version, "sse", some "openai_chat_completions"⟩

def cursorAcp (version : String) : DialectDescriptor := ⟨.cursorAcp, version, "ndjson", some "cursor"⟩

def agyAcp (version : String) : DialectDescriptor := ⟨.agyAcp, version, "ndjson", some "antigravity"⟩

def codexAcp (version : String) : DialectDescriptor := ⟨.codexAcp, version, "ndjson", some "codex"⟩

def zaiCli (version : String) : DialectDescriptor := ⟨.zaiCli, version, "ndjson", some "zai"⟩

def claudeCode (version : String) : DialectDescriptor :=
  ⟨.claudeCode, version, "ndjson", some "claude_code"⟩

end DialectDescriptor

/-- Whether the exchange ends the connection's write path. -/
inductive ExchangeInputPolicy where
  | sendAndFinish
  | sendAndRetain
deriving DecidableEq, Repr

structure EncodedExchange where
  bytes : List UInt8
  requiredInputDialect : DialectDescriptor
  inputPolicy : ExchangeInputPolicy
deriving DecidableEq

inductive EncodingError where
  | emptyContinuationContext
  | unsupported (what : String)
  | limitExceeded
  | invalidConfiguration
  | unrepresentableInput
deriving DecidableEq, Repr

/-- What an encoder reads of a tool. -/
structure ToolSpec where
  name : ToolName
  description : String
  inputSchema : Json

/-- The bytes of a text, within a bound. -/
def bounded (text : String) (maxEncodedBytes : Nat) (dialect : DialectDescriptor) :
    Except EncodingError EncodedExchange :=
  if maxEncodedBytes < text.utf8ByteSize then .error .limitExceeded
  else .ok ⟨bytes text.toList, dialect, .sendAndFinish⟩

theorem bounded_ok {text : String} {maxEncodedBytes : Nat} {dialect : DialectDescriptor}
    {exchange : EncodedExchange} :
    bounded text maxEncodedBytes dialect = .ok exchange ↔
      text.utf8ByteSize ≤ maxEncodedBytes ∧ exchange = ⟨bytes text.toList, dialect, .sendAndFinish⟩ := by
  unfold bounded
  split
  · rename_i h
    exact iff_of_false (fun h' => by cases h') fun h' => absurd h'.1 (Nat.not_le.mpr h)
  · rename_i h
    rw [Except.ok.injEq]
    exact ⟨fun h' => ⟨Nat.not_lt.mp h, h'.symm⟩, fun h' => h'.2.symm⟩

/-! ## Objects -/

/-- `serde_json::Map`. -/
abbrev JsonMap := OrderedMap String Json

namespace JsonMap

def value (m : JsonMap) : Json := .object m.entries

/-- `json!` of an object. -/
def ofFields (fields : List (String × Json)) : JsonMap := OrderedMap.extend ∅ fields

/-- A field that is there only when it is set. -/
def insertOpt (m : JsonMap) (field : String) (set : Option Json) : JsonMap :=
  match set with
  | none => m
  | some v => m.insert field v

/-- **The fields of an object are the lookups of its map.** -/
theorem get?_value (m : JsonMap) (field : String) : (value m).get? field = m.lookup field := by
  have hfind : ∀ entries : List (String × Json),
      Json.lookup field entries = OrderedMap.find field entries := by
    intro entries
    induction entries with
    | nil => rfl
    | cons e rest ih =>
        rw [Json.lookup, OrderedMap.find, ih]
  exact hfind m.entries

theorem lookup_insertOpt (m : JsonMap) (field field' : String) (set : Option Json) :
    (m.insertOpt field set).lookup field' =
      if field = field' then set.or (m.lookup field') else m.lookup field' := by
  cases set with
  | none => simp [insertOpt]
  | some v =>
      rw [insertOpt, OrderedMap.lookup_insert]
      rfl

/-! ### Tables of fields -/

/-- Fields set one after the other. -/
def setAll (m : JsonMap) (table : List (String × Option Json)) : JsonMap :=
  table.foldl (fun m e => m.insertOpt e.1 e.2) m

/-- The object that a table of fields describes. -/
def ofTable (table : List (String × Option Json)) : JsonMap := setAll ∅ table

/-- What a table says of a field. -/
def entry (table : List (String × Option Json)) (field : String) : Option Json :=
  (table.find? fun e => e.1 = field).bind (·.2)

theorem entry_eq_none {table : List (String × Option Json)} {field : String}
    (h : field ∉ table.map (·.1)) : entry table field = none := by
  have hnone : (table.find? fun e => e.1 = field) = none := by
    rw [List.find?_eq_none]
    intro e he heq
    exact h (List.mem_map.mpr ⟨e, he, by simpa using heq⟩)
  rw [entry, hnone]
  rfl

/-- **A table is seen over what was there.** -/
theorem lookup_setAll {table : List (String × Option Json)} (hnodup : (table.map (·.1)).Nodup)
    (m : JsonMap) (field : String) :
    (m.setAll table).lookup field = (entry table field).or (m.lookup field) := by
  induction table generalizing m with
  | nil => rfl
  | cons e rest ih =>
      obtain ⟨hfresh, hrest⟩ := List.nodup_cons.mp hnodup
      have hcons : m.setAll (e :: rest) = (m.insertOpt e.1 e.2).setAll rest := rfl
      rw [hcons, ih hrest, lookup_insertOpt]
      by_cases heq : e.1 = field
      · subst heq
        rw [if_pos rfl, entry_eq_none hfresh, entry, List.find?_cons_of_pos (by simp)]
        rfl
      · rw [if_neg heq, entry, entry, List.find?_cons_of_neg (by simpa using heq)]

theorem lookup_ofTable {table : List (String × Option Json)} (hnodup : (table.map (·.1)).Nodup)
    (field : String) : (ofTable table).lookup field = entry table field := by
  rw [ofTable, lookup_setAll hnodup, OrderedMap.lookup_empty, Option.or_none]

end JsonMap

end Monoloop.Outbound
