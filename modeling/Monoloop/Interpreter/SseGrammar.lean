import Monoloop.Lib.Utf8
import Monoloop.Interpreter.SseChunks

/-!
# The grammar of a server-sent event stream

A writer spells an event as lines, data lines among lines that say nothing to this
reader, each ended by LF or CRLF, and a blank line (`SseEvent.spell`). The assembler
reads the payloads back, one chunk of JSON for each event (`run_spell`), wherever the
bytes are cut (`spelled_decoded`).
-/

namespace Monoloop.Interpreter

open Transducer Utf8

/-! ## Writing -/

inductive LineEnd where
  | lf
  | crlf
  deriving DecidableEq, Repr

def LineEnd.carry : LineEnd → List UInt8
  | .lf => []
  | .crlf => [0x0d]

/-- A line as it may be spelled: data with or without the one space, or a line that is
no data (a comment, an `event:`, `id:` or `retry:` field). -/
inductive SseLine where
  | data (spaced : Bool) (payload : String)
  | ignored (text : String)
  deriving DecidableEq, Repr

namespace SseLine

def text : SseLine → String
  | .data true payload => "data: " ++ payload
  | .data false payload => "data:" ++ payload
  | .ignored text => text

def payload? : SseLine → Option String
  | .data _ payload => some payload
  | .ignored _ => none

/-- A line that is read as what it is. -/
structure Plain (line : SseLine) : Prop where
  nonempty : line.text ≠ ""
  spaced : ∀ payload, line = .data false payload → payload.toList.head? ≠ some ' '
  undata : ∀ text, line = .ignored text → ¬ "data:".toList <+: text.toList

/-- The line that has a text. -/
def ofText (text : String) : SseLine :=
  match OpenAiSseState.stripPrefix "data:".toList text.toList with
  | none => .ignored text
  | some rest =>
      match OpenAiSseState.stripPrefix [' '] rest with
      | none => .data false (String.ofList rest)
      | some payload => .data true (String.ofList payload)

end SseLine

structure SpelledLine where
  line : SseLine
  ending : LineEnd := .lf
  deriving DecidableEq, Repr

namespace SpelledLine

def spell (l : SpelledLine) : List UInt8 :=
  bytes l.line.text.toList ++ l.ending.carry ++ [0x0a]

def payload? (l : SpelledLine) : Option String := l.line.payload?

/-- What keeps a spelled line one line, with the end it has, and not too long. -/
structure Fits (maxLineBytes : Nat) (l : SpelledLine) : Prop where
  plain : l.line.Plain
  one : '\n' ∉ l.line.text.toList
  unreturned : l.ending = .lf → l.line.text.toList.getLast? ≠ some '\r'
  short : l.line.text.utf8ByteSize + l.ending.carry.length ≤ maxLineBytes

end SpelledLine

/-- The lines of an event, and the end of its blank line. -/
structure SseEvent where
  lines : List SpelledLine
  last : LineEnd := .lf
  deriving DecidableEq, Repr

namespace SseEvent

/-- The bytes of an event. -/
def spell (event : SseEvent) : List UInt8 :=
  event.lines.flatMap SpelledLine.spell ++ event.last.carry ++ [0x0a]

def data (event : SseEvent) : List String := event.lines.filterMap SpelledLine.payload?

/-- What an event says; nothing, when it has no data line. -/
def payload? (event : SseEvent) : Option String :=
  if event.data = [] then none else some ("\n".intercalate event.data)

/-- The event that ends the stream. -/
def isDone (event : SseEvent) : Bool :=
  event.payload?.any fun data => trim data.toList = "[DONE]".toList

/-- What the reader's bounds ask of an event. -/
structure Fits (maxLineBytes maxEventBytes : Nat) (event : SseEvent) : Prop where
  lines : ∀ l ∈ event.lines, l.Fits maxLineBytes
  last : event.last.carry.length ≤ maxLineBytes
  payload : ("\n".intercalate event.data).utf8ByteSize ≤ maxEventBytes

end SseEvent

/-- The bytes of a stream. -/
def spellStream (events : List SseEvent) : List UInt8 := events.flatMap SseEvent.spell

/-- A stream cut anywhere: whole events, whole lines of the next one, part of a line. -/
structure SseText where
  events : List SseEvent
  lines : List SpelledLine := []
  carry : List UInt8 := []
  deriving DecidableEq, Repr

namespace SseText

def spell (text : SseText) : List UInt8 :=
  spellStream text.events ++ text.lines.flatMap SpelledLine.spell ++ text.carry

structure Fits (maxLineBytes maxEventBytes : Nat) (text : SseText) : Prop where
  events : ∀ event ∈ text.events, event.Fits maxLineBytes maxEventBytes
  lines : ∀ l ∈ text.lines, l.Fits maxLineBytes
  carry : (0x0a : UInt8) ∉ text.carry
  short : text.carry.length ≤ maxLineBytes

end SseText

/-! ## Lines -/

theorem stripPrefix_eq_some {pre s rest : List Char} :
    OpenAiSseState.stripPrefix pre s = some rest ↔ s = pre ++ rest := by
  unfold OpenAiSseState.stripPrefix
  constructor
  · intro h
    split at h
    · rename_i hpre
      obtain ⟨t, rfl⟩ := List.isPrefixOf_iff_prefix.mp hpre
      rw [List.drop_left] at h
      cases h
      rfl
    · cases h
  · rintro rfl
    rw [if_pos (by simp), List.drop_left]

theorem stripPrefix_eq_none {pre s : List Char} :
    OpenAiSseState.stripPrefix pre s = none ↔ ¬ pre <+: s := by
  rw [← List.isPrefixOf_iff_prefix, OpenAiSseState.stripPrefix]
  split
  · rename_i hpre
    simp [hpre]
  · rename_i hpre
    simp [hpre]

namespace SseLine

variable {line : SseLine}

/-- **A line says its payload.** -/
theorem Plain.dataPayload_text (h : line.Plain) :
    OpenAiSseState.dataPayload line.text = line.payload? := by
  cases line with
  | ignored text =>
      have hnone : OpenAiSseState.stripPrefix "data:".toList (ignored text).text.toList = none :=
        stripPrefix_eq_none.mpr (h.undata text rfl)
      rw [OpenAiSseState.dataPayload, hnone]
      rfl
  | data spaced payload =>
      cases spaced with
      | true =>
          have htext : (SseLine.data true payload).text.toList =
              "data:".toList ++ ([' '] ++ payload.toList) := by
            rw [text, String.toList_append]
            rfl
          rw [OpenAiSseState.dataPayload, htext, stripPrefix_eq_some.mpr rfl, Option.map_some,
            stripPrefix_eq_some.mpr rfl, Option.getD_some, String.ofList_toList]
          rfl
      | false =>
          have htext : (SseLine.data false payload).text.toList =
              "data:".toList ++ payload.toList := by
            rw [text, String.toList_append]
          have hspace : ¬ [' '] <+: payload.toList := by
            intro hlead
            obtain ⟨rest, hrest⟩ := hlead
            exact h.spaced payload rfl (by rw [← hrest]; rfl)
          rw [OpenAiSseState.dataPayload, htext, stripPrefix_eq_some.mpr rfl, Option.map_some,
            stripPrefix_eq_none.mpr hspace, Option.getD_none, String.ofList_toList]
          rfl

theorem ofText_cases (text : String) :
    (¬ "data:".toList <+: text.toList ∧ ofText text = .ignored text) ∨
      (∃ rest, text.toList = "data:".toList ++ rest ∧ ¬ [' '] <+: rest ∧
        ofText text = .data false (String.ofList rest)) ∨
      (∃ payload, text.toList = "data:".toList ++ ([' '] ++ payload) ∧
        ofText text = .data true (String.ofList payload)) := by
  unfold ofText
  cases hdata : OpenAiSseState.stripPrefix "data:".toList text.toList with
  | none => exact .inl ⟨stripPrefix_eq_none.mp hdata, rfl⟩
  | some rest =>
      right
      simp only
      rw [stripPrefix_eq_some] at hdata
      cases hspace : OpenAiSseState.stripPrefix [' '] rest with
      | none => exact .inl ⟨rest, hdata, stripPrefix_eq_none.mp hspace, rfl⟩
      | some payload =>
          rw [stripPrefix_eq_some] at hspace
          exact .inr ⟨payload, by rw [hdata, hspace], rfl⟩

/-- Every text that is not empty is that of a line. -/
theorem text_ofText (text : String) : (ofText text).text = text := by
  rw [← String.toList_inj]
  rcases ofText_cases text with ⟨-, h⟩ | ⟨rest, htext, -, h⟩ | ⟨payload, htext, h⟩
  · rw [h]
    rfl
  · rw [h, htext]
    simp [SseLine.text]
  · rw [h, htext]
    simp [SseLine.text]

theorem plain_ofText {text : String} (hne : text ≠ "") : (ofText text).Plain := by
  refine ⟨by rwa [text_ofText], ?_, ?_⟩
  · intro payload hpayload
    rcases ofText_cases text with ⟨-, h⟩ | ⟨rest, -, hspace, h⟩ | ⟨_, -, h⟩
    · rw [h] at hpayload
      cases hpayload
    · rw [h] at hpayload
      cases hpayload
      intro hhead
      rw [String.toList_ofList] at hhead
      obtain ⟨tail, rfl⟩ := List.head?_eq_some_iff.mp hhead
      exact hspace (List.prefix_append [' '] tail)
    · rw [h] at hpayload
      cases hpayload
  · intro text' htext
    rcases ofText_cases text with ⟨hdata, h⟩ | ⟨rest, -, -, h⟩ | ⟨_, -, h⟩
    · rw [h] at htext
      cases htext
      exact hdata
    · rw [h] at htext
      cases htext
    · rw [h] at htext
      cases htext

end SseLine

namespace SpelledLine.Fits

variable {maxLineBytes : Nat} {l : SpelledLine}

theorem newline_notMem (h : l.Fits maxLineBytes) :
    (0x0a : UInt8) ∉ bytes l.line.text.toList ++ l.ending.carry := by
  intro hmem
  rcases List.mem_append.mp hmem with hmem | hmem
  · exact h.one (mem_bytes_ascii (by decide) hmem)
  · cases hend : l.ending <;> rw [hend] at hmem <;> simp [LineEnd.carry] at hmem

/-- The end of a line is cut off with its CR. -/
theorem stripCr_text (h : l.Fits maxLineBytes) :
    OpenAiSseState.stripCr (bytes l.line.text.toList ++ l.ending.carry) =
      bytes l.line.text.toList := by
  unfold OpenAiSseState.stripCr
  cases hend : l.ending with
  | lf =>
      rw [LineEnd.carry, List.append_nil, if_neg]
      intro hlast
      exact h.unreturned hend (getLast?_of_ascii (by decide) hlast)
  | crlf =>
      rw [LineEnd.carry, if_pos List.getLast?_concat, List.dropLast_concat]

end SpelledLine.Fits

/-! ## Reading -/

namespace OpenAiSseState

variable (serde : SerdeJson) (order : HashMap.IterOrder CallIndex)

/-- What the blank line of an event does to a state between events. -/
def readEvent (st : OpenAiSseState) (event : SseEvent) : SseResult :=
  match event.payload? with
  | none => .ok (st, [])
  | some data =>
      if trim data.toList = "[DONE]".toList then .ok ({ st with sawDone := true }, [])
      else mapDataJson serde order st data

/-- Bytes of a line are put on it, as far as it may be long. -/
theorem run_carry (st : OpenAiSseState) {line : List UInt8} (hnewline : (0x0a : UInt8) ∉ line)
    (hfits : st.lineCarry.length + line.length ≤ st.maxLineBytes) :
    run (pushByte serde order) st line =
      .ok ({ st with lineCarry := st.lineCarry ++ line }, []) := by
  induction line generalizing st with
  | nil => simp [run]
  | cons b line ih =>
      obtain ⟨hb, hline⟩ := not_or.mp (fun h => hnewline (List.mem_cons.mpr h))
      rw [List.length_cons] at hfits
      have hstep : pushByte serde order st b =
          .ok ({ st with lineCarry := st.lineCarry ++ [b] }, []) := by
        rw [pushByte, if_neg (Ne.symm hb), if_neg (by omega)]
      have hlength : (st.lineCarry ++ [b]).length + line.length ≤ st.maxLineBytes := by
        rw [List.length_append, List.length_singleton]
        omega
      have hrest := ih { st with lineCarry := st.lineCarry ++ [b] } hline hlength
      rw [run, hstep, andThen_ok_nil, hrest, List.append_assoc]
      rfl

/-- **A spelled line** adds its payload to the event's. -/
theorem run_spellLine {st : OpenAiSseState} {l : SpelledLine} (hcarry : st.lineCarry = [])
    (hfits : l.Fits st.maxLineBytes) :
    run (pushByte serde order) st l.spell =
      .ok ({ st with eventDataLines := st.eventDataLines ++ l.payload?.toList }, []) := by
  have hnonempty : bytes l.line.text.toList ≠ [] := by
    rw [Ne, bytes_eq_nil, String.toList_eq_nil_iff]
    exact hfits.plain.nonempty
  have hlength : st.lineCarry.length + (bytes l.line.text.toList ++ l.ending.carry).length ≤
      st.maxLineBytes := by
    rw [hcarry, List.length_append, length_bytes, List.length_nil, Nat.zero_add]
    exact hfits.short
  rw [SpelledLine.spell, run_append, run_carry serde order st hfits.newline_notMem hlength, hcarry,
    List.nil_append, andThen_ok_nil, run_singleton, pushByte, if_pos rfl, hfits.stripCr_text,
    handleLine, if_neg hnonempty, fromUTF8?_bytes]
  simp only [hfits.plain.dataPayload_text, SpelledLine.payload?]
  cases l.line.payload? with
  | none => simp [← hcarry]
  | some payload => simp [← hcarry]

/-- The lines of an event, its blank line not yet ended. -/
theorem run_lines {st : OpenAiSseState} {lines : List SpelledLine} (hcarry : st.lineCarry = [])
    (hlines : ∀ l ∈ lines, l.Fits st.maxLineBytes) :
    run (pushByte serde order) st (lines.flatMap SpelledLine.spell) =
      .ok ({ st with
        eventDataLines := st.eventDataLines ++ lines.filterMap SpelledLine.payload? }, []) := by
  induction lines generalizing st with
  | nil => simp [run]
  | cons l lines ih =>
      rw [List.flatMap_cons, run_append,
        run_spellLine serde order hcarry (hlines l List.mem_cons_self), andThen_ok_nil]
      have hrest := @ih { st with eventDataLines := st.eventDataLines ++ l.payload?.toList } hcarry
        (fun l' hl => hlines l' (List.mem_cons_of_mem _ hl))
      rw [hrest]
      cases hp : l.payload? with
      | none => simp [hp]
      | some payload => simp [hp]

/-- A state with nothing pending, between two events. -/
structure Between (maxLineBytes maxEventBytes : Nat) (st : OpenAiSseState) : Prop where
  carry : st.lineCarry = []
  lines : st.eventDataLines = []
  maxLine : st.maxLineBytes = maxLineBytes
  maxEvent : st.maxEventBytes = maxEventBytes

variable {serde order} {maxLineBytes maxEventBytes : Nat}

theorem Between.eventless {st : OpenAiSseState} (h : Between maxLineBytes maxEventBytes st) :
    { st with lineCarry := [], eventDataLines := [] } = st := by
  cases st
  rw [OpenAiSseState.mk.injEq]
  exact ⟨h.carry.symm, h.lines.symm, rfl, rfl, rfl, rfl, rfl, rfl⟩

theorem Between.readEvent {st st' : OpenAiSseState} {event : SseEvent} {out : List AcpFragment}
    (h : Between maxLineBytes maxEventBytes st)
    (hread : readEvent serde order st event = .ok (st', out)) :
    Between maxLineBytes maxEventBytes st' := by
  unfold OpenAiSseState.readEvent at hread
  split at hread
  · cases hread
    exact h
  · split at hread
    · cases hread
      exact ⟨h.carry, h.lines, h.maxLine, h.maxEvent⟩
    · obtain ⟨tools, rfl⟩ := onlyTools_mapDataJson serde order hread
      exact ⟨h.carry, h.lines, h.maxLine, h.maxEvent⟩

/-- All of an event but its last byte. -/
theorem run_body {st : OpenAiSseState} {event : SseEvent}
    (h : Between maxLineBytes maxEventBytes st) (hfits : event.Fits maxLineBytes maxEventBytes) :
    run (pushByte serde order) st (event.lines.flatMap SpelledLine.spell ++ event.last.carry) =
      .ok ({ st with lineCarry := event.last.carry, eventDataLines := event.data }, []) := by
  rw [run_append, run_lines serde order h.carry (by rw [h.maxLine]; exact hfits.lines),
    andThen_ok_nil, run_carry]
  · simp [h.carry, h.lines, SseEvent.data]
  · cases event.last <;> simp [LineEnd.carry]
  · simpa [h.carry, h.maxLine] using hfits.last

/-- **An event is read as what it says.** -/
theorem run_spell {st : OpenAiSseState} {event : SseEvent}
    (h : Between maxLineBytes maxEventBytes st) (hfits : event.Fits maxLineBytes maxEventBytes) :
    run (pushByte serde order) st event.spell = readEvent serde order st event := by
  have hblank : stripCr event.last.carry = [] := by cases event.last <;> rfl
  rw [SseEvent.spell, run_append, run_body h hfits, andThen_ok_nil, run_singleton, pushByte,
    if_pos rfl]
  simp only [hblank, handleLine, if_true, dispatchEvent, readEvent, SseEvent.payload?]
  by_cases hdata : event.data = []
  · simp only [hdata, if_true]
    rw [← h.eventless]
  · rw [if_neg hdata, if_neg hdata, if_neg (by simpa [h.maxEvent] using hfits.payload)]
    simp only [h.eventless, h.carry, h.lines]

theorem Between.run_readEvent {st st' : OpenAiSseState} {events : List SseEvent}
    {out : List AcpFragment} (h : Between maxLineBytes maxEventBytes st)
    (hread : run (OpenAiSseState.readEvent serde order) st events = .ok (st', out)) :
    Between maxLineBytes maxEventBytes st' :=
  run_invariant (P := Between maxLineBytes maxEventBytes) (fun _ _ _ _ hst => hst.readEvent) h hread

/-- The end is not reached inside an event. -/
theorem endsLast_spell {st : OpenAiSseState} {event : SseEvent}
    (h : Between maxLineBytes maxEventBytes st) (hfits : event.Fits maxLineBytes maxEventBytes)
    (hopen : st.sawDone = false) :
    EndsLast (pushByte serde order) sawDone st event.spell :=
  endsLast_snoc (fun _ _ _ _ => sawDone_mono serde order) (run_body h hfits) hopen _

/-- Only the last event may end the stream. -/
theorem sawDone_readEvent {st st' : OpenAiSseState} {event : SseEvent} {out : List AcpFragment}
    (hdone : event.isDone = false) (hread : readEvent serde order st event = .ok (st', out)) :
    st'.sawDone = st.sawDone := by
  unfold readEvent at hread
  split at hread
  · cases hread
    rfl
  · rename_i data hdata
    rw [SseEvent.isDone, hdata] at hdone
    rw [if_neg (by simpa using hdone)] at hread
    obtain ⟨tools, rfl⟩ := onlyTools_mapDataJson serde order hread
    rfl

/-- **A stream is read event by event.** -/
theorem run_spellStream {st : OpenAiSseState} {events : List SseEvent}
    (h : Between maxLineBytes maxEventBytes st)
    (hfits : ∀ event ∈ events, event.Fits maxLineBytes maxEventBytes) :
    run (pushByte serde order) st (spellStream events) = run (readEvent serde order) st events := by
  induction events generalizing st with
  | nil => rfl
  | cons event events ih =>
      rw [spellStream, List.flatMap_cons, run_append, run_spell h (hfits event List.mem_cons_self),
        run]
      cases hread : readEvent serde order st event with
      | error e => rfl
      | ok r =>
          have hrest := ih (h.readEvent hread) (fun e he => hfits e (List.mem_cons_of_mem _ he))
          rw [spellStream] at hrest
          simp only [andThen, hrest]

/-- The state that a cut stream leaves after the events that were read. -/
def afterText (st : OpenAiSseState) (text : SseText) : OpenAiSseState :=
  { st with lineCarry := text.carry
            eventDataLines := text.lines.filterMap SpelledLine.payload? }

/-- **A stream cut anywhere** is read as its events, the rest kept for later. -/
theorem run_text {st : OpenAiSseState} {text : SseText} (h : Between maxLineBytes maxEventBytes st)
    (hfits : text.Fits maxLineBytes maxEventBytes) :
    run (pushByte serde order) st text.spell =
      (run (readEvent serde order) st text.events).map fun r => (r.1.afterText text, r.2) := by
  rw [SseText.spell, List.append_assoc, run_append, run_spellStream h hfits.events]
  cases hread : run (readEvent serde order) st text.events with
  | error e => rfl
  | ok r =>
      have hst : Between maxLineBytes maxEventBytes r.1 := h.run_readEvent hread
      have hlines := run_lines serde order hst.carry (by rw [hst.maxLine]; exact hfits.lines)
      simp only [andThen, run_append, hlines]
      rw [run_carry serde order _ hfits.carry
        (by simpa [hst.carry, hst.maxLine] using hfits.short)]
      simp [afterText, hst.carry, hst.lines, Except.map]

/-- The end of a line that is not blank, and what came before it. -/
theorem exists_line {carry : List UInt8} {text : String} (hcarry : (0x0a : UInt8) ∉ carry)
    (hshort : carry.length ≤ maxLineBytes) (hline : stripCr carry ≠ [])
    (htext : String.fromUTF8? ⟨(stripCr carry).toArray⟩ = some text) :
    ∃ l : SpelledLine, l.Fits maxLineBytes ∧ l.line.text = text ∧
      l.spell = carry ++ [0x0a] := by
  have hbytes : bytes text.toList = stripCr carry := bytes_of_fromUTF8? htext
  have hne : text ≠ "" := by
    rintro rfl
    exact hline hbytes.symm
  have hone : ∀ {tail : List UInt8}, carry = bytes text.toList ++ tail → '\n' ∉ text.toList := by
    rintro tail rfl hmem
    refine hcarry (List.mem_append_left _ (List.mem_flatMap.mpr ⟨'\n', hmem, ?_⟩))
    decide
  by_cases hcr : carry.getLast? = some 0x0d
  · obtain ⟨front, hfront⟩ := List.getLast?_eq_some_iff.mp hcr
    have hsplit : carry = bytes text.toList ++ [0x0d] := by
      rw [hbytes, stripCr, if_pos hcr, hfront, List.dropLast_concat]
    refine ⟨⟨.ofText text, .crlf⟩, ?_, SseLine.text_ofText text, ?_⟩
    · refine ⟨SseLine.plain_ofText hne, ?_, fun hlf => LineEnd.noConfusion hlf, ?_⟩
      · rw [SseLine.text_ofText]
        exact hone hsplit
      · have hlength := congrArg List.length hsplit
        rw [List.length_append, length_bytes] at hlength
        rw [SseLine.text_ofText]
        exact hlength ▸ hshort
    · rw [SpelledLine.spell, SseLine.text_ofText, hsplit]
      rfl
  · have hsplit : carry = bytes text.toList := by rw [hbytes, stripCr, if_neg hcr]
    refine ⟨⟨.ofText text, .lf⟩, ?_, SseLine.text_ofText text, ?_⟩
    · refine ⟨SseLine.plain_ofText hne, ?_, ?_, ?_⟩
      · rw [SseLine.text_ofText]
        exact hone (hsplit.trans (List.append_nil _).symm)
      · intro _ hlast
        rw [SseLine.text_ofText] at hlast
        rw [hsplit] at hcr
        exact hcr (getLast?_bytes hlast (by decide))
      · rw [SseLine.text_ofText, ← length_bytes, ← hsplit]
        exact hshort
    · rw [SpelledLine.spell, SseLine.text_ofText, ← hsplit]
      exact congrArg (· ++ [0x0a]) (List.append_nil carry)

/-- **What a newline takes**: a blank line after data that is not too long, or a line
of UTF-8. -/
theorem newline_cases {st st' : OpenAiSseState} {out : List AcpFragment}
    (h : pushByte serde order st 0x0a = .ok (st', out)) :
    (stripCr st.lineCarry = [] ∧ (st.eventDataLines ≠ [] →
      ("\n".intercalate st.eventDataLines).utf8ByteSize ≤ st.maxEventBytes)) ∨
    (stripCr st.lineCarry ≠ [] ∧
      ∃ text, String.fromUTF8? ⟨(stripCr st.lineCarry).toArray⟩ = some text) := by
  rw [pushByte, if_pos rfl, handleLine] at h
  by_cases hblank : stripCr st.lineCarry = []
  · refine .inl ⟨hblank, fun hdata => ?_⟩
    rw [if_pos hblank, dispatchEvent, if_neg hdata] at h
    simp only at h
    split at h
    · cases h
    · rename_i hshort
      exact Nat.not_lt.mp hshort
  · refine .inr ⟨hblank, ?_⟩
    rw [if_neg hblank] at h
    cases htext : String.fromUTF8? ⟨(stripCr st.lineCarry).toArray⟩ with
    | none =>
        rw [htext] at h
        cases h
    | some text => exact ⟨text, rfl⟩

theorem lineEnd_of_blank {carry : List UInt8} (h : stripCr carry = []) :
    ∃ last : LineEnd, carry = last.carry := by
  unfold stripCr at h
  split at h
  · rename_i hcr
    obtain ⟨front, hfront⟩ := List.getLast?_eq_some_iff.mp hcr
    rw [hfront, List.dropLast_concat] at h
    exact ⟨.crlf, by rw [hfront, h]; rfl⟩
  · exact ⟨.lf, h⟩

/-- One more byte of a text. -/
theorem exists_text_step {st st' : OpenAiSseState} {text : SseText} {b : UInt8}
    {out : List AcpFragment} (hfits : text.Fits maxLineBytes maxEventBytes)
    (hst : Between maxLineBytes maxEventBytes st)
    (hstep : pushByte serde order (st.afterText text) b = .ok (st', out)) :
    ∃ text' : SseText, text'.Fits maxLineBytes maxEventBytes ∧ text.spell ++ [b] = text'.spell := by
  by_cases hb : b = 0x0a
  · subst hb
    rcases newline_cases hstep with ⟨hblank, hshort⟩ | ⟨hline, line, hutf8⟩
    · -- a blank line: the event is whole
      obtain ⟨last, hcarry⟩ : ∃ last : LineEnd, text.carry = last.carry := lineEnd_of_blank hblank
      have hevent : SseEvent.Fits maxLineBytes maxEventBytes ⟨text.lines, last⟩ := by
        refine ⟨hfits.lines, by rw [← hcarry]; exact hfits.short, ?_⟩
        by_cases hdata : text.lines.filterMap SpelledLine.payload? = []
        · rw [SseEvent.data, hdata]
          exact Nat.zero_le _
        · exact hst.maxEvent ▸ hshort hdata
      refine ⟨⟨text.events ++ [⟨text.lines, last⟩], [], []⟩, ⟨?_, by simp, by simp, by simp⟩, ?_⟩
      · intro event hmem
        rcases List.mem_append.mp hmem with hmem | hmem
        · exact hfits.events event hmem
        · obtain rfl := List.mem_singleton.mp hmem
          exact hevent
      · simp [SseText.spell, spellStream, SseEvent.spell, hcarry]
    · obtain ⟨l, hl, -, hspell⟩ := exists_line hfits.carry hfits.short hline hutf8
      refine ⟨⟨text.events, text.lines ++ [l], []⟩, ⟨hfits.events, ?_, by simp, by simp⟩, ?_⟩
      · intro l' hmem
        rcases List.mem_append.mp hmem with hmem | hmem
        · exact hfits.lines l' hmem
        · obtain rfl := List.mem_singleton.mp hmem
          exact hl
      · simp [SseText.spell, hspell]
  · rw [pushByte, if_neg hb] at hstep
    split at hstep
    · cases hstep
    · rename_i hlength
      have hshort : text.carry.length < maxLineBytes := hst.maxLine ▸ Nat.not_le.mp hlength
      refine ⟨⟨text.events, text.lines, text.carry ++ [b]⟩, ⟨hfits.events, hfits.lines, ?_, ?_⟩, ?_⟩
      · intro hmem
        rcases List.mem_append.mp hmem with hmem | hmem
        · exact hfits.carry hmem
        · exact hb (List.mem_singleton.mp hmem).symm
      · rw [List.length_append, List.length_singleton]
        exact hshort
      · simp [SseText.spell]

/-- **Every stream that goes through is a text of the grammar.** -/
theorem exists_text {st st' : OpenAiSseState} {stream : List UInt8} {out : List AcpFragment}
    (h : Between maxLineBytes maxEventBytes st)
    (hrun : run (pushByte serde order) st stream = .ok (st', out)) :
    ∃ text : SseText, text.Fits maxLineBytes maxEventBytes ∧ stream = text.spell := by
  induction stream using List.reverseRecOn generalizing st' out with
  | nil => exact ⟨⟨[], [], []⟩, ⟨by simp, by simp, by simp, by simp⟩, rfl⟩
  | append_singleton stream b ih =>
      rw [run_append] at hrun
      obtain ⟨st₁, out₁, out₂, hlead, hlast, -⟩ := andThen_eq_ok hrun
      obtain ⟨text, hfits, rfl⟩ := ih hlead
      -- the state so far is that of the text so far
      rw [run_text h hfits] at hlead
      cases hread : run (readEvent serde order) st text.events with
      | error e =>
          rw [hread] at hlead
          cases hlead
      | ok r =>
          rw [hread] at hlead
          cases hlead
          rw [run_singleton] at hlast
          exact exists_text_step hfits (h.run_readEvent hread) hlast

theorem endsLast_spellStream {st : OpenAiSseState} {events : List SseEvent} {done : SseEvent}
    (h : Between maxLineBytes maxEventBytes st) (hopen : st.sawDone = false)
    (hfits : ∀ event ∈ events ++ [done], event.Fits maxLineBytes maxEventBytes)
    (hmid : ∀ event ∈ events, event.isDone = false) :
    EndsLast (pushByte serde order) sawDone st (spellStream (events ++ [done])) := by
  induction events generalizing st with
  | nil =>
      have hone : spellStream ([] ++ [done]) = done.spell := List.flatMap_singleton ..
      rw [hone]
      exact endsLast_spell h (hfits done (by simp)) hopen
  | cons event events ih =>
      have hevent := hfits event (by simp)
      have hcons : spellStream (event :: events ++ [done]) =
          event.spell ++ spellStream (events ++ [done]) := List.flatMap_cons
      rw [hcons]
      refine (endsLast_spell h hevent hopen).append (fun t out hrun => ?_)
      rw [run_spell h hevent] at hrun
      have ht : t.sawDone = false :=
        (sawDone_readEvent (hmid event List.mem_cons_self) hrun).trans hopen
      exact ⟨ht, ih (h.readEvent hrun) ht (fun e he => hfits e (List.mem_cons_of_mem _ he))
        (fun e he => hmid e (List.mem_cons_of_mem _ he))⟩

/-- What the events before the last say is read as JSON. -/
theorem run_readEvent {st : OpenAiSseState} {events : List SseEvent}
    (hmid : ∀ event ∈ events, event.isDone = false) :
    run (readEvent serde order) st events =
      run (mapDataJson serde order) st (events.filterMap SseEvent.payload?) := by
  induction events generalizing st with
  | nil => rfl
  | cons event events ih =>
      have hrest : ∀ st, run (readEvent serde order) st events =
          run (mapDataJson serde order) st (events.filterMap SseEvent.payload?) :=
        fun st => ih (fun e he => hmid e (List.mem_cons_of_mem _ he))
      have hevent := hmid event List.mem_cons_self
      rw [run, readEvent]
      cases hdata : event.payload? with
      | none =>
          rw [List.filterMap_cons_none hdata, andThen_ok_nil]
          exact hrest st
      | some data =>
          rw [SseEvent.isDone, hdata] at hevent
          simp only [if_neg (show ¬ trim data.toList = "[DONE]".toList by simpa using hevent)]
          rw [List.filterMap_cons_some hdata, run, funext hrest]

theorem readEvent_done {st : OpenAiSseState} {done : SseEvent} (hdone : done.isDone = true) :
    readEvent serde order st done = .ok ({ st with sawDone := true }, []) := by
  unfold readEvent
  cases hdata : done.payload? with
  | none =>
      rw [SseEvent.isDone, hdata] at hdone
      cases hdone
  | some data =>
      rw [SseEvent.isDone, hdata] at hdone
      exact if_pos (by simpa using hdone)

/-- The payloads, then the end. -/
theorem run_spelled {st : OpenAiSseState} {events : List SseEvent} {done : SseEvent}
    (h : Between maxLineBytes maxEventBytes st)
    (hfits : ∀ event ∈ events ++ [done], event.Fits maxLineBytes maxEventBytes)
    (hmid : ∀ event ∈ events, event.isDone = false) (hdone : done.isDone = true) :
    run (pushByte serde order) st (spellStream (events ++ [done])) =
      andThen (run (mapDataJson serde order) st (events.filterMap SseEvent.payload?))
        (fun st' => .ok ({ st' with sawDone := true }, [])) := by
  rw [run_spellStream h hfits, run_append, run_readEvent hmid]
  congr 1
  funext st'
  rw [run_singleton, readEvent_done hdone]

theorem between_new (maxLineBytes maxEventBytes maxToolArgBytes : Nat) :
    Between (max maxLineBytes 64) (max maxEventBytes 64)
      (new maxLineBytes maxEventBytes maxToolArgBytes) := ⟨rfl, rfl, rfl, rfl⟩

/-! ### A spelled answer -/

def helloText : String :=
  "\x7b\"choices\":[\x7b\"index\":0,\"delta\":\x7b\"content\":\"Hi there.\"\x7d\x7d]\x7d"

def helloJson : Json :=
  .object [("choices", .array [.object [("index", .number (.posInt 0)),
    ("delta", .object [("content", .string "Hi there.")])]])]

def helloSerde : SerdeJson where
  fromSlice _ := .error ""
  fromStr text := if text = helloText then some helloJson else none
  toString _ := ""

/-- A comment, and the data with a space and CRLF. -/
def helloEvent : SseEvent := ⟨[⟨.ignored ": ping", .lf⟩, ⟨.data true helloText, .crlf⟩], .crlf⟩

def doneEvent : SseEvent := ⟨[⟨.data false "[DONE]", .lf⟩], .lf⟩

/-- Cut in the middle of a line. -/
def helloChunks : List (List UInt8) :=
  [(spellStream [helloEvent, doneEvent]).take 20, (spellStream [helloEvent, doneEvent]).drop 20]

theorem hello_fits : ∀ event ∈ [helloEvent] ++ [doneEvent], event.Fits 1000 1000 := by
  have hping : SpelledLine.Fits 1000 ⟨.ignored ": ping", .lf⟩ := by
    refine ⟨⟨by decide, ?_, ?_⟩, by decide, fun _ => by decide, by decide +kernel⟩
    · intro _ h
      cases h
    · intro _ h
      cases h
      decide
  have hdata : SpelledLine.Fits 1000 ⟨.data true helloText, .crlf⟩ := by
    refine ⟨⟨by decide, ?_, ?_⟩, by decide +kernel, fun h => LineEnd.noConfusion h, by decide +kernel⟩
    · intro _ h
      cases h
    · intro _ h
      cases h
  have hdone : SpelledLine.Fits 1000 ⟨.data false "[DONE]", .lf⟩ := by
    refine ⟨⟨by decide, ?_, ?_⟩, by decide, fun _ => by decide, by decide +kernel⟩
    · intro _ h
      cases h
      decide
    · intro _ h
      cases h
  intro event hevent
  simp only [List.cons_append, List.nil_append, List.mem_cons, List.not_mem_nil, or_false] at hevent
  rcases hevent with rfl | rfl
  · refine ⟨?_, by decide, by decide +kernel⟩
    intro l hl
    simp only [helloEvent, List.mem_cons, List.not_mem_nil, or_false] at hl
    rcases hl with rfl | rfl
    · exact hping
    · exact hdata
  · refine ⟨?_, by decide, by decide +kernel⟩
    intro l hl
    simp only [doneEvent, List.mem_cons, List.not_mem_nil, or_false] at hl
    rw [hl]
    exact hdone

/-- With nothing pending after `[DONE]`, the clean end goes through. -/
theorem sealClean_done {st : OpenAiSseState} (h : Between maxLineBytes maxEventBytes st)
    (hdone : st.sawDone = true) :
    sealClean serde order st = .ok (st, (order.keys st.tools).filterMap (sealedCall st)) := by
  unfold sealClean
  rw [if_pos h.carry]
  simp [h.lines, hdone]

variable (serde order)

/-- **The accepted language.** The bytes that go through are exactly those of the
grammar whose events can be read: whole events, then lines of the next one, then part of a
line; and what they give out, and leave behind, is what the events say. -/
theorem accepted_iff (maxLineBytes maxEventBytes maxToolArgBytes : Nat) (stream : List UInt8)
    (st' : OpenAiSseState) (out : List AcpFragment) :
    let st := new maxLineBytes maxEventBytes maxToolArgBytes
    pushBytes serde order st stream = .ok (st', out) ↔
      ∃ text : SseText, text.Fits (max maxLineBytes 64) (max maxEventBytes 64) ∧
        stream = text.spell ∧
        ∃ read, run (readEvent serde order) st text.events = .ok (read, out) ∧
          st' = read.afterText text := by
  intro st
  have hst : Between (max maxLineBytes 64) (max maxEventBytes 64) st := between_new _ _ _
  have hpush : pushBytes serde order st stream = run (pushByte serde order) st stream := rfl
  rw [hpush]
  constructor
  · intro hrun
    obtain ⟨text, hfits, rfl⟩ := exists_text hst hrun
    rw [run_text hst hfits] at hrun
    cases hread : run (readEvent serde order) st text.events with
    | error e =>
        rw [hread] at hrun
        cases hrun
    | ok r =>
        rw [hread] at hrun
        cases hrun
        exact ⟨text, hfits, rfl, r.1, hread, rfl⟩
  · rintro ⟨text, hfits, rfl, read, hread, rfl⟩
    rw [run_text hst hfits, hread]
    rfl

/-- **A spelled stream is decoded as what its events say**, wherever its bytes are cut: it
ends as its payloads do, read one after the other; when they all can be read, the
fragments are theirs and the clean end goes through. -/
theorem spelled_decoded (maxLineBytes maxEventBytes maxToolArgBytes : Nat)
    (events : List SseEvent) (done : SseEvent) (chunks : List (List UInt8))
    (hfits : ∀ event ∈ events ++ [done],
      event.Fits (max maxLineBytes 64) (max maxEventBytes 64))
    (hmid : ∀ event ∈ events, event.isDone = false) (hdone : done.isDone = true)
    (hcut : chunks.flatten = spellStream (events ++ [done])) :
    let st := new maxLineBytes maxEventBytes maxToolArgBytes
    let said := run (mapDataJson serde order) st (events.filterMap SseEvent.payload?)
    let decoded := decode serde order st chunks
    decoded.2 = said.map (fun r => { r.1 with sawDone := true }) ∧
      ∀ st' out, said = .ok (st', out) → decoded.1 = out ∧
        ∃ frags, sealClean serde order { st' with sawDone := true } =
          .ok ({ st' with sawDone := true }, frags) := by
  intro st said decoded
  have hst : Between (max maxLineBytes 64) (max maxEventBytes 64) st := between_new _ _ _
  have hrun : run (pushByte serde order) st chunks.flatten =
      andThen said (fun st' => .ok ({ st' with sawDone := true }, [])) := by
    rw [hcut]
    exact run_spelled hst hfits hmid hdone
  have hends : EndsLast (pushByte serde order) sawDone st chunks.flatten := by
    rw [hcut]
    exact endsLast_spellStream hst rfl hfits hmid
  have hdecoded : decoded = feed (pushByte serde order) sawDone st chunks :=
    decode_eq_feed serde order st chunks
  rw [hdecoded]
  constructor
  · rw [hends.feed_snd, hrun]
    cases said with
    | error e => rfl
    | ok r => rfl
  · intro st' out hsaid
    rw [hsaid] at hrun
    have hok : run (pushByte serde order) st chunks.flatten =
        .ok ({ st' with sawDone := true }, out) := by
      rw [hrun]
      simp [andThen]
    refine ⟨by rw [hends.feed_ok hok], ?_⟩
    have hbetween : Between (max maxLineBytes 64) (max maxEventBytes 64) st' :=
      run_invariant (P := Between (max maxLineBytes 64) (max maxEventBytes 64))
        (fun t data t' out ht hmap => by
          obtain ⟨tools, rfl⟩ := onlyTools_mapDataJson serde order hmap
          exact ⟨ht.carry, ht.lines, ht.maxLine, ht.maxEvent⟩) hst hsaid
    have hend : Between (max maxLineBytes 64) (max maxEventBytes 64)
        { st' with sawDone := true } :=
      ⟨hbetween.carry, hbetween.lines, hbetween.maxLine, hbetween.maxEvent⟩
    exact ⟨_, sealClean_done hend rfl⟩

/-- An answer whose bytes are cut inside the data. -/
theorem spelled_decoded_hello :
    let order : HashMap.IterOrder CallIndex := ⟨id, fun _ => .refl _⟩
    let st := new 1000 1000 1000
    let said := run (mapDataJson helloSerde order) st ([helloEvent].filterMap SseEvent.payload?)
    let decoded := decode helloSerde order st helloChunks
    decoded.2 = said.map (fun r => { r.1 with sawDone := true }) ∧
      ∀ st' out, said = .ok (st', out) → decoded.1 = out ∧
        ∃ frags, sealClean helloSerde order { st' with sawDone := true } =
          .ok ({ st' with sawDone := true }, frags) :=
  spelled_decoded helloSerde ⟨id, fun _ => .refl _⟩ 1000 1000 1000 [helloEvent] doneEvent helloChunks
    hello_fits (by decide +kernel) (by decide +kernel)
    (by rw [helloChunks]; simp [List.take_append_drop])

end OpenAiSseState

end Monoloop.Interpreter
