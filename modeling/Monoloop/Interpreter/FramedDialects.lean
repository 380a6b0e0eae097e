import Monoloop.Lib.LimitedFraming
import Monoloop.Interpreter.EngineRun

/-!
# Dialects that are framed by the owner

The ACP family and the newline-delimited dialects keep their bytes in the
owner's buffer and take frames off it: JSON values and the white space between
them, or lines. Decoding chunks is feeding a framer with a bound on its buffer
(`decodeAll_framed`).
-/

namespace Monoloop.Interpreter

open Framing Utf8

/-- The dialects with a frame buffer of JSON values or lines. -/
inductive FramedDialect where
  | acp
  | grokBuild
  | cursorAcp
  | agyAcp
  | codexAcp
  | zaiCli
  | claudeCode
  deriving DecidableEq

def FramedDialect.family : FramedDialect → DialectFamily
  | .acp => .acp
  | .grokBuild => .grokBuild
  | .cursorAcp => .cursorAcp
  | .agyAcp => .agyAcp
  | .codexAcp => .codexAcp
  | .zaiCli => .zaiCli
  | .claudeCode => .claudeCode

/-! ## JSON values -/

/-- A byte of white space, or the next value. -/
def nextValue (buf : List UInt8) : Option (Option (List UInt8) × List UInt8) :=
  match buf with
  | [] => none
  | b :: rest =>
      if isAsciiWhitespace b then some (none, rest)
      else (findCompleteJsonEnd (b :: rest)).map fun e =>
        (some ((b :: rest).take e), (b :: rest).drop e)

theorem nextValue_cases {buf r : List UInt8} {f : Option (List UInt8)}
    (h : nextValue buf = some (f, r)) :
    (∃ b, isAsciiWhitespace b = true ∧ buf = b :: r ∧ f = none) ∨
      ∃ e, skipWhitespace buf = buf ∧ findCompleteJsonEnd buf = some e ∧ f = some (buf.take e) ∧
        r = buf.drop e := by
  cases buf with
  | nil => cases h
  | cons b rest =>
      simp only [nextValue] at h
      split at h
      · rename_i hb
        cases h
        exact .inl ⟨b, hb, rfl, rfl⟩
      · rename_i hb
        obtain ⟨e, he, hfr⟩ := Option.map_eq_some_iff.mp h
        obtain ⟨rfl, rfl⟩ := Prod.mk.inj hfr
        exact .inr ⟨e, List.dropWhile_cons_of_neg hb, he, rfl, rfl⟩

theorem nextValue_none {buf : List UInt8} (h : nextValue buf = none) :
    skipWhitespace buf = buf ∧ findCompleteJsonEnd buf = none := by
  cases buf with
  | nil => exact ⟨rfl, rfl⟩
  | cons b rest =>
      simp only [nextValue] at h
      split at h
      · cases h
      · rename_i hb
        exact ⟨List.dropWhile_cons_of_neg hb, Option.map_eq_none_iff.mp h⟩

theorem nextValue_append {b r : List UInt8} {f : Option (List UInt8)}
    (h : nextValue b = some (f, r)) (c : List UInt8) : nextValue (b ++ c) = some (f, r ++ c) := by
  cases b with
  | nil => cases h
  | cons x rest =>
      simp only [nextValue, List.cons_append] at h ⊢
      split at h
      · rename_i hx
        cases h
        rw [if_pos hx]
      · rename_i hx
        obtain ⟨e, he, hfr⟩ := Option.map_eq_some_iff.mp h
        obtain ⟨rfl, rfl⟩ := Prod.mk.inj hfr
        have hle := findCompleteJsonEnd_le he
        rw [if_neg hx, ← List.cons_append, findCompleteJsonEnd_append he, Option.map_some,
          List.take_append_of_le_length hle.2, List.drop_append_of_le_length hle.2]

/-- Values and the white space between them. -/
def valueFramer : Framer UInt8 (Option (List UInt8)) where
  next := nextValue
  shrink := by
    intro b f r h
    rcases nextValue_cases h with ⟨x, -, rfl, -⟩ | ⟨e, -, he, -, rfl⟩
    · exact Nat.lt_succ_self _
    · have hle := findCompleteJsonEnd_le he
      rw [List.length_drop]
      omega
  stable := fun h c => nextValue_append h c

/-- An end inside the first bytes is found there. -/
theorem findBracketEnd_of_append {s : JsonScan} {i e : Nat} {bs c : List UInt8}
    (h : findBracketEnd s i (bs ++ c) = some e) (he : e ≤ i + bs.length) :
    findBracketEnd s i bs = some e := by
  induction bs generalizing s i with
  | nil =>
      have hlt := (findBracketEnd_le h).1
      simp only [List.length_nil, Nat.add_zero] at he
      omega
  | cons b rest ih =>
      simp only [List.cons_append, findBracketEnd] at h ⊢
      have hle : e ≤ i + 1 + rest.length := by
        simp only [List.length_cons] at he
        omega
      split_ifs at h ⊢
      all_goals first | exact ih h hle | exact h

theorem findIdx?_concat {b : List UInt8} {x : UInt8} {i : Nat}
    (hb : b.findIdx? (· = 0x0a) = none) (h : (b ++ [x]).findIdx? (· = 0x0a) = some i) :
    i = b.length := by
  rw [List.findIdx?_append, hb, Option.none_or] at h
  obtain ⟨j, hj, rfl⟩ := Option.map_eq_some_iff.mp h
  have hlt := (List.findIdx?_eq_some_iff_getElem.mp hj).1
  rw [List.length_singleton] at hlt
  omega

theorem findCompleteJsonEnd_concat {b : List UInt8} {x : UInt8} {e : Nat} (hne : b ≠ [])
    (hb : findCompleteJsonEnd b = none) (h : findCompleteJsonEnd (b ++ [x]) = some e) :
    e = (b ++ [x]).length := by
  have hle := (findCompleteJsonEnd_le h).2
  cases b with
  | nil => exact absurd rfl hne
  | cons first rest =>
      simp only [List.cons_append, findCompleteJsonEnd] at h hb
      split at h
      · rename_i hline
        rw [if_pos hline] at hb
        obtain ⟨i, hi, rfl⟩ := Option.map_eq_some_iff.mp h
        have hlast := findIdx?_concat (Option.map_eq_none_iff.mp hb) hi
        rw [hlast, List.length_append, List.length_singleton]
      · rename_i hbracket
        rw [if_neg hbracket] at hb
        rw [List.length_append, List.length_singleton] at hle ⊢
        apply Nat.le_antisymm hle
        apply Nat.le_of_not_lt
        intro hlt
        rw [@findBracketEnd_of_append _ _ _ (first :: rest) _ h (by omega)] at hb
        cases hb

/-- The bytes of a value end where it ends. -/
theorem findCompleteJsonEnd_take {b : List UInt8} {e : Nat}
    (h : findCompleteJsonEnd b = some e) : findCompleteJsonEnd (b.take e) = some e := by
  have hle := findCompleteJsonEnd_le h
  have hsplit := List.take_append_drop e b
  have hlen : (b.take e).length = e := by
    rw [List.length_take]
    omega
  cases htake : b.take e with
  | nil =>
      rw [htake, List.length_nil] at hlen
      omega
  | cons first rest =>
      rw [htake] at hsplit hlen
      rw [← hsplit, List.cons_append] at h
      simp only [findCompleteJsonEnd] at h ⊢
      rw [← List.cons_append] at h
      split at h
      · rename_i hline
        rw [if_pos hline]
        obtain ⟨i, hi, rfl⟩ := Option.map_eq_some_iff.mp h
        rw [List.findIdx?_append] at hi
        cases hin : (first :: rest).findIdx? (· = 0x0a) with
        | some j =>
            rw [hin] at hi
            exact congrArg (Option.map (· + 1)) hi
        | none =>
            rw [hin, Option.none_or] at hi
            obtain ⟨j, -, hj⟩ := Option.map_eq_some_iff.mp hi
            omega
      · rename_i hbracket
        rw [if_neg hbracket]
        exact findBracketEnd_of_append h (by omega)

theorem prompt_valueFramer : Framer.Prompt valueFramer := by
  intro b x f r hb h
  have hnone : nextValue b = none := hb
  rcases nextValue_cases h with ⟨y, hy, heq, -⟩ | ⟨e, -, he, -, rfl⟩
  · -- white space is taken at once, so it is the only byte
    cases b with
    | nil =>
        obtain ⟨-, hr⟩ := List.cons.inj heq
        exact hr.symm
    | cons z rest =>
        obtain ⟨rfl, -⟩ := List.cons.inj heq
        have hskip := (nextValue_none hnone).1
        rw [skipWhitespace, List.dropWhile_cons_of_pos hy] at hskip
        have hlen := congrArg List.length hskip
        have hle := (List.dropWhile_sublist isAsciiWhitespace (l := rest)).length_le
        rw [List.length_cons] at hlen
        omega
  · cases b with
    | nil =>
        have hle := findCompleteJsonEnd_le he
        exact List.drop_eq_nil_of_le hle.1
    | cons z rest =>
        rw [findCompleteJsonEnd_concat (by simp) (nextValue_none hnone).2 he]
        exact List.drop_length

/-- The framer of the values alone, with the white space skipped. -/
theorem drain_valueFramer (buf : List UInt8) :
    (valueFramer.drain buf).1.filterMap id = (jsonFramer.drain buf).1 ∧
      (valueFramer.drain buf).2 = skipWhitespace (jsonFramer.drain buf).2 := by
  induction buf using valueFramer.drain_induction with
  | none b h =>
      obtain ⟨hskip, hend⟩ := nextValue_none h
      have hnone : jsonFramer.next b = none := by
        show nextJson b = none
        rw [nextJson, hskip, hend]
        rfl
      rw [Framer.drain_none h, Framer.drain_none hnone]
      exact ⟨rfl, hskip.symm⟩
  | some b f r h ih =>
      rw [Framer.drain_some h]
      rcases nextValue_cases h with ⟨x, hx, rfl, rfl⟩ | ⟨e, hskip, he, rfl, rfl⟩
      · have hsame : skipWhitespace (x :: r) = skipWhitespace r := List.dropWhile_cons_of_pos hx
        obtain ⟨hframes, hleft⟩ := drain_congr hsame
        rw [hframes, hleft]
        exact ih
      · have hsome : jsonFramer.next b = some (b.take e, b.drop e) := by
          show nextJson b = _
          rw [nextJson, hskip, he]
          rfl
        rw [Framer.drain_some hsome]
        exact ⟨congrArg (b.take e :: ·) ih.1, ih.2⟩

/-! ## Lines -/

/-- The next line, with its newline. -/
def nextLine (buf : List UInt8) : Option (Option (List UInt8) × List UInt8) :=
  (buf.findIdx? (· = 0x0a)).map fun pos => (some (buf.take (pos + 1)), buf.drop (pos + 1))

def lineFramer : Framer UInt8 (Option (List UInt8)) where
  next := nextLine
  shrink := by
    intro b f r h
    obtain ⟨pos, hpos, hfr⟩ := Option.map_eq_some_iff.mp h
    obtain ⟨-, rfl⟩ := Prod.mk.inj hfr
    have hlt := (List.findIdx?_eq_some_iff_getElem.mp hpos).1
    rw [List.length_drop]
    omega
  stable := by
    intro b f r h c
    obtain ⟨pos, hpos, hfr⟩ := Option.map_eq_some_iff.mp h
    obtain ⟨rfl, rfl⟩ := Prod.mk.inj hfr
    have hlt := (List.findIdx?_eq_some_iff_getElem.mp hpos).1
    rw [nextLine, List.findIdx?_append, hpos, Option.some_or, Option.map_some,
      List.take_append_of_le_length (by omega), List.drop_append_of_le_length (by omega)]

theorem prompt_lineFramer : Framer.Prompt lineFramer := by
  intro b x f r hb h
  obtain ⟨pos, hpos, hfr⟩ := Option.map_eq_some_iff.mp h
  obtain ⟨-, rfl⟩ := Prod.mk.inj hfr
  rw [findIdx?_concat (Option.map_eq_none_iff.mp hb) hpos]
  exact List.drop_eq_nil_of_le (by simp)

theorem drainLinesLoop_eq {fuel : Nat} {buf : List UInt8} (hfuel : buf.length < fuel) :
    drainLinesLoop fuel buf = ((lineFramer.drain buf).1.filterMap id, (lineFramer.drain buf).2) := by
  induction fuel generalizing buf with
  | zero => omega
  | succ fuel ih =>
      cases hpos : buf.findIdx? (· = 0x0a) with
      | none =>
          have hnone : lineFramer.next buf = none := by
            show nextLine buf = none
            rw [nextLine, hpos]
            rfl
          rw [Framer.drain_none hnone]
          simp only [drainLinesLoop, hpos]
          rfl
      | some pos =>
          have hsome : lineFramer.next buf = some (some (buf.take (pos + 1)), buf.drop (pos + 1)) := by
            show nextLine buf = _
            rw [nextLine, hpos]
            rfl
          have hlt := lineFramer.shrink hsome
          rw [Framer.drain_some hsome]
          simp only [drainLinesLoop, hpos]
          rw [ih (by omega)]
          rfl

/-! ## Reading frames -/

namespace FramedDialect

def framer : FramedDialect → Framer UInt8 (Option (List UInt8))
  | .zaiCli | .claudeCode => lineFramer
  | _ => valueFramer

theorem prompt_framer (dialect : FramedDialect) : Framer.Prompt dialect.framer := by
  cases dialect with
  | zaiCli => exact prompt_lineFramer
  | claudeCode => exact prompt_lineFramer
  | acp => exact prompt_valueFramer
  | grokBuild => exact prompt_valueFramer
  | cursorAcp => exact prompt_valueFramer
  | agyAcp => exact prompt_valueFramer
  | codexAcp => exact prompt_valueFramer

end FramedDialect

section Read

variable (serde : SerdeJson)

/-- A value's operations, or what kind of error it is. -/
def readValue : Option (List UInt8) → Except InterpreterErrorKind (List EngineOp)
  | none => .ok []
  | some slice =>
      match serde.fromSlice slice with
      | .error _ => .error .malformedFrame
      | .ok value => .ok (frameOps (AcpDialect.mapMessage serde value))

/-- A line's operations, if it may be a message. -/
def readLine (mapLine : List Char → List AcpFragment) :
    Option (List UInt8) → Except InterpreterErrorKind (List EngineOp)
  | none => .ok []
  | some line =>
      match messageLine (fromUtf8Lossy line) with
      | none => .ok []
      | some text => .ok (frameOps (mapLine text))

def FramedDialect.read : FramedDialect → Option (List UInt8) →
    Except InterpreterErrorKind (List EngineOp)
  | .zaiCli => readLine (ZaiChat.mapChatMessageLine serde)
  | .claudeCode => readLine (ClaudeStream.mapStreamLine serde)
  | _ => readValue serde

/-- A frame says nothing or starts the response. -/
theorem FramedDialect.read_startResponse (dialect : FramedDialect) {f : Option (List UInt8)}
    {ops : List EngineOp} (h : dialect.read serde f = .ok ops) :
    ops = [] ∨ ∃ rest, ops = .startResponse :: rest := by
  have hline : ∀ mapLine, readLine mapLine f = .ok ops →
      ops = [] ∨ ∃ rest, ops = .startResponse :: rest := by
    intro mapLine h
    unfold readLine at h
    split at h
    · cases h
      exact .inl rfl
    · split at h
      · cases h
        exact .inl rfl
      · cases h
        exact .inr ⟨_, rfl⟩
  have hvalue : readValue serde f = .ok ops → ops = [] ∨ ∃ rest, ops = .startResponse :: rest := by
    intro h
    unfold readValue at h
    split at h
    · cases h
      exact .inl rfl
    · split at h
      · cases h
      · cases h
        exact .inr ⟨_, rfl⟩
  cases dialect with
  | zaiCli => exact hline _ h
  | claudeCode => exact hline _ h
  | acp => exact hvalue h
  | grokBuild => exact hvalue h
  | cursorAcp => exact hvalue h
  | agyAcp => exact hvalue h
  | codexAcp => exact hvalue h

theorem FramedDialect.read_error (dialect : FramedDialect) {f : Option (List UInt8)}
    {kind : InterpreterErrorKind} (h : dialect.read serde f = .error kind) :
    kind = .malformedFrame := by
  have hline : ∀ mapLine, readLine mapLine f ≠ .error kind := by
    intro mapLine h
    unfold readLine at h
    split at h
    · cases h
    · split at h <;> cases h
  have hvalue : readValue serde f = .error kind → kind = .malformedFrame := by
    intro h
    unfold readValue at h
    split at h
    · cases h
    · split at h
      · cases h
        rfl
      · cases h
  cases dialect with
  | zaiCli => exact absurd h (hline _)
  | claudeCode => exact absurd h (hline _)
  | acp => exact hvalue h
  | grokBuild => exact hvalue h
  | cursorAcp => exact hvalue h
  | agyAcp => exact hvalue h
  | codexAcp => exact hvalue h

/-- The values of a drain, read. -/
theorem readAll_readValue (fs : List (Option (List UInt8))) :
    Framer.readAll (readValue serde) fs =
      match readFrames serde.fromSlice (fs.filterMap id) with
      | .error _ => .error .malformedFrame
      | .ok values => .ok (values.flatMap fun v => frameOps (AcpDialect.mapMessage serde v)) := by
  induction fs with
  | nil => rfl
  | cons f fs ih =>
      cases f with
      | none =>
          rw [show (none :: fs).filterMap id = fs.filterMap id from rfl]
          simp only [Framer.readAll, readValue, ih]
          cases readFrames serde.fromSlice (fs.filterMap id) with
          | error err => rfl
          | ok values => rfl
      | some slice =>
          rw [show (some slice :: fs).filterMap id = slice :: fs.filterMap id from rfl]
          simp only [Framer.readAll, readValue, ih, readFrames]
          cases serde.fromSlice slice with
          | error err => rfl
          | ok value =>
              cases readFrames serde.fromSlice (fs.filterMap id) with
              | error err => rfl
              | ok values => rfl

theorem readAll_readLine (mapLine : List Char → List AcpFragment)
    (fs : List (Option (List UInt8))) :
    Framer.readAll (readLine mapLine) fs =
      .ok (((fs.filterMap id).filterMap fun line => messageLine (fromUtf8Lossy line)).flatMap
        fun line => frameOps (mapLine line)) := by
  induction fs with
  | nil => rfl
  | cons f fs ih =>
      cases f with
      | none =>
          simp only [Framer.readAll, readLine, ih]
          rfl
      | some line =>
          rw [show (some line :: fs).filterMap id = line :: fs.filterMap id from rfl]
          simp only [Framer.readAll, readLine, ih, List.filterMap_cons]
          cases messageLine (fromUtf8Lossy line) with
          | none => rfl
          | some text => rfl

/-! ## Chunks -/

variable (limits : InterpretationLimits) (callOrder : HashMap.IterOrder CallIndex)

/-- The bound on buffer and chunk together. -/
def frameLimit : Nat := min limits.maxUndecodedBytes limits.maxFrameBytes

/-- What a chunk is decoded to, up to the text of an error. -/
structure DecodesTo (result : Decoded) (d : Decoder)
    (ops : Except InterpreterErrorKind (List EngineOp)) (left : List UInt8) : Prop where
  reads : result.1.mapError InterpreterError.kind = ops
  leaves : ∀ o, ops = .ok o → result.2 = { d with frameBuf := left }

/-- **A chunk**: refused, or drained and read. -/
theorem ingestChunk_framed (dialect : FramedDialect) (d : Decoder) (chunk : List UInt8) :
    DecodesTo (d.ingestChunk serde limits callOrder dialect.family chunk) d
      (if frameLimit limits < d.frameBuf.length + chunk.length then .error .frameLimitExceeded
        else Framer.readAll (dialect.read serde) (dialect.framer.drain (d.frameBuf ++ chunk)).1)
      (dialect.framer.drain (d.frameBuf ++ chunk)).2 := by
  have hlines : ∀ mapLine, DecodesTo
      (if limits.maxUndecodedBytes < d.frameBuf.length + chunk.length then
        (.error (.limit "undecoded buffer limit exceeded"), d)
      else Decoder.ingestLines limits mapLine { d with frameBuf := d.frameBuf ++ chunk }) d
      (if frameLimit limits < d.frameBuf.length + chunk.length then .error .frameLimitExceeded
        else Framer.readAll (readLine mapLine) (lineFramer.drain (d.frameBuf ++ chunk)).1)
      (lineFramer.drain (d.frameBuf ++ chunk)).2 := by
    intro mapLine
    have hlen : (d.frameBuf ++ chunk).length = d.frameBuf.length + chunk.length :=
      List.length_append
    have hloop := @drainLinesLoop_eq ((d.frameBuf ++ chunk).length + 1) (d.frameBuf ++ chunk)
      (Nat.lt_succ_self _)
    unfold Decoder.ingestLines drainNdjsonLines frameLimit
    simp only [hloop, readAll_readLine]
    split
    · rename_i hmax
      rw [if_pos (by omega)]
      exact ⟨rfl, fun o ho => by cases ho⟩
    · split
      · rename_i hmax
        rw [if_pos (by omega)]
        exact ⟨rfl, fun o ho => by cases ho⟩
      · rw [if_neg (by omega)]
        exact ⟨rfl, fun o _ => rfl⟩
  have hvalues : DecodesTo
      (if limits.maxUndecodedBytes < d.frameBuf.length + chunk.length then
        (.error (.limit "undecoded buffer limit exceeded"), d)
      else Decoder.ingestAcp serde limits { d with frameBuf := d.frameBuf ++ chunk }) d
      (if frameLimit limits < d.frameBuf.length + chunk.length then .error .frameLimitExceeded
        else Framer.readAll (readValue serde) (valueFramer.drain (d.frameBuf ++ chunk)).1)
      (valueFramer.drain (d.frameBuf ++ chunk)).2 := by
    have hlen : (d.frameBuf ++ chunk).length = d.frameBuf.length + chunk.length :=
      List.length_append
    have hvalues := drainJsonLoop_values serde.fromSlice
      (Nat.lt_succ_self (d.frameBuf ++ chunk).length)
    obtain ⟨hframes, hleft⟩ := drain_valueFramer (d.frameBuf ++ chunk)
    unfold Decoder.ingestAcp drainJsonValues frameLimit
    rw [readAll_readValue, hframes, hleft]
    simp only
    split
    · rename_i hmax
      rw [if_pos (by omega)]
      exact ⟨rfl, fun o ho => by cases ho⟩
    · split
      · rename_i hmax
        rw [if_pos (by omega)]
        exact ⟨rfl, fun o ho => by cases ho⟩
      · rw [if_neg (by omega)]
        rcases hdrain : drainJsonLoop serde.fromSlice ((d.frameBuf ++ chunk).length + 1)
          (d.frameBuf ++ chunk) with ⟨e | values, left⟩
        · rw [hdrain] at hvalues
          rw [← hvalues]
          exact ⟨rfl, fun o ho => by cases ho⟩
        · rw [hdrain] at hvalues
          have hall := drainJsonLoop_left serde.fromSlice
            (Nat.lt_succ_self (d.frameBuf ++ chunk).length) hvalues.symm
          rw [hdrain] at hall
          rw [← hvalues]
          refine ⟨rfl, fun o _ => ?_⟩
          rw [← hall]
  cases dialect with
  | zaiCli => exact hlines _
  | claudeCode => exact hlines _
  | acp => exact hvalues
  | grokBuild => exact hvalues
  | cursorAcp => exact hvalues
  | agyAcp => exact hvalues
  | codexAcp => exact hvalues

/-- **Decoding chunks is feeding the framer.** -/
theorem decodeAll_framed (orders : Iteration) (dialect : FramedDialect) (d : Decoder)
    (chunks : List (List UInt8)) :
    let fed := dialect.framer.feedLimited (dialect.read serde) (frameLimit limits)
      .frameLimitExceeded d.frameBuf chunks
    let decoded := decodeAll serde orders ⟨dialect.family, limits⟩ d chunks
    decoded.1 = fed.1 ∧ decoded.2.mapError InterpreterError.kind =
      fed.2.map fun buf => { d with frameBuf := buf } := by
  induction chunks generalizing d with
  | nil => exact ⟨rfl, rfl⟩
  | cons chunk chunks ih =>
      obtain ⟨hreads, hleaves⟩ := ingestChunk_framed serde limits orders.calls dialect d chunk
      simp only [decodeAll, Framer.feedLimited]
      by_cases hfull : frameLimit limits < d.frameBuf.length + chunk.length
      · rw [if_pos hfull] at hreads ⊢
        rcases hd : d.ingestChunk serde limits orders.calls dialect.family chunk with ⟨e | ops, d'⟩
        · rw [hd] at hreads
          exact ⟨rfl, congrArg Except.error (Except.error.inj hreads)⟩
        · rw [hd] at hreads
          cases hreads
      · rw [if_neg hfull] at hreads hleaves ⊢
        rcases hd : d.ingestChunk serde limits orders.calls dialect.family chunk with ⟨e | ops, d'⟩
        · rw [hd] at hreads
          rw [← hreads]
          exact ⟨rfl, rfl⟩
        · rw [hd] at hreads hleaves
          obtain rfl : d' = { d with frameBuf := (dialect.framer.drain (d.frameBuf ++ chunk)).2 } :=
            hleaves ops hreads.symm
          rw [← hreads]
          obtain ⟨hops, hresult⟩ :=
            ih { d with frameBuf := (dialect.framer.drain (d.frameBuf ++ chunk)).2 }
          exact ⟨congrArg (ops ++ ·) hops, hresult⟩

end Read

end Monoloop.Interpreter
