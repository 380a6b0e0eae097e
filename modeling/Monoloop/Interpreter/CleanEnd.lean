import Monoloop.Interpreter.FramedDialects
import Monoloop.Interpreter.SseChunks
import Monoloop.Interpreter.Quarantine

/-!
# What a complete end leaves undecoded

Only the assembler of server-sent events looks at its residue at a clean end.
The frame buffer of the other dialects is not looked at, so it is empty exactly
when the stream itself ends with a frame (`complete_residueless_iff`).
-/

namespace Monoloop.Interpreter

open Framing Utf8

/-- The dialects of byte streams: frames of the owner, or server-sent events. -/
inductive StreamDialect where
  | framed (dialect : FramedDialect)
  | sse
  deriving DecidableEq

def StreamDialect.family : StreamDialect → DialectFamily
  | .framed dialect => dialect.family
  | .sse => .openAiChatCompletions

/-- No buffer of the decoder holds a partial value, line or event. -/
structure Residueless (d : Decoder) : Prop where
  frameBuf : d.frameBuf = []
  lineCarry : d.openai.lineCarry = []
  eventDataLines : d.openai.eventDataLines = []

/-! ## Streams that end with a frame -/

/-- White space and complete JSON values, and nothing else. -/
inductive WholeValues : List UInt8 → Prop where
  | nil : WholeValues []
  | space {b rest} : isAsciiWhitespace b = true → WholeValues rest → WholeValues (b :: rest)
  | value {value rest} : skipWhitespace value = value →
      findCompleteJsonEnd value = some value.length → WholeValues rest → WholeValues (value ++ rest)

/-- The stream ends with a newline, if it is not empty. -/
def WholeLines (stream : List UInt8) : Prop := ∀ b ∈ stream.getLast?, b = 0x0a

def StreamDialect.EndsWhole : StreamDialect → List UInt8 → Prop
  | .framed .zaiCli, stream => WholeLines stream
  | .framed .claudeCode, stream => WholeLines stream
  | .framed _, stream => WholeValues stream
  | .sse, _ => True

theorem wholeLines_iff (stream : List UInt8) :
    WholeLines stream ↔ (lineFramer.drain stream).2 = [] := by
  induction stream using lineFramer.drain_induction with
  | none b h =>
      rw [Framer.drain_none h]
      have hnone : ∀ x ∈ b, x ≠ 0x0a := by
        have hidx := List.findIdx?_eq_none_iff.mp (Option.map_eq_none_iff.mp h)
        intro x hx heq
        have hx' := hidx x hx
        simp [heq] at hx'
      constructor
      · intro hwhole
        cases hlast : b.getLast? with
        | none => exact List.getLast?_eq_none_iff.mp hlast
        | some x => exact absurd (hwhole x hlast) (hnone x (List.mem_of_getLast? hlast))
      · intro hnil x hx
        replace hnil : b = [] := hnil
        rw [hnil] at hx
        cases hx
  | some b f r h ih =>
      rw [Framer.drain_some h, ← ih]
      obtain ⟨pos, hpos, hfr⟩ := Option.map_eq_some_iff.mp h
      obtain ⟨-, rfl⟩ := Prod.mk.inj hfr
      obtain ⟨hlt, hnl, -⟩ := List.findIdx?_eq_some_iff_getElem.mp hpos
      unfold WholeLines
      by_cases hr : b.drop (pos + 1) = []
      · -- the newline is the last byte
        have hlast : b.getLast? = some 0x0a := by
          have hlen := List.drop_eq_nil_iff.mp hr
          rw [List.getLast?_eq_getElem?, show b.length - 1 = pos by omega,
            List.getElem?_eq_getElem hlt]
          exact congrArg some (of_decide_eq_true hnl)
        rw [hr, hlast]
        simp
      · rw [List.getLast?_drop, if_neg (by
          intro hle
          exact hr (List.drop_eq_nil_of_le hle))]

theorem wholeValues_iff (stream : List UInt8) :
    WholeValues stream ↔ (valueFramer.drain stream).2 = [] := by
  constructor
  · intro h
    induction h with
    | nil => exact congrArg Prod.snd (Framer.drain_none Framer.next_nil)
    | @space b rest hb _ ih =>
        have hnext : valueFramer.next (b :: rest) = some (none, rest) := if_pos hb
        rw [Framer.drain_some hnext]
        exact ih
    | @value v rest hskip hend _ ih =>
        have hpos := (findCompleteJsonEnd_le hend).1
        have hnext : valueFramer.next v = some (some v, []) := by
          cases v with
          | nil => simp at hpos
          | cons b v =>
              have hb : ¬ isAsciiWhitespace b = true := by
                intro hb
                rw [skipWhitespace, List.dropWhile_cons_of_pos hb] at hskip
                have hlen := congrArg List.length hskip
                have hle := (List.dropWhile_sublist isAsciiWhitespace (l := v)).length_le
                rw [List.length_cons] at hlen
                omega
              show nextValue (b :: v) = _
              rw [nextValue, if_neg hb, hend, Option.map_some, List.take_length, List.drop_length]
        rw [Framer.drain_some (valueFramer.stable hnext rest), List.nil_append]
        exact ih
  · induction stream using valueFramer.drain_induction with
    | none b h =>
        rw [Framer.drain_none h]
        rintro rfl
        exact .nil
    | some b f r h ih =>
        rw [Framer.drain_some h]
        intro hnil
        have hrest := ih hnil
        rcases nextValue_cases h with ⟨x, hx, rfl, -⟩ | ⟨e, hskip, he, rfl, rfl⟩
        · exact .space hx hrest
        · have hle := findCompleteJsonEnd_le he
          rw [← List.take_append_drop e b]
          refine .value ?_ ?_ hrest
          · -- the first byte is no white space
            cases b with
            | nil => rw [List.take_nil]; rfl
            | cons x rest =>
                have hx : ¬ isAsciiWhitespace x = true := by
                  intro hx
                  rw [show valueFramer.next (x :: rest) = some (none, rest) from if_pos hx] at h
                  cases h
                rw [List.take_cons hle.1]
                exact List.dropWhile_cons_of_neg hx
          · rw [findCompleteJsonEnd_take he, List.length_take]
            congr 1
            omega

theorem StreamDialect.endsWhole_iff (dialect : FramedDialect) (stream : List UInt8) :
    (StreamDialect.framed dialect).EndsWhole stream ↔ (dialect.framer.drain stream).2 = [] := by
  cases dialect with
  | zaiCli => exact wholeLines_iff stream
  | claudeCode => exact wholeLines_iff stream
  | acp => exact wholeValues_iff stream
  | grokBuild => exact wholeValues_iff stream
  | cursorAcp => exact wholeValues_iff stream
  | agyAcp => exact wholeValues_iff stream
  | codexAcp => exact wholeValues_iff stream

/-! ## Server-sent events -/

namespace OpenAiSseState

variable (serde : SerdeJson) (order : HashMap.IterOrder CallIndex)

theorem lineCarry_handleLine {st st' : OpenAiSseState} {line : List UInt8}
    {out : List AcpFragment} (h : handleLine serde order st line = .ok (st', out)) :
    st'.lineCarry = st.lineCarry := by
  unfold handleLine at h
  split at h
  · unfold dispatchEvent at h
    split at h
    · cases h
      rfl
    · simp only at h
      split at h
      · cases h
      · split at h
        · cases h
          rfl
        · obtain ⟨tools, rfl⟩ := onlyTools_mapDataJson serde order h
          rfl
  · split at h
    · cases h
    · split at h
      · cases h
        rfl
      · cases h
        rfl

/-- What `sealClean` accepts is decoded to the end. -/
theorem sealClean_pending {st st' : OpenAiSseState} {frags : List AcpFragment}
    (h : st.sealClean serde order = .ok (st', frags)) :
    st'.lineCarry = [] ∧ st'.eventDataLines = [] := by
  unfold sealClean at h
  simp only at h
  split at h
  · cases h
  · rename_i st₁ out hflushed
    split at h
    · cases h
    · rename_i hlines
      split at h
      · cases h
      · cases h
        refine ⟨?_, Decidable.not_not.mp hlines⟩
        split at hflushed
        · rename_i hcarry
          cases hflushed
          exact hcarry
        · exact lineCarry_handleLine serde order hflushed

end OpenAiSseState

/-- The bytes of server-sent events do not stay in the frame buffer. -/
theorem decodeAll_sse (serde : SerdeJson) (orders : Iteration) (limits : InterpretationLimits)
    {d d' : Decoder} (hbuf : d.frameBuf = []) {chunks : List (List UInt8)}
    (h : (decodeAll serde orders ⟨.openAiChatCompletions, limits⟩ d chunks).2 = .ok d') :
    d'.frameBuf = [] := by
  induction chunks generalizing d with
  | nil =>
      cases h
      exact hbuf
  | cons chunk chunks ih =>
      simp only [decodeAll] at h
      rcases hd : d.ingestChunk serde limits orders.calls .openAiChatCompletions chunk with
        ⟨e | ops, d₁⟩
      · rw [hd] at h
        cases h
      · rw [hd] at h
        apply ih _ h
        unfold Decoder.ingestChunk at hd
        split at hd
        · cases hd
        · simp only [Decoder.ingestOpenAiChat] at hd
          split at hd
          · cases hd
          · split at hd
            · cases hd
            · cases hd
              rfl

/-! ## Complete runs -/

/-- Elsewhere the buffers of the events' assembler stay empty. -/
theorem decodeAll_openai (serde : SerdeJson) (orders : Iteration) (dialect : FramedDialect) (limits : InterpretationLimits)
    {d d' : Decoder} {chunks : List (List UInt8)} (hbuf : dialect.framer.next d.frameBuf = none)
    (h : (decodeAll serde orders ⟨dialect.family, limits⟩ d chunks).2 = .ok d') :
    d' = { d with frameBuf := (dialect.framer.drain (d.frameBuf ++ chunks.flatten)).2 } := by
  have hdecoded := (decodeAll_framed serde limits orders dialect d chunks).2
  simp only [h] at hdecoded
  cases hfed : (dialect.framer.feedLimited (dialect.read serde) (frameLimit limits)
      .frameLimitExceeded d.frameBuf chunks).2 with
  | error e =>
      rw [hfed] at hdecoded
      cases hdecoded
  | ok r =>
      rw [hfed] at hdecoded
      obtain ⟨-, rfl⟩ := Framer.feedLimited_ok hbuf (Prod.ext rfl hfed)
      cases hdecoded
      rfl

/-- **A run that ends complete leaves no residue** exactly when its bytes end
with a frame. -/
theorem complete_residueless_iff (serde : SerdeJson) (orders : Iteration) (room : Option Nat)
    (dialect : StreamDialect) (limits : InterpretationLimits) (cmds : List InputCmd)
    (h : ((Owner.new ⟨dialect.family, limits⟩).run serde orders room ⟨dialect.family, limits⟩
      cmds).completion.map InterpretationEnd.kind = some .complete) :
    Residueless ((Owner.new ⟨dialect.family, limits⟩).run serde orders room
        ⟨dialect.family, limits⟩ cmds).decoder ↔
      dialect.EndsWhole (chunksOf cmds).flatten := by
  obtain ⟨o, d, ops, a, hin, -, hseal, -, hrun⟩ := Owner.run_complete serde orders room _ h
  have hdecoder : (decodeAll serde orders ⟨dialect.family, limits⟩
      (Owner.new ⟨dialect.family, limits⟩).decoder (chunksOf cmds)).2 = .ok o.decoder :=
    (ingested_ops hin).2
  rw [hrun, Owner.decoder_finish]
  show Residueless d ↔ _
  cases dialect with
  | framed dialect =>
      have hd : d = o.decoder := by
        cases dialect <;> (cases hseal; rfl)
      have hleft := decodeAll_openai serde orders dialect limits Framer.next_nil hdecoder
      rw [StreamDialect.endsWhole_iff, hd, hleft]
      constructor
      · intro hres
        exact hres.frameBuf
      · intro hnil
        exact ⟨hnil, rfl, rfl⟩
  | sse =>
      have hbuf : o.decoder.frameBuf = [] := decodeAll_sse serde orders limits rfl hdecoder
      constructor
      · intro _
        trivial
      · intro _
        simp only [StreamDialect.family, Decoder.sealOps] at hseal
        split at hseal
        · cases hseal
        · rename_i st frags hsealed
          cases hseal
          obtain ⟨hcarry, hlines⟩ := OpenAiSseState.sealClean_pending serde orders.calls hsealed
          exact ⟨hbuf, hcarry, hlines⟩

section Samples

/-- The empty object in one chunk. -/
theorem complete_residueless_object :
    Residueless ((Owner.new ⟨.acp, (sampleRequest .acp).limits⟩).run
      (readerOf "\x7b\x7d" (.object [])) entryOrders none ⟨.acp, (sampleRequest .acp).limits⟩
      [.bytes [0x7b, 0x7d], .finishClean]).decoder :=
  (complete_residueless_iff (readerOf "\x7b\x7d" (.object [])) entryOrders none (.framed .acp)
    (sampleRequest .acp).limits [.bytes [0x7b, 0x7d], .finishClean] (by decide +kernel)).mpr
    (@WholeValues.value [0x7b, 0x7d] [] (by decide +kernel) (by decide +kernel) .nil)

/-- An object cut short is reported complete. -/
theorem complete_cut_short :
    ¬ ∀ (serde : SerdeJson) (orders : Iteration) (room : Option Nat)
      (dialect : StreamDialect) (limits : InterpretationLimits) (cmds : List InputCmd),
      ((Owner.new ⟨dialect.family, limits⟩).run serde orders room ⟨dialect.family, limits⟩
        cmds).completion.map InterpretationEnd.kind = some .complete →
      Residueless ((Owner.new ⟨dialect.family, limits⟩).run serde orders room
        ⟨dialect.family, limits⟩ cmds).decoder := by
  intro h
  have hres := h (readerOf "\x7b\x7d" (.object [])) entryOrders none (.framed .acp)
    (sampleRequest .acp).limits [.bytes [0x7b], .finishClean] (by decide +kernel)
  have hbuf := hres.frameBuf
  revert hbuf
  decide +kernel

end Samples

end Monoloop.Interpreter
