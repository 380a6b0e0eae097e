import Monoloop.Interpreter.OpenAiChat

/-!
# Chunks of a server-sent event stream

The assembler works byte by byte, so that a line or a character may be cut
anywhere. Two things are looked at per chunk only: `[DONE]` stops the decoder
before the next chunk, not inside the one it stands in, and an error takes the
fragments of its chunk with it. `CutSafe` says that a stream shows neither, and
`decode_independent_iff` that this is exactly when the chunks do not matter.
-/

namespace Monoloop.Interpreter

open Transducer Utf8

namespace OpenAiSseState

variable (serde : SerdeJson) (order : HashMap.IterOrder CallIndex)

/-! ## What the functions leave alone -/

/-- Nothing but the calls has changed. -/
def OnlyTools (st st' : OpenAiSseState) : Prop := ∃ tools, st' = { st with tools }

theorem OnlyTools.refl (st : OpenAiSseState) : OnlyTools st st := ⟨st.tools, rfl⟩

theorem OnlyTools.trans {st st' st'' : OpenAiSseState} (h : OnlyTools st st')
    (h' : OnlyTools st' st'') : OnlyTools st st'' := by
  obtain ⟨tools, rfl⟩ := h
  obtain ⟨tools', rfl⟩ := h'
  exact ⟨tools', rfl⟩

/-- A step that only touches the calls, repeated, only touches the calls. -/
theorem onlyTools_run {α : Type} {step : Step OpenAiSseState α InterpreterError AcpFragment}
    (hstep : ∀ st x st' out, step st x = .ok (st', out) → OnlyTools st st')
    {st st' : OpenAiSseState} {xs : List α} {out : List AcpFragment}
    (h : run step st xs = .ok (st', out)) : OnlyTools st st' :=
  run_invariant (P := OnlyTools st) (fun _ x _ out hs hx => hs.trans (hstep _ x _ out hx))
    (OnlyTools.refl st) h

theorem onlyTools_ingestToolDelta {st st' : OpenAiSseState} {call : Json}
    {out : List AcpFragment} (h : ingestToolDelta st call = .ok (st', out)) : OnlyTools st st' := by
  have hwait : ∀ idx entry, noteWaiting st idx entry = .ok (st', out) → OnlyTools st st' := by
    intro idx entry hn
    unfold noteWaiting at hn
    split at hn
    · cases hn
      exact ⟨_, rfl⟩
    · cases hn
      exact ⟨_, rfl⟩
  unfold ingestToolDelta at h
  cases hargs : argumentsOf call with
  | none =>
      rw [hargs] at h
      exact hwait _ _ h
  | some args =>
      rw [hargs] at h
      simp only at h
      split at h
      · cases h
      · exact hwait _ _ h

theorem onlyTools_releaseCall {st st' : OpenAiSseState} {k : CallIndex} {out : List AcpFragment}
    (h : releaseCall serde st k = .ok (st', out)) : OnlyTools st st' := by
  unfold releaseCall at h
  split at h
  · cases h
    exact .refl st
  · split at h
    · cases h
      exact .refl st
    · split at h
      · cases h
      · cases h
        exact ⟨_, rfl⟩

theorem onlyTools_onFinishReason {st st' : OpenAiSseState} {reason : String}
    {out : List AcpFragment} (h : onFinishReason serde order st reason = .ok (st', out)) :
    OnlyTools st st' := by
  unfold onFinishReason at h
  split at h
  · exact onlyTools_run (fun _ _ _ _ => onlyTools_releaseCall serde) h
  · split at h
    · cases h
      exact .refl st
    · cases h

theorem onlyTools_onDelta {st st' : OpenAiSseState} {delta : Json} {out : List AcpFragment}
    (h : onDelta st delta = .ok (st', out)) : OnlyTools st st' := by
  obtain ⟨st₁, out₁, out₂, hc, hrest, -⟩ := andThen_eq_ok h
  have hst : st₁ = st := by
    unfold onContent at hc
    split at hc
    · split at hc <;> (cases hc; rfl)
    · cases hc
      rfl
  subst hst
  split at hrest
  · exact onlyTools_run (fun _ _ _ _ => onlyTools_ingestToolDelta) hrest
  · cases hrest
    exact .refl _

theorem onlyTools_onChoice {st st' : OpenAiSseState} {choice : Json} {out : List AcpFragment}
    (h : onChoice serde order st choice = .ok (st', out)) : OnlyTools st st' := by
  unfold onChoice at h
  split at h
  · cases h
    exact .refl st
  · obtain ⟨st₁, out₁, out₂, hd, hrest, -⟩ := andThen_eq_ok h
    have hdelta : OnlyTools st st₁ := by
      split at hd
      · exact onlyTools_onDelta hd
      · cases hd
        exact .refl _
    refine hdelta.trans ?_
    split at hrest
    · exact onlyTools_onFinishReason serde order hrest
    · cases hrest
      exact .refl _

theorem onlyTools_mapDataJson {st st' : OpenAiSseState} {data : String} {out : List AcpFragment}
    (h : mapDataJson serde order st data = .ok (st', out)) : OnlyTools st st' := by
  unfold mapDataJson at h
  split at h
  · cases h
  · unfold mapChunk at h
    split at h
    · cases h
      exact .refl st
    · exact onlyTools_run (fun _ _ _ _ => onlyTools_onChoice serde order) h

/-! ## What a byte does -/

/-- **One byte that goes through**: it is put on the line; or it ends a line that
leaves `[DONE]` as it was; or it dispatches `[DONE]`, with nothing pending. -/
theorem pushByte_cases {st st' : OpenAiSseState} {b : UInt8} {out : List AcpFragment}
    (h : pushByte serde order st b = .ok (st', out)) :
    (b ≠ 0x0a ∧ out = [] ∧ st' = { st with lineCarry := st.lineCarry ++ [b] }) ∨
      (b = 0x0a ∧ st'.lineCarry = [] ∧ st'.sawDone = st.sawDone) ∨
      (b = 0x0a ∧ st'.lineCarry = [] ∧ st'.eventDataLines = [] ∧ st'.sawDone = true) := by
  unfold pushByte at h
  split at h
  · rename_i hb
    right
    unfold handleLine at h
    split at h
    · unfold dispatchEvent at h
      split at h
      · cases h
        exact .inl ⟨hb, rfl, rfl⟩
      · simp only at h
        split at h
        · cases h
        · split at h
          · cases h
            exact .inr ⟨hb, rfl, rfl, rfl⟩
          · obtain ⟨tools, rfl⟩ := onlyTools_mapDataJson serde order h
            exact .inl ⟨hb, rfl, rfl⟩
    · split at h
      · cases h
      · split at h
        · cases h
          exact .inl ⟨hb, rfl, rfl⟩
        · cases h
          exact .inl ⟨hb, rfl, rfl⟩
  · rename_i hb
    split at h
    · cases h
    · cases h
      exact .inl ⟨hb, rfl, rfl⟩

theorem sawDone_mono {st st' : OpenAiSseState} {b : UInt8} {out : List AcpFragment}
    (hdone : st.sawDone = true) (h : pushByte serde order st b = .ok (st', out)) :
    st'.sawDone = true := by
  rcases pushByte_cases serde order h with ⟨-, -, rfl⟩ | ⟨-, -, hs⟩ | ⟨-, -, -, hs⟩
  · exact hdone
  · rw [hs, hdone]
  · exact hs

/-- With nothing pending, a newline does nothing. -/
theorem pushByte_newline {st : OpenAiSseState} (hcarry : st.lineCarry = [])
    (hlines : st.eventDataLines = []) : pushByte serde order st 0x0a = .ok (st, []) := by
  cases st
  subst hcarry hlines
  rfl

/-! ## Chunks -/

theorem decode_eq_feed (st : OpenAiSseState) (chunks : List (List UInt8)) :
    decode serde order st chunks = feed (pushByte serde order) sawDone st chunks := by
  induction chunks generalizing st with
  | nil => rfl
  | cons chunk chunks ih =>
      simp only [decode, feed, pushBytes]
      split
      · rename_i e h
        split at h
        · cases h
        · rename_i hd
          rw [if_neg hd, h]
      · rename_i st' frags h
        split at h
        · rename_i hd
          cases h
          rw [if_pos hd, ih]
          rfl
        · rename_i hd
          rw [if_neg hd, h]
          simp only [ih]

/-- Nothing in the stream shows where it is cut: no event that gives out
fragments comes before a line or an event that fails, and the bytes after the
blank line that dispatches `[DONE]` are newlines. -/
structure CutSafe (st : OpenAiSseState) (bytes : List UInt8) : Prop where
  silent : ∀ p b q st' out e, bytes = p ++ b :: q →
    run (pushByte serde order) st p = .ok (st', out) → st'.sawDone = false →
    pushByte serde order st' b = .error e → out = []
  newlines : ∀ p b q st' out, bytes = p ++ b :: q →
    run (pushByte serde order) st p = .ok (st', out) → st'.sawDone = true → b = 0x0a

/-- When only newlines follow `[DONE]`, nothing is pending there. -/
theorem CutSafe.idle {st : OpenAiSseState} {bytes : List UInt8} (h : CutSafe serde order st bytes)
    (hstart : st.sawDone = false) {p q : List UInt8} (hp : bytes = p ++ q)
    {st' : OpenAiSseState} {out : List AcpFragment}
    (hrun : run (pushByte serde order) st p = .ok (st', out)) (hdone : st'.sawDone = true) :
    st'.lineCarry = [] ∧ st'.eventDataLines = [] := by
  induction p using List.reverseRecOn generalizing q st' out with
  | nil =>
      cases hrun
      rw [hstart] at hdone
      cases hdone
  | append_singleton p b ih =>
      rw [run_append] at hrun
      obtain ⟨st₁, out₁, out₂, hlead, hlast, -⟩ := andThen_eq_ok hrun
      rw [run_singleton] at hlast
      rw [List.append_assoc, List.singleton_append] at hp
      cases hd : st₁.sawDone with
      | true =>
          obtain ⟨hcarry, hlines⟩ := ih hp hlead hd
          obtain rfl := h.newlines p b q st₁ out₁ hp hlead hd
          rw [pushByte_newline serde order hcarry hlines] at hlast
          cases hlast
          exact ⟨hcarry, hlines⟩
      | false =>
          -- this byte is the one that dispatched `[DONE]`
          rcases pushByte_cases serde order hlast with ⟨-, -, rfl⟩ | ⟨-, -, hs⟩ | ⟨-, hc, hl, -⟩
          · rw [hd] at hdone
            cases hdone
          · rw [hs, hd] at hdone
            cases hdone
          · exact ⟨hc, hl⟩

theorem cutSafe_iff_smooth {st : OpenAiSseState} (hstart : st.sawDone = false)
    (bytes : List UInt8) :
    CutSafe serde order st bytes ↔ Smooth (pushByte serde order) sawDone st bytes := by
  constructor
  · intro h
    refine ⟨h.silent, ?_⟩
    intro p b q st' out hp hrun hdone
    obtain ⟨hcarry, hlines⟩ := h.idle serde order hstart hp hrun hdone
    obtain rfl := h.newlines p b q st' out hp hrun hdone
    exact pushByte_newline serde order hcarry hlines
  · intro h
    refine ⟨h.silent, ?_⟩
    intro p b q st' out hp hrun hdone
    have hsame := h.inert p b q st' out hp hrun hdone
    rcases pushByte_cases serde order hsame with ⟨-, -, hst⟩ | ⟨hb, -⟩ | ⟨hb, -⟩
    · -- a byte put on the line would be seen
      have hlen := congrArg (fun s => s.lineCarry.length) hst
      simp at hlen
    · exact hb
    · exact hb

/-- **The chunks do not matter exactly in cut-safe streams.** -/
theorem decode_independent_iff (maxLineBytes maxEventBytes maxToolArgBytes : Nat)
    (bytes : List UInt8) :
    (∀ cs ds : List (List UInt8), cs.flatten = bytes → ds.flatten = bytes →
      decode serde order (new maxLineBytes maxEventBytes maxToolArgBytes) cs =
        decode serde order (new maxLineBytes maxEventBytes maxToolArgBytes) ds) ↔
      CutSafe serde order (new maxLineBytes maxEventBytes maxToolArgBytes) bytes := by
  simp only [decode_eq_feed]
  rw [cutSafe_iff_smooth serde order rfl]
  apply feed_independent_iff
  · intro st b st' out hdone hb
    exact sawDone_mono serde order hdone hb
  · rfl

/-- A line that is not UTF-8 after `[DONE]`: an error in the chunk of `[DONE]`,
not looked at in a chunk of its own. -/
theorem decode_reads_past_done :
    ¬ ∀ (serde : SerdeJson) (order : HashMap.IterOrder CallIndex) (bytes : List UInt8)
      (cs ds : List (List UInt8)), cs.flatten = bytes → ds.flatten = bytes →
      decode serde order (new 64 64 64) cs = decode serde order (new 64 64 64) ds := by
  intro h
  have hcut := h ⟨fun _ => .error "", fun _ => none, fun _ => ""⟩ ⟨id, fun _ => .refl _⟩ _
    [bytes "data: [DONE]\n\n".toList ++ [0xff, 0x0a]]
    [bytes "data: [DONE]\n\n".toList, [0xff, 0x0a]] rfl (by simp)
  have hok := congrArg (fun r => r.2.isOk) hcut
  revert hok
  decide +kernel

end OpenAiSseState

end Monoloop.Interpreter
