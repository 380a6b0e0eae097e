import Monoloop.Interpreter.Chunking
import Monoloop.Interpreter.Emission
import Monoloop.Interpreter.ToolCalls

/-!
# Whether the iteration order of the maps can be seen

The owner walks three of its maps: the calls at a `tool_calls` finish and at a clean end,
the channels when a response is finished and at a clean end, and the tools at an abrupt
end. What a walk gives out stands in the order in which it meets the keys.

`Calm` says of a run that each walk it comes to finds one entry at most that gives
anything out, and `units_of_calm` that such a run publishes the same units under any other
order.
-/

namespace Monoloop.Interpreter

namespace OpenAiSseState

open Transducer Utf8

variable (serde : SerdeJson)

/-- The walk of a `tool_calls` finish releases one call at most, or is stopped. -/
def ReleasesOne (st : OpenAiSseState) : Prop :=
  (∃ k entry, st.tools.lookup k = some entry ∧ Blocks serde entry) ∨
    ∀ k k', (pendingCall st k).isSome = true → (pendingCall st k').isSome = true → k = k'

/-- The condition on an operation of a chunk. -/
def CalmOp (st : OpenAiSseState) : ChatOp → Prop
  | .finish reason => reason = "tool_calls" → ReleasesOne serde st
  | _ => True

/-- The value that a blank line maps, if it maps one. -/
def eventValue (st : OpenAiSseState) : Option Json :=
  let data := "\n".intercalate st.eventDataLines
  if st.eventDataLines = [] ∨ data.utf8ByteSize > st.maxEventBytes ∨
      trim data.toList = "[DONE]".toList then none
  else serde.fromStr data

variable (order order' : HashMap.IterOrder CallIndex)

/-- **The condition on a byte**: of the operations that the event it ends is mapped to, a
`tool_calls` finish finds one call at most to release. -/
def CalmByte (st : OpenAiSseState) (b : UInt8) : Prop :=
  b = 0x0a → stripCr st.lineCarry = [] → ∀ value ∈ eventValue serde st,
    ∀ p op q st' out, chunkOps value = p ++ op :: q →
      run (applyOp serde order) { st with lineCarry := [], eventDataLines := [] } p =
        .ok (st', out) →
      CalmOp serde st' op

def CalmBytes (st : OpenAiSseState) (chunk : List UInt8) : Prop :=
  st.sawDone = false → ∀ p b q st' out, chunk = p ++ b :: q →
    run (pushByte serde order) st p = .ok (st', out) → CalmByte serde order st' b

/-! ## One operation -/

variable {serde}

theorem pendingCall_ready {st : OpenAiSseState} {k : CallIndex}
    (h : pendingCall st k = none) : releaseCall serde st k = .ok (st, []) := by
  unfold releaseCall
  unfold pendingCall at h
  cases hl : st.tools.lookup k with
  | none => rfl
  | some entry =>
      cases hr : entry.ready with
      | true => simp only [hr, if_true]
      | false => simp [hl, hr] at h

/-- The other calls are as they were. -/
theorem pendingCall_release {st st' : OpenAiSseState} {k k' : CallIndex} {out : List AcpFragment}
    (h : releaseCall serde st k = .ok (st', out)) (hne : k' ≠ k) :
    pendingCall st' k' = pendingCall st k' := by
  rcases releaseCall_cases serde st k with ⟨_, -, -, herr⟩ | ⟨-, tools, hok, hlook⟩
  · cases herr.symm.trans h
  · cases hok.symm.trans h
    simp only [pendingCall, hlook, if_neg hne]

theorem ReleasesOne.any_order {st : OpenAiSseState} (h : ReleasesOne serde st) :
    run (releaseCall serde) st (order.keys st.tools) =
      run (releaseCall serde) st (order'.keys st.tools) := by
  have hperm := order.keys_perm order' st.tools
  have hnodup := order.nodup_keys st.tools
  have hnodup' := order'.nodup_keys st.tools
  rcases h with ⟨k, entry, hl, hb⟩ | hone
  · -- both walks are stopped, with one error
    have hstop : ∀ o : HashMap.IterOrder CallIndex, run (releaseCall serde) st (o.keys st.tools) =
        .error ⟨.malformedSemanticPayload, "incomplete tool call at tool_calls finish"⟩ := by
      intro o
      have hk : k ∈ o.keys st.tools := (o.mem_keys st.tools k).mpr ⟨entry, hl⟩
      rcases run_releaseCall serde (o.nodup_keys st.tools) st with ⟨-, hr⟩ | ⟨hall, -⟩
      · exact hr
      · exact absurd hb (hall k hk entry hl)
    rw [hstop order, hstop order']
  · by_cases hsome : ∃ k, (pendingCall st k).isSome = true
    · obtain ⟨k, hk⟩ := hsome
      have hidle : ∀ k', k' ≠ k → pendingCall st k' = none := by
        intro k' hne
        cases hp : pendingCall st k' with
        | none => rfl
        | some frag => exact absurd (hone k' k (by rw [hp]; rfl) hk) hne
      have hwalk : ∀ ks : List CallIndex, ks.Nodup → run (releaseCall serde) st ks =
          if k ∈ ks then releaseCall serde st k else .ok (st, []) := by
        intro ks hks
        apply run_only hks
        · intro k' _ hne
          exact pendingCall_ready (hidle k' hne)
        · intro st' out hrelease k' _ hne
          exact pendingCall_ready ((pendingCall_release hrelease hne).trans (hidle k' hne))
      rw [hwalk _ hnodup, hwalk _ hnodup']
      simp only [hperm.mem_iff]
    · have hidle : ∀ k, pendingCall st k = none := by
        intro k
        cases hp : pendingCall st k with
        | none => rfl
        | some frag => exact absurd ⟨k, by rw [hp]; rfl⟩ hsome
      rw [run_idle (fun k _ => pendingCall_ready (hidle k)),
        run_idle (fun k _ => pendingCall_ready (hidle k))]

theorem CalmOp.any_order {st : OpenAiSseState} {op : ChatOp} (h : CalmOp serde st op) :
    applyOp serde order st op = applyOp serde order' st op := by
  cases op with
  | content text => rfl
  | delta call => rfl
  | finish reason =>
      show onFinishReason serde order st reason = onFinishReason serde order' st reason
      unfold onFinishReason
      by_cases hreason : reason = "tool_calls"
      · rw [if_pos hreason, if_pos hreason]
        exact (h hreason).any_order order order'
      · rw [if_neg hreason, if_neg hreason]

/-! ## One byte -/

theorem choiceIndex_pushByte {st st' : OpenAiSseState} {b : UInt8} {out : List AcpFragment}
    (h : pushByte serde order st b = .ok (st', out)) : st'.choiceIndex = st.choiceIndex := by
  unfold pushByte at h
  split at h
  · unfold handleLine at h
    split at h
    · unfold dispatchEvent at h
      split at h
      · cases h
        rfl
      · simp only at h
        split at h
        · cases h
        · split at h
          · cases h
            rfl
          · obtain ⟨tools, rfl⟩ := onlyTools_mapDataJson serde order h
            rfl
    · split at h
      · cases h
      · split at h
        · cases h
          rfl
        · cases h
          rfl
  · split at h
    · cases h
    · cases h
      rfl

/-- A line with text in it is not mapped. -/
theorem handleLine_text (st : OpenAiSseState) {line : List UInt8} (h : line ≠ []) :
    handleLine serde order st line = handleLine serde order' st line := by
  unfold handleLine
  rw [if_neg h, if_neg h]

theorem CalmByte.any_order {st : OpenAiSseState} {b : UInt8} (h : CalmByte serde order st b)
    (hst : st.choiceIndex = defaultChoiceIndex) :
    pushByte serde order st b = pushByte serde order' st b := by
  unfold pushByte
  by_cases hb : b = 0x0a
  · rw [if_pos hb, if_pos hb]
    by_cases hline : stripCr st.lineCarry = []
    · rw [hline]
      show dispatchEvent serde order { st with lineCarry := [] } =
        dispatchEvent serde order' { st with lineCarry := [] }
      have hcalm := h hb hline
      unfold dispatchEvent
      unfold eventValue at hcalm
      simp only at hcalm ⊢
      by_cases hnone : st.eventDataLines = []
      · rw [if_pos hnone, if_pos hnone]
      · rw [if_neg hnone, if_neg hnone]
        by_cases hlong : ("\n".intercalate st.eventDataLines).utf8ByteSize > st.maxEventBytes
        · rw [if_pos hlong, if_pos hlong]
        · rw [if_neg hlong, if_neg hlong]
          by_cases hdone : trim ("\n".intercalate st.eventDataLines).toList = "[DONE]".toList
          · rw [if_pos hdone, if_pos hdone]
          · rw [if_neg hdone, if_neg hdone]
            rw [if_neg (by simp only [hnone, hlong, hdone, or_self, not_false_eq_true])] at hcalm
            unfold mapDataJson
            cases hvalue : serde.fromStr ("\n".intercalate st.eventDataLines) with
            | none => rfl
            | some value =>
                have hst' : ({ st with lineCarry := [], eventDataLines := [] } :
                    OpenAiSseState).choiceIndex = defaultChoiceIndex := hst
                simp only
                rw [mapChunk_eq serde order hst', mapChunk_eq serde order' hst']
                apply run_congr
                intro p op q st' out hops hp
                exact (hcalm value hvalue p op q st' out hops hp).any_order order order'
    · exact handleLine_text order order' _ hline
  · rw [if_neg hb, if_neg hb]

theorem CalmBytes.any_order {st : OpenAiSseState} {chunk : List UInt8}
    (h : CalmBytes serde order st chunk) (hst : st.choiceIndex = defaultChoiceIndex) :
    pushBytes serde order st chunk = pushBytes serde order' st chunk := by
  unfold pushBytes
  cases hdone : st.sawDone with
  | true => rfl
  | false =>
      apply run_congr
      intro p b q st' out hchunk hp
      refine (h hdone p b q st' out hchunk hp).any_order order order' ?_
      exact run_invariant (P := fun st => st.choiceIndex = defaultChoiceIndex)
        (fun _ _ _ _ hs hb => (choiceIndex_pushByte order hb).trans hs) hst hp

/-! ## The clean end -/

/-- The walk of a clean end tells one call at most. -/
def SealsOne (st : OpenAiSseState) : Prop :=
  ∀ k k', (sealedCall st k).isSome = true → (sealedCall st k').isSome = true → k = k'

theorem tools_handleLine {st st' : OpenAiSseState} {line : List UInt8} {out : List AcpFragment}
    (hline : line ≠ []) (h : handleLine serde order st line = .ok (st', out)) :
    st'.tools = st.tools := by
  unfold handleLine at h
  rw [if_neg hline] at h
  split at h
  · cases h
  · split at h
    · cases h
      rfl
    · cases h
      rfl

/-- Up to the walk over the calls, a clean end is the same in every order. -/
theorem sealClean_eq (serde : SerdeJson) (st : OpenAiSseState) :
    ∃ flushed : Except InterpreterError OpenAiSseState,
      (∀ order, st.sealClean serde order = flushed.map fun st₁ =>
        (st₁, (order.keys st₁.tools).filterMap (sealedCall st₁))) ∧
      ∀ st₁, flushed = .ok st₁ → st₁.tools = st.tools := by
  have hrest : ∀ st₁ : OpenAiSseState, st₁.tools = st.tools →
      ∃ flushed : Except InterpreterError OpenAiSseState,
        (∀ order : HashMap.IterOrder CallIndex,
          (if st₁.eventDataLines ≠ [] then
            (.error ⟨.malformedFrame, "incomplete SSE event at end of stream"⟩ : SseResult)
          else if ¬ st₁.sawDone then .error ⟨.malformedFrame, "missing [DONE] terminator"⟩
          else .ok (st₁, (order.keys st₁.tools).filterMap (sealedCall st₁))) =
            flushed.map fun st₁ => (st₁, (order.keys st₁.tools).filterMap (sealedCall st₁))) ∧
        ∀ st₂, flushed = .ok st₂ → st₂.tools = st.tools := by
    intro st₁ htools
    by_cases hlines : st₁.eventDataLines ≠ []
    · refine ⟨.error _, fun order => if_pos hlines, ?_⟩
      intro st₂ h
      cases h
    · simp only [if_neg hlines]
      by_cases hdone : st₁.sawDone
      · refine ⟨.ok st₁, fun order => if_neg (not_not_intro hdone), ?_⟩
        intro st₂ h
        cases h
        exact htools
      · refine ⟨.error _, fun order => if_pos hdone, ?_⟩
        intro st₂ h
        cases h
  by_cases hcarry : st.lineCarry = []
  · obtain ⟨flushed, heq, htools⟩ := hrest st rfl
    refine ⟨flushed, fun order => ?_, htools⟩
    rw [← heq order]
    unfold sealClean
    simp only [if_pos hcarry]
  · -- the flushed line has text in it
    let anyOrder : HashMap.IterOrder CallIndex := ⟨id, fun _ => .refl _⟩
    cases hflushed : handleLine serde anyOrder { st with lineCarry := [] } st.lineCarry with
    | error e =>
        refine ⟨.error e, fun order => ?_, ?_⟩
        · unfold sealClean
          simp only [if_neg hcarry]
          rw [handleLine_text order anyOrder _ hcarry, hflushed]
          rfl
        · intro st₂ h
          cases h
    | ok r =>
        obtain ⟨st₁, out⟩ := r
        have htools₁ : st₁.tools = ({ st with lineCarry := [] } : OpenAiSseState).tools :=
          tools_handleLine anyOrder hcarry hflushed
        obtain ⟨flushed, heq, htools⟩ := hrest st₁ htools₁
        refine ⟨flushed, fun order => ?_, htools⟩
        rw [← heq order]
        unfold sealClean
        simp only [if_neg hcarry]
        rw [handleLine_text order anyOrder _ hcarry, hflushed]

/-- A clean end that goes through gives out one call at most, or fails anyway. -/
theorem sealClean_any_order {st : OpenAiSseState}
    (h : ∀ r, st.sealClean serde order = .ok r → SealsOne st) :
    st.sealClean serde order = st.sealClean serde order' := by
  obtain ⟨flushed, heq, htools⟩ := sealClean_eq serde st
  rw [heq order] at h
  rw [heq order, heq order']
  cases flushed with
  | error e => rfl
  | ok st₁ =>
      have hone : SealsOne st := h _ rfl
      have hwalk : (order.keys st₁.tools).filterMap (sealedCall st₁) =
          (order'.keys st₁.tools).filterMap (sealedCall st₁) := by
        apply HashMap.IterOrder.filterMap_keys
        intro k k'
        simp only [sealedCall, htools st₁ rfl]
        exact hone k k'
      simp only [Except.map, hwalk]

end OpenAiSseState

open InPlace Utf8

/-! ## The condition on a run -/

/-- Sealing the channel makes a sentence. -/
def Speaks (a : Assembly) (channel : TextChannel) : Prop :=
  ∃ s, a.channels.lookup channel = some s ∧ s.sealed.1 ≠ []

/-- The walk over the channels makes sentences on one channel at most. -/
def OneSpeaks (a : Assembly) : Prop :=
  ∀ channel channel', Speaks a channel → Speaks a channel' → channel = channel'

/-- The walk over the tools finds one open tool at most. -/
def OneOpen (a : Assembly) : Prop := ∀ id id', Unresolved a id → Unresolved a id' → id = id'

/-- The condition on an operation of the assembly. -/
def CalmFragment (a : Assembly) (op : EngineOp) : Prop :=
  op = .fragment .responseFinished → OneSpeaks a

section Conditions

variable (serde : SerdeJson) (orders : Iteration) (room : Option Nat) (request : StartInterpretation)

def CalmOps (a : Assembly) (ops : List EngineOp) : Prop :=
  ∀ p op q a', ops = p ++ op :: q →
    call (forEach (Owner.applyOp orders room request) p) a = (.ok (), a') → CalmFragment a' op

/-- The condition on a chunk of server-sent events that is within the limit. -/
def CalmDecode (d : Decoder) (chunk : List UInt8) : Prop :=
  request.family = .openAiChatCompletions →
    d.frameBuf.length + chunk.length ≤ request.limits.maxUndecodedBytes →
    OpenAiSseState.CalmBytes serde orders.calls d.openai (d.frameBuf ++ chunk)

/-- **The condition on a chunk**: on its bytes, and on what they are decoded to. -/
structure CalmChunk (o : Owner) (chunk : List UInt8) : Prop where
  decode : CalmDecode serde orders request o.decoder chunk
  ops : ∀ ops d, o.decoder.ingestChunk serde request.limits orders.calls request.family chunk =
    (.ok ops, d) → CalmOps orders room request o.assembly ops

/-- **The condition on a clean end**: on the walk over the calls, on the walk over the
channels once the last fragments are assembled, and on the quarantine of an end that
fails. -/
structure CalmSeal (o : Owner) : Prop where
  calls : request.family = .openAiChatCompletions →
    ∀ r, o.decoder.openai.sealClean serde orders.calls = .ok r → o.decoder.openai.SealsOne
  channels : ∀ ops d a, o.decoder.sealOps serde orders.calls request.family = (.ok ops, d) →
    call (forEach (Owner.applyOp orders room request) ops) o.assembly = (.ok (), a) → OneSpeaks a
  rest : ∀ e o', o.sealClean serde orders room request = (.error e, o') → OneOpen o'.assembly

def CalmEnd (o : Owner) : Stop → Prop
  | .finishClean => CalmSeal serde orders room request o
  | .dropped | .cancel | .transportFailed => OneOpen o.assembly

/-- **Every walk of the run gives out one entry at most.** -/
def Calm (o : Owner) : List InputCmd → Prop
  | .bytes chunk :: cmds =>
      let o := { o with sourceBytes := o.sourceBytes + chunk.length }
      CalmChunk serde orders room request o chunk ∧
        ∀ o', o.ingestBytes serde orders room request chunk = (.ok (), o') → Calm o' cmds
  | cmds => CalmEnd serde orders room request o (stopOf cmds)

end Conditions

/-! ## The walk over the channels -/

theorem sealed_silent {s : SentenceSegmenter} (h : s.sealed.1 = []) : s.sealed.2 = s := by
  obtain ⟨out, rest, hd⟩ := exists_drains s.buf
  have hseal : s.sealed = (out ++ lastSentence rest, { buf := afterSeal rest }) := by
    unfold SentenceSegmenter.sealed
    have hsome : s.sealAtCleanEnd = some (out ++ lastSentence rest, { buf := afterSeal rest }) :=
      hd.seal
    simp only [hsome, Option.get_some]
  rw [hseal] at h ⊢
  obtain ⟨rfl, hlast⟩ := List.append_eq_nil_iff.mp h
  have hwhite : trim rest = [] := by
    unfold lastSentence at hlast
    split at hlast
    · cases hlast
    · rename_i htrim
      exact Decidable.not_not.mp htrim
  obtain ⟨buf⟩ := s
  have hrest : rest = buf := by
    generalize hout : ([] : List CompletedSentence) = out at hd
    cases hd with
    | done => rfl
    | turn => cases hout
  subst hrest
  show ({ buf := if trim rest ≠ [] then [] else rest } : SentenceSegmenter) = { buf := rest }
  rw [if_neg (Decidable.not_not.mpr hwhite)]

section Channels

variable (room : Option Nat)

theorem sealChannel_silent {a : Assembly} {channel : TextChannel} (h : ¬ Speaks a channel) :
    call (sealChannel room channel) a = (.ok (), a) := by
  unfold sealChannel
  rw [call_get_bind]
  cases hl : a.channels.lookup channel with
  | none => rfl
  | some s =>
      have hsilent : s.sealed.1 = [] := by
        apply Decidable.byContradiction
        intro hne
        exact h ⟨s, hl, hne⟩
      simp only [hsilent, setChannel, call_modify_bind, List.map_nil, sealed_silent hsilent]
      rw [HashMap.put_self hl]
      rfl

theorem channels_emitSentences (channel : TextChannel) (contents : List Str) (a : Assembly) :
    (call (forEach (emitSentence room channel) contents) a).2.channels = a.channels := by
  have hmoves : Moves (fun a a' : Assembly => a'.channels = a.channels)
      (forEach (emitSentence room channel) contents) := by
    apply Moves.forEach
    · intro a
      rfl
    · intro a b c hab hbc
      exact hbc.trans hab
    · intro content _ a
      unfold emitSentence emitUnit
      simp only [call_get_bind, call_modify_bind, call_publish]
      split <;> rfl
  exact hmoves a

/-- Sealing one channel leaves the others. -/
theorem speaks_sealChannel {a : Assembly} {channel channel' : TextChannel}
    (hne : channel' ≠ channel) :
    Speaks (call (sealChannel room channel) a).2 channel' ↔ Speaks a channel' := by
  have hlookup : (call (sealChannel room channel) a).2.channels.lookup channel' =
      a.channels.lookup channel' := by
    unfold sealChannel
    rw [call_get_bind]
    cases hl : a.channels.lookup channel with
    | none => rfl
    | some s =>
        simp only [setChannel, call_modify_bind]
        rw [channels_emitSentences]
        show (a.channels.put channel s.sealed.2).lookup channel' = _
        rw [HashMap.lookup_put, if_neg hne]
  unfold Speaks
  rw [hlookup]

theorem OneSpeaks.any_order {a : Assembly} (h : OneSpeaks a)
    (order order' : HashMap.IterOrder TextChannel) :
    call (sealTextChannels room order) a = call (sealTextChannels room order') a := by
  unfold sealTextChannels
  rw [call_get_bind, call_get_bind]
  have hone : ∀ x ∈ order.keys a.channels, ∀ y ∈ order.keys a.channels,
      Speaks a x → Speaks a y → x = y := fun x _ y _ => h x y
  apply forEach_perm (order.keys_perm order' _) (order.nodup_keys _) hone
  · intro x _ hidle
    exact sealChannel_silent room hidle
  · intro r _ x _ hne hidle
    apply sealChannel_silent
    rw [speaks_sealChannel room hne]
    exact hidle

end Channels

/-! ## One command -/

section Run

variable {serde : SerdeJson} {orders : Iteration} {room : Option Nat}
  {request : StartInterpretation} (orders' : Iteration)

theorem CalmDecode.any_order {d : Decoder} {chunk : List UInt8}
    (h : CalmDecode serde orders request d chunk)
    (hd : d.openai.choiceIndex = OpenAiSseState.defaultChoiceIndex) :
    d.ingestChunk serde request.limits orders.calls request.family chunk =
      d.ingestChunk serde request.limits orders'.calls request.family chunk := by
  unfold Decoder.ingestChunk
  by_cases hlong : request.limits.maxUndecodedBytes < d.frameBuf.length + chunk.length
  · rw [if_pos hlong, if_pos hlong]
  · rw [if_neg hlong, if_neg hlong]
    cases hfamily : request.family with
    | openAiChatCompletions =>
        have hpush := (h hfamily (Nat.le_of_not_lt hlong)).any_order orders.calls orders'.calls hd
        simp only [Decoder.ingestOpenAiChat, hpush]
    | _ => rfl

theorem choiceIndex_ingestChunk {order : HashMap.IterOrder CallIndex} {d d' : Decoder}
    {chunk : List UInt8} {ops : List EngineOp}
    (h : d.ingestChunk serde request.limits order request.family chunk = (.ok ops, d')) :
    d'.openai.choiceIndex = d.openai.choiceIndex := by
  unfold Decoder.ingestChunk at h
  split at h
  · cases h
  · cases hfamily : request.family with
    | test =>
        simp only [hfamily, Decoder.ingestTestText] at h
        split at h <;> (cases h; rfl)
    | acp | grokBuild | cursorAcp | agyAcp | codexAcp =>
        simp only [hfamily, Decoder.ingestAcp] at h
        split at h
        · cases h
        · split at h
          · cases h
          · cases h
            rfl
    | zaiCli =>
        simp only [hfamily, Decoder.ingestZaiCli, Decoder.ingestLines] at h
        split at h
        · cases h
        · cases h
          rfl
    | claudeCode =>
        simp only [hfamily, Decoder.ingestClaudeCode, Decoder.ingestLines] at h
        split at h
        · cases h
        · cases h
          rfl
    | openAiChatCompletions =>
        simp only [hfamily, Decoder.ingestOpenAiChat] at h
        split at h
        · cases h
        · split at h
          · cases h
          · rename_i openai frags hpush
            cases h
            unfold OpenAiSseState.pushBytes at hpush
            split at hpush
            · cases hpush
              rfl
            · exact Transducer.run_invariant (P := fun st => st.choiceIndex = d.openai.choiceIndex)
                (fun _ _ _ _ hs hb => (OpenAiSseState.choiceIndex_pushByte order hb).trans hs) rfl
                hpush
    | openAiResponses | anthropicMessages | other name =>
        simp only [hfamily] at h
        cases h

theorem CalmFragment.any_order {a : Assembly} {op : EngineOp} (h : CalmFragment a op) :
    call (Owner.applyOp orders room request op) a =
      call (Owner.applyOp orders' room request op) a := by
  cases op with
  | startResponse => rfl
  | fragment frag =>
      cases frag with
      | responseFinished =>
          show call (sealTextChannels room orders.channels >>= _) a =
            call (sealTextChannels room orders'.channels >>= _) a
          rw [call_bind, call_bind, (h rfl).any_order room orders.channels orders'.channels]
      | textDelta channel text => rfl
      | tool id signal => rfl
      | diagnostic message => rfl

theorem CalmOps.any_order {a : Assembly} {ops : List EngineOp}
    (h : CalmOps orders room request a ops) :
    call (forEach (Owner.applyOp orders room request) ops) a =
      call (forEach (Owner.applyOp orders' room request) ops) a :=
  forEach_congr fun p op q a' hops hp => (h p op q a' hops hp).any_order orders'

theorem CalmChunk.any_order {o : Owner} {chunk : List UInt8}
    (h : CalmChunk serde orders room request o chunk)
    (hd : o.decoder.openai.choiceIndex = OpenAiSseState.defaultChoiceIndex) :
    o.ingestBytes serde orders room request chunk =
      o.ingestBytes serde orders' room request chunk := by
  unfold Owner.ingestBytes
  rw [← h.decode.any_order orders' hd]
  rcases hin : o.decoder.ingestChunk serde request.limits orders.calls request.family chunk with
    ⟨e | ops, d⟩
  · rfl
  · have hops := (h.ops ops d hin).any_order orders'
    simp only [Owner.assemble, hops]

theorem choiceIndex_ingestBytes {o o' : Owner} {chunk : List UInt8}
    (h : o.ingestBytes serde orders room request chunk = (.ok (), o')) :
    o'.decoder.openai.choiceIndex = o.decoder.openai.choiceIndex := by
  unfold Owner.ingestBytes at h
  rcases hin : o.decoder.ingestChunk serde request.limits orders.calls request.family chunk with
    ⟨e | ops, d⟩
  · rw [hin] at h
    cases h
  · rw [hin] at h
    have hdecoder : o'.decoder = d := by
      have hstate := congrArg (fun r => r.2.decoder) h
      exact hstate.symm
    rw [hdecoder]
    exact choiceIndex_ingestChunk hin

/-- The fragments of a clean end tell of tools only. -/
theorem CalmSeal.any_order {o : Owner} (h : CalmSeal serde orders room request o) :
    o.sealClean serde orders room request = o.sealClean serde orders' room request := by
  have hops : o.decoder.sealOps serde orders.calls request.family =
      o.decoder.sealOps serde orders'.calls request.family := by
    unfold Decoder.sealOps
    cases hfamily : request.family with
    | openAiChatCompletions =>
        have hcalls := OpenAiSseState.sealClean_any_order orders.calls orders'.calls (h.calls hfamily)
        simp only [hcalls]
    | _ => rfl
  unfold Owner.sealClean
  rw [← hops]
  rcases hseal : o.decoder.sealOps serde orders.calls request.family with ⟨e | ops, d⟩
  · rfl
  · have hcalm : CalmOps orders room request o.assembly ops := by
      rintro p op q a' rfl - rfl
      obtain ⟨id, name, waitingFor, htool⟩ :=
        sealOps_waiting serde orders hseal (.fragment .responseFinished) (by simp)
      cases htool
    have hall : call (Owner.sealAll orders room request ops) o.assembly =
        call (Owner.sealAll orders' room request ops) o.assembly := by
      unfold Owner.sealAll
      rw [call_bind, call_bind, ← hcalm.any_order orders']
      rcases hrun : call (forEach (Owner.applyOp orders room request) ops) o.assembly with
        ⟨e | u, a⟩
      · rfl
      · exact (h.channels ops d a hseal hrun).any_order room orders.channels orders'.channels
    simp only [Owner.assemble, hall]

/-- The open tools are told alike when there is one at most. -/
theorem units_quarantineAndFinish {o : Owner} (h : OneOpen o.assembly)
    (kind : InterpretationEndKind) :
    unitsOf (o.quarantineAndFinish orders room kind).assembly.published =
      unitsOf (o.quarantineAndFinish orders' room kind).assembly.published := by
  have hevents : interruptEvents orders o.assembly = interruptEvents orders' o.assembly := by
    apply HashMap.IterOrder.filterMap_keys
    intro id id' hid hid'
    exact h id id' (interruptEvent_isSome.mp hid) (interruptEvent_isSome.mp hid')
  have hunits : ∀ orders : Iteration,
      unitsOf (o.quarantineAndFinish orders room kind).assembly.published =
        unitsOf (o.assembly.published ++
          accepted room o.assembly (interruptEvents orders o.assembly)) := by
    intro orders
    unfold Owner.quarantineAndFinish
    rw [units_finish]
    exact congrArg unitsOf (call_quarantine orders room o.decoder.frameBuf.length o.assembly).1
  rw [hunits orders, hunits orders', hevents]

theorem Calm.units {o : Owner} {cmds : List InputCmd} (h : Calm serde orders room request o cmds)
    (hd : o.decoder.openai.choiceIndex = OpenAiSseState.defaultChoiceIndex) :
    unitsOf (o.run serde orders room request cmds).assembly.published =
      unitsOf (o.run serde orders' room request cmds).assembly.published := by
  induction cmds generalizing o with
  | nil => exact units_quarantineAndFinish orders' h _
  | cons cmd cmds ih =>
      cases cmd with
      | bytes chunk =>
          obtain ⟨hchunk, hrest⟩ := h
          simp only [Owner.run]
          rw [← hchunk.any_order orders' hd]
          rcases hin : Owner.ingestBytes serde orders room request
            { o with sourceBytes := o.sourceBytes + chunk.length } chunk with ⟨e | u, o'⟩
          · rfl
          · exact ih (hrest o' hin) ((choiceIndex_ingestBytes hin).trans hd)
      | finishClean =>
          have hseal : CalmSeal serde orders room request o := h
          simp only [Owner.run]
          rw [← hseal.any_order orders']
          rcases hclean : o.sealClean serde orders room request with ⟨e | u, o'⟩
          · exact units_quarantineAndFinish orders' (hseal.rest e o' hclean) _
          · rfl
      | cancel => exact units_quarantineAndFinish orders' h _
      | transportFailed => exact units_quarantineAndFinish orders' h _

end Run

/-- **A calm run publishes the same units under every iteration order.** -/
theorem units_of_calm {serde : SerdeJson} {orders : Iteration} {room : Option Nat}
    {request : StartInterpretation} {cmds : List InputCmd}
    (h : Calm serde orders room request (Owner.new request) cmds) (orders' : Iteration) :
    unitsOf ((Owner.new request).run serde orders room request cmds).assembly.published =
      unitsOf ((Owner.new request).run serde orders' room request cmds).assembly.published :=
  h.units orders' rfl

/-! ## One tool and two -/

section Samples

def reversedOrder (κ : Type) : HashMap.IterOrder κ := ⟨List.reverse, List.reverse_perm⟩

/-- Every map from its last entry to its first. -/
def reversedOrders : Iteration := ⟨reversedOrder _, reversedOrder _, reversedOrder _⟩

/-- The ACP dialect, with a tool call taken in. -/
def sampleToolTaken : Except InterpreterError Unit × Owner :=
  { Owner.new (sampleRequest .acp) with
    sourceBytes := (bytes sampleToolCallText.toList).length }.ingestBytes
      (readerOf sampleToolCallText sampleToolCall) entryOrders none (sampleRequest .acp)
      (bytes sampleToolCallText.toList)

/-- One open tool, and a cancel. -/
theorem units_of_calm_cancelled :
    unitsOf (sampleToolRun [.cancel]).assembly.published =
      unitsOf ((Owner.new (sampleRequest .acp)).run (readerOf sampleToolCallText sampleToolCall)
        reversedOrders none (sampleRequest .acp)
        [.bytes (bytes sampleToolCallText.toList), .cancel]).assembly.published := by
  have hops : ((((Owner.new (sampleRequest .acp)).decoder.ingestChunk
      (readerOf sampleToolCallText sampleToolCall) (sampleRequest .acp).limits entryOrders.calls .acp
      (bytes sampleToolCallText.toList)).1.toOption.getD []).all
        fun op => op ≠ .fragment .responseFinished) = true := by
    decide +kernel
  have hkeys : sampleToolTaken.2.assembly.tools.keys = [⟨"a"⟩] := by decide +kernel
  have hcalm : Calm (readerOf sampleToolCallText sampleToolCall) entryOrders none
      (sampleRequest .acp) (Owner.new (sampleRequest .acp))
      [.bytes (bytes sampleToolCallText.toList), .cancel] := by
    refine ⟨⟨?_, ?_⟩, ?_⟩
    · intro hfamily
      cases hfamily
    · intro ops d hin p op q a' hsplit _ hfinished
      replace hin : (Owner.new (sampleRequest .acp)).decoder.ingestChunk
        (readerOf sampleToolCallText sampleToolCall) (sampleRequest .acp).limits entryOrders.calls
        .acp (bytes sampleToolCallText.toList) = (.ok ops, d) := hin
      rw [hin] at hops
      have hnot := List.all_eq_true.mp hops op (by
        show op ∈ ops
        rw [hsplit]
        simp)
      exact absurd hfinished (of_decide_eq_true hnot)
    · intro o' hin id id' hid hid'
      replace hin : sampleToolTaken = (.ok (), o') := hin
      rw [hin] at hkeys
      have hmem : ∀ id, Unresolved o'.assembly id → id = ⟨"a"⟩ := by
        rintro id ⟨tool, hl, -⟩
        have hk : id ∈ o'.assembly.tools.keys := (HashMap.mem_keys_iff _ _).mpr ⟨tool, hl⟩
        rw [hkeys] at hk
        exact List.mem_singleton.mp hk
      rw [hmem id hid, hmem id' hid']
  exact units_of_calm hcalm reversedOrders

/-- A message of `claude_code` that uses two tools. -/
def twoTools : Json :=
  .object [("type", .string "assistant"), ("message", .object [("content", .array
    [.object [("type", .string "tool_use"), ("id", .string "a"), ("name", .string "read")],
      .object [("type", .string "tool_use"), ("id", .string "b"), ("name", .string "read")]])])]

def twoToolsText : String :=
  "\x7b\"type\":\"assistant\",\"message\":\x7b\"content\":[" ++
    "\x7b\"type\":\"tool_use\",\"id\":\"a\",\"name\":\"read\"\x7d," ++
    "\x7b\"type\":\"tool_use\",\"id\":\"b\",\"name\":\"read\"\x7d]\x7d\x7d"

/-- **Two open tools are told incomplete in the order of the map.** -/
theorem order_seen :
    ¬ ∀ (serde : SerdeJson) (orders orders' : Iteration) (room : Option Nat)
      (request : StartInterpretation) (cmds : List InputCmd),
      unitsOf ((Owner.new request).run serde orders room request cmds).assembly.published =
        unitsOf ((Owner.new request).run serde orders' room request cmds).assembly.published := by
  intro h
  have hunits := congrArg (List.map fun e => e.snapshot.unitId)
    (h (readerOf twoToolsText twoTools) entryOrders reversedOrders none (sampleRequest .claudeCode)
      [.bytes (bytes (twoToolsText ++ "\n").toList), .cancel])
  revert hunits
  decide +kernel

end Samples

end Monoloop.Interpreter
