import Monoloop.Interpreter.SseGrammar
import Monoloop.Interpreter.Speech
import Monoloop.Interpreter.Chunking

/-!
# From spelled text to told sentences

The path of an ordinary answer, end to end. A server spells text chunks as events;
the bytes arrive cut anywhere; the run ends complete, and the sentences it tells are
the text of the chunks (`spelled_text_told`). The bounds of the reader are the only
conditions.
-/

namespace Monoloop.Interpreter

open InPlace Transducer Utf8

/-! ## Chunks of text -/

/-- The choices of a chunk. -/
def chunkChoices (value : Json) : List Json := ((value.get? "choices").bind Json.asArray).getD []

/-- The text a choice adds, when it is the selected one. -/
def choiceText (choice : Json) : Str :=
  if OpenAiSseState.indexOf choice = OpenAiSseState.defaultChoiceIndex then
    (((choice.get? "delta").bind (Json.str? "content")).map String.toList).getD []
  else []

/-- The text a chunk adds. -/
def chunkText (value : Json) : Str := (chunkChoices value).flatMap choiceText

/-- The text of some payloads. -/
def payloadsText (serde : SerdeJson) (payloads : List String) : Str :=
  payloads.flatMap fun payload => ((serde.fromStr payload).map chunkText).getD []

/-- A choice of an answer without tools. -/
structure PlainChoice (choice : Json) : Prop where
  untooled : ∀ delta, choice.get? "delta" = some delta →
    (delta.get? "tool_calls").bind Json.asArray = none
  finish : ∀ reason, choice.str? "finish_reason" = some reason →
    reason ∈ ["stop", "length", "content_filter", "null"]

/-- A chunk of an answer without tools. -/
def PlainChunk (value : Json) : Prop :=
  ∀ choice ∈ chunkChoices value,
    OpenAiSseState.indexOf choice = OpenAiSseState.defaultChoiceIndex → PlainChoice choice

/-- The text of fragments that are nothing else. -/
inductive Texts : Str → List AcpFragment → Prop where
  | nil : Texts [] []
  | cons {text frags} (delta : String) : Texts text frags →
      Texts (delta.toList ++ text) (.textDelta .publicResponse delta :: frags)

theorem Texts.append {s t : Str} {p q : List AcpFragment} (hs : Texts s p) (ht : Texts t q) :
    Texts (s ++ t) (p ++ q) := by
  induction hs with
  | nil => exact ht
  | cons delta _ ih =>
      rw [List.append_assoc]
      exact .cons delta ih

namespace OpenAiSseState

variable {serde : SerdeJson} {order : HashMap.IterOrder CallIndex} {st : OpenAiSseState}

/-- A step that leaves the state and gives out the text of its symbol, repeated. -/
theorem run_texts {α : Type} {step : Step OpenAiSseState α InterpreterError AcpFragment}
    {text : α → Str} {xs : List α}
    (hstep : ∀ x ∈ xs, ∃ frags, step st x = .ok (st, frags) ∧ Texts (text x) frags) :
    ∃ frags, run step st xs = .ok (st, frags) ∧ Texts (xs.flatMap text) frags := by
  induction xs with
  | nil => exact ⟨[], rfl, .nil⟩
  | cons x xs ih =>
      obtain ⟨frags, hx, htext⟩ := hstep x List.mem_cons_self
      obtain ⟨frags', hxs, htexts⟩ := ih (fun y hy => hstep y (List.mem_cons_of_mem _ hy))
      refine ⟨frags ++ frags', ?_, htext.append htexts⟩
      rw [run, hx]
      simp only [andThen, hxs]

theorem onContent_text (st : OpenAiSseState) (delta : Json) :
    ∃ frags, onContent st delta = .ok (st, frags) ∧
      Texts (((delta.str? "content").map String.toList).getD []) frags := by
  unfold onContent
  cases delta.str? "content" with
  | none => exact ⟨[], rfl, .nil⟩
  | some content =>
      by_cases hempty : content = ""
      · subst hempty
        exact ⟨[], rfl, .nil⟩
      · refine ⟨[.textDelta .publicResponse content], if_neg hempty, ?_⟩
        have htext := Texts.cons content .nil
        rwa [List.append_nil] at htext

theorem onFinishReason_plain {reason : String}
    (h : reason ∈ ["stop", "length", "content_filter", "null"]) :
    onFinishReason serde order st reason = .ok (st, []) := by
  have hcalls : reason ≠ "tool_calls" := by
    rintro rfl
    revert h
    decide
  simp only [List.mem_cons, List.not_mem_nil, or_false] at h
  rw [onFinishReason, if_neg hcalls, if_pos h]

theorem onChoice_text (hindex : st.choiceIndex = defaultChoiceIndex) {choice : Json}
    (hplain : indexOf choice = defaultChoiceIndex → PlainChoice choice) :
    ∃ frags, onChoice serde order st choice = .ok (st, frags) ∧
      Texts (choiceText choice) frags := by
  unfold onChoice choiceText
  rw [hindex]
  by_cases hselected : indexOf choice = defaultChoiceIndex
  · obtain ⟨huntooled, hfinish⟩ := hplain hselected
    rw [if_neg (not_not.mpr hselected), if_pos hselected]
    obtain ⟨frags, hdelta, htext⟩ : ∃ frags, (choice.get? "delta").elim
        (.ok (st, [])) (onDelta st) = .ok (st, frags) ∧
        Texts ((((choice.get? "delta").bind (Json.str? "content")).map String.toList).getD [])
          frags := by
      cases hd : choice.get? "delta" with
      | none => exact ⟨[], rfl, .nil⟩
      | some delta =>
          obtain ⟨frags, hcontent, htext⟩ := onContent_text st delta
          refine ⟨frags, ?_, htext⟩
          simp only [Option.elim, onDelta, hcontent, andThen, huntooled delta hd, List.append_nil]
    refine ⟨frags, ?_, htext⟩
    cases hd : choice.get? "delta" with
    | none =>
        rw [hd] at hdelta
        cases hdelta
        cases hr : choice.str? "finish_reason" with
        | none => rfl
        | some reason => simp only [andThen_ok_nil, onFinishReason_plain (hfinish reason hr)]
    | some delta =>
        rw [hd] at hdelta
        replace hdelta : onDelta st delta = .ok (st, frags) := hdelta
        cases hr : choice.str? "finish_reason" with
        | none => simp only [hdelta, andThen, List.append_nil]
        | some reason =>
            simp only [hdelta, andThen, onFinishReason_plain (hfinish reason hr), List.append_nil]
  · rw [if_pos hselected, if_neg hselected]
    exact ⟨[], rfl, .nil⟩

/-- **A plain chunk gives out its text.** -/
theorem mapChunk_text (hindex : st.choiceIndex = defaultChoiceIndex) {value : Json}
    (hplain : PlainChunk value) :
    ∃ frags, mapChunk serde order st value = .ok (st, frags) ∧ Texts (chunkText value) frags := by
  unfold mapChunk chunkText
  cases hchoices : (value.get? "choices").bind Json.asArray with
  | none =>
      refine ⟨[], rfl, ?_⟩
      rw [chunkChoices, hchoices]
      exact .nil
  | some choices =>
      have hall : chunkChoices value = choices := by rw [chunkChoices, hchoices]; rfl
      rw [hall]
      apply run_texts
      intro choice hmem
      exact onChoice_text hindex (fun h => hplain choice (hall ▸ hmem) h)

theorem run_payloads (hindex : st.choiceIndex = defaultChoiceIndex) {payloads : List String}
    (hplain : ∀ payload ∈ payloads, ∃ value, serde.fromStr payload = some value ∧
      PlainChunk value) :
    ∃ frags, run (mapDataJson serde order) st payloads = .ok (st, frags) ∧
      Texts (payloadsText serde payloads) frags := by
  apply run_texts
  intro payload hmem
  obtain ⟨value, hvalue, hchunk⟩ := hplain payload hmem
  obtain ⟨frags, hmap, htext⟩ := @mapChunk_text serde order st hindex value hchunk
  refine ⟨frags, ?_, ?_⟩
  · rw [mapDataJson, hvalue]
    exact hmap
  · rw [hvalue]
    exact htext

end OpenAiSseState

/-! ## The decoder -/

/-- Events of short chunks are decoded by their assembler alone. -/
theorem decodeAll_events (serde : SerdeJson) (orders : Iteration) (limits : InterpretationLimits)
    {d : Decoder} (hbuf : d.frameBuf = []) {chunks : List (List UInt8)}
    (hshort : ∀ chunk ∈ chunks, chunk.length ≤ limits.maxUndecodedBytes) :
    decodeAll serde orders ⟨.openAiChatCompletions, limits⟩ d chunks =
      ((d.openai.decode serde orders.calls chunks).1.flatMap fun frag => frameOps [frag],
        (d.openai.decode serde orders.calls chunks).2.map fun openai => { openai }) := by
  induction chunks generalizing d with
  | nil =>
      cases d
      subst hbuf
      rfl
  | cons chunk chunks ih =>
      have hchunk : ¬ limits.maxUndecodedBytes < chunk.length :=
        Nat.not_lt.mpr (hshort chunk List.mem_cons_self)
      have hrest := fun (d : Decoder) (h : d.frameBuf = []) =>
        ih h (fun c hc => hshort c (List.mem_cons_of_mem _ hc))
      rw [decodeAll, OpenAiSseState.decode, Decoder.ingestChunk,
        if_neg (by simpa [hbuf] using hchunk)]
      simp only [Decoder.ingestOpenAiChat, hbuf, List.nil_append, if_neg hchunk]
      cases d.openai.pushBytes serde orders.calls chunk with
      | error e => rfl
      | ok r =>
          simp only [hrest { openai := r.1 } rfl, List.flatMap_append]

/-! ## The assembly -/

/-- What an answer without tools asks of the assembly. -/
def EngineOp.Speaks (op : EngineOp) : Prop :=
  op = .startResponse ∨ ∃ channel text, op = .fragment (.textDelta channel text)

theorem speaks_of_texts {text : Str} {frags : List AcpFragment} (h : Texts text frags) :
    (∀ op ∈ frags.flatMap (fun frag => frameOps [frag]), op.Speaks) ∧
      heardOn .publicResponse (frags.flatMap fun frag => frameOps [frag]) = text ∧
      ∀ channel, channel ≠ .publicResponse →
        heardOn channel (frags.flatMap fun frag => frameOps [frag]) = [] := by
  induction h with
  | nil => exact ⟨by simp, rfl, fun _ _ => rfl⟩
  | @cons text frags delta _ ih =>
      obtain ⟨hspeaks, hheard, hother⟩ := ih
      have hcons : (AcpFragment.textDelta .publicResponse delta :: frags).flatMap
          (fun frag => frameOps [frag]) =
          [.startResponse, .fragment (.textDelta .publicResponse delta)] ++
            frags.flatMap fun frag => frameOps [frag] := rfl
      rw [hcons]
      refine ⟨?_, ?_, ?_⟩
      · intro op hop
        rcases List.mem_append.mp hop with hop | hop
        · simp only [List.mem_cons, List.not_mem_nil, or_false] at hop
          rcases hop with rfl | rfl
          · exact .inl rfl
          · exact .inr ⟨_, _, rfl⟩
        · exact hspeaks op hop
      · rw [heardOn_append, hheard]
        simp [heardOn, EngineOp.heardOn]
      · intro channel hchannel
        rw [heardOn_append, hother channel hchannel]
        simp [heardOn, EngineOp.heardOn, Ne.symm hchannel]

/-- A receiver that stays. -/
theorem not_gone (a : Assembly) : ¬ Gone none a := by simp [Gone]

theorem notice_accepted (notice : Notice) :
    Triple (fun _ => True) (emitUnit none notice.idPrefix .response (fun _ => notice.unit))
      (fun _ _ => True) (fun _ => False) := by
  intro a _
  rcases @emitNotice_cases none notice a with ⟨hgone, -⟩ | ⟨-, hcall⟩
  · exact absurd hgone (not_gone a)
  · rw [hcall]
    trivial

theorem emitSentences_accepted (channel : TextChannel) (contents : List Str) :
    Triple (fun _ => True) (forEach (emitSentence none channel) contents) (fun _ _ => True)
      (fun _ => False) := by
  refine Triple.forEach (I := fun _ _ => True) ?_
  intro done content todo _ a _
  rcases @emitSentence_cases none channel content a with ⟨hgone, -⟩ | ⟨-, hcall⟩
  · exact absurd hgone (not_gone a)
  · rw [hcall]
    trivial

theorem sealTextChannels_accepted (channelOrder : HashMap.IterOrder TextChannel) :
    Triple (fun _ => True) (sealTextChannels none channelOrder) (fun _ _ => True)
      (fun _ => False) := by
  refine triple_get (fun a _ => ?_)
  refine Triple.consequence (Triple.forEach (I := fun _ _ => True) ?_) (fun _ _ => trivial)
    (fun _ _ h => h) (fun _ h => h)
  intro done channel todo _
  refine triple_get (fun b _ => ?_)
  cases b.channels.lookup channel with
  | none => exact triple_pure (fun _ _ => trivial)
  | some s =>
      exact (triple_modify (Q := fun _ _ => True) (fun _ _ => trivial)).bind
        (fun _ => emitSentences_accepted channel _)

/-- **Text within the bound is accepted.** -/
theorem onText_accepted (limits : InterpretationLimits) {heard : Hearing} {channel : TextChannel}
    {text : String}
    (hbound : (bytes (heard channel ++ text.toList)).length ≤ limits.maxSentenceAssemblyBytes) :
    Triple (Spoken heard) (onText none limits channel text) (fun _ _ => True) (fun _ => False) := by
  refine triple_get (fun a ha => ?_)
  have hbuffer : ((a.channels.lookup channel).getD .new).buf = bufferOn channel a := by
    unfold bufferOn
    cases a.channels.lookup channel with
    | none => rfl
    | some s => rfl
  -- the buffer is the end of what was heard
  obtain ⟨told, htold⟩ := (ha channel).rest_suffix
  have hroom : ¬ limits.maxSentenceAssemblyBytes <
      ((a.channels.lookup channel).getD .new).bufferedBytes + text.utf8ByteSize := by
    rw [SentenceSegmenter.bufferedBytes, hbuffer, ← length_bytes]
    rw [← htold, List.append_assoc, bytes_append, bytes_append, List.length_append,
      List.length_append] at hbound
    omega
  simp only
  rw [if_neg hroom]
  exact (triple_modify (Q := fun _ _ => True) (fun _ _ => trivial)).bind
    (fun _ => emitSentences_accepted channel _)

section Accepted

variable {orders : Iteration} {request : StartInterpretation}

theorem applyOp_accepted {op : EngineOp} (hop : op.Speaks) {heard : Hearing}
    (hbound : ∀ channel, (bytes (hear heard [op] channel)).length ≤
      request.limits.maxSentenceAssemblyBytes) :
    Triple (Spoken heard) (Owner.applyOp orders none request op)
      (fun _ => Spoken (hear heard [op])) (fun _ => False) := by
  have haccepted : Triple (Spoken heard) (Owner.applyOp orders none request op)
      (fun _ _ => True) (fun _ => False) := by
    rcases hop with rfl | ⟨channel, text, rfl⟩
    · refine triple_get (fun a _ => ?_)
      split
      · exact triple_pure (fun _ _ => trivial)
      · exact Triple.bind (triple_modify (Q := fun _ _ => True) (fun _ _ => trivial))
          (fun _ => notice_accepted (.boundary .responseStarted))
    · apply onText_accepted
      have hchannel := hbound channel
      simpa [hear, heardOn, EngineOp.heardOn] using hchannel
  exact ((@triple_applyOp none orders request op heard).and haccepted).consequence
    (fun _ h => ⟨h, h⟩) (fun _ _ h => h.1) (fun _ h => h.2)

/-- **An answer without tools within the bound is accepted.** -/
theorem applyOps_accepted {ops : List EngineOp} (hops : ∀ op ∈ ops, op.Speaks) {heard : Hearing}
    (hbound : ∀ channel, (bytes (hear heard ops channel)).length ≤
      request.limits.maxSentenceAssemblyBytes) :
    Triple (Spoken heard) (forEach (Owner.applyOp orders none request) ops)
      (fun _ => Spoken (hear heard ops)) (fun _ => False) := by
  refine Triple.consequence (P := Spoken (hear heard []))
    (Triple.forEach (I := fun done => Spoken (hear heard done)) ?_)
    (fun a ha => by rwa [hear_nil]) (fun _ _ h => h) (fun _ h => h)
  intro done op todo hsplit
  have hop : op.Speaks := hops op (by rw [hsplit]; simp)
  refine (applyOp_accepted hop (fun channel => ?_)).consequence (fun _ h => h)
    (fun _ a h => by rwa [hear_append]) (fun _ h => h)
  have hall := hbound channel
  rw [hsplit, List.append_cons, hear_append, hear_append] at hall
  rw [hear, bytes_append, List.length_append] at hall
  omega

end Accepted

/-! ## The run -/

theorem chunksOf_clean (chunks : List (List UInt8)) :
    chunksOf (chunks.map .bytes ++ [.finishClean]) = chunks ∧
      stopOf (chunks.map .bytes ++ [.finishClean]) = .finishClean := by
  induction chunks with
  | nil => exact ⟨rfl, rfl⟩
  | cons chunk chunks ih => exact ⟨congrArg (chunk :: ·) ih.1, ih.2⟩

/-- A run whose operations are accepted, and whose decoder and channels can be sealed,
ends complete. -/
theorem run_accepted (serde : SerdeJson) (orders : Iteration) (request : StartInterpretation)
    {chunks : List (List UInt8)} {ops : List EngineOp} {d d' : Decoder}
    (hdecoded : decodeAll serde orders request (Owner.new request).decoder chunks = (ops, .ok d))
    (hseal : d.sealOps serde orders.calls request.family = (.ok [], d'))
    (hops : ∀ op ∈ ops, op.Speaks)
    (hbound : ∀ channel, (bytes (heardOn channel ops)).length ≤
      request.limits.maxSentenceAssemblyBytes) :
    ((Owner.new request).run serde orders none request
      (chunks.map .bytes ++ [.finishClean])).completion.map InterpretationEnd.kind =
        some .complete := by
  obtain ⟨hchunks, hstop⟩ := chunksOf_clean chunks
  have hempty : Spoken (fun _ => []) ({} : Assembly) := fun _ => .start []
  have htriple := @applyOps_accepted orders request ops hops (fun _ => [])
    (fun channel => by simpa [hear] using hbound channel)
  obtain ⟨hassembly, hended, -, hresult, hdecoder⟩ :=
    (Owner.new request).ingestAll_eq serde orders none request chunks
  rw [hdecoded] at hassembly hresult hdecoder
  rcases hin : (Owner.new request).ingestAll serde orders none request chunks with ⟨result, o⟩
  rw [hin] at hassembly hended hresult hdecoder
  rcases hcall : call (forEach (Owner.applyOp orders none request) ops) (Owner.new request).assembly
    with ⟨e | _, a⟩
  · exact absurd (htriple.error hempty hcall) id
  · rw [hcall] at hassembly hresult
    replace hresult : result = .ok () := hresult
    subst hresult
    have hd : d = o.decoder := by simpa using hdecoder rfl
    subst hd
    rw [Owner.run_eq, hchunks, hstop, hin]
    simp only [Owner.close, Owner.sealClean, hseal, Owner.assemble]
    rcases hall : call (Owner.sealAll orders none request []) o.assembly with ⟨e | _, a'⟩
    · exact absurd ((sealTextChannels_accepted orders.channels).error trivial hall) id
    · obtain ⟨report, hreport, hkind⟩ := @Owner.completion_finish none
        { o with decoder := d', assembly := a' } hended .complete
      simp only [hreport, Option.map_some, hkind]

/-- **An ordinary answer, end to end.** However a server spells text chunks as events
and wherever their bytes are cut, within the bounds the run ends complete, and the
sentences it tells are the text of the chunks, nothing but white space left out. -/
theorem spelled_text_told (serde : SerdeJson) (orders : Iteration) (limits : InterpretationLimits)
    (events : List SseEvent) (done : SseEvent) (chunks : List (List UInt8))
    (hfits : ∀ event ∈ events ++ [done], event.Fits (max (min limits.maxFrameBytes (64 * 1024)) 64)
      (max limits.maxFrameBytes 64))
    (hmid : ∀ event ∈ events, event.isDone = false) (hdone : done.isDone = true)
    (hcut : chunks.flatten = spellStream (events ++ [done]))
    (hshort : ∀ chunk ∈ chunks, chunk.length ≤ limits.maxUndecodedBytes)
    (hplain : ∀ payload ∈ events.filterMap SseEvent.payload?,
      ∃ value, serde.fromStr payload = some value ∧ PlainChunk value)
    (hbound : (bytes (payloadsText serde (events.filterMap SseEvent.payload?))).length ≤
      limits.maxSentenceAssemblyBytes) :
    let request : StartInterpretation := ⟨.openAiChatCompletions, limits⟩
    let final := (Owner.new request).run serde orders none request
      (chunks.map .bytes ++ [.finishClean])
    final.completion.map InterpretationEnd.kind = some .complete ∧
      Sentences (payloadsText serde (events.filterMap SseEvent.payload?))
        (toldOn .publicResponse final.assembly.published) [] := by
  intro request final
  have hst : OpenAiSseState.Between (max (min limits.maxFrameBytes (64 * 1024)) 64)
      (max limits.maxFrameBytes 64) (Owner.new request).decoder.openai :=
    OpenAiSseState.between_new _ _ _
  obtain ⟨frags, hsaid, htexts⟩ := @OpenAiSseState.run_payloads serde orders.calls
    (Owner.new request).decoder.openai rfl _ hplain
  have hends : EndsLast (OpenAiSseState.pushByte serde orders.calls) OpenAiSseState.sawDone
      (Owner.new request).decoder.openai chunks.flatten := by
    rw [hcut]
    exact OpenAiSseState.endsLast_spellStream hst rfl hfits hmid
  have hrun : run (OpenAiSseState.pushByte serde orders.calls) (Owner.new request).decoder.openai
      chunks.flatten =
        .ok ({ (Owner.new request).decoder.openai with sawDone := true }, frags) := by
    rw [hcut, OpenAiSseState.run_spelled hst hfits hmid hdone, hsaid]
    simp [andThen]
  have hdecode : OpenAiSseState.decode serde orders.calls (Owner.new request).decoder.openai
      chunks = (frags, .ok { (Owner.new request).decoder.openai with sawDone := true }) := by
    rw [OpenAiSseState.decode_eq_feed]
    exact hends.feed_ok hrun
  obtain ⟨hspeaks, hheard, hother⟩ := speaks_of_texts htexts
  have hdecoded : decodeAll serde orders request (Owner.new request).decoder chunks =
      (frags.flatMap fun frag => frameOps [frag],
        .ok { openai := { (Owner.new request).decoder.openai with sawDone := true } }) := by
    have hall := @decodeAll_events serde orders limits (Owner.new request).decoder rfl chunks hshort
    rw [hdecode] at hall
    exact hall
  have hsealed : Decoder.sealOps serde orders.calls request.family
      { openai := { (Owner.new request).decoder.openai with sawDone := true } } =
        (.ok [], { openai := { (Owner.new request).decoder.openai with sawDone := true } }) := by
    have hseal := @OpenAiSseState.sealClean_done serde orders.calls _ _
      { (Owner.new request).decoder.openai with sawDone := true }
      ⟨hst.carry, hst.lines, hst.maxLine, hst.maxEvent⟩ rfl
    have hnone : (orders.calls.keys (Owner.new request).decoder.openai.tools).filterMap
        (OpenAiSseState.sealedCall
          { (Owner.new request).decoder.openai with sawDone := true }) = [] := by
      rw [List.filterMap_eq_nil_iff]
      intro k hk
      rfl
    rw [show (request.family) = .openAiChatCompletions from rfl, Decoder.sealOps, hseal]
    simp only [hnone, List.map_nil]
  have hcomplete : final.completion.map InterpretationEnd.kind = some .complete := by
    refine run_accepted serde orders request hdecoded hsealed hspeaks ?_
    intro channel
    by_cases hchannel : channel = .publicResponse
    · rw [hchannel, hheard]
      exact hbound
    · rw [hother channel hchannel]
      exact Nat.zero_le _
  refine ⟨hcomplete, ?_⟩
  have htold := told_complete hcomplete .publicResponse
  have hheardIn : heardIn serde orders request (chunks.map .bytes ++ [.finishClean])
      .publicResponse = payloadsText serde (events.filterMap SseEvent.payload?) := by
    rw [heardIn, (chunksOf_clean chunks).1, hdecoded]
    exact hheard
  rw [hheardIn] at htold
  exact htold

open OpenAiSseState (helloText helloJson helloSerde helloEvent doneEvent helloChunks hello_fits)

/-- The limits and orders of the run on the answer. -/
def helloLimits : InterpretationLimits := ⟨1000, 1000, 1000, 8, 1000, 8⟩

def helloOrders : Iteration := entryOrders

theorem spelled_text_told_hello :
    let final := (Owner.new ⟨.openAiChatCompletions, helloLimits⟩).run helloSerde helloOrders none
      ⟨.openAiChatCompletions, helloLimits⟩ (helloChunks.map .bytes ++ [.finishClean])
    final.completion.map InterpretationEnd.kind = some .complete ∧
      Sentences (payloadsText helloSerde ([helloEvent].filterMap SseEvent.payload?))
        (toldOn .publicResponse final.assembly.published) [] := by
  refine spelled_text_told helloSerde helloOrders helloLimits [helloEvent] doneEvent helloChunks
    hello_fits (by decide +kernel) (by decide +kernel)
    (by rw [helloChunks]; simp [List.take_append_drop]) (by decide +kernel) ?_ (by decide +kernel)
  intro payload hpayload
  have hone : [helloEvent].filterMap SseEvent.payload? = [helloText] := by decide +kernel
  rw [hone] at hpayload
  obtain rfl := List.mem_singleton.mp hpayload
  refine ⟨helloJson, rfl, ?_⟩
  intro choice hchoice _
  obtain rfl := List.mem_singleton.mp hchoice
  refine ⟨?_, ?_⟩
  · intro delta hdelta
    obtain rfl := Option.some.inj hdelta
    rfl
  · intro reason hreason
    cases hreason

end Monoloop.Interpreter
