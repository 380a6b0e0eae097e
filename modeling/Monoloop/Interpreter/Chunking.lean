import Monoloop.Interpreter.CleanEnd

/-!
# Whether the chunks can be seen

The owner looks at its limits before it drains, and a frame that cannot be read
takes the frames of its chunk along. `chunks_alike_iff` says of which streams
every cut gives the same units and the same end, for the dialects that the owner
frames itself.
-/

namespace Monoloop.Interpreter

open Framing InPlace Utf8

/-! ## What two runs have in common -/

def unitOf : InterpreterOutputEvent → Option CanonicalUnitEvent
  | .unit e => some e
  | .ended _ => none

/-- The canonical events, in order. -/
def unitsOf (published : List InterpreterOutputEvent) : List CanonicalUnitEvent :=
  published.filterMap unitOf

/-- The same canonical events and the same end. -/
structure Alike (o o' : Owner) : Prop where
  units : unitsOf o.assembly.published = unitsOf o'.assembly.published
  kind : o.completion.map InterpretationEnd.kind = o'.completion.map InterpretationEnd.kind

theorem unitsOf_append (p q : List InterpreterOutputEvent) :
    unitsOf (p ++ q) = unitsOf p ++ unitsOf q := List.filterMap_append

section Run

variable (serde : SerdeJson) (orders : Iteration) (room : Option Nat) (request : StartInterpretation)

theorem units_finish (o : Owner) (kind : InterpretationEndKind) :
    unitsOf (o.finish room kind).assembly.published = unitsOf o.assembly.published := by
  obtain ⟨-, out, hout, hended⟩ := @assembly_finish room o kind
  have hnone : unitsOf out = [] := by
    rcases hended with rfl | ⟨report, rfl⟩
    · rfl
    · rfl
  rw [hout, unitsOf_append, hnone, List.append_nil]

/-- The end is told alike to owners that agree on what was assembled. -/
theorem Alike.finish {o o' : Owner} (hassembly : o.assembly = o'.assembly) (h : o.ended = false)
    (h' : o'.ended = false) (kind : InterpretationEndKind) :
    Alike (o.finish room kind) (o'.finish room kind) where
  units := by rw [units_finish, units_finish, hassembly]
  kind := by
    obtain ⟨report, hreport, hkind⟩ := Owner.completion_finish room h kind
    obtain ⟨report', hreport', hkind'⟩ := Owner.completion_finish room h' kind
    rw [hreport, hreport', Option.map_some, Option.map_some, hkind, hkind']

theorem Alike.quarantineAndFinish {o o' : Owner} (hassembly : o.assembly = o'.assembly)
    (hdecoder : o.decoder = o'.decoder) (h : o.ended = false) (h' : o'.ended = false)
    (kind : InterpretationEndKind) :
    Alike (o.quarantineAndFinish orders room kind) (o'.quarantineAndFinish orders room kind) := by
  apply Alike.finish room
  · show (call (Owner.quarantine orders room o.decoder.frameBuf.length) o.assembly).2 =
      (call (Owner.quarantine orders room o'.decoder.frameBuf.length) o'.assembly).2
    rw [hassembly, hdecoder]
  · exact h
  · exact h'

theorem Alike.close {o o' : Owner} (hassembly : o.assembly = o'.assembly)
    (hdecoder : o.decoder = o'.decoder) (h : o.ended = false) (h' : o'.ended = false)
    (stop : Stop) :
    Alike (o.close serde orders room request stop) (o'.close serde orders room request stop) := by
  cases stop with
  | dropped => exact Alike.quarantineAndFinish orders room hassembly hdecoder h h' _
  | cancel => exact Alike.quarantineAndFinish orders room hassembly hdecoder h h' _
  | transportFailed => exact Alike.quarantineAndFinish orders room hassembly hdecoder h h' _
  | finishClean =>
      simp only [Owner.close, Owner.sealClean, ← hdecoder]
      rcases hseal : o.decoder.sealOps serde orders.calls request.family with ⟨e | ops, d⟩
      · exact @Alike.quarantineAndFinish orders room { o with decoder := d }
          { o' with decoder := d } hassembly rfl h h' _
      · simp only [Owner.assemble, ← hassembly]
        rcases hall : call (Owner.sealAll orders room request ops) o.assembly with ⟨e | u, a⟩
        · exact @Alike.quarantineAndFinish orders room { o with decoder := d, assembly := a }
            { o' with decoder := d, assembly := a } rfl rfl h h' _
        · exact @Alike.finish room { o with decoder := d, assembly := a }
            { o' with decoder := d, assembly := a } rfl h h' _

/-- **Runs whose chunks are decoded alike are alike**, if they end the same
way. -/
theorem alike_of_decoded {cmds cmds' : List InputCmd} (hstop : stopOf cmds = stopOf cmds')
    (hops : (decodeAll serde orders request (Owner.new request).decoder (chunksOf cmds)).1 =
      (decodeAll serde orders request (Owner.new request).decoder (chunksOf cmds')).1)
    (hresult : (decodeAll serde orders request (Owner.new request).decoder
        (chunksOf cmds)).2.mapError InterpreterError.kind =
      (decodeAll serde orders request (Owner.new request).decoder
        (chunksOf cmds')).2.mapError InterpreterError.kind) :
    Alike ((Owner.new request).run serde orders room request cmds)
      ((Owner.new request).run serde orders room request cmds') := by
  obtain ⟨hassembly, hended, -, hin, hdecoder⟩ :=
    (Owner.new request).ingestAll_eq serde orders room request (chunksOf cmds)
  obtain ⟨hassembly', hended', -, hin', hdecoder'⟩ :=
    (Owner.new request).ingestAll_eq serde orders room request (chunksOf cmds')
  rw [← hops] at hassembly' hin'
  have hsame := hassembly.trans hassembly'.symm
  rw [Owner.run_eq, Owner.run_eq, ← hstop]
  rcases hrun : (Owner.new request).ingestAll serde orders room request (chunksOf cmds) with ⟨r, o⟩
  rcases hrun' : (Owner.new request).ingestAll serde orders room request (chunksOf cmds') with
    ⟨r', o'⟩
  rw [hrun] at hended hin hdecoder hsame
  rw [hrun'] at hended' hin' hdecoder' hsame
  replace hsame : o.assembly = o'.assembly := hsame
  rcases hall : call (forEach (Owner.applyOp orders room request) (decodeAll serde orders request
    (Owner.new request).decoder (chunksOf cmds)).1) (Owner.new request).assembly with ⟨e | u, a⟩
  · -- an error in the assembly comes in both
    rw [hall] at hin hin'
    obtain rfl : r = .error e := hin
    obtain rfl : r' = .error e := hin'
    exact Alike.finish room hsame hended hended' _
  · rw [hall] at hin hin'
    cases hd : (decodeAll serde orders request (Owner.new request).decoder (chunksOf cmds)).2 with
    | error e =>
        cases hd' : (decodeAll serde orders request (Owner.new request).decoder
            (chunksOf cmds')).2 with
        | error e' =>
            rw [hd, hd'] at hresult
            rw [hd] at hin
            rw [hd'] at hin'
            obtain rfl : r = .error e := hin
            obtain rfl : r' = .error e' := hin'
            simp only
            rw [Except.error.inj hresult]
            exact Alike.finish room hsame hended hended' _
        | ok d' =>
            rw [hd, hd'] at hresult
            cases hresult
    | ok d =>
        cases hd' : (decodeAll serde orders request (Owner.new request).decoder
            (chunksOf cmds')).2 with
        | error e' =>
            rw [hd, hd'] at hresult
            cases hresult
        | ok d' =>
            rw [hd, hd'] at hresult
            rw [hd] at hin hdecoder
            rw [hd'] at hin' hdecoder'
            obtain rfl : r = .ok () := hin
            obtain rfl : r' = .ok () := hin'
            have hleft : o.decoder = o'.decoder :=
              (Except.ok.inj (hdecoder rfl)).symm.trans
                ((Except.ok.inj hresult).trans (Except.ok.inj (hdecoder' rfl)))
            exact Alike.close serde orders room request hsame hleft hended hended' _

/-- A run that decodes nothing before an error. -/
theorem run_unsaid {cmds : List InputCmd} {kind : InterpreterErrorKind}
    (hops : (decodeAll serde orders request (Owner.new request).decoder (chunksOf cmds)).1 = [])
    (hresult : (decodeAll serde orders request (Owner.new request).decoder
      (chunksOf cmds)).2.mapError InterpreterError.kind = .error kind) :
    unitsOf ((Owner.new request).run serde orders room request cmds).assembly.published = [] ∧
      ((Owner.new request).run serde orders room request cmds).completion.map
        InterpretationEnd.kind = some (ingestEndKind kind) := by
  obtain ⟨hassembly, hended, -, hin, -⟩ :=
    (Owner.new request).ingestAll_eq serde orders room request (chunksOf cmds)
  rw [hops] at hassembly hin
  rw [Owner.run_eq]
  rcases hrun : (Owner.new request).ingestAll serde orders room request (chunksOf cmds) with ⟨r, o⟩
  rw [hrun] at hassembly hended hin
  cases hd : (decodeAll serde orders request (Owner.new request).decoder (chunksOf cmds)).2 with
  | ok d =>
      rw [hd] at hresult
      cases hresult
  | error e =>
      rw [hd] at hresult hin
      obtain rfl : r = .error e := hin
      obtain ⟨report, hreport, hkind⟩ := Owner.completion_finish room hended (ingestEndKind e.kind)
      constructor
      · simp only
        rw [units_finish, show o.assembly = _ from hassembly]
        rfl
      · simp only
        rw [hreport, Option.map_some, hkind, Except.error.inj hresult]

/-- A run that decodes nothing at all, the input being dropped. -/
theorem run_dropped {cmds : List InputCmd} {d : Decoder} (hstop : stopOf cmds = .dropped)
    (hops : (decodeAll serde orders request (Owner.new request).decoder (chunksOf cmds)).1 = [])
    (hresult : (decodeAll serde orders request (Owner.new request).decoder (chunksOf cmds)).2 =
      .ok d) :
    ((Owner.new request).run serde orders room request cmds).completion.map
      InterpretationEnd.kind = some .transportFailed := by
  obtain ⟨-, hended, -, hin, -⟩ :=
    (Owner.new request).ingestAll_eq serde orders room request (chunksOf cmds)
  rw [hops, hresult] at hin
  rw [Owner.run_eq]
  rcases hrun : (Owner.new request).ingestAll serde orders room request (chunksOf cmds) with ⟨r, o⟩
  rw [hrun] at hended hin
  obtain rfl : r = .ok () := hin
  obtain ⟨report, hreport, hkind⟩ :=
    Owner.completion_quarantineAndFinish (o := o) orders room hended .transportFailed
  simp only [hstop, Owner.close]
  rw [hreport, Option.map_some, hkind]

/-- Once the response has started, somebody who receives has seen it. -/
theorem run_said {cmds : List InputCmd} {rest : List EngineOp}
    (hops : (decodeAll serde orders request (Owner.new request).decoder (chunksOf cmds)).1 =
      .startResponse :: rest) :
    unitsOf ((Owner.new request).run serde orders none request cmds).assembly.published ≠ [] := by
  have hgrew := @grew_run serde orders none request cmds
  rw [handledOps] at hgrew
  simp only [hops, List.cons_append] at hgrew
  rw [call_forEach_cons] at hgrew
  rcases hstart : call (Owner.applyOp orders none request .startResponse) {} with ⟨e | u, a⟩
  · cases hstart
  · rw [hstart] at hgrew
    obtain ⟨more, hmore⟩ := Grew.trans _ _ _ (grew_ops _ a) hgrew
    have hfirst : unitsOf a.published ≠ [] := by
      cases hstart
      simp [unitsOf, unitOf]
    rw [← hmore, unitsOf_append]
    intro hnil
    exact hfirst (List.append_eq_nil_iff.mp hnil).1

end Run

/-! ## Framed dialects -/

/-- Nothing shows where the stream is cut: within the limit it can be read, or
says nothing before what cannot be read; or it fills the buffer before it says
anything. -/
def FramedDialect.Steady (dialect : FramedDialect) (serde : SerdeJson)
    (limits : InterpretationLimits) (stream : List UInt8) : Prop :=
  Framer.Steady dialect.framer (dialect.read serde) (frameLimit limits) stream

theorem ingestEndKind_ne_transportFailed (kind : InterpreterErrorKind) :
    ingestEndKind kind ≠ .transportFailed := by
  cases kind <;> simp [ingestEndKind]

theorem chunksOf_map (chunks : List (List UInt8)) : chunksOf (chunks.map .bytes) = chunks := by
  induction chunks with
  | nil => rfl
  | cons chunk chunks ih => exact congrArg (chunk :: ·) ih

theorem stopOf_map (chunks : List (List UInt8)) : stopOf (chunks.map .bytes) = .dropped := by
  induction chunks with
  | nil => rfl
  | cons chunk chunks ih => exact ih

theorem FramedDialect.Steady.alike {dialect : FramedDialect} {serde : SerdeJson}
    {limits : InterpretationLimits} {cmds cmds' : List InputCmd}
    (h : dialect.Steady serde limits (chunksOf cmds).flatten) (orders : Iteration)
    (room : Option Nat) (hflat : (chunksOf cmds').flatten = (chunksOf cmds).flatten)
    (hstop : stopOf cmds = stopOf cmds') :
    Alike ((Owner.new ⟨dialect.family, limits⟩).run serde orders room ⟨dialect.family, limits⟩ cmds)
      ((Owner.new ⟨dialect.family, limits⟩).run serde orders room ⟨dialect.family, limits⟩
        cmds') := by
  obtain ⟨hops, hresult⟩ := decodeAll_framed serde limits orders dialect
    (Owner.new ⟨dialect.family, limits⟩).decoder (chunksOf cmds)
  obtain ⟨hops', hresult'⟩ := decodeAll_framed serde limits orders dialect
    (Owner.new ⟨dialect.family, limits⟩).decoder (chunksOf cmds')
  have hfed := @Framer.Steady.feedLimited_eq _ _ _ _ dialect.framer (dialect.read serde)
    (frameLimit limits) .frameLimitExceeded _ _ h hflat
  apply alike_of_decoded serde orders room ⟨dialect.family, limits⟩ hstop
  · rw [hops, hops']
    exact congrArg Prod.fst hfed
  · rw [hresult, hresult']
    exact congrArg (fun r => Except.map _ r.2) hfed

/-- A stream in one piece that is no readable stream within the limit fails at
once. -/
theorem whole_fails {dialect : FramedDialect} {serde : SerdeJson} {limits : InterpretationLimits}
    {stream : List UInt8} (h : ¬ dialect.Steady serde limits stream) :
    ∃ kind, dialect.framer.feedLimited (dialect.read serde) (frameLimit limits)
        .frameLimitExceeded [] [stream] = ([], .error kind) ∧
      (frameLimit limits < stream.length → kind = .frameLimitExceeded) := by
  simp only [Framer.feedLimited, List.nil_append, List.length_nil, Nat.zero_add]
  by_cases hlimit : frameLimit limits < stream.length
  · rw [if_pos hlimit]
    exact ⟨_, rfl, fun _ => rfl⟩
  · rw [if_neg hlimit]
    cases hread : Framer.readAll (dialect.read serde) (dialect.framer.drain stream).1 with
    | error kind => exact ⟨kind, rfl, fun hlt => absurd hlt hlimit⟩
    | ok ops => exact absurd (.inl ⟨Nat.le_of_not_lt hlimit, .inl ⟨ops, hread⟩⟩) h

theorem flatten_bytewise (stream : List UInt8) : (stream.map ([·])).flatten = stream := by
  induction stream with
  | nil => rfl
  | cons b stream ih => exact congrArg (b :: ·) ih

/-- **Byte by byte**, a run that tells no unit and ends like an error of the
whole comes from a steady stream. -/
theorem steady_of_bytewise_run {serde : SerdeJson} (orders : Iteration) {dialect : FramedDialect}
    {limits : InterpretationLimits} {stream : List UInt8} {kind : InterpreterErrorKind}
    (hkind : frameLimit limits < stream.length → kind = .frameLimitExceeded)
    (hunits : unitsOf ((Owner.new ⟨dialect.family, limits⟩).run serde orders none
      ⟨dialect.family, limits⟩ ((stream.map ([·])).map .bytes)).assembly.published = [])
    (hend : ((Owner.new ⟨dialect.family, limits⟩).run serde orders none ⟨dialect.family, limits⟩
      ((stream.map ([·])).map .bytes)).completion.map InterpretationEnd.kind =
        some (ingestEndKind kind)) : dialect.Steady serde limits stream := by
  obtain ⟨hops, hresult⟩ := decodeAll_framed serde limits orders dialect
    (Owner.new ⟨dialect.family, limits⟩).decoder (stream.map ([·]))
  rw [← chunksOf_map (stream.map ([·]))] at hops hresult
  have hhead := @Framer.feedLimited_head _ _ _ _ dialect.framer (dialect.read serde)
    (frameLimit limits) .frameLimitExceeded .startResponse
    (fun f ops h => dialect.read_startResponse serde h) []
    (chunksOf ((stream.map ([·])).map .bytes))
  rcases hhead with hnil | ⟨rest, hcons⟩
  · cases hfed : (dialect.framer.feedLimited (dialect.read serde) (frameLimit limits)
        InterpreterErrorKind.frameLimitExceeded []
        (chunksOf ((stream.map ([·])).map .bytes))).2 with
    | ok r =>
        -- the input is dropped, which is no error of a chunk
        rw [show (Owner.new ⟨dialect.family, limits⟩).decoder.frameBuf = [] from rfl, hfed]
          at hresult
        cases hd : (decodeAll serde orders ⟨dialect.family, limits⟩
            (Owner.new ⟨dialect.family, limits⟩).decoder
            (chunksOf ((stream.map ([·])).map .bytes))).2 with
        | error e =>
            rw [hd] at hresult
            cases hresult
        | ok d =>
            have hdropped := run_dropped serde orders none ⟨dialect.family, limits⟩
              (stopOf_map (stream.map ([·]))) (hops.trans hnil) hd
            rw [hend] at hdropped
            exact absurd (Option.some.inj hdropped) (ingestEndKind_ne_transportFailed kind)
    | error kind' =>
        rw [show (Owner.new ⟨dialect.family, limits⟩).decoder.frameBuf = [] from rfl, hfed]
          at hresult
        have hsame := (run_unsaid serde orders none ⟨dialect.family, limits⟩ (hops.trans hnil)
          hresult).2
        rw [hend] at hsame
        rw [chunksOf_map] at hnil hfed
        apply Framer.steady_of_bytewise dialect.prompt_framer (Prod.ext hnil hfed)
        intro hlt f hf
        rw [hkind hlt, dialect.read_error serde hf] at hsame
        cases hsame
  · exact absurd hunits (run_said serde orders ⟨dialect.family, limits⟩ (hops.trans hcons))

/-- **Every cut of a stream gives the same units and the same end** exactly when
the stream is steady. -/
theorem chunks_alike_iff (serde : SerdeJson) (orders : Iteration) (dialect : FramedDialect)
    (limits : InterpretationLimits) (stream : List UInt8) :
    (∀ room cmds cmds', (chunksOf cmds).flatten = stream → (chunksOf cmds').flatten = stream →
      stopOf cmds = stopOf cmds' →
      Alike ((Owner.new ⟨dialect.family, limits⟩).run serde orders room ⟨dialect.family, limits⟩
          cmds)
        ((Owner.new ⟨dialect.family, limits⟩).run serde orders room ⟨dialect.family, limits⟩
          cmds')) ↔
      dialect.Steady serde limits stream := by
  constructor
  · intro h
    apply Classical.byContradiction
    intro hsteady
    obtain ⟨kind, hwhole, hkind⟩ := whole_fails hsteady
    -- in one piece nothing is told but the end
    obtain ⟨hops, hresult⟩ := decodeAll_framed serde limits orders dialect
      (Owner.new ⟨dialect.family, limits⟩).decoder (chunksOf ([stream].map .bytes))
    rw [show (Owner.new ⟨dialect.family, limits⟩).decoder.frameBuf = [] from rfl, chunksOf_map,
      hwhole] at hops hresult
    obtain ⟨hunits, hend⟩ := run_unsaid serde orders none ⟨dialect.family, limits⟩
      (by rw [chunksOf_map]; exact hops) (by rw [chunksOf_map]; exact hresult)
    have hsame := h none ([stream].map .bytes) ((stream.map ([·])).map .bytes)
      (by rw [chunksOf_map, List.flatten_singleton]) (by rw [chunksOf_map, flatten_bytewise])
      (by rw [stopOf_map, stopOf_map])
    exact hsteady (steady_of_bytewise_run orders hkind (hsame.units.symm.trans hunits)
      (hsame.kind.symm.trans hend))
  · rintro hsteady room cmds cmds' rfl hflat hstop
    exact hsteady.alike orders room hflat hstop

/-- A value and a frame that is none: the value starts the response only when it
comes in a chunk of its own. -/
theorem chunk_takes_value_along :
    ¬ ∀ (serde : SerdeJson) (orders : Iteration) (room : Option Nat) (dialect : FramedDialect)
      (limits : InterpretationLimits) (cmds cmds' : List InputCmd),
      (chunksOf cmds).flatten = (chunksOf cmds').flatten → stopOf cmds = stopOf cmds' →
      Alike ((Owner.new ⟨dialect.family, limits⟩).run serde orders room ⟨dialect.family, limits⟩
          cmds)
        ((Owner.new ⟨dialect.family, limits⟩).run serde orders room ⟨dialect.family, limits⟩
          cmds') := by
  intro h
  have hsame := h (readerOf "\x7b\x7d" (.object [])) entryOrders none .acp
    (sampleRequest .acp).limits [.bytes [0x7b, 0x7d, 0x5b, 0x7d]]
    [.bytes [0x7b, 0x7d], .bytes [0x5b, 0x7d]] rfl rfl
  have hlength := congrArg List.length hsame.units
  revert hlength
  decide +kernel

end Monoloop.Interpreter
