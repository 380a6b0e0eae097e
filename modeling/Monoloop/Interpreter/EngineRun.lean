import Monoloop.Interpreter.Engine

/-!
# Runs of the owner

A run takes the chunks up to the command that ends it and closes in the way of
that command (`run_eq`). Taking chunks is decoding them, which no fragment
changes, and assembling what was decoded, which looks at no byte (`ingestAll_eq`):
the operations of a stream come first, and the assembly runs over their list.
-/

namespace Monoloop.Interpreter

open InPlace

/-- How the input ends. -/
inductive Stop where
  | dropped
  | finishClean
  | cancel
  | transportFailed
  deriving DecidableEq

/-- The end of an input that is not clean. -/
def Stop.abortKind : Stop → InterpretationEndKind
  | .cancel => .cancelled
  | _ => .transportFailed

/-- The chunks up to the end of the input. -/
def chunksOf : List InputCmd → List (List UInt8)
  | .bytes chunk :: cmds => chunk :: chunksOf cmds
  | _ => []

def stopOf : List InputCmd → Stop
  | [] => .dropped
  | .bytes _ :: cmds => stopOf cmds
  | .finishClean :: _ => .finishClean
  | .cancel :: _ => .cancel
  | .transportFailed :: _ => .transportFailed

section Run

variable (serde : SerdeJson) (orders : Iteration) (room : Option Nat) (request : StartInterpretation)

/-- Chunks decoded one after the other: the operations up to the first error,
and the decoder or the error. -/
def decodeAll (d : Decoder) : List (List UInt8) → List EngineOp × Except InterpreterError Decoder
  | [] => ([], .ok d)
  | chunk :: chunks =>
      match d.ingestChunk serde request.limits orders.calls request.family chunk with
      | (.error e, _) => ([], .error e)
      | (.ok ops, d) =>
          let (rest, result) := decodeAll d chunks
          (ops ++ rest, result)

namespace Owner

/-- Chunks one after the other, up to the first error. -/
def ingestAll (o : Owner) : List (List UInt8) → Except InterpreterError Unit × Owner
  | [] => (.ok (), o)
  | chunk :: chunks =>
      match ingestBytes serde orders room request
        { o with sourceBytes := o.sourceBytes + chunk.length } chunk with
      | (.ok (), o) => ingestAll o chunks
      | (.error e, o) => (.error e, o)

/-- What the command that ends the input does. -/
def close (o : Owner) : Stop → Owner
  | .dropped => o.quarantineAndFinish orders room .transportFailed
  | .finishClean =>
      match o.sealClean serde orders room request with
      | (.ok (), o) => o.finish room .complete
      | (.error e, o) => o.quarantineAndFinish orders room (sealEndKind e.kind)
  | .cancel => o.quarantineAndFinish orders room .cancelled
  | .transportFailed => o.quarantineAndFinish orders room .transportFailed

/-- **A run is its chunks and its end.** -/
theorem run_eq (o : Owner) (cmds : List InputCmd) :
    o.run serde orders room request cmds =
      match o.ingestAll serde orders room request (chunksOf cmds) with
      | (.ok (), o') => o'.close serde orders room request (stopOf cmds)
      | (.error e, o') => o'.finish room (ingestEndKind e.kind) := by
  induction cmds generalizing o with
  | nil => rfl
  | cons cmd cmds ih =>
      cases cmd with
      | bytes chunk =>
          simp only [run, chunksOf, stopOf, ingestAll]
          rcases ingestBytes serde orders room request
            { o with sourceBytes := o.sourceBytes + chunk.length } chunk with ⟨_ | _, o'⟩
          · rfl
          · exact ih o'
      | finishClean => rfl
      | cancel => rfl
      | transportFailed => rfl

/-- **Chunks are decoded, and what was decoded is assembled.** -/
theorem ingestAll_eq (o : Owner) (chunks : List (List UInt8)) :
    let decoded := decodeAll serde orders request o.decoder chunks
    let assembled := call (forEach (applyOp orders room request) decoded.1) o.assembly
    let ingested := o.ingestAll serde orders room request chunks
    ingested.2.assembly = assembled.2 ∧ ingested.2.ended = o.ended ∧
      ingested.2.completion = o.completion ∧
      ingested.1 = (assembled.1 >>= fun _ => decoded.2.map fun _ => ()) ∧
      (ingested.1 = .ok () → decoded.2 = .ok ingested.2.decoder) := by
  induction chunks generalizing o with
  | nil => exact ⟨rfl, rfl, rfl, rfl, fun _ => rfl⟩
  | cons chunk chunks ih =>
      simp only [ingestAll, decodeAll, ingestBytes]
      rcases o.decoder.ingestChunk serde request.limits orders.calls request.family chunk with
        ⟨e | ops, d⟩
      · exact ⟨rfl, rfl, rfl, rfl, fun h => by cases h⟩
      · simp only [assemble, call_forEach_append]
        rcases hops : call (forEach (applyOp orders room request) ops) o.assembly with ⟨e | u, a⟩
        · exact ⟨rfl, rfl, rfl, rfl, fun h => by cases h⟩
        · exact ih { o with sourceBytes := o.sourceBytes + chunk.length, decoder := d, assembly := a }

/-- The five ways a run ends, each with the owner it leaves. -/
inductive RunEnds (o₀ : Owner) (cmds : List InputCmd) : Owner → Prop where
  /-- An error in a chunk. -/
  | refused {o e} : o₀.ingestAll serde orders room request (chunksOf cmds) = (.error e, o) →
      RunEnds o₀ cmds (o.finish room (ingestEndKind e.kind))
  /-- An end that is not clean. -/
  | aborted {o} : o₀.ingestAll serde orders room request (chunksOf cmds) = (.ok (), o) →
      stopOf cmds ≠ .finishClean →
      RunEnds o₀ cmds (o.quarantineAndFinish orders room (stopOf cmds).abortKind)
  /-- A clean end that the decoder refuses. -/
  | unsealable {o d e} : o₀.ingestAll serde orders room request (chunksOf cmds) = (.ok (), o) →
      stopOf cmds = .finishClean →
      o.decoder.sealOps serde orders.calls request.family = (.error e, d) →
      RunEnds o₀ cmds ({ o with decoder := d }.quarantineAndFinish orders room (sealEndKind e.kind))
  /-- A clean end at which the last units cannot be assembled or published. -/
  | unsealed {o d ops a e} : o₀.ingestAll serde orders room request (chunksOf cmds) = (.ok (), o) →
      stopOf cmds = .finishClean →
      o.decoder.sealOps serde orders.calls request.family = (.ok ops, d) →
      call (sealAll orders room request ops) o.assembly = (.error e, a) →
      RunEnds o₀ cmds ({ o with decoder := d, assembly := a }.quarantineAndFinish orders room
        (sealEndKind e.kind))
  | complete {o d ops a} : o₀.ingestAll serde orders room request (chunksOf cmds) = (.ok (), o) →
      stopOf cmds = .finishClean →
      o.decoder.sealOps serde orders.calls request.family = (.ok ops, d) →
      call (sealAll orders room request ops) o.assembly = (.ok (), a) →
      RunEnds o₀ cmds ({ o with decoder := d, assembly := a }.finish room .complete)

theorem run_ends (o : Owner) (cmds : List InputCmd) :
    RunEnds serde orders room request o cmds (o.run serde orders room request cmds) := by
  rw [run_eq]
  rcases hin : o.ingestAll serde orders room request (chunksOf cmds) with ⟨e | u, o'⟩
  · exact .refused hin
  · cases hstop : stopOf cmds with
    | dropped =>
        have h := RunEnds.aborted hin (by rw [hstop]; simp)
        rw [hstop] at h
        exact h
    | cancel =>
        have h := RunEnds.aborted hin (by rw [hstop]; simp)
        rw [hstop] at h
        exact h
    | transportFailed =>
        have h := RunEnds.aborted hin (by rw [hstop]; simp)
        rw [hstop] at h
        exact h
    | finishClean =>
        simp only [close, sealClean]
        rcases hseal : o'.decoder.sealOps serde orders.calls request.family with ⟨e | ops, d⟩
        · exact .unsealable hin hstop hseal
        · simp only [assemble]
          rcases hall : call (sealAll orders room request ops) o'.assembly with ⟨e | u, a⟩
          · exact .unsealed hin hstop hseal hall
          · exact .complete hin hstop hseal hall

/-! ## The end of a run -/

variable {o : Owner}

theorem completion_finish (h : o.ended = false) (kind : InterpretationEndKind) :
    ∃ report, (o.finish room kind).completion = some report ∧ report.kind = kind := by
  unfold finish
  rw [h]
  exact ⟨_, rfl, rfl⟩

theorem completion_quarantineAndFinish (h : o.ended = false) (kind : InterpretationEndKind) :
    ∃ report, (o.quarantineAndFinish orders room kind).completion = some report ∧
      report.kind = kind :=
  @completion_finish room (quarantinePartials orders room o).2 h kind

theorem decoder_finish (kind : InterpretationEndKind) :
    (o.finish room kind).decoder = o.decoder := by
  unfold finish
  split
  · rfl
  · rfl

theorem ingestEndKind_ne_complete (kind : InterpreterErrorKind) : ingestEndKind kind ≠ .complete := by
  cases kind <;> simp [ingestEndKind]

theorem sealEndKind_ne_complete (kind : InterpreterErrorKind) : sealEndKind kind ≠ .complete := by
  cases kind <;> simp [sealEndKind]

theorem abortKind_ne_complete (stop : Stop) : stop.abortKind ≠ .complete := by
  cases stop <;> simp [Stop.abortKind]

theorem ended_ingestAll {cmds : List InputCmd} {result : Except InterpreterError Unit}
    (hin : (Owner.new request).ingestAll serde orders room request (chunksOf cmds) = (result, o)) :
    o.ended = false := by
  have hended := ((Owner.new request).ingestAll_eq serde orders room request (chunksOf cmds)).2.1
  rw [hin] at hended
  exact hended

/-- **A run that ends complete** has sealed all that its chunks left. -/
theorem run_complete {cmds : List InputCmd}
    (h : ((Owner.new request).run serde orders room request cmds).completion.map
      InterpretationEnd.kind = some .complete) :
    ∃ o d ops a, (Owner.new request).ingestAll serde orders room request (chunksOf cmds) =
        (.ok (), o) ∧
      stopOf cmds = .finishClean ∧
      o.decoder.sealOps serde orders.calls request.family = (.ok ops, d) ∧
      call (sealAll orders room request ops) o.assembly = (.ok (), a) ∧
      (Owner.new request).run serde orders room request cmds =
        { o with decoder := d, assembly := a }.finish room .complete := by
  have hends := (Owner.new request).run_ends serde orders room request cmds
  revert h
  generalize (Owner.new request).run serde orders room request cmds = final at hends
  intro h
  have hno : ∀ {kind : InterpretationEndKind}, kind ≠ .complete →
      ¬ ∃ report, final.completion = some report ∧ report.kind = kind := by
    rintro kind hkind ⟨report, hreport, rfl⟩
    rw [hreport] at h
    exact hkind (Option.some.inj h)
  cases hends with
  | refused hin =>
      exact absurd (completion_finish room (ended_ingestAll serde orders room request hin) _)
        (hno (ingestEndKind_ne_complete _))
  | aborted hin _ =>
      exact absurd (completion_quarantineAndFinish orders room
        (ended_ingestAll serde orders room request hin) _) (hno (abortKind_ne_complete _))
  | @unsealable o d e hin _ _ =>
      have hended : o.ended = false := ended_ingestAll serde orders room request hin
      exact absurd (completion_quarantineAndFinish (o := { o with decoder := d }) orders room
        hended _) (hno (sealEndKind_ne_complete _))
  | @unsealed o d ops a e hin _ _ _ =>
      have hended : o.ended = false := ended_ingestAll serde orders room request hin
      exact absurd (completion_quarantineAndFinish (o := { o with decoder := d, assembly := a })
        orders room hended _) (hno (sealEndKind_ne_complete _))
  | complete hin hstop hseal hall => exact ⟨_, _, _, _, hin, hstop, hseal, hall, rfl⟩

end Owner

end Run

end Monoloop.Interpreter
