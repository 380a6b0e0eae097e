import Monoloop.Interpreter.Emission

/-!
# The terminal report

With a consumer that stays, no send fails: the stream is a list of units and
then the report. The counters of the report follow the stream step by step. Text
that is dropped at an abrupt end goes over from the segmenters to a counter, so
that the sum the report gives is the same before and after
(`call_quarantine_live`).
-/

namespace Monoloop.Interpreter

open InPlace

/-- The event creates a text unit. -/
def createsText : CanonicalUnitEvent → Bool
  | .created s => s.unit.isText
  | _ => false

/-- What the report says of the stream of units before it, of the chunks that
were taken in, and of the owner at the moment the end was caused. -/
structure Agrees (report : InterpretationEnd) (units : List CanonicalUnitEvent)
    (taken : List (List UInt8)) (cause : Owner) : Prop where
  canonicalEventCount : report.canonicalEventCount = units.length
  completedSentenceCount : report.completedSentenceCount = units.countP createsText
  sourceBytesConsumed : report.sourceBytesConsumed = (taken.map List.length).sum
  unresolvedTextBytes :
    report.unresolvedTextBytes =
      Owner.bufferedBytes cause.assembly + cause.decoder.frameBuf.length

/-- The published units so far, and the sentences among them counted. -/
def Tallied (a : Assembly) : Prop :=
  ∃ units : List CanonicalUnitEvent, a.published = units.map .unit ∧ a.sentenceCount = units.countP createsText

theorem tallied_empty : Tallied {} := ⟨[], rfl, rfl⟩

theorem not_gone_none (a : Assembly) : ¬ Gone none a := Bool.false_ne_true

theorem Tallied.concat {a b : Assembly} (h : Tallied a) (event : CanonicalUnitEvent)
    (hpublished : b.published = a.published ++ [.unit event])
    (hcount : b.sentenceCount = a.sentenceCount + if createsText event then 1 else 0) :
    Tallied b := by
  obtain ⟨units, hunits, hsentences⟩ := h
  refine ⟨units ++ [event], ?_, ?_⟩
  · rw [hpublished, hunits, List.map_append]
    rfl
  · rw [hcount, hsentences, List.countP_append, List.countP_singleton]

theorem Tallied.emits {voices : Voice → Prop} {a b : Assembly} (h : Tallied a) (hstep : Emits none voices a b) : Tallied b := by
  cases hstep with
  | still hstill =>
      obtain ⟨units, hunits, hsentences⟩ := h
      exact ⟨units, hstill.published.trans hunits, hstill.sentenceCount.trans hsentences⟩
  | sentence channel content _ hgo => exact h.concat _ rfl rfl
  | notice notice _ hgo =>
      apply h.concat _ rfl
      cases notice <;> rfl
  | @tool id tool event _ hgo _ hevent =>
      apply h.concat event rfl
      have hno : createsText event = false := by
        cases event with
        | created s =>
            rw [show s = a.toolSnapshot tool from hevent]
            rfl
        | advanced s => rfl
        | completed s => rfl
        | incomplete s => rfl
      rw [hno]
      rfl
  | touched _ _ => exact h
  | lost hgone _ _ => exact absurd hgone (not_gone_none a)

theorem Tallied.emission {voices : Voice → Prop} {a b : Assembly} (h : Tallied a) (hrun : Emission none voices a b) : Tallied b :=
  hrun.invariant h (fun _ _ hstep ha => ha.emits hstep)

theorem Emits.unresolved {room : Option Nat} {voices : Voice → Prop} {a b : Assembly} (h : Emits room voices a b) :
    b.unresolvedBytesAtEnd = a.unresolvedBytesAtEnd := by
  cases h with
  | still hstill => exact hstill.unresolved
  | sentence channel content _ _ => rfl
  | notice notice _ _ => rfl
  | tool _ _ _ _ => rfl
  | touched _ _ => rfl
  | lost _ _ hunresolved => exact hunresolved

theorem Emission.unresolved {room : Option Nat} {voices : Voice → Prop} {a b : Assembly} (h : Emission room voices a b) :
    b.unresolvedBytesAtEnd = a.unresolvedBytesAtEnd :=
  h.invariant (P := fun b => b.unresolvedBytesAtEnd = a.unresolvedBytesAtEnd) rfl
    (fun _ _ hstep ha => hstep.unresolved.trans ha)

/-! ## Dropped text -/

/-- Text that the report counts: dropped already, or still buffered. -/
def countedBytes (a : Assembly) : Nat := a.unresolvedBytesAtEnd + Owner.bufferedBytes a

theorem bufferedBytes_eq (a : Assembly) :
    Owner.bufferedBytes a = HashMap.total a.channels SentenceSegmenter.bufferedBytes := rfl

/-- The text of a channel goes over to the counter, whole. -/
theorem countedBytes_takeUnresolved (channel : TextChannel) (a : Assembly) :
    countedBytes (call (takeUnresolved channel) a).2 = countedBytes a := by
  unfold takeUnresolved
  rw [call_get_bind]
  split
  · rfl
  · rename_i s hs
    split
    · rfl
    · have htotal := HashMap.total_put s.takeUnresolved.2 SentenceSegmenter.bufferedBytes hs
      have hnone : s.takeUnresolved.2.bufferedBytes = 0 := rfl
      unfold countedBytes
      rw [bufferedBytes_eq, bufferedBytes_eq]
      show a.unresolvedBytesAtEnd + s.bufferedBytes +
        HashMap.total (a.channels.put channel s.takeUnresolved.2) SentenceSegmenter.bufferedBytes = _
      omega

theorem countedBytes_takeUnresolveds (channels : List TextChannel) (a : Assembly) :
    countedBytes (call (forEach takeUnresolved channels) a).2 = countedBytes a := by
  have hmoves : Moves (fun a b => countedBytes b = countedBytes a)
      (forEach takeUnresolved channels) := by
    apply Moves.forEach
    · intro a
      rfl
    · intro a b c hab hbc
      exact hbc.trans hab
    · intro channel _ a
      exact countedBytes_takeUnresolved channel a
  exact hmoves a

/-- Telling the open tools drops no text. -/
theorem countedBytes_quarantineTools (room : Option Nat) (ids : List ToolActionId) (a : Assembly) :
    countedBytes (call (forEach (quarantineTool room) ids) a).2 = countedBytes a := by
  have hmoves : Moves (fun a b => countedBytes b = countedBytes a)
      (forEach (quarantineTool room) ids) := by
    apply Moves.forEach
    · intro a
      rfl
    · intro a b c hab hbc
      exact hbc.trans hab
    · intro id _ a
      rcases quarantineTool_cases room id a with
        ⟨-, hcall⟩ | ⟨tool, event, -, -, ⟨-, hcall⟩ | ⟨-, hcall⟩⟩
      · rw [hcall]
      · rw [hcall]
        rfl
      · rw [hcall]
        rfl
  exact hmoves a

/-- **The quarantine**, with a consumer: the text and the frame buffer are
counted, once each, and the stream stays tallied. -/
theorem call_quarantine_live (orders : Iteration) (frameBytes : Nat) {a : Assembly} (h : Tallied a) :
    Tallied (call (Owner.quarantine orders none frameBytes) a).2 ∧
      countedBytes (call (Owner.quarantine orders none frameBytes) a).2 =
        countedBytes a + frameBytes := by
  obtain ⟨b, hb, hquiet⟩ := call_takeUnresolveds (orders.channels.keys a.channels) a
  have hcounted := countedBytes_takeUnresolveds (orders.channels.keys a.channels) a
  rw [hb] at hcounted
  let c : Assembly := { b with unresolvedBytesAtEnd := b.unresolvedBytesAtEnd + frameBytes }
  have hcall : call (Owner.quarantine orders none frameBytes) a =
      call (forEach (quarantineTool none) (orders.tools.keys b.tools)) c := by
    unfold Owner.quarantine
    rw [call_get_bind, call_bind, hb]
    rfl
  have htallied : Tallied c := by
    obtain ⟨units, hunits, hcount⟩ := h
    exact ⟨units, hquiet.published.trans hunits, hquiet.sentenceCount.trans hcount⟩
  rw [hcall]
  constructor
  · exact htallied.emission (emission_forEach _ (emission_quarantineTool none) c)
  · rw [countedBytes_quarantineTools, ← hcounted]
    show b.unresolvedBytesAtEnd + frameBytes + Owner.bufferedBytes b =
      b.unresolvedBytesAtEnd + Owner.bufferedBytes b + frameBytes
    omega

/-! ## Runs -/

section Run

variable (serde : SerdeJson) (orders : Iteration) (request : StartInterpretation)

namespace Owner

/-- The chunks that are taken in, the one that ends the run included. -/
def takenIn (o : Owner) : List (List UInt8) → List (List UInt8)
  | [] => []
  | chunk :: chunks =>
      chunk ::
        match ingestBytes serde orders none request
          { o with sourceBytes := o.sourceBytes + chunk.length } chunk with
        | (.ok (), o) => takenIn o chunks
        | (.error _, _) => []

/-- The owner at the moment the end is caused: by the error in a chunk, by the
sealing that went through or was refused, or by the command. -/
def atCause (cmds : List InputCmd) : Owner :=
  match (Owner.new request).ingestAll serde orders none request (chunksOf cmds) with
  | (.error _, o) => o
  | (.ok (), o) =>
      if stopOf cmds = .finishClean then (o.sealClean serde orders none request).2 else o

variable {serde orders request}

theorem sourceBytes_ingestBytes (room : Option Nat) (o : Owner) (chunk : List UInt8) :
    (o.ingestBytes serde orders room request chunk).2.sourceBytes = o.sourceBytes := by
  unfold ingestBytes
  split
  · rfl
  · rfl

/-- The source bytes are those of the chunks taken in. -/
theorem sourceBytes_ingestAll (o : Owner) (chunks : List (List UInt8)) :
    (o.ingestAll serde orders none request chunks).2.sourceBytes =
      o.sourceBytes + ((o.takenIn serde orders request chunks).map List.length).sum := by
  induction chunks generalizing o with
  | nil => rfl
  | cons chunk chunks ih =>
      simp only [ingestAll, takenIn]
      have hone := @sourceBytes_ingestBytes serde orders request none
        { o with sourceBytes := o.sourceBytes + chunk.length } chunk
      rcases hcall : ingestBytes serde orders none request
        { o with sourceBytes := o.sourceBytes + chunk.length } chunk with ⟨e | u, o'⟩
      · rw [hcall] at hone
        simpa using hone
      · rw [hcall] at hone
        replace hone : o'.sourceBytes = o.sourceBytes + chunk.length := hone
        simp only
        rw [ih o', hone, List.map_cons, List.sum_cons]
        omega

/-- The report of a run whose consumer stays. -/
theorem finish_live {o : Owner} (hended : o.ended = false) (h : Tallied o.assembly)
    (kind : InterpretationEndKind) :
    ∃ (units : List CanonicalUnitEvent) (report : InterpretationEnd), (o.finish none kind).assembly.published =
        units.map .unit ++ [.ended report] ∧
      (o.finish none kind).completion = some report ∧
      report.canonicalEventCount = units.length ∧
      report.completedSentenceCount = units.countP createsText ∧
      report.sourceBytesConsumed = o.sourceBytes ∧
      report.unresolvedTextBytes = countedBytes o.assembly + o.decoder.frameBuf.length := by
  obtain ⟨units, hunits, hsentences⟩ := h
  unfold finish
  rw [hended]
  simp only [Bool.false_eq_true, if_false, assemble, call_publish, if_neg (not_gone_none _)]
  exact ⟨units, _, by rw [hunits], rfl, by rw [hunits, List.length_map], hsentences, rfl, rfl⟩

/-- A run that ends at `cause` without a quarantine. -/
theorem agrees_finish {cause : Owner} (hended : cause.ended = false) (h : Tallied cause.assembly)
    (hfresh : cause.assembly.unresolvedBytesAtEnd = 0) {taken : List (List UInt8)}
    (hsource : cause.sourceBytes = (taken.map List.length).sum) (kind : InterpretationEndKind) :
    ∃ (units : List CanonicalUnitEvent) (report : InterpretationEnd), (cause.finish none kind).assembly.published =
        units.map .unit ++ [.ended report] ∧
      (cause.finish none kind).completion = some report ∧ Agrees report units taken cause := by
  obtain ⟨units, report, hpublished, hcompletion, hevents, hsentences, hbytes, hunresolved⟩ :=
    finish_live hended h kind
  refine ⟨units, report, hpublished, hcompletion, hevents, hsentences, hbytes.trans hsource, ?_⟩
  rw [hunresolved, countedBytes, hfresh, Nat.zero_add]

/-- A run that ends at `cause` with a quarantine. -/
theorem agrees_quarantineAndFinish {cause : Owner} (hended : cause.ended = false)
    (h : Tallied cause.assembly) (hfresh : cause.assembly.unresolvedBytesAtEnd = 0)
    {taken : List (List UInt8)} (hsource : cause.sourceBytes = (taken.map List.length).sum)
    (kind : InterpretationEndKind) :
    ∃ (units : List CanonicalUnitEvent) (report : InterpretationEnd), (cause.quarantineAndFinish orders none kind).assembly.published =
        units.map .unit ++ [.ended report] ∧
      (cause.quarantineAndFinish orders none kind).completion = some report ∧
      Agrees report units taken cause := by
  obtain ⟨htallied, hcounted⟩ :=
    call_quarantine_live orders cause.decoder.frameBuf.length h
  obtain ⟨units, report, hpublished, hcompletion, hevents, hsentences, hbytes, hunresolved⟩ :=
    @finish_live (cause.quarantinePartials orders none).2 hended htallied kind
  refine ⟨units, report, hpublished, hcompletion, hevents, hsentences, hbytes.trans hsource, ?_⟩
  -- the frame buffer is empty by now
  have hempty : (cause.quarantinePartials orders none).2.decoder.frameBuf.length = 0 := rfl
  rw [hunresolved, hempty]
  show countedBytes (call (Owner.quarantine orders none _) cause.assembly).2 + 0 = _
  rw [hcounted, countedBytes, hfresh, Nat.zero_add, Nat.add_zero]

end Owner

/-- **The stream of a consumer that stays** is a list of units and then one
report, which agrees with the units, the input and the bytes left. -/
theorem report_agrees (cmds : List InputCmd) :
    let final := (Owner.new request).run serde orders none request cmds
    ∃ (units : List CanonicalUnitEvent) (report : InterpretationEnd), final.assembly.published = units.map .unit ++ [.ended report] ∧
      final.completion = some report ∧
      Agrees report units ((Owner.new request).takenIn serde orders request (chunksOf cmds))
        (Owner.atCause serde orders request cmds) := by
  intro final
  have hends : Owner.RunEnds serde orders none request (Owner.new request) cmds final :=
    (Owner.new request).run_ends serde orders none request cmds
  have hsource :=
    @Owner.sourceBytes_ingestAll serde orders request (Owner.new request) (chunksOf cmds)
  rw [show (Owner.new request).sourceBytes = 0 from rfl, Nat.zero_add] at hsource
  unfold Owner.atCause
  generalize final = final' at hends
  cases hends with
  | @refused o e hin =>
      rw [hin] at hsource ⊢
      have hemission := emission_ingestAll none hin
      exact Owner.agrees_finish (Owner.ended_ingestAll serde orders none request hin)
        (tallied_empty.emission hemission) hemission.unresolved hsource _
  | @aborted o hin hstop =>
      rw [hin] at hsource ⊢
      simp only [if_neg hstop]
      have hemission := emission_ingestAll none hin
      exact Owner.agrees_quarantineAndFinish (Owner.ended_ingestAll serde orders none request hin)
        (tallied_empty.emission hemission) hemission.unresolved hsource _
  | @unsealable o d e hin hstop hseal =>
      rw [hin] at hsource ⊢
      simp only [hstop, if_true, Owner.sealClean, hseal]
      have hemission := emission_ingestAll none hin
      have hended : o.ended = false := Owner.ended_ingestAll serde orders none request hin
      exact @Owner.agrees_quarantineAndFinish orders { o with decoder := d } hended
        (tallied_empty.emission hemission) hemission.unresolved _ hsource _
  | @unsealed o d ops a e hin hstop hseal hall =>
      rw [hin] at hsource ⊢
      simp only [hstop, if_true, Owner.sealClean, hseal, Owner.assemble, hall]
      have hsealing := emission_sealAll none orders request ops o.assembly
      rw [hall] at hsealing
      have hemission : Emission none anyVoice {} a := (emission_ingestAll none hin).trans hsealing
      have hended : o.ended = false := Owner.ended_ingestAll serde orders none request hin
      exact @Owner.agrees_quarantineAndFinish orders { o with decoder := d, assembly := a } hended
        (tallied_empty.emission hemission) hemission.unresolved _ hsource _
  | @complete o d ops a hin hstop hseal hall =>
      rw [hin] at hsource ⊢
      simp only [hstop, if_true, Owner.sealClean, hseal, Owner.assemble, hall]
      have hsealing := emission_sealAll none orders request ops o.assembly
      rw [hall] at hsealing
      have hemission : Emission none anyVoice {} a := (emission_ingestAll none hin).trans hsealing
      have hended : o.ended = false := Owner.ended_ingestAll serde orders none request hin
      exact @Owner.agrees_finish { o with decoder := d, assembly := a } hended
        (tallied_empty.emission hemission) hemission.unresolved _ hsource _

end Run

end Monoloop.Interpreter
