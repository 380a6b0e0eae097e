import Monoloop.Coordinator.SupervisedPass
import Monoloop.Coordinator.Transcript

/-!
# The supervised pass refines the plain one

The queues hold what one side has sent and the other has not taken (`Fed`, `Replayed`);
an error has a cause outside the pass or in the Loop itself (`Explained`). From these,
whatever the interleaving, the results are those of `runSupervisedLoop`, and of a pass
that is stopped on the way they are the first of them.
-/

namespace Monoloop.Coordinator

open ToolLoop Transition

variable {Json : Type}

/-! ## Collecting -/

section Collecting

variable {serde : SerdeJson Json} {x : ToolExchange}

/-- Results are only added. -/
theorem results_le_collect (events : List LoopOutputEvent)
    (results : List (CanonicalToolResult Json)) :
    results <+: collectResults serde x events results := by
  induction events generalizing results with
  | nil => exact List.prefix_rfl
  | cons event rest ih =>
      cases event with
      | outboundToolResult r => exact (List.prefix_append _ _).trans (ih _)
      | loopEnded report => exact List.prefix_rfl
      | toolDispatchRequested _ _ | toolUnavailable _ _ | diagnostic _ => exact ih _

theorem collect_append {events more : List LoopOutputEvent}
    {results : List (CanonicalToolResult Json)}
    (h : ∀ e ∈ events, LoopOutputEvent.isEnd e = false) :
    collectResults serde x (events ++ more) results =
      collectResults serde x more (collectResults serde x events results) := by
  induction events generalizing results with
  | nil => rfl
  | cons event rest ih =>
      obtain ⟨hevent, hrest⟩ := List.forall_mem_cons.mp h
      cases event with
      | loopEnded report => cases hevent
      | outboundToolResult _ | toolDispatchRequested _ _ | toolUnavailable _ _ | diagnostic _ =>
          exact ih hrest

/-- What is collected so far is the first part of what is collected in the end. -/
theorem collect_le_append (events more : List LoopOutputEvent)
    (results : List (CanonicalToolResult Json)) :
    collectResults serde x events results <+: collectResults serde x (events ++ more) results := by
  induction events generalizing results with
  | nil => exact results_le_collect more results
  | cons event rest ih =>
      cases event with
      | loopEnded report => exact List.prefix_rfl
      | outboundToolResult _ | toolDispatchRequested _ _ | toolUnavailable _ _ | diagnostic _ =>
          exact ih _

/-- Nothing is collected of an end. -/
theorem collect_append_ends {ends : List LoopOutputEvent}
    (h : ∀ e ∈ ends, LoopOutputEvent.isEnd e = true) (events : List LoopOutputEvent)
    (results : List (CanonicalToolResult Json)) :
    collectResults serde x (events ++ ends) results = collectResults serde x events results := by
  induction events generalizing results with
  | nil =>
      cases ends with
      | nil => rfl
      | cons event rest =>
          have hevent := h event List.mem_cons_self
          cases event with
          | loopEnded report => rfl
          | outboundToolResult _ | toolDispatchRequested _ _ | toolUnavailable _ _
          | diagnostic _ => cases hevent
  | cons event rest ih =>
      cases event with
      | loopEnded report => rfl
      | outboundToolResult _ | toolDispatchRequested _ _ | toolUnavailable _ _ | diagnostic _ =>
          exact ih _

end Collecting

/-! ## Deliveries -/

/-- The units, numbered from `n`. -/
def deliveries (n : Nat) : List CanonicalUnitEvent → List DeliveredEvent
  | [] => []
  | unit :: rest => ⟨n, .unit unit⟩ :: deliveries (n + 1) rest

theorem number_feed (n : Nat) (units : List CanonicalUnitEvent) :
    number n (feed units) = (deliveries n units).map .delivered ++ [.closed] := by
  induction units generalizing n with
  | nil => rfl
  | cons unit rest ih =>
      rw [deliveries, List.map_cons, List.cons_append, ← ih]
      rfl

section Loop

variable {env : LoopEnvironment} {o : LoopOwner}

/-- A delivery alone drains no Loop. -/
theorem delivered_kind {delivered : DeliveredEvent} {report : LoopEnd} (hlive : o.ended = none)
    (h : (o.step env (.delivered delivered)).1.ended = some report) : report.kind ≠ .drained := by
  have hclose : ∀ t : Turn, (t.result = .ok () → t.owner.ended = none) →
      (∀ kind, t.result = .error kind → kind ≠ .drained) →
      (LoopOwner.close env t).1.ended = some report → report.kind ≠ .drained := by
    intro t hok herror hended
    unfold LoopOwner.close at hended
    split at hended
    · rename_i hresult
      rw [hok hresult] at hended
      cases hended
    · rename_i kind hresult
      cases hended
      exact herror kind hresult
  rw [show o.step env (.delivered delivered) = LoopOwner.close env (o.onDelivered env delivered) by
    simp [LoopOwner.step, hlive]] at h
  obtain ⟨sequence, event⟩ := delivered
  have hturn : ((o.onDelivered env ⟨sequence, event⟩).result = .ok () →
        (o.onDelivered env ⟨sequence, event⟩).owner.ended = none) ∧
      ∀ kind, (o.onDelivered env ⟨sequence, event⟩).result = .error kind → kind ≠ .drained := by
    unfold LoopOwner.onDelivered
    split
    · exact ⟨fun hok => (by cases hok), fun kind herror => (by cases herror; simp)⟩
    · cases event with
      | ended kind => exact ⟨fun _ => hlive, fun _ herror => (by cases herror)⟩
      | unit event =>
          have hfacts := onUnit_facts env
            { o with lastSeq := sequence, deliveryEvents := o.deliveryEvents + 1 } event
          exact ⟨fun hok => (hfacts.ended hok).trans hlive,
            fun kind herror => (hfacts.failure kind herror).1⟩
  exact hclose _ hturn.1 hturn.2 h

theorem run_delivered_kind {deliveries : List DeliveredEvent} {report : LoopEnd}
    (hlive : o.ended = none)
    (h : (o.run env (deliveries.map .delivered)).ended = some report) :
    report.kind ≠ .drained := by
  induction deliveries generalizing o with
  | nil =>
      have hended : o.ended = some report := h
      rw [hlive] at hended
      cases hended
  | cons delivered rest ih =>
      rw [List.map_cons, LoopOwner.run] at h
      cases hnow : (o.step env (.delivered delivered)).1.ended with
      | none => exact ih hnow h
      | some report' =>
          rw [(trace_ended env _ (by rw [hnow]; rfl)).2.2, hnow] at h
          cases h
          exact delivered_kind hlive hnow

theorem step_closed (hlive : o.ended = none) : o.step env .closed = o.finish env .drained := by
  simp [LoopOwner.step, hlive]

theorem step_cancelled (hlive : o.ended = none) :
    o.step env .cancelled = o.finish env .cancelled := by
  simp [LoopOwner.step, hlive]

/-- A run that has ended takes nothing more. -/
theorem run_of_ended {inputs more : List LoopInput} (h : (o.run env inputs).ended.isSome = true) :
    o.run env (inputs ++ more) = o.run env inputs ∧
      o.output env (inputs ++ more) = o.output env inputs := by
  rw [run_append, output_append, (trace_ended env more h).2.1, (trace_ended env more h).2.2,
    List.append_nil]
  exact ⟨rfl, rfl⟩

end Loop

/-! ## What the queues hold -/

section Invariants

variable {p : PassParams Json} {s s' : SupervisedPass Json} {a : PassAction}

/-- The Loop that a pass prepares. -/
def PassParams.owner (p : PassParams Json) : LoopOwner := preparedLoop p.exchange.transactionId

/-- The results of the pass without queues. -/
def PassParams.plain (p : PassParams Json) :
    Except LoopDispatchError (List (CanonicalToolResult Json)) :=
  runSupervisedLoop p.serde ⟨p.environment, none⟩ p.exchange p.units

/-- All that the Loop sends when nothing interrupts it. -/
def PassParams.whole (p : PassParams Json) : List LoopOutputEvent :=
  p.owner.output p.environment (passInputs p.exchange p.units)

theorem passInputs_eq : passInputs p.exchange p.units =
    (deliveries 1 p.scoped).map .delivered ++ [.closed] := number_feed 1 _

/-- The receive loop still reads. -/
def PassPhase.reads : PassPhase Json → Bool
  | .feeding _ _ | .driving _ | .fed | .receiving | .publishing => true
  | _ => false

/-- What the Loop sent is received, in the queue, or about to be sent. -/
structure Replayed (p : PassParams Json) (s : SupervisedPass Json) (received : List LoopOutputEvent) :
    Prop where
  owner : s.owner = p.owner.run p.environment s.inputs
  sent : received ++ s.output ++ s.unsent = p.owner.output p.environment s.inputs
  results : s.results = collectResults p.serde p.exchange received []
  reads : s.phase.reads = true → ∀ e ∈ received, LoopOutputEvent.isEnd e = false
  joins : s.phase = .joining →
    (∀ more, collectResults p.serde p.exchange (received ++ more) [] = s.results) ∨
      (s.loopDone = true ∧ s.output = [])

theorem SupervisedPass.listening_iff :
    s.listening = true ↔ s.owner.ended = none ∧ s.unsent = [] := by
  rw [SupervisedPass.listening, Bool.and_eq_true, Option.isNone_iff_eq_none, List.isEmpty_iff]

theorem SupervisedPass.loopDone_iff :
    s.loopDone = true ↔ s.owner.ended.isSome = true ∧ s.unsent = [] := by
  rw [SupervisedPass.loopDone, Bool.and_eq_true, List.isEmpty_iff]

theorem SupervisedPass.not_loopDone_of_listening (h : s.listening = true) :
    s.loopDone ≠ true := by
  intro hdone
  have hended := (loopDone_iff.mp hdone).1
  rw [(listening_iff.mp h).1] at hended
  cases hended

variable {received : List LoopOutputEvent}

/-- A turn of the Loop. -/
theorem Replayed.turn (h : Replayed p s received) (hlistening : s.listening = true)
    {subscription : List DeliveredEvent} (input : LoopInput) :
    Replayed p ({ s with subscription }.turn p input) received where
  owner := by
    show (s.owner.step p.environment input).1 = _
    rw [h.owner]
    exact (run_append p.environment s.inputs [input] p.owner).symm
  sent := by
    have hsent := h.sent
    rw [(SupervisedPass.listening_iff.mp hlistening).2, List.append_nil] at hsent
    show received ++ s.output ++ (s.owner.step p.environment input).2 =
      p.owner.output p.environment (s.inputs ++ [input])
    rw [output_append, ← hsent, output_cons, h.owner]
    exact congrArg _ (List.append_nil _).symm
  results := h.results
  reads := h.reads
  joins hphase := by
    rcases h.joins hphase with hall | ⟨hdone, -⟩
    · exact .inl hall
    · exact absurd hdone (SupervisedPass.not_loopDone_of_listening hlistening)

/-- A step that leaves the Loop and its output alone, and does not join. -/
theorem Replayed.same (h : Replayed p s received) (howner : s'.owner = s.owner)
    (hinputs : s'.inputs = s.inputs) (hunsent : s'.unsent = s.unsent)
    (houtput : s'.output = s.output) (hresults : s'.results = s.results)
    (hreads : s'.phase.reads = true → s.phase.reads = true)
    (hjoins : s'.phase = .joining → s.phase = .joining) : Replayed p s' received where
  owner := by rw [howner, hinputs, h.owner]
  sent := by rw [houtput, hunsent, hinputs, h.sent]
  results := hresults.trans h.results
  reads hphase := h.reads (hreads hphase)
  joins hphase := by
    rw [hresults, houtput, SupervisedPass.loopDone, howner, hunsent]
    exact h.joins (hjoins hphase)

theorem feedFails_fields (error : LoopDispatchError) :
    (s.feedFails p error).owner = s.owner ∧ (s.feedFails p error).inputs = s.inputs ∧
      (s.feedFails p error).unsent = s.unsent ∧ (s.feedFails p error).output = s.output ∧
      (s.feedFails p error).results = s.results ∧
      (s.feedFails p error).subscription = s.subscription ∧
      ((s.feedFails p error).phase = .driving (.error error) ∨
        (s.feedFails p error).phase = .stopping error) := by
  unfold SupervisedPass.feedFails
  split
  · exact ⟨rfl, rfl, rfl, rfl, rfl, rfl, .inl rfl⟩
  · exact ⟨rfl, rfl, rfl, rfl, rfl, rfl, .inr rfl⟩

theorem Replayed.step (h : Replayed p s received) (hstep : PassStep p s a s') :
    ∃ received', Replayed p s' received' := by
  cases hstep with
  | cancel _ => exact ⟨received, h.same rfl rfl rfl rfl rfl id id⟩
  | deadline _ => exact ⟨received, h.same rfl rfl rfl rfl rfl id id⟩
  | waits _ _ => exact ⟨received, h.same rfl rfl rfl rfl rfl id id⟩
  | takes delivered rest hlistening _ _ => exact ⟨received, h.turn hlistening _⟩
  | drains hlistening _ _ _ => exact ⟨received, h.turn hlistening _⟩
  | halts _ _ hlistening _ => exact ⟨received, h.turn hlistening _⟩
  | sends event rest hunsent =>
      refine ⟨received, h.owner, ?_, h.results, h.reads, ?_⟩
      · rw [← h.sent, hunsent]
        simp
      · intro hphase
        rcases h.joins hphase with hall | ⟨hdone, -⟩
        · exact .inl hall
        · rw [(SupervisedPass.loopDone_iff.mp hdone).2] at hunsent
          cases hunsent
  | offers unit rest hphase =>
      exact ⟨received, h.same rfl rfl rfl rfl rfl (fun _ => by rw [hphase]; rfl)
        fun hjoin => by cases hjoin⟩
  | pushes rest delivered hphase =>
      exact ⟨received, h.same rfl rfl rfl rfl rfl (fun _ => by rw [hphase]; rfl)
        fun hjoin => by cases hjoin⟩
  | feeds hphase =>
      refine ⟨received, h.same rfl rfl rfl rfl rfl (fun _ => by rw [hphase]; rfl) ?_⟩
      intro hjoin
      dsimp only at hjoin
      split at hjoin <;> cases hjoin
  | feedFails _ _ rest offered error hphase _ =>
      obtain ⟨howner, hinputs, hunsent, houtput, hresults, -, hnext⟩ :=
        feedFails_fields (p := p) (s := s) error
      refine ⟨received, h.same howner hinputs hunsent houtput hresults
        (fun _ => by rw [hphase]; rfl) ?_⟩
      intro hjoin
      rcases hnext with hnext | hnext
      · rw [hnext] at hjoin
        cases hjoin
      · rw [hnext] at hjoin
        cases hjoin
  | notices _ _ => exact ⟨received, h.same rfl rfl rfl rfl rfl id id⟩
  | abandons rest offered hphase _ =>
      exact ⟨received, h.same rfl rfl rfl rfl rfl (fun hreads => by cases hreads)
        fun hjoin => by cases hjoin⟩
  | drives hphase =>
      exact ⟨received, h.same rfl rfl rfl rfl rfl (fun _ => by rw [hphase]; rfl)
        fun hjoin => by cases hjoin⟩
  | stops _ _ error _ _ =>
      exact ⟨received, h.same rfl rfl rfl rfl rfl (fun hreads => by cases hreads)
        fun hjoin => by cases hjoin⟩
  | opens hphase =>
      exact ⟨received, h.same rfl rfl rfl rfl rfl (fun _ => by rw [hphase]; rfl)
        fun hjoin => by cases hjoin⟩
  | result r rest hphase houtput =>
      have hordinary := h.reads (by rw [hphase]; rfl)
      refine ⟨received ++ [.outboundToolResult r], h.owner, ?_, ?_, ?_,
        fun hjoin => (by cases hjoin)⟩
      · rw [← h.sent, houtput]
        simp
      · rw [collect_append hordinary, ← h.results]
        rfl
      · intro _ e he
        rcases List.mem_append.mp he with he | he
        · exact hordinary e he
        · cases List.mem_singleton.mp he
          rfl
  | ended report rest hphase houtput =>
      have hordinary := h.reads (by rw [hphase]; rfl)
      have hcollected : ∀ more, collectResults p.serde p.exchange
          (received ++ [.loopEnded report] ++ more) [] = s.results := by
        intro more
        rw [List.append_assoc, collect_append hordinary, ← h.results]
        rfl
      refine ⟨received ++ [.loopEnded report], h.owner, ?_, ?_, fun hreads => (by cases hreads),
        fun _ => .inl hcollected⟩
      · rw [← h.sent, houtput]
        simp
      · have hnone := hcollected []
        rw [List.append_nil] at hnone
        exact hnone.symm
  | skips event rest hphase houtput hend hresult =>
      have hordinary := h.reads (by rw [hphase]; rfl)
      refine ⟨received ++ [event], h.owner, ?_, ?_, ?_, ?_⟩
      · rw [← h.sent, houtput]
        simp
      · rw [collect_append hordinary, ← h.results]
        cases event with
        | outboundToolResult r => exact absurd rfl (hresult r)
        | loopEnded report => cases hend
        | toolDispatchRequested _ _ | toolUnavailable _ _ | diagnostic _ => rfl
      · intro _ e he
        rcases List.mem_append.mp he with he | he
        · exact hordinary e he
        · cases List.mem_singleton.mp he
          exact hend
      · intro hjoin
        dsimp only at hjoin
        rw [hphase] at hjoin
        cases hjoin
  | emptied hphase houtput hdone =>
      exact ⟨received, h.owner, h.sent, h.results, fun hreads => (by cases hreads),
        fun _ => .inr ⟨hdone, houtput⟩⟩
  | published hphase =>
      exact ⟨received, h.same rfl rfl rfl rfl rfl (fun _ => by rw [hphase]; rfl)
        fun hjoin => by cases hjoin⟩
  | refuses hphase =>
      exact ⟨received, h.same rfl rfl rfl rfl rfl (fun hreads => by cases hreads)
        fun hjoin => by cases hjoin⟩
  | joins hphase _ =>
      exact ⟨received, h.same rfl rfl rfl rfl rfl (fun hreads => by cases hreads)
        fun hjoin => by cases hjoin⟩
  | leaves error hphase _ =>
      exact ⟨received, h.same rfl rfl rfl rfl rfl (fun hreads => by cases hreads)
        fun hjoin => by cases hjoin⟩

/-! ## What the Loop has taken -/

/-- What is still to be published. -/
def SupervisedPass.toCome (s : SupervisedPass Json) : List DeliveredEvent :=
  match s.phase with
  | .feeding rest offered => offered.toList ++ deliveries s.nextSeq rest
  | _ => []

/-- The feed has not failed. -/
def PassPhase.complete : PassPhase Json → Bool
  | .driving (.error _) | .stopping _ | .returned (.error _) => false
  | _ => true

/-- How the Loop's input ends: not yet, behind the last delivery, or with a cancel. -/
inductive InputEnds (s : SupervisedPass Json) : List LoopInput → Prop where
  | going : InputEnds s []
  | closed (hclosed : s.closed = true) (hsubscription : s.subscription = [])
      (hended : s.owner.ended.isSome = true) : InputEnds s [.closed]
  | cancelled (hcontrol : s.control = true)
      (hkind : s.owner.ended.map LoopEnd.kind = some .cancelled) : InputEnds s [.cancelled]

/-- Every delivery is taken, in the queue, to come, or lost with a feed that failed. -/
structure Fed (p : PassParams Json) (s : SupervisedPass Json) (taken : List DeliveredEvent)
    (ends : List LoopInput) (lost : List DeliveredEvent) : Prop where
  inputs : s.inputs = taken.map .delivered ++ ends
  stream : taken ++ s.subscription ++ s.toCome ++ lost = deliveries 1 p.scoped
  complete : s.phase.complete = true → lost = []
  ends : InputEnds s ends

variable {taken lost : List DeliveredEvent} {ends : List LoopInput}

theorem SupervisedPass.closed_eq_false {rest : List CanonicalUnitEvent}
    {offered : Option DeliveredEvent} (h : s.phase = .feeding rest offered) :
    s.closed = false := by
  unfold closed
  rw [h]

theorem SupervisedPass.toCome_of_closed (h : s.closed = true) : s.toCome = [] := by
  unfold toCome
  split
  · rename_i hphase
    rw [closed_eq_false hphase] at h
    cases h
  · rfl

theorem Fed.going (h : Fed p s taken ends lost) (hlistening : s.listening = true) : ends = [] := by
  have hlive := (SupervisedPass.listening_iff.mp hlistening).1
  cases h.ends with
  | going => rfl
  | closed _ _ hended =>
      rw [hlive] at hended
      cases hended
  | cancelled _ hkind =>
      rw [hlive] at hkind
      cases hkind

/-- A step of the pass that moves no delivery. -/
theorem Fed.same (h : Fed p s taken ends lost) (howner : s'.owner = s.owner)
    (hinputs : s'.inputs = s.inputs) (hsubscription : s'.subscription = s.subscription)
    (hcome : s'.toCome = s.toCome)
    (hcomplete : s'.phase.complete = true → s.phase.complete = true)
    (hclosed : s.closed = true → s'.closed = true)
    (hcontrol : s.control = true → s'.control = true) : Fed p s' taken ends lost where
  inputs := hinputs.trans h.inputs
  stream := by rw [hsubscription, hcome, h.stream]
  complete hphase := h.complete (hcomplete hphase)
  ends := by
    cases h.ends with
    | going => exact .going
    | closed hnow hnone hended =>
        exact .closed (hclosed hnow) (hsubscription.trans hnone) (howner ▸ hended)
    | cancelled hnow hkind => exact .cancelled (hcontrol hnow) (howner ▸ hkind)

/-- The pass gives up: what was to come is lost. -/
theorem Fed.fails (h : Fed p s taken ends lost) (howner : s'.owner = s.owner)
    (hinputs : s'.inputs = s.inputs) (hsubscription : s'.subscription = s.subscription)
    (hcomplete : s'.phase.complete = false) (hclosed : s'.closed = true)
    (hcontrol : s.control = true → s'.control = true) :
    Fed p s' taken ends (s.toCome ++ lost) where
  inputs := hinputs.trans h.inputs
  stream := by
    rw [SupervisedPass.toCome_of_closed hclosed, hsubscription, List.append_nil, ← List.append_assoc,
      h.stream]
  complete hphase := by
    rw [hcomplete] at hphase
    cases hphase
  ends := by
    cases h.ends with
    | going => exact .going
    | closed _ hnone hended => exact .closed hclosed (hsubscription.trans hnone) (howner ▸ hended)
    | cancelled hnow hkind => exact .cancelled (hcontrol hnow) (howner ▸ hkind)

theorem Fed.step (h : Fed p s taken ends lost) (hstep : PassStep p s a s') :
    ∃ taken' ends' lost', Fed p s' taken' ends' lost' := by
  -- a step between two phases behind the feed
  have hbehind : s.closed = true → s'.closed = true → s'.owner = s.owner →
      s'.inputs = s.inputs → s'.subscription = s.subscription →
      (s'.phase.complete = true → s.phase.complete = true) →
      (s.control = true → s'.control = true) →
      ∃ taken' ends' lost', Fed p s' taken' ends' lost' := by
    intro hclosed hclosed' howner hinputs hsubscription hcomplete hcontrol
    exact ⟨taken, ends, lost, h.same howner hinputs hsubscription
      (by rw [SupervisedPass.toCome_of_closed hclosed, SupervisedPass.toCome_of_closed hclosed'])
      hcomplete (fun _ => hclosed') hcontrol⟩
  cases hstep with
  | cancel _ => exact ⟨taken, ends, lost, h.same rfl rfl rfl rfl id id id⟩
  | deadline _ => exact ⟨taken, ends, lost, h.same rfl rfl rfl rfl id id id⟩
  | waits _ _ => exact ⟨taken, ends, lost, h.same rfl rfl rfl rfl id id id⟩
  | takes delivered rest hlistening _ hsubscription =>
      refine ⟨taken ++ [delivered], [], lost, ?_, ?_, h.complete, .going⟩
      · show s.inputs ++ [.delivered delivered] = _
        rw [h.inputs, h.going hlistening]
        simp
      · show taken ++ [delivered] ++ rest ++ s.toCome ++ lost = _
        rw [← h.stream, hsubscription]
        simp
  | drains hlistening _ hsubscription hclosed =>
      refine ⟨taken, [.closed], lost, ?_, h.stream, h.complete, .closed hclosed hsubscription ?_⟩
      · show s.inputs ++ [.closed] = _
        rw [h.inputs, h.going hlistening, List.append_nil]
      · show (s.owner.step p.environment .closed).1.ended.isSome = true
        rw [step_closed (SupervisedPass.listening_iff.mp hlistening).1]
        rfl
  | halts _ _ hlistening hcontrol =>
      refine ⟨taken, [.cancelled], lost, ?_, h.stream, h.complete, .cancelled hcontrol ?_⟩
      · show s.inputs ++ [.cancelled] = _
        rw [h.inputs, h.going hlistening, List.append_nil]
      · show (s.owner.step p.environment .cancelled).1.ended.map LoopEnd.kind = _
        rw [step_cancelled (SupervisedPass.listening_iff.mp hlistening).1]
        rfl
  | sends event rest _ => exact ⟨taken, ends, lost, h.same rfl rfl rfl rfl id id id⟩
  | offers unit rest hphase =>
      refine ⟨taken, ends, lost, h.same rfl rfl rfl ?_ (fun _ => by rw [hphase]; rfl) ?_ id⟩
      · unfold SupervisedPass.toCome
        rw [hphase]
        rfl
      · intro hclosed
        rw [SupervisedPass.closed_eq_false hphase] at hclosed
        cases hclosed
  | pushes rest delivered hphase =>
      have hopen := SupervisedPass.closed_eq_false hphase
      have hlost := h.complete (by rw [hphase]; rfl)
      refine ⟨taken, ends, lost, h.inputs, ?_, fun _ => hlost, ?_⟩
      · rw [← h.stream]
        unfold SupervisedPass.toCome
        rw [hphase]
        simp
      · cases h.ends with
        | going => exact .going
        | closed hclosed _ _ =>
            rw [hopen] at hclosed
            cases hclosed
        | cancelled hcontrol hkind => exact .cancelled hcontrol hkind
  | feeds hphase =>
      have hclosed : SupervisedPass.closed { s with
          phase := if p.driven then .driving (.ok ()) else .fed } = true := by
        unfold SupervisedPass.closed
        cases p.driven <;> rfl
      refine ⟨taken, ends, lost, h.same rfl rfl rfl ?_ (fun _ => by rw [hphase]; rfl)
        (fun _ => hclosed) id⟩
      rw [SupervisedPass.toCome_of_closed hclosed]
      unfold SupervisedPass.toCome
      rw [hphase]
      rfl
  | feedFails _ _ rest offered error hphase _ =>
      obtain ⟨howner, hinputs, -, -, -, hsubscription, hnext⟩ :=
        feedFails_fields (p := p) (s := s) error
      refine ⟨taken, ends, s.toCome ++ lost, h.fails howner hinputs hsubscription ?_ ?_ ?_⟩
      · rcases hnext with hnext | hnext <;> rw [hnext] <;> rfl
      · unfold SupervisedPass.closed
        rcases hnext with hnext | hnext <;> rw [hnext]
      · intro hcontrol
        unfold SupervisedPass.feedFails
        split
        · exact hcontrol
        · rfl
  | notices _ _ =>
      exact ⟨taken, ends, lost, h.same rfl rfl rfl rfl id id fun _ => rfl⟩
  | abandons rest offered hphase _ =>
      exact ⟨taken, ends, s.toCome ++ lost, h.fails rfl rfl rfl rfl rfl fun _ => rfl⟩
  | drives hphase =>
      exact hbehind (by unfold SupervisedPass.closed; rw [hphase]) rfl rfl rfl rfl
        (fun _ => by rw [hphase]; rfl) id
  | stops _ _ error _ _ =>
      exact ⟨taken, ends, s.toCome ++ lost, h.fails rfl rfl rfl rfl rfl fun _ => rfl⟩
  | opens hphase =>
      exact hbehind (by unfold SupervisedPass.closed; rw [hphase]) rfl rfl rfl rfl
        (fun _ => by rw [hphase]; rfl) id
  | result r rest hphase _ =>
      exact hbehind (by unfold SupervisedPass.closed; rw [hphase]) rfl rfl rfl rfl
        (fun _ => by rw [hphase]; rfl) id
  | ended report rest hphase _ =>
      exact hbehind (by unfold SupervisedPass.closed; rw [hphase]) rfl rfl rfl rfl
        (fun _ => by rw [hphase]; rfl) id
  | skips event rest hphase _ _ _ => exact ⟨taken, ends, lost, h.same rfl rfl rfl rfl id id id⟩
  | emptied hphase _ _ =>
      exact hbehind (by unfold SupervisedPass.closed; rw [hphase]) rfl rfl rfl rfl
        (fun _ => by rw [hphase]; rfl) id
  | published hphase =>
      exact hbehind (by unfold SupervisedPass.closed; rw [hphase]) rfl rfl rfl rfl
        (fun _ => by rw [hphase]; rfl) id
  | refuses hphase =>
      exact ⟨taken, ends, s.toCome ++ lost, h.fails rfl rfl rfl rfl rfl fun _ => rfl⟩
  | joins hphase _ =>
      exact hbehind (by unfold SupervisedPass.closed; rw [hphase]) rfl rfl rfl rfl
        (fun _ => by rw [hphase]; rfl) id
  | leaves error hphase _ =>
      exact hbehind (by unfold SupervisedPass.closed; rw [hphase]) rfl rfl rfl rfl
        (fun hcomplete => by cases hcomplete) id

/-! ## Why a pass fails -/

/-- Something from outside has come in the way. -/
def SupervisedPass.Disturbed (s : SupervisedPass Json) : Prop :=
  s.cancelled = true ∨ s.late = true ∨ s.refused = true

/-- The plain pass has no results either. -/
def PassParams.Doomed (p : PassParams Json) : Prop := ∀ results, p.plain ≠ .ok results

def PassPhase.fails : PassPhase Json → Bool
  | .driving (.error _) | .stopping _ | .returned (.error _) => true
  | _ => false

structure Explained (p : PassParams Json) (s : SupervisedPass Json) : Prop where
  control : s.control = true → s.Disturbed ∨ p.Doomed
  fails : s.phase.fails = true → s.Disturbed ∨ p.Doomed
  returned : ∀ results, s.phase = .returned (.ok results) → p.plain = .ok results

/-- The plain pass makes the same of the end of its Loop. -/
theorem plain_eq_outcome (howner : s.owner =
      p.owner.run p.environment (passInputs p.exchange p.units))
    (hresults : s.results = collectResults p.serde p.exchange p.whole []) :
    p.plain = s.outcome := by
  unfold SupervisedPass.outcome
  rw [howner, hresults]
  rfl

theorem outcome_ne_ok (h : s.owner.ended.map LoopEnd.kind ≠ some .drained)
    (results : List (CanonicalToolResult Json)) : s.outcome ≠ .ok results := by
  unfold SupervisedPass.outcome
  split
  · rename_i hdrained
    exact absurd hdrained h
  · simp
  · simp

/-- A Loop whose input is not at its end has not drained. -/
theorem not_drained (hreplayed : Replayed p s received) (hfed : Fed p s taken [] lost) :
    s.owner.ended.map LoopEnd.kind ≠ some .drained := by
  have howner := hreplayed.owner
  rw [hfed.inputs, List.append_nil] at howner
  cases hreport : s.owner.ended with
  | none => simp
  | some report =>
      have hkind : report.kind ≠ .drained := by
        rw [howner] at hreport
        exact run_delivered_kind rfl hreport
      simpa using hkind

/-- A Loop that ends before its input does. -/
theorem doomed_of_early (hreplayed : Replayed p s received) (hfed : Fed p s taken [] lost)
    (hended : s.owner.ended.isSome = true) : p.Doomed := by
  have howner := hreplayed.owner
  rw [hfed.inputs, List.append_nil] at howner
  have hsplit : passInputs p.exchange p.units = taken.map .delivered ++
      ((s.subscription ++ s.toCome ++ lost).map .delivered ++ [.closed]) := by
    rw [passInputs_eq, ← hfed.stream]
    simp
  have hrun : s.owner = p.owner.run p.environment (passInputs p.exchange p.units) := by
    rw [hsplit, (run_of_ended (howner ▸ hended)).1, howner]
  have hplain : p.plain =
      SupervisedPass.outcome { s with results := collectResults p.serde p.exchange p.whole [] } :=
    plain_eq_outcome hrun rfl
  have hkind := not_drained hreplayed hfed
  intro results
  rw [hplain]
  refine outcome_ne_ok ?_ results
  exact hkind

theorem early_explained (h : Explained p s) (hreplayed : Replayed p s received)
    (hfed : Fed p s taken ends lost) (hopen : s.closed = false) (hdone : s.loopDone = true) :
    s.Disturbed ∨ p.Doomed := by
  have hended := (SupervisedPass.loopDone_iff.mp hdone).1
  cases hfed.ends with
  | going => exact .inr (doomed_of_early hreplayed hfed hended)
  | closed hclosed _ _ =>
      rw [hopen] at hclosed
      cases hclosed
  | cancelled hcontrol _ => exact h.control hcontrol

/-- What is returned behind the receive loop. -/
theorem join_explained (h : Explained p s) (hreplayed : Replayed p s received)
    (hfed : Fed p s taken ends lost) (hphase : s.phase = .joining) (hdone : s.loopDone = true) :
    p.plain = s.outcome ∨ ((∀ results, s.outcome ≠ .ok results) ∧ (s.Disturbed ∨ p.Doomed)) := by
  obtain ⟨hended, hunsent⟩ := SupervisedPass.loopDone_iff.mp hdone
  have hlost : lost = [] := hfed.complete (by rw [hphase]; rfl)
  have hcome : s.toCome = [] := by
    unfold SupervisedPass.toCome
    rw [hphase]
  cases hfed.ends with
  | going =>
      right
      exact ⟨outcome_ne_ok (not_drained hreplayed hfed),
        .inr (doomed_of_early hreplayed hfed hended)⟩
  | closed _ hsubscription _ =>
      left
      have hall : s.inputs = passInputs p.exchange p.units := by
        have hstream := hfed.stream
        rw [hsubscription, hcome, hlost, List.append_nil, List.append_nil, List.append_nil] at hstream
        rw [passInputs_eq, ← hstream, hfed.inputs]
      have hresults : s.results = collectResults p.serde p.exchange p.whole [] := by
        have hsent := hreplayed.sent
        rw [hunsent, List.append_nil, hall] at hsent
        rw [PassParams.whole, ← hsent]
        rcases hreplayed.joins hphase with hmore | ⟨-, houtput⟩
        · exact (hmore s.output).symm
        · rw [houtput, List.append_nil]
          exact hreplayed.results
      exact plain_eq_outcome (hall ▸ hreplayed.owner) hresults
  | cancelled hcontrol hkind =>
      exact .inr ⟨outcome_ne_ok (by rw [hkind]; simp), h.control hcontrol⟩

theorem disturbed_of_raised {error : LoopDispatchError} (h : s.raised error = true) :
    s.Disturbed := by
  cases error with
  | cancelled => exact .inl h
  | deadlineExceeded => exact .inr (.inl h)
  | publishFailed | startFailed | loopFailed => cases h

/-- A step that sets no flag and ends nothing. -/
theorem Explained.same (h : Explained p s) (hcontrol : s'.control = s.control)
    (hflags : s.Disturbed → s'.Disturbed)
    (hfails : s'.phase.fails = true → s.phase.fails = true)
    (hreturned : ∀ results, s'.phase = .returned (.ok results) →
      s.phase = .returned (.ok results)) : Explained p s' where
  control hnow := (h.control (hcontrol ▸ hnow)).imp_left hflags
  fails hnow := (h.fails (hfails hnow)).imp_left hflags
  returned results hnow := h.returned results (hreturned results hnow)

/-- A step that gives up, with its reason. -/
theorem Explained.because (hreason : s'.Disturbed ∨ p.Doomed)
    (hreturned : ∀ results, s'.phase ≠ .returned (.ok results)) : Explained p s' where
  control _ := hreason
  fails _ := hreason
  returned results hnow := absurd hnow (hreturned results)

theorem Explained.step (h : Explained p s) (hreplayed : Replayed p s received)
    (hfed : Fed p s taken ends lost) (hstep : PassStep p s a s') : Explained p s' := by
  cases hstep with
  | cancel _ => exact h.same rfl (fun _ => .inl rfl) id fun _ => id
  | deadline _ => exact h.same rfl (fun _ => .inr (.inl rfl)) id fun _ => id
  | waits _ _ => exact h.same rfl id id fun _ => id
  | takes delivered rest _ _ _ => exact h.same rfl id id fun _ => id
  | drains _ _ _ _ => exact h.same rfl id id fun _ => id
  | halts _ _ _ _ => exact h.same rfl id id fun _ => id
  | sends event rest _ => exact h.same rfl id id fun _ => id
  | offers unit rest _ =>
      exact h.same rfl id (fun hfails => by cases hfails) fun _ hnow => by cases hnow
  | pushes rest delivered _ =>
      exact h.same rfl id (fun hfails => by cases hfails) fun _ hnow => by cases hnow
  | feeds _ =>
      refine h.same rfl id ?_ ?_
      · intro hfails
        dsimp only at hfails
        split at hfails <;> cases hfails
      · intro _ hnow
        dsimp only at hnow
        split at hnow <;> cases hnow
  | feedFails _ _ rest offered error hphase hcause =>
      have hreason : s.Disturbed ∨ p.Doomed := by
        rcases hcause with hraised | hdone
        · exact .inl (disturbed_of_raised hraised)
        · exact early_explained h hreplayed hfed (SupervisedPass.closed_eq_false hphase) hdone
      have hflags : (s.feedFails p error).Disturbed ↔ s.Disturbed := by
        unfold SupervisedPass.feedFails
        split <;> rfl
      refine .because (hreason.imp_left hflags.mpr) ?_
      intro results
      rcases (feedFails_fields (p := p) (s := s) error).2.2.2.2.2.2 with hnext | hnext
      · rw [hnext]
        simp
      · rw [hnext]
        simp
  | notices _ hcancelled =>
      exact ⟨fun _ => .inl (.inl hcancelled), h.fails, h.returned⟩
  | abandons rest offered hphase hdone =>
      have hreason : s.Disturbed ∨ p.Doomed :=
        early_explained h hreplayed hfed (SupervisedPass.closed_eq_false hphase) hdone
      exact .because hreason fun _ hnow => by cases hnow
  | drives _ => exact h.same rfl id (fun hfails => by cases hfails) fun _ hnow => by cases hnow
  | stops _ _ error _ hcause =>
      refine .because ?_ fun _ hnow => by cases hnow
      rcases hcause with hraised | hphase
      · exact .inl (disturbed_of_raised hraised)
      · exact h.fails (by rw [hphase]; rfl)
  | opens _ => exact h.same rfl id (fun hfails => by cases hfails) fun _ hnow => by cases hnow
  | result r rest _ _ =>
      exact h.same rfl id (fun hfails => by cases hfails) fun _ hnow => by cases hnow
  | ended report rest _ _ =>
      exact h.same rfl id (fun hfails => by cases hfails) fun _ hnow => by cases hnow
  | skips event rest _ _ _ _ => exact h.same rfl id id fun _ => id
  | emptied _ _ _ =>
      exact h.same rfl id (fun hfails => by cases hfails) fun _ hnow => by cases hnow
  | published _ =>
      exact h.same rfl id (fun hfails => by cases hfails) fun _ hnow => by cases hnow
  | refuses _ => exact .because (.inl (.inr (.inr rfl))) fun _ hnow => by cases hnow
  | joins hphase hdone =>
      rcases join_explained h hreplayed hfed hphase hdone with hplain | ⟨hfailed, hreason⟩
      · refine ⟨h.control, ?_, ?_⟩
        · intro hfails
          right
          intro results hok
          dsimp only at hfails
          rw [← hplain, hok] at hfails
          cases hfails
        · intro results hnow
          dsimp only at hnow
          rw [hplain]
          exact PassPhase.returned.inj hnow
      · refine .because hreason ?_
        intro results hnow
        exact hfailed results (PassPhase.returned.inj hnow)
  | leaves error hphase _ =>
      exact .because (h.fails (by rw [hphase]; rfl)) fun _ hnow => by cases hnow

/-! ## Refinement -/

/-- What holds of a pass at any time. -/
structure Passing (p : PassParams Json) (s : SupervisedPass Json) : Prop where
  replayed : ∃ received, Replayed p s received
  fed : ∃ taken ends lost, Fed p s taken ends lost
  explained : Explained p s

theorem Passing.start : Passing p (.start p) where
  replayed := ⟨[], rfl, rfl, rfl, fun _ e he => (by cases he), fun hphase => (by cases hphase)⟩
  fed := ⟨[], [], [], rfl, List.append_nil _, fun _ => rfl, .going⟩
  explained := ⟨fun hcontrol => (by cases hcontrol), fun hfails => (by cases hfails),
    fun _ hphase => (by cases hphase)⟩

theorem Passing.step (h : Passing p s) (hstep : PassStep p s a s') : Passing p s' := by
  obtain ⟨⟨received, hreplayed⟩, ⟨taken, ends, lost, hfed⟩, hexplained⟩ := h
  exact ⟨hreplayed.step hstep, hfed.step hstep, hexplained.step hreplayed hfed hstep⟩

theorem passing_of_reach (h : (supervisedPass p).Reach always s) : Passing p s := by
  refine h.invariant (fun s hs => ?_) fun s a s' _ hs _ hstep => hs.step (passStep_of_step hstep)
  rw [hs]
  exact .start

/-- The end of the input sends nothing but the end. -/
theorem InputEnds.output (h : InputEnds s ends) (o : LoopOwner) :
    ∀ e ∈ o.output p.environment ends, LoopOutputEvent.isEnd e = true := by
  have hfinish : ∀ input kind, (o.ended = none → o.step p.environment input =
      o.finish p.environment kind) →
      ∀ e ∈ o.output p.environment [input], LoopOutputEvent.isEnd e = true := by
    intro input kind hstep e he
    rw [output_cons] at he
    cases hended : o.ended with
    | some report =>
        rw [step_ended p.environment input (by rw [hended]; rfl)] at he
        cases he
    | none =>
        rw [hstep hended] at he
        cases List.mem_singleton.mp he
        rfl
  cases h with
  | going =>
      intro e he
      cases he
  | closed _ _ _ => exact hfinish .closed .drained step_closed
  | cancelled _ _ => exact hfinish .cancelled .cancelled step_cancelled

/-- What was received first is collected first. -/
theorem results_le_whole (hreplayed : Replayed p s received) (hfed : Fed p s taken ends lost) :
    s.results <+: collectResults p.serde p.exchange p.whole [] := by
  have hsent := hreplayed.sent
  rw [hfed.inputs, output_append] at hsent
  have hwhole : p.whole = p.owner.output p.environment (taken.map .delivered) ++
      (p.owner.run p.environment (taken.map .delivered)).output p.environment
        ((s.subscription ++ s.toCome ++ lost).map .delivered ++ [.closed]) := by
    rw [← output_append, PassParams.whole, passInputs_eq, ← hfed.stream]
    simp
  calc s.results = collectResults p.serde p.exchange received [] := hreplayed.results
    _ <+: collectResults p.serde p.exchange (received ++ (s.output ++ s.unsent)) [] :=
        collect_le_append _ _ _
    _ = collectResults p.serde p.exchange
          (p.owner.output p.environment (taken.map .delivered)) [] := by
        rw [← List.append_assoc, hsent]
        exact collect_append_ends (hfed.ends.output _) _ _
    _ <+: collectResults p.serde p.exchange p.whole [] := by
        rw [hwhole]
        exact collect_le_append _ _ _

end Invariants

/-- **The queues change nothing.** In any interleaving of the pass, its Loop, a cancel and
the deadline, the results so far are the first of the plain pass. A pass that returns
results returns those of the plain pass, and it does return them unless it is cancelled,
late, or refused by the event publisher. -/
theorem supervisedPass_refines (p : PassParams Json) (s : SupervisedPass Json)
    (h : (supervisedPass p).Reach always s) :
    s.results <+: collectResults p.serde p.exchange p.whole [] ∧
      ∀ result, s.phase = .returned result →
        (∀ results, result = .ok results → p.plain = .ok results) ∧
        (¬ s.Disturbed → ∀ results, p.plain = .ok results → result = .ok results) := by
  obtain ⟨⟨received, hreplayed⟩, ⟨taken, ends, lost, hfed⟩, hexplained⟩ := passing_of_reach h
  refine ⟨results_le_whole hreplayed hfed, fun result hphase => ⟨?_, ?_⟩⟩
  · rintro results rfl
    exact hexplained.returned results hphase
  · intro hcalm results hplain
    cases result with
    | ok results' =>
        rw [hexplained.returned results' hphase] at hplain
        exact hplain
    | error error =>
        rcases hexplained.fails (by rw [hphase]; rfl) with hdisturbed | hdoomed
        · exact absurd hdisturbed hcalm
        · exact absurd hplain (hdoomed results)

/-! ## A pass with one call -/

/-- One call of a tool that nobody registered. -/
def oneCallPass : PassParams String where
  serde := textSerde
  exchange := firstExchange
  units := [readyUnit "call" 1]
  reply := emptyPass.loop.reply
  driven := false

/-- The pass feeds the Loop, which takes the call and the end; then it reads. -/
def oneCallRun : List PassAction :=
  [.feed, .feed, .look, .take, .feed, .send, .send, .send, .look, .take, .send, .check, .receive,
    .receive, .receive, .published true, .receive, .join]

/-- The results of a pass that has returned. -/
def SupervisedPass.returnedResults (s : SupervisedPass Json) :
    Option (List (CanonicalToolResult Json)) :=
  match s.phase with
  | .returned (.ok results) => some results
  | _ => none

theorem oneCallPass_refines : ∃ results, results.length = 1 ∧ oneCallPass.plain = .ok results := by
  obtain ⟨s, hreach, hone⟩ := System.exists_of_run (M := supervisedPass oneCallPass) rfl oneCallRun
    (fun s => s.returnedResults.map List.length == some 1) (by decide +kernel)
  obtain ⟨results, hresults, hlength⟩ := Option.map_eq_some_iff.mp (beq_iff_eq.mp hone)
  refine ⟨results, hlength, ?_⟩
  have hphase : s.phase = .returned (.ok results) := by
    unfold SupervisedPass.returnedResults at hresults
    split at hresults
    · rename_i hphase
      cases hresults
      exact hphase
    · cases hresults
  exact ((supervisedPass_refines oneCallPass s hreach).2 _ hphase).1 results rfl

end Monoloop.Coordinator
