import Monoloop.Coordinator.Exchange

/-!
# What a successful exchange returns

The collector works behind a queue. The coordinator decides for success when it
sees both end reports, which can be before the collector has read the units that
are still queued, and then waits for it only so long. So an exchange that returns
has all units when two things hold: what is queued at that moment still fits the
retention limit, and the grace does not expire while units are queued.
-/

namespace Monoloop.Coordinator

open Transition (System always)

/-- The units among events. -/
def unitsIn (events : List InterpreterOutputEvent) : List CanonicalUnitEvent :=
  events.filterMap fun
    | .unit unit => some unit
    | .ended _ => none

/-- The units published before the end report. -/
def unitsBeforeEnd : List InterpreterOutputEvent → List CanonicalUnitEvent
  | .unit unit :: rest => unit :: unitsBeforeEnd rest
  | .ended _ :: _ => []
  | [] => []

/-- The collector's check, unit by unit. -/
def fits (maxRetained : Nat) : Nat → List CanonicalUnitEvent → Bool
  | _, [] => true
  | retained, unit :: rest =>
      let total := satAdd retained (estimateRetainedUnitBytes unit)
      total ≤ maxRetained && fits maxRetained total rest

/-- The units still queued fit under the retention limit, which was not reached. -/
def Exchange.room (budget : ExchangeBudget) (s : Exchange) : Bool :=
  !s.limit &&
    match s.collector with
    | .collecting retained => fits budget.maxRetained retained (unitsIn s.events)
    | _ => true

/-- The coordinator is about to see two clean ends. -/
def Exchange.cleanEnds (s : Exchange) : Bool :=
  s.phase = .selecting .ends &&
    match s.interpretationEnd, s.connectionEnd with
    | some interp, some conn => (reconcileTerminals conn interp).isNone
    | _, _ => false

/-- **When an exchange cannot lose units**: success is decided only with room for
what is queued, and the grace of a successful exchange expires only when no unit
is queued. -/
def Unhurried (budget : ExchangeBudget) (s : Exchange) (a : ExchangeAction) : Prop :=
  (a = .poll → s.cleanEnds = true → s.room budget = true) ∧
    (a = .graceExpired → s.phase = .waiting none → unitsIn s.events = [])

instance (budget : ExchangeBudget) (s : Exchange) (a : ExchangeAction) :
    Decidable (Unhurried budget s a) :=
  inferInstanceAs (Decidable (_ ∧ _))

/-! ## Queue and log -/

@[simp] theorem unitsIn_nil : unitsIn [] = [] := rfl

@[simp] theorem unitsIn_unit (unit : CanonicalUnitEvent) (rest : List InterpreterOutputEvent) :
    unitsIn (.unit unit :: rest) = unit :: unitsIn rest := rfl

@[simp] theorem unitsIn_ended (kind : InterpretationEndKind) (rest : List InterpreterOutputEvent) :
    unitsIn (.ended kind :: rest) = unitsIn rest := rfl

@[simp] theorem unitsIn_append (l l' : List InterpreterOutputEvent) :
    unitsIn (l ++ l') = unitsIn l ++ unitsIn l' := by
  unfold unitsIn
  exact List.filterMap_append

/-- No end report among events. -/
def Unended (events : List InterpreterOutputEvent) : Prop :=
  ∀ kind, InterpreterOutputEvent.ended kind ∉ events

theorem unended_append_unit {events : List InterpreterOutputEvent} (h : Unended events)
    (unit : CanonicalUnitEvent) : Unended (events ++ [.unit unit]) := by
  intro kind hmem
  rcases List.mem_append.mp hmem with hmem | hmem
  · exact h kind hmem
  · cases List.mem_singleton.mp hmem

theorem unitsBeforeEnd_append {events : List InterpreterOutputEvent} (h : Unended events)
    (event : InterpreterOutputEvent) :
    unitsBeforeEnd (events ++ [event]) = unitsIn (events ++ [event]) := by
  induction events with
  | nil => cases event <;> rfl
  | cons first rest ih =>
      have hrest : Unended rest := fun kind hmem => h kind (List.mem_cons_of_mem _ hmem)
      cases first with
      | unit unit =>
          rw [List.cons_append, unitsBeforeEnd, unitsIn_unit, ih hrest]
      | ended kind => exact absurd (List.mem_cons_self ..) (h kind)

/-- The end report was sent, or is on its way to the coordinator. -/
def Interpreter.settled : Interpreter → Bool
  | .reporting _ | .ended => true
  | _ => false

/-- What holds of queue, log and collector in every state. -/
structure Queued (s : Exchange) : Prop where
  split : s.limit = false → unitsIn s.log = s.units ++ unitsIn s.events
  log : unitsBeforeEnd s.log = unitsIn s.log
  events : unitsBeforeEnd s.events = unitsIn s.events
  unended : s.interpreter.settled = false → Unended s.log ∧ Unended s.events
  done : s.collector = .done → s.limit = false → unitsIn s.events = []
  reported : s.interpretationEnd.isSome → s.interpreter = .ended

theorem Queued.opened : Queued .opened where
  split _ := rfl
  log := rfl
  events := rfl
  unended _ := ⟨fun _ => List.not_mem_nil, fun _ => List.not_mem_nil⟩
  done h := by cases h
  reported h := by cases h

section

variable {budget : ExchangeBudget} {s s' : Exchange} {a : ExchangeAction}

/-- Nothing else matters to it. -/
theorem Queued.same (h : Queued s) (hlimit : s'.limit = s.limit) (hlog : s'.log = s.log)
    (hunits : s'.units = s.units) (hevents : s'.events = s.events)
    (hinterpreter : s'.interpreter = s.interpreter) (hcollector : s'.collector = s.collector)
    (hend : s'.interpretationEnd = s.interpretationEnd) : Queued s' := by
  obtain ⟨hsplit, hlog', hevents', hunended, hdone, hreported⟩ := h
  rw [← hlimit, ← hlog, ← hunits, ← hevents] at hsplit
  rw [← hlog] at hlog'
  rw [← hevents] at hevents'
  rw [← hinterpreter, ← hlog, ← hevents] at hunended
  rw [← hcollector, ← hlimit, ← hevents] at hdone
  rw [← hend, ← hinterpreter] at hreported
  exact ⟨hsplit, hlog', hevents', hunended, hdone, hreported⟩

/-- The interpretation moves on without publishing, and has not ended. -/
theorem Queued.moves {i : Interpreter} (h : Queued s) (hbefore : s.interpreter ≠ .ended)
    (hsettled : i.settled = false → s.interpreter.settled = false) :
    Queued { s with interpreter := i } where
  split := h.split
  log := h.log
  events := h.events
  unended hi := h.unended (hsettled hi)
  done := h.done
  reported hsome := absurd (h.reported hsome) hbefore

/-- The interpretation publishes. -/
theorem Queued.publishes {i : Interpreter} {event : InterpreterOutputEvent} (h : Queued s)
    (hbefore : s.interpreter.settled = false) (hopen : s.closed = false)
    (hkind : i.settled = false → ∃ unit, event = .unit unit) :
    Queued { s with
      events := s.events ++ [event]
      log := s.log ++ [event]
      interpreter := i } where
  split hlimit := by
    show unitsIn (s.log ++ [event]) = s.units ++ unitsIn (s.events ++ [event])
    rw [unitsIn_append, unitsIn_append, h.split hlimit, List.append_assoc]
  log := unitsBeforeEnd_append (h.unended hbefore).1 event
  events := unitsBeforeEnd_append (h.unended hbefore).2 event
  unended hi := by
    obtain ⟨unit, rfl⟩ := hkind hi
    obtain ⟨hlog, hevents⟩ := h.unended hbefore
    exact ⟨unended_append_unit hlog unit, unended_append_unit hevents unit⟩
  done hdone := by
    simp [Exchange.closed, show s.collector = .done from hdone] at hopen
  reported hsome := by
    have hended := h.reported hsome
    rw [hended] at hbefore
    cases hbefore

/-- The collector takes the first event. -/
theorem Queued.takes {event : InterpreterOutputEvent} {rest : List InterpreterOutputEvent}
    (h : Queued s) (hevents : s.events = event :: rest) :
    unitsBeforeEnd rest = unitsIn rest ∧ (s.interpreter.settled = false → Unended rest) ∧
      ∀ kind, event = .ended kind → unitsIn rest = [] := by
  have hqueue := h.events
  rw [hevents] at hqueue
  refine ⟨?_, ?_, ?_⟩
  · cases event with
    | unit unit => exact (List.cons.inj hqueue).2
    | ended kind =>
        have hempty : unitsIn rest = [] := hqueue.symm
        rw [hempty]
        cases rest with
        | nil => rfl
        | cons first more =>
            cases first with
            | unit unit => cases hempty
            | ended kind => rfl
  · intro hsettled kind hmem
    have hunended := (h.unended hsettled).2
    rw [hevents] at hunended
    exact hunended kind (List.mem_cons_of_mem _ hmem)
  · rintro kind rfl
    exact hqueue.symm

/-- **Every step keeps queue and log in order.** -/
theorem Queued.step (h : Queued s) (hstep : ExchangeStep budget s a s') : Queued s' := by
  cases hstep with
  | chunkOver len _ _ => exact h.same rfl rfl rfl rfl rfl rfl rfl
  | chunk len _ _ => exact h.same rfl rfl rfl rfl rfl rfl rfl
  | outputEnd _ cmd _ => exact h.same rfl rfl rfl rfl rfl rfl rfl
  | pushLost cmd _ _ => exact h.same rfl rfl rfl rfl rfl rfl rfl
  | push cmd _ => exact h.same rfl rfl rfl rfl rfl rfl rfl
  | interpret units failure cmd rest hidle _ =>
      have hmoves : Queued { s with interpreter := Exchange.interpretation units failure cmd } := by
        refine h.moves (by simp [hidle]) ?_
        intro _
        rw [hidle]
        rfl
      exact hmoves.same rfl rfl rfl rfl rfl rfl rfl
  | published next failed hnow =>
      refine h.moves (by simp [hnow]) ?_
      intro _
      rw [hnow]
      rfl
  | publish unit rest next failed hnow hopen =>
      exact h.publishes (by rw [hnow]; rfl) hopen (fun _ => ⟨unit, rfl⟩)
  | publishFailed unit rest next failed hnow _ =>
      refine h.moves (by simp [hnow]) ?_
      intro _
      rw [hnow]
      rfl
  | finish kind hnow hopen =>
      exact h.publishes (by rw [hnow]; rfl) hopen (fun hi => by cases hi)
  | finishUnsent kind hnow _ => exact h.moves (by simp [hnow]) (fun hi => by cases hi)
  | report kind hnow =>
      refine ⟨h.split, h.log, h.events, ?_, h.done, fun _ => rfl⟩
      intro hi
      cases hi
  | connectionEnded kind _ => exact h.same rfl rfl rfl rfl rfl rfl rfl
  | ownerDone => exact h.same rfl rfl rfl rfl rfl rfl rfl
  | collectUnit retained unit rest hcollector hevents _ =>
      obtain ⟨hqueue, hunended, -⟩ := h.takes hevents
      refine ⟨?_, h.log, hqueue, ?_, ?_, h.reported⟩
      · intro hlimit
        have hsplit := h.split hlimit
        rw [hevents, unitsIn_unit] at hsplit
        show unitsIn s.log = s.units ++ [unit] ++ unitsIn rest
        rw [hsplit, List.append_assoc]
        rfl
      · intro hsettled
        exact ⟨(h.unended hsettled).1, hunended hsettled⟩
      · intro hdone
        cases hdone
  | collectLimit retained unit rest hcollector hevents _ =>
      obtain ⟨hqueue, hunended, -⟩ := h.takes hevents
      refine ⟨?_, h.log, hqueue, ?_, ?_, h.reported⟩
      · intro hlimit
        cases hlimit
      · intro hsettled
        exact ⟨(h.unended hsettled).1, hunended hsettled⟩
      · intro _ hlimit
        cases hlimit
  | collectEnd retained kind rest hcollector hevents =>
      obtain ⟨hqueue, hunended, hlast⟩ := h.takes hevents
      refine ⟨?_, h.log, hqueue, ?_, ?_, h.reported⟩
      · intro hlimit
        have hsplit := h.split hlimit
        rw [hevents, unitsIn_ended] at hsplit
        exact hsplit
      · intro hsettled
        exact ⟨(h.unended hsettled).1, hunended hsettled⟩
      · intro _ _
        exact hlast kind rfl
  | collectClosed retained hcollector hevents _ =>
      refine ⟨h.split, h.log, h.events, h.unended, ?_, h.reported⟩
      intro _ _
      show unitsIn s.events = []
      rw [hevents]
      rfl
  | cancel => exact h.same rfl rfl rfl rfl rfl rfl rfl
  | deadline => exact h.same rfl rfl rfl rfl rfl rfl rfl
  | prepared _ =>
      refine ⟨h.split, h.log, h.events, h.unended, ?_, h.reported⟩
      intro hdone
      cases hdone
  | prepareFailed failure _ =>
      refine ⟨h.split, h.log, h.events, h.unended, ?_, h.reported⟩
      intro hdone
      cases hdone
  | pollFails arm failure _ => exact h.same rfl rfl rfl rfl rfl rfl rfl
  | pollNext arm next _ => exact h.same rfl rfl rfl rfl rfl rfl rfl
  | pollEnds interp conn _ _ _ => exact h.same rfl rfl rfl rfl rfl rfl rfl
  | waited _ failure _ _ => exact h.same rfl rfl rfl rfl rfl rfl rfl
  | returned _ => exact h.same rfl rfl rfl rfl rfl rfl rfl
  | failed failure _ => exact h.same rfl rfl rfl rfl rfl rfl rfl

theorem queued_of_reach {ok : Exchange → ExchangeAction → Prop}
    (h : (encodedExchange budget).Reach ok s) : Queued s := by
  refine System.Reach.invariant (P := Queued) ?_ ?_ h
  · rintro s rfl
    exact .opened
  · intro s a s' _ hqueued _ hstep
    exact hqueued.step (exchange_step hstep)

end

/-! ## After success is decided -/

/-- Success is decided. -/
def Phase.accepted : Phase → Bool
  | .waiting none | .leaving none | .returned _ => true
  | _ => false

/-- The wait for the children is over as well. -/
def Phase.left : Phase → Bool
  | .leaving none | .returned _ => true
  | _ => false

def Collector.started : Collector → Bool
  | .collecting _ | .done => true
  | _ => false

/-- What holds once success is decided, in an unhurried run. -/
structure Delivering (budget : ExchangeBudget) (s : Exchange) : Prop where
  started : (∃ arm, s.phase = .selecting arm) ∨ s.phase.accepted = true →
    s.collector.started = true
  room : s.phase.accepted = true → s.room budget = true
  ended : s.phase.accepted = true → s.interpreter = .ended
  empty : s.phase.left = true → unitsIn s.events = []
  returned : ∀ ok, s.phase = .returned ok → ok.units = s.units

section

variable {budget : ExchangeBudget} {s s' : Exchange} {a : ExchangeAction}

theorem Phase.left_accepted {phase : Phase} (h : phase.left = true) : phase.accepted = true := by
  unfold Phase.left at h
  split at h
  · rfl
  · rfl
  · cases h

theorem Delivering.opened : Delivering budget .opened where
  started h := by
    rcases h with ⟨arm, h⟩ | h <;> cases h
  room h := by cases h
  ended h := by cases h
  empty h := by cases h
  returned ok h := by cases h

/-- Success is not decided yet. -/
theorem Delivering.undecided (hphase : s.phase.accepted = false)
    (hstarted : (∃ arm, s.phase = .selecting arm) → s.collector.started = true) :
    Delivering budget s := by
  have hnot : ¬ s.phase.accepted = true := by simp [hphase]
  refine ⟨?_, fun h => absurd h hnot, fun h => absurd h hnot,
    fun h => absurd (Phase.left_accepted h) hnot, ?_⟩
  · rintro (h | h)
    · exact hstarted h
    · exact absurd h hnot
  · intro ok h
    rw [h] at hphase
    cases hphase

/-- Nothing else matters to it. -/
theorem Delivering.same (h : Delivering budget s) (hphase : s'.phase = s.phase)
    (hcollector : s'.collector = s.collector) (hlimit : s'.limit = s.limit)
    (hevents : s'.events = s.events) (hunits : s'.units = s.units)
    (hinterpreter : s'.interpreter = s.interpreter) : Delivering budget s' := by
  obtain ⟨hstarted, hroom, hended, hempty, hreturned⟩ := h
  unfold Exchange.room at hroom
  rw [← hphase, ← hcollector] at hstarted
  rw [← hphase, ← hlimit, ← hcollector, ← hevents] at hroom
  rw [← hphase, ← hinterpreter] at hended
  rw [← hphase, ← hevents] at hempty
  rw [← hphase, ← hunits] at hreturned
  exact ⟨hstarted, hroom, hended, hempty, hreturned⟩

/-- Before the interpretation has ended, success is not decided: whatever it does
next keeps that. -/
theorem Delivering.before (h : Delivering budget s) (hlive : s.interpreter ≠ .ended)
    (hphase : s'.phase = s.phase) (hcollector : s'.collector = s.collector) :
    Delivering budget s' := by
  have hundecided : s.phase.accepted = false := by
    cases haccepted : s.phase.accepted with
    | false => rfl
    | true => exact absurd (h.ended haccepted) hlive
  refine .undecided (by rw [hphase, hundecided]) ?_
  rw [hphase, hcollector]
  exact fun harm => h.started (.inl harm)

theorem room_limit (h : s.room budget = true) : s.limit = false := by
  unfold Exchange.room at h
  simp only [Bool.and_eq_true, Bool.not_eq_true'] at h
  exact h.1

/-- With room, the next unit fits and there is room for the others. -/
theorem room_unit {retained : Nat} {unit : CanonicalUnitEvent} {rest : List InterpreterOutputEvent}
    (h : s.room budget = true) (hcollector : s.collector = .collecting retained)
    (hevents : s.events = .unit unit :: rest) :
    satAdd retained (estimateRetainedUnitBytes unit) ≤ budget.maxRetained ∧
      fits budget.maxRetained (satAdd retained (estimateRetainedUnitBytes unit))
        (unitsIn rest) = true := by
  unfold Exchange.room at h
  rw [hcollector, hevents] at h
  simp only [unitsIn_unit, fits, Bool.and_eq_true, decide_eq_true_eq] at h
  exact h.2

/-- **Every unhurried step keeps it.** -/
theorem Delivering.step (h : Delivering budget s) (hqueued : Queued s) (hok : Unhurried budget s a)
    (hstep : ExchangeStep budget s a s') : Delivering budget s' := by
  cases hstep with
  | chunkOver len _ _ => exact h.same rfl rfl rfl rfl rfl rfl
  | chunk len _ _ => exact h.same rfl rfl rfl rfl rfl rfl
  | outputEnd _ cmd _ => exact h.same rfl rfl rfl rfl rfl rfl
  | pushLost cmd _ _ => exact h.same rfl rfl rfl rfl rfl rfl
  | push cmd _ => exact h.same rfl rfl rfl rfl rfl rfl
  | interpret units failure cmd rest hidle _ => exact h.before (by simp [hidle]) rfl rfl
  | published next failed hnow => exact h.before (by simp [hnow]) rfl rfl
  | publish unit rest next failed hnow _ => exact h.before (by simp [hnow]) rfl rfl
  | publishFailed unit rest next failed hnow _ => exact h.before (by simp [hnow]) rfl rfl
  | finish kind hnow _ => exact h.before (by simp [hnow]) rfl rfl
  | finishUnsent kind hnow _ => exact h.before (by simp [hnow]) rfl rfl
  | report kind hnow => exact h.before (by simp [hnow]) rfl rfl
  | connectionEnded kind _ => exact h.same rfl rfl rfl rfl rfl rfl
  | ownerDone => exact h.same rfl rfl rfl rfl rfl rfl
  | collectUnit retained unit rest hcollector hevents hfits =>
      -- units are still queued, so the wait is not over
      have hleft : s.phase.left = false := by
        cases hleft : s.phase.left with
        | false => rfl
        | true =>
            have hempty := h.empty hleft
            rw [hevents] at hempty
            cases hempty
      refine ⟨fun _ => rfl, ?_, h.ended, ?_, ?_⟩
      · intro haccepted
        have hroom := h.room haccepted
        have hlimit := room_limit hroom
        obtain ⟨-, hrest⟩ := room_unit hroom hcollector hevents
        unfold Exchange.room
        dsimp only
        rw [hlimit, hrest]
        rfl
      · intro hnow
        exact absurd hnow (by simp [hleft])
      · intro ok hreturned
        have hphase : s.phase = .returned ok := hreturned
        rw [hphase] at hleft
        cases hleft
  | collectLimit retained unit rest hcollector hevents hover =>
      have hundecided : s.phase.accepted = false := by
        cases haccepted : s.phase.accepted with
        | false => rfl
        | true =>
            obtain ⟨hfits, -⟩ := room_unit (h.room haccepted) hcollector hevents
            omega
      exact .undecided hundecided (fun _ => rfl)
  | collectEnd retained kind rest hcollector hevents =>
      refine ⟨fun _ => rfl, ?_, h.ended, ?_, h.returned⟩
      · intro haccepted
        have hlimit := room_limit (h.room haccepted)
        unfold Exchange.room
        dsimp only
        rw [hlimit]
        rfl
      · intro hleft
        have hempty := h.empty hleft
        rw [hevents] at hempty
        exact hempty
  | collectClosed retained hcollector hevents _ =>
      refine ⟨fun _ => rfl, ?_, h.ended, h.empty, h.returned⟩
      intro haccepted
      have hlimit := room_limit (h.room haccepted)
      unfold Exchange.room
      dsimp only
      rw [hlimit]
      rfl
  | cancel => exact h.same rfl rfl rfl rfl rfl rfl
  | deadline => exact h.same rfl rfl rfl rfl rfl rfl
  | prepared _ => exact .undecided rfl (fun _ => rfl)
  | prepareFailed failure _ =>
      refine .undecided rfl ?_
      rintro ⟨arm, harm⟩
      cases harm
  | pollFails arm failure _ =>
      refine .undecided rfl ?_
      rintro ⟨arm', harm⟩
      cases harm
  | pollNext arm next hphase => exact .undecided rfl (fun _ => h.started (.inl ⟨arm, hphase⟩))
  | pollEnds interp conn hphase hinterp hconn =>
      have hstarted := h.started (.inl ⟨_, hphase⟩)
      cases hclean : reconcileTerminals conn interp with
      | some failure =>
          refine .undecided rfl ?_
          rintro ⟨arm', harm⟩
          cases harm
      | none =>
          have hends : s.cleanEnds = true := by
            unfold Exchange.cleanEnds
            rw [hphase, hinterp, hconn]
            simp [hclean]
          refine ⟨fun _ => hstarted, fun _ => hok.1 rfl hends, ?_, ?_, ?_⟩
          · intro _
            exact hqueued.reported (by simp [hinterp])
          · intro hleft
            cases hleft
          · intro ok hreturned
            cases hreturned
  | waited _ failure hphase hwhy =>
      cases failure with
      | some failure =>
          refine .undecided rfl ?_
          rintro ⟨arm', harm⟩
          cases harm
      | none =>
          have haccepted : s.phase.accepted = true := by
            rw [hphase]
            rfl
          have hstarted := h.started (.inr haccepted)
          refine ⟨fun _ => hstarted, fun _ => h.room haccepted, fun _ => h.ended haccepted, ?_, ?_⟩
          · intro _
            show unitsIn s.events = []
            rcases hwhy with rfl | ⟨-, hclosed⟩
            · exact hok.2 rfl hphase
            · have hdone : s.collector = .done := by
                cases hcollector : s.collector <;>
                  simp_all [Exchange.closed, Collector.started]
              exact hqueued.done hdone (room_limit (h.room haccepted))
          · intro ok hreturned
            cases hreturned
  | returned hphase =>
      have haccepted : s.phase.accepted = true := by
        rw [hphase]
        rfl
      refine ⟨fun _ => h.started (.inr haccepted), fun _ => h.room haccepted,
        fun _ => h.ended haccepted, ?_, ?_⟩
      · intro _
        exact h.empty (by rw [hphase]; rfl)
      · intro ok hreturned
        cases hreturned
        rfl
  | failed failure _ =>
      refine .undecided rfl ?_
      rintro ⟨arm', harm⟩
      cases harm

theorem delivering_of_reach (h : (encodedExchange budget).Reach (Unhurried budget) s) :
    Delivering budget s := by
  refine System.Reach.invariant (P := Delivering budget) ?_ ?_ h
  · rintro s rfl
    exact .opened
  · intro s a s' hreach hdelivering hok hstep
    exact hdelivering.step (queued_of_reach hreach) hok (exchange_step hstep)

end

/-- **An unhurried exchange returns every unit.** When an exchange returns, its
units are the published units before the end report, in order, and the retention
limit was not reached: a limit that is reached ends in a failure. -/
theorem exchange_returns_published_units (budget : ExchangeBudget) {s : Exchange}
    (h : (encodedExchange budget).Reach (Unhurried budget) s) {ok : EncodedExchangeOk}
    (hreturned : s.phase = .returned ok) :
    ok.units = unitsBeforeEnd s.log ∧ s.limit = false := by
  have hqueued := queued_of_reach h
  have hdelivering := delivering_of_reach h
  have haccepted : s.phase.accepted = true := by
    rw [hreturned]
    rfl
  have hlimit := room_limit (hdelivering.room haccepted)
  refine ⟨?_, hlimit⟩
  calc ok.units = s.units := hdelivering.returned ok hreturned
    _ = unitsIn s.log := by
        rw [hqueued.split hlimit, hdelivering.empty (by rw [hreturned]; rfl), List.append_nil]
    _ = unitsBeforeEnd s.log := hqueued.log.symm

/-! ## Two runs -/

/-- A text unit. -/
def textUnit (content : String) : CanonicalUnitEvent :=
  .completed {
    unitId := ⟨"unit"⟩
    unitGeneration := 1
    interpretationId := ⟨"interpretation"⟩
    connectionId := ⟨"provider", by decide⟩
    externalSessionId := none
    unit := .text content }

/-- A response of one chunk and one unit up to both end reports; `collects` are
the collector's steps before the coordinator looks. -/
def oneUnitRun (unit : CanonicalUnitEvent) (collects : List ExchangeAction) : List ExchangeAction :=
  [.prepared, .chunk 70000, .push, .interpret [unit] none, .publish, .publish, .outputEnded, .push,
    .interpret [] none, .publish, .publish, .report, .connectionEnded .remoteEof, .ownerDone] ++
  collects ++ [.poll, .poll, .poll, .poll, .poll]

/-- The collector has read everything when success is decided. -/
def promptRun : List ExchangeAction :=
  oneUnitRun (textUnit "answer") [.collect, .collect] ++ [.joined, .leave]

def sampleBudget : ExchangeBudget := ⟨65536, 16 * 1024 * 1024⟩

/-- The unit of a prompt run is returned. -/
theorem prompt_run_returns_unit : ∃ s ok,
    (encodedExchange sampleBudget).Reach (Unhurried sampleBudget) s ∧ s.phase = .returned ok ∧
      ok.units = unitsBeforeEnd s.log ∧ unitsBeforeEnd s.log = [textUnit "answer"] := by
  obtain ⟨s, hreach, hend⟩ := System.exists_of_runWhere (Unhurried sampleBudget)
    (M := encodedExchange sampleBudget) rfl promptRun
    (fun s => s.phase = .returned ⟨[textUnit "answer"], 70000⟩ ∧
      unitsBeforeEnd s.log = [textUnit "answer"]) (by decide +kernel)
  obtain ⟨hreturned, hlog⟩ := of_decide_eq_true hend
  exact ⟨s, _, hreach, hreturned, (exchange_returns_published_units sampleBudget hreach hreturned).1,
    hlog⟩

/-- Success is decided and the unit is still queued. -/
def unread (unit : CanonicalUnitEvent) : Exchange :=
  { Exchange.opened with
    pump := .done
    received := 70000
    bytes := 70000
    interpreter := .ended
    events := [.unit unit, .ended .complete]
    log := [.unit unit, .ended .complete]
    interpretationEnd := some .complete
    connectionEnd := some .remoteEof
    ownerDone := true
    collector := .collecting 0
    phase := .waiting none }

theorem run_unread (unit : CanonicalUnitEvent) :
    (encodedExchange sampleBudget).run (oneUnitRun unit []) .opened = some (unread unit) := by
  rfl

/-- The collector then reads a unit beyond the limit, which nobody is told. -/
theorem unread_returns_empty {unit : CanonicalUnitEvent}
    (hbig : sampleBudget.maxRetained < satAdd 0 (estimateRetainedUnitBytes unit)) :
    (encodedExchange sampleBudget).run [.collect, .joined, .leave] (unread unit) =
      some { unread unit with
        limit := true
        events := [.ended .complete]
        collector := .done
        phase := .returned ⟨[], 70000⟩ } := by
  have hcollect : (encodedExchange sampleBudget).step .collect (unread unit) =
      some { unread unit with limit := true, events := [.ended .complete], collector := .done } :=
    if_pos hbig
  rw [System.run, hcollect]
  rfl

/-- A text of `2 ^ n` bytes. -/
def doubled : Nat → String
  | 0 => "x"
  | n + 1 => doubled n ++ doubled n

theorem doubled_size (n : Nat) : (doubled n).utf8ByteSize = 2 ^ n := by
  induction n with
  | zero => rfl
  | succ n ih =>
      rw [doubled, String.utf8ByteSize_append, ih]
      omega

/-- **A truncated success.** A 64 KiB unit is published and both ends are clean
before the collector has read it: the exchange returns no units. -/
theorem late_limit_truncates : ∃ s ok,
    (encodedExchange sampleBudget).Reach always s ∧ s.phase = .returned ok ∧
      ok.units = [] ∧ unitsBeforeEnd s.log = [textUnit (doubled 16)] ∧ s.limit = true := by
  have hbig : sampleBudget.maxRetained <
      satAdd 0 (estimateRetainedUnitBytes (textUnit (doubled 16))) := by
    show 65536 < satAdd 0 (satAdd (doubled 16).utf8ByteSize 128)
    rw [doubled_size]
    decide
  have hunread := System.run_reach (.init rfl) (run_unread (textUnit (doubled 16)))
  exact ⟨_, _, System.run_reach hunread (unread_returns_empty hbig), rfl, rfl, rfl, rfl⟩

end Monoloop.Coordinator
