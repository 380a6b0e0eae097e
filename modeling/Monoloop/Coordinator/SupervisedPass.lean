import Mathlib.Data.List.Infix
import Monoloop.Lib.Transition
import Monoloop.Coordinator.LoopDispatch

/-!
# The supervised pass, step by step

`run_supervised_loop` publishes the units to a Loop that runs as a task of its own, and
reads what the Loop sends only when all units are published: a queue of 64 deliveries on
one side, one of 4096 events on the other. `runSupervisedLoop` has neither queue nor
task; here both are there, every wait is a step of its own, and a cancel or the deadline
may come between any two steps. However they fall, the pass does what
`runSupervisedLoop` says (`supervisedPass_refines`).
-/

namespace Monoloop.Coordinator

open ToolLoop Transition

variable {Json : Type}

/-! ## The parties -/

/-- The capacity of the subscription. -/
def subscriptionCapacity : Nat := 64

/-- `max_output_queue.max(16)` of the default limits. -/
def outputCapacity : Nat := max 4096 16

structure PassParams (Json : Type) where
  serde : SerdeJson Json
  exchange : ToolExchange
  units : List CanonicalUnitEvent
  reply : Nat → DispatchReply
  /-- The supervisor stayed busy: the pass drives the Loop itself (`drive_busy_loop`). -/
  driven : Bool

/-- The receiver of the output outlives the Loop: a send waits for room, and is
accepted. -/
def PassParams.environment (p : PassParams Json) : LoopEnvironment where
  reply n := { p.reply n with accepted := 3 }
  endAccepted := true

/-- The units that are published. -/
def PassParams.scoped (p : PassParams Json) : List CanonicalUnitEvent :=
  scopeToolUnitsForExchange p.units p.exchange.exchangeId

/-- Where the pass is. -/
inductive PassPhase (Json : Type) where
  /-- `feed`, with the units not numbered yet and the delivery that waits for room. -/
  | feeding (rest : List CanonicalUnitEvent) (offered : Option DeliveredEvent)
  /-- `drive_busy_loop`, once its feed has returned. -/
  | driving (fed : Except LoopDispatchError Unit)
  | fed
  /-- The receive loop. -/
  | receiving
  /-- The event of the last result is being sent. -/
  | publishing
  /-- `await_loop_end` behind the receive loop. -/
  | joining
  /-- `await_loop_end` on the way out with an error. -/
  | stopping (error : LoopDispatchError)
  | returned (result : Except LoopDispatchError (List (CanonicalToolResult Json)))

structure SupervisedPass (Json : Type) where
  phase : PassPhase Json
  /-- `next_seq` of the publisher. -/
  nextSeq : Nat
  subscription : List DeliveredEvent
  owner : LoopOwner
  /-- The Loop is in `select!`. -/
  waiting : Bool
  /-- What the Loop's turn has still to send. -/
  unsent : List LoopOutputEvent
  output : List LoopOutputEvent
  /-- `report.tool_results`. -/
  results : List (CanonicalToolResult Json)
  /-- The flag of the Loop's control. -/
  control : Bool
  /-- The transaction is cancelled. -/
  cancelled : Bool
  /-- The deadline has passed. -/
  late : Bool
  /-- The event publisher has refused a result. -/
  refused : Bool
  /-- What the Loop has taken so far. -/
  inputs : List LoopInput

def SupervisedPass.start (p : PassParams Json) : SupervisedPass Json where
  phase := .feeding p.scoped none
  nextSeq := 1
  subscription := []
  owner := preparedLoop p.exchange.transactionId
  waiting := false
  unsent := []
  output := []
  results := []
  control := false
  cancelled := false
  late := false
  refused := false
  inputs := []

inductive PassAction where
  /-- From outside. -/
  | cancel
  | deadline
  /-- The Loop, at the head of its loop. -/
  | look
  /-- `recv` of the Loop. -/
  | take
  /-- The Loop is woken by its control. -/
  | woken
  /-- The Loop sends. -/
  | send
  /-- The pass. -/
  | feed
  | feedStops (error : LoopDispatchError)
  | notice
  | driven
  | check
  | receive
  | receiveStops (error : LoopDispatchError)
  | published (accepted : Bool)
  | join
  | joinStops
  | leave
deriving DecidableEq

namespace SupervisedPass

/-! ## The Loop's task -/

/-- The Loop has ended, and its future with it. -/
def loopDone (s : SupervisedPass Json) : Bool := s.owner.ended.isSome && s.unsent.isEmpty

/-- The Loop is between two turns. -/
def listening (s : SupervisedPass Json) : Bool := s.owner.ended.isNone && s.unsent.isEmpty

/-- The publisher is dropped. -/
def closed (s : SupervisedPass Json) : Bool :=
  match s.phase with
  | .feeding _ _ => false
  | _ => true

/-- A turn of the Loop. What it has to send goes one by one. -/
def turn (p : PassParams Json) (s : SupervisedPass Json) (input : LoopInput) : SupervisedPass Json :=
  let stepped := s.owner.step p.environment input
  { s with
    owner := stepped.1
    unsent := stepped.2
    waiting := false
    inputs := s.inputs ++ [input] }

def look (p : PassParams Json) (s : SupervisedPass Json) : Option (SupervisedPass Json) :=
  if s.listening && !s.waiting then
    some (if s.control then s.turn p .cancelled else { s with waiting := true })
  else none

def take (p : PassParams Json) (s : SupervisedPass Json) : Option (SupervisedPass Json) :=
  if s.listening && s.waiting then
    match s.subscription with
    | delivered :: rest => some ({ s with subscription := rest }.turn p (.delivered delivered))
    | [] => if s.closed then some (s.turn p .closed) else none
  else none

/-- `notify_waiters` reaches a Loop in `select!`, or comes too early and is lost. -/
def woken (p : PassParams Json) (s : SupervisedPass Json) : Option (SupervisedPass Json) :=
  if s.listening && s.waiting && s.control then some (s.turn p .cancelled) else none

def send (s : SupervisedPass Json) : Option (SupervisedPass Json) :=
  match s.unsent with
  | event :: rest =>
      if s.output.length < outputCapacity then
        some { s with unsent := rest, output := s.output ++ [event] }
      else none
  | [] => none

/-! ## The pass -/

/-- The flag behind an error of `select!`. -/
def raised (s : SupervisedPass Json) : LoopDispatchError → Bool
  | .cancelled => s.cancelled
  | .deadlineExceeded => s.late
  | _ => false

/-- The Loop is cancelled and its end awaited. -/
def stop (s : SupervisedPass Json) (error : LoopDispatchError) : SupervisedPass Json :=
  { s with phase := .stopping error, control := true }

/-- `feed` returns with an error. -/
def feedFails (p : PassParams Json) (s : SupervisedPass Json) (error : LoopDispatchError) :
    SupervisedPass Json :=
  if p.driven then { s with phase := .driving (.error error) } else s.stop error

def feed (p : PassParams Json) (s : SupervisedPass Json) : Option (SupervisedPass Json) :=
  match s.phase with
  | .feeding rest (some delivered) =>
      if s.loopDone then some (s.feedFails p .publishFailed)
      else if s.subscription.length < subscriptionCapacity then
        some { s with
          phase := .feeding rest none
          subscription := s.subscription ++ [delivered] }
      else none
  | .feeding (unit :: rest) none =>
      some { s with
        phase := .feeding rest (some ⟨s.nextSeq, .unit unit⟩)
        nextSeq := s.nextSeq + 1 }
  | .feeding [] none =>
      some { s with phase := if p.driven then .driving (.ok ()) else .fed }
  | _ => none

/-- The first branches of the `select!` in `feed`. -/
def feedStops (p : PassParams Json) (s : SupervisedPass Json) (error : LoopDispatchError) :
    Option (SupervisedPass Json) :=
  match s.phase with
  | .feeding rest offered =>
      if s.raised error && !(rest.isEmpty && offered.isNone) then some (s.feedFails p error)
      else none
  | _ => none

/-- `drive_busy_loop` sees the cancel and passes it on. -/
def notice (p : PassParams Json) (s : SupervisedPass Json) : Option (SupervisedPass Json) :=
  match s.phase with
  | .feeding _ _ | .driving _ =>
      if p.driven && s.cancelled && !s.control then some { s with control := true } else none
  | _ => none

/-- The future that `drive_busy_loop` drives has returned. -/
def driven (p : PassParams Json) (s : SupervisedPass Json) : Option (SupervisedPass Json) :=
  if p.driven && s.loopDone then
    match s.phase with
    | .feeding _ _ => some (s.stop .cancelled)
    | .driving fed =>
        if s.cancelled then some (s.stop .cancelled)
        else
          match fed with
          | .ok () => some { s with phase := .fed }
          | .error error => some (s.stop error)
    | _ => none
  else none

/-- Between the feed and the receive loop. -/
def check (s : SupervisedPass Json) : Option (SupervisedPass Json) :=
  match s.phase with
  | .fed =>
      some (if s.late then s.stop .deadlineExceeded
        else if s.cancelled then s.stop .cancelled
        else { s with phase := .receiving })
  | _ => none

def receive (p : PassParams Json) (s : SupervisedPass Json) : Option (SupervisedPass Json) :=
  match s.phase with
  | .receiving =>
      match s.output with
      | .outboundToolResult r :: rest =>
          some { s with
            phase := .publishing
            output := rest
            results := s.results ++
              [toolResult p.serde p.exchange (s.results.length % 2 ^ 32) r] }
      | .loopEnded _ :: rest => some { s with phase := .joining, output := rest }
      | _ :: rest => some { s with output := rest }
      | [] => if s.loopDone then some { s with phase := .joining } else none
  | _ => none

/-- The first branches of the two `select!` in the receive loop; the one around the
publication has no deadline. -/
def receiveStops (s : SupervisedPass Json) (error : LoopDispatchError) : Option (SupervisedPass Json) :=
  match s.phase with
  | .receiving => if s.raised error then some (s.stop error) else none
  | .publishing =>
      if s.raised error && error = .cancelled then some (s.stop error) else none
  | _ => none

def published (s : SupervisedPass Json) (accepted : Bool) : Option (SupervisedPass Json) :=
  match s.phase with
  | .publishing =>
      some (if accepted then { s with phase := .receiving }
        else { s.stop .publishFailed with refused := true })
  | _ => none

/-- What the pass makes of the end of its Loop. -/
def outcome (s : SupervisedPass Json) :
    Except LoopDispatchError (List (CanonicalToolResult Json)) :=
  match s.owner.ended.map LoopEnd.kind with
  | some .drained => .ok s.results
  | some .cancelled => .error .cancelled
  | _ => .error .loopFailed

def join (s : SupervisedPass Json) : Option (SupervisedPass Json) :=
  match s.phase with
  | .joining => if s.loopDone then some { s with phase := .returned s.outcome } else none
  | _ => none

def joinStops (s : SupervisedPass Json) : Option (SupervisedPass Json) :=
  match s.phase with
  | .joining => if s.cancelled then some (s.stop .cancelled) else none
  | _ => none

def leave (s : SupervisedPass Json) : Option (SupervisedPass Json) :=
  match s.phase with
  | .stopping error =>
      if s.loopDone then some { s with phase := .returned (.error error) } else none
  | _ => none

def step (p : PassParams Json) (s : SupervisedPass Json) : PassAction → Option (SupervisedPass Json)
  | .cancel => if s.cancelled then none else some { s with cancelled := true }
  | .deadline => if s.late then none else some { s with late := true }
  | .look => s.look p
  | .take => s.take p
  | .woken => s.woken p
  | .send => s.send
  | .feed => s.feed p
  | .feedStops error => s.feedStops p error
  | .notice => s.notice p
  | .driven => s.driven p
  | .check => s.check
  | .receive => s.receive p
  | .receiveStops error => s.receiveStops error
  | .published accepted => s.published accepted
  | .join => s.join
  | .joinStops => s.joinStops
  | .leave => s.leave

end SupervisedPass

/-- The pass and its Loop. -/
def supervisedPass (p : PassParams Json) : System (SupervisedPass Json) PassAction where
  init s := s = .start p
  step a s := s.step p a

/-! ## What a step does -/

/-- The pass waits behind the feed, or for the Loop's future. -/
def PassPhase.midway : PassPhase Json → Bool
  | .driving _ | .fed | .receiving | .publishing | .joining => true
  | _ => false

/-- Steps that are not the world's. -/
def PassAction.internal : PassAction → Bool
  | .cancel | .deadline => false
  | _ => true

/-- What a step does. -/
inductive PassStep (p : PassParams Json) (s : SupervisedPass Json) : PassAction → SupervisedPass Json → Prop where
  | cancel (h : s.cancelled = false) : PassStep p s .cancel { s with cancelled := true }
  | deadline (h : s.late = false) : PassStep p s .deadline { s with late := true }
  | waits (hlistening : s.listening = true) (hwaiting : s.waiting = false) :
      PassStep p s .look { s with waiting := true }
  | takes (delivered : DeliveredEvent) (rest : List DeliveredEvent)
      (hlistening : s.listening = true) (hwaiting : s.waiting = true)
      (hsubscription : s.subscription = delivered :: rest) :
      PassStep p s .take ({ s with subscription := rest }.turn p (.delivered delivered))
  | drains (hlistening : s.listening = true) (hwaiting : s.waiting = true)
      (hsubscription : s.subscription = []) (hclosed : s.closed = true) :
      PassStep p s .take (s.turn p .closed)
  | halts (a : PassAction) (ha : a.internal = true) (hlistening : s.listening = true)
      (hcontrol : s.control = true) : PassStep p s a (s.turn p .cancelled)
  | sends (event : LoopOutputEvent) (rest : List LoopOutputEvent)
      (hunsent : s.unsent = event :: rest) :
      PassStep p s .send { s with unsent := rest, output := s.output ++ [event] }
  | offers (unit : CanonicalUnitEvent) (rest : List CanonicalUnitEvent)
      (hphase : s.phase = .feeding (unit :: rest) none) :
      PassStep p s .feed { s with
        phase := .feeding rest (some ⟨s.nextSeq, .unit unit⟩)
        nextSeq := s.nextSeq + 1 }
  | pushes (rest : List CanonicalUnitEvent) (delivered : DeliveredEvent)
      (hphase : s.phase = .feeding rest (some delivered)) :
      PassStep p s .feed { s with
        phase := .feeding rest none
        subscription := s.subscription ++ [delivered] }
  | feeds (hphase : s.phase = .feeding [] none) :
      PassStep p s .feed { s with phase := if p.driven then .driving (.ok ()) else .fed }
  | feedFails (a : PassAction) (ha : a.internal = true) (rest : List CanonicalUnitEvent)
      (offered : Option DeliveredEvent) (error : LoopDispatchError)
      (hphase : s.phase = .feeding rest offered)
      (hcause : s.raised error = true ∨ s.loopDone = true) :
      PassStep p s a (s.feedFails p error)
  | notices (hcontrol : s.control = false) (hcancelled : s.cancelled = true) :
      PassStep p s .notice { s with control := true }
  | abandons (rest : List CanonicalUnitEvent) (offered : Option DeliveredEvent)
      (hphase : s.phase = .feeding rest offered) (hdone : s.loopDone = true) :
      PassStep p s .driven (s.stop .cancelled)
  | drives (hphase : s.phase = .driving (.ok ())) : PassStep p s .driven { s with phase := .fed }
  | stops (a : PassAction) (ha : a.internal = true) (error : LoopDispatchError)
      (hphase : s.phase.midway = true)
      (hcause : s.raised error = true ∨ s.phase = .driving (.error error)) :
      PassStep p s a (s.stop error)
  | opens (hphase : s.phase = .fed) : PassStep p s .check { s with phase := .receiving }
  | result (r : OutboundToolResult) (rest : List LoopOutputEvent) (hphase : s.phase = .receiving)
      (houtput : s.output = .outboundToolResult r :: rest) :
      PassStep p s .receive { s with
        phase := .publishing
        output := rest
        results := s.results ++ [toolResult p.serde p.exchange (s.results.length % 2 ^ 32) r] }
  | ended (report : LoopEnd) (rest : List LoopOutputEvent) (hphase : s.phase = .receiving)
      (houtput : s.output = .loopEnded report :: rest) :
      PassStep p s .receive { s with phase := .joining, output := rest }
  | skips (event : LoopOutputEvent) (rest : List LoopOutputEvent) (hphase : s.phase = .receiving)
      (houtput : s.output = event :: rest) (hend : LoopOutputEvent.isEnd event = false)
      (hresult : ∀ r, event ≠ .outboundToolResult r) :
      PassStep p s .receive { s with output := rest }
  | emptied (hphase : s.phase = .receiving) (houtput : s.output = [])
      (hdone : s.loopDone = true) : PassStep p s .receive { s with phase := .joining }
  | published (hphase : s.phase = .publishing) :
      PassStep p s (.published true) { s with phase := .receiving }
  | refuses (hphase : s.phase = .publishing) :
      PassStep p s (.published false) { s.stop .publishFailed with refused := true }
  | joins (hphase : s.phase = .joining) (hdone : s.loopDone = true) :
      PassStep p s .join { s with phase := .returned s.outcome }
  | leaves (error : LoopDispatchError) (hphase : s.phase = .stopping error)
      (hdone : s.loopDone = true) :
      PassStep p s .leave { s with phase := .returned (.error error) }

section Steps

variable {p : PassParams Json} {s s' : SupervisedPass Json}

theorem loop_cases {a : PassAction} (h : a = .look ∨ a = .take ∨ a = .woken ∨ a = .send)
    (hstep : s.step p a = some s') : PassStep p s a s' := by
  rcases h with rfl | rfl | rfl | rfl
  · simp only [SupervisedPass.step, SupervisedPass.look, Bool.and_eq_true,
      Bool.not_eq_true'] at hstep
    split at hstep
    · rename_i hready
      split at hstep
      · rename_i hcontrol
        cases hstep
        exact .halts _ rfl hready.1 hcontrol
      · cases hstep
        exact .waits hready.1 hready.2
    · cases hstep
  · simp only [SupervisedPass.step, SupervisedPass.take, Bool.and_eq_true] at hstep
    split at hstep
    · rename_i hready
      split at hstep
      · rename_i delivered rest hsubscription
        cases hstep
        exact .takes delivered rest hready.1 hready.2 hsubscription
      · rename_i hsubscription
        split at hstep
        · rename_i hclosed
          cases hstep
          exact .drains hready.1 hready.2 hsubscription hclosed
        · cases hstep
    · cases hstep
  · simp only [SupervisedPass.step, SupervisedPass.woken, Bool.and_eq_true] at hstep
    split at hstep
    · rename_i hready
      cases hstep
      exact .halts _ rfl hready.1.1 hready.2
    · cases hstep
  · simp only [SupervisedPass.step, SupervisedPass.send] at hstep
    split at hstep
    · rename_i event rest hunsent
      split at hstep
      · cases hstep
        exact .sends event rest hunsent
      · cases hstep
    · cases hstep

theorem feed_cases {a : PassAction} (h : a = .feed ∨ (∃ error, a = .feedStops error) ∨ a = .notice)
    (hstep : s.step p a = some s') : PassStep p s a s' := by
  rcases h with rfl | ⟨error, rfl⟩ | rfl
  · simp only [SupervisedPass.step, SupervisedPass.feed] at hstep
    split at hstep
    · rename_i rest delivered hphase
      split at hstep
      · rename_i hdone
        cases hstep
        exact .feedFails _ rfl rest _ _ hphase (.inr hdone)
      · split at hstep
        · cases hstep
          exact .pushes rest delivered hphase
        · cases hstep
    · rename_i unit rest hphase
      cases hstep
      exact .offers unit rest hphase
    · rename_i hphase
      cases hstep
      exact .feeds hphase
    · cases hstep
  · simp only [SupervisedPass.step, SupervisedPass.feedStops] at hstep
    split at hstep
    · rename_i rest offered hphase
      split at hstep
      · rename_i hcause
        cases hstep
        exact .feedFails _ rfl rest offered error hphase (.inl (Bool.and_eq_true _ _ ▸ hcause).1)
      · cases hstep
    · cases hstep
  · have hnotice : ∀ {s'}, (if p.driven && s.cancelled && !s.control then
        some { s with control := true } else none) = some s' → PassStep p s .notice s' := by
      intro s' h
      split at h
      · rename_i hnow
        simp only [Bool.and_eq_true, Bool.not_eq_true'] at hnow
        cases h
        exact .notices hnow.2 hnow.1.2
      · cases h
    simp only [SupervisedPass.step, SupervisedPass.notice] at hstep
    split at hstep
    · exact hnotice hstep
    · exact hnotice hstep
    · cases hstep

theorem driven_cases (hstep : s.step p .driven = some s') : PassStep p s .driven s' := by
  simp only [SupervisedPass.step, SupervisedPass.driven, Bool.and_eq_true] at hstep
  split at hstep
  · rename_i hnow
    split at hstep
    · rename_i rest offered hphase
      cases hstep
      exact .abandons rest offered hphase hnow.2
    · rename_i fed hphase
      split at hstep
      · rename_i hcancelled
        cases hstep
        exact .stops _ rfl _ (by rw [hphase]; rfl) (.inl hcancelled)
      · split at hstep
        · cases hstep
          exact .drives hphase
        · cases hstep
          exact .stops _ rfl _ (by rw [hphase]; rfl) (.inr hphase)
    · cases hstep
  · cases hstep

theorem receive_cases {a : PassAction}
    (h : a = .check ∨ a = .receive ∨ (∃ error, a = .receiveStops error) ∨
      ∃ accepted, a = .published accepted)
    (hstep : s.step p a = some s') : PassStep p s a s' := by
  rcases h with rfl | rfl | ⟨error, rfl⟩ | ⟨accepted, rfl⟩
  · simp only [SupervisedPass.step, SupervisedPass.check] at hstep
    split at hstep
    · rename_i hphase
      have hmidway : s.phase.midway = true := by rw [hphase]; rfl
      cases hlate : s.late with
      | true =>
          rw [if_pos hlate] at hstep
          cases hstep
          exact .stops _ rfl _ hmidway (.inl hlate)
      | false =>
          rw [if_neg (by simp [hlate])] at hstep
          cases hcancelled : s.cancelled with
          | true =>
              rw [if_pos hcancelled] at hstep
              cases hstep
              exact .stops _ rfl _ hmidway (.inl hcancelled)
          | false =>
              rw [if_neg (by simp [hcancelled])] at hstep
              cases hstep
              exact .opens hphase
    · cases hstep
  · simp only [SupervisedPass.step, SupervisedPass.receive] at hstep
    split at hstep
    · rename_i hphase
      split at hstep
      · rename_i r rest houtput
        cases hstep
        exact .result r rest hphase houtput
      · rename_i report rest houtput
        cases hstep
        exact .ended report rest hphase houtput
      · rename_i event rest hresult hend houtput
        cases hstep
        refine .skips event rest hphase houtput ?_ hresult
        cases event with
        | loopEnded report => exact absurd rfl (hend report)
        | _ => rfl
      · rename_i houtput
        split at hstep
        · rename_i hdone
          cases hstep
          exact .emptied hphase houtput hdone
        · cases hstep
    · cases hstep
  · simp only [SupervisedPass.step, SupervisedPass.receiveStops] at hstep
    split at hstep
    · rename_i hphase
      split at hstep
      · rename_i hraised
        cases hstep
        exact .stops _ rfl _ (by rw [hphase]; rfl) (.inl hraised)
      · cases hstep
    · rename_i hphase
      split at hstep
      · rename_i hraised
        cases hstep
        exact .stops _ rfl _ (by rw [hphase]; rfl) (.inl (Bool.and_eq_true _ _ ▸ hraised).1)
      · cases hstep
    · cases hstep
  · simp only [SupervisedPass.step, SupervisedPass.published] at hstep
    split at hstep
    · rename_i hphase
      cases accepted with
      | true =>
          cases hstep
          exact .published hphase
      | false =>
          cases hstep
          exact .refuses hphase
    · cases hstep

theorem join_cases {a : PassAction} (h : a = .join ∨ a = .joinStops ∨ a = .leave)
    (hstep : s.step p a = some s') : PassStep p s a s' := by
  rcases h with rfl | rfl | rfl
  · simp only [SupervisedPass.step, SupervisedPass.join] at hstep
    split at hstep
    · rename_i hphase
      split at hstep
      · rename_i hdone
        cases hstep
        exact .joins hphase hdone
      · cases hstep
    · cases hstep
  · simp only [SupervisedPass.step, SupervisedPass.joinStops] at hstep
    split at hstep
    · rename_i hphase
      split at hstep
      · rename_i hcancelled
        cases hstep
        exact .stops _ rfl _ (by rw [hphase]; rfl) (.inl hcancelled)
      · cases hstep
    · cases hstep
  · simp only [SupervisedPass.step, SupervisedPass.leave] at hstep
    split at hstep
    · rename_i error hphase
      split at hstep
      · rename_i hdone
        cases hstep
        exact .leaves error hphase hdone
      · cases hstep
    · cases hstep

/-- **One step of the pass, case by case.** -/
theorem passStep_of_step {a : PassAction} (hstep : s.step p a = some s') : PassStep p s a s' := by
  cases a with
  | cancel =>
      simp only [SupervisedPass.step] at hstep
      split at hstep
      · cases hstep
      · rename_i h
        cases hstep
        exact .cancel (by simpa using h)
  | deadline =>
      simp only [SupervisedPass.step] at hstep
      split at hstep
      · cases hstep
      · rename_i h
        cases hstep
        exact .deadline (by simpa using h)
  | look => exact loop_cases (.inl rfl) hstep
  | take => exact loop_cases (.inr (.inl rfl)) hstep
  | woken => exact loop_cases (.inr (.inr (.inl rfl))) hstep
  | send => exact loop_cases (.inr (.inr (.inr rfl))) hstep
  | feed => exact feed_cases (.inl rfl) hstep
  | feedStops error => exact feed_cases (.inr (.inl ⟨error, rfl⟩)) hstep
  | notice => exact feed_cases (.inr (.inr rfl)) hstep
  | driven => exact driven_cases hstep
  | check => exact receive_cases (.inl rfl) hstep
  | receive => exact receive_cases (.inr (.inl rfl)) hstep
  | receiveStops error => exact receive_cases (.inr (.inr (.inl ⟨error, rfl⟩))) hstep
  | published accepted => exact receive_cases (.inr (.inr (.inr ⟨accepted, rfl⟩))) hstep
  | join => exact join_cases (.inl rfl) hstep
  | joinStops => exact join_cases (.inr (.inl rfl)) hstep
  | leave => exact join_cases (.inr (.inr rfl)) hstep

end Steps

end Monoloop.Coordinator
