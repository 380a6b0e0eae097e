import Monoloop.Coordinator.Collection

/-!
# Output bytes of an exchange

The pump adds every chunk to a shared counter and compares the saturated total
with the budget. The counter itself wraps, so it is the number of bytes received
only below `2 ^ 64`: either because the budget stops the pump before, or because
the provider sends no more.

A successful exchange has stopped its pump: the interpretation completes only on
`finishClean`, which is the pump's last command.
-/

namespace Monoloop.Coordinator

open Transition (System always)

/-! ## The counter -/

/-- The counter against the bytes received and the budget. -/
structure Counted (budget : ExchangeBudget) (s : Exchange) : Prop where
  wraps : s.received = s.bytes % 2 ^ 64
  within : s.outputLimit = false → s.received ≤ budget.maxOutput
  exact : budget.maxOutput < usizeMax → s.outputLimit = false → s.bytes ≤ budget.maxOutput

section

variable {budget : ExchangeBudget} {s s' : Exchange} {a : ExchangeAction}

theorem Counted.opened : Counted budget .opened where
  wraps := rfl
  within _ := Nat.zero_le _
  exact _ _ := Nat.zero_le _

/-- Nothing else matters to it. -/
theorem Counted.same (h : Counted budget s) (hreceived : s'.received = s.received)
    (hbytes : s'.bytes = s.bytes) (hlimit : s'.outputLimit = s.outputLimit) :
    Counted budget s' := by
  obtain ⟨hwraps, hwithin, hexact⟩ := h
  rw [← hreceived, ← hbytes] at hwraps
  rw [← hlimit, ← hreceived] at hwithin
  rw [← hlimit, ← hbytes] at hexact
  exact ⟨hwraps, hwithin, hexact⟩

theorem wrapped_add {received bytes : Nat} (h : received = bytes % 2 ^ 64) (len : Nat) :
    (received + len) % 2 ^ 64 = (bytes + len) % 2 ^ 64 := by
  rw [h, Nat.mod_add_mod]

/-- A chunk that passes the check. -/
theorem Counted.chunk {len : Nat} {pump : Pump} (h : Counted budget s)
    (hunder : satAdd s.received len ≤ budget.maxOutput) :
    Counted budget { s with
      received := (s.received + len) % 2 ^ 64
      bytes := s.bytes + len
      pump := pump } where
  wraps := wrapped_add h.wraps len
  within hlimit := by
    show (s.received + len) % 2 ^ 64 ≤ budget.maxOutput
    by_cases hfits : s.received + len ≤ usizeMax
    · rw [satAdd_eq hfits] at hunder
      exact Nat.le_trans (Nat.mod_le _ _) hunder
    · -- the total saturates and still passes, so the budget is the largest
      have hsat : satAdd s.received len = usizeMax := by
        unfold satAdd
        omega
      have hlt : (s.received + len) % 2 ^ 64 < 2 ^ 64 := Nat.mod_lt _ (by decide)
      rw [hsat] at hunder
      unfold usizeMax at hunder
      omega
  exact hbudget hlimit := by
    show s.bytes + len ≤ budget.maxOutput
    have hbytes := h.exact hbudget hlimit
    have hreceived : s.received = s.bytes := by
      have hwraps := h.wraps
      unfold usizeMax at hbudget
      omega
    rw [hreceived] at hunder
    unfold satAdd at hunder
    omega

theorem Counted.step (h : Counted budget s) (hstep : ExchangeStep budget s a s') :
    Counted budget s' := by
  cases hstep with
  | chunkOver len _ _ =>
      refine ⟨wrapped_add h.wraps len, ?_, ?_⟩
      · intro hlimit
        cases hlimit
      · intro _ hlimit
        cases hlimit
  | chunk len _ hunder => exact h.chunk hunder
  | outputEnd _ cmd _ => exact h.same rfl rfl rfl
  | pushLost cmd _ _ => exact h.same rfl rfl rfl
  | push cmd _ => exact h.same rfl rfl rfl
  | interpret units failure cmd rest _ _ => exact h.same rfl rfl rfl
  | published next failed _ => exact h.same rfl rfl rfl
  | publish unit rest next failed _ _ => exact h.same rfl rfl rfl
  | publishFailed unit rest next failed _ _ => exact h.same rfl rfl rfl
  | finish kind _ _ => exact h.same rfl rfl rfl
  | finishUnsent kind _ _ => exact h.same rfl rfl rfl
  | report kind _ => exact h.same rfl rfl rfl
  | connectionEnded kind _ => exact h.same rfl rfl rfl
  | ownerDone => exact h.same rfl rfl rfl
  | collectUnit retained unit rest _ _ _ => exact h.same rfl rfl rfl
  | collectLimit retained unit rest _ _ _ => exact h.same rfl rfl rfl
  | collectEnd retained kind rest _ _ => exact h.same rfl rfl rfl
  | collectClosed retained _ _ _ => exact h.same rfl rfl rfl
  | cancel => exact h.same rfl rfl rfl
  | deadline => exact h.same rfl rfl rfl
  | prepared _ => exact h.same rfl rfl rfl
  | prepareFailed failure _ => exact h.same rfl rfl rfl
  | pollFails arm failure _ => exact h.same rfl rfl rfl
  | pollNext arm next _ => exact h.same rfl rfl rfl
  | pollEnds interp conn _ _ _ => exact h.same rfl rfl rfl
  | waited _ failure _ _ => exact h.same rfl rfl rfl
  | returned _ => exact h.same rfl rfl rfl
  | failed failure _ => exact h.same rfl rfl rfl

theorem counted_of_reach {ok : Exchange → ExchangeAction → Prop}
    (h : (encodedExchange budget).Reach ok s) : Counted budget s := by
  refine System.Reach.invariant (P := Counted budget) ?_ ?_ h
  · rintro s rfl
    exact .opened
  · intro s a s' _ hcounted _ hstep
    exact hcounted.step (exchange_step hstep)

end

/-! ## The pump of a completing exchange -/

def Next.completes : Next → Bool
  | .finish .complete => true
  | _ => false

/-- The interpretation is on its way to a complete end. -/
def Interpreter.completes : Interpreter → Bool
  | .publishing _ next failed => next.completes || failed.completes
  | .finishing .complete | .reporting .complete => true
  | _ => false

/-- The output has ended cleanly, and the interpretation knows or will know. -/
def Exchange.Sealing (s : Exchange) : Prop :=
  s.pump = .sending .finishClean ∨ .finishClean ∈ s.commands ∨
    s.interpreter.completes = true ∨ s.interpretationEnd = some .complete

/-- What the pump does no more. -/
structure Stopped (s : Exchange) : Prop where
  limited : s.outputLimit = true → s.pump = .sending .transportFailed ∨ s.pump = .done
  sealed : s.Sealing → s.outputLimit = false ∧ (s.pump = .sending .finishClean ∨ s.pump = .done)
  accepted : s.phase.accepted = true → s.interpretationEnd = some .complete
  counter : ∀ ok, s.phase = .returned ok → ok.receivedOutputBytes = s.received

section

variable {budget : ExchangeBudget} {s s' : Exchange} {a : ExchangeAction}

theorem Stopped.opened : Stopped .opened where
  limited h := by cases h
  sealed h := by
    rcases h with h | h | h | h <;> cases h
  accepted h := by cases h
  counter ok h := by cases h

/-- A pump that receives has neither met the limit nor the end of the output. -/
theorem Stopped.receiving (h : Stopped s) (hpump : s.pump = .receiving) :
    s.outputLimit = false ∧ ¬ s.Sealing := by
  constructor
  · cases hlimit : s.outputLimit with
    | false => rfl
    | true =>
        have hstopped := h.limited hlimit
        rw [hpump] at hstopped
        rcases hstopped with hstopped | hstopped <;> cases hstopped
  · intro hsealing
    have hstopped := (h.sealed hsealing).2
    rw [hpump] at hstopped
    rcases hstopped with hstopped | hstopped <;> cases hstopped

/-- Success is decided only on a complete end. -/
theorem Stopped.undecided (h : Stopped s) (hsealing : ¬ s.Sealing) : s.phase.accepted = false := by
  cases haccepted : s.phase.accepted with
  | false => rfl
  | true => exact absurd (.inr (.inr (.inr (h.accepted haccepted)))) hsealing

theorem not_returned {phase : Phase} (h : phase.accepted = false) (ok : EncodedExchangeOk) :
    phase ≠ .returned ok := by
  rintro rfl
  cases h

/-- The pump rests and the interpretation comes no closer to a complete end. -/
theorem Stopped.moves (h : Stopped s) (hpump : s'.pump = s.pump)
    (hlimit : s'.outputLimit = s.outputLimit) (hsealing : s'.Sealing → s.Sealing)
    (hend : s'.interpretationEnd = s.interpretationEnd) (hphase : s'.phase = s.phase)
    (hreceived : s'.received = s.received) : Stopped s' where
  limited hs := by
    rw [hpump]
    exact h.limited (hlimit ▸ hs)
  sealed hs := by
    rw [hpump, hlimit]
    exact h.sealed (hsealing hs)
  accepted hs := by
    rw [hend]
    exact h.accepted (hphase ▸ hs)
  counter ok hs := by
    rw [hreceived]
    exact h.counter ok (hphase ▸ hs)

/-- The interpretation moves on, to a complete end only if it was on its way there. -/
theorem Stopped.interprets {i : Interpreter} {events log : List InterpreterOutputEvent}
    (h : Stopped s) (hcompletes : i.completes = true → s.interpreter.completes = true) :
    Stopped { s with events := events, log := log, interpreter := i } := by
  refine h.moves rfl rfl ?_ rfl rfl rfl
  rintro (hs | hs | hs | hs)
  · exact .inl hs
  · exact .inr (.inl hs)
  · exact .inr (.inr (.inl (hcompletes hs)))
  · exact .inr (.inr (.inr hs))

/-- The coordinator moves on without success. -/
theorem Stopped.unaccepted {phase : Phase} {collector : Collector} (h : Stopped s)
    (hphase : phase.accepted = false) :
    Stopped { s with phase := phase, collector := collector } where
  limited := h.limited
  sealed := h.sealed
  accepted hs := by
    rw [show phase.accepted = true from hs] at hphase
    cases hphase
  counter ok hs := absurd hs (not_returned hphase ok)

/-- The coordinator moves on with success. -/
theorem Stopped.succeeds {phase : Phase} (h : Stopped s)
    (hend : s.interpretationEnd = some .complete)
    (hcounter : ∀ ok, phase = .returned ok → ok.receivedOutputBytes = s.received) :
    Stopped { s with phase := phase } where
  limited := h.limited
  sealed := h.sealed
  accepted _ := hend
  counter := hcounter

/-- A receiving pump takes a chunk, the end of the output or an error. -/
theorem Stopped.receives {pump : Pump} {received bytes : Nat} {outputLimit : Bool}
    (h : Stopped s) (hpump : s.pump = .receiving)
    (hlimited : outputLimit = true → pump = .sending .transportFailed)
    (hclean : pump = .sending .finishClean → outputLimit = false) :
    Stopped { s with
      pump := pump
      received := received
      bytes := bytes
      outputLimit := outputLimit } := by
  obtain ⟨-, hsealing⟩ := h.receiving hpump
  have hundecided := h.undecided hsealing
  refine ⟨fun hs => .inl (hlimited hs), ?_, ?_, ?_⟩
  · rintro (hs | hs)
    · exact ⟨hclean hs, .inl hs⟩
    · exact absurd (.inr hs) hsealing
  · intro hs
    rw [show s.phase.accepted = true from hs] at hundecided
    cases hundecided
  · intro ok hs
    exact absurd hs (not_returned hundecided ok)

/-- Only `finishClean` makes the interpretation complete. -/
theorem interpretation_completes {units : List CanonicalUnitEvent}
    {failure : Option InterpreterFailure} {cmd : InputCmd}
    (h : (Exchange.interpretation units failure cmd).completes = true) : cmd = .finishClean := by
  cases cmd with
  | finishClean => rfl
  | bytes len =>
      cases failure with
      | none => cases h
      | some failure => cases failure <;> cases h
  | cancel => cases h
  | transportFailed => cases h

theorem next_completes {next : Next} (h : next.interpreter.completes = true) :
    next.completes = true := by
  cases next with
  | resume => cases h
  | finish kind => cases kind <;> first | rfl | cases h

theorem finishing_completes {kind : InterpretationEndKind}
    (h : (Interpreter.reporting kind).completes = true) :
    (Interpreter.finishing kind).completes = true := by
  cases kind <;> first | rfl | cases h

/-- The pump has sent its command. -/
theorem Stopped.push {cmd : InputCmd} (h : Stopped s) (hpump : s.pump = .sending cmd) :
    Stopped { s with commands := s.commands ++ [cmd], pump := Exchange.pumpAfter cmd } where
  limited hs := by
    rcases h.limited hs with hstopped | hstopped
    · rw [hpump] at hstopped
      cases hstopped
      exact .inr rfl
    · rw [hpump] at hstopped
      cases hstopped
  sealed hs := by
    have hsealing : s.Sealing := by
      rcases hs with hs | hs | hs
      · cases cmd <;> cases hs
      · rcases List.mem_append.mp hs with hs | hs
        · exact .inr (.inl hs)
        · rw [← List.mem_singleton.mp hs] at hpump
          exact .inl hpump
      · exact .inr (.inr hs)
    obtain ⟨hlimit, hstopped | hstopped⟩ := h.sealed hsealing
    · rw [hpump] at hstopped
      cases hstopped
      exact ⟨hlimit, .inr rfl⟩
    · rw [hpump] at hstopped
      cases hstopped
  accepted := h.accepted
  counter := h.counter

/-- **Every step keeps it.** -/
theorem Stopped.step (h : Stopped s) (hqueued : Queued s) (hstep : ExchangeStep budget s a s') :
    Stopped s' := by
  cases hstep with
  | chunkOver len hpump _ =>
      exact h.receives hpump (fun _ => rfl) (fun hs => by cases hs)
  | chunk len hpump _ =>
      have hlimit := (h.receiving hpump).1
      exact h.receives hpump (fun hs => by simp [hlimit] at hs) (fun hs => by cases hs)
  | outputEnd _ cmd hpump =>
      have hlimit := (h.receiving hpump).1
      exact h.receives hpump (fun hs => by simp [hlimit] at hs) (fun _ => hlimit)
  | pushLost cmd hpump _ =>
      refine ⟨fun _ => .inr rfl, ?_, h.accepted, h.counter⟩
      rintro (hs | hs)
      · cases hs
      · exact ⟨(h.sealed (.inr hs)).1, .inr rfl⟩
  | push cmd hpump => exact h.push hpump
  | interpret units failure cmd rest hidle hcommands =>
      refine h.moves rfl rfl ?_ rfl rfl rfl
      rintro (hs | hs | hs | hs)
      · exact .inl hs
      · exact .inr (.inl (by rw [hcommands]; exact List.mem_cons_of_mem _ hs))
      · rw [interpretation_completes hs] at hcommands
        exact .inr (.inl (by rw [hcommands]; exact List.mem_cons_self ..))
      · exact .inr (.inr (.inr hs))
  | published next failed hnow =>
      apply h.interprets
      intro hs
      rw [hnow]
      show (next.completes || failed.completes) = true
      rw [next_completes hs]
      rfl
  | publish unit rest next failed hnow _ =>
      apply h.interprets
      intro hs
      rw [hnow]
      exact hs
  | publishFailed unit rest next failed hnow _ =>
      apply h.interprets
      intro hs
      rw [hnow]
      show (next.completes || failed.completes) = true
      rw [next_completes hs, Bool.or_true]
  | finish kind hnow _ =>
      apply h.interprets
      intro hs
      rw [hnow]
      exact finishing_completes hs
  | finishUnsent kind hnow _ =>
      apply h.interprets
      intro hs
      rw [hnow]
      exact finishing_completes hs
  | report kind hnow =>
      -- the report is the first, so success was not decided
      have hundecided : s.phase.accepted = false := by
        cases haccepted : s.phase.accepted with
        | false => rfl
        | true =>
            have hended := hqueued.reported (by rw [h.accepted haccepted]; rfl)
            rw [hnow] at hended
            cases hended
      refine ⟨h.limited, ?_, ?_, ?_⟩
      · rintro (hs | hs | hs | hs)
        · exact h.sealed (.inl hs)
        · exact h.sealed (.inr (.inl hs))
        · cases hs
        · cases hs
          exact h.sealed (.inr (.inr (.inl (by rw [hnow]; rfl))))
      · intro hs
        rw [show s.phase.accepted = true from hs] at hundecided
        cases hundecided
      · intro ok hs
        exact absurd hs (not_returned hundecided ok)
  | connectionEnded kind _ => exact h.moves rfl rfl id rfl rfl rfl
  | ownerDone => exact h.moves rfl rfl id rfl rfl rfl
  | collectUnit retained unit rest _ _ _ => exact h.moves rfl rfl id rfl rfl rfl
  | collectLimit retained unit rest _ _ _ => exact h.moves rfl rfl id rfl rfl rfl
  | collectEnd retained kind rest _ _ => exact h.moves rfl rfl id rfl rfl rfl
  | collectClosed retained _ _ _ => exact h.moves rfl rfl id rfl rfl rfl
  | cancel => exact h.moves rfl rfl id rfl rfl rfl
  | deadline => exact h.moves rfl rfl id rfl rfl rfl
  | prepared _ => exact h.unaccepted rfl
  | prepareFailed failure _ => exact h.unaccepted rfl
  | pollFails arm failure _ => exact h.unaccepted rfl
  | pollNext arm next _ => exact h.unaccepted rfl
  | pollEnds interp conn _ hinterp _ =>
      cases hclean : reconcileTerminals conn interp with
      | some failure => exact h.unaccepted rfl
      | none =>
          have hcomplete : interp = .complete := by
            cases conn <;> cases interp <;> first | rfl | cases hclean
          rw [hcomplete] at hinterp
          exact h.succeeds hinterp (fun ok hs => by cases hs)
  | waited _ failure hphase _ =>
      cases failure with
      | some failure => exact h.unaccepted rfl
      | none =>
          refine h.succeeds (h.accepted (by rw [hphase]; rfl)) ?_
          intro ok hs
          cases hs
  | returned hphase =>
      refine h.succeeds (h.accepted (by rw [hphase]; rfl)) ?_
      intro ok hs
      cases hs
      rfl
  | failed failure _ => exact h.unaccepted rfl

theorem stopped_of_reach {ok : Exchange → ExchangeAction → Prop}
    (h : (encodedExchange budget).Reach ok s) : Stopped s := by
  refine System.Reach.invariant (P := Stopped) ?_ ?_ h
  · rintro s rfl
    exact .opened
  · intro s a s' hreach hstopped _ hstep
    exact hstopped.step (queued_of_reach hreach) (exchange_step hstep)

/-- **What a successful exchange reports**: at most its budget, and the bytes it
received unless they passed `2 ^ 64` under the largest budget there is. -/
theorem returned_output {ok : EncodedExchangeOk} (h : (encodedExchange budget).Reach always s)
    (hreturned : s.phase = .returned ok) :
    ok.receivedOutputBytes ≤ budget.maxOutput ∧
      (budget.maxOutput < usizeMax ∨ s.bytes ≤ usizeMax → ok.receivedOutputBytes = s.bytes) := by
  have hcounted := counted_of_reach h
  have hstopped := stopped_of_reach h
  have hend := hstopped.accepted (by rw [hreturned]; rfl)
  have hlimit := (hstopped.sealed (.inr (.inr (.inr hend)))).1
  rw [hstopped.counter ok hreturned]
  refine ⟨hcounted.within hlimit, ?_⟩
  have hwraps := hcounted.wraps
  rintro (hbudget | hbytes)
  · have hbytes := hcounted.exact hbudget hlimit
    unfold usizeMax at hbudget
    omega
  · unfold usizeMax at hbytes
    omega

end

end Monoloop.Coordinator
