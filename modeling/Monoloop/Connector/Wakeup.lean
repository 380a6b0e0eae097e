import Monoloop.Connector.TerminalRace

/-!
# Wakeups on connection control

`interrupted`, `wait_control` and `wait_interrupt` test the flags first and create
their `Notified` afterwards. A control call that runs between the two wakes nobody,
and the waiter parks behind a flag that is already set. `StickyCancel` in the loop
crate creates the `Notified` before it tests.

`Attended` is the side condition under which no waiter is missed.
-/

namespace Monoloop.Connector

open Transition (System always)

namespace Waiter

/-- The waiter has tested the flag of this control call and, as the other flags stand,
goes on to create its `Notified`. -/
def Passed (c : ControlState) (w : Waiter) : ControlKind → Prop
  | .cancel =>
      w.pc = .testTerminate ∧ c.terminateRequested = false ∨
        w.pc = .testTerminal ∧ c.terminal = false ∨ w.pc = .create
  | .terminate => w.pc = .testTerminal ∧ c.terminal = false ∨ w.pc = .create

instance (c : ControlState) (w : Waiter) (kind : ControlKind) : Decidable (w.Passed c kind) :=
  match kind with
  | .cancel => inferInstanceAs (Decidable (_ ∧ _ ∨ _ ∧ _ ∨ _))
  | .terminate => inferInstanceAs (Decidable (_ ∧ _ ∨ _))

/-- The waiter will not see this control call unless it is notified. -/
def Deaf (c : ControlState) (w : Waiter) (kind : ControlKind) : Prop :=
  w.Passed c kind ∨ w.pc = .created false ∨ w.pc = .parked false

end Waiter

/-- **The condition on a step.** When a control call notifies, no waiter is between its
test of that call's flag and the creation of its `Notified`. -/
def Attended (s : Connection) : ConnectionAction → Prop
  | .call n => ∀ k ∈ s.calls[n]?, k.pc = .notify → ∀ w ∈ s.waiters, ¬ w.Passed s.control k.kind
  | _ => True

instance (s : Connection) (a : ConnectionAction) : Decidable (Attended s a) :=
  match a with
  | .call _ => inferInstanceAs (Decidable (∀ _ ∈ _, _ → ∀ _ ∈ _, _))
  | .owner | .request _ | .transfer _ _ | .finish _ | .wait _ | .waiter _ | .abandon _ =>
      inferInstanceAs (Decidable True)

/-- **No lost wakeup.** While a flag is set and its `notify_waiters` has run, every
parked waiter has been woken. -/
def NoLostWakeup (s : Connection) : Prop :=
  ∀ kind, s.control.requested kind = true → s.Accepted kind →
    ∀ w ∈ s.waiters, w.pc ≠ .parked false

/-- The invariant behind it: an accepted call has reached every waiter. -/
def Reached (s : Connection) : Prop :=
  ∀ kind, s.Accepted kind → ∀ w ∈ s.waiters, ¬ w.Deaf s.control kind

/-! ## Waiters -/

section Waiters

variable {c c' : ControlState} {w w' : Waiter} {kind : ControlKind}

/-- Flags are only ever set, so a waiter that would return still does. -/
theorem Waiter.Passed.antitone (h : w.Passed c' kind)
    (ht : c.terminateRequested = true → c'.terminateRequested = true)
    (hterm : c.terminal = true → c'.terminal = true) : w.Passed c kind := by
  have unset : ∀ {b b' : Bool}, (b = true → b' = true) → b' = false → b = false := by
    intro b b' hb hb'
    cases b
    · rfl
    · exact (hb rfl).symm.trans hb'
  cases kind with
  | cancel =>
      rcases h with ⟨hpc, hflag⟩ | ⟨hpc, hflag⟩ | hpc
      · exact .inl ⟨hpc, unset ht hflag⟩
      · exact .inr (.inl ⟨hpc, unset hterm hflag⟩)
      · exact .inr (.inr hpc)
  | terminate =>
      rcases h with ⟨hpc, hflag⟩ | hpc
      · exact .inl ⟨hpc, unset hterm hflag⟩
      · exact .inr hpc

/-- `notify_waiters` reaches all but those that have passed the test. -/
theorem Waiter.notified_not_deaf (h : ¬ w.Passed c kind) : ¬ w.notified.Deaf c kind := by
  obtain ⟨wkind, pc⟩ := w
  cases pc with
  | created woken | parked woken =>
      cases kind <;> simp [Waiter.notified, Waiter.goto, Waiter.Deaf, Waiter.Passed]
  | testCancel | testTerminate | testTerminal | create | returned | dropped =>
      intro hdeaf
      rcases hdeaf with hpassed | hpc | hpc
      · exact h hpassed
      · cases hpc
      · cases hpc

/-- A waiter that is not deaf sees the flag at its next test. -/
theorem Waiter.operate_not_deaf (h : w.operate c = some w') (hset : c.requested kind = true)
    (hw : ¬ w.Deaf c kind) : ¬ w'.Deaf c kind := by
  obtain ⟨wkind, pc⟩ := w
  cases pc with
  | testCancel =>
      cases h
      cases kind with
      | cancel =>
          have hc : c.cancelRequested = true := hset
          simp [Waiter.goto, hc, Waiter.Deaf, Waiter.Passed]
      | terminate =>
          cases hc : c.cancelRequested <;> simp [Waiter.goto, Waiter.Deaf, Waiter.Passed]
  | testTerminate =>
      cases ht : c.terminateRequested with
      | true =>
          simp only [Waiter.operate, ht, if_true] at h
          cases h
          cases kind <;> simp [Waiter.goto, Waiter.Deaf, Waiter.Passed]
      | false =>
          cases kind with
          | cancel => exact absurd (.inl (.inl ⟨rfl, ht⟩)) hw
          | terminate => exact absurd (hset.symm.trans ht) (by decide)
  | testTerminal =>
      cases hterm : c.terminal with
      | true =>
          simp only [Waiter.operate, hterm, if_true] at h
          cases h
          cases kind <;> simp [Waiter.goto, Waiter.Deaf, Waiter.Passed]
      | false =>
          cases kind with
          | cancel => exact absurd (.inl (.inr (.inl ⟨rfl, hterm⟩))) hw
          | terminate => exact absurd (.inl (.inl ⟨rfl, hterm⟩)) hw
  | create =>
      cases kind with
      | cancel => exact absurd (.inl (.inr (.inr rfl))) hw
      | terminate => exact absurd (.inl (.inr rfl)) hw
  | created woken =>
      cases woken with
      | true =>
          cases h
          cases kind <;> simp [Waiter.goto, Waiter.Deaf, Waiter.Passed]
      | false => exact absurd (.inr (.inl rfl)) hw
  | parked woken =>
      cases woken with
      | true =>
          cases h
          cases kind <;> simp [Waiter.goto, Waiter.Deaf, Waiter.Passed]
      | false => exact absurd (.inr (.inr rfl)) hw
  | returned | dropped => cases h

theorem Waiter.abandon_not_deaf (h : w.abandon = some w') : ¬ w'.Deaf c kind := by
  obtain ⟨wkind, pc⟩ := w
  have hdropped : w'.pc = .dropped := by
    cases pc <;> cases h <;> rfl
  rintro (hpassed | hpc | hpc)
  · cases kind <;> simp [Waiter.Passed, hdropped] at hpassed
  · cases hdropped.symm.trans hpc
  · cases hdropped.symm.trans hpc

end Waiters

/-! ## Attended runs -/

section Attended

variable {s s' : Connection} {a : ConnectionAction}

/-- Setting the flags does not deafen the waiters a step leaves alone. -/
theorem Reached.grow (hs : Reached s) (hcalls : ∀ kind, s'.Accepted kind → s.Accepted kind)
    (hwaiters : s'.waiters = s.waiters)
    (ht : s.control.terminateRequested = true → s'.control.terminateRequested = true)
    (hterm : s.control.terminal = true → s'.control.terminal = true) : Reached s' := by
  intro kind hacc w hw hdeaf
  rw [hwaiters] at hw
  exact hs kind (hcalls kind hacc) w hw (hdeaf.imp_left (·.antitone ht hterm))

theorem Idle.accepted (h : Idle s a s') {kind : ControlKind} (hacc : s'.Accepted kind) :
    s.Accepted kind := by
  rcases h.mem_cases hacc with hold | hnew
  · exact hold
  · cases hnew

theorem reached_called {n : Nat} {k k' : ControlCall} (hs : Reached s) (hok : Attended s (.call n))
    (h : Called s s' n k k') : Reached s' := by
  by_cases hpc : k.pc = .notify
  · -- every waiter is notified, and none has passed the test
    have hcontrol : s'.control = s.control := by
      rcases k.operate_cases h.operate with ⟨hpc', -⟩ | ⟨hpc', -⟩ | ⟨hpc', -⟩ | ⟨-, hc, -⟩
      · cases hpc.symm.trans hpc'
      · cases hpc.symm.trans hpc'
      · cases hpc.symm.trans hpc'
      · exact hc
    intro kind hacc w hw
    rw [h.waiters, if_pos hpc] at hw
    obtain ⟨w₀, hw₀, rfl⟩ := List.mem_map.mp hw
    apply Waiter.notified_not_deaf
    rw [hcontrol]
    rcases h.mem_cases hacc with hnew | hold
    · obtain ⟨hkind, -, -⟩ := operate_keeps h.operate
      rw [← hnew] at hkind
      obtain rfl : kind = k.kind := hkind
      exact hok k h.get hpc w₀ hw₀
    · intro hpassed
      exact hs kind hold w₀ hw₀ (.inl hpassed)
  · apply hs.grow
    · intro kind hacc
      rcases h.mem_cases hacc with hnew | hold
      · rcases k.operate_cases h.operate with ⟨-, -, ⟨-, rfl⟩ | ⟨-, rfl⟩⟩ |
          ⟨-, -, ⟨-, rfl⟩ | ⟨-, rfl⟩⟩ | ⟨-, -, rfl⟩ | ⟨hpc', -⟩
        · cases hnew
        · cases hnew
        · cases hnew
        · cases hnew
        · cases hnew
        · exact absurd hpc' hpc
      · exact hold
    · exact h.waiters.trans (if_neg hpc)
    · exact requested_mono h.operate .terminate
    · exact h.kept.terminal.trans

/-- The notification of a terminal connection only wakes. -/
theorem Reached.notifyWaiters (hs : Reached s) : Reached s.notifyWaiters := by
  intro kind hacc w hw
  obtain ⟨w₀, hw₀, rfl⟩ := List.mem_map.mp hw
  apply Waiter.notified_not_deaf
  intro hpassed
  exact hs kind hacc w₀ hw₀ (.inl hpassed)

theorem reached_finish (f : Finish) (hs : Reached s) : Reached (s.operateFinish f) := by
  unfold Connection.operateFinish
  cases f.pc with
  | loadTerminal =>
      by_cases ht : s.control.terminal = true
      · simp only [ht, if_true]
        exact hs
      · simp only [ht]
        exact hs
  | loadPreferred => exact hs
  | storeTerminal kind => exact hs.grow (fun _ h => h) rfl id (fun _ => rfl)
  | notify kind => exact hs.notifyWaiters
  | send kind => exact hs

theorem reached_step (hrec : Recording s) (hs : Reached s) (hok : Attended s a)
    (h : s.step a = some s') : Reached s' := by
  cases a with
  | call n =>
      obtain ⟨k, k', hcalled⟩ := called_of_step h
      exact reached_called hs hok hcalled
  | request kind =>
      have hidle := idle_of_step (by simp) h
      cases h
      exact hs.grow (fun _ => hidle.accepted) rfl id id
  | transfer accepted received =>
      cases hf : s.owner.finishing <;> simp only [Connection.step, hf] at h <;> cases h
      exact hs
  | finish args =>
      cases hf : s.owner.finishing <;> simp only [Connection.step, hf] at h <;> cases h
      exact hs
  | owner =>
      obtain ⟨f, hf, rfl⟩ := Option.map_eq_some_iff.mp h
      exact reached_finish f hs
  | wait kind =>
      cases h
      intro kind' hacc w hw
      rcases List.mem_append.mp hw with hold | hnew
      · exact hs kind' hacc w hold
      · obtain rfl := List.mem_singleton.mp hnew
        cases kind' <;> simp [Waiter.Deaf, Waiter.Passed]
  | waiter n =>
      obtain ⟨w, hget, hw⟩ := Option.bind_eq_some_iff.mp h
      obtain ⟨w', hop, rfl⟩ := Option.map_eq_some_iff.mp hw
      intro kind hacc x hx
      rcases List.mem_or_eq_of_mem_set hx with hold | rfl
      · exact hs kind hacc x hold
      · exact Waiter.operate_not_deaf hop (hrec.requested _ hacc (.inr (.inr rfl)))
          (hs kind hacc w (List.mem_of_getElem? hget))
  | abandon n =>
      obtain ⟨w, hget, hw⟩ := Option.bind_eq_some_iff.mp h
      obtain ⟨w', hop, rfl⟩ := Option.map_eq_some_iff.mp hw
      intro kind hacc x hx
      rcases List.mem_or_eq_of_mem_set hx with hold | rfl
      · exact hs kind hacc x hold
      · exact Waiter.abandon_not_deaf hop

theorem reached (h : connection.Reach Attended s) : Reached s := by
  refine h.invariant ?_ ?_
  · rintro s ⟨connectionId, rfl⟩ kind hacc
    cases hacc
  · intro s a s' hr hs hok hstep
    exact reached_step (recording hr) hs hok hstep

/-- **No lost wakeup in attended runs.** -/
theorem noLostWakeup_of_attended (h : connection.Reach Attended s) : NoLostWakeup s := by
  intro kind _ hacc w hw hparked
  exact reached h kind hacc w hw (.inr (.inr hparked))

end Attended

/-- A cancelled connection whose owner waits in `wait_control`. -/
def waiting (pc : WaiterPc) : Connection where
  control := ⟨false, true, false, some .cancelled⟩
  owner := .new sampleConnectionId
  calls := [⟨.cancel, .returned .accepted⟩]
  waiters := [⟨.waitControl, pc⟩]
  decision := none
  published := []

/-- A waiter that has created its `Notified` is woken. -/
theorem parked_waiter_woken :
    connection.runWhere Attended [.wait .waitControl, .waiter 0, .waiter 0, .waiter 0, .waiter 0,
        .request .cancel, .call 0, .call 0, .call 0, .call 0]
        (.opened sampleConnectionId) = some (waiting (.parked true)) ∧
      NoLostWakeup (waiting (.parked true)) := by
  have hrun : connection.runWhere Attended [.wait .waitControl, .waiter 0, .waiter 0, .waiter 0,
      .waiter 0, .request .cancel, .call 0, .call 0, .call 0, .call 0]
      (.opened sampleConnectionId) = some (waiting (.parked true)) := rfl
  exact ⟨hrun, noLostWakeup_of_attended (System.runWhere_reach (.init ⟨_, rfl⟩) hrun)⟩

/-- **A lost wakeup.** The cancel falls between the test of the flags and the creation
of the `Notified`. -/
theorem cancel_missed :
    connection.run [.wait .waitControl, .waiter 0, .waiter 0,
        .request .cancel, .call 0, .call 0, .call 0, .call 0, .waiter 0, .waiter 0]
        (.opened sampleConnectionId) = some (waiting (.parked false)) ∧
      ¬ NoLostWakeup (waiting (.parked false)) := by
  refine ⟨rfl, ?_⟩
  intro hnone
  exact hnone .cancel rfl List.mem_cons_self _ List.mem_cons_self rfl

end Monoloop.Connector
