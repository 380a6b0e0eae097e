import Monoloop.Connector.Control

/-!
# The terminal race

`finish` loads `preferred_end` once; a control call records its preference some
operations after it has tested `terminal` and swapped its flag. Between the two a
call can be told `Accepted` although the end it asks for is no longer the one
published.

`Timely` is the side condition under which it cannot: a call that is about to be
accepted when `finish` has loaded `preferred_end` asks for the end that was chosen.
-/

namespace Monoloop.Connector

open Transition (System always)

namespace ControlCall

/-- The call has swapped its flag and found it unset. -/
def Swapped (k : ControlCall) : Prop :=
  k.pc = .writePreferred ∨ k.pc = .notify ∨ k.pc = .returned .accepted

/-- The call has recorded its preference. -/
def Recorded (k : ControlCall) : Prop := k.pc = .notify ∨ k.pc = .returned .accepted

theorem Recorded.swapped {k : ControlCall} (h : k.Recorded) : k.Swapped := .inr h

end ControlCall

/-- The control call that sets a preference. -/
def PreferredEnd.asked : PreferredEnd → ControlKind
  | .cancelled => .cancel
  | .terminated => .terminate

namespace ControlState

/-- The preference a control call leaves behind, whatever else runs. -/
def Prefers (c : ControlState) : ControlKind → Prop
  | .cancel => c.preferredEnd ≠ none
  | .terminate => c.preferredEnd = some .terminated

theorem prefer_prefers (c : ControlState) (k : ControlKind) : (c.prefer k).Prefers k := by
  cases k with
  | cancel => cases h : c.preferredEnd <;> simp [Prefers, prefer, h]
  | terminate => rfl

theorem Prefers.prefer {c : ControlState} {k : ControlKind} (h : c.Prefers k) (k' : ControlKind) :
    (c.prefer k').Prefers k := by
  cases k' with
  | cancel =>
      cases k with
      | cancel => cases hp : c.preferredEnd <;> simp [Prefers, ControlState.prefer, hp]
      | terminate =>
          have hp : c.preferredEnd = some .terminated := h
          simp [Prefers, ControlState.prefer, hp]
  | terminate => cases k <;> simp [Prefers, ControlState.prefer]

end ControlState

/-- The end that was decided on is one an accepted call of this kind asks for: a
cancel also gives way to a terminate. -/
def Honours (c : ControlState) (d : Decision) : ControlKind → Prop
  | .cancel =>
      endKind d.observed d.preferred = .cancelled ∨
        endKind d.observed d.preferred = .terminated ∧ c.terminateRequested = true
  | .terminate => endKind d.observed d.preferred = .terminated

instance (c : ControlState) (d : Decision) (k : ControlKind) : Decidable (Honours c d k) :=
  match k with
  | .cancel => inferInstanceAs (Decidable (_ ∨ _ ∧ _))
  | .terminate => inferInstanceAs (Decidable (_ = _))

theorem Honours.mono {c c' : ControlState} {d : Decision} {k : ControlKind}
    (h : Honours c d k) (hc : c.terminateRequested = true → c'.terminateRequested = true) :
    Honours c' d k := by
  cases k with
  | cancel =>
      rcases h with h | ⟨h, ht⟩
      · exact .inl h
      · exact .inr ⟨h, hc ht⟩
  | terminate => exact h

/-- **The condition on a step.** When `finish` loads `preferred_end`, a call that has
swapped its flag and not yet recorded its preference asks for the end now chosen; and
a call that swaps its flag after that load does so too. -/
def Timely (s : Connection) : ConnectionAction → Prop
  | .owner => ∀ f ∈ s.owner.finishing, f.pc = .loadPreferred →
      ∀ k ∈ s.calls, k.pc = .writePreferred →
        Honours s.control ⟨f.args.observed, s.control.preferredEnd⟩ k.kind
  | .call n => ∀ k ∈ s.calls[n]?, k.pc = .swapRequested → s.control.requested k.kind = false →
      ∀ d ∈ s.decision, Honours s.control d k.kind
  | _ => True

instance (s : Connection) (a : ConnectionAction) : Decidable (Timely s a) :=
  match a with
  | .owner => inferInstanceAs (Decidable (∀ _ ∈ _, _ → ∀ _ ∈ _, _ → _))
  | .call _ => inferInstanceAs (Decidable (∀ _ ∈ _, _ → _ → ∀ _ ∈ _, _))
  | .request _ | .transfer _ _ | .finish _ | .wait _ | .waiter _ | .abandon _ =>
      inferInstanceAs (Decidable True)

namespace Connection

/-- Some call of this kind returned `Accepted`. -/
def Accepted (s : Connection) (kind : ControlKind) : Prop :=
  ⟨kind, .returned .accepted⟩ ∈ s.calls

/-- Every control call has returned. -/
def Settled (s : Connection) : Prop := ∀ k ∈ s.calls, ∃ disposition, k.pc = .returned disposition

end Connection

/-- **The terminal-race rule.** Without a control call in progress the accepted calls
determine the published kind; an accepted terminate does so at once. -/
structure TerminalRace (s : Connection) : Prop where
  once : s.published.length ≤ 1
  finished : 0 < s.owner.finished → s.published ≠ []
  terminated : s.Accepted .terminate → ∀ e ∈ s.published, e.kind = .terminated
  cancelled : s.Settled → ¬ s.Accepted .terminate → s.Accepted .cancel →
    ∀ e ∈ s.published, e.kind = .cancelled
  observed : s.Settled → ¬ s.Accepted .terminate → ¬ s.Accepted .cancel →
    ∀ e ∈ s.published, s.decision.map (·.observed) = some e.kind

/-! ## What the calls have recorded -/

/-- The flags and the preferences are those of calls, and a call's are set. -/
structure Recording (s : Connection) : Prop where
  requested : ∀ k ∈ s.calls, k.Swapped → s.control.requested k.kind = true
  preferred : ∀ k ∈ s.calls, k.Recorded → s.control.Prefers k.kind
  requester : ∀ kind, s.control.requested kind = true → ∃ k ∈ s.calls, k.kind = kind ∧ k.Swapped
  recorder : ∀ p ∈ s.control.preferredEnd, ∃ k ∈ s.calls, k.kind = p.asked ∧ k.Recorded
  decided : ∀ d ∈ s.decision, ∀ p ∈ d.preferred, ∃ k ∈ s.calls, k.kind = p.asked ∧ k.Recorded

section Calls

variable {s s' : Connection} {n : Nat} {k k' : ControlCall} {a : ConnectionAction}

/-- A call keeps its kind and what it has done. -/
theorem operate_keeps {c c' : ControlState} (h : k.operate c = some (c', k')) :
    k'.kind = k.kind ∧ (k.Swapped → k'.Swapped) ∧ (k.Recorded → k'.Recorded) := by
  unfold ControlCall.Swapped ControlCall.Recorded
  rcases k.operate_cases h with ⟨hpc, -, ⟨-, rfl⟩ | ⟨-, rfl⟩⟩ | ⟨hpc, -, ⟨-, rfl⟩ | ⟨-, rfl⟩⟩ |
    ⟨hpc, -, rfl⟩ | ⟨hpc, -, rfl⟩ <;> simp [hpc, ControlCall.goto]

theorem requested_mono {c c' : ControlState} (h : k.operate c = some (c', k'))
    (kind : ControlKind) (hr : c.requested kind = true) : c'.requested kind = true := by
  rcases k.operate_cases h with ⟨-, rfl, -⟩ | ⟨-, rfl, -⟩ | ⟨-, rfl, -⟩ | ⟨-, rfl, -⟩
  · exact hr
  · simp [ControlState.request_requested, hr]
  · simpa using hr
  · exact hr

theorem prefers_mono {c c' : ControlState} (h : k.operate c = some (c', k'))
    {kind : ControlKind} (hp : c.Prefers kind) : c'.Prefers kind := by
  rcases k.operate_cases h with ⟨-, rfl, -⟩ | ⟨-, rfl, -⟩ | ⟨-, rfl, -⟩ | ⟨-, rfl, -⟩
  · exact hp
  · cases kind <;> simpa [ControlState.Prefers] using hp
  · exact hp.prefer k.kind
  · exact hp

/-- What some call has done stays done by it. -/
theorem Called.exists_call {P : ControlCall → Prop} (h : Called s s' n k k')
    (hP : P k → P k') (hsome : ∃ x ∈ s.calls, P x) : ∃ x ∈ s'.calls, P x := by
  obtain ⟨x, hx, hPx⟩ := hsome
  obtain ⟨i, hi⟩ := List.mem_iff_getElem?.mp hx
  rw [h.calls]
  by_cases hin : n = i
  · subst hin
    obtain rfl : k = x := Option.some.inj (h.get.symm.trans hi)
    exact ⟨k', List.mem_of_getElem? (List.getElem?_set_self
      (List.getElem?_eq_some_iff.mp hi).1), hP hPx⟩
  · exact ⟨x, List.mem_of_getElem? ((List.getElem?_set_ne hin).trans hi), hPx⟩

theorem Called.mem (h : Called s s' n k k') : k ∈ s.calls ∧ k' ∈ s'.calls := by
  refine ⟨List.mem_of_getElem? h.get, ?_⟩
  rw [h.calls]
  exact List.mem_of_getElem? (List.getElem?_set_self (List.getElem?_eq_some_iff.mp h.get).1)

theorem Called.mem_cases (h : Called s s' n k k') {x : ControlCall} (hx : x ∈ s'.calls) :
    x = k' ∨ x ∈ s.calls := by
  rw [h.calls] at hx
  exact (List.mem_or_eq_of_mem_set hx).symm

theorem Idle.mem_cases (h : Idle s a s') {x : ControlCall} (hx : x ∈ s'.calls) :
    x ∈ s.calls ∨ x.pc = .loadTerminal := by
  obtain ⟨fresh, hcalls, hfresh⟩ := h.calls
  rw [hcalls] at hx
  rcases List.mem_append.mp hx with hx | hx
  · exact .inl hx
  · exact .inr (hfresh x hx)

theorem Idle.exists_call {P : ControlCall → Prop} (h : Idle s a s')
    (hsome : ∃ x ∈ s.calls, P x) : ∃ x ∈ s'.calls, P x := by
  obtain ⟨fresh, hcalls, -⟩ := h.calls
  obtain ⟨x, hx, hPx⟩ := hsome
  exact ⟨x, hcalls ▸ List.mem_append_left _ hx, hPx⟩

theorem not_swapped_of_loadTerminal (h : k.pc = .loadTerminal) : ¬ k.Swapped := by
  simp [ControlCall.Swapped, h]

theorem Called.exists_swapped (h : Called s s' n k k') {kind : ControlKind}
    (hsome : ∃ x ∈ s.calls, x.kind = kind ∧ x.Swapped) :
    ∃ x ∈ s'.calls, x.kind = kind ∧ x.Swapped := by
  obtain ⟨hkind, hswapped, -⟩ := operate_keeps h.operate
  exact h.exists_call (fun ⟨hk, hs⟩ => ⟨hkind.trans hk, hswapped hs⟩) hsome

theorem Called.exists_recorded (h : Called s s' n k k') {kind : ControlKind}
    (hsome : ∃ x ∈ s.calls, x.kind = kind ∧ x.Recorded) :
    ∃ x ∈ s'.calls, x.kind = kind ∧ x.Recorded := by
  obtain ⟨hkind, -, hrecorded⟩ := operate_keeps h.operate
  exact h.exists_call (fun ⟨hk, hs⟩ => ⟨hkind.trans hk, hrecorded hs⟩) hsome

theorem recording_idle (hs : Recording s) (h : Idle s a s') : Recording s' where
  requested := by
    intro x hx hx'
    rw [h.requested]
    rcases h.mem_cases hx with hold | hnew
    · exact hs.requested x hold hx'
    · exact absurd hx' (not_swapped_of_loadTerminal hnew)
  preferred := by
    intro x hx hx'
    rcases h.mem_cases hx with hold | hnew
    · have hp := hs.preferred x hold hx'
      cases hk : x.kind <;> rw [hk] at hp <;> simpa [ControlState.Prefers, h.preferred] using hp
    · exact absurd hx'.swapped (not_swapped_of_loadTerminal hnew)
  requester := by
    intro kind hr
    rw [h.requested] at hr
    exact h.exists_call (hs.requester kind hr)
  recorder := by
    intro p hp
    rw [h.preferred] at hp
    exact h.exists_call (hs.recorder p hp)
  decided := by
    intro d hd p hp
    rcases h.decision with hsame | ⟨f, -, -, -, hnow⟩
    · rw [hsame] at hd
      exact h.exists_call (hs.decided d hd p hp)
    · rw [hnow] at hd
      cases hd
      exact h.exists_call (hs.recorder p hp)

theorem recording_called (hs : Recording s) (h : Called s s' n k k') : Recording s' where
  requested := by
    intro x hx hx'
    rcases h.mem_cases hx with rfl | hold
    · rcases k.operate_cases h.operate with ⟨-, -, ⟨-, rfl⟩ | ⟨-, rfl⟩⟩ |
        ⟨-, hc, ⟨-, rfl⟩ | ⟨-, rfl⟩⟩ | ⟨hpc, -, rfl⟩ | ⟨hpc, -, rfl⟩
      · simp [ControlCall.Swapped, ControlCall.goto] at hx'
      · simp [ControlCall.Swapped, ControlCall.goto] at hx'
      · simp [ControlCall.Swapped, ControlCall.goto] at hx'
      · rw [hc]
        simp [ControlState.request_requested, ControlCall.goto]
      · exact requested_mono h.operate _ (hs.requested k h.mem.1 (.inl hpc))
      · exact requested_mono h.operate _ (hs.requested k h.mem.1 (.inr (.inl hpc)))
    · exact requested_mono h.operate _ (hs.requested x hold hx')
  preferred := by
    intro x hx hx'
    rcases h.mem_cases hx with rfl | hold
    · rcases k.operate_cases h.operate with ⟨-, -, ⟨-, rfl⟩ | ⟨-, rfl⟩⟩ |
        ⟨-, -, ⟨-, rfl⟩ | ⟨-, rfl⟩⟩ | ⟨-, hc, rfl⟩ | ⟨hpc, -, rfl⟩
      · simp [ControlCall.Recorded, ControlCall.goto] at hx'
      · simp [ControlCall.Recorded, ControlCall.goto] at hx'
      · simp [ControlCall.Recorded, ControlCall.goto] at hx'
      · simp [ControlCall.Recorded, ControlCall.goto] at hx'
      · rw [hc]
        exact ControlState.prefer_prefers _ _
      · exact prefers_mono h.operate (hs.preferred k h.mem.1 (.inl hpc))
    · exact prefers_mono h.operate (hs.preferred x hold hx')
  requester := by
    intro kind hr
    by_cases hold : s.control.requested kind = true
    · exact h.exists_swapped (hs.requester kind hold)
    · -- only the swap sets a flag, and then it found it unset
      rcases k.operate_cases h.operate with ⟨-, hc, -⟩ | ⟨-, hc, hcase⟩ | ⟨-, hc, -⟩ | ⟨-, hc, -⟩
      · exact absurd (hc ▸ hr) hold
      · rw [hc, ControlState.request_requested] at hr
        obtain rfl : k.kind = kind := by simpa [hold] using hr
        rcases hcase with ⟨hset, -⟩ | ⟨-, rfl⟩
        · exact absurd hset hold
        · exact ⟨_, h.mem.2, rfl, .inl rfl⟩
      · rw [hc, ControlState.prefer_requested] at hr
        exact absurd hr hold
      · exact absurd (hc ▸ hr) hold
  recorder := by
    intro p hp
    by_cases hold : s.control.preferredEnd = some p
    · exact h.exists_recorded (hs.recorder p hold)
    · rcases k.operate_cases h.operate with ⟨-, hc, -⟩ | ⟨-, hc, -⟩ | ⟨-, hc, rfl⟩ | ⟨-, hc, -⟩
      · exact absurd (hc ▸ hp) hold
      · rw [hc, ControlState.request_preferredEnd] at hp
        exact absurd hp hold
      · refine ⟨_, h.mem.2, ?_, .inl rfl⟩
        rw [hc] at hp
        cases hk : k.kind with
        | cancel =>
            rw [hk] at hp
            cases hpe : s.control.preferredEnd with
            | none =>
                simp only [ControlState.prefer, hpe, Option.none_or, Option.mem_def,
                  Option.some.injEq] at hp
                subst hp
                exact hk
            | some q =>
                simp only [ControlState.prefer, hpe, Option.some_or, Option.mem_def] at hp
                exact absurd (hpe.trans hp) hold
        | terminate =>
            rw [hk] at hp
            cases hp
            exact hk
      · exact absurd (hc ▸ hp) hold
  decided := by
    intro d hd p hp
    rw [h.decision] at hd
    exact h.exists_recorded (hs.decided d hd p hp)

theorem recording {ok : Connection → ConnectionAction → Prop} (h : connection.Reach ok s) :
    Recording s := by
  refine h.invariant ?_ ?_
  · rintro s ⟨connectionId, rfl⟩
    constructor <;> simp [Connection.opened, ControlState.new, ControlState.requested]
    intro kind
    cases kind <;> rfl
  · intro s a s' _ hs _ hstep
    by_cases ha : ∃ n, a = .call n
    · obtain ⟨n, rfl⟩ := ha
      obtain ⟨k, k', hcalled⟩ := called_of_step hstep
      exact recording_called hs hcalled
    · exact recording_idle hs (idle_of_step (fun n hn => ha ⟨n, hn⟩) hstep)

end Calls

/-! ## What the owner has published -/

/-- Nothing decided. -/
structure Fresh (s : Connection) : Prop where
  terminal : s.control.terminal = false
  decision : s.decision = none
  published : s.published = []
  endTx : s.owner.endTx = true
  finished : s.owner.finished = 0

/-- An end was chosen and has not been sent. -/
structure Pending (s : Connection) (kind : ConnectionEndKind) : Prop where
  decision : ∃ d, s.decision = some d ∧ kind = endKind d.observed d.preferred
  published : s.published = []
  endTx : s.owner.endTx = true
  finished : s.owner.finished = 0

/-- The chosen end was sent. -/
structure Sent (s : Connection) : Prop where
  terminal : s.control.terminal = true
  published : ∃ d e, s.decision = some d ∧ s.published = [e] ∧
    e.kind = endKind d.observed d.preferred
  endTx : s.owner.endTx = false

/-- Where the owner stands. -/
def Publishing (s : Connection) : Prop :=
  match s.owner.finishing with
  | none => Fresh s ∨ Sent s
  | some f =>
      match f.pc with
      | .loadTerminal => Fresh s ∨ Sent s
      | .loadPreferred => Fresh s
      | .storeTerminal kind => Pending s kind
      | .notify kind | .send kind => Pending s kind ∧ s.control.terminal = true

section Owner

variable {s s' : Connection} {a : ConnectionAction}

/-- What only the owner changes. -/
structure Kept (s s' : Connection) : Prop where
  terminal : s'.control.terminal = s.control.terminal
  decision : s'.decision = s.decision
  published : s'.published = s.published
  endTx : s'.owner.endTx = s.owner.endTx
  finished : s'.owner.finished = s.owner.finished

theorem Fresh.kept (hs : Fresh s) (h : Kept s s') : Fresh s' where
  terminal := h.terminal.trans hs.terminal
  decision := h.decision.trans hs.decision
  published := h.published.trans hs.published
  endTx := h.endTx.trans hs.endTx
  finished := h.finished.trans hs.finished

theorem Pending.kept {kind : ConnectionEndKind} (hs : Pending s kind) (h : Kept s s') :
    Pending s' kind where
  decision := h.decision ▸ hs.decision
  published := h.published.trans hs.published
  endTx := h.endTx.trans hs.endTx
  finished := h.finished.trans hs.finished

theorem Sent.kept (hs : Sent s) (h : Kept s s') : Sent s' where
  terminal := h.terminal.trans hs.terminal
  published := by
    rw [h.decision, h.published]
    exact hs.published
  endTx := h.endTx.trans hs.endTx

theorem publishing_kept (hs : Publishing s) (h : Kept s s')
    (hf : s'.owner.finishing = s.owner.finishing) : Publishing s' := by
  unfold Publishing at hs ⊢
  rw [hf]
  cases hfin : s.owner.finishing with
  | none =>
      simp only [hfin] at hs ⊢
      exact hs.imp (·.kept h) (·.kept h)
  | some f =>
      simp only [hfin] at hs ⊢
      cases hpc : f.pc with
      | loadTerminal =>
          simp only [hpc] at hs ⊢
          exact hs.imp (·.kept h) (·.kept h)
      | loadPreferred =>
          simp only [hpc] at hs ⊢
          exact hs.kept h
      | storeTerminal kind =>
          simp only [hpc] at hs ⊢
          exact hs.kept h
      | notify kind | send kind =>
          simp only [hpc] at hs ⊢
          exact ⟨hs.1.kept h, h.terminal.trans hs.2⟩

/-- One operation of `finish`: a terminal connection was published before, and a
chosen end is sent once. -/
theorem publishing_finish {f : Finish} (hs : Publishing s) (hf : s.owner.finishing = some f) :
    Publishing (s.operateFinish f) := by
  unfold Publishing at hs
  simp only [hf] at hs
  cases hpc : f.pc with
  | loadTerminal =>
      simp only [hpc] at hs
      rcases hs with hs | hs
      · have hstep : s.operateFinish f =
            { s with owner := { s.owner with finishing := some { f with pc := .loadPreferred } } } := by
          simp [Connection.operateFinish, hpc, hs.terminal]
        rw [hstep]
        exact hs.kept ⟨rfl, rfl, rfl, rfl, rfl⟩
      · have hstep : s.operateFinish f = { s with owner := { s.owner with
            finishing := none, finished := s.owner.finished + 1 } } := by
          simp [Connection.operateFinish, hpc, hs.terminal]
        rw [hstep]
        exact .inr ⟨hs.terminal, hs.published, hs.endTx⟩
  | loadPreferred =>
      simp only [hpc] at hs
      simp only [Connection.operateFinish, hpc]
      exact ⟨⟨_, rfl, rfl⟩, hs.published, hs.endTx, hs.finished⟩
  | storeTerminal kind =>
      simp only [hpc] at hs
      simp only [Connection.operateFinish, hpc]
      exact ⟨⟨hs.decision, hs.published, hs.endTx, hs.finished⟩, rfl⟩
  | notify kind =>
      simp only [hpc] at hs
      simp only [Connection.operateFinish, hpc]
      exact ⟨⟨hs.1.decision, hs.1.published, hs.1.endTx, hs.1.finished⟩, hs.2⟩
  | send kind =>
      simp only [hpc] at hs
      obtain ⟨⟨⟨d, hd, hkind⟩, hpublished, hendTx, -⟩, hterminal⟩ := hs
      simp only [Connection.operateFinish, hpc, hendTx, if_true, hpublished, List.nil_append]
      exact .inr ⟨hterminal, ⟨d, _, hd, rfl, hkind⟩, rfl⟩

theorem Called.kept {n : Nat} {k k' : ControlCall} (h : Called s s' n k k') : Kept s s' where
  terminal := by
    rcases k.operate_cases h.operate with ⟨-, hc, -⟩ | ⟨-, hc, -⟩ | ⟨-, hc, -⟩ | ⟨-, hc, -⟩ <;>
      simp [hc]
  decision := h.decision
  published := h.published
  endTx := by rw [h.owner]
  finished := by rw [h.owner]

theorem publishing_step (hs : Publishing s) (h : s.step a = some s') : Publishing s' := by
  cases a with
  | request kind | wait kind =>
      cases h
      exact publishing_kept hs ⟨rfl, rfl, rfl, rfl, rfl⟩ rfl
  | call n =>
      obtain ⟨k, k', hcalled⟩ := called_of_step h
      exact publishing_kept hs hcalled.kept (by rw [hcalled.owner])
  | transfer accepted received =>
      cases hf : s.owner.finishing <;> simp only [Connection.step, hf] at h <;> cases h
      exact publishing_kept hs ⟨rfl, rfl, rfl, rfl, rfl⟩ hf.symm
  | finish args =>
      cases hf : s.owner.finishing <;> simp only [Connection.step, hf] at h <;> cases h
      have hnone : Fresh s ∨ Sent s := by simpa only [Publishing, hf] using hs
      exact hnone.imp (·.kept ⟨rfl, rfl, rfl, rfl, rfl⟩) (·.kept ⟨rfl, rfl, rfl, rfl, rfl⟩)
  | owner =>
      obtain ⟨f, hf, rfl⟩ := Option.map_eq_some_iff.mp h
      exact publishing_finish hs hf
  | waiter n =>
      obtain ⟨w, -, hw⟩ := Option.bind_eq_some_iff.mp h
      obtain ⟨w', -, rfl⟩ := Option.map_eq_some_iff.mp hw
      exact publishing_kept hs ⟨rfl, rfl, rfl, rfl, rfl⟩ rfl
  | abandon n =>
      obtain ⟨w, -, hw⟩ := Option.bind_eq_some_iff.mp h
      obtain ⟨w', -, rfl⟩ := Option.map_eq_some_iff.mp hw
      exact publishing_kept hs ⟨rfl, rfl, rfl, rfl, rfl⟩ rfl

theorem publishing {ok : Connection → ConnectionAction → Prop} (h : connection.Reach ok s) :
    Publishing s := by
  refine h.invariant ?_ ?_
  · rintro s ⟨connectionId, rfl⟩
    exact .inl ⟨rfl, rfl, rfl, rfl, rfl⟩
  · intro s a s' _ hs _ hstep
    exact publishing_step hs hstep

/-- Before a decision no `finish` has returned, afterwards one end went out at most. -/
theorem Publishing.published_cases (hs : Publishing s) :
    (s.published = [] ∧ s.owner.finished = 0) ∨
      ∃ d e, s.decision = some d ∧ s.published = [e] ∧
        e.kind = endKind d.observed d.preferred := by
  have hboth : Fresh s ∨ Sent s → (s.published = [] ∧ s.owner.finished = 0) ∨
      ∃ d e, s.decision = some d ∧ s.published = [e] ∧
        e.kind = endKind d.observed d.preferred := by
    rintro (h | h)
    · exact .inl ⟨h.published, h.finished⟩
    · exact .inr h.published
  unfold Publishing at hs
  cases hf : s.owner.finishing with
  | none =>
      simp only [hf] at hs
      exact hboth hs
  | some f =>
      simp only [hf] at hs
      cases hpc : f.pc with
      | loadTerminal =>
          simp only [hpc] at hs
          exact hboth hs
      | loadPreferred =>
          simp only [hpc] at hs
          exact hboth (.inl hs)
      | storeTerminal kind =>
          simp only [hpc] at hs
          exact .inl ⟨hs.published, hs.finished⟩
      | notify kind | send kind =>
          simp only [hpc] at hs
          exact .inl ⟨hs.1.published, hs.1.finished⟩

end Owner

/-! ## Timely runs -/

/-- Every call that will be accepted asks for the end that was chosen. -/
def Honoured (s : Connection) : Prop :=
  ∀ d ∈ s.decision, ∀ k ∈ s.calls, k.Swapped → Honours s.control d k.kind

section Timely

variable {s s' : Connection} {a : ConnectionAction}

/-- A recorded preference decides the end for the call that recorded it. -/
theorem honours_of_prefers {c : ControlState} {k : ControlKind} (observed : ConnectionEndKind)
    (h : c.Prefers k)
    (ht : c.preferredEnd = some .terminated → c.terminateRequested = true) :
    Honours c ⟨observed, c.preferredEnd⟩ k := by
  cases k with
  | cancel =>
      cases hp : c.preferredEnd with
      | none => exact absurd hp h
      | some p =>
          cases p with
          | cancelled => exact .inl rfl
          | terminated => exact .inr ⟨rfl, ht hp⟩
  | terminate =>
      have hp : c.preferredEnd = some .terminated := h
      show endKind observed c.preferredEnd = .terminated
      rw [hp]
      rfl

/-- A terminate that is preferred was requested. -/
theorem Recording.terminateRequested (hs : Recording s)
    (h : s.control.preferredEnd = some .terminated) : s.control.terminateRequested = true := by
  obtain ⟨k, hk, hkind, hrecorded⟩ := hs.recorder .terminated h
  have hreq := hs.requested k hk hrecorded.swapped
  rw [hkind] at hreq
  exact hreq

theorem honoured_step (hrec : Recording s) (hs : Honoured s) (hok : Timely s a)
    (h : s.step a = some s') : Honoured s' := by
  by_cases ha : ∃ n, a = .call n
  · obtain ⟨n, rfl⟩ := ha
    obtain ⟨k, k', hcalled⟩ := called_of_step h
    have hmono := requested_mono hcalled.operate .terminate
    intro d hd x hx hswapped
    rw [hcalled.decision] at hd
    rcases hcalled.mem_cases hx with rfl | hold
    · obtain ⟨hkind, -, -⟩ := operate_keeps hcalled.operate
      rw [hkind]
      refine Honours.mono ?_ hmono
      rcases k.operate_cases hcalled.operate with ⟨-, -, ⟨-, rfl⟩ | ⟨-, rfl⟩⟩ |
        ⟨hpc, -, ⟨-, rfl⟩ | ⟨hunset, rfl⟩⟩ | ⟨hpc, -, rfl⟩ | ⟨hpc, -, rfl⟩
      · simp [ControlCall.Swapped, ControlCall.goto] at hswapped
      · simp [ControlCall.Swapped, ControlCall.goto] at hswapped
      · simp [ControlCall.Swapped, ControlCall.goto] at hswapped
      · exact hok k hcalled.get hpc hunset d hd
      · exact hs d hd k hcalled.mem.1 (.inl hpc)
      · exact hs d hd k hcalled.mem.1 (.inr (.inl hpc))
    · exact (hs d hd x hold hswapped).mono hmono
  · have hidle := idle_of_step (fun n hn => ha ⟨n, hn⟩) h
    intro d hd x hx hswapped
    have hold : x ∈ s.calls := by
      rcases hidle.mem_cases hx with hold | hnew
      · exact hold
      · exact absurd hswapped (not_swapped_of_loadTerminal hnew)
    refine Honours.mono (c := s.control) ?_ (fun hr => (hidle.requested .terminate).trans hr)
    rcases hidle.decision with hsame | ⟨f, rfl, hf, hpc, hnow⟩
    · rw [hsame] at hd
      exact hs d hd x hold hswapped
    · rw [hnow] at hd
      cases hd
      rcases hswapped with hwrite | hrecorded
      · exact hok f hf hpc x hold hwrite
      · exact honours_of_prefers _ (hrec.preferred x hold hrecorded) hrec.terminateRequested

theorem honoured (h : connection.Reach Timely s) : Honoured s := by
  refine h.invariant ?_ ?_
  · rintro s ⟨connectionId, rfl⟩ d hd
    cases hd
  · intro s a s' hr hs hok hstep
    exact honoured_step (recording hr) hs hok hstep

/-- Once every call has returned, those that swapped their flag were accepted. -/
theorem Connection.Settled.accepted (hs : s.Settled) {kind : ControlKind}
    (h : ∃ k ∈ s.calls, k.kind = kind ∧ k.Swapped) : s.Accepted kind := by
  obtain ⟨⟨kind', pc⟩, hk, rfl, hswapped⟩ := h
  obtain ⟨disposition, hpc⟩ := hs _ hk
  obtain rfl : pc = .returned .accepted := by
    rcases hswapped with h | h | h
    · cases hpc.symm.trans h
    · cases hpc.symm.trans h
    · exact h
  exact hk

/-- **The terminal race in timely runs.** -/
theorem terminalRace_of_timely (h : connection.Reach Timely s) : TerminalRace s := by
  have hrec := recording h
  have hhonoured := honoured h
  rcases (publishing h).published_cases with ⟨hnone, hfinished⟩ | ⟨d, e, hd, hpub, hkind⟩
  · constructor <;> simp [hnone, hfinished]
  · have hend : ∀ {kind : ConnectionEndKind}, e.kind = kind → ∀ e' ∈ s.published, e'.kind = kind := by
      intro kind he e' he'
      rw [hpub] at he'
      obtain rfl := List.mem_singleton.mp he'
      exact he
    have hcall : ∀ {kind : ControlKind}, s.Accepted kind → Honours s.control d kind := by
      intro kind hacc
      exact hhonoured d hd _ hacc (.inr (.inr rfl))
    refine ⟨by simp [hpub], by simp [hpub], ?_, ?_, ?_⟩
    · intro hterminate
      exact hend (hkind.trans (hcall hterminate))
    · intro hsettled hno hcancel
      rcases hcall hcancel with hc | ⟨-, hreq⟩
      · exact hend (hkind.trans hc)
      · -- the terminate that was requested has returned `Accepted`
        exact absurd (hsettled.accepted (hrec.requester .terminate hreq)) hno
    · intro hsettled hnoTerminate hnoCancel
      have hpreferred : d.preferred = none := by
        cases hp : d.preferred with
        | none => rfl
        | some p =>
            obtain ⟨k, hk, hkk, hrecorded⟩ := hrec.decided d hd p hp
            have hacc := hsettled.accepted ⟨k, hk, hkk, hrecorded.swapped⟩
            cases p
            · exact absurd hacc hnoCancel
            · exact absurd hacc hnoTerminate
      rw [hpreferred] at hkind
      rw [hd]
      intro e' he'
      exact congrArg some (hend hkind e' he').symm

end Timely

def remoteEof : ConnectionAction := .finish ⟨.remoteEof, .remote, none⟩

/-- Where a cancelled connection ends when the owner saw the EOF: `decision` is what
`finish` loaded, `kind` what it published. -/
def cancelledAt (decision : Decision) (kind : ConnectionEndKind) (initiatedBy : EndInitiator) :
    Connection where
  control := ⟨true, true, false, some .cancelled⟩
  owner := ⟨sampleConnectionId, 0, 0, false, none, 1⟩
  calls := [⟨.cancel, .returned .accepted⟩]
  waiters := []
  decision := some decision
  published := [⟨sampleConnectionId, kind, initiatedBy, 0, 0, none⟩]

/-- A cancel that records its preference before `finish` loads it wins over the EOF. -/
theorem cancel_wins :
    connection.runWhere Timely [.request .cancel, .call 0, .call 0, .call 0,
        remoteEof, .owner, .owner, .owner, .owner, .owner, .call 0]
        (.opened sampleConnectionId) =
      some (cancelledAt ⟨.remoteEof, some .cancelled⟩ .cancelled .localControl) ∧
    TerminalRace (cancelledAt ⟨.remoteEof, some .cancelled⟩ .cancelled .localControl) := by
  have hrun : connection.runWhere Timely [.request .cancel, .call 0, .call 0, .call 0,
      remoteEof, .owner, .owner, .owner, .owner, .owner, .call 0]
      (.opened sampleConnectionId) =
        some (cancelledAt ⟨.remoteEof, some .cancelled⟩ .cancelled .localControl) := rfl
  exact ⟨hrun, terminalRace_of_timely (System.runWhere_reach (.init ⟨_, rfl⟩) hrun)⟩

/-- **An accepted cancel that lost.** The cancel tests `terminal`, the owner publishes
the EOF, and the cancel goes on to `Accepted`. -/
theorem cancel_accepted_after_eof :
    connection.run [.request .cancel, .call 0,
        remoteEof, .owner, .owner, .owner, .owner, .owner, .call 0, .call 0, .call 0]
        (.opened sampleConnectionId) =
      some (cancelledAt ⟨.remoteEof, none⟩ .remoteEof .remote) ∧
    ¬ TerminalRace (cancelledAt ⟨.remoteEof, none⟩ .remoteEof .remote) := by
  refine ⟨rfl, ?_⟩
  intro hrace
  have hsettled : (cancelledAt ⟨.remoteEof, none⟩ .remoteEof .remote).Settled := by
    intro k hk
    obtain rfl := List.mem_singleton.mp hk
    exact ⟨.accepted, rfl⟩
  have hno : ¬ (cancelledAt ⟨.remoteEof, none⟩ .remoteEof .remote).Accepted .terminate := by
    intro hk
    cases List.mem_singleton.mp hk
  cases hrace.cancelled hsettled hno List.mem_cons_self _ List.mem_cons_self

end Monoloop.Connector
