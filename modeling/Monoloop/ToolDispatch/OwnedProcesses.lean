import Monoloop.ToolDispatch.ProcessTurns

/-!
# Owned processes

In every run of the process-isolated dispatches of a runtime: the drive with its mutex is
the worker that `toolPermits` has (`processes_refine`), a child that was not seen to exit
is with its dispatch or killed and in the registry (`children_accounted`), and a completion
says what became of the child (`completions_tell`).
-/

namespace Monoloop.ToolDispatch

open Transition (System always)

variable {s s' : List ProcessRun}

/-- A step is a new dispatch, or one step of one of them. -/
theorem stepProcesses_cases {a : ProcessAction} (hstep : stepProcesses a s = some s') :
    (∃ stdin, s' = s ++ [.start stdin]) ∨
      ∃ n r event r', s[n]? = some r ∧ r.step event = some r' ∧ s' = s.set n r' := by
  cases a with
  | spawn stdin => exact .inl ⟨stdin, (Option.some.inj hstep).symm⟩
  | event n event =>
      obtain ⟨r, hr, hstep⟩ := Option.bind_eq_some_iff.mp hstep
      obtain ⟨r', hr', hset⟩ := Option.map_eq_some_iff.mp hstep
      exact .inr ⟨n, r, event, r', hr, hr', hset.symm⟩

/-- **The invariant along a run.** -/
theorem sound_of_reach (h : toolProcesses.Reach always s) : ∀ r ∈ s, r.Sound := by
  apply h.invariant (P := fun s => ∀ r ∈ s, r.Sound)
  · intro s hinit r hr
    rw [show s = [] from hinit] at hr
    cases hr
  · intro s a s' _ hsound _ hstep r hr
    rcases stepProcesses_cases hstep with ⟨stdin, rfl⟩ | ⟨n, q, event, q', hq, hturn, rfl⟩
    · rcases List.mem_append.mp hr with hr | hr
      · exact hsound r hr
      · rw [List.mem_singleton.mp hr]
        exact ProcessRun.start_sound stdin
    · rcases List.mem_or_eq_of_mem_set hr with hr | rfl
      · exact hsound r hr
      · exact ((hsound q (List.mem_of_getElem? hq)).step hturn).1

/-! ## Two levels of one dispatch -/

/-- What `ProcessIsolatedToolHandler` says about itself. -/
def processIsolatedToolHandler : ToolHandler := ⟨false, false, true, true⟩

theorem dispatchRun_start (stdin : Bool) :
    (ProcessRun.start stdin).dispatchRun =
      .start .processIsolated processIsolatedToolHandler false
        (.started ⟨some .process, true⟩) := by
  cases stdin with
  | true => rfl
  | false => rfl

/-- A process may be left at any time. -/
theorem ProcessRun.mayAbandon (r : ProcessRun) : r.dispatchRun.mayAbandon := by
  intro hexternal
  rw [DispatchRun.external_process rfl] at hexternal
  cases hexternal

/-- **Refinement.** Seen as a dispatch and its worker, the runs are runs of `toolPermits`
that spare every worker. -/
theorem processes_refine (h : toolProcesses.Reach always s) :
    toolPermits.Reach Spares (s.map ProcessRun.dispatchRun) := by
  apply h.simulate (fun s => s.map ProcessRun.dispatchRun)
  · intro s hinit
    rw [show s = [] from hinit]
    rfl
  · intro s a s' hreach _ hstep
    rcases stepProcesses_cases hstep with ⟨stdin, rfl⟩ | ⟨n, r, event, r', hr, hturn, rfl⟩
    · refine .inr ⟨.dispatch .processIsolated processIsolatedToolHandler false
        (.started ⟨some .process, true⟩), trivial, ?_⟩
      rw [List.map_append, List.map_singleton, dispatchRun_start]
      rfl
    · have hview : (s.map ProcessRun.dispatchRun)[n]? = some r.dispatchRun := by
        rw [List.getElem?_map, hr]
        rfl
      rcases ((sound_of_reach hreach r (List.mem_of_getElem? hr)).step hturn).2 with
        hsame | ⟨seen, hseen⟩
      · left
        obtain ⟨hlt, hget⟩ := List.getElem?_eq_some_iff.mp hview
        rw [List.map_set, hsame, ← hget, List.set_getElem_self]
      · refine .inr ⟨.event n seen, ?_, ?_⟩
        · cases seen with
          -- of a process nothing outlives the guard unseen
          | abandon err =>
              intro d hd
              rw [hview] at hd
              cases hd
              exact r.mayAbandon
          | _ => trivial
        · show ((s.map ProcessRun.dispatchRun)[n]?.bind _) = _
          rw [hview, List.map_set]
          show Option.map _ (r.dispatchRun.step seen) = _
          rw [hseen]
          rfl

/-- The dispatch future is dropped during the write; the child outlives the guard. -/
def abandonedChild : List ProcessAction :=
  [.spawn true, .event 0 .abandon, .event 0 (.proceeds false false),
    .event 0 (.proceeds false false)]

theorem abandonedChild_run :
    ∃ s, toolProcesses.run abandonedChild [] = some s ∧ s.map (·.permit) = [.registered] := by
  refine ⟨[{ ProcessRun.start true with
    signalled := true, phase := .returned false, permit := .registered }], ?_, ?_⟩
  · decide
  · decide

theorem abandonedChild_refines : ∃ s, toolProcesses.run abandonedChild [] = some s ∧
    toolPermits.Reach Spares (s.map ProcessRun.dispatchRun) := by
  obtain ⟨s, hrun, _⟩ := abandonedChild_run
  exact ⟨s, hrun, processes_refine (System.run_reach (.init rfl) hrun)⟩

/-! ## No child is lost -/

/-- What is accounted for in the dispatches of a runtime. -/
structure Accounted (s : List ProcessRun) : Prop where
  /-- A child that was not seen to exit is with its dispatch, which holds the permit, or
  it was killed and is in the registry with the permit. -/
  kept : ∀ r ∈ s, r.child = true →
    (r.dispatchPhase ≠ .returned ∧ r.permit = .held) ∨
      (r.permit = .registered ∧ r.signalled = true)
  /-- `owned_processes` counts every such child, as long as no join was misread. -/
  counted : (∀ r ∈ s, r.misread = false) → s.countP (·.child) ≤ s.countP (·.lease)
  /-- With the dispatches over and the registry empty, no child runs, and neither the
  counter nor a permit is left behind. -/
  stopped : (∀ r ∈ s, r.dispatchPhase = .returned ∧ r.permit ≠ .registered) → ∀ r ∈ s,
    (∃ success, r.os = .exited success) ∧ r.child = false ∧ r.lease = false ∧
      r.permit = .released

namespace ProcessRun

variable {r : ProcessRun}

/-- Before the return the permit is held. -/
theorem Sound.held (h : r.Sound) (hphase : r.dispatchPhase ≠ .returned) : r.permit = .held := by
  have hat := h.phase
  cases hp : r.phase with
  | waiting | grace =>
      rw [hp] at hat
      exact hat
  | finishing | killing | reaping _ | joining _ _ | idling _ _ | dropping _ _ =>
      rw [hp] at hat
      exact hat.1
  | returned swept => exact absurd (by simp only [dispatchPhase, hp]) hphase

/-- Behind the return the permit is with the child, or all of it is released. -/
theorem Sound.returned (h : r.Sound) (hphase : r.dispatchPhase = .returned) :
    (r.permit = .registered ∧ (r.child = true → r.signalled = true)) ∨
      (r.permit = .released ∧ r.child = false ∧ r.lease = false) := by
  have hat := h.phase
  cases hp : r.phase with
  | dropping origin drop =>
      rw [hp] at hat
      simp only [dispatchPhase, hp] at hphase
      exact absurd hphase hat.2.1
  | returned swept =>
      rw [hp] at hat
      cases swept with
      | true =>
          refine .inl ⟨hat.1, fun hchild => ?_⟩
          rw [hat.2] at hchild
          cases hchild
      | false => exact hat
  | waiting | finishing | grace | killing | reaping _ | joining _ _ | idling _ _ =>
      simp only [dispatchPhase, hp] at hphase
      cases hphase

end ProcessRun

/-- **No child is lost.** -/
theorem children_accounted (h : toolProcesses.Reach always s) : Accounted s := by
  have hsound := sound_of_reach h
  refine ⟨?_, ?_, ?_⟩
  · intro r hr hchild
    by_cases hphase : r.dispatchPhase = .returned
    · rcases (hsound r hr).returned hphase with ⟨hregistered, hkilled⟩ | ⟨_, hgone, _⟩
      · exact .inr ⟨hregistered, hkilled hchild⟩
      · rw [hgone] at hchild
        cases hchild
    · exact .inl ⟨hphase, (hsound r hr).held hphase⟩
  -- entry by entry: where no join was misread, the lease goes after the child
  · intro hread
    apply List.countP_mono_left
    intro r hr hchild
    exact (hsound r hr).lease hchild (hread r hr)
  · intro hquiet r hr
    obtain ⟨hphase, hunregistered⟩ := hquiet r hr
    rcases (hsound r hr).returned hphase with ⟨hregistered, _⟩ | ⟨hreleased, hgone, hlease⟩
    · exact absurd hregistered hunregistered
    · exact ⟨(hsound r hr).reaped hgone, hgone, hlease, hreleased⟩

theorem abandonedChild_accounted : ∃ s, toolProcesses.run abandonedChild [] = some s ∧
    s.map (·.permit) = [.registered] ∧ Accounted s := by
  obtain ⟨s, hrun, hpermit⟩ := abandonedChild_run
  exact ⟨s, hrun, hpermit, children_accounted (System.run_reach (.init rfl) hrun)⟩

/-! ## What the dispatch is told -/

/-- The completion with which the dispatch goes on to its return. -/
def ProcessRun.outcome (r : ProcessRun) : Option ToolCompletion :=
  match r.dispatchPhase with
  | .joining completion => some completion
  | _ => none

/-- **Completions are true.** What the drive sends, and what the dispatch goes on with,
says what became of the child. -/
theorem completions_tell (h : toolProcesses.Reach always s) :
    ∀ r ∈ s, ∀ completion, r.completed = some completion ∨ r.outcome = some completion →
      r.Tells completion := by
  intro r hr completion hsays
  have hsound := sound_of_reach h r hr
  rcases hsays with hsent | hgoes
  · rw [hsound.completed] at hsent
    cases hdrive : r.drive with
    | sent failed status =>
        rw [hdrive] at hsent
        cases hsent
        exact hsound.tells hdrive
    | writing | failing | looking _ _ | polling _ _ | ended _ _ | noting _ _ =>
        rw [hdrive] at hsent
        cases hsent
  · have hat := hsound.phase
    cases hphase : r.phase with
    | joining c join | idling c noting =>
        rw [hphase] at hat
        simp only [ProcessRun.outcome, ProcessRun.dispatchPhase, hphase] at hgoes
        cases hgoes
        exact hat.2.1
    | dropping origin drop =>
        rw [hphase] at hat
        simp only [ProcessRun.outcome, ProcessRun.dispatchPhase, hphase] at hgoes
        cases origin with
        | joining c =>
            cases hgoes
            exact hat.2.2.1 _ rfl
        | _ => cases hgoes
    | waiting | finishing | grace | killing | reaping _ | returned _ =>
        simp only [ProcessRun.outcome, ProcessRun.dispatchPhase, hphase] at hgoes
        cases hgoes

/-- A child that exits while its drive is polled. -/
def childSucceeds : List ProcessAction :=
  [.spawn false, .event 0 (.drives false false false), .event 0 (.exits true),
    .event 0 (.drives false false false), .event 0 (.drives false false false),
    .event 0 (.drives false false false)]

theorem childSucceeds_tells : ∃ s, toolProcesses.run childSucceeds [] = some s ∧
    ∃ r ∈ s, r.completed = some .succeeded ∧ r.Tells .succeeded := by
  have hrun : toolProcesses.run childSucceeds [] = some [{ ProcessRun.start false with
      os := .exited true, child := false, lease := false,
      drive := .sent false (.exited true), completed := some .succeeded }] := by
    decide
  exact ⟨_, hrun, _, List.mem_singleton.mpr rfl, rfl,
    completions_tell (System.run_reach (.init rfl) hrun) _ (List.mem_singleton.mpr rfl) _
      (.inl rfl)⟩

end Monoloop.ToolDispatch
