import Monoloop.ToolDispatch.ProcessTool

/-!
# The turns of a process-isolated dispatch

Whoever polls the child, its exit is seen once, and the `Child`, the lease and the permit
go in this order (`Sound`). Each section of the drive, of the dispatch and of the registry
keeps this, and is a step of `DispatchRun` or one that `DispatchRun` does not see
(`Sound.step`).
-/

namespace Monoloop.ToolDispatch

/-- The loop of the drive still looks at the child. -/
def DrivePhase.looks : DrivePhase → Bool
  | .writing | .failing | .looking _ _ | .polling _ _ => true
  | _ => false

/-- What the drive has sent. -/
def DrivePhase.completion : DrivePhase → Option ToolCompletion
  | .sent failed status => some (driveCompletion failed status)
  | _ => none

namespace ProcessRun

variable {r r' : ProcessRun}

/-! ## What holds of one run -/

/-- The end of the loop as it is. The `Child` is never gone: nobody else polls it while the
drive is polled. -/
def EndsAs (r : ProcessRun) : DriveEnd → Prop
  | .exited success => r.child = false ∧ r.os = .exited success
  | .error => True
  | .gone => False
  | .outlived => r.signalled = true

/-- What holds at each place of the drive. -/
def Drives (r : ProcessRun) : DrivePhase → Prop
  | .writing | .failing => True
  | .looking failed killed | .polling failed killed =>
      (failed = true → killed = true) ∧ (killed = true → r.signalled = true)
  | .ended failed status | .sent failed status =>
      (failed = true → r.signalled = true) ∧ r.EndsAs status
  | .noting failed status =>
      (failed = true → r.signalled = true) ∧ r.EndsAs status ∧ r.child = false

/-- What a completion says of the child. -/
def Tells (r : ProcessRun) : ToolCompletion → Prop
  | .succeeded => r.os = .exited true ∧ r.drive = .sent false (.exited true)
  | .runtimeFailed .terminationFailed => r.os = .exited false ∨ r.signalled = true
  | .runtimeFailed .deadlineExceeded =>
      r.signalled = true ∧ ∃ status, r.drive = .sent true status
  | .runtimeFailed .completionLost =>
      r.drive = .sent false .error ∨ (r.drive = .sent false .outlived ∧ r.signalled = true)
  | _ => False

/-- What holds at each place of the dispatch. -/
def At (r : ProcessRun) : ProcessPhase → Prop
  | .waiting | .grace => r.permit = .held
  | .killing => r.permit = .held ∧ r.signalled = true
  | .finishing => r.permit = .held ∧ ∃ failed status, r.drive = .sent failed status
  | .reaping join =>
      r.permit = .held ∧ r.signalled = true ∧
        (join = .note → r.child = false ∨ r.misread = true)
  | .joining completion join =>
      r.permit = .held ∧ r.Tells completion ∧
        (join = .note → r.child = false ∨ r.misread = true)
  | .idling completion noting =>
      r.permit = .held ∧ r.Tells completion ∧ (noting = true → r.child = false)
  | .dropping origin drop =>
      r.permit = .held ∧ origin ≠ .returned ∧
        (∀ completion, origin = .joining completion → r.Tells completion) ∧
        (drop ≠ .kill → r.child = true → r.signalled = true) ∧
        (drop = .note → r.child = false)
  | .returned true => r.permit = .registered ∧ r.child = false
  | .returned false =>
      (r.permit = .registered ∧ (r.child = true → r.signalled = true)) ∨
        (r.permit = .released ∧ r.child = false ∧ r.lease = false)

/-- The invariant of a run. -/
structure Sound (r : ProcessRun) : Prop where
  /-- Only a child that has exited is taken out. -/
  reaped : r.child = false → ∃ success, r.os = .exited success
  looks : r.phase.driven = true → r.drive.looks = true → r.child = true
  lease : r.child = true → r.misread = false → r.lease = true
  completed : r.completed = r.drive.completion
  drives : r.Drives r.drive
  phase : r.At r.phase

/-! ## What is never taken back -/

/-- What no section under a lock takes back. -/
structure Later (r r' : ProcessRun) : Prop where
  os : ∀ success, r.os = .exited success → r'.os = .exited success
  signalled : r.signalled = true → r'.signalled = true
  child : r.child = false → r'.child = false
  misread : r.misread = true → r'.misread = true
  lease : r.lease = false → r'.lease = false
  sent : ∀ failed status, r.drive = .sent failed status → r'.drive = .sent failed status

theorem Later.refl (r : ProcessRun) : Later r r where
  os _ h := h
  signalled h := h
  child h := h
  misread h := h
  lease h := h
  sent _ _ h := h

theorem EndsAs.later {status : DriveEnd} (hlater : Later r r') (h : r.EndsAs status) :
    r'.EndsAs status := by
  cases status with
  | exited success => exact ⟨hlater.child h.1, hlater.os success h.2⟩
  | error => trivial
  | gone => exact h
  | outlived => exact hlater.signalled h

theorem Drives.later {drive : DrivePhase} (hlater : Later r r') (h : r.Drives drive) :
    r'.Drives drive := by
  cases drive with
  | writing | failing => trivial
  | looking failed killed | polling failed killed =>
      exact ⟨h.1, fun hkilled => hlater.signalled (h.2 hkilled)⟩
  | ended failed status | sent failed status =>
      exact ⟨fun hfailed => hlater.signalled (h.1 hfailed), EndsAs.later hlater h.2⟩
  | noting failed status =>
      exact ⟨fun hfailed => hlater.signalled (h.1 hfailed), EndsAs.later hlater h.2.1,
        hlater.child h.2.2⟩

theorem Tells.later {completion : ToolCompletion} (hlater : Later r r')
    (h : r.Tells completion) : r'.Tells completion := by
  cases completion with
  | succeeded => exact ⟨hlater.os true h.1, hlater.sent _ _ h.2⟩
  | domainFailed => exact h
  | runtimeFailed error =>
      cases error with
      | terminationFailed => exact h.imp (hlater.os false) hlater.signalled
      | deadlineExceeded =>
          obtain ⟨hsignalled, status, hdrive⟩ := h
          exact ⟨hlater.signalled hsignalled, status, hlater.sent _ _ hdrive⟩
      | completionLost =>
          rcases h with h | ⟨h, hsignalled⟩
          · exact .inl (hlater.sent _ _ h)
          · exact .inr ⟨hlater.sent _ _ h, hlater.signalled hsignalled⟩
      | panicked | outputContractViolated => exact h

theorem At.later {phase : ProcessPhase} (hlater : Later r r') (hpermit : r'.permit = r.permit)
    (h : r.At phase) : r'.At phase := by
  have hnoted : r.child = false ∨ r.misread = true → r'.child = false ∨ r'.misread = true :=
    Or.imp hlater.child hlater.misread
  have hsignalled : (r.child = true → r.signalled = true) →
      r'.child = true → r'.signalled = true := by
    intro h hchild
    cases hbefore : r.child with
    | true => exact hlater.signalled (h hbefore)
    | false => rw [hlater.child hbefore] at hchild; cases hchild
  cases phase with
  | waiting | grace => exact hpermit.trans h
  | killing => exact ⟨hpermit.trans h.1, hlater.signalled h.2⟩
  | finishing =>
      obtain ⟨hheld, failed, status, hdrive⟩ := h
      exact ⟨hpermit.trans hheld, failed, status, hlater.sent _ _ hdrive⟩
  | reaping join =>
      exact ⟨hpermit.trans h.1, hlater.signalled h.2.1, fun hjoin => hnoted (h.2.2 hjoin)⟩
  | joining completion join =>
      exact ⟨hpermit.trans h.1, h.2.1.later hlater, fun hjoin => hnoted (h.2.2 hjoin)⟩
  | idling completion noting =>
      exact ⟨hpermit.trans h.1, h.2.1.later hlater, fun hnoting => hlater.child (h.2.2 hnoting)⟩
  | dropping origin drop =>
      obtain ⟨hheld, horigin, htells, hkilled, hnote⟩ := h
      exact ⟨hpermit.trans hheld, horigin, fun c hc => (htells c hc).later hlater,
        fun hdrop => hsignalled (hkilled hdrop), fun hdrop => hlater.child (hnote hdrop)⟩
  | returned swept =>
      cases swept with
      | true => exact ⟨hpermit.trans h.1, hlater.child h.2⟩
      | false =>
          rcases h with ⟨hregistered, hkilled⟩ | ⟨hreleased, hchild, hlease⟩
          · exact .inl ⟨hpermit.trans hregistered, hsignalled hkilled⟩
          · exact .inr ⟨hpermit.trans hreleased, hlater.child hchild, hlater.lease hlease⟩

/-! ## The sections -/

/-- What `try_wait` finds. -/
theorem tryWait_cases (r : ProcessRun) (err : Bool) :
    (r.child = false ∧ r.tryWait err = (.gone, r)) ∨
      (r.child = true ∧ r.tryWait err = (.error, r)) ∨
      (r.child = true ∧ r.tryWait err = (.alive, r)) ∨
      ∃ success, r.os = .exited success ∧
        r.tryWait err = (.exited success, { r with child := false }) := by
  unfold tryWait
  cases hchild : r.child with
  | false => exact .inl ⟨rfl, rfl⟩
  | true =>
      cases err with
      | true => exact .inr (.inl ⟨rfl, rfl⟩)
      | false =>
          cases hos : r.os with
          | running => exact .inr (.inr (.inl ⟨rfl, rfl⟩))
          | exited success => exact .inr (.inr (.inr ⟨success, rfl, rfl⟩))

theorem startKill_eq (r : ProcessRun) :
    r.startKill = { r with signalled := r.signalled || r.child } := by
  unfold startKill
  split
  · rename_i hchild
    rw [hchild, Bool.or_true]
  · rename_i hchild
    cases r
    simp_all

theorem completion_of_looks {drive : DrivePhase} (h : drive.looks = true) :
    drive.completion = none := by
  cases drive with
  | sent failed status => cases h
  | _ => rfl

/-- A section of the drive leaves the dispatch alone. -/
structure Driven (r r' : ProcessRun) : Prop where
  os : r'.os = r.os
  misread : r'.misread = r.misread
  phase : r'.phase = r.phase
  permit : r'.permit = r.permit
  signalled : r.signalled = true → r'.signalled = true
  child : r.child = false → r'.child = false
  lease : r'.child = true → r'.lease = r.lease
  falls : r.lease = false → r'.lease = false

theorem Sound.driven (h : r.Sound) (hdriven : Driven r r') (hbefore : r.drive.completion = none)
    (hreaped : r'.child = false → ∃ success, r.os = .exited success)
    (hlooks : r'.drive.looks = true → r'.child = true)
    (hcompleted : r'.completed = r'.drive.completion) (hdrives : r'.Drives r'.drive) :
    r'.Sound := by
  have hlater : Later r r' := by
    refine ⟨fun success hos => hdriven.os.trans hos, hdriven.signalled, hdriven.child,
      fun hmisread => hdriven.misread.trans hmisread, hdriven.falls, ?_⟩
    -- nothing was sent before, so nothing that was sent is lost
    intro failed status hsent
    rw [hsent] at hbefore
    cases hbefore
  constructor
  · intro hchild
    rw [hdriven.os]
    exact hreaped hchild
  · intro _
    exact hlooks
  · intro hchild hmisread
    rw [hdriven.lease hchild]
    rw [hdriven.misread] at hmisread
    apply h.lease _ hmisread
    cases hbefore : r.child with
    | true => rfl
    | false => rw [hdriven.child hbefore] at hchild; cases hchild
  · exact hcompleted
  · exact hdrives
  · rw [hdriven.phase]
    exact h.phase.later hlater hdriven.permit

/-- A section of the dispatch, or of the registry behind it, leaves the drive alone. -/
theorem Sound.turn (h : r.Sound) {signalled child lease misread : Bool} {phase : ProcessPhase}
    {permit : PermitPlace} (hreaped : child = false → ∃ success, r.os = .exited success)
    (hlooks : phase.driven = true → r.drive.looks = true → child = true)
    (hlease : child = true → misread = false → lease = true)
    (hlater : Later r { r with signalled, child, lease, misread, phase, permit })
    (hphase : At { r with signalled, child, lease, misread, phase, permit } phase) :
    Sound { r with signalled, child, lease, misread, phase, permit } where
  reaped := hreaped
  looks := hlooks
  lease := hlease
  completed := h.completed
  drives := h.drives.later hlater
  phase := hphase

/-- A turn to a place where the drive is no longer polled. -/
theorem Sound.apart (h : r.Sound) {signalled child lease misread : Bool} {phase : ProcessPhase}
    {permit : PermitPlace} (hreaped : child = false → ∃ success, r.os = .exited success)
    (hphase : phase.driven = false) (hlease : child = true → misread = false → lease = true)
    (hlater : Later r { r with signalled, child, lease, misread, phase, permit })
    (hat : At { r with signalled, child, lease, misread, phase, permit } phase) :
    Sound { r with signalled, child, lease, misread, phase, permit } := by
  apply h.turn hreaped _ hlease hlater hat
  intro hdriven
  rw [hphase] at hdriven
  cases hdriven

/-! ## The drive -/

/-- The head of the loop. -/
theorem Sound.lookUp {failed killed : Bool} (h : r.Sound) (hphase : r.phase.driven = true)
    (hlooks : r.drive.looks = true) (hfailed : failed = true → killed = true)
    (hkilled : killed = true → r.signalled = true) (late : Bool) :
    Driven r (r.lookUp failed killed late) ∧ (r.lookUp failed killed late).Sound := by
  have hchild := h.looks hphase hlooks
  have hnone := completion_of_looks hlooks
  unfold ProcessRun.lookUp
  split
  · rw [startKill_eq]
    have hdriven : Driven r { r with
        signalled := r.signalled || r.child, drive := .polling failed true } :=
      ⟨rfl, rfl, rfl, rfl, fun hs => by simp [hs], id, fun _ => rfl, id⟩
    refine ⟨hdriven, h.driven hdriven hnone h.reaped (fun _ => hchild) ?_ ⟨fun _ => rfl, ?_⟩⟩
    · exact h.completed.trans hnone
    · intro _
      show (r.signalled || r.child) = true
      rw [hchild, Bool.or_true]
  · have hdriven : Driven r { r with drive := .polling failed killed } :=
      ⟨rfl, rfl, rfl, rfl, id, id, fun _ => rfl, id⟩
    exact ⟨hdriven, h.driven hdriven hnone h.reaped (fun _ => hchild)
      (h.completed.trans hnone) ⟨hfailed, hkilled⟩⟩

/-- A poll of the loop. -/
theorem Sound.pollDrive {failed killed : Bool} (h : r.Sound) (hphase : r.phase.driven = true)
    (hdrive : r.drive = .polling failed killed) (expired err : Bool) :
    Driven r (r.pollDrive failed killed expired err) ∧
      (r.pollDrive failed killed expired err).Sound := by
  have hlooks : r.drive.looks = true := by rw [hdrive]; rfl
  have hchild := h.looks hphase hlooks
  have hnone := completion_of_looks hlooks
  have hcompleted := h.completed.trans hnone
  obtain ⟨hfailed, hkilled⟩ : (failed = true → killed = true) ∧
      (killed = true → r.signalled = true) := by
    have hdrives := h.drives
    rw [hdrive] at hdrives
    exact hdrives
  have hsame : ∀ drive, Driven r { r with drive } := fun _ =>
    ⟨rfl, rfl, rfl, rfl, id, id, fun _ => rfl, id⟩
  rcases tryWait_cases r err with ⟨hgone, _⟩ | ⟨_, htry⟩ | ⟨_, htry⟩ | ⟨success, hos, htry⟩
  -- nobody else has taken the child while the drive is polled
  · rw [hchild] at hgone
    cases hgone
  · simp only [ProcessRun.pollDrive, htry]
    exact ⟨hsame _, h.driven (hsame _) hnone h.reaped (fun _ => hchild) hcompleted
      ⟨fun hf => hkilled (hfailed hf), trivial⟩⟩
  · simp only [ProcessRun.pollDrive, htry]
    split
    · rename_i hover
      have hsignalled := hkilled (Bool.and_eq_true _ _ ▸ hover).1
      exact ⟨hsame _, h.driven (hsame _) hnone h.reaped (fun _ => hchild) hcompleted
        ⟨fun _ => hsignalled, hsignalled⟩⟩
    · exact ⟨hsame _, h.driven (hsame _) hnone h.reaped (fun _ => hchild) hcompleted
        ⟨hfailed, hkilled⟩⟩
  · simp only [ProcessRun.pollDrive, htry]
    have hdriven : Driven r { r with child := false, drive := .ended failed (.exited success) } :=
      ⟨rfl, rfl, rfl, rfl, id, fun _ => rfl, fun hheld => (by cases hheld), id⟩
    exact ⟨hdriven, h.driven hdriven hnone (fun _ => ⟨success, hos⟩) (fun hl => (by cases hl))
      hcompleted ⟨fun hf => hkilled (hfailed hf), rfl, hos⟩⟩

/-- The completion is sent. -/
theorem Sound.report {failed : Bool} {status : DriveEnd} {lease : Bool} (h : r.Sound)
    (hnone : r.drive.completion = none) (hlease : r.child = true → lease = r.lease)
    (hfalls : r.lease = false → lease = false)
    (hends : (failed = true → r.signalled = true) ∧ r.EndsAs status) :
    Driven r (ProcessRun.report { r with lease } failed status) ∧
      (ProcessRun.report { r with lease } failed status).Sound := by
  have hdriven : Driven r (ProcessRun.report { r with lease } failed status) :=
    ⟨rfl, rfl, rfl, rfl, id, id, hlease, hfalls⟩
  have hlater : Later r (ProcessRun.report { r with lease } failed status) := by
    refine ⟨fun _ hos => hos, id, id, id, hfalls, ?_⟩
    intro failed' status' hsent
    rw [hsent] at hnone
    cases hnone
  exact ⟨hdriven, h.driven hdriven hnone h.reaped (fun hl => (by cases hl)) rfl
    ⟨hends.1, hends.2.later hlater⟩⟩

/-- **A section of the drive.** -/
theorem Sound.driveOn {late expired err : Bool} (h : r.Sound) (hphase : r.phase.driven = true)
    (hstep : r.driveOn late expired err = some r') :
    r.drive.completion = none ∧ Driven r r' ∧ r'.Sound := by
  have hdrives := h.drives
  cases hdrive : r.drive with
  | writing | sent failed status =>
      simp only [ProcessRun.driveOn, hdrive] at hstep
      cases hstep
  | failing =>
      simp only [ProcessRun.driveOn, hdrive, startKill_eq] at hstep
      cases hstep
      have hlooks : r.drive.looks = true := by rw [hdrive]; rfl
      have hchild := h.looks hphase hlooks
      have hnone := completion_of_looks hlooks
      have hdriven : Driven r { r with
          signalled := r.signalled || r.child, drive := .polling true true } :=
        ⟨rfl, rfl, rfl, rfl, fun hs => by simp [hs], id, fun _ => rfl, id⟩
      refine ⟨rfl, hdriven, h.driven hdriven hnone h.reaped (fun _ => hchild)
        (h.completed.trans hnone) ⟨id, ?_⟩⟩
      intro _
      show (r.signalled || r.child) = true
      rw [hchild, Bool.or_true]
  | looking failed killed =>
      simp only [ProcessRun.driveOn, hdrive] at hstep
      cases hstep
      rw [hdrive] at hdrives
      exact ⟨rfl, h.lookUp hphase (by rw [hdrive]; rfl) hdrives.1 hdrives.2 late⟩
  | polling failed killed =>
      simp only [ProcessRun.driveOn, hdrive] at hstep
      cases hstep
      exact ⟨rfl, h.pollDrive hphase hdrive expired err⟩
  | ended failed status =>
      have hnone : r.drive.completion = none := by rw [hdrive]; rfl
      rw [hdrive] at hdrives
      have hnoting : r.child = false → Driven r { r with drive := .noting failed status } ∧
          Sound { r with drive := .noting failed status } := by
        intro hchild
        have hdriven : Driven r { r with drive := .noting failed status } :=
          ⟨rfl, rfl, rfl, rfl, id, id, fun _ => rfl, id⟩
        exact ⟨hdriven, h.driven hdriven hnone h.reaped (fun hl => (by cases hl))
          (h.completed.trans hnone) ⟨hdrives.1, hdrives.2, hchild⟩⟩
      have hreports : Driven r (r.report failed status) ∧ (r.report failed status).Sound :=
        h.report hnone (fun _ => rfl) id hdrives
      refine ⟨rfl, ?_⟩
      cases status with
      | exited success =>
          simp only [ProcessRun.driveOn, hdrive] at hstep
          cases hstep
          exact hnoting hdrives.2.1
      | error | gone | outlived =>
          simp only [ProcessRun.driveOn, hdrive] at hstep
          split at hstep
          · cases hstep
            exact hreports
          · rename_i hchild
            cases hstep
            exact hnoting (by simpa using hchild)
  | noting failed status =>
      simp only [ProcessRun.driveOn, hdrive] at hstep
      cases hstep
      rw [hdrive] at hdrives
      refine ⟨rfl, h.report (by rw [hdrive]; rfl) (fun hchild => ?_) (fun _ => rfl)
        ⟨hdrives.1, hdrives.2.1⟩⟩
      rw [hdrives.2.2] at hchild
      cases hchild

/-! ## The dispatch -/

/-- The phases in which the drive is there. -/
def polls : DispatchPhase → Bool
  | .waiting | .grace | .killing | .reaping _ => true
  | _ => false

/-- The run as `DispatchRun` has it. -/
def dispatchRun (r : ProcessRun) : DispatchRun where
  policy := .processIsolated
  handle := some ⟨some .process, true⟩
  phase := r.dispatchPhase
  permit := r.permit
  child := r.os = .running
  driving := polls r.dispatchPhase
  completed := r.completed

/-- A step that `DispatchRun` does not see, or one that it has. -/
def Seen (r r' : ProcessRun) : Prop :=
  r'.dispatchRun = r.dispatchRun ∨ ∃ event, r.dispatchRun.step event = some r'.dispatchRun

theorem Seen.same (hos : r'.os = r.os) (hphase : r'.dispatchPhase = r.dispatchPhase)
    (hpermit : r'.permit = r.permit) (hcompleted : r'.completed = r.completed) : Seen r r' := by
  apply Or.inl
  simp only [dispatchRun, hos, hphase, hpermit, hcompleted]

theorem not_running_of_exited (h : ∃ success, r.os = .exited success) :
    decide (r.os = .running) = false := by
  obtain ⟨success, hos⟩ := h
  rw [hos]
  rfl

/-- The guard is dropped at `origin`, and the child is parked. -/
theorem Seen.parked {child lease misread signalled : Bool} {origin : DispatchPhase}
    {drop : DropStep} (hphase : r.phase = .dropping origin drop) (horigin : origin ≠ .returned)
    (hheld : r.permit = .held) :
    Seen r { r with
      child, lease, misread, signalled, permit := .registered, phase := .returned false } := by
  refine .inr ⟨.abandon true, ?_⟩
  simp only [dispatchRun, dispatchPhase, hphase, hheld, DispatchRun.step]
  cases origin with
  | returned => exact absurd rfl horigin
  | _ => simp [DispatchRun.leave, DispatchRun.dropGuard, DispatchRun.hasJoin, DispatchRun.kill,
      DispatchRun.movePermit, DispatchRun.goto, polls]

/-- The guard is dropped at `origin` behind the exit, and the permit is released. -/
theorem Seen.released {child lease misread signalled : Bool} {origin : DispatchPhase}
    {drop : DropStep} (hphase : r.phase = .dropping origin drop) (horigin : origin ≠ .returned)
    (hheld : r.permit = .held) (hexited : ∃ success, r.os = .exited success) :
    Seen r { r with
      child, lease, misread, signalled, permit := .released, phase := .returned false } := by
  refine .inr ⟨.abandon false, ?_⟩
  simp only [dispatchRun, dispatchPhase, hphase, hheld, DispatchRun.step,
    not_running_of_exited hexited]
  cases origin with
  | returned => exact absurd rfl horigin
  | _ => rfl

/-- Later states of a run whose drive and child's end are the same. -/
theorem later_of {signalled child lease misread : Bool} {phase : ProcessPhase}
    {permit : PermitPlace} (hsignalled : r.signalled = true → signalled = true)
    (hchild : r.child = false → child = false) (hlease : r.lease = false → lease = false)
    (hmisread : r.misread = true → misread = true) :
    Later r { r with signalled, child, lease, misread, phase, permit } :=
  ⟨fun _ hos => hos, hsignalled, hchild, hmisread, hlease, fun _ _ hsent => hsent⟩

/-- What the poll of a join leaves. -/
theorem pollJoin_cases (h : r.Sound) (late err : Bool) (noted left : ProcessPhase) :
    (∃ child misread, (child = false → ∃ success, r.os = .exited success) ∧
        (child = true → misread = false → r.lease = true) ∧
        (r.child = false → child = false) ∧ (r.misread = true → misread = true) ∧
        (child = false ∨ misread = true) ∧
        r.pollJoin late err noted left = { r with child, misread, phase := noted }) ∨
      r.pollJoin late err noted left = { r with phase := left } ∨
      r.pollJoin late err noted left = r := by
  rcases tryWait_cases r err with ⟨hgone, htry⟩ | ⟨hchild, htry⟩ | ⟨_, htry⟩ | ⟨success, hos, htry⟩
  · refine .inl ⟨r.child, r.misread, h.reaped, h.lease, id, id, .inl hgone, ?_⟩
    simp only [pollJoin, htry]
  -- an error passes for the exit: from here on the lease may go before the child
  · refine .inl ⟨r.child, true, h.reaped, fun _ hm => (by cases hm), id, fun _ => rfl, .inr rfl, ?_⟩
    simp only [pollJoin, htry]
  · simp only [pollJoin, htry]
    cases late with
    | true => exact .inr (.inl rfl)
    | false => exact .inr (.inr rfl)
  · refine .inl ⟨false, r.misread, fun _ => ⟨success, hos⟩, fun hc => (by cases hc),
      fun _ => rfl, id, .inl rfl, ?_⟩
    simp only [pollJoin, htry]

/-- What a poll of `has_join` leaves: the exit is seen, or the child counts as alive. -/
theorem hasJoin_cases (h : r.Sound) (err : Bool) :
    (∃ child : Bool, child = false ∧ (∃ success, r.os = .exited success) ∧
        ((∃ success, r.tryWait err = (.exited success, { r with child })) ∨
          r.tryWait err = (.gone, { r with child }))) ∨
      (r.child = true ∧ (r.tryWait err = (.error, r) ∨ r.tryWait err = (.alive, r))) := by
  rcases tryWait_cases r err with
    ⟨hgone, htry⟩ | ⟨hchild, htry⟩ | ⟨hchild, htry⟩ | ⟨success, hos, htry⟩
  · refine .inl ⟨r.child, hgone, h.reaped hgone, .inr htry⟩
  · exact .inr ⟨hchild, .inl htry⟩
  · exact .inr ⟨hchild, .inr htry⟩
  · exact .inl ⟨false, rfl, ⟨success, hos⟩, .inl ⟨success, htry⟩⟩

theorem Sound.pollReaping {late err : Bool} (h : r.Sound) (hphase : r.phase = .reaping .poll) :
    (r.pollJoin late err (.reaping .note)
        (.joining (.runtimeFailed .terminationFailed) .poll)).Sound ∧
      Seen r (r.pollJoin late err (.reaping .note)
        (.joining (.runtimeFailed .terminationFailed) .poll)) := by
  have hat := h.phase
  rw [hphase] at hat
  obtain ⟨hheld, hsignalled, _⟩ := hat
  rcases pollJoin_cases h late err (.reaping .note)
      (.joining (.runtimeFailed .terminationFailed) .poll) with
    ⟨child, misread, hreaped, hlease, hchild, hmisread, hnoted, heq⟩ | heq | heq
  · rw [heq]
    refine ⟨h.apart hreaped rfl hlease (later_of id hchild id hmisread)
      ⟨hheld, hsignalled, fun _ => hnoted⟩, .same rfl ?_ rfl rfl⟩
    simp only [dispatchPhase, hphase]
  · rw [heq]
    refine ⟨h.apart h.reaped rfl h.lease (later_of id id id id)
      ⟨hheld, .inr hsignalled, fun hj => (by cases hj)⟩, .inr ⟨.joined false false, ?_⟩⟩
    simp only [dispatchRun, dispatchPhase, hphase, DispatchRun.step]
    rfl
  · rw [heq]
    exact ⟨h, .same rfl rfl rfl rfl⟩

theorem Sound.pollJoining {late err : Bool} {completion : ToolCompletion} (h : r.Sound)
    (hphase : r.phase = .joining completion .poll) :
    (r.pollJoin late err (.joining completion .note) (.idling completion false)).Sound ∧
      Seen r (r.pollJoin late err (.joining completion .note) (.idling completion false)) := by
  have hat := h.phase
  rw [hphase] at hat
  obtain ⟨hheld, htells, _⟩ := hat
  rcases pollJoin_cases h late err (.joining completion .note) (.idling completion false) with
    ⟨child, misread, hreaped, hlease, hchild, hmisread, hnoted, heq⟩ | heq | heq
  · rw [heq]
    have hlater : Later r { r with child, misread, phase := .joining completion .note } :=
      later_of id hchild id hmisread
    refine ⟨h.apart hreaped rfl hlease hlater
      ⟨hheld, htells.later hlater, fun _ => hnoted⟩, .same rfl ?_ rfl rfl⟩
    simp only [dispatchPhase, hphase]
  · rw [heq]
    have hlater : Later r { r with phase := .idling completion false } := later_of id id id id
    refine ⟨h.apart h.reaped rfl h.lease hlater
      ⟨hheld, htells.later hlater, fun hn => (by cases hn)⟩, .same rfl ?_ rfl rfl⟩
    simp only [dispatchPhase, hphase]
  · rw [heq]
    exact ⟨h, .same rfl rfl rfl rfl⟩

/-- A child that was seen, or misread, may lose its lease. -/
theorem unleased (h : r.child = false ∨ r.misread = true) :
    r.child = true → r.misread = false → false = true := by
  intro hchild hmisread
  rcases h with h | h
  · rw [h] at hchild
    exact hchild
  · rw [h] at hmisread
    exact hmisread.symm

/-- **A section of the dispatch.** -/
theorem Sound.proceed {late err : Bool} (h : r.Sound) (hstep : r.proceed late err = some r') :
    r'.Sound ∧ Seen r r' := by
  have hat := h.phase
  cases hphase : r.phase with
  | waiting | finishing | grace | killing | returned swept =>
      simp only [ProcessRun.proceed, hphase] at hstep
      cases hstep
  | reaping join =>
      rw [hphase] at hat
      obtain ⟨hheld, hsignalled, hnoted⟩ := hat
      cases join with
      | poll =>
          simp only [ProcessRun.proceed, hphase] at hstep
          cases hstep
          exact h.pollReaping hphase
      | note =>
          simp only [ProcessRun.proceed, hphase] at hstep
          cases hstep
          refine ⟨h.apart h.reaped rfl (unleased (hnoted rfl))
            (later_of id id (fun _ => rfl) id)
            ⟨hheld, .inr hsignalled, fun hj => (by cases hj)⟩, .inr ⟨.joined false false, ?_⟩⟩
          simp only [dispatchRun, dispatchPhase, hphase, DispatchRun.step]
          rfl
  | joining completion join =>
      rw [hphase] at hat
      obtain ⟨hheld, htells, hnoted⟩ := hat
      cases join with
      | poll =>
          simp only [ProcessRun.proceed, hphase] at hstep
          cases hstep
          exact h.pollJoining hphase
      | note =>
          simp only [ProcessRun.proceed, hphase] at hstep
          cases hstep
          have hlater : Later r { r with lease := false, phase := .idling completion false } :=
            later_of id id (fun _ => rfl) id
          refine ⟨h.apart h.reaped rfl (unleased (hnoted rfl)) hlater
            ⟨hheld, htells.later hlater, fun hn => (by cases hn)⟩, .same rfl ?_ rfl rfl⟩
          simp only [dispatchPhase, hphase]
  | idling completion noting =>
      rw [hphase] at hat
      obtain ⟨hheld, htells, hnoting⟩ := hat
      cases noting with
      | false =>
          rcases hasJoin_cases h err with ⟨child, hgone, hexited, htry⟩ | ⟨hchild, htry⟩
          · have hlater : Later r { r with child, phase := .idling completion true } :=
              later_of id (fun _ => hgone) id id
            have hsound : Sound { r with child, phase := .idling completion true } :=
              h.apart (fun _ => hexited) rfl
                (fun hc => (by rw [hgone] at hc; cases hc)) hlater
                ⟨hheld, htells.later hlater, fun _ => hgone⟩
            have hseen : Seen r { r with child, phase := .idling completion true } :=
              .same rfl (by simp only [dispatchPhase, hphase]) rfl rfl
            rcases htry with ⟨success, htry⟩ | htry
            · simp only [ProcessRun.proceed, hphase, htry] at hstep
              cases hstep
              exact ⟨hsound, hseen⟩
            · simp only [ProcessRun.proceed, hphase, htry] at hstep
              cases hstep
              exact ⟨hsound, hseen⟩
          · have hlater : Later r { r with phase := .dropping (.joining completion) .kill } :=
              later_of id id id id
            have hsound : Sound { r with phase := .dropping (.joining completion) .kill } := by
              refine h.apart h.reaped rfl h.lease hlater
                ⟨hheld, fun ho => (by cases ho), ?_, fun hk => absurd rfl hk,
                  fun hk => (by cases hk)⟩
              intro c hc
              cases hc
              exact htells.later hlater
            have hseen : Seen r { r with phase := .dropping (.joining completion) .kill } :=
              .same rfl (by simp only [dispatchPhase, hphase]) rfl rfl
            rcases htry with htry | htry
            · simp only [ProcessRun.proceed, hphase, htry] at hstep
              cases hstep
              exact ⟨hsound, hseen⟩
            · simp only [ProcessRun.proceed, hphase, htry] at hstep
              cases hstep
              exact ⟨hsound, hseen⟩
      | true =>
          simp only [ProcessRun.proceed, hphase] at hstep
          cases hstep
          have hchild := hnoting rfl
          refine ⟨h.apart h.reaped rfl (unleased (.inl hchild))
            (later_of id id (fun _ => rfl) id) (.inr ⟨rfl, hchild, rfl⟩),
            .inr ⟨.joined false false, ?_⟩⟩
          simp only [dispatchRun, dispatchPhase, hphase, hheld, DispatchRun.step, noteReaped,
            not_running_of_exited (h.reaped hchild)]
          rfl
  | dropping origin drop =>
      rw [hphase] at hat
      obtain ⟨hheld, horigin, htells, hkilled, hnote⟩ := hat
      cases drop with
      | kill =>
          simp only [ProcessRun.proceed, hphase, startKill_eq] at hstep
          cases hstep
          have hlater : Later r { r with
              signalled := r.signalled || r.child, phase := .dropping origin .poll } :=
            later_of (fun hs => by simp [hs]) id id id
          refine ⟨h.apart h.reaped rfl h.lease hlater
            ⟨hheld, horigin, fun c hc => (htells c hc).later hlater, ?_, fun hd => (by cases hd)⟩,
            .same rfl ?_ rfl rfl⟩
          · intro _ hchild
            show (r.signalled || r.child) = true
            rw [show r.child = true from hchild, Bool.or_true]
          · simp only [dispatchPhase, hphase]
      | poll =>
          rcases hasJoin_cases h err with ⟨child, hgone, hexited, htry⟩ | ⟨hchild, htry⟩
          · have hlater : Later r { r with child, phase := .dropping origin .note } :=
              later_of id (fun _ => hgone) id id
            have hsound : Sound { r with child, phase := .dropping origin .note } :=
              h.apart (fun _ => hexited) rfl
                (fun hc => (by rw [hgone] at hc; cases hc)) hlater
                ⟨hheld, horigin, fun c hc => (htells c hc).later hlater,
                  fun _ hc => (by rw [show child = true from hc] at hgone; cases hgone),
                  fun _ => hgone⟩
            have hseen : Seen r { r with child, phase := .dropping origin .note } :=
              .same rfl (by simp only [dispatchPhase, hphase]) rfl rfl
            rcases htry with ⟨success, htry⟩ | htry
            · simp only [ProcessRun.proceed, hphase, htry] at hstep
              cases hstep
              exact ⟨hsound, hseen⟩
            · simp only [ProcessRun.proceed, hphase, htry] at hstep
              cases hstep
              exact ⟨hsound, hseen⟩
          · have hsound : Sound { r with permit := .registered, phase := .returned false } :=
              h.apart h.reaped rfl h.lease (later_of id id id id)
                (.inl ⟨rfl, fun hc => hkilled (fun hd => (by cases hd)) hc⟩)
            have hseen : Seen r { r with permit := .registered, phase := .returned false } :=
              .parked hphase horigin hheld
            rcases htry with htry | htry
            · simp only [ProcessRun.proceed, hphase, htry] at hstep
              cases hstep
              exact ⟨hsound, hseen⟩
            · simp only [ProcessRun.proceed, hphase, htry] at hstep
              cases hstep
              exact ⟨hsound, hseen⟩
      | note =>
          simp only [ProcessRun.proceed, hphase] at hstep
          cases hstep
          have hchild := hnote rfl
          exact ⟨h.apart h.reaped rfl (unleased (.inl hchild))
            (later_of id id (fun _ => rfl) id) (.inr ⟨rfl, hchild, rfl⟩),
            .released hphase horigin hheld (h.reaped hchild)⟩

/-! ## The other events -/

/-- A timer of the dispatch, or the cancel. -/
theorem Sound.expire (h : r.Sound) (hstep : r.step .expire = some r') : r'.Sound ∧ Seen r r' := by
  have hat := h.phase
  simp only [ProcessRun.step] at hstep
  split at hstep
  · rename_i hwaits
    simp only [Bool.and_eq_true, Option.isNone_iff_eq_none] at hwaits
    obtain ⟨hresting, hnone⟩ := hwaits
    -- at rest and not told of an end, the drive still looks at the child
    have hlooks : r.drive.looks = true := by
      have hcompleted := h.completed
      cases hdrive : r.drive with
      | sent failed status =>
          rw [hnone, hdrive] at hcompleted
          cases hcompleted
      | writing | looking _ _ => rfl
      | failing | polling _ _ | ended _ _ | noting _ _ =>
          rw [hdrive] at hresting
          cases hresting
    cases hphase : r.phase with
    | waiting =>
        simp only [hphase] at hstep
        cases hstep
        rw [hphase] at hat
        refine ⟨h.turn h.reaped (fun _ => h.looks (by rw [hphase]; rfl)) h.lease
          (later_of id id id id) hat, .inr ⟨.expire false false, ?_⟩⟩
        simp only [dispatchRun, dispatchPhase, hphase, hnone, DispatchRun.step]
        rfl
    | grace =>
        simp only [hphase, startKill_eq] at hstep
        cases hstep
        rw [hphase] at hat
        have hchild := h.looks (by rw [hphase]; rfl) hlooks
        refine ⟨h.turn h.reaped (fun _ _ => hchild) h.lease
          (later_of (fun hs => by simp [hs]) id id id) ⟨hat, ?_⟩,
          .inr ⟨.expire false false, ?_⟩⟩
        · show (r.signalled || r.child) = true
          rw [hchild, Bool.or_true]
        · simp only [dispatchRun, dispatchPhase, hphase, hnone, DispatchRun.step]
          rfl
    | killing =>
        simp only [hphase] at hstep
        cases hstep
        rw [hphase] at hat
        refine ⟨h.apart h.reaped rfl h.lease (later_of id id id id)
          ⟨hat.1, hat.2, fun hj => (by cases hj)⟩, .inr ⟨.expire false false, ?_⟩⟩
        simp only [dispatchRun, dispatchPhase, hphase, hnone, DispatchRun.step]
        rfl
    | finishing | reaping _ | joining _ _ | idling _ _ | dropping _ _ | returned _ =>
        simp only [hphase] at hstep
        cases hstep
  · cases hstep

/-- What the drive has sent is true. -/
theorem Sound.tells {failed : Bool} {status : DriveEnd} (h : r.Sound)
    (hdrive : r.drive = .sent failed status) : r.Tells (driveCompletion failed status) := by
  have hdrives := h.drives
  rw [hdrive] at hdrives
  obtain ⟨hfailed, hends⟩ := hdrives
  cases failed with
  | true => exact ⟨hfailed rfl, status, hdrive⟩
  | false =>
      cases status with
      | exited success =>
          cases success with
          | true => exact ⟨hends.2, hdrive⟩
          | false => exact .inl hends.2
      | error => exact .inl hdrive
      | gone => exact hends.elim
      | outlived => exact .inr ⟨hdrive, hends⟩

/-- The end of the drive, and its completion. -/
theorem Sound.settles {event : ProcessEvent} (h : r.Sound)
    (hevent : event = .driveEnds ∨ event = .observe) (hstep : r.step event = some r') :
    r'.Sound ∧ Seen r r' := by
  have hat := h.phase
  rcases hevent with rfl | rfl
  · simp only [ProcessRun.step] at hstep
    split at hstep
    · rename_i failed status hdrive
      have hheld : r.phase.driven = true → r.permit = .held := by
        cases hphase : r.phase with
        | waiting | grace => rw [hphase] at hat; exact fun _ => hat
        | killing => rw [hphase] at hat; exact fun _ => hat.1
        | finishing | reaping _ | joining _ _ | idling _ _ | dropping _ _ | returned _ =>
            exact fun hd => (by cases hd)
      split at hstep
      · rename_i hdriven
        cases hstep
        refine ⟨h.apart h.reaped rfl h.lease (later_of id id id id)
          ⟨hheld hdriven, failed, status, hdrive⟩, .inr ⟨.driveEnds, ?_⟩⟩
        cases hphase : r.phase with
        | waiting | grace | killing =>
            simp only [dispatchRun, dispatchPhase, hphase, DispatchRun.step]
            rfl
        | finishing | reaping _ | joining _ _ | idling _ _ | dropping _ _ | returned _ =>
            rw [hphase] at hdriven
            cases hdriven
      · cases hstep
    · cases hstep
  · simp only [ProcessRun.step] at hstep
    split at hstep
    · rename_i hphase
      rw [hphase] at hat
      obtain ⟨hheld, failed, status, hdrive⟩ := hat
      have hcompleted : r.completed = some (driveCompletion failed status) := by
        rw [h.completed, hdrive]
        rfl
      rw [hcompleted] at hstep
      cases hstep
      have hlater : Later r { r with phase := .joining (driveCompletion failed status) .poll } :=
        later_of id id id id
      refine ⟨h.apart h.reaped rfl h.lease hlater
        ⟨hheld, (h.tells hdrive).later hlater, fun hj => (by cases hj)⟩,
        .inr ⟨.observe false false, ?_⟩⟩
      simp only [dispatchRun, dispatchPhase, hphase, hcompleted, settle, DispatchRun.step]
      rfl
    · cases hstep

/-- The dispatch future is dropped. -/
theorem Sound.abandon (h : r.Sound) (hstep : r.step .abandon = some r') :
    r'.Sound ∧ Seen r r' := by
  have hat := h.phase
  have hdropping : r.permit = .held → r.dispatchPhase ≠ .returned →
      (∀ completion, r.dispatchPhase = .joining completion → r.Tells completion) →
      Sound { r with phase := .dropping r.dispatchPhase .kill } ∧
        Seen r { r with phase := .dropping r.dispatchPhase .kill } := by
    intro hheld horigin htells
    have hlater : Later r { r with phase := .dropping r.dispatchPhase .kill } :=
      later_of id id id id
    exact ⟨h.apart h.reaped rfl h.lease hlater
      ⟨hheld, horigin, fun c hc => (htells c hc).later hlater, fun hk => absurd rfl hk,
        fun hk => (by cases hk)⟩, .same rfl rfl rfl rfl⟩
  simp only [ProcessRun.step] at hstep
  split at hstep
  · rename_i hawaits
    cases hstep
    unfold awaiting at hawaits
    cases hphase : r.phase with
    | waiting | grace =>
        rw [hphase] at hat
        apply hdropping hat
        · simp [dispatchPhase, hphase]
        · simp [dispatchPhase, hphase]
    | finishing | killing | reaping _ =>
        rw [hphase] at hat
        apply hdropping hat.1
        · simp [dispatchPhase, hphase]
        · simp [dispatchPhase, hphase]
    | joining completion join =>
        rw [hphase] at hat
        apply hdropping hat.1
        · simp [dispatchPhase, hphase]
        · intro c hc
          simp only [dispatchPhase, hphase, DispatchPhase.joining.injEq] at hc
          exact hc ▸ hat.2.1
    | idling _ _ | dropping _ _ | returned _ =>
        rw [hphase] at hawaits
        cases hawaits
  · cases hstep

/-- The registry. -/
theorem Sound.sweep {event : ProcessEvent} (h : r.Sound)
    (hevent : event = .sweepKill ∨ (∃ err, event = .sweepPoll err) ∨ event = .sweepDrop)
    (hstep : r.step event = some r') : r'.Sound ∧ Seen r r' := by
  have hat := h.phase
  rcases hevent with rfl | ⟨err, rfl⟩ | rfl
  · simp only [ProcessRun.step] at hstep
    split at hstep
    · rename_i hparked
      obtain ⟨hregistered, hphase⟩ := hparked
      rw [startKill_eq] at hstep
      cases hstep
      rw [hphase] at hat
      have hlater : Later r { r with signalled := r.signalled || r.child } :=
        later_of (fun hs => by simp [hs]) id id id
      exact ⟨h.turn h.reaped h.looks h.lease hlater (h.phase.later hlater rfl),
        .same rfl rfl rfl rfl⟩
    · cases hstep
  · simp only [ProcessRun.step] at hstep
    split at hstep
    · rename_i hparked
      obtain ⟨hregistered, hphase⟩ := hparked
      rcases hasJoin_cases h err with ⟨child, hgone, hexited, htry⟩ | ⟨_, htry⟩
      -- the exit is seen; the entry is dropped in a section of its own
      · have hsound : Sound { r with child, phase := .returned true } :=
          h.apart (fun _ => hexited) rfl
            (fun hc => (by rw [hgone] at hc; cases hc)) (later_of id (fun _ => hgone) id id)
            ⟨hregistered, hgone⟩
        have hseen : Seen r { r with child, phase := .returned true } :=
          .same rfl (by simp only [dispatchPhase, hphase]) rfl rfl
        rcases htry with ⟨success, htry⟩ | htry
        · rw [htry] at hstep
          cases hstep
          exact ⟨hsound, hseen⟩
        · rw [htry] at hstep
          cases hstep
          exact ⟨hsound, hseen⟩
      · rcases htry with htry | htry
        · rw [htry] at hstep
          cases hstep
          exact ⟨h, .same rfl rfl rfl rfl⟩
        · rw [htry] at hstep
          cases hstep
          exact ⟨h, .same rfl rfl rfl rfl⟩
    · cases hstep
  · simp only [ProcessRun.step] at hstep
    split at hstep
    · rename_i hphase
      cases hstep
      rw [hphase] at hat
      obtain ⟨hregistered, hchild⟩ := hat
      refine ⟨h.apart h.reaped rfl (unleased (.inl hchild))
        (later_of id id (fun _ => rfl) id) (.inr ⟨rfl, hchild, rfl⟩), .inr ⟨.poll false, ?_⟩⟩
      simp only [dispatchRun, dispatchPhase, hphase, hregistered, DispatchRun.step, noteReaped,
        not_running_of_exited (h.reaped hchild)]
      rfl
    · cases hstep

/-- The child exits. -/
theorem Sound.exits {success : Bool} (h : r.Sound) (hstep : r.step (.exits success) = some r') :
    r'.Sound ∧ Seen r r' := by
  simp only [ProcessRun.step] at hstep
  split at hstep
  · rename_i hrunning
    cases hstep
    have hlater : Later r { r with os := .exited success } :=
      ⟨fun _ hos => (by rw [hrunning] at hos; cases hos), id, id, id, id, fun _ _ hs => hs⟩
    refine ⟨⟨fun _ => ⟨success, rfl⟩, h.looks, h.lease, h.completed, h.drives.later hlater,
      h.phase.later hlater rfl⟩, .inr ⟨.childExits, ?_⟩⟩
    simp only [dispatchRun, DispatchRun.step]
    rfl
  · cases hstep

/-- What a section of the drive is for the dispatch: nothing, or the completion. -/
theorem Driven.seen (hdriven : Driven r r') (h : r.Sound)
    (hnone : r.drive.completion = none) : Seen r r' := by
  have hbefore : r.completed = none := h.completed.trans hnone
  have hphase : r'.dispatchPhase = r.dispatchPhase := by
    simp only [dispatchPhase, hdriven.phase]
  -- the drive sends once, so a completion that is there now is sent by this section
  cases hafter : r'.completed with
  | none => exact .same hdriven.os hphase hdriven.permit (hafter.trans hbefore.symm)
  | some completion =>
      refine .inr ⟨.complete completion, ?_⟩
      simp only [dispatchRun, DispatchRun.step, hbefore, hafter, hdriven.os, hdriven.permit, hphase]
      rfl

/-- **One step**: the invariant is kept, and `DispatchRun` has the step, or does not see
it. -/
theorem Sound.step {event : ProcessEvent} (h : r.Sound) (hstep : r.step event = some r') :
    r'.Sound ∧ Seen r r' := by
  cases event with
  | exits success => exact h.exits hstep
  | written ok late =>
      simp only [ProcessRun.step] at hstep
      split at hstep
      · rename_i hwrites
        simp only [Bool.and_eq_true, decide_eq_true_eq] at hwrites
        obtain ⟨hphase, hdrive⟩ := hwrites
        have hlooks : r.drive.looks = true := by rw [hdrive]; rfl
        have hnone := completion_of_looks hlooks
        cases ok with
        | true =>
            cases hstep
            have hkilled : false = true → r.signalled = true := fun hk => (by cases hk)
            obtain ⟨hdriven, hsound⟩ := h.lookUp hphase hlooks (fun hf => hf) hkilled late
            exact ⟨hsound, hdriven.seen h hnone⟩
        | false =>
            cases hstep
            have hdriven : Driven r { r with drive := .failing } :=
              ⟨rfl, rfl, rfl, rfl, id, id, fun _ => rfl, id⟩
            have hsound := h.driven hdriven hnone h.reaped (fun _ => h.looks hphase hlooks)
              (h.completed.trans hnone) trivial
            exact ⟨hsound, hdriven.seen h hnone⟩
      · cases hstep
  | drives late expired err =>
      simp only [ProcessRun.step] at hstep
      split at hstep
      · rename_i hphase
        obtain ⟨hnone, hdriven, hsound⟩ := h.driveOn hphase hstep
        exact ⟨hsound, hdriven.seen h hnone⟩
      · cases hstep
  | driveEnds => exact h.settles (.inl rfl) hstep
  | observe => exact h.settles (.inr rfl) hstep
  | expire => exact h.expire hstep
  | proceeds late err => exact h.proceed hstep
  | abandon => exact h.abandon hstep
  | sweepKill => exact h.sweep (.inl rfl) hstep
  | sweepPoll err => exact h.sweep (.inr (.inl ⟨err, rfl⟩)) hstep
  | sweepDrop => exact h.sweep (.inr (.inr rfl)) hstep

theorem start_sound (stdin : Bool) : (start stdin).Sound := by
  refine ⟨fun hc => (by cases hc), fun _ _ => rfl, fun _ _ => rfl, ?_, ?_, rfl⟩
  · cases stdin with
    | true => rfl
    | false => rfl
  · cases stdin with
    | true => trivial
    | false => exact ⟨fun hf => (by cases hf), fun hk => (by cases hk)⟩

end ProcessRun

end Monoloop.ToolDispatch
