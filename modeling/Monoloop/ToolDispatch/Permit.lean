import Monoloop.Lib.Transition

/-!
# The permit of a dispatch and its worker

After `try_acquire` a dispatch holds a `ToolPermit` in its `DispatchGuard` and starts
the handler. From then on there is a worker: an OS child behind a process kill handle,
a `drive` future that the dispatch polls itself, or, for a cooperative handler that
returns neither, work that the handler runs somewhere else and that only its
completion tells of.

`dispatch_with_cancel` waits at nine await points, and the future may be dropped at
each. Timers and the external cancel are events here, so a run is any order of what
the worker does and what the timers do. The selects are biased: a completion that is
there wins over a timer. `grace` and `kill_deadline` only say when a timer fires, so
they have no place in the model.
-/

namespace Monoloop.ToolDispatch

open Transition (System)

inductive ToolRuntimeError where
  | panicked
  | completionLost
  | outputContractViolated
  | terminationFailed
  | deadlineExceeded
deriving DecidableEq, Repr

/-- The outputs play no part in what happens to the permit. -/
inductive ToolCompletion where
  | succeeded
  | domainFailed
  | runtimeFailed (error : ToolRuntimeError)
deriving DecidableEq, Repr

inductive ToolExecutionClass where
  | cooperativeInProcess
  | abortableAtYield
  | processIsolated
deriving DecidableEq, Repr

/-- What a handler says about itself. -/
structure ToolHandler where
  runtimeOwnsAbortableDrive : Bool
  supportsAbort : Bool
  osProcessIsolated : Bool
  supportsIsolatedKill : Bool
deriving DecidableEq

inductive ToolKillHandle where
  | cancelOnly
  | process
deriving DecidableEq, Repr

structure LinkedToolExecutionHandle where
  kill : Option ToolKillHandle
  drive : Bool
deriving DecidableEq

/-- The result of `handler.start`. -/
inductive StartResult where
  | started (handle : LinkedToolExecutionHandle)
  | capacityExceeded
  | rejected
  | panicked
deriving DecidableEq

/-- Structural termination support, before the start. -/
def supportsRequiredTermination (handler : ToolHandler) : ToolExecutionClass → Bool
  | .abortableAtYield => handler.runtimeOwnsAbortableDrive && handler.supportsAbort
  | .processIsolated => handler.osProcessIsolated && handler.supportsIsolatedKill
  | .cooperativeInProcess => true

/-- The handle matches the class, after the start. -/
def ownershipOk (handle : LinkedToolExecutionHandle) : ToolExecutionClass → Bool
  | .abortableAtYield => handle.kill = some .cancelOnly && handle.drive
  | .processIsolated => handle.kill = some .process && handle.drive
  | .cooperativeInProcess => true

/-- Where a permit is. -/
inductive PermitPlace where
  /-- In the guard of its dispatch. -/
  | held
  /-- In the `OrphanToolPermitSet`. -/
  | orphaned
  /-- In the `OwnedProcessRegistry`, with the child. -/
  | registered
  | released
deriving DecidableEq, Repr

/-- The await point a dispatch is at. -/
inductive DispatchPhase where
  /-- The 200 ms for a handle that does not match its class. -/
  | unowned
  /-- The select over completion, drive, cancel and deadline. -/
  | waiting
  /-- `wait.await`, after the drive has ended. -/
  | finishing
  /-- The grace after `control.cancel()`. -/
  | grace
  /-- The wait after `kill()`, with the drive still polled. -/
  | killing
  /-- `join_timeout` after `kill()`, without a drive. -/
  | joinKilled
  /-- The last wait for a completion, without a drive. -/
  | lastWait
  /-- `join_timeout` inside the termination, with a drive. -/
  | reaping (completion : ToolCompletion)
  /-- `join_timeout` after the select. -/
  | joining (completion : ToolCompletion)
  /-- The dispatch returned or was dropped. -/
  | returned
deriving DecidableEq, Repr

/-- A dispatch with its permit and its worker. -/
structure DispatchRun where
  policy : ToolExecutionClass
  /-- `none` if no worker was started. -/
  handle : Option LinkedToolExecutionHandle
  phase : DispatchPhase
  permit : PermitPlace
  /-- The child has not exited. -/
  child : Bool
  /-- The drive future is there and has not ended. -/
  driving : Bool
  /-- What the completion channel holds. -/
  completed : Option ToolCompletion
deriving DecidableEq

namespace DispatchRun

def kill (d : DispatchRun) : Option ToolKillHandle := d.handle.bind (·.kill)

def drives (d : DispatchRun) : Bool := d.handle.any (·.drive)

/-- The work runs where the runtime neither polls it nor can reap it. -/
def external (d : DispatchRun) : Bool :=
  d.handle.isSome && d.kill != some .process && !d.drives

/-- The worker may still run: the child has not exited, the drive is there, or the
work elsewhere has not reported. -/
def mayRun (d : DispatchRun) : Bool :=
  (d.kill = some .process && d.child) || d.driving || (d.external && d.completed.isNone)

/-- `ToolKillHandle::has_join`. A `try_wait` that fails (`err`) counts as alive. -/
def hasJoin (d : DispatchRun) (err : Bool) : Bool := d.kill = some .process && (d.child || err)

/-- `permit.take()` into another place. -/
def movePermit (d : DispatchRun) (place : PermitPlace) : DispatchRun :=
  { d with permit := if d.permit = .held then place else d.permit }

/-- `DispatchGuard::release_if_idle`. -/
def releaseIfIdle (d : DispatchRun) (err : Bool) : DispatchRun :=
  if d.hasJoin err then d else d.movePermit .released

/-- `Drop for DispatchGuard`. -/
def dropGuard (d : DispatchRun) (err : Bool) : DispatchRun :=
  if d.hasJoin err then d.movePermit .registered else d.movePermit .released

def goto (d : DispatchRun) (phase : DispatchPhase) : DispatchRun := { d with phase }

/-- The dispatch returns; its guard is dropped. -/
def leave (d : DispatchRun) (err : Bool) : DispatchRun := (d.dropGuard err).goto .returned

/-- A cooperative tool that did not acknowledge keeps its capacity. -/
def parkUnacknowledged (d : DispatchRun) (completion : ToolCompletion) : DispatchRun :=
  if d.policy = .cooperativeInProcess ∧ completion = .runtimeFailed .deadlineExceeded then
    match d.kill with
    | some .process => d
    | some .cancelOnly | none => d.movePermit .orphaned
  else d

/-- From the completion to the return. -/
def finish (d : DispatchRun) (completion : ToolCompletion) (err₁ err₂ : Bool) : DispatchRun :=
  ((d.parkUnacknowledged completion).releaseIfIdle err₁).leave err₂

/-- The select is over and the drive is dropped; only a process has a join to await. -/
def settle (d : DispatchRun) (completion : ToolCompletion) (err₁ err₂ : Bool) : DispatchRun :=
  let d := { d with driving := false }
  if d.kill = some .process then d.goto (.joining completion) else d.finish completion err₁ err₂

/-- `join_timeout` at the end of the termination with a drive. -/
def reap (d : DispatchRun) (completion : ToolCompletion) (err₁ err₂ : Bool) : DispatchRun :=
  if d.kill = some .process then d.goto (.reaping completion) else d.settle completion err₁ err₂

/-- From `try_acquire` to the first await. `late` is a transaction deadline that has
passed. In the branch for a handle that does not match its class the drive, if there
is one, is never polled. -/
def start (policy : ToolExecutionClass) (handler : ToolHandler) (late : Bool)
    (result : StartResult) : DispatchRun :=
  let refused : DispatchRun := ⟨policy, none, .returned, .released, false, false, none⟩
  if late then refused
  else if !supportsRequiredTermination handler policy then refused
  else
    match result with
    | .started handle =>
        let child : Bool := handle.kill = some .process
        if ownershipOk handle policy then
          ⟨policy, some handle, .waiting, .held, child, handle.drive, none⟩
        else ⟨policy, some handle, .unowned, .held, child, false, none⟩
    | .capacityExceeded | .rejected | .panicked => refused

end DispatchRun

/-- What happens to one dispatch. -/
inductive DispatchEvent where
  /-- The worker sends its completion, or drops the sender. -/
  | complete (completion : ToolCompletion)
  | driveEnds
  | childExits
  /-- The dispatch sees the completion. -/
  | observe (err₁ err₂ : Bool)
  /-- The timer of the await point fires; in the first select also the cancel. -/
  | expire (err₁ err₂ : Bool)
  /-- `join_timeout` returns. -/
  | joined (err₁ err₂ : Bool)
  /-- The dispatch future is dropped. -/
  | abandon (err : Bool)
  /-- The registry polls its entry. -/
  | poll (err : Bool)
deriving DecidableEq

namespace DispatchRun

/-- `await_tool_termination_driven` and `await_tool_termination`, up to their first
await. -/
def terminate (d : DispatchRun) : DispatchRun :=
  if d.drives then d.goto .grace
  else
    match d.policy with
    | .cooperativeInProcess | .processIsolated => d.goto .grace
    | .abortableAtYield => d.goto (if d.kill = some .process then .joinKilled else .lastWait)

/-- The grace is over. -/
def afterGrace (d : DispatchRun) (err₁ err₂ : Bool) : DispatchRun :=
  match d.drives, d.policy with
  | true, .processIsolated => d.goto .killing
  | true, _ => d.reap (.runtimeFailed .deadlineExceeded) err₁ err₂
  | false, .processIsolated => d.goto (if d.kill = some .process then .joinKilled else .lastWait)
  | false, _ => d.settle (.runtimeFailed .deadlineExceeded) err₁ err₂

/-- The last wait is over. -/
def afterLastWait (d : DispatchRun) (err₁ err₂ : Bool) : DispatchRun :=
  match d.policy with
  | .processIsolated => d.settle (.runtimeFailed .terminationFailed) err₁ err₂
  | .abortableAtYield | .cooperativeInProcess =>
      d.settle (.runtimeFailed .deadlineExceeded) err₁ err₂

def step : DispatchEvent → DispatchRun → Option DispatchRun
  | .complete completion, d =>
      if d.completed = none then some { d with completed := some completion } else none
  | .driveEnds, d =>
      match d.phase with
      | .waiting | .grace | .killing =>
          if d.driving then some { d with driving := false, phase := .finishing } else none
      | _ => none
  | .childExits, d => some { d with child := false }
  | .observe err₁ err₂, d =>
      d.completed.bind fun completion =>
        match d.phase with
        | .unowned => some ((d.releaseIfIdle err₁).leave err₂)
        | .waiting | .finishing | .grace | .killing | .lastWait =>
            some (d.settle completion err₁ err₂)
        | _ => none
  | .expire err₁ err₂, d =>
      match d.phase, d.completed with
      | .unowned, none => some ((d.movePermit .orphaned).leave err₁)
      | .waiting, none => some d.terminate
      | .grace, none => some (d.afterGrace err₁ err₂)
      | .killing, none => some (d.reap (.runtimeFailed .terminationFailed) err₁ err₂)
      | .lastWait, none => some (d.afterLastWait err₁ err₂)
      | .joinKilled, _ => some (d.settle (.runtimeFailed .terminationFailed) err₁ err₂)
      | _, _ => none
  | .joined err₁ err₂, d =>
      match d.phase with
      | .joinKilled => if d.child && !err₁ then none else some (d.goto .lastWait)
      | .reaping completion => some (d.settle completion err₁ err₂)
      | .joining completion => some (d.finish completion err₁ err₂)
      | _ => none
  | .abandon err, d =>
      match d.phase with
      | .returned => none
      | _ => some ({ d with driving := false }.leave err)
  | .poll err, d =>
      if d.permit = .registered ∧ d.hasJoin err = false then some { d with permit := .released }
      else none

end DispatchRun

inductive PermitAction where
  /-- A dispatch has acquired its permit. -/
  | dispatch (policy : ToolExecutionClass) (handler : ToolHandler) (late : Bool)
      (result : StartResult)
  | event (n : Nat) (event : DispatchEvent)
  /-- The orphan set is cleared while the runtime stops. -/
  | quiesce
deriving DecidableEq

def stepPermits : PermitAction → List DispatchRun → Option (List DispatchRun)
  | .dispatch policy handler late result, s => some (s ++ [.start policy handler late result])
  | .event n event, s => s[n]?.bind fun d => (d.step event).map fun d' => s.set n d'
  | .quiesce, s => some (s.map fun d =>
      if d.permit = .orphaned then { d with permit := .released } else d)

/-- The dispatches of a runtime that starts with none. -/
def toolPermits : System (List DispatchRun) PermitAction where
  init s := s = []
  step := stepPermits

/-! ## One dispatch -/

namespace DispatchRun

variable {d d' : DispatchRun} {err err₁ err₂ : Bool} {completion : ToolCompletion}

/-- What holds at each await point. A worker that the runtime neither polls nor can
reap occurs only under the cooperative class once the ownership check has passed. -/
def At (d : DispatchRun) : DispatchPhase → Prop
  | .unowned => d.permit = .held ∧ d.driving = false
  | .waiting | .finishing | .grace =>
      d.permit = .held ∧ (d.external = true → d.policy = .cooperativeInProcess)
  | .killing | .lastWait => d.permit = .held ∧ d.external = false
  | .joinKilled | .reaping _ => d.permit = .held ∧ d.kill = some .process
  | .joining _ => d.permit = .held ∧ d.kill = some .process ∧ d.driving = false
  | .returned => d.driving = false

/-- A released permit has no worker that may still run; the registry has the permits of
children. -/
structure Safe (d : DispatchRun) : Prop where
  released : d.permit = .released → d.mayRun = false
  registered : d.permit = .registered → d.kill = some .process

structure Kept (d : DispatchRun) : Prop where
  phase : d.At d.phase
  safe : d.Safe

theorem safe_of_held (h : d.permit = .held) : d.Safe := by
  constructor
  · intro hreleased
    rw [h] at hreleased
    cases hreleased
  · intro hregistered
    rw [h] at hregistered
    cases hregistered

theorem external_process (h : d.kill = some .process) : d.external = false := by
  simp [external, h]

theorem external_drives (h : d.drives = true) : d.external = false := by
  simp [external, h]

/-- Past the ownership check, another class than the cooperative one has its worker. -/
theorem external_owned (howned : d.external = true → d.policy = .cooperativeInProcess)
    (hpolicy : d.policy ≠ .cooperativeInProcess) : d.external = false := by
  cases hext : d.external with
  | false => rfl
  | true => exact absurd (howned hext) hpolicy

theorem mayRun_eq_false (hjoin : d.hasJoin err = false) (hdriving : d.driving = false)
    (hexternal : d.external = true → d.completed.isSome = true) : d.mayRun = false := by
  have hchild : (d.kill = some .process && d.child) = false := by
    by_cases hkill : d.kill = some .process
    · have hnone : (d.child || err) = false := by simpa [hasJoin, hkill] using hjoin
      rw [Bool.or_eq_false_iff] at hnone
      rw [hnone.1, Bool.and_false]
    · simp [hkill]
  have hwork : (d.external && d.completed.isNone) = false := by
    cases hext : d.external with
    | false => rfl
    | true =>
        have hsome := hexternal hext
        cases hcompleted : d.completed with
        | none =>
            rw [hcompleted] at hsome
            cases hsome
        | some c => rfl
  unfold mayRun
  rw [hchild, hdriving, hwork]
  rfl

/-- The work is done, or the permit is no longer in the guard. -/
structure Settled (d : DispatchRun) : Prop where
  driving : d.driving = false
  external : d.external = true → d.completed.isSome = true ∨ d.permit ≠ .held
  safe : d.Safe

theorem permit_movePermit (d : DispatchRun) (place : PermitPlace) :
    (d.permit = .held ∧ (d.movePermit place).permit = place) ∨
      (d.permit ≠ .held ∧ (d.movePermit place).permit = d.permit) := by
  unfold movePermit
  by_cases hheld : d.permit = .held
  · exact .inl ⟨hheld, if_pos hheld⟩
  · exact .inr ⟨hheld, if_neg hheld⟩

/-- The permit leaves the guard for a place where it may be. -/
theorem Settled.moved {place : PermitPlace} (hdriving : d.driving = false) (hsafe : d.Safe)
    (hplace : place ≠ .held) (hreleased : d.permit = .held → place = .released → d.mayRun = false)
    (hregistered : place = .registered → d.kill = some .process) :
    (d.movePermit place).Settled := by
  rcases permit_movePermit d place with ⟨hheld, hmoved⟩ | ⟨hgone, hsame⟩
  · refine ⟨hdriving, ?_, ?_, ?_⟩
    · intro _
      right
      rw [hmoved]
      exact hplace
    · intro hr
      exact hreleased hheld (hmoved ▸ hr)
    · intro hr
      exact hregistered (hmoved ▸ hr)
  · refine ⟨hdriving, ?_, ?_, ?_⟩
    · intro _
      right
      rw [hsame]
      exact hgone
    · intro hr
      exact hsafe.released (hsame ▸ hr)
    · intro hr
      exact hsafe.registered (hsame ▸ hr)

theorem Settled.release (h : d.Settled) (hjoin : d.hasJoin err = false) :
    (d.movePermit .released).Settled := by
  refine Settled.moved h.driving h.safe (by simp) ?_ (by simp)
  intro hheld _
  apply mayRun_eq_false hjoin h.driving
  intro hext
  rcases h.external hext with hdone | hmoved
  · exact hdone
  · exact absurd hheld hmoved

theorem Settled.orphaned (hdriving : d.driving = false) (hsafe : d.Safe) :
    (d.movePermit .orphaned).Settled :=
  Settled.moved hdriving hsafe (by simp) (by simp) (by simp)

theorem Settled.releaseIfIdle (h : d.Settled) : (d.releaseIfIdle err).Settled := by
  unfold DispatchRun.releaseIfIdle
  cases hjoin : d.hasJoin err with
  | true => exact h
  | false => exact h.release hjoin

theorem Settled.leave (h : d.Settled) : (d.leave err).Kept := by
  have hguard : (d.dropGuard err).Settled := by
    unfold dropGuard
    cases hjoin : d.hasJoin err with
    | true =>
        refine Settled.moved h.driving h.safe (by simp) (by simp) ?_
        intro _
        exact of_decide_eq_true (Bool.and_eq_true_iff.mp hjoin).1
    | false => exact h.release hjoin
  exact ⟨hguard.driving, hguard.safe.released, hguard.safe.registered⟩

/-- What the code has not seen complete it parks. -/
theorem parkUnacknowledged_settled (hheld : d.permit = .held) (hdriving : d.driving = false)
    (hexternal : d.external = true → d.completed.isSome = true ∨
      (d.policy = .cooperativeInProcess ∧ completion = .runtimeFailed .deadlineExceeded)) :
    (d.parkUnacknowledged completion).Settled := by
  have hsafe : d.Safe := safe_of_held hheld
  unfold parkUnacknowledged
  split
  · split
    · rename_i hkill
      refine ⟨hdriving, ?_, hsafe⟩
      intro hext
      rw [external_process hkill] at hext
      cases hext
    · exact .orphaned hdriving hsafe
    · exact .orphaned hdriving hsafe
  · rename_i hno
    refine ⟨hdriving, ?_, hsafe⟩
    intro hext
    left
    rcases hexternal hext with hdone | hdeadline
    · exact hdone
    · exact absurd hdeadline hno

theorem finish_kept (hheld : d.permit = .held) (hdriving : d.driving = false)
    (hexternal : d.external = true → d.completed.isSome = true ∨
      (d.policy = .cooperativeInProcess ∧ completion = .runtimeFailed .deadlineExceeded)) :
    (d.finish completion err₁ err₂).Kept := by
  apply Settled.leave
  apply Settled.releaseIfIdle
  exact parkUnacknowledged_settled hheld hdriving hexternal

theorem settle_kept (hheld : d.permit = .held)
    (hexternal : d.external = true → d.completed.isSome = true ∨
      (d.policy = .cooperativeInProcess ∧ completion = .runtimeFailed .deadlineExceeded)) :
    (d.settle completion err₁ err₂).Kept := by
  unfold settle
  dsimp only
  split
  · rename_i hkill
    exact ⟨⟨hheld, hkill, rfl⟩, safe_of_held hheld⟩
  · exact finish_kept hheld rfl hexternal

theorem reap_kept (hheld : d.permit = .held) (hexternal : d.external = false) :
    (d.reap completion err₁ err₂).Kept := by
  unfold reap
  split
  · rename_i hkill
    exact ⟨⟨hheld, hkill⟩, safe_of_held hheld⟩
  · apply settle_kept hheld
    intro hext
    rw [hexternal] at hext
    cases hext

theorem terminate_kept (hheld : d.permit = .held)
    (howned : d.external = true → d.policy = .cooperativeInProcess) : d.terminate.Kept := by
  have hsafe : ∀ phase, (d.goto phase).Safe := fun _ => safe_of_held hheld
  unfold terminate
  split
  · exact ⟨⟨hheld, howned⟩, hsafe _⟩
  · split
    · exact ⟨⟨hheld, howned⟩, hsafe _⟩
    · exact ⟨⟨hheld, howned⟩, hsafe _⟩
    · rename_i hpolicy
      have hexternal : d.external = false := external_owned howned (by simp [hpolicy])
      split
      · rename_i hkill
        exact ⟨⟨hheld, hkill⟩, hsafe _⟩
      · exact ⟨⟨hheld, hexternal⟩, hsafe _⟩

theorem afterGrace_kept (hheld : d.permit = .held)
    (howned : d.external = true → d.policy = .cooperativeInProcess) :
    (d.afterGrace err₁ err₂).Kept := by
  have hsafe : ∀ phase, (d.goto phase).Safe := fun _ => safe_of_held hheld
  unfold afterGrace
  split
  · rename_i hdrives _
    exact ⟨⟨hheld, external_drives hdrives⟩, hsafe _⟩
  · rename_i hdrives _
    exact reap_kept hheld (external_drives hdrives)
  · rename_i _ hpolicy
    have hexternal : d.external = false := external_owned howned (by simp [hpolicy])
    split
    · rename_i hkill
      exact ⟨⟨hheld, hkill⟩, hsafe _⟩
    · exact ⟨⟨hheld, hexternal⟩, hsafe _⟩
  · -- the cooperative class: the permit goes to the orphans
    apply settle_kept hheld
    intro hext
    exact .inr ⟨howned hext, rfl⟩

/-- The dispatch is not dropped while it waits for work that runs elsewhere. -/
def mayAbandon (d : DispatchRun) : Prop := d.external = true → d.completed.isSome = true

theorem start_kept (policy : ToolExecutionClass) (handler : ToolHandler) (late : Bool)
    (result : StartResult) : (start policy handler late result).Kept := by
  have hrefused : Kept ⟨policy, none, .returned, .released, false, false, none⟩ :=
    ⟨rfl, fun _ => rfl, fun hr => by cases hr⟩
  unfold start
  dsimp only
  split
  · exact hrefused
  · split
    · exact hrefused
    · split
      · rename_i handle
        split
        · rename_i howned
          refine ⟨⟨rfl, ?_⟩, safe_of_held rfl⟩
          intro hext
          -- every other class comes with a drive
          have hno : handle.drive = false := by
            simpa [external, drives] using (Bool.and_eq_true_iff.mp hext).2
          cases policy with
          | cooperativeInProcess => rfl
          | abortableAtYield => simp [ownershipOk, hno] at howned
          | processIsolated => simp [ownershipOk, hno] at howned
        · exact ⟨⟨rfl, rfl⟩, safe_of_held rfl⟩
      · exact hrefused
      · exact hrefused
      · exact hrefused

/-- The worker only ever stops. -/
theorem Kept.quieter (h : d.Kept) (hpolicy : d'.policy = d.policy) (hhandle : d'.handle = d.handle)
    (hphase : d'.phase = d.phase) (hpermit : d'.permit = d.permit)
    (hdriving : d'.driving = d.driving) (hrun : d.mayRun = false → d'.mayRun = false) :
    d'.Kept := by
  have hkill : d'.kill = d.kill := congrArg (·.bind (·.kill)) hhandle
  have hexternal : d'.external = d.external := by
    unfold external
    rw [hhandle, hkill, show d'.drives = d.drives from congrArg (·.any (·.drive)) hhandle]
  constructor
  · have hbefore := h.phase
    rw [hphase]
    cases hat : d.phase <;> rw [hat] at hbefore <;>
      simpa only [At, hpermit, hdriving, hkill, hexternal, hpolicy] using hbefore
  · constructor
    · intro hreleased
      exact hrun (h.safe.released (hpermit ▸ hreleased))
    · intro hregistered
      exact hkill.trans (h.safe.registered (hpermit ▸ hregistered))

theorem mayRun_complete (h : d.mayRun = false) (c : ToolCompletion) :
    ({ d with completed := some c } : DispatchRun).mayRun = false := by
  simp only [mayRun, Bool.or_eq_false_iff] at h ⊢
  exact ⟨h.1, Bool.and_false _⟩

theorem mayRun_exit (h : d.mayRun = false) :
    ({ d with child := false } : DispatchRun).mayRun = false := by
  simp only [mayRun, Bool.or_eq_false_iff] at h ⊢
  exact ⟨⟨Bool.and_false _, h.1.2⟩, h.2⟩

/-- The guard has the permit until the dispatch ends. -/
theorem Kept.held (h : d.Kept) (hphase : d.phase ≠ .returned) : d.permit = .held := by
  have hat := h.phase
  cases hp : d.phase with
  | returned => exact absurd hp hphase
  | _ =>
      rw [hp] at hat
      exact hat.1

theorem Kept.driveEnds (h : d.Kept) (hstep : d.step .driveEnds = some d') : d'.Kept := by
  have hat := h.phase
  have hend : d.phase ≠ .returned → (d.external = true → d.policy = .cooperativeInProcess) →
      (if d.driving then some { d with driving := false, phase := .finishing } else none) =
        some d' → d'.Kept := by
    intro hphase howned hif
    split at hif
    · cases hif
      exact ⟨⟨h.held hphase, howned⟩, safe_of_held (h.held hphase)⟩
    · cases hif
  simp only [DispatchRun.step] at hstep
  cases hp : d.phase with
  | waiting =>
      simp only [hp] at hstep hat
      exact hend (by simp [hp]) hat.2 hstep
  | grace =>
      simp only [hp] at hstep hat
      exact hend (by simp [hp]) hat.2 hstep
  | killing =>
      simp only [hp] at hstep hat
      refine hend (by simp [hp]) ?_ hstep
      intro hext
      rw [hat.2] at hext
      cases hext
  | _ =>
      rw [hp] at hstep
      cases hstep

theorem Kept.observe (h : d.Kept) (hstep : d.step (.observe err₁ err₂) = some d') : d'.Kept := by
  obtain ⟨c, hcompleted, hstep⟩ := Option.bind_eq_some_iff.mp hstep
  have hdone : d.completed.isSome = true := by
    rw [hcompleted]
    rfl
  have hat := h.phase
  have hsettle : d.phase ≠ .returned → some (d.settle c err₁ err₂) = some d' → d'.Kept := by
    intro hphase heq
    rw [← Option.some.inj heq]
    exact settle_kept (h.held hphase) (fun _ => .inl hdone)
  cases hp : d.phase with
  | unowned =>
      simp only [hp] at hstep hat
      cases hstep
      apply Settled.leave
      apply Settled.releaseIfIdle
      exact ⟨hat.2, fun _ => .inl hdone, safe_of_held hat.1⟩
  | waiting =>
      simp only [hp] at hstep
      exact hsettle (by simp [hp]) hstep
  | finishing =>
      simp only [hp] at hstep
      exact hsettle (by simp [hp]) hstep
  | grace =>
      simp only [hp] at hstep
      exact hsettle (by simp [hp]) hstep
  | killing =>
      simp only [hp] at hstep
      exact hsettle (by simp [hp]) hstep
  | lastWait =>
      simp only [hp] at hstep
      exact hsettle (by simp [hp]) hstep
  | _ =>
      rw [hp] at hstep
      cases hstep

theorem afterLastWait_kept (hheld : d.permit = .held) (hexternal : d.external = false) :
    (d.afterLastWait err₁ err₂).Kept := by
  have hnone : d.external = true → d.completed.isSome = true ∨ False := by
    intro hext
    rw [hexternal] at hext
    cases hext
  unfold afterLastWait
  split
  · exact settle_kept hheld (fun hext => (hnone hext).imp_right False.elim)
  · exact settle_kept hheld (fun hext => (hnone hext).imp_right False.elim)
  · exact settle_kept hheld (fun hext => (hnone hext).imp_right False.elim)

theorem Kept.expire (h : d.Kept) (hstep : d.step (.expire err₁ err₂) = some d') : d'.Kept := by
  have hat := h.phase
  simp only [DispatchRun.step] at hstep
  split at hstep
  · rename_i hphase _
    rw [hphase] at hat
    cases hstep
    exact (Settled.orphaned hat.2 (safe_of_held hat.1)).leave
  · rename_i hphase _
    rw [hphase] at hat
    cases hstep
    exact terminate_kept hat.1 hat.2
  · rename_i hphase _
    rw [hphase] at hat
    cases hstep
    exact afterGrace_kept hat.1 hat.2
  · rename_i hphase _
    rw [hphase] at hat
    cases hstep
    exact reap_kept hat.1 hat.2
  · rename_i hphase _
    rw [hphase] at hat
    cases hstep
    exact afterLastWait_kept hat.1 hat.2
  · rename_i hphase
    rw [hphase] at hat
    cases hstep
    apply settle_kept hat.1
    intro hext
    rw [external_process hat.2] at hext
    cases hext
  · cases hstep

theorem Kept.joined (h : d.Kept) (hstep : d.step (.joined err₁ err₂) = some d') : d'.Kept := by
  have hat := h.phase
  simp only [DispatchRun.step] at hstep
  split at hstep
  · rename_i hphase
    rw [hphase] at hat
    split at hstep
    · cases hstep
    · cases hstep
      exact ⟨⟨hat.1, external_process hat.2⟩, safe_of_held hat.1⟩
  · rename_i hphase
    rw [hphase] at hat
    cases hstep
    apply settle_kept hat.1
    intro hext
    rw [external_process hat.2] at hext
    cases hext
  · rename_i hphase
    rw [hphase] at hat
    cases hstep
    apply finish_kept hat.1 hat.2.2
    intro hext
    rw [external_process hat.2.1] at hext
    cases hext
  · cases hstep

/-- The future is dropped, its drive first and its guard last. -/
theorem abandon_eq (hstep : d.step (.abandon err) = some d') :
    d.phase ≠ .returned ∧ d' = { d with driving := false }.leave err := by
  simp only [DispatchRun.step] at hstep
  split at hstep
  · cases hstep
  · rename_i hphase
    cases hstep
    exact ⟨hphase, rfl⟩

theorem Kept.abandon (h : d.Kept) (hok : d.mayAbandon) (hstep : d.step (.abandon err) = some d') :
    d'.Kept := by
  obtain ⟨hphase, rfl⟩ := abandon_eq hstep
  apply Settled.leave
  exact ⟨rfl, fun hext => .inl (hok hext), safe_of_held (h.held hphase)⟩

/-- The drop gives the permit back under a worker that nobody stopped. -/
theorem Kept.abandon_releases (h : d.Kept) (hnot : ¬ d.mayAbandon)
    (hstep : d.step (.abandon err) = some d') : d'.permit = .released ∧ d'.mayRun = true := by
  obtain ⟨hphase, rfl⟩ := abandon_eq hstep
  have hheld := h.held hphase
  obtain ⟨hext, hopen⟩ : d.external = true ∧ ¬ d.completed.isSome = true :=
    Classical.not_imp.mp hnot
  have hnone : d.completed = none := by simpa using hopen
  have hkill : d.kill ≠ some .process := by
    intro hkill
    rw [external_process hkill] at hext
    cases hext
  have hjoin : hasJoin { d with driving := false } err = false := by
    simp [hasJoin, show kill { d with driving := false } = d.kill from rfl, hkill]
  constructor
  · unfold leave dropGuard
    rw [hjoin, if_neg Bool.false_ne_true]
    rcases permit_movePermit { d with driving := false } .released with ⟨-, hmoved⟩ | ⟨hgone, -⟩
    · exact hmoved
    · exact absurd hheld hgone
  · show mayRun _ = true
    have hsame : external (leave { d with driving := false } err) = d.external := by
      unfold leave dropGuard
      split <;> rfl
    have hcompleted : (leave { d with driving := false } err).completed = d.completed := by
      unfold leave dropGuard
      split <;> rfl
    unfold mayRun
    rw [hsame, hcompleted, hext, hnone]
    simp

/-- The registry gives a permit back when the child has exited. -/
theorem Kept.poll (h : d.Kept) (hstep : d.step (.poll err) = some d') : d'.Kept := by
  have hat := h.phase
  simp only [DispatchRun.step] at hstep
  split at hstep
  · rename_i hentry
    obtain ⟨hregistered, hjoin⟩ := hentry
    cases hstep
    have hover : d.phase = .returned := by
      apply Classical.byContradiction
      intro hphase
      rw [h.held hphase] at hregistered
      cases hregistered
    rw [hover] at hat
    refine ⟨?_, ?_, ?_⟩
    · show At _ d.phase
      rw [hover]
      exact hat
    · intro _
      apply mayRun_eq_false hjoin hat
      intro hext
      rw [external_process (h.safe.registered hregistered)] at hext
      cases hext
    · intro hr
      cases hr
  · cases hstep

/-- **One event** keeps the invariant, except for the drop of a dispatch that waits for
work the runtime does not own. -/
theorem Kept.step {event : DispatchEvent} (h : d.Kept) (hstep : d.step event = some d')
    (hok : ∀ err, event = .abandon err → d.mayAbandon) : d'.Kept := by
  cases event with
  | complete c =>
      simp only [DispatchRun.step] at hstep
      split at hstep
      · cases hstep
        exact h.quieter rfl rfl rfl rfl rfl (fun hrun => mayRun_complete hrun c)
      · cases hstep
  | driveEnds => exact h.driveEnds hstep
  | childExits =>
      cases hstep
      exact h.quieter rfl rfl rfl rfl rfl mayRun_exit
  | observe err₁ err₂ => exact h.observe hstep
  | expire err₁ err₂ => exact h.expire hstep
  | joined err₁ err₂ => exact h.joined hstep
  | abandon err => exact h.abandon (hok err rfl) hstep
  | poll err => exact h.poll hstep

end DispatchRun

/-! ## Every run -/

variable {s s' : List DispatchRun} {a : PermitAction} {as : List PermitAction}

/-- As long as a worker may still run, its permit is held or parked. -/
def Retained (s : List DispatchRun) : Prop := ∀ d ∈ s, d.mayRun = true → d.permit ≠ .released

/-- The step does not take the permit from under a worker: no dispatch is dropped while
it waits for work that runs elsewhere, and the orphans are not cleared while one of
their workers may still run. -/
def Spares (s : List DispatchRun) : PermitAction → Prop
  | .event n (.abandon _) => ∀ d, s[n]? = some d → d.mayAbandon
  | .quiesce => ∀ d ∈ s, d.permit = .orphaned → d.mayRun = false
  | _ => True

theorem retained_of_kept (h : ∀ d ∈ s, d.Kept) : Retained s := by
  intro d hd hrun hreleased
  rw [(h d hd).safe.released hreleased] at hrun
  cases hrun

theorem kept_step (h : ∀ d ∈ s, d.Kept) (hok : Spares s a) (hstep : toolPermits.step a s = some s') :
    ∀ d ∈ s', d.Kept := by
  cases a with
  | dispatch policy handler late result =>
      cases hstep
      intro d hd
      rcases List.mem_append.mp hd with hd | hd
      · exact h d hd
      · rw [List.mem_singleton.mp hd]
        exact DispatchRun.start_kept policy handler late result
  | event n event =>
      obtain ⟨d, hd, hstep⟩ := Option.bind_eq_some_iff.mp hstep
      obtain ⟨d', hd', rfl⟩ := Option.map_eq_some_iff.mp hstep
      have hkept : d'.Kept := by
        apply (h d (List.mem_of_getElem? hd)).step hd'
        intro err herr
        subst herr
        exact hok d hd
      intro e he
      rcases List.mem_or_eq_of_mem_set he with he | rfl
      · exact h e he
      · exact hkept
  | quiesce =>
      cases hstep
      intro e he
      obtain ⟨d, hd, rfl⟩ := List.mem_map.mp he
      have hbefore := h d hd
      by_cases horphan : d.permit = .orphaned
      · rw [if_pos horphan]
        have hover : d.phase = .returned := by
          apply Classical.byContradiction
          intro hphase
          rw [hbefore.held hphase] at horphan
          cases horphan
        have hat := hbefore.phase
        rw [hover] at hat
        refine ⟨?_, ?_, ?_⟩
        · show DispatchRun.At _ d.phase
          rw [hover]
          exact hat
        · intro _
          exact hok d hd horphan
        · intro hr
          cases hr
      · rw [if_neg horphan]
        exact hbefore

theorem unspared_step (h : ∀ d ∈ s, d.Kept) (hnot : ¬ Spares s a)
    (hstep : toolPermits.step a s = some s') : ¬ Retained s' := by
  intro hretained
  cases a with
  | dispatch policy handler late result => exact hnot trivial
  | event n event =>
      obtain ⟨d, hd, hstep⟩ := Option.bind_eq_some_iff.mp hstep
      obtain ⟨d', hd', rfl⟩ := Option.map_eq_some_iff.mp hstep
      cases event with
      | abandon err =>
          have hwaits : ¬ d.mayAbandon := by
            intro hmay
            apply hnot
            intro e he
            obtain rfl : d = e := Option.some.inj (hd.symm.trans he)
            exact hmay
          obtain ⟨hreleased, hrun⟩ :=
            (h d (List.mem_of_getElem? hd)).abandon_releases hwaits hd'
          have hmem : d' ∈ s.set n d' := List.mem_set (List.getElem?_eq_some_iff.mp hd).1 d'
          exact hretained d' hmem hrun hreleased
      | _ => exact hnot trivial
  | quiesce =>
      cases hstep
      apply hnot
      intro d hd horphan
      have hmem := List.mem_map_of_mem (f := fun d : DispatchRun =>
        if d.permit = .orphaned then { d with permit := .released } else d) hd
      cases hrun : d.mayRun with
      | false => rfl
      | true =>
          have hkeeps := hretained _ hmem
          rw [if_pos horphan] at hkeeps
          exact absurd rfl (hkeeps hrun)

/-- **When permits are retained.** In every state of a run a worker that may still run
has its permit held or parked, exactly if no step of the run drops a dispatch that waits
for work running elsewhere or clears the orphans under a running worker. -/
theorem permit_retained_iff (hrun : toolPermits.run as [] = some s) :
    toolPermits.Throughout Retained as [] ↔ toolPermits.StepsMeet Spares as [] :=
  System.throughout_iff (fun _ => retained_of_kept)
    (fun _ _ _ hkept hok hstep => kept_step hkept hok hstep)
    (fun _ _ _ hkept hnot hstep => unspared_step hkept hnot hstep)
    (by simp : ∀ d ∈ ([] : List DispatchRun), d.Kept) hrun

/-- A handler of the cooperative class that runs its work on its own thread. -/
def threadHandler : ToolHandler := ⟨false, false, false, false⟩

def threadHandle : LinkedToolExecutionHandle := ⟨none, false⟩

/-- The work outlives deadline and grace, and reports after its permit was parked. -/
def stubbornThread : List PermitAction :=
  [.dispatch .cooperativeInProcess threadHandler false (.started threadHandle),
    .event 0 (.expire false false), .event 0 (.expire false false),
    .event 0 (.complete .succeeded)]

theorem stubbornThread_run : ∃ s, toolPermits.run stubbornThread [] = some s := by
  rw [← Option.isSome_iff_exists]
  decide

theorem stubbornThread_retained : toolPermits.Throughout Retained stubbornThread [] := by
  obtain ⟨s, hrun⟩ := stubbornThread_run
  apply (permit_retained_iff hrun).mpr
  refine ⟨trivial, fun _ _ => ⟨trivial, fun _ _ => ⟨trivial, fun _ _ => ⟨trivial, fun _ _ => trivial⟩⟩⟩⟩

/-- The dispatch future is dropped while the thread works: the permit is released and the
thread runs on. -/
theorem dropped_dispatch_releases : ∃ s,
    toolPermits.run
      [.dispatch .cooperativeInProcess threadHandler false (.started threadHandle),
        .event 0 (.abandon false)] [] = some s ∧
    s.map (·.permit) = [.released] ∧ s.map (·.mayRun) = [true] ∧ ¬ Retained s := by
  refine ⟨[⟨.cooperativeInProcess, some threadHandle, .returned, .released, false, false, none⟩],
    by decide, by decide, by decide, ?_⟩
  intro hretained
  exact hretained _ (List.mem_singleton.mpr rfl) (by decide) rfl

end Monoloop.ToolDispatch
