import Monoloop.ToolDispatch.Permit

/-!
# A tool in a process of its own

A process-isolated tool is an OS child behind a `Mutex<Option<Child>>`. Its drive polls
`try_wait` under that mutex, and so do `join_timeout` and `has_join` of the kill handle,
which the guard of the dispatch holds and after it the `OwnedProcessRegistry`. Whoever
sees the exit takes the `Child` out, and the lease in `owned_processes` is released
behind a second lock.

A step here is one section under a lock, or what a task does between two awaits; the
child may exit between any two steps. The drive and the dispatch are one task: the
dispatch moves only while the drive is at an await.
-/

namespace Monoloop.ToolDispatch

/-! ## The child -/

inductive OsProcess where
  | running
  | exited (success : Bool)
deriving DecidableEq

/-- What `try_wait` finds under the mutex. -/
inductive Polled where
  | exited (success : Bool)
  | alive
  | error
  /-- The `Child` was taken out before. -/
  | gone
deriving DecidableEq

/-- How the loop of the drive ends; all but the first are `None`. -/
inductive DriveEnd where
  | exited (success : Bool)
  | error
  | gone
  /-- The grace behind the kill is over. -/
  | outlived
deriving DecidableEq

/-- The drive of `from_child_driven_with_stdin`. `failed` is `fail_deadline`, `killed`
stands for `killed_at`. -/
inductive DrivePhase where
  /-- `stdin.write_all` under the timeout. -/
  | writing
  /-- The write has failed, the child is to be killed. -/
  | failing
  /-- At the head of the loop; at an await. -/
  | looking (failed killed : Bool)
  | polling (failed killed : Bool)
  /-- Behind the loop. -/
  | ended (failed : Bool) (status : DriveEnd)
  /-- `note_process_reaped` and the completion. -/
  | noting (failed : Bool) (status : DriveEnd)
  | sent (failed : Bool) (status : DriveEnd)
deriving DecidableEq

/-- At an await: the dispatch may take its turn. -/
def DrivePhase.resting : DrivePhase → Bool
  | .writing | .looking _ _ | .sent _ _ => true
  | _ => false

/-- The completion that the drive sends. -/
def driveCompletion (failed : Bool) (status : DriveEnd) : ToolCompletion :=
  if failed then .runtimeFailed .deadlineExceeded
  else
    match status with
    | .exited true => .succeeded
    | .exited false => .runtimeFailed .terminationFailed
    | .error | .gone | .outlived => .runtimeFailed .completionLost

/-- The two sections of `join_timeout`. -/
inductive JoinStep where
  | poll
  | note
deriving DecidableEq

/-- The sections of `Drop for DispatchGuard`. -/
inductive DropStep where
  | kill
  | poll
  | note
deriving DecidableEq

/-- Where the dispatch is. -/
inductive ProcessPhase where
  | waiting
  | finishing
  | grace
  | killing
  /-- `join_timeout` inside the termination. -/
  | reaping (join : JoinStep)
  /-- `join_timeout` behind the select. -/
  | joining (completion : ToolCompletion) (join : JoinStep)
  /-- `release_if_idle`; `noted` is the second section of `has_join`. -/
  | idling (completion : ToolCompletion) (noting : Bool)
  /-- The guard is dropped, on the return or with the dispatch at `origin`. -/
  | dropping (origin : DispatchPhase) (drop : DropStep)
  /-- `swept`: the registry has seen the exit and has still to drop its entry. -/
  | returned (swept : Bool)
deriving DecidableEq

/-- The drive is polled. -/
def ProcessPhase.driven : ProcessPhase → Bool
  | .waiting | .grace | .killing => true
  | _ => false

/-- A dispatch of a process-isolated tool. -/
structure ProcessRun where
  os : OsProcess
  /-- A kill was sent. -/
  signalled : Bool
  /-- The mutex still holds the `Child`. -/
  child : Bool
  /-- `owned_slot` holds the lease. -/
  lease : Bool
  /-- A `try_wait` of a join has failed, which counts as the end of the child. -/
  misread : Bool
  drive : DrivePhase
  completed : Option ToolCompletion
  phase : ProcessPhase
  permit : PermitPlace
deriving DecidableEq

inductive ProcessEvent where
  | exits (success : Bool)
  /-- The write returns; `late` is the deadline at the head of the loop. -/
  | written (ok late : Bool)
  /-- The next section of the drive. -/
  | drives (late expired err : Bool)
  /-- The select sees the end of the drive. -/
  | driveEnds
  | observe
  /-- The timer of the await point, or the cancel. -/
  | expire
  /-- The next section of the dispatch. -/
  | proceeds (late err : Bool)
  /-- The dispatch future is dropped. -/
  | abandon
  /-- The registry kills its entry, polls it, and drops it. -/
  | sweepKill
  | sweepPoll (err : Bool)
  | sweepDrop
deriving DecidableEq

namespace ProcessRun

/-- `start` and the acquisition up to the first await. Without input to write the drive
begins at its loop. -/
def start (stdin : Bool) : ProcessRun where
  os := .running
  signalled := false
  child := true
  lease := true
  misread := false
  drive := if stdin then .writing else .looking false false
  completed := none
  phase := .waiting
  permit := .held

/-- `start_kill` under the mutex. -/
def startKill (r : ProcessRun) : ProcessRun :=
  if r.child then { r with signalled := true } else r

/-- `try_wait` under the mutex. A child that has exited is taken out. -/
def tryWait (r : ProcessRun) (err : Bool) : Polled × ProcessRun :=
  if r.child then
    if err then (.error, r)
    else
      match r.os with
      | .running => (.alive, r)
      | .exited success => (.exited success, { r with child := false })
  else (.gone, r)

/-- `owned_slot.take()`. -/
def noteReaped (r : ProcessRun) : ProcessRun := { r with lease := false }

/-! ## The drive -/

/-- The deadline at the head of the loop. -/
def lookUp (r : ProcessRun) (failed killed late : Bool) : ProcessRun :=
  if !killed && late then { r.startKill with drive := .polling failed true }
  else { r with drive := .polling failed killed }

/-- What the loop makes of `try_wait`. -/
def pollDrive (r : ProcessRun) (failed killed expired err : Bool) : ProcessRun :=
  match r.tryWait err with
  | (.exited success, r') => { r' with drive := .ended failed (.exited success) }
  | (.error, r') => { r' with drive := .ended failed .error }
  | (.gone, r') => { r' with drive := .ended failed .gone }
  | (.alive, r') =>
      if killed && expired then { r' with drive := .ended failed .outlived }
      else { r' with drive := .looking failed killed }

/-- The completion is sent. -/
def report (r : ProcessRun) (failed : Bool) (status : DriveEnd) : ProcessRun :=
  { r with
    drive := .sent failed status
    completed := some (driveCompletion failed status) }

def driveOn (r : ProcessRun) (late expired err : Bool) : Option ProcessRun :=
  match r.drive with
  | .writing | .sent _ _ => none
  | .failing => some { r.startKill with drive := .polling true true }
  | .looking failed killed => some (r.lookUp failed killed late)
  | .polling failed killed => some (r.pollDrive failed killed expired err)
  | .ended failed status =>
      match status with
      | .exited _ => some { r with drive := .noting failed status }
      | .error | .gone | .outlived =>
          some (if r.child then r.report failed status
            else { r with drive := .noting failed status })
  | .noting failed status => some (r.noteReaped.report failed status)

/-! ## The dispatch -/

/-- The select is over. -/
def settle (r : ProcessRun) (completion : ToolCompletion) : ProcessRun :=
  { r with phase := .joining completion .poll }

/-- The poll of `join_timeout`: it goes on at `noted`, ends at `left`, or waits. -/
def pollJoin (r : ProcessRun) (late err : Bool) (noted left : ProcessPhase) : ProcessRun :=
  match r.tryWait err with
  | (.exited _, r') | (.gone, r') => { r' with phase := noted }
  | (.error, r') => { r' with misread := true, phase := noted }
  | (.alive, r') => if late then { r' with phase := left } else r'

def proceed (r : ProcessRun) (late err : Bool) : Option ProcessRun :=
  match r.phase with
  | .reaping .poll =>
      some (r.pollJoin late err (.reaping .note)
        (.joining (.runtimeFailed .terminationFailed) .poll))
  | .reaping .note => some (r.noteReaped.settle (.runtimeFailed .terminationFailed))
  | .joining completion .poll =>
      some (r.pollJoin late err (.joining completion .note) (.idling completion false))
  | .joining completion .note => some { r.noteReaped with phase := .idling completion false }
  | .idling completion false =>
      match r.tryWait err with
      | (.exited _, r') | (.gone, r') => some { r' with phase := .idling completion true }
      | (.error, r') | (.alive, r') =>
          some { r' with phase := .dropping (.joining completion) .kill }
  | .idling _ true => some { r.noteReaped with permit := .released, phase := .returned false }
  | .dropping origin .kill => some { r.startKill with phase := .dropping origin .poll }
  | .dropping origin .poll =>
      match r.tryWait err with
      | (.exited _, r') | (.gone, r') => some { r' with phase := .dropping origin .note }
      | (.error, r') | (.alive, r') =>
          some { r' with permit := .registered, phase := .returned false }
  | .dropping _ .note => some { r.noteReaped with permit := .released, phase := .returned false }
  | _ => none

/-- The phase in `DispatchRun`. -/
def dispatchPhase (r : ProcessRun) : DispatchPhase :=
  match r.phase with
  | .waiting => .waiting
  | .finishing => .finishing
  | .grace => .grace
  | .killing => .killing
  | .reaping _ => .reaping (.runtimeFailed .terminationFailed)
  | .joining completion _ | .idling completion _ => .joining completion
  | .dropping origin _ => origin
  | .returned _ => .returned

/-- The dispatch is at an await of its own. -/
def awaiting (r : ProcessRun) : Bool :=
  match r.phase with
  | .waiting | .grace | .killing => r.drive.resting
  | .finishing | .reaping .poll | .joining _ .poll => true
  | _ => false

def step : ProcessEvent → ProcessRun → Option ProcessRun
  | .exits success, r => if r.os = .running then some { r with os := .exited success } else none
  | .written ok late, r =>
      if r.phase.driven && decide (r.drive = .writing) then
        some (if ok then r.lookUp false false late else { r with drive := .failing })
      else none
  | .drives late expired err, r => if r.phase.driven then r.driveOn late expired err else none
  | .driveEnds, r =>
      match r.drive with
      | .sent _ _ => if r.phase.driven then some { r with phase := .finishing } else none
      | _ => none
  | .observe, r =>
      match r.phase with
      | .finishing => some (r.settle (r.completed.getD (.runtimeFailed .completionLost)))
      | _ => none
  | .expire, r =>
      if r.drive.resting && r.completed.isNone then
        match r.phase with
        | .waiting => some { r with phase := .grace }
        | .grace => some { r.startKill with phase := .killing }
        | .killing => some { r with phase := .reaping .poll }
        | _ => none
      else none
  | .proceeds late err, r => r.proceed late err
  | .abandon, r =>
      if r.awaiting then some { r with phase := .dropping r.dispatchPhase .kill } else none
  | .sweepKill, r =>
      if r.permit = .registered ∧ r.phase = .returned false then some r.startKill else none
  | .sweepPoll err, r =>
      if r.permit = .registered ∧ r.phase = .returned false then
        match r.tryWait err with
        | (.exited _, r') | (.gone, r') => some { r' with phase := .returned true }
        | (.error, r') | (.alive, r') => some r'
      else none
  | .sweepDrop, r =>
      if r.phase = .returned true then
        some { r.noteReaped with permit := .released, phase := .returned false }
      else none

end ProcessRun

inductive ProcessAction where
  /-- A dispatch has started its child. -/
  | spawn (stdin : Bool)
  | event (n : Nat) (event : ProcessEvent)
deriving DecidableEq

def stepProcesses : ProcessAction → List ProcessRun → Option (List ProcessRun)
  | .spawn stdin, s => some (s ++ [.start stdin])
  | .event n event, s => s[n]?.bind fun r => (r.step event).map fun r' => s.set n r'

/-- The process-isolated dispatches of a runtime, with the children in its registry. -/
def toolProcesses : Transition.System (List ProcessRun) ProcessAction where
  init s := s = []
  step := stepProcesses

end Monoloop.ToolDispatch
