import Monoloop.Contracts.Identity
import Monoloop.Lib.Transition
import Mathlib.Data.List.Basic

/-!
# Connection control, one atomic operation at a time

`control.rs` shares three flags and a preferred end between a connection's owner and
its callers, and wakes waiters with a `Notify`. `cancel`, `terminate` and
`ConnectionOwner::finish` are sequences of separate atomic operations; every one of
them is a step here, and any number of control calls and waiters run at once. The
owner is one task, so it runs at most one `finish` at a time.

`notify_waiters` wakes the `Notified` futures created so far and leaves nothing
behind: a future created later waits for the next call.
-/

namespace Monoloop.Connector

open Transition (System always)

/-- Closed connector error families. -/
inductive ConnectorErrorKind where
  | configurationInvalid
  | dialectUnavailable
  | credentialUnavailable
  | connectionFailed
  | writeFailed
  | readFailed
  | remoteClosed
  | deadlineExceeded
  | cancelled
  | terminated
  | localResourceFailed
  | invariantViolation
  | sessionFailed
  | protocolFailed
deriving DecidableEq, Repr

/-- Connector error with safe, bounded diagnostics. -/
structure ConnectorError where
  kind : ConnectorErrorKind
  message : String
  connectionId : Option String
deriving DecidableEq, Repr

namespace ConnectorError

def new (kind : ConnectorErrorKind) (message : String) : ConnectorError := ⟨kind, message, none⟩

def cancelled : ConnectorError := new .cancelled "connection cancelled"

def terminated : ConnectorError := new .terminated "connection terminated"

def resource (message : String) : ConnectorError := new .localResourceFailed message

def protocol (message : String) : ConnectorError := new .protocolFailed message

def connectionFailed (message : String) : ConnectorError := new .connectionFailed message

def sessionFailed (message : String) : ConnectorError := new .sessionFailed message

end ConnectorError

/-- Closed terminal kinds. -/
inductive ConnectionEndKind where
  | remoteEof
  | cancelled
  | terminated
  | transportFailure
  | localShutdown
deriving DecidableEq, Repr

/-- Who initiated the terminal transition. -/
inductive EndInitiator where
  | localControl
  | remote
  | localTransport
deriving DecidableEq, Repr

/-- Terminal transport outcome for one connection. -/
structure ConnectionEnd where
  connectionId : ConnectionId
  kind : ConnectionEndKind
  initiatedBy : EndInitiator
  bytesAccepted : Nat
  bytesReceived : Nat
  safeTransportError : Option String
deriving DecidableEq

/-- Immediate disposition of a control call (not the terminal outcome). -/
inductive ControlDisposition where
  | accepted
  | alreadyRequested
  | alreadyTerminal
  | controlUnavailable
deriving DecidableEq, Repr

inductive PreferredEnd where
  | cancelled
  | terminated
deriving DecidableEq, Repr

/-- Shared connection control state. `preferredEnd` is the decoded `AtomicU8`. -/
structure ControlState where
  terminal : Bool
  cancelRequested : Bool
  terminateRequested : Bool
  preferredEnd : Option PreferredEnd
deriving DecidableEq, Repr

/-- The two control calls of a handle. -/
inductive ControlKind where
  | cancel
  | terminate
deriving DecidableEq, Repr

namespace ControlState

def new : ControlState := ⟨false, false, false, none⟩

/-- The flag a control call swaps. -/
def requested (c : ControlState) : ControlKind → Bool
  | .cancel => c.cancelRequested
  | .terminate => c.terminateRequested

/-- `swap(true)` on the flag of a control call. -/
def request (c : ControlState) : ControlKind → ControlState
  | .cancel => { c with cancelRequested := true }
  | .terminate => { c with terminateRequested := true }

/-- `compare_exchange(0, 1)` for a cancel, `store(2)` for a terminate. -/
def prefer (c : ControlState) : ControlKind → ControlState
  | .cancel => { c with preferredEnd := c.preferredEnd.or (some .cancelled) }
  | .terminate => { c with preferredEnd := some .terminated }

@[simp] theorem request_terminal (c : ControlState) (k : ControlKind) :
    (c.request k).terminal = c.terminal := by
  cases k <;> rfl

@[simp] theorem request_preferredEnd (c : ControlState) (k : ControlKind) :
    (c.request k).preferredEnd = c.preferredEnd := by
  cases k <;> rfl

theorem request_requested (c : ControlState) (k k' : ControlKind) :
    (c.request k).requested k' = (c.requested k' || k == k') := by
  cases k <;> cases k' <;> simp [request, requested]

@[simp] theorem prefer_terminal (c : ControlState) (k : ControlKind) :
    (c.prefer k).terminal = c.terminal := by
  cases k <;> rfl

@[simp] theorem prefer_requested (c : ControlState) (k k' : ControlKind) :
    (c.prefer k).requested k' = c.requested k' := by
  cases k <;> cases k' <;> rfl

end ControlState

/-! ## Control calls -/

/-- The next operation of a control call. -/
inductive CallPc where
  /-- `is_terminal()`. -/
  | loadTerminal
  | swapRequested
  | writePreferred
  /-- `notify_waiters()`. -/
  | notify
  | returned (disposition : ControlDisposition)
deriving DecidableEq, Repr

structure ControlCall where
  kind : ControlKind
  pc : CallPc
deriving DecidableEq, Repr

namespace ControlCall

def goto (k : ControlCall) (pc : CallPc) : ControlCall := { k with pc }

/-- One operation of `request_cancel` or `request_terminate`. -/
def operate (c : ControlState) (k : ControlCall) : Option (ControlState × ControlCall) :=
  match k.pc with
  | .loadTerminal =>
      if c.terminal then some (c, k.goto (.returned .alreadyTerminal))
      else some (c, k.goto .swapRequested)
  | .swapRequested =>
      if c.requested k.kind then
        some (c.request k.kind, k.goto (.returned .alreadyRequested))
      else some (c.request k.kind, k.goto .writePreferred)
  | .writePreferred => some (c.prefer k.kind, k.goto .notify)
  | .notify => some (c, k.goto (.returned .accepted))
  | .returned _ => none

end ControlCall

/-! ## Waiters -/

/-- `interrupted` also returns on a terminal connection; `wait_control` and
`wait_interrupt` have the same body. -/
inductive WaiterKind where
  | interrupted
  | waitControl
  | waitInterrupt
deriving DecidableEq, Repr

/-- The next operation of a waiter. `woken` is the state of its `Notified`. -/
inductive WaiterPc where
  | testCancel
  | testTerminate
  | testTerminal
  /-- `notify.notified()`. -/
  | create
  /-- First poll of the `Notified`. -/
  | created (woken : Bool)
  | parked (woken : Bool)
  | returned
  /-- The future was dropped, as by a `select!` that took another branch. -/
  | dropped
deriving DecidableEq, Repr

structure Waiter where
  kind : WaiterKind
  pc : WaiterPc
deriving DecidableEq, Repr

namespace Waiter

def goto (w : Waiter) (pc : WaiterPc) : Waiter := { w with pc }

/-- One operation of a waiter; `none` while it is parked. -/
def operate (c : ControlState) (w : Waiter) : Option Waiter :=
  match w.pc with
  | .testCancel => some (w.goto (if c.cancelRequested then .returned else .testTerminate))
  | .testTerminate =>
      if c.terminateRequested then some (w.goto .returned)
      else
        match w.kind with
        | .interrupted => some (w.goto .testTerminal)
        | .waitControl | .waitInterrupt => some (w.goto .create)
  | .testTerminal => some (w.goto (if c.terminal then .returned else .create))
  | .create => some (w.goto (.created false))
  | .created woken => some (w.goto (if woken then .testCancel else .parked false))
  | .parked woken => if woken then some (w.goto .testCancel) else none
  | .returned | .dropped => none

/-- What `notify_waiters` does to one waiter. -/
def notified (w : Waiter) : Waiter :=
  match w.pc with
  | .created _ => w.goto (.created true)
  | .parked _ => w.goto (.parked true)
  | _ => w

def abandon (w : Waiter) : Option Waiter :=
  match w.pc with
  | .returned | .dropped => none
  | _ => some (w.goto .dropped)

end Waiter

/-! ## The owner -/

/-- The arguments of one `finish`. -/
structure FinishArgs where
  observed : ConnectionEndKind
  initiatedBy : EndInitiator
  safeError : Option String
deriving DecidableEq

/-- The kind `finish` publishes, from the observed one and the preference it loaded. -/
def endKind (observed : ConnectionEndKind) : Option PreferredEnd → ConnectionEndKind
  | some .terminated => .terminated
  | some .cancelled => .cancelled
  | none => observed

def endInitiator (kind : ConnectionEndKind) (initiatedBy : EndInitiator) : EndInitiator :=
  match kind with
  | .cancelled | .terminated => .localControl
  | _ => initiatedBy

/-- The next operation of a `finish`. -/
inductive FinishPc where
  | loadTerminal
  | loadPreferred
  /-- `mark_terminal()`: the store. -/
  | storeTerminal (kind : ConnectionEndKind)
  /-- `mark_terminal()`: `notify_waiters()`. -/
  | notify (kind : ConnectionEndKind)
  /-- `end_tx.take()` and the send. -/
  | send (kind : ConnectionEndKind)
deriving DecidableEq, Repr

structure Finish where
  args : FinishArgs
  pc : FinishPc
deriving DecidableEq

/-- Shared counters and terminal publisher for a connection owner task. `finishing`
is the `finish` in progress, `finished` the number of those that returned. -/
structure ConnectionOwner where
  connectionId : ConnectionId
  bytesAccepted : Nat
  bytesReceived : Nat
  endTx : Bool
  finishing : Option Finish
  finished : Nat
deriving DecidableEq

namespace ConnectionOwner

def new (connectionId : ConnectionId) : ConnectionOwner := ⟨connectionId, 0, 0, true, none, 0⟩

def connectionEnd (o : ConnectionOwner) (args : FinishArgs) (kind : ConnectionEndKind) :
    ConnectionEnd where
  connectionId := o.connectionId
  kind := kind
  initiatedBy := endInitiator kind args.initiatedBy
  bytesAccepted := o.bytesAccepted
  bytesReceived := o.bytesReceived
  safeTransportError := args.safeError

end ConnectionOwner

/-! ## One connection -/

/-- What a `finish` loaded: the kind it observed and the preference it found. -/
structure Decision where
  observed : ConnectionEndKind
  preferred : Option PreferredEnd
deriving DecidableEq, Repr

/-- A connection with its callers. `decision` and `published` are a record of what
happened: the load of `preferred_end` and the ends that went through `end_tx`. -/
structure Connection where
  control : ControlState
  owner : ConnectionOwner
  calls : List ControlCall
  waiters : List Waiter
  decision : Option Decision
  published : List ConnectionEnd

inductive ConnectionAction where
  /-- `cancel(..)` or `terminate(..)` is called. -/
  | request (kind : ControlKind)
  | call (n : Nat)
  /-- The transport accepted and delivered bytes. -/
  | transfer (accepted received : Nat)
  /-- The owner calls `finish`. -/
  | finish (args : FinishArgs)
  | owner
  | wait (kind : WaiterKind)
  | waiter (n : Nat)
  | abandon (n : Nat)
deriving DecidableEq

namespace Connection

def opened (connectionId : ConnectionId) : Connection where
  control := .new
  owner := .new connectionId
  calls := []
  waiters := []
  decision := none
  published := []

/-- `notify_waiters()`. -/
def notifyWaiters (s : Connection) : Connection := { s with waiters := s.waiters.map (·.notified) }

/-- One operation of the `finish` in progress. -/
def operateFinish (s : Connection) (f : Finish) : Connection :=
  match f.pc with
  | .loadTerminal =>
      if s.control.terminal then
        { s with owner := { s.owner with finishing := none, finished := s.owner.finished + 1 } }
      else { s with owner := { s.owner with finishing := some { f with pc := .loadPreferred } } }
  | .loadPreferred =>
      { s with
        owner := { s.owner with
          finishing := some { f with
            pc := .storeTerminal (endKind f.args.observed s.control.preferredEnd) } }
        decision := some ⟨f.args.observed, s.control.preferredEnd⟩ }
  | .storeTerminal kind =>
      { s with
        control := { s.control with terminal := true }
        owner := { s.owner with finishing := some { f with pc := .notify kind } } }
  | .notify kind =>
      { s.notifyWaiters with
        owner := { s.owner with finishing := some { f with pc := .send kind } } }
  | .send kind =>
      { s with
        owner := { s.owner with
          endTx := false, finishing := none, finished := s.owner.finished + 1 }
        published :=
          if s.owner.endTx then s.published ++ [s.owner.connectionEnd f.args kind] else s.published }

/-- One operation of the `n`-th control call. -/
def operateCall (s : Connection) (n : Nat) (k : ControlCall) : Option Connection :=
  (k.operate s.control).map fun (control, k') =>
    let s' := { s with control, calls := s.calls.set n k' }
    if k.pc = .notify then s'.notifyWaiters else s'

def step (s : Connection) : ConnectionAction → Option Connection
  | .request kind => some { s with calls := s.calls ++ [⟨kind, .loadTerminal⟩] }
  | .call n => s.calls[n]?.bind (s.operateCall n)
  | .transfer accepted received =>
      match s.owner.finishing with
      | none => some { s with owner := { s.owner with
          bytesAccepted := s.owner.bytesAccepted + accepted
          bytesReceived := s.owner.bytesReceived + received } }
      | some _ => none
  | .finish args =>
      match s.owner.finishing with
      | none => some { s with owner := { s.owner with finishing := some ⟨args, .loadTerminal⟩ } }
      | some _ => none
  | .owner => s.owner.finishing.map s.operateFinish
  | .wait kind => some { s with waiters := s.waiters ++ [⟨kind, .testCancel⟩] }
  | .waiter n =>
      s.waiters[n]?.bind fun w => (w.operate s.control).map fun w' =>
        { s with waiters := s.waiters.set n w' }
  | .abandon n =>
      s.waiters[n]?.bind fun w => w.abandon.map fun w' =>
        { s with waiters := s.waiters.set n w' }

end Connection

/-- A connection that has just been opened, with no caller yet. -/
def connection : System Connection ConnectionAction where
  init s := ∃ connectionId, s = .opened connectionId
  step a s := s.step a

def sampleConnectionId : ConnectionId := ⟨"socket", by decide +kernel⟩

/-! ## What one step does -/

theorem ControlCall.operate_cases {c c' : ControlState} {k k' : ControlCall}
    (h : k.operate c = some (c', k')) :
    (k.pc = .loadTerminal ∧ c' = c ∧
        (c.terminal = true ∧ k' = k.goto (.returned .alreadyTerminal) ∨
          c.terminal = false ∧ k' = k.goto .swapRequested)) ∨
      (k.pc = .swapRequested ∧ c' = c.request k.kind ∧
        (c.requested k.kind = true ∧ k' = k.goto (.returned .alreadyRequested) ∨
          c.requested k.kind = false ∧ k' = k.goto .writePreferred)) ∨
      (k.pc = .writePreferred ∧ c' = c.prefer k.kind ∧ k' = k.goto .notify) ∨
      (k.pc = .notify ∧ c' = c ∧ k' = k.goto (.returned .accepted)) := by
  unfold operate at h
  cases hpc : k.pc with
  | loadTerminal =>
      simp only [hpc] at h
      split at h
      · rename_i ht
        cases h
        exact .inl ⟨rfl, rfl, .inl ⟨ht, rfl⟩⟩
      · rename_i ht
        cases h
        exact .inl ⟨rfl, rfl, .inr ⟨by simpa using ht, rfl⟩⟩
  | swapRequested =>
      simp only [hpc] at h
      split at h
      · rename_i hr
        cases h
        exact .inr (.inl ⟨rfl, rfl, .inl ⟨hr, rfl⟩⟩)
      · rename_i hr
        cases h
        exact .inr (.inl ⟨rfl, rfl, .inr ⟨by simpa using hr, rfl⟩⟩)
  | writePreferred =>
      simp only [hpc] at h
      cases h
      exact .inr (.inr (.inl ⟨rfl, rfl, rfl⟩))
  | notify =>
      simp only [hpc] at h
      cases h
      exact .inr (.inr (.inr ⟨rfl, rfl, rfl⟩))
  | returned d =>
      simp only [hpc] at h
      cases h

/-- What a step that is no control call leaves to the calls. -/
structure Idle (s : Connection) (a : ConnectionAction) (s' : Connection) : Prop where
  requested : ∀ kind, s'.control.requested kind = s.control.requested kind
  preferred : s'.control.preferredEnd = s.control.preferredEnd
  calls : ∃ fresh, s'.calls = s.calls ++ fresh ∧ ∀ k ∈ fresh, k.pc = .loadTerminal
  decision : s'.decision = s.decision ∨
    ∃ f, a = .owner ∧ s.owner.finishing = some f ∧ f.pc = .loadPreferred ∧
      s'.decision = some ⟨f.args.observed, s.control.preferredEnd⟩

/-- What a control call changes. -/
structure Called (s s' : Connection) (n : Nat) (k k' : ControlCall) : Prop where
  get : s.calls[n]? = some k
  operate : k.operate s.control = some (s'.control, k')
  calls : s'.calls = s.calls.set n k'
  waiters : s'.waiters = if k.pc = .notify then s.waiters.map (·.notified) else s.waiters
  owner : s'.owner = s.owner
  decision : s'.decision = s.decision
  published : s'.published = s.published

section Step

variable {s s' : Connection} {a : ConnectionAction}

theorem called_of_step {n : Nat} (h : s.step (.call n) = some s') :
    ∃ k k', Called s s' n k k' := by
  obtain ⟨k, hget, hcall⟩ := Option.bind_eq_some_iff.mp h
  obtain ⟨⟨control, k'⟩, hop, rfl⟩ := Option.map_eq_some_iff.mp hcall
  refine ⟨k, k', hget, ?_, ?_, ?_, ?_, ?_, ?_⟩ <;> by_cases hn : k.pc = .notify <;>
    simp [hn, hop, Connection.notifyWaiters]

theorem idle_of_finish (f : Finish) (h : s.owner.finishing = some f) :
    Idle s .owner (s.operateFinish f) := by
  have hnone : ∃ fresh, s.calls = s.calls ++ fresh ∧ ∀ k ∈ fresh, k.pc = CallPc.loadTerminal :=
    ⟨[], (List.append_nil _).symm, by simp⟩
  unfold Connection.operateFinish
  cases hpc : f.pc with
  | loadTerminal =>
      by_cases ht : s.control.terminal = true
      · simp only [ht, if_true]
        exact ⟨fun _ => rfl, rfl, hnone, .inl rfl⟩
      · simp only [ht]
        exact ⟨fun _ => rfl, rfl, hnone, .inl rfl⟩
  | loadPreferred => exact ⟨fun _ => rfl, rfl, hnone, .inr ⟨f, rfl, h, hpc, rfl⟩⟩
  | storeTerminal kind => exact ⟨fun kind => by cases kind <;> rfl, rfl, hnone, .inl rfl⟩
  | notify kind => exact ⟨fun _ => rfl, rfl, hnone, .inl rfl⟩
  | send kind => exact ⟨fun _ => rfl, rfl, hnone, .inl rfl⟩

theorem idle_of_step (ha : ∀ n, a ≠ .call n) (h : s.step a = some s') : Idle s a s' := by
  have hnone : ∃ fresh, s.calls = s.calls ++ fresh ∧ ∀ k ∈ fresh, k.pc = CallPc.loadTerminal :=
    ⟨[], (List.append_nil _).symm, by simp⟩
  cases a with
  | request kind =>
      cases h
      exact ⟨fun _ => rfl, rfl, ⟨[⟨kind, .loadTerminal⟩], rfl, by simp⟩, .inl rfl⟩
  | call n => exact absurd rfl (ha n)
  | transfer accepted received =>
      cases hf : s.owner.finishing <;> simp only [Connection.step, hf] at h <;> cases h
      exact ⟨fun _ => rfl, rfl, hnone, .inl rfl⟩
  | finish args =>
      cases hf : s.owner.finishing <;> simp only [Connection.step, hf] at h <;> cases h
      exact ⟨fun _ => rfl, rfl, hnone, .inl rfl⟩
  | owner =>
      obtain ⟨f, hf, rfl⟩ := Option.map_eq_some_iff.mp h
      exact idle_of_finish f hf
  | wait kind =>
      cases h
      exact ⟨fun _ => rfl, rfl, hnone, .inl rfl⟩
  | waiter n =>
      obtain ⟨w, -, hw⟩ := Option.bind_eq_some_iff.mp h
      obtain ⟨w', -, rfl⟩ := Option.map_eq_some_iff.mp hw
      exact ⟨fun _ => rfl, rfl, hnone, .inl rfl⟩
  | abandon n =>
      obtain ⟨w, -, hw⟩ := Option.bind_eq_some_iff.mp h
      obtain ⟨w', -, rfl⟩ := Option.map_eq_some_iff.mp hw
      exact ⟨fun _ => rfl, rfl, hnone, .inl rfl⟩

end Step

end Monoloop.Connector
