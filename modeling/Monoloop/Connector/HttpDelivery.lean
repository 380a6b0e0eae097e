import Monoloop.Connector.HttpOwner

/-!
# Nothing is lost behind a clean end

A `RemoteEof` is published after the last chunk was put on the output channel, and the
channel is disconnected only after that, so a consumer that is told the output closed
has received the whole body. The request carried the bytes of the input messages up to
the finish.

`Going` holds while the owner runs and says what it has done by the point it has reached
(`Holds`); `Ended` holds once it calls `finish`. Every other party's steps are `Aside`.
-/

namespace Monoloop.Connector

open Transition (System always)

/-- The bytes of the input messages up to the finish. -/
def requestBody : List RawInputMessage → Bytes
  | .bytes bytes :: rest => bytes ++ requestBody rest
  | _ => []

theorem requestBody_append_of_finish {ms : List RawInputMessage} (h : .finish ∈ ms)
    (more : List RawInputMessage) : requestBody (ms ++ more) = requestBody ms := by
  induction ms with
  | nil => cases h
  | cons m rest ih =>
      cases m with
      | finish => rfl
      | bytes bytes =>
          have hrest : RawInputMessage.finish ∈ rest := by simpa using h
          show bytes ++ requestBody (rest ++ more) = bytes ++ requestBody rest
          rw [ih hrest]

theorem requestBody_append {ms : List RawInputMessage} (h : .finish ∉ ms)
    (more : List RawInputMessage) :
    requestBody (ms ++ more) = requestBody ms ++ requestBody more := by
  induction ms with
  | nil => rfl
  | cons m rest ih =>
      cases m with
      | finish => exact absurd List.mem_cons_self h
      | bytes bytes =>
          have hrest : RawInputMessage.finish ∉ rest := fun hm => h (List.mem_cons_of_mem _ hm)
          show bytes ++ requestBody (rest ++ more) = bytes ++ requestBody rest ++ requestBody more
          rw [ih hrest, List.append_assoc]

/-! ## Steps of the connection -/

/-- What no `finish` and no transfer changes. -/
structure Quiet (c c' : Connection) : Prop where
  owner : c'.owner = c.owner
  terminal : c'.control.terminal = c.control.terminal
  decision : c'.decision = c.decision
  published : c'.published = c.published
  waiters : c.waiters.length ≤ c'.waiters.length

namespace Quiet

variable {c c' c'' : Connection}

theorem refl (c : Connection) : Quiet c c := ⟨rfl, rfl, rfl, rfl, Nat.le_refl _⟩

theorem trans (h : Quiet c c') (h' : Quiet c' c'') : Quiet c c'' :=
  ⟨h'.owner.trans h.owner, h'.terminal.trans h.terminal, h'.decision.trans h.decision,
    h'.published.trans h.published, Nat.le_trans h.waiters h'.waiters⟩

theorem kept (h : Quiet c c') : Kept c c' :=
  ⟨h.terminal, h.decision, h.published, by rw [h.owner], by rw [h.owner]⟩

theorem request {kind : ControlKind} (h : c.step (.request kind) = some c') : Quiet c c' := by
  cases h
  exact ⟨rfl, rfl, rfl, rfl, Nat.le_refl _⟩

theorem call {n : Nat} (h : c.step (.call n) = some c') : Quiet c c' := by
  obtain ⟨k, k', hcalled⟩ := called_of_step h
  refine ⟨hcalled.owner, hcalled.kept.terminal, hcalled.decision, hcalled.published, ?_⟩
  rw [hcalled.waiters]
  split
  · simp
  · exact Nat.le_refl _

theorem wait {kind : WaiterKind} (h : c.step (.wait kind) = some c') :
    Quiet c c' ∧ c.waiters.length < c'.waiters.length := by
  cases h
  exact ⟨⟨rfl, rfl, rfl, rfl, by simp⟩, by simp⟩

theorem waiter {n : Nat} (h : c.step (.waiter n) = some c') : Quiet c c' := by
  obtain ⟨w, -, hw⟩ := Option.bind_eq_some_iff.mp h
  obtain ⟨w', -, rfl⟩ := Option.map_eq_some_iff.mp hw
  exact ⟨rfl, rfl, rfl, rfl, by simp⟩

theorem abandon {n : Nat} (h : c.step (.abandon n) = some c') : Quiet c c' := by
  obtain ⟨w, -, hw⟩ := Option.bind_eq_some_iff.mp h
  obtain ⟨w', -, rfl⟩ := Option.map_eq_some_iff.mp hw
  exact ⟨rfl, rfl, rfl, rfl, by simp⟩

end Quiet

/-- What one operation of a `finish` changes. -/
structure FinishMoved (f : Finish) (c c' : Connection) : Prop where
  accepted : c'.owner.bytesAccepted = c.owner.bytesAccepted
  received : c'.owner.bytesReceived = c.owner.bytesReceived
  finishing : (c'.owner.finishing = none ∧ 0 < c'.owner.finished) ∨
    ∃ f', c'.owner.finishing = some f' ∧ f'.args = f.args
  decision : c'.decision = c.decision ∨
    ∃ preferred, c'.decision = some ⟨f.args.observed, preferred⟩
  published : ∀ e ∈ c'.published, e ∈ c.published ∨
    e.bytesAccepted = c.owner.bytesAccepted ∧ e.bytesReceived = c.owner.bytesReceived

theorem operateFinish_moved (c : Connection) (f : Finish) :
    FinishMoved f c (c.operateFinish f) := by
  unfold Connection.operateFinish
  cases f.pc with
  | loadTerminal =>
      by_cases ht : c.control.terminal = true
      · simp only [ht, if_true]
        exact ⟨rfl, rfl, .inl ⟨rfl, Nat.succ_pos _⟩, .inl rfl, fun _ => .inl⟩
      · simp only [ht]
        exact ⟨rfl, rfl, .inr ⟨_, rfl, rfl⟩, .inl rfl, fun _ => .inl⟩
  | loadPreferred => exact ⟨rfl, rfl, .inr ⟨_, rfl, rfl⟩, .inr ⟨_, rfl⟩, fun _ => .inl⟩
  | storeTerminal kind | notify kind =>
      exact ⟨rfl, rfl, .inr ⟨_, rfl, rfl⟩, .inl rfl, fun _ => .inl⟩
  | send kind =>
      refine ⟨rfl, rfl, .inl ⟨rfl, Nat.succ_pos _⟩, .inl rfl, ?_⟩
      intro e he
      simp only at he
      split at he
      · rcases List.mem_append.mp he with hold | hnew
        · exact .inl hold
        · obtain rfl := List.mem_singleton.mp hnew
          exact .inr ⟨rfl, rfl⟩
      · exact .inl he

/-! ## The invariant -/

/-- Where the owner stands; `chunk` is one it has taken and not enqueued. -/
inductive Stage where
  | collecting
  | collected
  | requesting
  | streaming (chunk : Bytes)
  /-- `wait_control` has returned, or `finish` was called. -/
  | leaving
deriving DecidableEq

def Select.stage : Select → Stage
  | .collect => .collecting
  | .request _ => .requesting
  | .next _ => .streaming []
  | .enqueue chunk _ => .streaming chunk

namespace OwnerPc

def stage : OwnerPc → Stage
  | enter select | pollControl select _ | pollBranches select _ | pending select _ => select.stage
  | loadTerminate .request | loadCancel .request | startRequest => .collected
  | sendBudget => .requesting
  | loadTerminate .stream | loadCancel .stream | testDeadline | idleBudget => .streaming []
  | enqueueBudget chunk => .streaming chunk
  | interrupted | finishing | returned => .leaving

/-- `finish` has not been called. -/
def isRunning : OwnerPc → Bool
  | finishing | returned => false
  | _ => true

/-- The `wait_control` of its `select!`. -/
def waiter : OwnerPc → Option Nat
  | pollControl _ n | pollBranches _ n | pending _ n => some n
  | _ => none

end OwnerPc

namespace HttpConnection

/-- What the owner has put on the output channel. -/
def delivered (s : HttpConnection) : List Bytes := s.received ++ s.queue

/-- The request body is complete. -/
structure Collected (s : HttpConnection) : Prop where
  finish : .finish ∈ s.fed
  body : requestBody s.fed = s.body

/-- Between the answer and the end of the stream, with a chunk in the owner's hand. -/
structure Streaming (config : StreamingHttpConfig) (remote : Option Response)
    (s : HttpConnection) (chunk : Bytes) : Prop where
  collected : s.Collected
  sent : s.sent = some s.body
  split : ∃ r, remote = some r ∧ s.delivered.flatten ++ chunk ++ s.remaining.flatten = r.body
  total : s.totalResponse = s.delivered.flatten.length + chunk.length
  within : s.totalResponse ≤ config.maxResponseBytes

/-- What the owner has done when it stands at a stage. -/
def Holds (config : StreamingHttpConfig) (remote : Option Response) (s : HttpConnection) :
    Stage → Prop
  | .collecting => s.delivered = [] ∧
      ∃ taken, s.fed = taken ++ s.inbox ∧ .finish ∉ taken ∧ requestBody taken = s.body
  | .collected => s.delivered = [] ∧ s.Collected
  | .requesting => s.delivered = [] ∧ s.Collected ∧ s.sent = some s.body
  | .streaming chunk => s.Streaming config remote chunk
  | .leaving => True

/-- The whole response is on the output channel. -/
structure Complete (config : StreamingHttpConfig) (remote : Option Response)
    (s : HttpConnection) : Prop where
  collected : s.Collected
  sent : s.sent = some s.body
  response : ∃ r, remote = some r ∧ r.failed = false ∧ s.delivered.flatten = r.body
  within : s.delivered.flatten.length ≤ config.maxResponseBytes

/-- The counters are those of the two bodies. -/
structure Accounts (config : StreamingHttpConfig) (s : HttpConnection) : Prop where
  accepted : s.conn.owner.bytesAccepted = s.body.length
  within : s.body.length ≤ config.maxRequestBytes
  received : s.conn.owner.bytesReceived = s.delivered.flatten.length

/-- The owner has not called `finish`. -/
structure Unended (config : StreamingHttpConfig) (s : HttpConnection) : Prop where
  accounts : s.Accounts config
  running : s.pc.isRunning = true
  fresh : Fresh s.conn
  idle : s.conn.owner.finishing = none
  closed : s.closed = false

structure Going (config : StreamingHttpConfig) (remote : Option Response)
    (s : HttpConnection) : Prop where
  unended : s.Unended config
  holds : s.Holds config remote s.pc.stage
  waiter : ∀ n, s.pc.waiter = some n → n < s.conn.waiters.length

structure Ended (config : StreamingHttpConfig) (remote : Option Response)
    (s : HttpConnection) : Prop where
  accounts : s.Accounts config
  notRunning : s.pc.isRunning = false
  publishing : Publishing s.conn
  finishing : ∀ f, s.conn.owner.finishing = some f → s.pc = .finishing ∧
    (f.args.observed = .remoteEof → s.Complete config remote)
  finished : s.conn.owner.finishing = none → 0 < s.conn.owner.finished
  decided : ∀ d ∈ s.conn.decision, d.observed = .remoteEof → s.Complete config remote
  published : ∀ e ∈ s.conn.published, e.bytesAccepted = s.conn.owner.bytesAccepted ∧
    e.bytesReceived = s.conn.owner.bytesReceived
  drained : s.closed = true → s.pc = .returned ∧ s.queue = []

/-- A step that is not the owner's. -/
structure Aside (s s' : HttpConnection) : Prop where
  quiet : Quiet s.conn s'.conn
  pc : s'.pc = s.pc
  body : s'.body = s.body
  sent : s'.sent = s.sent
  remaining : s'.remaining = s.remaining
  total : s'.totalResponse = s.totalResponse
  delivered : s'.delivered = s.delivered
  input : ∃ more, s'.fed = s.fed ++ more ∧ s'.inbox = s.inbox ++ more
  queue : s.queue = [] → s'.queue = []
  closed : s'.closed = true → s.closed = true ∨ s.pc = .returned ∧ s'.queue = []

namespace Aside

variable {s s' s'' : HttpConnection}

theorem refl (s : HttpConnection) : Aside s s :=
  ⟨.refl _, rfl, rfl, rfl, rfl, rfl, rfl, ⟨[], by simp⟩, id, .inl⟩

theorem trans (h : Aside s s') (h' : Aside s' s'') : Aside s s'' where
  quiet := h.quiet.trans h'.quiet
  pc := h'.pc.trans h.pc
  body := h'.body.trans h.body
  sent := h'.sent.trans h.sent
  remaining := h'.remaining.trans h.remaining
  total := h'.total.trans h.total
  delivered := h'.delivered.trans h.delivered
  input := by
    obtain ⟨more, hfed, hinbox⟩ := h.input
    obtain ⟨more', hfed', hinbox'⟩ := h'.input
    exact ⟨more ++ more', by rw [hfed', hfed, List.append_assoc],
      by rw [hinbox', hinbox, List.append_assoc]⟩
  queue hq := h'.queue (h.queue hq)
  closed hc := by
    rcases h'.closed hc with hold | ⟨hpc, hq⟩
    · rcases h.closed hold with hold | ⟨hpc, hq⟩
      · exact .inl hold
      · exact .inr ⟨hpc, h'.queue hq⟩
    · exact .inr ⟨h.pc.symm.trans hpc, hq⟩

/-- Only the control side moves. -/
theorem conn {c : Connection} (h : Quiet s.conn c) : Aside s { s with conn := c } :=
  ⟨h, rfl, rfl, rfl, rfl, rfl, rfl, ⟨[], by simp⟩, id, .inl⟩

theorem leave (s : HttpConnection) (n : Nat) : Aside s (s.leave n) := by
  unfold HttpConnection.leave
  cases h : s.conn.step (.abandon n) with
  | none => exact .refl s
  | some c => exact .conn (.abandon h)

theorem goto (s : HttpConnection) (i : Nat) (pc : ReceivePc) (lock : Option Nat) :
    Aside s { s.goto i pc with lockedBy := lock } :=
  ⟨.refl _, rfl, rfl, rfl, rfl, rfl, rfl, ⟨[], by simp [HttpConnection.goto]⟩, id, .inl⟩

theorem recv {i : Nat} (h : s.recv i = some s') : Aside s s' := by
  unfold HttpConnection.recv at h
  cases hq : s.queue with
  | nil =>
      simp only [hq] at h
      split at h
      · rename_i hd
        cases h
        exact ⟨.refl _, rfl, rfl, rfl, rfl, rfl, rfl, ⟨[], by simp [unlock, HttpConnection.goto]⟩,
          id, fun _ => .inr ⟨of_decide_eq_true hd, hq⟩⟩
      · cases h
  | cons chunk rest =>
      simp only [hq] at h
      cases h
      refine ⟨.refl _, rfl, rfl, rfl, rfl, rfl, ?_, ⟨[], by simp [unlock, HttpConnection.goto]⟩,
        ?_, .inl⟩
      · show s.received ++ [chunk] ++ rest = s.received ++ s.queue
        rw [hq, List.append_assoc]
        rfl
      · intro hnone
        cases hq.symm.trans hnone

theorem tryRecv {i : Nat} {empty : HttpConnection} (h : Aside s empty) :
    Aside s (s.tryRecv i empty) := by
  unfold HttpConnection.tryRecv
  cases hr : s.recv i with
  | none => exact h
  | some s' => exact .recv hr

theorem operateReceive {i : Nat} {pc : ReceivePc} (h : s.operateReceive i pc = some s') :
    Aside s s' := by
  cases pc with
  | loadTerminate | loadCancel =>
      simp only [HttpConnection.operateReceive] at h
      split at h <;> cases h <;> exact .goto s i _ _
  | lockInterrupted err =>
      simp only [HttpConnection.operateReceive] at h
      split at h <;> cases h
      exact .goto s i _ _
  | lock =>
      simp only [HttpConnection.operateReceive] at h
      split at h <;> cases h
      exact .goto s i _ _
  | drain err =>
      cases h
      exact .tryRecv (.goto s i _ _)
  | enter =>
      simp only [HttpConnection.operateReceive, Option.map_eq_some_iff] at h
      obtain ⟨c, hc, rfl⟩ := h
      exact (Aside.conn (Quiet.wait hc).1).trans (.goto _ i _ _)
  | pollRecv n =>
      simp only [HttpConnection.operateReceive] at h
      cases hr : s.recv i with
      | none =>
          simp only [hr] at h
          cases h
          exact .goto s i _ _
      | some s₁ =>
          simp only [hr] at h
          cases h
          exact (Aside.recv hr).trans (.leave s₁ n)
  | pollInterrupt n =>
      obtain ⟨w, -, hw⟩ := Option.bind_eq_some_iff.mp h
      by_cases hret : w.pc = .returned
      · rw [if_pos hret] at hw
        cases hw
        exact .goto s i _ _
      · rw [if_neg hret] at hw
        cases hc : s.conn.step (.waiter n) with
        | none =>
            rw [hc] at hw
            cases hw
            exact .goto s i _ _
        | some c =>
            rw [hc] at hw
            cases hw
            exact .conn (.waiter hc)
  | pending n =>
      cases h
      exact .goto s i _ _
  | drainSelect =>
      cases h
      exact .tryRecv (.goto s i _ _)
  | reloadTerminate | reloadCancel =>
      simp only [HttpConnection.operateReceive] at h
      split at h <;> cases h <;> exact .goto s i _ _
  | recv => exact .recv h
  | returned result | dropped => cases h

end Aside

/-! ## What the others leave -/

section Others

variable {config : StreamingHttpConfig} {limits : ConnectorLimits} {remote : Option Response}
  {s s' : HttpConnection}

theorem aside_of_step {a : HttpAction} (ha : a ≠ .owner)
    (h : s.step config limits remote a = some s') : Aside s s' := by
  cases a with
  | owner => exact absurd rfl ha
  | feed msg =>
      simp only [step] at h
      split at h <;> cases h
      exact ⟨.refl _, rfl, rfl, rfl, rfl, rfl, rfl, ⟨[msg], rfl, rfl⟩, id, .inl⟩
  | closeInput | answer | arrive | tick ticks =>
      cases h
      exact ⟨.refl _, rfl, rfl, rfl, rfl, rfl, rfl, ⟨[], by simp⟩, id, .inl⟩
  | request kind =>
      simp only [step, Option.map_eq_some_iff] at h
      obtain ⟨c, hc, rfl⟩ := h
      exact .conn (.request hc)
  | call n =>
      simp only [step, Option.map_eq_some_iff] at h
      obtain ⟨c, hc, rfl⟩ := h
      exact .conn (.call hc)
  | receive =>
      simp only [step] at h
      split at h <;> cases h
      exact ⟨.refl _, rfl, rfl, rfl, rfl, rfl, rfl, ⟨[], by simp⟩, id, .inl⟩
  | consumer i =>
      obtain ⟨pc, -, hop⟩ := Option.bind_eq_some_iff.mp h
      exact .operateReceive hop
  | abandon i =>
      obtain ⟨pc, -, hab⟩ := Option.bind_eq_some_iff.mp h
      split at hab
      · cases hab
      · split at hab <;> cases hab
        · exact (Aside.goto s i .dropped _).trans (.leave _ _)
        · exact .goto s i .dropped _
  | closeOutput =>
      simp only [step] at h
      split at h <;> cases h
      exact ⟨.refl _, rfl, rfl, rfl, rfl, rfl, rfl, ⟨[], by simp⟩, id, .inl⟩

theorem Accounts.aside (hs : s.Accounts config) (h : Aside s s') : s'.Accounts config where
  accepted := by rw [h.quiet.owner, h.body, hs.accepted]
  within := by rw [h.body]; exact hs.within
  received := by rw [h.quiet.owner, h.delivered, hs.received]

theorem Collected.aside (hs : s.Collected) (h : Aside s s') : s'.Collected := by
  obtain ⟨more, hfed, -⟩ := h.input
  refine ⟨?_, ?_⟩
  · rw [hfed]
    exact List.mem_append_left _ hs.finish
  · rw [hfed, requestBody_append_of_finish hs.finish, hs.body, h.body]

theorem Complete.aside (hs : s.Complete config remote) (h : Aside s s') :
    s'.Complete config remote where
  collected := hs.collected.aside h
  sent := by rw [h.sent, h.body, hs.sent]
  response := by rw [h.delivered]; exact hs.response
  within := by rw [h.delivered]; exact hs.within

theorem Holds.aside {stage : Stage} (hs : s.Holds config remote stage) (h : Aside s s') :
    s'.Holds config remote stage := by
  cases stage with
  | collecting =>
      obtain ⟨hnone, taken, hfed, hopen, hbody⟩ := hs
      obtain ⟨more, hfed', hinbox'⟩ := h.input
      refine ⟨h.delivered.trans hnone, taken, ?_, hopen, hbody.trans h.body.symm⟩
      rw [hfed', hinbox', hfed, List.append_assoc]
  | collected => exact ⟨h.delivered.trans hs.1, hs.2.aside h⟩
  | requesting =>
      exact ⟨h.delivered.trans hs.1, hs.2.1.aside h, by rw [h.sent, h.body, hs.2.2]⟩
  | streaming chunk =>
      refine ⟨hs.collected.aside h, ?_, ?_, ?_, ?_⟩
      · rw [h.sent, h.body, hs.sent]
      · rw [h.delivered, h.remaining]
        exact hs.split
      · rw [h.total, h.delivered, hs.total]
      · rw [h.total]
        exact hs.within
  | leaving => trivial

theorem Unended.aside (hs : s.Unended config) (h : Aside s s') : s'.Unended config where
  accounts := hs.accounts.aside h
  running := by rw [h.pc]; exact hs.running
  fresh := hs.fresh.kept h.quiet.kept
  idle := by rw [h.quiet.owner]; exact hs.idle
  closed := by
    cases hc : s'.closed with
    | false => rfl
    | true =>
        -- the report of a closed output needs an owner that has returned
        rcases h.closed hc with hold | ⟨hpc, -⟩
        · exact hold.symm.trans hs.closed
        · have hrun := hs.running
          rw [hpc] at hrun
          cases hrun

theorem Going.aside (hs : s.Going config remote) (h : Aside s s') : s'.Going config remote where
  unended := hs.unended.aside h
  holds := by rw [h.pc]; exact hs.holds.aside h
  waiter n hn := by
    rw [h.pc] at hn
    exact Nat.lt_of_lt_of_le (hs.waiter n hn) h.quiet.waiters

theorem Ended.aside (hs : s.Ended config remote) (h : Aside s s') : s'.Ended config remote where
  accounts := hs.accounts.aside h
  notRunning := by rw [h.pc]; exact hs.notRunning
  publishing := publishing_kept hs.publishing h.quiet.kept (by rw [h.quiet.owner])
  finishing f hf := by
    rw [h.quiet.owner] at hf
    rw [h.pc]
    exact (hs.finishing f hf).imp_right fun hcomplete hobs => (hcomplete hobs).aside h
  finished hf := by
    rw [h.quiet.owner] at hf ⊢
    exact hs.finished hf
  decided d hd hobs := by
    rw [h.quiet.decision] at hd
    exact (hs.decided d hd hobs).aside h
  published e he := by
    rw [h.quiet.published] at he
    rw [h.quiet.owner]
    exact hs.published e he
  drained hc := by
    rw [h.pc]
    rcases h.closed hc with hold | hnow
    · exact (hs.drained hold).imp_right h.queue
    · exact hnow

end Others

/-! ## What the owner does -/

section OwnerSteps

variable {config : StreamingHttpConfig} {limits : ConnectorLimits} {remote : Option Response}
  {s s' : HttpConnection}

theorem Complete.moved (hs : s.Complete config remote) (c : Connection) (pc : OwnerPc) :
    ({ s with conn := c, pc }).Complete config remote :=
  ⟨⟨hs.collected.finish, hs.collected.body⟩, hs.sent, hs.response, hs.within⟩

theorem Holds.moved {stage : Stage} (hs : s.Holds config remote stage) (c : Connection)
    (pc : OwnerPc) : ({ s with conn := c, pc }).Holds config remote stage := by
  cases stage with
  | collecting => exact hs
  | collected => exact ⟨hs.1, hs.2.finish, hs.2.body⟩
  | requesting => exact ⟨hs.1, ⟨hs.2.1.finish, hs.2.1.body⟩, hs.2.2⟩
  | streaming chunk =>
      exact ⟨⟨hs.collected.finish, hs.collected.body⟩, hs.sent, hs.split, hs.total, hs.within⟩
  | leaving => trivial

/-- The owner goes on to an operation at whose stage it stands. -/
theorem Unended.goto (hs : s.Unended config) {c : Connection} (hquiet : Quiet s.conn c)
    {pc : OwnerPc} (hrun : pc.isRunning = true) (hholds : s.Holds config remote pc.stage)
    (hwaiter : ∀ n, pc.waiter = some n → n < c.waiters.length) :
    ({ s with conn := c, pc }).Going config remote where
  unended :=
    { accounts := ⟨by rw [← hs.accounts.accepted]; exact congrArg _ hquiet.owner,
        hs.accounts.within, by
          show c.owner.bytesReceived = s.delivered.flatten.length
          rw [hquiet.owner, hs.accounts.received]⟩
      running := hrun
      fresh := hs.fresh.kept hquiet.kept
      idle := by
        show c.owner.finishing = none
        rw [hquiet.owner, hs.idle]
      closed := hs.closed }
  holds := hholds.moved c pc
  waiter := hwaiter

theorem ends_eq (hs : s.conn.owner.finishing = none) (args : FinishArgs) :
    s.ends args = some { s with
      conn := { s.conn with owner := { s.conn.owner with finishing := some ⟨args, .loadTerminal⟩ } }
      pc := .finishing } := by
  simp only [ends, Connection.step, hs, Option.map_some]

theorem transfer_eq (hs : s.conn.owner.finishing = none) (accepted received : Nat) :
    s.transfer accepted received = some { s with
      conn := { s.conn with owner := { s.conn.owner with
        bytesAccepted := s.conn.owner.bytesAccepted + accepted
        bytesReceived := s.conn.owner.bytesReceived + received } } } := by
  simp only [transfer, Connection.step, hs, Option.map_some]

/-- A call of `finish` that observes a clean end needs the whole response. -/
theorem Unended.ends (hs : s.Unended config) {args : FinishArgs} (h : s.ends args = some s')
    (hcomplete : args.observed = .remoteEof → s.Complete config remote) :
    s'.Ended config remote := by
  rw [ends_eq hs.idle] at h
  cases h
  exact
    { accounts := ⟨hs.accounts.accepted, hs.accounts.within, hs.accounts.received⟩
      notRunning := rfl
      publishing := .inl (hs.fresh.kept ⟨rfl, rfl, rfl, rfl, rfl⟩)
      finishing := by
        intro f hf
        cases hf
        exact ⟨rfl, fun hobs => (hcomplete hobs).moved _ _⟩
      finished := by
        intro hf
        cases hf
      decided := by
        intro d hd
        cases hs.fresh.decision.symm.trans hd
      published := by
        intro e he
        rw [show s.conn.published = [] from hs.fresh.published] at he
        cases he
      drained := by
        intro hc
        cases hs.closed.symm.trans hc }

theorem Unended.fails (hs : s.Unended config) {message : String} (h : s.fails message = some s') :
    s'.Ended config remote :=
  hs.ends h (by intro hobs; cases hobs)

/-- Taking a message or a chunk leaves the accounts alone. -/
theorem Unended.taken (hs : s.Unended config) (inbox : List RawInputMessage) (arrived : Nat)
    (remaining : List Bytes) : ({ s with inbox, arrived, remaining }).Unended config :=
  ⟨⟨hs.accounts.accepted, hs.accounts.within, hs.accounts.received⟩, hs.running, hs.fresh, hs.idle,
    hs.closed⟩

/-- The invariant of the connection. -/
def Delivery (config : StreamingHttpConfig) (remote : Option Response) (s : HttpConnection) :
    Prop :=
  s.Going config remote ∨ s.Ended config remote

/-- A byte message, with the message already taken. -/
theorem delivery_acceptBytes {bytes : Bytes} {rest : List RawInputMessage}
    (hs : s.Unended config) (hinbox : s.inbox = .bytes bytes :: rest)
    (hholds : s.Holds config remote .collecting)
    (h : ({ s with inbox := rest }).acceptBytes config bytes = some s') :
    s'.Delivery config remote := by
  have htaken := hs.taken rest s.arrived s.remaining
  obtain ⟨hnone, taken, hfed, hopen, hbody⟩ := hholds
  simp only [acceptBytes] at h
  split at h
  · exact .inr (htaken.fails h)
  · rename_i hfits
    rw [transfer_eq htaken.idle] at h
    cases h
    refine .inl ⟨⟨⟨?_, ?_, hs.accounts.received⟩, rfl, hs.fresh.kept ⟨rfl, rfl, rfl, rfl, rfl⟩,
      hs.idle, hs.closed⟩, ⟨hnone, taken ++ [.bytes bytes], ?_, ?_, ?_⟩, ?_⟩
    · show s.conn.owner.bytesAccepted + bytes.length = (s.body ++ bytes).length
      rw [hs.accounts.accepted, List.length_append]
    · show (s.body ++ bytes).length ≤ config.maxRequestBytes
      rw [List.length_append]
      exact Nat.le_of_not_lt hfits
    · show s.fed = taken ++ [.bytes bytes] ++ rest
      rw [hfed, hinbox, List.append_assoc]
      rfl
    · simpa using hopen
    · show requestBody (taken ++ [.bytes bytes]) = s.body ++ bytes
      rw [requestBody_append hopen, hbody]
      simp [requestBody]
    · intro n hn
      cases hn

/-- The finish: what was taken is the request body. -/
theorem collected_of_finish {rest : List RawInputMessage} (hinbox : s.inbox = .finish :: rest)
    (hholds : s.Holds config remote .collecting) : s.Holds config remote .collected := by
  obtain ⟨hnone, taken, hfed, hopen, hbody⟩ := hholds
  refine ⟨hnone, ?_, ?_⟩
  · rw [hfed, hinbox]
    simp
  · rw [hfed, hinbox, requestBody_append hopen, hbody]
    exact List.append_nil _

theorem delivery_acceptChunk {chunk : Bytes} {rest : List Bytes} {arrived : Nat}
    (hs : s.Unended config) (hremaining : s.remaining = chunk :: rest)
    (hholds : s.Holds config remote (.streaming []))
    (h : ({ s with arrived, remaining := rest }).acceptChunk config chunk = some s') :
    s'.Delivery config remote := by
  have htaken := hs.taken s.inbox arrived rest
  have htotal : s.totalResponse = s.delivered.flatten.length := by simpa using hholds.total
  have hsplit : ∃ r, remote = some r ∧
      s.delivered.flatten ++ chunk ++ rest.flatten = r.body := by
    obtain ⟨r, hr, hbody⟩ := hholds.split
    refine ⟨r, hr, ?_⟩
    rw [← hbody, hremaining]
    simp
  simp only [acceptChunk] at h
  split at h
  · -- an empty chunk is skipped
    rename_i hempty
    obtain rfl : chunk = [] := List.isEmpty_iff.mp hempty
    cases h
    refine .inl (htaken.goto (.refl _) rfl ?_ (by intro n hn; cases hn))
    exact ⟨⟨hholds.collected.finish, hholds.collected.body⟩, hholds.sent, hsplit, hholds.total,
      hholds.within⟩
  · split at h
    · exact .inr (htaken.fails h)
    · split at h
      · exact .inr (htaken.fails h)
      · rename_i hfits
        cases h
        refine .inl ⟨⟨⟨hs.accounts.accepted, hs.accounts.within, hs.accounts.received⟩, rfl,
          hs.fresh, hs.idle, hs.closed⟩, ⟨⟨hholds.collected.finish, hholds.collected.body⟩, hholds.sent,
          hsplit, ?_, Nat.le_of_not_lt hfits⟩, by intro n hn; cases hn⟩
        show s.totalResponse + chunk.length = s.delivered.flatten.length + chunk.length
        rw [htotal]

theorem delivery_enqueued {chunk : Bytes} (hs : s.Unended config)
    (hholds : s.Holds config remote (.streaming chunk))
    (h : ((s.transfer 0 chunk.length).map fun s =>
      { s with queue := s.queue ++ [chunk], pc := .testDeadline }) = some s') :
    s'.Delivery config remote := by
  have hdelivered :
      (s.received ++ (s.queue ++ [chunk])).flatten = s.delivered.flatten ++ chunk := by
    simp [delivered]
  rw [transfer_eq hs.idle] at h
  cases h
  refine .inl ⟨⟨⟨hs.accounts.accepted, hs.accounts.within, ?_⟩, rfl,
    hs.fresh.kept ⟨rfl, rfl, rfl, rfl, rfl⟩, hs.idle, hs.closed⟩,
    ⟨⟨hholds.collected.finish, hholds.collected.body⟩, hholds.sent, ?_, ?_, hholds.within⟩,
    by intro n hn; cases hn⟩
  · show s.conn.owner.bytesReceived + chunk.length = _
    rw [hs.accounts.received]
    exact (congrArg List.length hdelivered).symm ▸ List.length_append.symm
  · obtain ⟨r, hr, hbody⟩ := hholds.split
    refine ⟨r, hr, ?_⟩
    show (s.received ++ (s.queue ++ [chunk])).flatten ++ [] ++ s.remaining.flatten = r.body
    rw [hdelivered, List.append_nil, hbody]
  · show s.totalResponse = (s.received ++ (s.queue ++ [chunk])).flatten.length + 0
    rw [hdelivered, hholds.total, List.length_append]
    rfl

/-- The arm of a ready branch. -/
theorem delivery_handle {select : Select} {ready : Ready} (hs : s.Unended config)
    (hholds : s.Holds config remote select.stage)
    (hready : s.poll config limits remote select = some ready)
    (h : s.handle config select ready = some s') : s'.Delivery config remote := by
  have hrebuild : ∀ n, OwnerPc.waiter .testDeadline = some n → n < s.conn.waiters.length := by
    intro n hn
    cases hn
  cases select with
  | collect =>
      simp only [poll] at hready
      cases hinbox : s.inbox with
      | nil =>
          simp only [hinbox] at hready
          split at hready <;> cases hready
          exact .inr ((hs.taken _ s.arrived s.remaining).ends h (by intro hobs; cases hobs))
      | cons msg rest =>
          simp only [hinbox] at hready
          cases hready
          simp only [handle, hinbox, List.tail_cons] at h
          cases msg with
          | bytes bytes => exact delivery_acceptBytes hs hinbox hholds h
          | finish =>
              cases h
              obtain ⟨hnone, hcollected⟩ := collected_of_finish hinbox hholds
              exact .inl ((hs.taken rest s.arrived s.remaining).goto (.refl _) rfl
                ⟨hnone, hcollected.finish, hcollected.body⟩ (by intro n hn; cases hn))
  | request timer =>
      simp only [poll] at hready
      split at hready
      · cases hready
        cases remote with
        | none => exact .inr (hs.fails h)
        | some r =>
            simp only [handle] at h
            split at h
            · cases h
              obtain ⟨hnone, hcollected, hsent⟩ := hholds
              refine .inl ⟨⟨⟨hs.accounts.accepted, hs.accounts.within, hs.accounts.received⟩, rfl,
                hs.fresh, hs.idle, hs.closed⟩, ⟨⟨hcollected.finish, hcollected.body⟩, hsent,
                ⟨r, rfl, ?_⟩, ?_, Nat.zero_le _⟩, hrebuild⟩
              · show s.delivered.flatten ++ [] ++ r.chunks.flatten = r.body
                rw [hnone]
                rfl
              · show 0 = s.delivered.flatten.length + 0
                rw [hnone]
                rfl
            · exact .inr (hs.ends h (by intro hobs; cases hobs))
      · split at hready <;> cases hready
        exact .inr (hs.fails h)
  | next timer =>
      simp only [poll] at hready
      split at hready
      · cases hremaining : s.remaining with
        | nil =>
            simp only [hremaining] at hready
            split at hready <;> cases hready
            · exact .inr (hs.fails h)
            · -- the end of the stream: nothing remains
              rename_i hfailed
              refine .inr (hs.ends h fun _ => ?_)
              have htotal : s.totalResponse = s.delivered.flatten.length := by
                simpa using hholds.total
              obtain ⟨r, rfl, hbody⟩ := hholds.split
              refine ⟨hholds.collected, hholds.sent, ⟨r, rfl, ?_, ?_⟩, htotal ▸ hholds.within⟩
              · simpa using hfailed
              · simpa [hremaining] using hbody
        | cons chunk rest =>
            simp only [hremaining] at hready
            cases hready
            simp only [handle, hremaining, List.tail_cons] at h
            exact delivery_acceptChunk hs hremaining hholds h
      · split at hready <;> cases hready
        exact .inr (hs.fails h)
  | enqueue chunk timer =>
      simp only [poll] at hready
      split at hready
      · cases hready
        exact .inr (hs.fails h)
      · split at hready
        · cases hready
          exact .inr (hs.fails h)
        · split at hready <;> cases hready
          exact delivery_enqueued hs hholds h

theorem Going.operateOwner (hs : s.Going config remote)
    (h : s.operateOwner config limits remote = some s') : s'.Delivery config remote := by
  have hun := hs.unended
  have hholds := hs.holds
  have hnone : ∀ {pc : OwnerPc}, pc.waiter = none →
      ∀ n, pc.waiter = some n → n < s.conn.waiters.length := by
    intro pc hpc n hn
    cases hpc.symm.trans hn
  cases hpc : s.pc with
  | enter select =>
      simp only [HttpConnection.operateOwner, hpc, Option.map_eq_some_iff] at h
      rw [hpc] at hholds
      obtain ⟨c, hc, rfl⟩ := h
      obtain ⟨hquiet, hlt⟩ := Quiet.wait hc
      exact .inl (hun.goto hquiet rfl hholds (by intro n hn; cases hn; exact hlt))
  | pollControl select n =>
      simp only [HttpConnection.operateOwner, hpc] at h
      rw [hpc] at hholds
      have hlt := hs.waiter n (by rw [hpc]; rfl)
      obtain ⟨w, -, hw⟩ := Option.bind_eq_some_iff.mp h
      split at hw
      · cases hw
        exact .inl (hun.goto (.refl _) rfl trivial (hnone rfl))
      · cases hc : s.conn.step (.waiter n) with
        | none =>
            rw [hc] at hw
            cases hw
            exact .inl (hun.goto (.refl _) rfl hholds (by intro m hm; cases hm; exact hlt))
        | some c =>
            rw [hc] at hw
            cases hw
            have hquiet : Quiet s.conn c := .waiter hc
            exact .inl (hun.goto hquiet rfl hholds
              (by intro m hm; cases hm; exact Nat.lt_of_lt_of_le hlt hquiet.waiters))
  | pollBranches select n =>
      simp only [HttpConnection.operateOwner, hpc] at h
      rw [hpc] at hholds
      cases hready : s.poll config limits remote select with
      | none =>
          rw [hready] at h
          cases h
          have hlt := hs.waiter n (by rw [hpc]; rfl)
          exact .inl (hun.goto (.refl _) rfl hholds (by intro m hm; cases hm; exact hlt))
      | some ready =>
          rw [hready] at h
          have haside := Aside.leave s n
          have hready' : (s.leave n).poll config limits remote select = some ready := by
            rw [← hready]
            unfold HttpConnection.leave
            split <;> rfl
          exact delivery_handle (hun.aside haside) (hholds.aside haside) hready' h
  | pending select n =>
      simp only [HttpConnection.operateOwner, hpc] at h
      rw [hpc] at hholds
      have hlt := hs.waiter n (by rw [hpc]; rfl)
      cases h
      exact .inl (hun.goto (.refl _) rfl hholds (by intro m hm; cases hm; exact hlt))
  | interrupted =>
      simp only [HttpConnection.operateOwner, hpc] at h
      refine .inr (hun.ends h ?_)
      intro hobs
      simp only [controlEnd] at hobs
      split at hobs <;> cases hobs
  | loadTerminate after =>
      simp only [HttpConnection.operateOwner, hpc] at h
      rw [hpc] at hholds
      split at h
      · exact .inr (hun.ends h (by intro hobs; cases hobs))
      · cases h
        exact .inl (hun.goto (.refl _) rfl (by cases after <;> exact hholds) (hnone rfl))
  | loadCancel after =>
      simp only [HttpConnection.operateOwner, hpc] at h
      rw [hpc] at hholds
      split at h
      · exact .inr (hun.ends h (by intro hobs; cases hobs))
      · cases h
        cases after with
        | request | stream => exact .inl (hun.goto (.refl _) rfl hholds (hnone rfl))
  | startRequest =>
      simp only [HttpConnection.operateOwner, hpc] at h
      rw [hpc] at hholds
      cases h
      exact .inl ⟨⟨⟨hun.accounts.accepted, hun.accounts.within, hun.accounts.received⟩, rfl,
        hun.fresh, hun.idle, hun.closed⟩, ⟨hholds.1, ⟨hholds.2.finish, hholds.2.body⟩, rfl⟩, hnone rfl⟩
  | sendBudget =>
      simp only [HttpConnection.operateOwner, hpc] at h
      rw [hpc] at hholds
      split at h
      · exact .inr (hun.fails h)
      · cases h
        exact .inl (hun.goto (.refl _) rfl hholds (hnone rfl))
  | testDeadline =>
      simp only [HttpConnection.operateOwner, hpc] at h
      rw [hpc] at hholds
      split at h
      · exact .inr (hun.fails h)
      · cases h
        exact .inl (hun.goto (.refl _) rfl hholds (hnone rfl))
  | idleBudget =>
      simp only [HttpConnection.operateOwner, hpc] at h
      rw [hpc] at hholds
      cases h
      exact .inl (hun.goto (.refl _) rfl hholds (hnone rfl))
  | enqueueBudget chunk =>
      simp only [HttpConnection.operateOwner, hpc] at h
      rw [hpc] at hholds
      split at h
      · exact .inr (hun.fails h)
      · cases h
        exact .inl (hun.goto (.refl _) rfl hholds (hnone rfl))
  | finishing | returned =>
      have hrun := hun.running
      rw [hpc] at hrun
      cases hrun

/-- Inside `finish` the counters stand still, and it returns after it has published. -/
theorem Ended.operateOwner (hs : s.Ended config remote)
    (h : s.operateOwner config limits remote = some s') : s'.Ended config remote := by
  cases hpc : s.pc with
  | finishing =>
      simp only [HttpConnection.operateOwner, hpc] at h
      cases hf : s.conn.owner.finishing with
      | none =>
          rw [hf] at h
          cases h
          refine ⟨⟨hs.accounts.accepted, hs.accounts.within, hs.accounts.received⟩, rfl,
            hs.publishing, ?_, hs.finished, ?_, hs.published, ?_⟩
          · intro f hf'
            cases hf.symm.trans hf'
          · intro d hd hobs
            exact (hs.decided d hd hobs).moved _ _
          · intro hc
            exact ⟨rfl, (hs.drained hc).2⟩
      | some f =>
          have hstep : s.conn.step .owner = some (s.conn.operateFinish f) := by
            simp only [Connection.step, hf, Option.map_some]
          rw [hf] at h
          simp only [hstep, Option.map_some] at h
          cases h
          have hmoved := operateFinish_moved s.conn f
          have hcomplete := (hs.finishing f hf).2
          refine ⟨⟨?_, hs.accounts.within, ?_⟩, rfl, publishing_finish hs.publishing hf, ?_, ?_,
            ?_, ?_, ?_⟩
          · exact hmoved.accepted.trans hs.accounts.accepted
          · exact hmoved.received.trans hs.accounts.received
          · intro f' hf'
            rcases hmoved.finishing with ⟨hnone, -⟩ | ⟨f₁, hf₁, hargs⟩
            · cases hnone.symm.trans hf'
            · obtain rfl : f₁ = f' := Option.some.inj (hf₁.symm.trans hf')
              exact ⟨rfl, fun hobs => (hcomplete (hargs ▸ hobs)).moved _ _⟩
          · intro hnone
            rcases hmoved.finishing with ⟨-, hpos⟩ | ⟨f₁, hf₁, -⟩
            · exact hpos
            · cases hnone.symm.trans hf₁
          · intro d hd hobs
            rcases hmoved.decision with hsame | ⟨preferred, hnow⟩
            · exact (hs.decided d (hsame ▸ hd) hobs).moved _ _
            · cases hnow.symm.trans hd
              exact (hcomplete hobs).moved _ _
          · intro e he
            have hcounters : e.bytesAccepted = s.conn.owner.bytesAccepted ∧
                e.bytesReceived = s.conn.owner.bytesReceived :=
              (hmoved.published e he).elim (hs.published e) id
            exact ⟨hcounters.1.trans hmoved.accepted.symm, hcounters.2.trans hmoved.received.symm⟩
          · intro hc
            cases hpc.symm.trans (hs.drained hc).1
  | returned =>
      simp only [HttpConnection.operateOwner, hpc] at h
      cases h
  | enter | pollControl | pollBranches | pending | interrupted | loadTerminate | loadCancel
  | startRequest | sendBudget | testDeadline | idleBudget | enqueueBudget =>
      have hover := hs.notRunning
      rw [hpc] at hover
      cases hover

end OwnerSteps

/-! ## Runs -/

section Runs

variable {config : StreamingHttpConfig} {limits : ConnectorLimits} {remote : Option Response}
  {s s' : HttpConnection}

theorem going_opened (config : StreamingHttpConfig) (remote : Option Response)
    (connectionId : ConnectionId) : (opened connectionId).Going config remote :=
  ⟨⟨⟨rfl, Nat.zero_le _, rfl⟩, rfl, ⟨rfl, rfl, rfl, rfl, rfl⟩, rfl, rfl⟩,
    ⟨rfl, [], rfl, by simp, rfl⟩, by intro n hn; cases hn⟩

theorem Delivery.step {a : HttpAction} (hs : s.Delivery config remote)
    (h : s.step config limits remote a = some s') : s'.Delivery config remote := by
  by_cases ha : a = .owner
  · subst ha
    rcases hs with hgoing | hended
    · exact hgoing.operateOwner h
    · exact .inr (hended.operateOwner h)
  · have haside := aside_of_step ha h
    exact hs.imp (·.aside haside) (·.aside haside)

theorem delivery (h : (httpConnection config limits remote).Reach always s) :
    s.Delivery config remote := by
  refine h.invariant ?_ ?_
  · rintro s ⟨connectionId, rfl⟩
    exact .inl (going_opened config remote connectionId)
  · intro s a s' _ hs _ hstep
    exact hs.step hstep

end Runs

end HttpConnection

def sampleConfig : StreamingHttpConfig := ⟨10, 10, 4, 4, 4⟩

/-- One byte out, one chunk back, the end of the stream; the owner runs until it has
returned and two `receive`s read the chunk and the close. -/
def sampleRun : List HttpAction :=
  [.feed (.bytes [1]), .feed .finish, .answer, .arrive, .arrive] ++ List.replicate 61 .owner ++
    [.receive] ++ List.replicate 5 (.consumer 0) ++ [.receive] ++ List.replicate 5 (.consumer 1)

end Monoloop.Connector
