import Monoloop.Publisher.EventPublisher

/-!
# What one poll of the publisher can do

`PollStep` lists the outcomes of a poll, each with the guards under which the
source takes it. Every invariant of the publisher is proved on this list, so the
select loops are unfolded here and nowhere else.
-/

namespace Monoloop.Publisher

variable {Body : Type} {p p' : EventPublisher Body} {f : InFlight Body}

namespace PublisherPc

/-- The same wait, for a send that has come further. -/
def refly (f : InFlight Body) : PublisherPc Body → PublisherPc Body
  | .sending _ alive => .sending f alive
  | .sealedSending _ cmd => .sealedSending f cmd
  | .fenceSending _ cmd => .fenceSending f cmd
  | .ending _ cmd => .ending f cmd
  | pc => pc

/-- Where a wait goes on when its seal arm yields. -/
def sealedBy (cmd : SealCommand) : PublisherPc Body → Option (PublisherPc Body)
  | .select => some (.fence cmd)
  | .sticky fail => some (.draining cmd fail)
  | .sending f true => some (.sealedSending f cmd)
  | _ => none

/-- Where a command's event is sent from. -/
def flying (f : InFlight Body) : PublisherPc Body → Option (PublisherPc Body)
  | .select => some (.sending f true)
  | .fence cmd => some (.fenceSending f cmd)
  | _ => none

/-- Where the publisher goes after an ordinary delivery. -/
def landed : PublisherPc Body → Option (PublisherPc Body)
  | .sending _ _ => some .select
  | .sealedSending _ cmd | .fenceSending _ cmd => some (.fence cmd)
  | _ => none

/-- Where it goes when nothing more can be delivered. -/
def failing (fail : TerminalEventDelivery) : PublisherPc Body → Option (PublisherPc Body)
  | .sending _ _ => some (.sticky fail)
  | .sealedSending _ cmd | .fenceSending _ cmd | .fence cmd => some (.draining cmd fail)
  | _ => none

/-- Commands are served. -/
def serves : PublisherPc Body → Bool
  | .select | .fence _ => true
  | _ => false

/-- The failure that was decided on. -/
def fail? : PublisherPc Body → Option TerminalEventDelivery
  | .sticky fail | .draining _ fail => some fail
  | _ => none

end PublisherPc

/-- The sleeps and the seal arm leave the send its turn. -/
def EventPublisher.MayDeliver (p : EventPublisher Body) : Prop :=
  match p.pc with
  | .sending _ alive => p.now < p.deadline ∧ (alive = true → p.sealQueue = none)
  | .sealedSending _ cmd | .fenceSending _ cmd | .ending _ cmd => p.now < cmd.deadline
  | _ => False

/-- **The outcomes of one poll.** -/
inductive PollStep (p : EventPublisher Body) : EventPublisher Body → Prop where
  | idle : PollStep p p
  | pending {f : InFlight Body} {send : SendState} {m : Mailbox Body}
      (flight : p.pc.flight? = some f) (mail : m.delivered = p.mailbox.delivered) :
      PollStep p { p with mailbox := m, pc := p.pc.refly { f with send } }
  | sealTaken {cmd : SealCommand} {g : Bool} {pc : PublisherPc Body}
      (queued : p.sealQueue = some cmd) (narrows : g = true → p.gate = true)
      (next : p.pc.sealedBy cmd = some pc) : PollStep p { p.takeSeal cmd with gate := g, pc }
  | sealClosed (at_ : p.pc = .select) (lost : p.sealDisconnected = true) :
      PollStep p { p with sealClosed := true, gate := false }
  | sealDead {f : InFlight Body} (at_ : p.pc = .sending f true) (lost : p.sealDisconnected = true) :
      PollStep p { p with pc := .sending f false }
  | cmdClosed (at_ : p.pc = .select) (lost : p.disconnected = true) :
      PollStep p { p with cmdClosed := true }
  | ignored {external : ExternalSessionId} {rest : List (EventPublisherCommand Body)}
      (serves : p.pc.serves = true) (queued : p.queue = .establishExternal external :: rest)
      (late : p.ignoresEstablish = true) :
      PollStep p (p.takeNext (.establishExternal external) rest)
  | discarded {cmd : EventPublisherCommand Body} {rest : List (EventPublisherCommand Body)}
      {fail : TerminalEventDelivery} (failed : p.pc.fail? = some fail)
      (queued : p.queue = cmd :: rest) : PollStep p (p.takeNext cmd rest)
  | establishing {external : ExternalSessionId} {rest : List (EventPublisherCommand Body)}
      {pc : PublisherPc Body} (queued : p.queue = .establishExternal external :: rest)
      (first : p.ignoresEstablish = false)
      (next : p.pc.flying (p.establishFlight external) = some pc) :
      PollStep p { p.takeNext (.establishExternal external) rest with pc }
  | publishing {payload : TransactionEventPayload Body}
      {rest : List (EventPublisherCommand Body)} {sid : SessionId} {pc : PublisherPc Body}
      (queued : p.queue = .publish payload :: rest)
      (resolved : sid = (ensureSession p.session none p.transactionId).2)
      (next : p.pc.flying ⟨p.event sid payload, none, .fresh⟩ = some pc) :
      PollStep p { p.takeNext (.publish payload) rest with session := some sid, pc }
  | delivered {f : InFlight Body} {m : Mailbox Body} {g : Bool} {pc : PublisherPc Body}
      (flight : p.pc.flight? = some f) (may : p.MayDeliver)
      (mail : m.delivered = p.mailbox.delivered ++ [f.event])
      (narrows : g = true → p.gate = true) (next : p.pc.landed = some pc) :
      PollStep p { { p with mailbox := m }.commit f with gate := g, pc }
  | failed {e : TerminalEventDelivery} {m : Mailbox Body} {g : Bool} {pc : PublisherPc Body}
      (fails : e ≠ .published) (mail : m.delivered = p.mailbox.delivered)
      (narrows : g = true → p.gate = true) (next : p.pc.failing e = some pc) :
      PollStep p { p with mailbox := m, gate := g, pc }
  | ending {cmd : SealCommand} (at_ : p.pc = .fence cmd) (empty : p.queue = [])
      (lost : p.disconnected = true) : PollStep p (p.beginEnded cmd)
  | ended {f : InFlight Body} {cmd : SealCommand} {m : Mailbox Body} (at_ : p.pc = .ending f cmd)
      (may : p.MayDeliver) (mail : m.delivered = p.mailbox.delivered ++ [f.event]) :
      PollStep p (({ p with mailbox := m }.commit f).finish .published true)
  | finished {e : TerminalEventDelivery} {m : Mailbox Body} {g sealClosed cmdClosed : Bool}
      {replies : Bool} (alive : p.gone = false) (fails : e ≠ .published ∨ p.pc.fail? = some e)
      (mail : m.delivered = p.mailbox.delivered) (narrows : g = true → p.gate = true)
      (replied : replies = true → p.pc.seal?.isSome = true) :
      PollStep p ({ p with mailbox := m, gate := g, sealClosed, cmdClosed }.finish e replies)

namespace EventPublisher

theorem mapSendErr_ne_published (e : EventEnqueueError) : mapSendErr e ≠ .published := by
  cases e <;> simp [mapSendErr]

/-- A commit changes the counters, and the session if it establishes one. -/
theorem commit_eq (p : EventPublisher Body) (f : InFlight Body) : ∃ session established,
    p.commit f = { p with
      lastCommitted := f.event.sequence
      nextSeq := saturatingAdd f.event.sequence 1
      session := session
      sessionEstablished := established } := by
  unfold commit
  split
  · exact ⟨_, _, rfl⟩
  · exact ⟨_, _, rfl⟩

/-- The three outcomes of polling a send. -/
theorem pollFlight_cases (p : EventPublisher Body) (f : InFlight Body)
    (wait : InFlight Body → PublisherPc Body)
    (done : EventPublisher Body → Except TerminalEventDelivery Unit → EventPublisher Body) :
    (∃ m send, m.delivered = p.mailbox.delivered ∧
      p.pollFlight f wait done = { p with mailbox := m }.goto (wait { f with send })) ∨
    (∃ m, m.delivered = p.mailbox.delivered ++ [f.event] ∧
      p.pollFlight f wait done = done ({ p with mailbox := m }.commit f) (.ok ())) ∨
    (∃ m fail, m.delivered = p.mailbox.delivered ∧ fail ≠ .published ∧
      p.pollFlight f wait done = done { p with mailbox := m } (.error fail)) := by
  have hmail := p.mailbox.pollSend_delivered p.estimateEventBytes f.event f.send
  unfold pollFlight
  revert hmail
  generalize p.mailbox.pollSend p.estimateEventBytes f.event f.send = polled
  obtain ⟨m, poll⟩ := polled
  intro hmail
  cases poll with
  | pending send => exact .inl ⟨m, send, hmail, rfl⟩
  | ready result =>
      cases result with
      | ok => exact .inr (.inl ⟨m, hmail, rfl⟩)
      | error e => exact .inr (.inr ⟨m, _, hmail, mapSendErr_ne_published e, rfl⟩)

/-- A command that is served is ignored or takes off. -/
theorem takeCommand_step {cmd : EventPublisherCommand Body}
    {rest : List (EventPublisherCommand Body)} {wait : InFlight Body → PublisherPc Body}
    (hqueue : p.queue = cmd :: rest) (hserves : p.pc.serves = true)
    (hwait : ∀ f, p.pc.flying f = some (wait f)) :
    PollStep p ((p.takeNext cmd rest).takeCommand wait cmd) := by
  cases cmd with
  | establishExternal external =>
      have hignores : (p.takeNext (.establishExternal external) rest).ignoresEstablish =
          p.ignoresEstablish := rfl
      simp only [takeCommand, hignores]
      cases hlate : p.ignoresEstablish with
      | true => exact .ignored hserves hqueue hlate
      | false => exact .establishing hqueue hlate (hwait _)
  | publish payload =>
      have hsession : (ensureSession p.session none p.transactionId).1 =
          some (ensureSession p.session none p.transactionId).2 := ensureSession_fst
      show PollStep p { p.takeNext (.publish payload) rest with
        session := (ensureSession p.session none p.transactionId).1
        pc := wait _ }
      rw [hsession]
      exact .publishing hqueue rfl (hwait _)

theorem pollSelectCommand_step (h : p.pc = .select) : PollStep p p.pollSelectCommand := by
  unfold pollSelectCommand
  split
  · exact .idle
  · split
    · rename_i hqueue
      exact takeCommand_step hqueue (by rw [h]; rfl) (fun f => by rw [h]; rfl)
    · split
      · rename_i hlost
        dsimp only
        split
        · exact .finished (e := .queueClosed) (m := p.mailbox) (by simp [gone, h]) (.inl (by simp)) rfl id
            (by simp)
        · exact .cmdClosed h hlost
      · exact .idle

theorem pollSelect_step (h : p.pc = .select) : PollStep p p.pollSelect := by
  unfold pollSelect
  split
  · exact pollSelectCommand_step h
  · split
    · rename_i hseal
      exact .sealTaken (g := false) hseal (by simp) (by rw [h]; rfl)
    · split
      · rename_i hlost
        dsimp only
        split
        · exact .finished (e := .queueClosed) (m := p.mailbox) (g := false) (by simp [gone, h])
            (.inl (by simp)) rfl (by simp) (by simp)
        · exact .sealClosed h hlost
      · exact pollSelectCommand_step h

theorem pollSticky_step {fail : TerminalEventDelivery} (h : p.pc = .sticky fail) :
    PollStep p (p.pollSticky fail) := by
  unfold pollSticky
  split
  · rename_i hseal
    exact .sealTaken (g := false) hseal (by simp) (by rw [h]; rfl)
  · split
    · exact .finished (m := p.mailbox) (g := false) (by simp [gone, h]) (.inr (by rw [h]; rfl)) rfl
        (by simp) (by simp)
    · exact .idle

/-- The send of any wait but the last. -/
theorem pollFlight_step {wait : InFlight Body → PublisherPc Body} {g : Bool}
    {land : PublisherPc Body} {fail : TerminalEventDelivery → PublisherPc Body}
    {done : EventPublisher Body → Except TerminalEventDelivery Unit → EventPublisher Body}
    (hflight : p.pc.flight? = some f) (hmay : p.MayDeliver)
    (hwait : ∀ f, p.pc.refly f = wait f) (hland : p.pc.landed = some land)
    (hfail : ∀ e, p.pc.failing e = some (fail e))
    (hnarrows : g = true → p.gate = true)
    (hok : ∀ q : EventPublisher Body, q.gate = p.gate →
      done q (.ok ()) = { q with gate := g, pc := land })
    (herr : ∀ (q : EventPublisher Body) e, q.gate = p.gate →
      done q (.error e) = { q with gate := g, pc := fail e }) :
    PollStep p (p.pollFlight f wait done) := by
  obtain ⟨m, send, hm, heq⟩ | ⟨m, hm, heq⟩ | ⟨m, e, hm, he, heq⟩ :=
    p.pollFlight_cases f wait done
  · rw [heq, goto, ← hwait]
    exact .pending hflight hm
  · have hgate : ({ p with mailbox := m }.commit f).gate = p.gate := by
      obtain ⟨session, established, hcommit⟩ := commit_eq { p with mailbox := m } f
      rw [hcommit]
    rw [heq, hok _ hgate]
    exact .delivered hflight hmay hm hnarrows hland
  · rw [heq, herr _ e (by rfl)]
    exact .failed he hm hnarrows (hfail e)

theorem pollSendingDeadline_step {alive : Bool} (h : p.pc = .sending f alive)
    (hseal : alive = true → p.sealQueue = none) :
    PollStep p (p.pollSendingDeadline f alive) := by
  unfold pollSendingDeadline
  split
  · exact .failed (e := .deadlineExceeded) (m := p.mailbox.dropSend f.send) (by simp) (by simp) id
      (by rw [h]; rfl)
  · rename_i hlate
    exact pollFlight_step (g := p.gate) (by rw [h]; rfl)
      (by simp only [MayDeliver, h]; exact ⟨Nat.lt_of_not_le hlate, hseal⟩)
      (fun f => by rw [h]; rfl) (by rw [h]; rfl) (fun e => by rw [h]; rfl) id
      (fun q hq => by rw [← hq]; rfl) (fun q e hq => by rw [← hq]; rfl)

theorem pollSending_step {alive : Bool} (h : p.pc = .sending f alive) :
    PollStep p (p.pollSending f alive) := by
  unfold pollSending
  split
  · rename_i halive
    subst halive
    split
    · rename_i hseal
      exact .sealTaken hseal id (by rw [h]; rfl)
    · rename_i hseal
      split
      · rename_i hlost
        exact .sealDead h hlost
      · exact pollSendingDeadline_step h (fun _ => hseal)
  · rename_i halive
    exact pollSendingDeadline_step h (fun hc => absurd hc halive)

theorem pollSealedSending_step {cmd : SealCommand} (h : p.pc = .sealedSending f cmd) :
    PollStep p (p.pollSealedSending f cmd) := by
  unfold pollSealedSending
  split
  · exact .failed (e := .deadlineExceeded) (m := p.mailbox.dropSend f.send) (g := false) (by simp)
      (by simp) (by simp) (by rw [h]; rfl)
  · rename_i hlate
    exact pollFlight_step (g := false) (by rw [h]; rfl)
      (by simp only [MayDeliver, h]; exact Nat.lt_of_not_le hlate)
      (fun f => by rw [h]; rfl) (by rw [h]; rfl) (fun e => by rw [h]; rfl) (by simp)
      (fun q hq => rfl) (fun q e hq => rfl)

theorem pollFence_step {cmd : SealCommand} (h : p.pc = .fence cmd) :
    PollStep p (p.pollFence cmd) := by
  unfold pollFence
  split
  · exact .failed (e := .deadlineExceeded) (m := p.mailbox) (by simp) rfl id (by rw [h]; rfl)
  · split
    · rename_i hqueue
      exact takeCommand_step hqueue (by rw [h]; rfl) (fun f => by rw [h]; rfl)
    · rename_i hempty
      split
      · rename_i hlost
        exact .ending h hempty hlost
      · exact .idle

theorem pollFenceSending_step {cmd : SealCommand} (h : p.pc = .fenceSending f cmd) :
    PollStep p (p.pollFenceSending f cmd) := by
  unfold pollFenceSending
  split
  · exact .failed (e := .deadlineExceeded) (m := p.mailbox.dropSend f.send) (by simp) (by simp) id
      (by rw [h]; rfl)
  · rename_i hlate
    exact pollFlight_step (g := p.gate) (by rw [h]; rfl)
      (by simp only [MayDeliver, h]; exact Nat.lt_of_not_le hlate)
      (fun f => by rw [h]; rfl) (by rw [h]; rfl) (fun e => by rw [h]; rfl) id
      (fun q hq => by rw [← hq]; rfl) (fun q e hq => by rw [← hq]; rfl)

theorem pollDraining_step {cmd : SealCommand} {fail : TerminalEventDelivery}
    (h : p.pc = .draining cmd fail) : PollStep p (p.pollDraining cmd fail) := by
  have hfail : p.pc.fail? = some fail := by rw [h]; rfl
  have hseal : p.pc.seal?.isSome = true := by rw [h]; rfl
  have halive : p.gone = false := by simp [gone, h]
  unfold pollDraining
  split
  · exact .finished (m := p.mailbox) halive (.inr hfail) rfl id (fun _ => hseal)
  · split
    · rename_i hqueue
      exact .discarded hfail hqueue
    · split
      · exact .finished (m := p.mailbox) halive (.inr hfail) rfl id (fun _ => hseal)
      · exact .idle

theorem pollEnding_step {cmd : SealCommand} (h : p.pc = .ending f cmd) :
    PollStep p (p.pollEnding f cmd) := by
  have hseal : p.pc.seal?.isSome = true := by rw [h]; rfl
  have halive : p.gone = false := by simp [gone, h]
  unfold pollEnding
  split
  · exact .finished (e := .deadlineExceeded) (m := p.mailbox.dropSend f.send) halive (.inl (by simp))
      (by simp) id (fun _ => hseal)
  · rename_i hlate
    obtain ⟨m, send, hm, heq⟩ | ⟨m, hm, heq⟩ | ⟨m, e, hm, he, heq⟩ :=
      p.pollFlight_cases f (.ending · cmd) _
    · rw [heq, goto, show PublisherPc.ending { f with send } cmd = p.pc.refly { f with send } by
        rw [h]; rfl]
      exact .pending (by rw [h]; rfl) hm
    · rw [heq]
      exact .ended h (by simp only [MayDeliver, h]; exact Nat.lt_of_not_le hlate) hm
    · rw [heq]
      exact .finished halive (.inl he) hm id (fun _ => hseal)

/-- **A poll does one of the things listed.** -/
theorem poll_cases (h : p.poll = some p') : PollStep p p' := by
  unfold poll at h
  split at h
  · rename_i hpc; cases h; exact pollSelect_step hpc
  · rename_i hpc; cases h; exact pollSticky_step hpc
  · rename_i hpc; cases h; exact pollSending_step hpc
  · rename_i hpc; cases h; exact pollSealedSending_step hpc
  · rename_i hpc; cases h; exact pollFence_step hpc
  · rename_i hpc; cases h; exact pollFenceSending_step hpc
  · rename_i hpc; cases h; exact pollDraining_step hpc
  · rename_i hpc; cases h; exact pollEnding_step hpc
  · cases h

end EventPublisher

/-! ## What the surroundings can do -/

/-- **The outcomes of a step that is neither a poll nor an abort**, the finalizer's
apart from the others. -/
inductive SideStep (p : EventPublisher Body) : Bool → EventPublisher Body → Prop where
  | mail {m : Mailbox Body} (mail : m.delivered = p.mailbox.delivered) :
      SideStep p false { p with mailbox := m }
  | tick (elapsed : Nat) : SideStep p false { p with now := p.now + elapsed }
  | admitted {cmd : EventPublisherCommand Body} (opened : p.gate = true)
      (ordinary : cmd.isOrdinary = true) : SideStep p false { p with parked := p.parked ++ [cmd] }
  | unparked {l : List (EventPublisherCommand Body)} (fewer : l.Sublist p.parked) :
      SideStep p false { p with parked := l }
  | enqueued {cmd : EventPublisherCommand Body} {l : List (EventPublisherCommand Body)}
      (member : cmd ∈ p.parked) (fewer : l.Sublist p.parked) (alive : p.gone = false) :
      SideStep p false
        { p with parked := l, queue := p.queue ++ [cmd], accepted := p.accepted ++ [cmd] }
  | closed : SideStep p true { p with gate := false }
  | sealed {cmd : SealCommand} (sender : p.sealTx = true) (alive : p.gone = false)
      (free : p.sealQueue = none) : SideStep p true { p with sealQueue := some cmd }
  | unsealed : SideStep p true { p with sealTx := false }

namespace EventPublisher

/-- **A step is a poll, an abort or one of the side steps.** -/
theorem step_cases {a : PublisherAction Body} (h : step a p = some p') :
    (p.gone = false ∧ PollStep p p') ∨ (p.gone = false ∧ p' = p.abort) ∨
      SideStep p a.isFinalizers p' := by
  cases a with
  | poll =>
      refine .inl ⟨?_, poll_cases h⟩
      unfold gone
      split
      · rename_i r hpc
        rw [step, poll, hpc] at h
        cases h
      · rfl
  | abort =>
      simp only [step] at h
      split at h
      · cases h
      · rename_i hgone
        cases h
        exact .inr (.inl ⟨by simpa using hgone, rfl⟩)
  | send cmd =>
      simp only [step] at h
      split at h
      · rename_i hopen
        cases h
        rw [Bool.and_eq_true] at hopen
        exact .inr (.inr (.admitted hopen.1 hopen.2))
      · cases h
  | enqueue n =>
      simp only [step] at h
      split at h
      · rename_i cmd hcmd
        have hfewer : (p.parked.eraseIdx n).Sublist p.parked := List.eraseIdx_sublist _ _
        split at h
        · cases h
          exact .inr (.inr (.unparked hfewer))
        · rename_i hgone
          split at h
          · cases h
            exact .inr (.inr (.enqueued (List.mem_of_getElem? hcmd) hfewer
              (by simpa [gone] using hgone)))
          · cases h
      · cases h
  | withdraw n =>
      cases h
      exact .inr (.inr (.unparked (List.eraseIdx_sublist _ _)))
  | closeGate =>
      cases h
      exact .inr (.inr .closed)
  | sendSeal cmd =>
      simp only [step] at h
      split at h
      · rename_i hfree
        cases h
        simp only [Bool.and_eq_true, Bool.not_eq_true', Option.isNone_iff_eq_none] at hfree
        exact .inr (.inr (.sealed hfree.1.1 hfree.1.2 hfree.2))
      · cases h
  | dropSeal =>
      cases h
      exact .inr (.inr .unsealed)
  | hostRecv =>
      simp only [step, Option.map_eq_some_iff] at h
      obtain ⟨m, hm, rfl⟩ := h
      exact .inr (.inr (.mail (Mailbox.recv_delivered hm)))
  | hostDrop =>
      cases h
      exact .inr (.inr (.mail (by simp)))
  | tick elapsed =>
      cases h
      exact .inr (.inr (.tick elapsed))

/-- An abort only drops the send. -/
theorem abort_eq (p : EventPublisher Body) : ∃ m, m.delivered = p.mailbox.delivered ∧
    p.abort = { p with mailbox := m, pc := .returned none } := by
  cases hf : p.pc.flight? with
  | none => exact ⟨p.mailbox, rfl, by simp [abort, hf, goto]⟩
  | some f => exact ⟨p.mailbox.dropSend f.send, by simp, by simp [abort, hf, goto, abandon]⟩

end EventPublisher

end Monoloop.Publisher
