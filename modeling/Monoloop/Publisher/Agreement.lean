import Monoloop.Lifecycle.Supervisor
import Monoloop.Publisher.Delivery
import Monoloop.Publisher.Sequencing

/-!
# The completion and the event stream agree

The finalizer and the publisher share one deadline but watch it separately. The
finalizer gives up only after the seal's deadline, and from then on the
publisher delivers nothing: it either holds the seal, whose sleep comes before
every send, or finds it in its channel, which comes before everything.
-/

namespace Monoloop.Publisher

open Lifecycle (LedgerEntry FinalizerPc FinalizerSnapshot Runtime sampleChannel sampleTransaction)
open Transition (System always)

variable {Body : Type} {p p' : EventPublisher Body}

/-! ## The publisher and its seal -/

namespace PublisherPc

variable {pc pc' : PublisherPc Body} {f : InFlight Body} {cmd : SealCommand}
  {e : TerminalEventDelivery}

theorem refly_seal : (pc.refly f).seal? = pc.seal? := by
  cases pc <;> rfl

theorem sealedBy_seal (h : pc.sealedBy cmd = some pc') : pc.seal? = none ∧ pc'.seal? = some cmd := by
  unfold sealedBy at h
  split at h <;> cases h <;> exact ⟨rfl, rfl⟩

theorem flying_seal (h : pc.flying f = some pc') : pc'.seal? = pc.seal? := by
  unfold flying at h
  split at h <;> cases h <;> rfl

theorem landed_seal (h : pc.landed = some pc') : pc'.seal? = pc.seal? := by
  unfold landed at h
  split at h <;> cases h <;> rfl

theorem failing_seal (h : pc.failing e = some pc') : pc'.seal? = pc.seal? := by
  unfold failing at h
  split at h <;> cases h <;> rfl

/-- The wait has given up on the seal channel. -/
def deaf : PublisherPc Body → Bool
  | .sending _ alive => !alive
  | _ => false

/-- Only the enqueue of the terminal event. -/
def isEnding : PublisherPc Body → Bool
  | .ending _ _ => true
  | _ => false

theorem refly_deaf : (pc.refly f).deaf = pc.deaf := by
  cases pc <;> rfl

theorem sealedBy_plain (h : pc.sealedBy cmd = some pc') :
    pc'.deaf = false ∧ pc'.isEnding = false ∧ ∀ r, pc' ≠ .returned r := by
  unfold sealedBy at h
  split at h <;> cases h <;> exact ⟨rfl, rfl, nofun⟩

theorem flying_plain (h : pc.flying f = some pc') :
    pc'.deaf = false ∧ pc'.isEnding = false ∧ ∀ r, pc' ≠ .returned r := by
  unfold flying at h
  split at h <;> cases h <;> exact ⟨rfl, rfl, nofun⟩

theorem landed_plain (h : pc.landed = some pc') :
    pc'.deaf = false ∧ pc'.isEnding = false ∧ ∀ r, pc' ≠ .returned r := by
  unfold landed at h
  split at h <;> cases h <;> exact ⟨rfl, rfl, nofun⟩

theorem failing_plain (h : pc.failing e = some pc') :
    pc'.deaf = false ∧ pc'.isEnding = false ∧ ∀ r, pc' ≠ .returned r := by
  unfold failing at h
  split at h <;> cases h <;> exact ⟨rfl, rfl, nofun⟩

end PublisherPc

/-- The terminal event that answers a seal. -/
def SealCommand.answer (cmd : SealCommand) (session : SessionId) (sequence : Nat) :
    TransactionEndEvent :=
  { cmd.terminal with emittedEvents := sequence, sessionId := some session }

/-- What the publisher keeps about its seal. -/
structure SealInv (p : EventPublisher Body) : Prop where
  /-- It stops listening only to a channel that is closed for good. -/
  dead : p.gone = false → p.sealClosed = true ∨ p.pc.deaf = true →
    p.sealTx = false ∧ p.sealQueue = none
  sealed : p.gone = false → p.sealed = p.pc.seal?
  ending : ∀ f cmd, p.pc = .ending f cmd →
    f.event.payload = .endedEvent (cmd.answer f.event.sessionId f.event.sequence)
  published : ∀ r, p.pc = .returned (some r) → r.delivery = .published →
    p.reply = some r ∧
    ∃ cmd before last, p.sealed = some cmd ∧ p.mailbox.delivered = before ++ [last] ∧
      last.payload = .endedEvent (cmd.answer last.sessionId r.lastSequence)

/-- A step to a wait before the terminal event. -/
theorem SealInv.plain
    (hdead : p'.sealClosed = true ∨ p'.pc.deaf = true → p'.sealTx = false ∧ p'.sealQueue = none)
    (hsealed : p'.sealed = p'.pc.seal?) (hending : p'.pc.isEnding = false)
    (hreturned : ∀ r, p'.pc ≠ .returned r) : SealInv p' where
  dead _ := hdead
  sealed _ := hsealed
  ending f cmd hpc := by
    rw [hpc] at hending
    cases hending
  published r hr := absurd hr (hreturned _)

/-- A step that returns; a report of success has to be right. -/
theorem SealInv.returned {r : Option TerminalPublicationResult} (hpc : p'.pc = .returned r)
    (hpublished : ∀ result, r = some result → result.delivery = .published →
      p'.reply = some result ∧
      ∃ cmd before last, p'.sealed = some cmd ∧ p'.mailbox.delivered = before ++ [last] ∧
        last.payload = .endedEvent (cmd.answer last.sessionId result.lastSequence)) :
    SealInv p' := by
  have hgone : p'.gone = false → False := by
    rw [EventPublisher.gone, hpc]
    intro hg
    cases hg
  refine ⟨fun hg => (hgone hg).elim, fun hg => (hgone hg).elim, fun f cmd hf => ?_,
    fun result hr => hpublished result ?_⟩
  · rw [hpc] at hf
    cases hf
  · rw [hpc] at hr
    cases hr
    rfl

/-- A step that leaves the wait and its events as they are. -/
theorem SealInv.frame (h : SealInv p) (hpc : p'.pc = p.pc) (hsealed : p'.sealed = p.sealed)
    (hreply : p'.reply = p.reply)
    (hmail : p'.mailbox.delivered = p.mailbox.delivered)
    (hdead : p.gone = false → p'.sealClosed = true ∨ p'.pc.deaf = true →
      p'.sealTx = false ∧ p'.sealQueue = none) : SealInv p' where
  dead hg := hdead (by rwa [EventPublisher.gone, hpc] at hg)
  sealed hg := by
    rw [EventPublisher.gone, hpc] at hg
    rw [hsealed, hpc, h.sealed hg]
  ending f cmd hf := h.ending f cmd (hpc ▸ hf)
  published r hr hd := by
    rw [hsealed, hmail, hreply]
    exact h.published r (hpc ▸ hr) hd

theorem SealInv.poll (hstr : Streamed p) (h : SealInv p) (hs : PollStep p p') : SealInv p' := by
  cases hs with
  | idle => exact h
  | @pending f send m flight mail =>
      have halive := alive_of_flight flight
      refine ⟨?_, fun _ => ?_, fun g cmd hg => ?_, fun r hr => ?_⟩
      · rw [PublisherPc.refly_deaf]
        exact fun _ => h.dead halive
      · rw [PublisherPc.refly_seal]
        exact h.sealed halive
      · cases hpc : p.pc with
        | ending f₀ cmd₀ =>
            rw [hpc] at flight
            cases flight
            simp only [hpc, PublisherPc.refly, PublisherPc.ending.injEq] at hg
            rw [← hg.1, ← hg.2]
            exact (h.ending _ _ hpc :)
        | _ => simp [hpc, PublisherPc.refly] at hg
      · cases hpc : p.pc with
        | returned r₀ =>
            rw [hpc] at flight
            cases flight
        | _ => simp [hpc, PublisherPc.refly] at hr
  | sealTaken queued narrows next =>
      obtain ⟨hdeaf, hending, hreturned⟩ := PublisherPc.sealedBy_plain next
      refine .plain (fun hd => ?_) (PublisherPc.sealedBy_seal next).2.symm hending hreturned
      rcases hd with hclosed | hdeaf'
      · rw [(h.dead (alive_of next (fun _ => rfl)) (.inl hclosed)).2] at queued
        cases queued
      · rw [hdeaf] at hdeaf'
        cases hdeaf'
  | sealClosed at_ lost =>
      refine h.frame rfl rfl rfl rfl (fun _ _ => ?_)
      simpa [EventPublisher.sealDisconnected] using lost
  | sealDead at_ lost =>
      refine .plain (fun _ => ?_) ?_ rfl (by simp)
      · simpa [EventPublisher.sealDisconnected] using lost
      · rw [show p.sealed = p.pc.seal? from h.sealed (by simp [EventPublisher.gone, at_]), at_]
        rfl
  | cmdClosed => exact h.frame rfl rfl rfl rfl h.dead
  | ignored => exact h.frame rfl rfl rfl rfl h.dead
  | discarded => exact h.frame rfl rfl rfl rfl h.dead
  | establishing queued first next =>
      obtain ⟨hdeaf, hending, hreturned⟩ := PublisherPc.flying_plain next
      have halive : p.gone = false := alive_of next (fun _ => rfl)
      refine .plain (fun hd => h.dead halive (hd.imp_right fun hd' => ?_)) ?_ hending hreturned
      · rw [hdeaf] at hd'
        cases hd'
      · rw [PublisherPc.flying_seal next]
        exact h.sealed halive
  | publishing queued resolved next =>
      obtain ⟨hdeaf, hending, hreturned⟩ := PublisherPc.flying_plain next
      have halive : p.gone = false := alive_of next (fun _ => rfl)
      refine .plain (fun hd => h.dead halive (hd.imp_right fun hd' => ?_)) ?_ hending hreturned
      · rw [hdeaf] at hd'
        cases hd'
      · rw [PublisherPc.flying_seal next]
        exact h.sealed halive
  | @delivered f m g pc flight may mail narrows next =>
      obtain ⟨session, established, hcommit⟩ := EventPublisher.commit_eq { p with mailbox := m } f
      rw [hcommit]
      obtain ⟨hdeaf, hending, hreturned⟩ := PublisherPc.landed_plain next
      have halive : p.gone = false := alive_of_flight flight
      refine .plain (fun hd => h.dead halive (hd.imp_right fun hd' => ?_)) ?_ hending hreturned
      · rw [hdeaf] at hd'
        cases hd'
      · rw [PublisherPc.landed_seal next]
        exact h.sealed halive
  | failed fails mail narrows next =>
      obtain ⟨hdeaf, hending, hreturned⟩ := PublisherPc.failing_plain next
      have halive : p.gone = false := alive_of next (fun _ => rfl)
      refine .plain (fun hd => h.dead halive (hd.imp_right fun hd' => ?_)) ?_ hending hreturned
      · rw [hdeaf] at hd'
        cases hd'
      · rw [PublisherPc.failing_seal next]
        exact h.sealed halive
  | @ending cmd at_ empty lost =>
      have halive : p.gone = false := by simp [EventPublisher.gone, at_]
      refine ⟨fun _ hd => h.dead halive (hd.imp_right fun hd' => ?_), fun _ => ?_,
        fun f cmd' hf => ?_, fun r hr => ?_⟩
      · cases hd'
      · rw [show (p.beginEnded cmd).sealed = p.pc.seal? from h.sealed halive, at_]
        rfl
      · cases hf
        rfl
      · cases hr
  | @ended f cmd m at_ may mail =>
      obtain ⟨session, established, hcommit⟩ := EventPublisher.commit_eq { p with mailbox := m } f
      rw [hcommit]
      refine .returned rfl (fun r hr _ => ?_)
      cases hr
      refine ⟨rfl, cmd, p.mailbox.delivered, f.event, ?_, mail, h.ending f cmd at_⟩
      rw [show p.sealed = p.pc.seal? from h.sealed (by simp [EventPublisher.gone, at_]), at_]
      rfl
  | @finished e m g _ _ replies alive fails mail narrows replied =>
      refine .returned rfl (fun r hr hd => ?_)
      cases hr
      rcases fails with hne | hfail
      · exact absurd hd hne
      · exact absurd hd (hstr.standing.failed hfail)

theorem SealInv.side (h : SealInv p) {fin : Bool} (hs : SideStep p fin p') : SealInv p' := by
  cases hs with
  | mail mail => exact h.frame rfl rfl rfl mail h.dead
  | sealed sender alive free =>
      refine h.frame rfl rfl rfl rfl (fun hg hd => ?_)
      rw [(h.dead hg hd).1] at sender
      cases sender
  | unsealed => exact h.frame rfl rfl rfl rfl (fun hg hd => ⟨rfl, (h.dead hg hd).2⟩)
  | _ => exact h.frame rfl rfl rfl rfl h.dead

theorem sealInv_reach {ok : EventPublisher Body → PublisherAction Body → Prop}
    (h : publisher.Reach ok p) : SealInv p := by
  refine h.invariant (P := SealInv) ?_ ?_
  · rintro p ⟨estimate, tx, channel, session, sender, deadline, now, rfl⟩
    exact .plain (fun hd => by cases hd with | inl h => cases h | inr h => cases h) rfl rfl nofun
  · intro p a p' hr hinv _ hs
    obtain ⟨_, hpoll⟩ | ⟨_, rfl⟩ | hside := EventPublisher.step_cases hs
    · exact hinv.poll (streamed_reach hr) hpoll
    · obtain ⟨m, hm, heq⟩ := p.abort_eq
      rw [heq]
      refine .returned rfl (fun r hr => ?_)
      cases hr
    · exact hinv.side hside

/-- A terminal event is in the mailbox. -/
def EventPublisher.HasEnded (p : EventPublisher Body) : Prop :=
  ∃ event ∈ p.mailbox.delivered, ∃ t, event.payload = .endedEvent t

/-- It got there with the reply that reports it. -/
theorem EventPublisher.HasEnded.replied (h : p.HasEnded) (hstr : Streamed p) (hinv : SealInv p) :
    ∃ r, p.reply = some r ∧ r.delivery = .published ∧ p.sealed.isSome = true := by
  obtain ⟨event, hmem, t, ht⟩ := h
  have hstream : .endedEvent t ∈ p.stream := by
    rw [← ht]
    exact List.mem_map_of_mem hmem
  have hnever : ¬ p.stream <+: emitted p.taken := fun hearlier =>
    hstr.not_ended t (hearlier.subset hstream)
  have hstanding := hstr.standing
  cases hpc : p.pc with
  | returned r =>
      rw [hpc] at hstanding
      cases r with
      | none => exact (hnever hstanding).elim
      | some r =>
          by_cases hd : r.delivery = .published
          · obtain ⟨hreply, cmd, _, _, hsealed, _⟩ := hinv.published r hpc hd
            exact ⟨r, hreply, hd, by rw [hsealed]; rfl⟩
          · simp only [EventPublisher.Standing, if_neg hd] at hstanding
            exact (hnever hstanding.2).elim
  | _ =>
      rw [hpc] at hstanding
      exact (hnever (hstanding.isPrefix (by simp))).elim

/-! ## After the seal's deadline -/

/-- The seal was sent: it waits, was taken, or went down with the publisher. -/
def SealPending (p : EventPublisher Body) (cmd : SealCommand) : Prop :=
  p.sealed = some cmd ∨ (p.sealed = none ∧ (p.sealQueue = some cmd ∨ p.gone = true))

/-- Nothing will be delivered any more. -/
def Expired (p : EventPublisher Body) : Prop :=
  p.gone = true ∨ ∃ cmd, cmd.deadline ≤ p.now ∧ SealPending p cmd

section Expired

variable {a : PublisherAction Body} {cmd : SealCommand}

/-- A poll leaves the seal channel alone, or takes the seal out of it. -/
theorem PollStep.sealed_cases (hs : PollStep p p') :
    (p'.sealed = p.sealed ∧ p'.sealQueue = p.sealQueue) ∨
      ∃ cmd, p.sealQueue = some cmd ∧ p.pc.seal? = none ∧ p'.sealed = some cmd := by
  cases hs with
  | sealTaken queued narrows next =>
      exact .inr ⟨_, queued, (PublisherPc.sealedBy_seal next).1, rfl⟩
  | @delivered f m g pc flight may mail narrows next =>
      obtain ⟨session, established, hcommit⟩ := EventPublisher.commit_eq { p with mailbox := m } f
      rw [hcommit]
      exact .inl ⟨rfl, rfl⟩
  | @ended f cmd m at_ may mail =>
      obtain ⟨session, established, hcommit⟩ := EventPublisher.commit_eq { p with mailbox := m } f
      rw [hcommit]
      exact .inl ⟨rfl, rfl⟩
  | _ => exact .inl ⟨rfl, rfl⟩

theorem PollStep.now_eq (hs : PollStep p p') : p'.now = p.now := by
  cases hs with
  | @delivered f m g pc flight may mail narrows next =>
      obtain ⟨session, established, hcommit⟩ := EventPublisher.commit_eq { p with mailbox := m } f
      rw [hcommit]
  | @ended f cmd m at_ may mail =>
      obtain ⟨session, established, hcommit⟩ := EventPublisher.commit_eq { p with mailbox := m } f
      rw [hcommit]
      rfl
  | _ => rfl

theorem PollStep.delivered_eq (hs : PollStep p p') (hmay : ¬ p.MayDeliver) :
    p'.mailbox.delivered = p.mailbox.delivered := by
  cases hs with
  | delivered flight may => exact absurd may hmay
  | ended at_ may => exact absurd may hmay
  | pending flight mail => exact mail
  | failed fails mail => exact mail
  | finished alive fails mail => exact mail
  | _ => rfl

theorem SideStep.gone_eq {fin : Bool} (hs : SideStep p fin p') : p'.gone = p.gone := by
  cases hs <;> rfl

theorem SideStep.now_le {fin : Bool} (hs : SideStep p fin p') : p.now ≤ p'.now := by
  cases hs with
  | tick elapsed => exact Nat.le_add_right _ _
  | _ => exact Nat.le_refl _

theorem SideStep.delivered_eq {fin : Bool} (hs : SideStep p fin p') :
    p'.mailbox.delivered = p.mailbox.delivered := by
  cases hs with
  | mail mail => exact mail
  | _ => rfl

theorem gone_step (h : EventPublisher.step a p = some p') (hgone : p.gone = true) :
    p'.gone = true := by
  obtain ⟨halive, _⟩ | ⟨halive, _⟩ | hside := EventPublisher.step_cases h
  · exact (gone_alive_absurd hgone halive).elim
  · exact (gone_alive_absurd hgone halive).elim
  · rw [hside.gone_eq, hgone]

theorem SealPending.step (hinv : SealInv p) (h : EventPublisher.step a p = some p')
    (hp : SealPending p cmd) : SealPending p' cmd := by
  obtain ⟨halive, hpoll⟩ | ⟨halive, rfl⟩ | hside := EventPublisher.step_cases h
  · -- a live publisher holds the seal or finds it in its channel
    obtain ⟨hsealed, hqueue⟩ | ⟨cmd', hqueue, hnone, hsealed⟩ := hpoll.sealed_cases
    · rcases hp with htaken | ⟨hfree, hqueued | hgone⟩
      · exact .inl (hsealed.trans htaken)
      · exact .inr ⟨hsealed.trans hfree, .inl (hqueue.trans hqueued)⟩
      · exact (gone_alive_absurd hgone halive).elim
    · have hfree : p.sealed = none := (hinv.sealed halive).trans hnone
      rcases hp with htaken | ⟨_, hqueued | hgone⟩
      · rw [hfree] at htaken
        cases htaken
      · rw [hqueue] at hqueued
        exact .inl (hsealed.trans hqueued)
      · exact (gone_alive_absurd hgone halive).elim
  · obtain ⟨m, hm, heq⟩ := p.abort_eq
    rw [heq]
    rcases hp with htaken | ⟨hfree, _⟩
    · exact .inl htaken
    · exact .inr ⟨hfree, .inr rfl⟩
  · generalize a.isFinalizers = fin at hside
    cases hside with
    | sealed sender alive free =>
        rcases hp with htaken | ⟨hfree, hqueued | hgone⟩
        · exact .inl htaken
        · rw [free] at hqueued
          cases hqueued
        · rw [alive] at hgone
          cases hgone
    | _ => exact hp

/-- A taken seal stays taken. -/
theorem sealed_step (hinv : SealInv p) (h : EventPublisher.step a p = some p')
    (hsealed : p.sealed = some cmd) : p'.sealed = some cmd := by
  obtain ⟨halive, hpoll⟩ | ⟨_, rfl⟩ | hside := EventPublisher.step_cases h
  · obtain ⟨hsame, _⟩ | ⟨cmd', _, hnone, _⟩ := hpoll.sealed_cases
    · exact hsame.trans hsealed
    · rw [hinv.sealed halive, hnone] at hsealed
      cases hsealed
  · obtain ⟨m, hm, heq⟩ := p.abort_eq
    rw [heq]
    exact hsealed
  · generalize a.isFinalizers = fin at hside
    cases hside <;> exact hsealed

theorem now_le_step (h : EventPublisher.step a p = some p') : p.now ≤ p'.now := by
  obtain ⟨_, hpoll⟩ | ⟨_, rfl⟩ | hside := EventPublisher.step_cases h
  · exact Nat.le_of_eq hpoll.now_eq.symm
  · obtain ⟨m, hm, heq⟩ := p.abort_eq
    rw [heq]
  · exact hside.now_le

theorem Expired.step (hinv : SealInv p) (h : EventPublisher.step a p = some p')
    (he : Expired p) : Expired p' := by
  rcases he with hgone | ⟨cmd, hlate, hp⟩
  · exact .inl (gone_step h hgone)
  · exact .inr ⟨cmd, Nat.le_trans hlate (now_le_step h), hp.step hinv h⟩

/-- Past the deadline every wait tries its sleep or the seal before a send. -/
theorem Expired.not_may (hinv : SealInv p) (halive : p.gone = false) (he : Expired p) :
    ¬ p.MayDeliver := by
  intro hmay
  rcases he with hgone | ⟨cmd, hlate, hp⟩
  · exact (gone_alive_absurd hgone halive).elim
  have hsealed := hinv.sealed halive
  -- a wait under the seal has that seal's deadline
  have hheld : ∀ cmd', p.pc.seal? = some cmd' → p.now < cmd'.deadline → False := by
    intro cmd' hseal hlt
    rw [hseal] at hsealed
    rcases hp with htaken | ⟨hfree, _⟩
    · cases hsealed.symm.trans htaken
      omega
    · rw [hsealed] at hfree
      cases hfree
  cases hpc : p.pc with
  | sending f alive =>
      simp only [EventPublisher.MayDeliver, hpc] at hmay
      have hqueue : p.sealQueue = none := by
        cases alive with
        | true => exact hmay.2 rfl
        | false => exact (hinv.dead halive (.inr (by rw [hpc]; rfl))).2
      rw [hpc] at hsealed
      rcases hp with htaken | ⟨_, hqueued | hgone⟩
      · cases hsealed.symm.trans htaken
      · cases hqueue.symm.trans hqueued
      · exact (gone_alive_absurd hgone halive).elim
  | sealedSending f cmd' | fenceSending f cmd' | ending f cmd' =>
      simp only [EventPublisher.MayDeliver, hpc] at hmay
      exact hheld cmd' (by rw [hpc]; rfl) hmay
  | _ => simp only [EventPublisher.MayDeliver, hpc] at hmay

/-- **An expired publisher delivers nothing.** -/
theorem Expired.delivered_eq (hinv : SealInv p) (h : EventPublisher.step a p = some p')
    (he : Expired p) : p'.mailbox.delivered = p.mailbox.delivered := by
  obtain ⟨halive, hpoll⟩ | ⟨_, rfl⟩ | hside := EventPublisher.step_cases h
  · exact hpoll.delivered_eq (he.not_may hinv halive)
  · obtain ⟨m, hm, heq⟩ := p.abort_eq
    rw [heq]
    exact hm
  · exact hside.delivered_eq

end Expired

/-! ## The finalizer beside the publisher -/

variable {s s' : Delivery Body} {a : DeliveryAction Body}

namespace EventPublisher

/-- No seal has been sent. -/
structure Unsealed (p : EventPublisher Body) : Prop where
  sender : p.sealTx = true
  queue : p.sealQueue = none
  sealed : p.sealed = none

/-- The last event is the end, but for the session it names; that of `terminal`
was in the seal. -/
def EndsWith (p : EventPublisher Body) (terminal : TransactionEndEvent) : Prop :=
  ∃ before last cmd, p.mailbox.delivered = before ++ [last] ∧
    last.payload = .endedEvent { terminal with sessionId := some last.sessionId } ∧
    p.sealed = some cmd ∧ cmd.terminal.sessionId = terminal.sessionId

/-- What a reported delivery says about the stream: the terminal event is its
last, or is not in it. -/
structure Reports (p : EventPublisher Body) (delivery : TerminalEventDelivery)
    (terminal : TransactionEndEvent) : Prop where
  ends : delivery = .published → p.EndsWith terminal
  only : p.HasEnded → delivery = .published

/-- It only reads the mailbox and the seal. -/
theorem Reports.congr {d : TerminalEventDelivery} {terminal : TransactionEndEvent}
    (h : p.Reports d terminal) (hsame : p'.mailbox.delivered = p.mailbox.delivered)
    (hsealed : ∀ cmd, p.sealed = some cmd → p'.sealed = some cmd) : p'.Reports d terminal := by
  refine ⟨fun hd => ?_, fun hended => h.only ?_⟩
  · obtain ⟨before, last, cmd, hdel, hlast, hseal, hsession⟩ := h.ends hd
    exact ⟨before, last, cmd, hsame.trans hdel, hlast, hsealed cmd hseal, hsession⟩
  · unfold HasEnded at hended ⊢
    rwa [hsame] at hended

end EventPublisher

namespace Delivery

/-- Nothing will be delivered any more, or ever. -/
def Quiet (s : Delivery Body) : Prop := s.started = false ∨ Expired s.publisher

/-- The seal that a snapshot stands for. -/
def endOf (s : Delivery Body) (snapshot : FinalizerSnapshot) (lastSeq : Nat) :
    TransactionEndEvent :=
  endEvent s.row.transactionId snapshot.channelId snapshot.sessionId snapshot.kind lastSeq

/-- What is known at each point of the finalizer. -/
def Stage (s : Delivery Body) : Option FinalizerPc → Prop
  | none =>
      (s.row.terminal = none → s.publisher.Unsealed ∧ s.row.publisherSealTx = s.started ∧
        s.completion = none) ∧
      ∀ c, s.completion = some c → s.Quiet ∧ s.publisher.Reports c.terminalEventDelivery c.end
  | some (.spawned sealTx) =>
      s.publisher.Unsealed ∧ sealTx = s.started ∧ s.completion = none
  | some (.awaitingReply snapshot) => s.completion = none ∧
      ∃ cmd, cmd.terminal = s.endOf snapshot 0 ∧ cmd.deadline ≤ s.wakeAt ∧
        SealPending s.publisher cmd
  | some (.replied snapshot delivery lastSeq) | some (.publishing snapshot delivery lastSeq) =>
      s.completion = none ∧ s.Quiet ∧ s.publisher.Reports delivery (s.endOf snapshot lastSeq)

end Delivery

/-- **The delivery invariant.** -/
structure DeliveryInv (s : Delivery Body) : Prop where
  reach : publisher.Reach always s.publisher
  decided : s.finalizer.isSome = true → s.row.terminal.isSome = true
  stage : s.Stage s.finalizer

theorem DeliveryInv.init (h : delivery.init s) : DeliveryInv s := by
  obtain ⟨estimate, row, ports, deadline, now, budget, started, hfresh, rfl⟩ := h
  refine ⟨.init ⟨_, _, _, _, _, _, _, rfl⟩, nofun, fun _ => ⟨⟨rfl, rfl, rfl⟩, ?_, rfl⟩, nofun⟩
  cases started with
  | true => rfl
  | false => exact hfresh.unported.2

/-! ### The steps -/

namespace Delivery

/-- The publisher of a transaction that was never started only sees the clock. -/
structure PublisherMoves (s : Delivery Body) (b : PublisherAction Body)
    (p' : EventPublisher Body) : Prop where
  step : EventPublisher.step b s.publisher = some p'
  own : b.isFinalizers = false
  idle : s.started = false → p'.mailbox.delivered = s.publisher.mailbox.delivered

end Delivery

/-- **The outcomes of a step.** -/
inductive DeliveryStep (s : Delivery Body) : Delivery Body → Prop where
  | publisher {b : PublisherAction Body} {p' : EventPublisher Body}
      (moves : s.PublisherMoves b p') : DeliveryStep s { s with publisher := p' }
  | bound (key : SessionKey) :
      DeliveryStep s { s with row := { s.row with sessionKey := some key } }
  | decided (proposal : TerminalProposal) (force : Bool) :
      DeliveryStep s (s.acceptTerminal proposal force)
  | resumed {sealTx : Bool} (at_ : s.finalizer = some (.spawned sealTx)) :
      DeliveryStep s (s.resume sealTx)
  | replied {snapshot : FinalizerSnapshot} {s' : Delivery Body}
      (at_ : s.finalizer = some (.awaitingReply snapshot)) (ready : s.awaitReply snapshot = some s') :
      DeliveryStep s s'
  | settled {snapshot : FinalizerSnapshot} {d : TerminalEventDelivery} {n : Nat}
      (at_ : s.finalizer = some (.replied snapshot d n)) : DeliveryStep s (s.settle snapshot d n)
  | published {snapshot : FinalizerSnapshot} {d : TerminalEventDelivery} {n : Nat}
      {cleanup : CleanupStatus} (at_ : s.finalizer = some (.publishing snapshot d n)) :
      DeliveryStep s (s.publish snapshot d n cleanup)
  | aborted {pc : FinalizerPc} (at_ : s.finalizer = some pc) (awaits : pc.awaits = true) :
      DeliveryStep s
        { s with finalizer := none, publisher := { s.publisher with sealTx := false } }

theorem delivery_step (hs : Delivery.step a s = some s') : DeliveryStep s s' := by
  unfold Delivery.step at hs
  split at hs
  · -- `step` has a case of its own for the clock
    obtain ⟨p', hb, rfl⟩ := Option.map_eq_some_iff.mp hs
    refine .publisher ⟨hb, rfl, fun _ => ?_⟩
    cases hb
    rfl
  · split at hs
    · rename_i hguard
      obtain ⟨p', hb, rfl⟩ := Option.map_eq_some_iff.mp hs
      rw [Bool.and_eq_true, Bool.not_eq_true'] at hguard
      refine .publisher ⟨hb, hguard.2, fun hidle => ?_⟩
      rw [hguard.1] at hidle
      cases hidle
    · cases hs
  · cases hs
    exact .bound _
  · cases hs
    exact .decided _ _
  · split at hs
    · rename_i hpc
      cases hs
      exact .resumed hpc
    · cases hs
  · split at hs
    · rename_i hpc
      exact .replied hpc hs
    · cases hs
  · split at hs
    · rename_i hpc
      cases hs
      exact .settled hpc
    · cases hs
  · split at hs
    · rename_i hpc
      cases hs
      exact .published hpc
    · cases hs
  · split at hs
    · rename_i hpc
      split at hs
      · rename_i hawaits
        cases hs
        exact .aborted hpc hawaits
      · cases hs
    · cases hs

/-! ### Steps of the publisher -/

theorem PollStep.sealTx_eq (hs : PollStep p p') : p'.sealTx = p.sealTx := by
  cases hs with
  | @delivered f m g pc flight may mail narrows next =>
      obtain ⟨session, established, hcommit⟩ := EventPublisher.commit_eq { p with mailbox := m } f
      rw [hcommit]
  | @ended f cmd m at_ may mail =>
      obtain ⟨session, established, hcommit⟩ := EventPublisher.commit_eq { p with mailbox := m } f
      rw [hcommit]
      rfl
  | _ => rfl

/-- Without the finalizer nobody seals. -/
theorem EventPublisher.Unsealed.step {b : PublisherAction Body} (h : p.Unsealed)
    (hb : EventPublisher.step b p = some p') (hown : b.isFinalizers = false) : p'.Unsealed := by
  obtain ⟨hsender, hqueue, hsealed⟩ := h
  have hframe : p'.sealTx = p.sealTx → p'.sealQueue = p.sealQueue → p'.sealed = p.sealed →
      p'.Unsealed := fun h₁ h₂ h₃ => ⟨h₁.trans hsender, h₂.trans hqueue, h₃.trans hsealed⟩
  obtain ⟨_, hpoll⟩ | ⟨_, rfl⟩ | hside := EventPublisher.step_cases hb
  · obtain ⟨h₁, h₂⟩ | ⟨cmd, hqueued, _⟩ := hpoll.sealed_cases
    · exact hframe hpoll.sealTx_eq h₂ h₁
    · rw [hqueue] at hqueued
      cases hqueued
  · obtain ⟨m, hm, heq⟩ := p.abort_eq
    rw [heq] at hframe ⊢
    exact hframe rfl rfl rfl
  · rw [hown] at hside
    cases hside <;> exact hframe rfl rfl rfl

namespace Delivery

theorem PublisherMoves.delivered_eq {b : PublisherAction Body} (h : s.PublisherMoves b p')
    (hinv : SealInv s.publisher) (hquiet : s.Quiet) :
    p'.mailbox.delivered = s.publisher.mailbox.delivered := by
  rcases hquiet with hidle | hexpired
  · exact h.idle hidle
  · exact hexpired.delivered_eq hinv h.step

theorem Quiet.step {b : PublisherAction Body} (hquiet : s.Quiet) (h : s.PublisherMoves b p')
    (hinv : SealInv s.publisher) : { s with publisher := p' }.Quiet := by
  rcases hquiet with hidle | hexpired
  · exact .inl hidle
  · exact .inr (hexpired.step hinv h.step)

theorem Stage.publisherStep {b : PublisherAction Body} {pc : Option FinalizerPc} (h : s.Stage pc)
    (hb : s.PublisherMoves b p') (hinv : SealInv s.publisher) :
    { s with publisher := p' }.Stage pc := by
  cases pc with
  | none =>
      refine ⟨fun hterm => ?_, fun c hc => ?_⟩
      · obtain ⟨hunsealed, hsender, hcompletion⟩ := h.1 hterm
        exact ⟨hunsealed.step hb.step hb.own, hsender, hcompletion⟩
      · obtain ⟨hquiet, hends⟩ := h.2 c hc
        exact ⟨hquiet.step hb hinv, hends.congr (hb.delivered_eq hinv hquiet)
            (fun _ => sealed_step hinv hb.step)⟩
  | some pc =>
      cases pc with
      | spawned sealTx =>
          obtain ⟨hunsealed, hrest⟩ := h
          exact ⟨hunsealed.step hb.step hb.own, hrest⟩
      | awaitingReply snapshot =>
          obtain ⟨hcompletion, cmd, hterminal, hlate, hp⟩ := h
          exact ⟨hcompletion, cmd, hterminal, hlate, hp.step hinv hb.step⟩
      | replied snapshot d n | publishing snapshot d n =>
          obtain ⟨hcompletion, hquiet, hends⟩ := h
          exact ⟨hcompletion, hquiet.step hb hinv, hends.congr (hb.delivered_eq hinv hquiet)
            (fun _ => sealed_step hinv hb.step)⟩

/-- A row change that leaves the decision and the ports alone. -/
theorem Stage.rowStep {row : LedgerEntry} {pc : Option FinalizerPc} (h : s.Stage pc)
    (htx : row.transactionId = s.row.transactionId)
    (hterm : row.terminal = none →
      s.row.terminal = none ∧ row.publisherSealTx = s.row.publisherSealTx) :
    { s with row := row }.Stage pc := by
  have hend : ∀ snapshot n, { s with row := row }.endOf snapshot n = s.endOf snapshot n := by
    intro snapshot n
    simp only [endOf, htx]
  cases pc with
  | none =>
      refine ⟨fun hnone => ?_, h.2⟩
      obtain ⟨hold, hport⟩ := hterm hnone
      obtain ⟨hunsealed, hsender, hcompletion⟩ := h.1 hold
      exact ⟨hunsealed, hport.trans hsender, hcompletion⟩
  | some pc =>
      cases pc with
      | spawned sealTx =>
          exact h
      | awaitingReply snapshot =>
          obtain ⟨hcompletion, cmd, hterminal, hrest⟩ := h
          exact ⟨hcompletion, cmd, hterminal.trans (hend snapshot 0).symm, hrest⟩
      | replied snapshot d n | publishing snapshot d n =>
          obtain ⟨hcompletion, hquiet, hends⟩ := h
          refine ⟨hcompletion, hquiet, ?_⟩
          rw [hend]
          exact hends

end Delivery

/-! ### Steps of the finalizer -/

theorem reach_closeGate (h : publisher.Reach always p) (c : Bool) :
    publisher.Reach always (if c then p.closeGate else p) := by
  cases c with
  | true => exact h.step (a := .closeGate) trivial rfl
  | false => exact h

theorem reach_dropSeal (h : publisher.Reach always p) :
    publisher.Reach always { p with sealTx := false } :=
  h.step (a := .dropSeal) trivial rfl

theorem reach_sendSeal (h : publisher.Reach always p) (hsender : p.sealTx = true)
    (halive : ¬ p.gone = true) (hfree : p.sealQueue = none) (cmd : SealCommand) :
    publisher.Reach always { p with sealQueue := some cmd } := by
  refine h.step (a := .sendSeal cmd) trivial ?_
  show EventPublisher.step (.sendSeal cmd) p = _
  simp [EventPublisher.step, hsender, halive, hfree]

/-- The publisher as the finalizer finds it after closing the gate. -/
theorem closeGate_cases (p : EventPublisher Body) (c : Bool) :
    ∃ gate, (if c then p.closeGate else p) = { p with gate := gate } := by
  cases c with
  | true => exact ⟨false, rfl⟩
  | false => exact ⟨p.gate, rfl⟩

theorem DeliveryInv.resume {sealTx : Bool} (h : DeliveryInv s)
    (hpc : s.finalizer = some (.spawned sealTx)) : DeliveryInv (s.resume sealTx) := by
  have hstage := h.stage
  rw [hpc] at hstage
  obtain ⟨hunsealed, rfl, hcompletion⟩ := hstage
  have hdecided : (Runtime.cleanupRow s.row).terminal.isSome = true := h.decided (by rw [hpc]; rfl)
  have hreach := reach_closeGate h.reach s.row.publisherCmdTx
  obtain ⟨gate, hgate⟩ := closeGate_cases s.publisher s.row.publisherCmdTx
  rw [hgate] at hreach
  -- without a seal there is no terminal event
  have hsilent : ∀ p' : EventPublisher Body, p'.mailbox = s.publisher.mailbox →
      p'.HasEnded → TerminalEventDelivery.notAttempted = .published := by
    intro p' hmail hended
    have hended' : s.publisher.HasEnded := by
      unfold EventPublisher.HasEnded at hended ⊢
      rwa [hmail] at hended
    obtain ⟨_, _, _, hsome⟩ := hended'.replied (streamed_reach h.reach) (sealInv_reach h.reach)
    rw [hunsealed.sealed] at hsome
    cases hsome
  unfold Delivery.resume
  simp only [hgate]
  split
  · -- never started: there is nobody to seal
    rename_i hidle
    exact ⟨hreach, fun _ => hdecided, hcompletion, .inl (by simpa using hidle), nofun, hsilent _ rfl⟩
  · split
    · rename_i hgone
      exact ⟨reach_dropSeal hreach, fun _ => hdecided, hcompletion, .inr (.inl hgone), nofun,
        fun hended => nomatch hsilent _ rfl hended⟩
    · rename_i hgone
      split
      · -- this is the only seal, so the channel is free
        rename_i hfull
        rw [show s.publisher.sealQueue = none from hunsealed.queue] at hfull
        cases hfull
      · exact ⟨reach_sendSeal hreach hunsealed.sender hgone hunsealed.queue _, fun _ => hdecided,
          hcompletion, _, rfl, Nat.le_add_right _ _, .inr ⟨hunsealed.sealed, .inl rfl⟩⟩

theorem DeliveryInv.awaitReply {snapshot : FinalizerSnapshot} (h : DeliveryInv s)
    (hpc : s.finalizer = some (.awaitingReply snapshot)) (hs : s.awaitReply snapshot = some s') :
    DeliveryInv s' := by
  have hstage := h.stage
  rw [hpc] at hstage
  obtain ⟨hcompletion, cmd, hterminal, hlate, hp⟩ := hstage
  have hdecided : s.row.terminal.isSome = true := h.decided (by rw [hpc]; rfl)
  -- however the wait ends, the rest only needs silence and agreement
  have hreplied : ∀ d n, s.Quiet → s.publisher.Reports d (s.endOf snapshot n) →
      DeliveryInv (s.replied snapshot d n) := fun d n hquiet hends =>
    ⟨reach_dropSeal h.reach, fun _ => hdecided, hcompletion, hquiet, hends.congr rfl (fun _ => id)⟩
  have hseal := sealInv_reach h.reach
  have hstr := streamed_reach h.reach
  unfold Delivery.awaitReply at hs
  split at hs
  · rename_i r hr
    cases hs
    have hret := hstr.replied r hr
    have hgone : s.publisher.gone = true := by rw [EventPublisher.gone, hret]
    refine hreplied _ _ (.inr (.inl hgone)) ⟨fun hd => ?_, fun hended => ?_⟩
    · obtain ⟨_, cmd', before, last, hsealed, hdel, hlast⟩ := hseal.published r hret hd
      obtain rfl : cmd' = cmd := by
        rcases hp with htaken | ⟨hnone, _⟩
        · exact Option.some.inj (hsealed.symm.trans htaken)
        · cases hnone.symm.trans hsealed
      refine ⟨before, last, cmd', hdel, ?_, hsealed, by rw [hterminal]; rfl⟩
      rw [hlast, SealCommand.answer, hterminal]
      rfl
    · obtain ⟨r', hr', hd', _⟩ := hended.replied hstr hseal
      cases hr.symm.trans hr'
      exact hd'
  · rename_i hr
    split at hs
    · rename_i hover
      cases hs
      refine hreplied _ _ (.inr ?_) ⟨fun hd => ?_, fun hended => ?_⟩
      rotate_left
      · cases hd
      · obtain ⟨r', hr', _⟩ := hended.replied hstr hseal
        cases hr.symm.trans hr'
      rw [Bool.or_eq_true, decide_eq_true_eq] at hover
      rcases hover with hgone | hwake
      · exact .inl hgone
      · exact .inr ⟨cmd, Nat.le_trans hlate hwake, hp⟩
    · cases hs

theorem downgradedKind_published (kind : TransactionEndKind) :
    Runtime.downgradedKind .published kind = kind := by
  simp [Runtime.downgradedKind]

theorem DeliveryInv.settle {snapshot : FinalizerSnapshot} {d : TerminalEventDelivery} {n : Nat}
    (h : DeliveryInv s) (hpc : s.finalizer = some (.replied snapshot d n)) :
    DeliveryInv (s.settle snapshot d n) := by
  have hstage := h.stage
  rw [hpc] at hstage
  obtain ⟨hcompletion, hquiet, hends⟩ := hstage
  have hdecided : s.row.terminal.isSome = true := h.decided (by rw [hpc]; rfl)
  unfold Delivery.settle
  simp only
  split
  · rename_i hkind
    rw [hkind]
    exact ⟨h.reach, fun _ => hdecided, hcompletion, hquiet, hends⟩
  · rename_i hkind
    -- a published end is never downgraded
    refine ⟨h.reach, fun _ => rfl, hcompletion, hquiet, fun hd => ?_, hends.only⟩
    subst hd
    exact absurd (downgradedKind_published _) hkind

theorem DeliveryInv.publish {snapshot : FinalizerSnapshot} {d : TerminalEventDelivery} {n : Nat}
    {cleanup : CleanupStatus} (h : DeliveryInv s)
    (hpc : s.finalizer = some (.publishing snapshot d n)) :
    DeliveryInv (s.publish snapshot d n cleanup) := by
  have hstage := h.stage
  rw [hpc] at hstage
  obtain ⟨hcompletion, hquiet, hends⟩ := hstage
  have hdecided : s.row.terminal.isSome = true := h.decided (by rw [hpc]; rfl)
  refine ⟨h.reach, nofun, fun hnone => ?_, fun c hc => ?_⟩
  · rw [show s.row.terminal = none from hnone] at hdecided
    cases hdecided
  · cases hsender : snapshot.completionTx with
    | none =>
        simp only [Delivery.publish, hsender, Option.elim_none, hcompletion] at hc
        cases hc
    | some sender =>
        simp only [Delivery.publish, hsender, Option.elim_some, Option.some.injEq] at hc
        subst hc
        exact ⟨hquiet, hends⟩

theorem DeliveryInv.acceptTerminal {proposal : TerminalProposal} {force : Bool}
    (h : DeliveryInv s) : DeliveryInv (s.acceptTerminal proposal force) := by
  cases hterm : s.row.terminal with
  | none =>
      have hnone : s.finalizer = none := by
        cases hpc : s.finalizer with
        | none => rfl
        | some pc =>
            have hdecided := h.decided (by rw [hpc]; rfl)
            rw [hterm] at hdecided
            cases hdecided
      have hstage := h.stage
      rw [hnone] at hstage
      obtain ⟨hunsealed, hsender, hcompletion⟩ := hstage.1 hterm
      refine ⟨h.reach, fun _ => ?_, ?_⟩
      · simp [Delivery.acceptTerminal, Runtime.decideRow, hterm]
      · simp only [Delivery.acceptTerminal, hterm, Option.isNone_none, if_true]
        exact ⟨hunsealed, hsender, hcompletion⟩
  | some t =>
      have hsome : (Runtime.decideRow proposal force s.row).terminal.isSome = true := by
        simp only [Runtime.decideRow, hterm]
        split
        · rfl
        · rfl
      refine ⟨h.reach, fun _ => hsome, ?_⟩
      simp only [Delivery.acceptTerminal, hterm, Option.isNone_some, Bool.false_eq_true, if_false]
      refine h.stage.rowStep ?_ (fun hnone => ?_)
      · simp only [Runtime.decideRow]
        split <;> (try split) <;> rfl
      · rw [hnone] at hsome
        cases hsome

theorem DeliveryInv.publisherStep {b : PublisherAction Body} (h : DeliveryInv s)
    (hb : s.PublisherMoves b p') : DeliveryInv { s with publisher := p' } :=
  ⟨h.reach.step trivial hb.step, h.decided, h.stage.publisherStep hb (sealInv_reach h.reach)⟩

theorem DeliveryInv.abortFinalizer {pc : FinalizerPc} (h : DeliveryInv s)
    (hpc : s.finalizer = some pc) (hawaits : pc.awaits = true) :
    DeliveryInv { s with finalizer := none, publisher := { s.publisher with sealTx := false } } := by
  have hdecided : s.row.terminal.isSome = true := h.decided (by rw [hpc]; rfl)
  have hcompletion : s.completion = none := by
    have hstage := h.stage
    rw [hpc] at hstage
    cases pc with
    | spawned => exact hstage.2.2
    | awaitingReply => exact hstage.1
    | replied | publishing => cases hawaits
  refine ⟨reach_dropSeal h.reach, nofun, fun hnone => ?_, fun c hc => ?_⟩
  · rw [show s.row.terminal = none from hnone] at hdecided
    cases hdecided
  · rw [show s.completion = some c from hc] at hcompletion
    cases hcompletion

theorem DeliveryInv.step (h : DeliveryInv s) (hs : DeliveryStep s s') : DeliveryInv s' := by
  cases hs with
  | publisher moves => exact h.publisherStep moves
  | bound key => exact ⟨h.reach, h.decided, h.stage.rowStep rfl (fun hnone => ⟨hnone, rfl⟩)⟩
  | decided => exact h.acceptTerminal
  | resumed at_ => exact h.resume at_
  | replied at_ ready => exact h.awaitReply at_ ready
  | settled at_ => exact h.settle at_
  | published at_ => exact h.publish at_
  | aborted at_ awaits => exact h.abortFinalizer at_ awaits

theorem deliveryInv_reach {ok : Delivery Body → DeliveryAction Body → Prop}
    (h : delivery.Reach ok s) : DeliveryInv s :=
  h.invariant (fun _ hi => .init hi) (fun _ _ _ _ hinv _ hs => hinv.step (delivery_step hs))

/-! ## After the completion -/

/-- Only a transaction whose finalizer has returned has a completion. -/
theorem DeliveryInv.completed {c : TransactionCompletion} (h : DeliveryInv s)
    (hc : s.completion = some c) : s.finalizer = none ∧ s.row.terminal.isSome = true ∧ s.Quiet ∧
      s.publisher.Reports c.terminalEventDelivery c.end := by
  have hstage := h.stage
  have hnone : s.completion = none → False := by
    intro hnone
    rw [hc] at hnone
    cases hnone
  cases hpc : s.finalizer with
  | none =>
      rw [hpc] at hstage
      refine ⟨rfl, ?_, hstage.2 c hc⟩
      by_contra hterm
      exact hnone (hstage.1 (by simpa using hterm)).2.2
  | some pc =>
      rw [hpc] at hstage
      cases pc with
      | spawned => exact (hnone hstage.2.2).elim
      | awaitingReply | replied | publishing => exact (hnone hstage.1).elim

theorem completion_kept {c : TransactionCompletion} (h : DeliveryInv s)
    (hc : s.completion = some c) (hs : Delivery.step a s = some s') :
    s'.completion = some c ∧
      s'.publisher.mailbox.delivered = s.publisher.mailbox.delivered := by
  obtain ⟨hpc, hterm, hquiet, _⟩ := h.completed hc
  have hseal := sealInv_reach h.reach
  -- with the finalizer gone only the publisher and the row can move
  have hidle : ∀ {pc}, s.finalizer = some pc → False := by
    intro pc hsome
    rw [hpc] at hsome
    cases hsome
  cases delivery_step hs with
  | publisher moves => exact ⟨hc, moves.delivered_eq hseal hquiet⟩
  | bound | decided => exact ⟨hc, rfl⟩
  | resumed at_ | settled at_ | published at_ | aborted at_ => exact (hidle at_).elim
  | replied at_ ready => exact (hidle at_).elim

/-- Whatever happens after the completion, nothing more is delivered. -/
theorem completion_last {c : TransactionCompletion} (h : delivery.Reach always s)
    (hc : s.completion = some c) (as : List (DeliveryAction Body))
    (hs : delivery.run as s = some s') :
    s'.publisher.mailbox.delivered = s.publisher.mailbox.delivered := by
  induction as generalizing s with
  | nil =>
      cases hs
      rfl
  | cons a rest ih =>
      obtain ⟨s₁, hs₁, hrest⟩ := Option.bind_eq_some_iff.mp hs
      obtain ⟨hc₁, hsame⟩ := completion_kept (deliveryInv_reach h) hc hs₁
      rw [ih (.step h trivial hs₁) hc₁ hrest, hsame]

/-- **The completion closes the event stream and agrees with it.** No event is
delivered after it, and if it says so, the last event is the end it reports. -/
theorem completion_agrees {c : TransactionCompletion} (h : delivery.Reach always s)
    (hc : s.completion = some c) :
    (∀ as s', delivery.run as s = some s' →
      s'.publisher.mailbox.delivered = s.publisher.mailbox.delivered) ∧
    (c.terminalEventDelivery = .published → ∃ before last t,
      s.publisher.mailbox.delivered = before ++ [last] ∧ last.payload = .endedEvent t ∧
      t.kind = c.end.kind ∧ t.emittedEvents = c.end.emittedEvents) := by
  refine ⟨fun as s' hs => completion_last h hc as hs, fun hd => ?_⟩
  obtain ⟨_, _, _, hends⟩ := (deliveryInv_reach h).completed hc
  obtain ⟨before, last, cmd, hdel, hlast, _⟩ := hends.ends hd
  exact ⟨before, last, _, hdel, hlast, rfl, rfl⟩

/-- An admitted row to replay runs with. -/
def sampleRow (session : Option SessionKey) : LedgerEntry where
  transactionId := sampleTransaction
  channelId := sampleChannel
  sessionKey := session
  phase := .queued
  terminal := none
  pendingWorkerProposal := none
  eventSequence := 0
  delivery := some ⟨⟨8, 4096⟩, ⟨true⟩⟩
  completionTx := none
  publisherCmdTx := false
  publisherSealTx := false
  deadline := none
  tools := []
  reservations := true
  cancelled := false

/-- Its delivery after `handle_start`, with a seal budget of 50 ms. -/
def sampleDelivery (session : Option SessionKey) : Delivery Nat :=
  .init (fun _ => 256) (sampleRow session) ⟨⟨8, 4096⟩, ⟨true⟩⟩ 1000 0 50 true

theorem sampleDelivery_init (session : Option SessionKey) :
    delivery.init (sampleDelivery session) :=
  ⟨_, _, _, _, _, _, _, ⟨rfl, rfl, rfl, rfl, rfl⟩, rfl⟩

/-- The finalizer seals, the publisher ends the stream, the completion goes out. -/
def sampleFinish : List (DeliveryAction Nat) :=
  [.acceptTerminal ⟨.completed⟩ false, .resume, .publisher .poll, .publisher .poll,
    .publisher .poll, .awaitReply, .settle, .publish 2 0 0]

theorem published_completion_agrees : ∃ s : Delivery Nat, ∃ c, delivery.Reach always s ∧
    s.completion = some c ∧ c.terminalEventDelivery = .published ∧
    ((∀ as s', delivery.run as s = some s' →
      s'.publisher.mailbox.delivered = s.publisher.mailbox.delivered) ∧
    (c.terminalEventDelivery = .published → ∃ before last t,
      s.publisher.mailbox.delivered = before ++ [last] ∧ last.payload = .endedEvent t ∧
      t.kind = c.end.kind ∧ t.emittedEvents = c.end.emittedEvents)) := by
  obtain ⟨s, hs, htest⟩ := System.exists_of_run (sampleDelivery_init none)
    ([.publisher (.send (.publish (.ordinary 7))), .publisher (.enqueue 0), .publisher .poll,
      .publisher .poll] ++ sampleFinish)
    (fun s => s.completion.any (·.terminalEventDelivery = .published))
    (by decide +kernel)
  simp only [Option.any_eq_true, decide_eq_true_eq] at htest
  obtain ⟨c, hc, hd⟩ := htest
  exact ⟨s, c, hs, hc, hd, completion_agrees hs hc⟩

end Monoloop.Publisher
