import Monoloop.Publisher.Poll

/-!
# The event stream of a transaction

What the publisher is for: `emitted` says which payloads the admitted commands
ask for, in order. The events in the mailbox are a prefix of it, numbered from
one, with the terminal event behind it at most; and when the publisher reports
the terminal event as published, nothing was left out.
-/

namespace Monoloop.Publisher

open Transition (System always)

variable {Body : Type} {p p' : EventPublisher Body}

/-! ## The stream the commands ask for -/

section Emitted

variable {cmds cmds' : List (EventPublisherCommand Body)} {cmd : EventPublisherCommand Body}
  {stream : List (TransactionEventPayload Body)}

/-- The stream after one more command: an establishment only counts in front. -/
def emit (stream : List (TransactionEventPayload Body)) :
    EventPublisherCommand Body → List (TransactionEventPayload Body)
  | .publish payload => stream ++ [payload]
  | .establishExternal external =>
      match stream with
      | [] => [.sessionEstablished external]
      | _ => stream

def emitted (cmds : List (EventPublisherCommand Body)) : List (TransactionEventPayload Body) :=
  cmds.foldl emit []

/-- What the callers publish. -/
def published? : EventPublisherCommand Body → Option (TransactionEventPayload Body)
  | .publish payload => some payload
  | .establishExternal _ => none

@[simp] theorem emitted_nil : emitted ([] : List (EventPublisherCommand Body)) = [] := rfl

@[simp] theorem emitted_concat : emitted (cmds ++ [cmd]) = emit (emitted cmds) cmd := by
  simp [emitted]

theorem emit_establish_nil {external : ExternalSessionId} (h : stream = []) :
    emit stream (.establishExternal external) = stream ++ [.sessionEstablished external] := by
  subst h
  rfl

theorem emit_establish_late {external : ExternalSessionId} (h : stream ≠ []) :
    emit stream (.establishExternal external) = stream := by
  cases stream with
  | nil => exact absurd rfl h
  | cons => rfl

theorem prefix_emit : stream <+: emit stream cmd := by
  cases cmd with
  | publish payload => exact List.prefix_append _ _
  | establishExternal external =>
      cases stream with
      | nil => exact List.nil_prefix
      | cons => exact List.prefix_rfl

/-- More commands only extend the stream. -/
theorem emitted_append : emitted cmds <+: emitted (cmds ++ cmds') := by
  induction cmds' using List.reverseRecOn with
  | nil => simp
  | append_singleton rest cmd ih =>
      rw [← List.append_assoc, emitted_concat]
      exact ih.trans prefix_emit

/-- Nothing published is left out, and nothing is reordered. -/
theorem published_sublist : (cmds.filterMap published?).Sublist (emitted cmds) := by
  induction cmds using List.reverseRecOn with
  | nil => simp
  | append_singleton rest cmd ih =>
      rw [List.filterMap_append, emitted_concat]
      cases cmd with
      | publish payload => exact ih.append (List.Sublist.refl _)
      | establishExternal external =>
          rw [show [EventPublisherCommand.establishExternal external].filterMap published? =
            ([] : List (TransactionEventPayload Body)) from rfl, List.append_nil]
          exact ih.trans prefix_emit.sublist

/-- Behind its head the stream holds ordinary events only, and nowhere an
end. -/
theorem emitted_shape (h : ∀ c ∈ cmds, c.isOrdinary = true) :
    (∀ x ∈ (emitted cmds).tail, ∃ body, x = .ordinary body) ∧
      ∀ t, .endedEvent t ∉ emitted cmds := by
  induction cmds using List.reverseRecOn with
  | nil => simp
  | append_singleton rest cmd ih =>
      obtain ⟨htail, hend⟩ := ih (fun c hc => h c (by simp [hc]))
      have hcmd := h cmd (by simp)
      rw [emitted_concat]
      cases cmd with
      | establishExternal external =>
          by_cases hs : emitted rest = []
          · simp [hs, emit]
          · rw [emit_establish_late hs]
            exact ⟨htail, hend⟩
      | publish payload =>
          obtain ⟨body, rfl⟩ : ∃ body, payload = .ordinary body := by
            cases payload with
            | ordinary body => exact ⟨body, rfl⟩
            | sessionEstablished | endedEvent => cases hcmd
          refine ⟨fun x hx => ?_, fun t ht => ?_⟩
          · cases hs : emitted rest with
            | nil => simp [emit, hs] at hx
            | cons y ys =>
                rw [hs] at htail
                simp only [emit, hs, List.cons_append, List.tail_cons, List.mem_append,
                  List.mem_singleton] at hx
                rcases hx with hx | rfl
                · exact htail x hx
                · exact ⟨body, rfl⟩
          · simp only [emit, List.mem_append, List.mem_singleton, reduceCtorEq, or_false] at ht
            exact hend t ht

end Emitted

/-! ## Numbers -/

/-- The `k`th number, as a saturating `u64` counts. -/
def numberAt (k : Nat) : Nat := min k (2 ^ 64 - 1)

@[simp] theorem saturatingAdd_numberAt (k : Nat) : saturatingAdd (numberAt k) 1 = numberAt (k + 1) := by
  simp only [saturatingAdd, numberAt]
  omega

theorem numberAt_succ_eq_one {k : Nat} : numberAt (k + 1) = 1 ↔ k = 0 := by
  simp only [numberAt]
  omega

/-- A number belongs to each event in the mailbox, and the next one to the event
in flight. -/
structure Numbered (p : EventPublisher Body) : Prop where
  delivered : p.mailbox.delivered.map (·.sequence) =
    (List.range' 1 p.mailbox.delivered.length).map numberAt
  last : p.lastCommitted = numberAt p.mailbox.delivered.length
  next : p.gone = false → p.nextSeq = numberAt (p.mailbox.delivered.length + 1)
  flight : ∀ f, p.pc.flight? = some f → f.event.sequence = p.nextSeq
  established : p.sessionEstablished = true → p.mailbox.delivered ≠ []

namespace PublisherPc

variable {pc pc' : PublisherPc Body} {f : InFlight Body} {cmd : SealCommand}
  {e : TerminalEventDelivery}

theorem refly_flight {g : InFlight Body} (h : pc.flight? = some f) :
    (pc.refly g).flight? = some g := by
  cases pc <;> simp_all [flight?, refly]

theorem sealedBy_flight (h : pc.sealedBy cmd = some pc') : pc'.flight? = pc.flight? := by
  unfold sealedBy at h
  split at h <;> cases h <;> rfl

theorem flying_flight (h : pc.flying f = some pc') : pc'.flight? = some f := by
  unfold flying at h
  split at h <;> cases h <;> rfl

theorem flying_serves (h : pc.flying f = some pc') : pc.serves = true := by
  unfold flying at h
  split at h
  · rfl
  · rfl
  · cases h

theorem landed_flight (h : pc.landed = some pc') : pc'.flight? = none := by
  unfold landed at h
  split at h <;> cases h <;> rfl

theorem failing_flight (h : pc.failing e = some pc') : pc'.flight? = none := by
  unfold failing at h
  split at h <;> cases h <;> rfl

end PublisherPc

/-- A publisher that can go somewhere is not gone. -/
theorem alive_of {α : Type} {next : PublisherPc Body → Option α} {x : α}
    (h : next p.pc = some x) (hreturned : ∀ r, next (.returned r) = none) : p.gone = false := by
  unfold EventPublisher.gone
  split
  · rename_i r hpc
    rw [hpc, hreturned] at h
    cases h
  · rfl

theorem gone_alive_absurd (hgone : p.gone = true) (halive : p.gone = false) : False := by
  rw [hgone] at halive
  cases halive

theorem alive_of_serves (h : p.pc.serves = true) : p.gone = false := by
  unfold EventPublisher.gone
  split
  · rename_i r hpc
    rw [hpc] at h
    cases h
  · rfl

theorem alive_of_flight {f : InFlight Body} (h : p.pc.flight? = some f) : p.gone = false :=
  alive_of h (fun _ => rfl)

/-- A step that delivers nothing and keeps the counters. -/
theorem Numbered.frame (h : Numbered p) (hmail : p'.mailbox.delivered = p.mailbox.delivered)
    (hlast : p'.lastCommitted = p.lastCommitted) (hnext : p'.nextSeq = p.nextSeq)
    (hest : p'.sessionEstablished = p.sessionEstablished)
    (hgone : p'.gone = false → p.gone = false)
    (hflight : ∀ f, p'.pc.flight? = some f → f.event.sequence = p.nextSeq) : Numbered p' where
  delivered := by rw [hmail, h.delivered]
  last := by rw [hmail, hlast, h.last]
  next hg := by rw [hmail, hnext, h.next (hgone hg)]
  flight f hf := by rw [hnext, hflight f hf]
  established he := by
    rw [hmail]
    exact h.established (hest ▸ he)

/-- A delivery uses up the number of its event. -/
theorem Numbered.deliver {f : InFlight Body} (h : Numbered p) (hf : p.pc.flight? = some f)
    (hmail : p'.mailbox.delivered = p.mailbox.delivered ++ [f.event])
    (hlast : p'.lastCommitted = f.event.sequence)
    (hnext : p'.nextSeq = saturatingAdd f.event.sequence 1)
    (hflight : p'.pc.flight? = none) : Numbered p' := by
  have hseq : f.event.sequence = numberAt (p.mailbox.delivered.length + 1) := by
    rw [h.flight f hf, h.next (alive_of_flight hf)]
  refine ⟨?_, ?_, fun _ => ?_, fun g hg => ?_, fun _ => by simp [hmail]⟩
  · rw [hmail, List.map_append, h.delivered, List.length_append, List.length_singleton,
      List.range'_concat, List.map_append, List.map_singleton, List.map_singleton, hseq,
      Nat.one_mul, Nat.add_comm 1]
  · rw [hlast, hseq, hmail, List.length_append, List.length_singleton]
  · rw [hnext, hseq, saturatingAdd_numberAt, hmail, List.length_append, List.length_singleton]
  · rw [hflight] at hg
    cases hg

theorem Numbered.poll (h : Numbered p) (hs : PollStep p p') : Numbered p' := by
  cases hs with
  | idle => exact h
  | pending flight mail =>
      refine h.frame mail rfl rfl rfl (fun _ => alive_of_flight flight) (fun g hg => ?_)
      rw [PublisherPc.refly_flight flight] at hg
      cases hg
      exact (h.flight _ flight :)
  | sealTaken queued narrows next =>
      refine h.frame rfl rfl rfl rfl (fun _ => alive_of next (fun _ => rfl))
        (fun g hg => ?_)
      rw [PublisherPc.sealedBy_flight next] at hg
      exact h.flight g hg
  | sealClosed => exact h.frame rfl rfl rfl rfl id h.flight
  | sealDead at_ lost =>
      refine h.frame rfl rfl rfl rfl (fun _ => alive_of_flight (by rw [at_]; rfl)) (fun g hg => ?_)
      exact h.flight g (by rw [at_]; exact hg)
  | cmdClosed => exact h.frame rfl rfl rfl rfl id h.flight
  | ignored => exact h.frame rfl rfl rfl rfl id h.flight
  | discarded => exact h.frame rfl rfl rfl rfl id h.flight
  | establishing queued first next =>
      refine h.frame rfl rfl rfl rfl (fun _ => alive_of next (fun _ => rfl))
        (fun g hg => ?_)
      rw [PublisherPc.flying_flight next] at hg
      cases hg
      rfl
  | publishing queued resolved next =>
      refine h.frame rfl rfl rfl rfl (fun _ => alive_of next (fun _ => rfl))
        (fun g hg => ?_)
      rw [PublisherPc.flying_flight next] at hg
      cases hg
      rfl
  | @delivered f m g pc flight may mail narrows next =>
      obtain ⟨session, established, hcommit⟩ := EventPublisher.commit_eq { p with mailbox := m } f
      rw [hcommit]
      exact h.deliver flight mail rfl rfl (PublisherPc.landed_flight next)
  | failed fails mail narrows next =>
      refine h.frame mail rfl rfl rfl (fun _ => alive_of next (fun _ => rfl))
        (fun g hg => ?_)
      rw [PublisherPc.failing_flight next] at hg
      cases hg
  | ending at_ empty lost =>
      refine h.frame rfl rfl rfl rfl (fun _ => ?_) (fun g hg => ?_)
      · unfold EventPublisher.gone
        rw [at_]
      · cases hg
        rfl
  | @ended f cmd m at_ may mail =>
      obtain ⟨session, established, hcommit⟩ := EventPublisher.commit_eq { p with mailbox := m } f
      rw [hcommit]
      exact h.deliver (by rw [at_]; rfl) mail rfl rfl rfl
  | finished alive fails mail narrows replied =>
      exact h.frame mail rfl rfl rfl (fun hg => by cases hg) (fun g hg => by cases hg)

theorem Numbered.side (h : Numbered p) {fin : Bool} (hs : SideStep p fin p') : Numbered p' := by
  cases hs with
  | mail mail => exact h.frame mail rfl rfl rfl id h.flight
  | _ => exact h.frame rfl rfl rfl rfl id h.flight

theorem numbered_reach {ok : EventPublisher Body → PublisherAction Body → Prop}
    (h : publisher.Reach ok p) : Numbered p := by
  refine h.invariant (P := Numbered) ?_ ?_
  · rintro p ⟨estimate, tx, channel, session, sender, deadline, now, rfl⟩
    exact ⟨rfl, rfl, fun _ => rfl, (fun f hf => nomatch hf), (fun he => nomatch he)⟩
  · intro p a p' _ hinv _ hs
    obtain ⟨_, hpoll⟩ | ⟨_, rfl⟩ | hside := EventPublisher.step_cases hs
    · exact hinv.poll hpoll
    · obtain ⟨m, hm, heq⟩ := p.abort_eq
      rw [heq]
      exact hinv.frame hm rfl rfl rfl (fun hg => by cases hg) (fun g hg => by cases hg)
    · exact hinv.side hside

/-! ## The stream in the mailbox -/

namespace EventPublisher

/-- The payloads in the mailbox, oldest first. -/
def stream (p : EventPublisher Body) : List (TransactionEventPayload Body) :=
  p.mailbox.delivered.map (·.payload)

/-- What the mailbox holds of the stream at each wait. -/
def Standing (p : EventPublisher Body) : PublisherPc Body → Prop
  | .select | .fence _ => p.stream = emitted p.taken
  | .sending f _ | .sealedSending f _ | .fenceSending f _ =>
      p.stream ++ [f.event.payload] = emitted p.taken
  | .sticky e | .draining _ e => e ≠ .published ∧ p.stream <+: emitted p.taken
  | .ending f _ => p.stream = emitted p.taken ∧ p.queue = [] ∧ p.disconnected = true ∧
      ∃ t, f.event.payload = .endedEvent t
  | .returned none => p.stream <+: emitted p.taken
  | .returned (some r) => r.lastSequence = p.lastCommitted ∧
      if r.delivery = .published then
        (∃ t, p.stream = emitted p.taken ++ [.endedEvent t]) ∧ p.queue = [] ∧ p.disconnected = true
      else p.stream <+: emitted p.taken

end EventPublisher

/-- The commands in the channels, and the mailbox against what was taken out of
them. -/
structure Streamed (p : EventPublisher Body) : Prop where
  accepted : p.accepted = p.taken ++ p.queue
  ordinary : ∀ c ∈ p.accepted, c.isOrdinary = true
  parked : ∀ c ∈ p.parked, c.isOrdinary = true
  standing : p.Standing p.pc
  replied : ∀ r, p.reply = some r → p.pc = .returned (some r)

namespace EventPublisher

variable {pc pc' : PublisherPc Body} {f : InFlight Body} {cmd : SealCommand}
  {e : TerminalEventDelivery}

/-- Until the terminal event, the mailbox holds a prefix of the stream. -/
theorem Standing.isPrefix (h : p.Standing pc) (halive : ∀ r, pc ≠ .returned r) :
    p.stream <+: emitted p.taken := by
  cases pc with
  | select | fence =>
      rw [show p.stream = emitted p.taken from h]
  | sending | sealedSending | fenceSending => exact ⟨_, h⟩
  | sticky | draining => exact h.2
  | ending => rw [h.1]
  | returned r => exact absurd rfl (halive r)

theorem Standing.serves (h : p.Standing pc) (hserves : pc.serves = true) :
    p.stream = emitted p.taken := by
  cases pc with
  | select | fence => exact h
  | _ => cases hserves

theorem Standing.landing (h : p.Standing pc) (hf : pc.flight? = some f)
    (hland : pc.landed = some pc') : p.stream ++ [f.event.payload] = emitted p.taken := by
  cases pc with
  | sending | sealedSending | fenceSending =>
      cases hf
      exact h
  | _ => cases hland

theorem Standing.failed (h : p.Standing pc) (hfail : pc.fail? = some e) : e ≠ .published := by
  cases pc with
  | sticky | draining =>
      cases hfail
      exact h.1
  | _ => cases hfail

/-- The wait of a flight that holds the next payload. -/
theorem standing_flying (hnext : pc.flying f = some pc')
    (h : p.stream ++ [f.event.payload] = emitted p.taken) : p.Standing pc' := by
  unfold PublisherPc.flying at hnext
  split at hnext <;> cases hnext <;> exact h

theorem standing_landed (hnext : pc.landed = some pc') (h : p.stream = emitted p.taken) :
    p.Standing pc' := by
  unfold PublisherPc.landed at hnext
  split at hnext <;> cases hnext <;> exact h

theorem standing_failing (hnext : pc.failing e = some pc') (hfail : e ≠ .published)
    (h : p.stream <+: emitted p.taken) : p.Standing pc' := by
  unfold PublisherPc.failing at hnext
  split at hnext <;> cases hnext <;> exact ⟨hfail, h⟩

theorem standing_sealedBy (hnext : pc.sealedBy cmd = some pc') (h : p.Standing pc) :
    p.Standing pc' := by
  unfold PublisherPc.sealedBy at hnext
  split at hnext <;> cases hnext <;> exact h

/-- `Standing` reads the mailbox, the commands and the last number only. -/
theorem Standing.frame (h : p.Standing pc) (hmail : p'.stream = p.stream)
    (htaken : p'.taken = p.taken) (hlast : p'.lastCommitted = p.lastCommitted)
    (hqueue : p.queue = [] → p.disconnected = true → p'.queue = [] ∧ p'.disconnected = true) :
    p'.Standing pc := by
  cases pc with
  | select | fence | sending | sealedSending | fenceSending | sticky | draining =>
      simpa only [Standing, hmail, htaken] using h
  | ending f cmd =>
      obtain ⟨hstream, hempty, hlost, hend⟩ := h
      exact ⟨by rw [hmail, htaken, hstream], (hqueue hempty hlost).1, (hqueue hempty hlost).2, hend⟩
  | returned r =>
      cases r with
      | none => simpa only [Standing, hmail, htaken] using h
      | some r =>
          refine ⟨hlast ▸ h.1, ?_⟩
          have hres := h.2
          split
          · rw [if_pos ‹_›] at hres
            obtain ⟨⟨t, ht⟩, hempty, hlost⟩ := hres
            exact ⟨⟨t, by rw [hmail, htaken, ht]⟩, hqueue hempty hlost⟩
          · rw [if_neg ‹_›] at hres
            rwa [hmail, htaken]

end EventPublisher

theorem stream_eq (h : p'.mailbox.delivered = p.mailbox.delivered) : p'.stream = p.stream := by
  rw [EventPublisher.stream, h, EventPublisher.stream]

theorem stream_concat {event : TransactionEvent Body}
    (h : p'.mailbox.delivered = p.mailbox.delivered ++ [event]) :
    p'.stream = p.stream ++ [event.payload] := by
  simp [EventPublisher.stream, h]

/-- An establishment is ignored exactly when the stream has begun. -/
theorem ignoresEstablish_iff (hnum : Numbered p) (halive : p.gone = false) :
    p.ignoresEstablish = true ↔ p.stream ≠ [] := by
  have hempty : p.mailbox.delivered.length = 0 ↔ p.stream = [] := by
    simp [EventPublisher.stream]
  have hnext : p.nextSeq = 1 ↔ p.stream = [] := by
    rw [hnum.next halive, numberAt_succ_eq_one, hempty]
  unfold EventPublisher.ignoresEstablish
  rw [Bool.or_eq_true, decide_eq_true_eq, ne_eq, hnext]
  constructor
  · rintro (hest | hne)
    · intro hs
      exact hnum.established hest (List.length_eq_zero_iff.mp (hempty.mpr hs))
    · exact hne
  · exact .inr

/-- What was taken has left the queue. -/
theorem Streamed.next {cmd : EventPublisherCommand Body}
    {rest : List (EventPublisherCommand Body)} (h : Streamed p) (hqueue : p.queue = cmd :: rest) :
    p.accepted = (p.taken ++ [cmd]) ++ rest := by
  rw [h.accepted, hqueue, List.append_assoc, List.singleton_append]

/-- The disconnected channel stays empty while the gate only closes. -/
theorem disconnected_of_narrows {g : Bool} (h : p.disconnected = true)
    (hnarrows : g = true → p.gate = true) (hgate : p'.gate = g) (hparked : p'.parked = p.parked) :
    p'.disconnected = true := by
  simp only [EventPublisher.disconnected, Bool.and_eq_true, Bool.not_eq_true'] at h ⊢
  refine ⟨?_, hparked ▸ h.2⟩
  cases hg : p'.gate with
  | false => rfl
  | true => rw [hnarrows (hgate ▸ hg)] at h; cases h.1

/-- The publisher's state apart from the channels is that of `p`. -/
theorem Streamed.of_standing (h : Streamed p) (haccepted : p'.accepted = p'.taken ++ p'.queue)
    (hsame : p'.accepted = p.accepted) (hparked : p'.parked = p.parked)
    (hstanding : p'.Standing p'.pc)
    (hreplied : ∀ r, p'.reply = some r → p'.pc = .returned (some r)) : Streamed p' where
  accepted := haccepted
  ordinary := by
    rw [hsame]
    exact h.ordinary
  parked := by
    rw [hparked]
    exact h.parked
  standing := hstanding
  replied := hreplied

/-- Without a reply there is nothing to show about it. -/
theorem Streamed.unreplied (h : Streamed p) (halive : p.gone = false) : p.reply = none := by
  cases hr : p.reply with
  | none => rfl
  | some r =>
      rw [EventPublisher.gone, h.replied r hr] at halive
      cases halive

theorem Streamed.poll (hnum : Numbered p) (h : Streamed p) (hs : PollStep p p') :
    Streamed p' := by
  -- no reply has been sent while the publisher can still be polled
  have hreply : p.gone = false → p'.reply = p.reply →
      ∀ r, p'.reply = some r → p'.pc = .returned (some r) := by
    intro halive hsame r hr
    rw [hsame, h.unreplied halive] at hr
    cases hr
  cases hs with
  | idle => exact h
  | @pending f send m flight mail =>
      refine h.of_standing h.accepted rfl rfl ?_ (hreply (alive_of_flight flight) rfl)
      have hstanding : EventPublisher.Standing
          { p with mailbox := m, pc := p.pc.refly { f with send } } p.pc :=
        h.standing.frame (stream_eq mail) rfl rfl (fun hempty hlost => ⟨hempty, hlost⟩)
      revert hstanding flight
      show p.pc.flight? = some f → EventPublisher.Standing _ p.pc →
        EventPublisher.Standing _ (p.pc.refly { f with send })
      generalize hpc : p.pc = pc
      cases pc with
      | sending | sealedSending | fenceSending | ending =>
          intro hflight hstanding
          cases hflight
          exact hstanding
      | _ => exact fun hflight => nomatch hflight
  | sealTaken queued narrows next =>
      have halive : p.gone = false := alive_of next (fun _ => rfl)
      refine h.of_standing h.accepted rfl rfl ?_ (hreply halive rfl)
      exact EventPublisher.standing_sealedBy next (h.standing.frame rfl rfl rfl
        (fun hempty hlost => ⟨hempty, disconnected_of_narrows hlost narrows rfl rfl⟩))
  | sealClosed at_ lost =>
      refine h.of_standing h.accepted rfl rfl ?_ (hreply (by simp [EventPublisher.gone, at_]) rfl)
      exact h.standing.frame rfl rfl rfl
        (fun hempty hlost => ⟨hempty, disconnected_of_narrows (g := false) hlost (by simp) rfl rfl⟩)
  | sealDead at_ lost =>
      refine h.of_standing h.accepted rfl rfl ?_ (hreply (by simp [EventPublisher.gone, at_]) rfl)
      have hstanding := h.standing
      rw [at_] at hstanding
      exact hstanding
  | cmdClosed at_ lost =>
      refine h.of_standing h.accepted rfl rfl ?_ (hreply (by simp [EventPublisher.gone, at_]) rfl)
      exact h.standing.frame rfl rfl rfl (fun hempty hlost => ⟨hempty, hlost⟩)
  | @ignored external rest serves queued late =>
      have halive := alive_of_serves serves
      refine h.of_standing (h.next queued) rfl rfl ?_ (hreply halive rfl)
      have hstream := h.standing.serves serves
      have hne := (ignoresEstablish_iff hnum halive).mp late
      show EventPublisher.Standing _ p.pc
      have hemit : p.stream = emitted (p.taken ++ [.establishExternal external]) := by
        rw [emitted_concat, ← hstream, emit_establish_late hne]
      cases hpc : p.pc with
      | select | fence => exact hemit
      | _ =>
          rw [hpc] at serves
          cases serves
  | discarded failed queued =>
      have halive : p.gone = false := alive_of failed (fun _ => rfl)
      refine h.of_standing (h.next queued) rfl rfl ?_ (hreply halive rfl)
      have hstanding := h.standing
      show EventPublisher.Standing _ p.pc
      cases hpc : p.pc with
      | sticky | draining =>
          rw [hpc] at hstanding
          exact ⟨hstanding.1, hstanding.2.trans emitted_append⟩
      | _ =>
          rw [hpc] at failed
          cases failed
  | establishing queued first next =>
      have halive : p.gone = false := alive_of next (fun _ => rfl)
      refine h.of_standing (h.next queued) rfl rfl ?_ (hreply halive rfl)
      refine EventPublisher.standing_flying next ?_
      have hstream := h.standing.serves (PublisherPc.flying_serves next)
      have hempty : p.stream = [] := by
        by_contra hne
        rw [(ignoresEstablish_iff hnum halive).mpr hne] at first
        cases first
      show p.stream ++ [_] = emitted (p.taken ++ [_])
      rw [emitted_concat, ← hstream, emit_establish_nil hempty]
      rfl
  | publishing queued resolved next =>
      have halive : p.gone = false := alive_of next (fun _ => rfl)
      refine h.of_standing (h.next queued) rfl rfl ?_ (hreply halive rfl)
      refine EventPublisher.standing_flying next ?_
      have hstream := h.standing.serves (PublisherPc.flying_serves next)
      show p.stream ++ [_] = emitted (p.taken ++ [_])
      rw [emitted_concat, ← hstream]
      rfl
  | @delivered f m g pc flight may mail narrows next =>
      have halive := alive_of_flight flight
      obtain ⟨session, established, hcommit⟩ := EventPublisher.commit_eq { p with mailbox := m } f
      rw [hcommit] at hreply ⊢
      refine h.of_standing h.accepted rfl rfl ?_ (hreply halive rfl)
      refine EventPublisher.standing_landed next ?_
      rw [stream_concat (p := p) mail]
      exact h.standing.landing flight next
  | failed fails mail narrows next =>
      have halive : p.gone = false := alive_of next (fun _ => rfl)
      refine h.of_standing h.accepted rfl rfl ?_ (hreply halive rfl)
      refine EventPublisher.standing_failing next fails ?_
      rw [stream_eq (p := p) mail]
      refine h.standing.isPrefix (fun r hr => ?_)
      rw [hr] at next
      cases next
  | ending at_ empty lost =>
      have hstanding := h.standing
      rw [at_] at hstanding
      refine h.of_standing h.accepted rfl rfl ?_ (hreply (by simp [EventPublisher.gone, at_]) rfl)
      exact ⟨hstanding, empty, lost, _, rfl⟩
  | @ended f cmd m at_ may mail =>
      have hstanding := h.standing
      rw [at_] at hstanding
      obtain ⟨hstream, hempty, hlost, t, ht⟩ := hstanding
      obtain ⟨session, established, hcommit⟩ := EventPublisher.commit_eq { p with mailbox := m } f
      rw [hcommit]
      refine h.of_standing h.accepted rfl rfl ⟨rfl, ?_⟩ (fun r hr => by cases hr; rfl)
      rw [if_pos rfl]
      refine ⟨⟨t, ?_⟩, hempty, hlost⟩
      rw [stream_concat (p := p) mail, ht, hstream]
      rfl
  | @finished e m g _ _ replies alive fails mail narrows replied =>
      have hfails : e ≠ .published := by
        rcases fails with hne | hfail
        · exact hne
        · exact h.standing.failed hfail
      refine h.of_standing h.accepted rfl rfl ⟨rfl, ?_⟩ (fun r hr => ?_)
      · rw [if_neg hfails, stream_eq (p := p) mail]
        refine h.standing.isPrefix (fun r hr => ?_)
        rw [EventPublisher.gone, hr] at alive
        cases alive
      · cases replies with
        | true => cases hr; rfl
        | false => cases hr

theorem Streamed.side (h : Streamed p) {fin : Bool} (hs : SideStep p fin p') : Streamed p' := by
  cases hs with
  | mail mail =>
      refine h.of_standing h.accepted rfl rfl ?_ h.replied
      exact h.standing.frame (stream_eq mail) rfl rfl (fun hempty hlost => ⟨hempty, hlost⟩)
  | tick => exact ⟨h.accepted, h.ordinary, h.parked, h.standing, h.replied⟩
  | admitted opened ordinary =>
      refine ⟨h.accepted, h.ordinary, fun c hc => ?_, ?_, h.replied⟩
      · rcases List.mem_append.mp hc with hc | hc
        · exact h.parked c hc
        · rw [List.mem_singleton.mp hc]
          exact ordinary
      · refine h.standing.frame rfl rfl rfl (fun _ hlost => ?_)
        -- a disconnected channel has no gate to pass
        rw [EventPublisher.disconnected, opened] at hlost
        cases hlost
  | unparked fewer =>
      refine ⟨h.accepted, h.ordinary, fun c hc => h.parked c (fewer.subset hc), ?_, h.replied⟩
      refine h.standing.frame rfl rfl rfl (fun hempty hlost => ⟨hempty, ?_⟩)
      simp only [EventPublisher.disconnected, Bool.and_eq_true, List.isEmpty_iff] at hlost ⊢
      rw [hlost.2] at fewer
      exact ⟨hlost.1, List.sublist_nil.mp fewer⟩
  | @enqueued cmd l member fewer alive =>
      refine ⟨?_, fun c hc => ?_, fun c hc => h.parked c (fewer.subset hc), ?_, h.replied⟩
      · show p.accepted ++ [cmd] = p.taken ++ (p.queue ++ [cmd])
        rw [h.accepted, List.append_assoc]
      · rcases List.mem_append.mp hc with hc | hc
        · exact h.ordinary c hc
        · rw [List.mem_singleton.mp hc]
          exact h.parked cmd member
      · refine h.standing.frame rfl rfl rfl (fun _ hlost => ?_)
        -- nor a parked send that could still arrive
        simp only [EventPublisher.disconnected, Bool.and_eq_true, List.isEmpty_iff] at hlost
        rw [hlost.2] at member
        cases member
  | closed =>
      refine h.of_standing h.accepted rfl rfl ?_ h.replied
      exact h.standing.frame rfl rfl rfl
        (fun hempty hlost => ⟨hempty, disconnected_of_narrows (g := false) hlost (by simp) rfl rfl⟩)
  | sealed => exact ⟨h.accepted, h.ordinary, h.parked, h.standing, h.replied⟩
  | unsealed => exact ⟨h.accepted, h.ordinary, h.parked, h.standing, h.replied⟩

theorem Streamed.abort (h : Streamed p) (halive : p.gone = false) : Streamed p.abort := by
  obtain ⟨m, hm, heq⟩ := p.abort_eq
  rw [heq]
  refine h.of_standing h.accepted rfl rfl ?_ (fun r hr => ?_)
  · show EventPublisher.stream _ <+: _
    rw [stream_eq (p := p) hm]
    refine h.standing.isPrefix (fun r hr => ?_)
    rw [EventPublisher.gone, hr] at halive
    cases halive
  · have hnone := h.unreplied halive
    rw [show p.reply = some r from hr] at hnone
    cases hnone

theorem streamed_reach {ok : EventPublisher Body → PublisherAction Body → Prop}
    (h : publisher.Reach ok p) : Streamed p := by
  refine h.invariant (P := Streamed) ?_ ?_
  · rintro p ⟨estimate, tx, channel, session, sender, deadline, now, rfl⟩
    exact ⟨rfl, (fun c hc => nomatch hc), (fun c hc => nomatch hc), rfl, (fun r hr => nomatch hr)⟩
  · intro p a p' hr hinv _ hs
    obtain ⟨_, hpoll⟩ | ⟨halive, rfl⟩ | hside := EventPublisher.step_cases hs
    · exact hinv.poll (numbered_reach hr) hpoll
    · exact hinv.abort halive
    · exact hinv.side hside

/-! ## The sequencing law -/

/-- The events of a transaction as the host sees them. -/
structure Sequenced (p : EventPublisher Body) : Prop where
  /-- Numbers are `1..n`. -/
  numbers : p.mailbox.delivered.map (·.sequence) = List.range' 1 p.mailbox.delivered.length
  /-- The next number only counts deliveries, so a failed enqueue uses up none. -/
  next : p.gone = false → p.nextSeq = numberAt (p.mailbox.delivered.length + 1)
  /-- Events come in the order of the admitted commands. -/
  fifo : ∃ ordinary ends, p.stream = ordinary ++ ends ∧ ordinary <+: emitted p.accepted ∧
    (ends = [] ∨ ∃ t, ends = [.endedEvent t])
  /-- Only the first event establishes a session. -/
  established : ∀ i event external, p.mailbox.delivered[i]? = some event →
    event.payload = .sessionEstablished external → i = 0 ∧ event.sequence = 1
  /-- Only the last event ends the transaction. -/
  ended : ∀ i event t, p.mailbox.delivered[i]? = some event → event.payload = .endedEvent t →
    i + 1 = p.mailbox.delivered.length
  /-- A published terminal event has every accepted event before it. -/
  published : ∀ r, p.pc = .returned (some r) ∨ p.reply = some r → r.delivery = .published →
    ∃ before last t, p.mailbox.delivered = before ++ [last] ∧ last.payload = .endedEvent t ∧
      before.map (·.payload) = emitted p.accepted ∧
      (p.accepted.filterMap published?).Sublist (before.map (·.payload)) ∧
      r.lastSequence = last.sequence

/-- No end was asked for. -/
theorem Streamed.not_ended (h : Streamed p) (t : TransactionEndEvent) :
    .endedEvent t ∉ emitted p.taken := by
  have htaken : ∀ c ∈ p.taken, c.isOrdinary = true := by
    intro c hc
    refine h.ordinary c ?_
    rw [h.accepted]
    exact List.mem_append_left _ hc
  exact (emitted_shape htaken).2 t

/-- The stream splits into what the commands asked for and the terminal event. -/
theorem Streamed.split (h : Streamed p) : ∃ ordinary ends, p.stream = ordinary ++ ends ∧
    ordinary <+: emitted p.accepted ∧ (ends = [] ∨ ∃ t, ends = [.endedEvent t]) := by
  have hmono : emitted p.taken <+: emitted p.accepted := by
    rw [h.accepted]
    exact emitted_append
  by_cases hpub : ∃ r, p.pc = .returned (some r) ∧ r.delivery = .published
  · obtain ⟨r, hr, hd⟩ := hpub
    have hstanding := h.standing
    simp only [hr, EventPublisher.Standing, if_pos hd] at hstanding
    obtain ⟨_, ⟨t, ht⟩, _⟩ := hstanding
    exact ⟨_, _, ht, hmono, .inr ⟨t, rfl⟩⟩
  · refine ⟨p.stream, [], (List.append_nil _).symm, List.IsPrefix.trans ?_ hmono, .inl rfl⟩
    have hstanding := h.standing
    cases hpc : p.pc with
    | returned r =>
        rw [hpc] at hstanding
        cases r with
        | none => exact hstanding
        | some r =>
            have hne : r.delivery ≠ .published := fun hd => hpub ⟨r, hpc, hd⟩
            simpa only [EventPublisher.Standing, if_neg hne] using hstanding.2
    | _ =>
        rw [hpc] at hstanding
        exact hstanding.isPrefix (by simp)

/-- An end is the last element of the stream. -/
theorem Streamed.ended_last (h : Streamed p) {i : Nat} {t : TransactionEndEvent}
    (hi : p.stream[i]? = some (.endedEvent t)) : i + 1 = p.stream.length := by
  obtain ⟨ordinary, ends, heq, hearlier, hends⟩ := h.split
  have hshape := (emitted_shape h.ordinary).2 t
  have hlate : ordinary.length ≤ i := by
    by_contra hlt
    rw [heq, List.getElem?_append_left (by omega)] at hi
    exact hshape (hearlier.subset (List.mem_of_getElem? hi))
  have hbound := (List.getElem?_eq_some_iff.mp hi).1
  rw [heq, List.length_append] at hbound ⊢
  rcases hends with rfl | ⟨t', rfl⟩
  · simp only [List.length_nil] at hbound
    omega
  · simp only [List.length_singleton] at hbound ⊢
    omega

/-- An establishment is its first element. -/
theorem Streamed.established_first (h : Streamed p) {i : Nat} {external : ExternalSessionId}
    (hi : p.stream[i]? = some (.sessionEstablished external)) : i = 0 := by
  obtain ⟨ordinary, ends, heq, ⟨rest, hrest⟩, hends⟩ := h.split
  have hshape := (emitted_shape h.ordinary).1
  by_contra hne
  obtain ⟨k, rfl⟩ := Nat.exists_eq_succ_of_ne_zero hne
  have hearly : k + 1 < ordinary.length := by
    by_contra hlate
    rw [heq, List.getElem?_append_right (by omega)] at hi
    rcases hends with rfl | ⟨t, rfl⟩
    · simp at hi
    · cases List.mem_singleton.mp (List.mem_of_getElem? hi)
  rw [heq, List.getElem?_append_left hearly] at hi
  have hmem : .sessionEstablished external ∈ (emitted p.accepted).tail := by
    rw [← hrest, List.tail_append_of_ne_nil (by intro hnil; simp [hnil] at hearly)]
    refine List.mem_append_left _ (List.mem_of_getElem? (i := k) ?_)
    rw [List.getElem?_tail]
    exact hi
  obtain ⟨body, hbody⟩ := hshape _ hmem
  cases hbody

/-- **The sequencing law**, for every order of commands, deadlines, capacity
rejections and receiver drops, in every run of fewer than `2 ^ 64` events. -/
theorem publisher_sequenced (h : publisher.Reach always p)
    (hcount : p.mailbox.delivered.length < 2 ^ 64) : Sequenced p := by
  have hnum := numbered_reach h
  have hstr := streamed_reach h
  have hnumbers : p.mailbox.delivered.map (·.sequence) =
      List.range' 1 p.mailbox.delivered.length := by
    rw [hnum.delivered]
    conv_rhs => rw [← List.map_id (List.range' 1 p.mailbox.delivered.length)]
    refine List.map_congr_left (fun k hk => ?_)
    have hbounds := List.mem_range'_1.mp hk
    simp only [numberAt, id_eq]
    omega
  have hpayload : ∀ {i : Nat} {event : TransactionEvent Body},
      p.mailbox.delivered[i]? = some event → p.stream[i]? = some event.payload := by
    intro i event hi
    rw [EventPublisher.stream, List.getElem?_map, hi]
    rfl
  refine ⟨hnumbers, hnum.next, hstr.split, ?_, ?_, ?_⟩
  · intro i event external hi hest
    have hzero := hstr.established_first (hest ▸ hpayload hi)
    refine ⟨hzero, ?_⟩
    have hseq : (p.mailbox.delivered.map (·.sequence))[i]? = some event.sequence := by
      rw [List.getElem?_map, hi]
      rfl
    rw [hnumbers, hzero] at hseq
    have hpos := (List.getElem?_eq_some_iff.mp hseq).1
    simpa using (List.getElem?_eq_some_iff.mp hseq).2.symm
  · intro i event t hi hend
    have hlast := hstr.ended_last (hend ▸ hpayload hi)
    rwa [EventPublisher.stream, List.length_map] at hlast
  · intro r hr hd
    have hpc : p.pc = .returned (some r) := hr.elim id (hstr.replied r)
    have hstanding := hstr.standing
    simp only [hpc, EventPublisher.Standing, if_pos hd] at hstanding
    obtain ⟨hlastSeq, ⟨t, ht⟩, hempty, _⟩ := hstanding
    have haccepted : p.accepted = p.taken := by rw [hstr.accepted, hempty, List.append_nil]
    obtain ⟨before, ending, hdel, hbefore, hending⟩ := List.map_eq_append_iff.mp ht
    obtain ⟨last, hlist, hlast⟩ := List.map_eq_singleton_iff.mp hending
    subst hlist
    refine ⟨before, last, t, hdel, hlast, by rw [hbefore, haccepted], ?_, ?_⟩
    · rw [hbefore, haccepted]
      exact published_sublist
    · -- the last number reported is that of the terminal event, the `n`th
      have hseq : (p.mailbox.delivered.map (·.sequence))[before.length]? = some last.sequence := by
        simp [hdel]
      rw [hnumbers, hdel, List.getElem?_range' (by simp)] at hseq
      have hn : numberAt p.mailbox.delivered.length = before.length + 1 := by
        have hlen : p.mailbox.delivered.length = before.length + 1 := by simp [hdel]
        rw [numberAt, hlen]
        omega
      rw [hlastSeq, hnum.last, hn]
      have hsum := Option.some.inj hseq
      omega

/-- A mailbox with room, a session to establish and one event before the seal. -/
def sampleSealRun (tx : TransactionId) (channel : ChannelId) (external : ExternalSessionId) :
    List (PublisherAction Nat) :=
  [.send (.establishExternal external), .enqueue 0, .poll, .poll, .send (.publish (.ordinary 7)),
    .enqueue 0, .closeGate, .sendSeal ⟨endEvent tx channel none .completed 0, 50⟩, .poll, .poll,
    .poll, .poll, .poll]

theorem sealed_run_sequenced : ∃ p : EventPublisher Nat, publisher.Reach always p ∧
    p.reply = some ⟨.published, 3⟩ ∧ p.mailbox.delivered.length = 3 ∧ Sequenced p := by
  have hinit : publisher.init (.start (fun _ => 256) ⟨1⟩ ⟨"agent", by decide⟩ none ⟨8, 4096⟩ 1000 0 :
      EventPublisher Nat) := ⟨_, _, _, _, _, _, _, rfl⟩
  obtain ⟨p, hp, htest⟩ := System.exists_of_run hinit
    (sampleSealRun ⟨1⟩ ⟨"agent", by decide⟩ ⟨"grok-1", by decide⟩)
    (fun p => p.reply = some ⟨.published, 3⟩ && p.mailbox.delivered.length = 3)
    (by decide +kernel)
  simp only [Bool.and_eq_true, decide_eq_true_eq] at htest
  exact ⟨p, hp, htest.1, htest.2, publisher_sequenced hp (by rw [htest.2]; decide)⟩

end Monoloop.Publisher
