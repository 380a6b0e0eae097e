import Monoloop.Publisher.Agreement

/-!
# One session for all events

The publisher derives the session of an event from what it was started with, an
establishment and the seal; the completion reads the ledger's session key. This
module says which of them each event carries, and when the two sides agree.
-/

namespace Monoloop.Publisher

open Lifecycle (LedgerEntry sampleChannel sampleTransaction)
open Transition (System always)

variable {Body : Type} {p p' : EventPublisher Body}

/-! ## The session the publisher holds -/

section Held

variable {tx : TransactionId} {admitted : Option SessionId} {external : ExternalSessionId}
  {events : List (TransactionEvent Body)} {event : TransactionEvent Body}

/-- The session after an establishment: an authoritative admitted id stays. -/
def claimedSession (tx : TransactionId) (admitted : Option SessionId)
    (external : ExternalSessionId) : SessionId :=
  match admitted with
  | some id => if isTransactionScopedSession id tx then .fromExternal external else id
  | none => .fromExternal external

/-- The session the transaction came with or established; only the first of
`events` can establish one. -/
def ownSession (tx : TransactionId) (admitted : Option SessionId) :
    List (TransactionEvent Body) → Option SessionId
  | [] => admitted
  | first :: _ =>
      match first.payload with
      | .sessionEstablished external => some (claimedSession tx admitted external)
      | _ => admitted

/-- The session of the events after `events`. -/
def heldSession (tx : TransactionId) (admitted : Option SessionId)
    (events : List (TransactionEvent Body)) : SessionId :=
  (ownSession tx admitted events).getD (transactionScopedSessionId tx)

theorem ensureSession_claims :
    (ensureSession admitted (some (.fromExternal external)) tx).2 =
      claimedSession tx admitted external := by
  cases admitted with
  | none => rfl
  | some id =>
      simp only [ensureSession, claimedSession]
      split <;> rfl

theorem ensureSession_unclaimed :
    (ensureSession admitted none tx).2 = admitted.getD (transactionScopedSessionId tx) := by
  cases admitted <;> rfl

theorem ownSession_append (h : events ≠ []) (more : List (TransactionEvent Body)) :
    ownSession tx admitted (events ++ more) = ownSession tx admitted events := by
  cases events with
  | nil => exact absurd rfl h
  | cons => rfl

theorem ownSession_established (h : event.payload = .sessionEstablished external) :
    ownSession tx admitted (event :: events) = some (claimedSession tx admitted external) := by
  simp [ownSession, h]

theorem ownSession_concat_ended {t : TransactionEndEvent} (h : event.payload = .endedEvent t) :
    ownSession tx admitted (events ++ [event]) = ownSession tx admitted events := by
  cases events with
  | nil => simp [ownSession, h]
  | cons => rfl

theorem heldSession_append (h : events ≠ []) (more : List (TransactionEvent Body)) :
    heldSession tx admitted (events ++ more) = heldSession tx admitted events := by
  rw [heldSession, ownSession_append h, heldSession]

theorem heldSession_established (h : event.payload = .sessionEstablished external) :
    heldSession tx admitted (event :: events) = claimedSession tx admitted external := by
  rw [heldSession, ownSession_established h]
  rfl

theorem heldSession_ordinary {body : Body} (h : event.payload = .ordinary body) :
    heldSession tx admitted (event :: events) =
      admitted.getD (transactionScopedSessionId tx) := by
  simp [heldSession, ownSession, h]

end Held

/-- The session that the publisher has come to by now. -/
def EventPublisher.own (p : EventPublisher Body) : Option SessionId :=
  ownSession p.transactionId p.sessionId p.mailbox.delivered

/-- What the publisher's variable can hold after `events`. -/
def Holds (p : EventPublisher Body) (events : List (TransactionEvent Body))
    (session : Option SessionId) : Prop :=
  session = some (heldSession p.transactionId p.sessionId events) ∨
    (events = [] ∧ session = p.sessionId)

/-- It is the transaction's own session, or the invented one for want of it. -/
theorem Holds.cases {events : List (TransactionEvent Body)} {session : Option SessionId}
    (h : Holds p events session) :
    session = ownSession p.transactionId p.sessionId events ∨
      (ownSession p.transactionId p.sessionId events = none ∧
        session = some (transactionScopedSessionId p.transactionId)) := by
  rcases h with rfl | ⟨rfl, rfl⟩
  · unfold heldSession
    cases ownSession p.transactionId p.sessionId events with
    | some id => exact .inl rfl
    | none => exact .inr ⟨rfl, rfl⟩
  · exact .inl rfl

/-- The terminal event's session, for what the publisher holds and the seal offers. -/
def EndSession (p : EventPublisher Body) (events : List (TransactionEvent Body))
    (cmd : SealCommand) (id : SessionId) : Prop :=
  ∃ session, Holds p events session ∧
    id = (ensureSession session cmd.terminal.sessionId p.transactionId).2

theorem EndSession.congr {events : List (TransactionEvent Body)} {cmd : SealCommand}
    {id : SessionId} (h : EndSession p events cmd id) (htx : p'.transactionId = p.transactionId)
    (hid : p'.sessionId = p.sessionId) : EndSession p' events cmd id := by
  unfold EndSession Holds at h ⊢
  rwa [htx, hid]

/-- An event in flight carries the session that its delivery leaves behind. -/
def FlightSession (p : EventPublisher Body) (f : InFlight Body) : Prop :=
  match f.establishes with
  | some sid => ∃ external, f.event.payload = .sessionEstablished external ∧
      sid = .fromExternal external ∧ p.mailbox.delivered = [] ∧ p.session = p.sessionId
  | none => p.session = some f.event.sessionId ∧ f.event.sessionId =
      heldSession p.transactionId p.sessionId (p.mailbox.delivered ++ [f.event])

/-- **The sessions of the events.** -/
structure SessionInv (p : EventPublisher Body) : Prop where
  held : p.gone = false → p.pc.isEnding = false → Holds p p.mailbox.delivered p.session
  start : p.pc.serves = true → p.mailbox.delivered = [] → p.session = p.sessionId
  flight : ∀ f, p.pc.flight? = some f → p.pc.isEnding = false → FlightSession p f
  later : ∀ first rest, p.mailbox.delivered = first :: rest →
    ∀ event ∈ rest, (∀ t, event.payload ≠ .endedEvent t) →
      event.sessionId = heldSession p.transactionId p.sessionId p.mailbox.delivered
  ending : ∀ f cmd, p.pc = .ending f cmd →
    EndSession p p.mailbox.delivered cmd f.event.sessionId
  ended : ∀ before last t, p.mailbox.delivered = before ++ [last] →
    last.payload = .endedEvent t →
    ∃ cmd, p.sealed = some cmd ∧ EndSession p before cmd last.sessionId

/-- The fields the invariant reads, apart from the wait. -/
structure SameSessions (p p' : EventPublisher Body) : Prop where
  transactionId : p'.transactionId = p.transactionId
  sessionId : p'.sessionId = p.sessionId
  delivered : p'.mailbox.delivered = p.mailbox.delivered
  session : p'.session = p.session
  sealed : ∀ cmd, p.sealed = some cmd → p'.sealed = some cmd

theorem SameSessions.flightSession (h : SameSessions p p') {f : InFlight Body}
    (hf : FlightSession p f) : FlightSession p' f := by
  unfold FlightSession at hf ⊢
  rwa [h.transactionId, h.sessionId, h.delivered, h.session]

/-- A step that delivers nothing and keeps the session. -/
theorem SessionInv.frame (h : SessionInv p) (hsame : SameSessions p p')
    (halive : p'.gone = false → p.gone = false)
    (hending : p'.gone = false → p'.pc.isEnding = false → p.pc.isEnding = false)
    (hserves : p'.pc.serves = true → p'.mailbox.delivered = [] → p.pc.serves = true)
    (hflight : ∀ f, p'.pc.flight? = some f → p'.pc.isEnding = false → FlightSession p f)
    (hend : ∀ f cmd, p'.pc = .ending f cmd →
      EndSession p p.mailbox.delivered cmd f.event.sessionId) : SessionInv p' where
  held hg he := by
    unfold Holds
    rw [hsame.transactionId, hsame.sessionId, hsame.delivered, hsame.session]
    exact h.held (halive hg) (hending hg he)
  start hs hempty := by
    rw [hsame.session, hsame.sessionId]
    exact h.start (hserves hs hempty) (hsame.delivered ▸ hempty)
  flight f hf he := hsame.flightSession (hflight f hf he)
  later first rest hdel event hmem hne := by
    rw [hsame.transactionId, hsame.sessionId, hsame.delivered]
    exact h.later first rest (hsame.delivered ▸ hdel) event hmem hne
  ending f cmd hpc := by
    rw [hsame.delivered]
    exact (hend f cmd hpc).congr hsame.transactionId hsame.sessionId
  ended before last t hdel hlast := by
    obtain ⟨cmd, hsealed, hsession⟩ := h.ended before last t (hsame.delivered ▸ hdel) hlast
    exact ⟨cmd, hsame.sealed cmd hsealed, hsession.congr hsame.transactionId hsame.sessionId⟩

/-- A wait that is left as it is. -/
theorem SessionInv.still (h : SessionInv p) (hsame : SameSessions p p') (hpc : p'.pc = p.pc) :
    SessionInv p' := by
  refine h.frame hsame ?_ ?_ ?_ ?_ ?_
  · unfold EventPublisher.gone
    rw [hpc]
    exact id
  · rw [hpc]
    exact fun _ => id
  · rw [hpc]
    exact fun hs _ => hs
  · rw [hpc]
    exact h.flight
  · rw [hpc]
    exact h.ending

/-- A step that returns without delivering anything. -/
theorem SessionInv.returned (h : SessionInv p) (hsame : SameSessions p p')
    {r : Option TerminalPublicationResult} (hpc : p'.pc = .returned r) : SessionInv p' := by
  have hgone : p'.gone = false → False := by
    rw [EventPublisher.gone, hpc]
    intro hg
    cases hg
  refine h.frame hsame (fun hg => (hgone hg).elim) (fun hg => (hgone hg).elim) ?_ ?_ ?_
  · intro hs
    rw [hpc] at hs
    cases hs
  · intro f hf
    rw [hpc] at hf
    cases hf
  · intro f cmd hf
    rw [hpc] at hf
    cases hf

/-! ## Steps -/

namespace PublisherPc

variable {pc pc' : PublisherPc Body} {f : InFlight Body} {cmd : SealCommand}
  {e : TerminalEventDelivery}

theorem refly_serves : (pc.refly f).serves = pc.serves := by
  cases pc <;> rfl

theorem refly_isEnding : (pc.refly f).isEnding = pc.isEnding := by
  cases pc <;> rfl

/-- A new seal finds the publisher before the terminal event, and in service if
it leaves it there. -/
theorem sealedBy_before (h : pc.sealedBy cmd = some pc') :
    pc.isEnding = false ∧ (pc'.serves = true → pc.serves = true) := by
  unfold sealedBy at h
  split at h <;> cases h
  · exact ⟨rfl, fun _ => rfl⟩
  · exact ⟨rfl, fun hs => by cases hs⟩
  · exact ⟨rfl, fun hs => by cases hs⟩

theorem flying_waits (h : pc.flying f = some pc') : pc'.serves = false := by
  unfold flying at h
  split at h <;> cases h <;> rfl

theorem failing_waits (h : pc.failing e = some pc') :
    pc.isEnding = false ∧ pc'.serves = false := by
  unfold failing at h
  split at h <;> cases h <;> exact ⟨rfl, rfl⟩

theorem isEnding_of_serves (h : pc.serves = true) : pc.isEnding = false := by
  cases pc with
  | ending => cases h
  | _ => rfl

theorem isEnding_of_landed (h : pc.landed = some pc') : pc.isEnding = false := by
  cases pc with
  | ending => cases h
  | _ => rfl

end PublisherPc

/-- One more event, the end or one that names the session held. -/
theorem SessionInv.later_concat (h : SessionInv p) {new : TransactionEvent Body}
    (hnew : p.mailbox.delivered ≠ [] → (∃ t, new.payload = .endedEvent t) ∨
      new.sessionId = heldSession p.transactionId p.sessionId p.mailbox.delivered) :
    ∀ first rest, p.mailbox.delivered ++ [new] = first :: rest →
      ∀ event ∈ rest, (∀ t, event.payload ≠ .endedEvent t) →
        event.sessionId =
          heldSession p.transactionId p.sessionId (p.mailbox.delivered ++ [new]) := by
  intro first rest hcons event hmem hev
  cases hold : p.mailbox.delivered with
  | nil =>
      rw [hold] at hcons
      cases hcons
      cases hmem
  | cons first₀ rest₀ =>
      have hne : p.mailbox.delivered ≠ [] := by simp [hold]
      rw [hold] at hcons
      cases hcons
      rw [← hold, heldSession_append hne]
      rcases List.mem_append.mp hmem with hmem | hmem
      · exact h.later _ _ hold event hmem hev
      · rw [List.mem_singleton.mp hmem] at hev ⊢
        rcases hnew hne with ⟨t, ht⟩ | hsession
        · exact absurd ht (hev t)
        · exact hsession

/-- A delivery of anything but the end. -/
theorem SessionInv.deliver {f : InFlight Body} (h : SessionInv p) (hstr : Streamed p)
    (hflight : p.pc.flight? = some f) (hending : p.pc.isEnding = false)
    {pc : PublisherPc Body} (hnext : p.pc.landed = some pc)
    (htx : p'.transactionId = p.transactionId) (hid : p'.sessionId = p.sessionId)
    (hdel : p'.mailbox.delivered = p.mailbox.delivered ++ [f.event])
    (hsession : p'.session = match f.establishes with
      | none => p.session
      | some sid => (ensureSession p.session (some sid) p.transactionId).1)
    (hpc : p'.pc = pc) : SessionInv p' := by
  have hne : p'.mailbox.delivered ≠ [] := by
    rw [hdel]
    simp
  -- the session afterwards is the one the new stream stands for
  have hheld : p'.session =
      some (heldSession p.transactionId p.sessionId (p.mailbox.delivered ++ [f.event])) := by
    have hf := h.flight f hflight hending
    unfold FlightSession at hf
    rw [hsession]
    cases hest : f.establishes with
    | none =>
        rw [hest] at hf
        simp only [hf.1, ← hf.2]
    | some sid =>
        rw [hest] at hf
        obtain ⟨external, hpayload, rfl, hempty, hstart⟩ := hf
        simp only [hempty, List.nil_append, hstart, ensureSession_fst,
          heldSession_established hpayload, ensureSession_claims]
  have hplain := PublisherPc.landed_plain hnext
  have hnoEnd : ∀ t, f.event.payload ≠ .endedEvent t := by
    intro t ht
    refine hstr.not_ended t ?_
    rw [← hstr.standing.landing hflight hnext, ht]
    simp
  refine ⟨fun _ _ => .inl ?_, fun _ hempty => absurd hempty hne, fun g hg => ?_, ?_, ?_, ?_⟩
  · rw [hheld, htx, hid, hdel]
  · rw [hpc, PublisherPc.landed_flight hnext] at hg
    cases hg
  · rw [htx, hid, hdel]
    refine h.later_concat (fun hold => .inr ?_)
    -- in flight behind another event, it establishes nothing
    have hf := h.flight f hflight hending
    unfold FlightSession at hf
    split at hf
    · obtain ⟨_, _, _, hempty, _⟩ := hf
      exact absurd hempty hold
    · rw [hf.2, heldSession_append hold]
  · intro g cmd hg
    rw [hpc] at hg
    rw [hg] at hplain
    cases hplain.2.1
  · intro before last t hsplit hlast
    rw [hdel] at hsplit
    have hlast' := List.append_inj_right' hsplit rfl
    cases hlast'
    exact absurd hlast (hnoEnd t)

/-- The end is delivered. -/
theorem SessionInv.deliverEnd {f : InFlight Body} {cmd : SealCommand} {t : TransactionEndEvent}
    (h : SessionInv p) (hpc : p.pc = .ending f cmd) (ht : f.event.payload = .endedEvent t)
    (hsealed : p'.sealed = some cmd)
    (htx : p'.transactionId = p.transactionId) (hid : p'.sessionId = p.sessionId)
    (hdel : p'.mailbox.delivered = p.mailbox.delivered ++ [f.event])
    (hgone : ∃ r, p'.pc = .returned r) : SessionInv p' := by
  obtain ⟨r, hr⟩ := hgone
  refine ⟨fun hg => ?_, fun hs => ?_, fun g hg => ?_, ?_, fun g cmd' hg => ?_, ?_⟩
  · rw [EventPublisher.gone, hr] at hg
    cases hg
  · rw [hr] at hs
    cases hs
  · rw [hr] at hg
    cases hg
  · rw [htx, hid, hdel]
    exact h.later_concat (fun _ => .inl ⟨t, ht⟩)
  · rw [hr] at hg
    cases hg
  · intro before last t' hsplit hlast
    rw [hdel] at hsplit
    obtain ⟨rfl, hsame⟩ := List.append_inj' hsplit rfl
    cases hsame
    exact ⟨cmd, hsealed, (h.ending f cmd hpc).congr htx hid⟩

/-- An ordinary event carries what the publisher holds. -/
theorem SessionInv.publishing {payload : TransactionEventPayload Body} {sid : SessionId}
    (h : SessionInv p) (hserves : p.pc.serves = true)
    (hordinary : ∃ body, payload = .ordinary body)
    (hsid : sid = (ensureSession p.session none p.transactionId).2) :
    sid = heldSession p.transactionId p.sessionId
        (p.mailbox.delivered ++ [p.event sid payload]) ∧
      sid = heldSession p.transactionId p.sessionId p.mailbox.delivered := by
  obtain ⟨body, rfl⟩ := hordinary
  by_cases hempty : p.mailbox.delivered = []
  · rw [h.start hserves hempty, ensureSession_unclaimed] at hsid
    rw [hempty, List.nil_append,
      heldSession_ordinary (rfl : (p.event sid (.ordinary body)).payload = .ordinary body)]
    exact ⟨hsid, hsid⟩
  · rw [heldSession_append hempty]
    rcases h.held (alive_of_serves hserves) (PublisherPc.isEnding_of_serves hserves) with
      hsession | ⟨hnil, _⟩
    · rw [hsession] at hsid
      exact ⟨hsid, hsid⟩
    · exact absurd hnil hempty

/-- An ordinary event takes off. -/
theorem SessionInv.publish {payload : TransactionEventPayload Body} {sid : SessionId}
    {pc : PublisherPc Body} (h : SessionInv p) (hserves : p.pc.serves = true)
    (hordinary : ∃ body, payload = .ordinary body)
    (hsid : sid = (ensureSession p.session none p.transactionId).2)
    (hnext : p.pc.flying ⟨p.event sid payload, none, .fresh⟩ = some pc)
    (htx : p'.transactionId = p.transactionId) (hid : p'.sessionId = p.sessionId)
    (hdel : p'.mailbox.delivered = p.mailbox.delivered) (hsession : p'.session = some sid)
    (hpc : p'.pc = pc) (hsealed : ∀ cmd, p.sealed = some cmd → p'.sealed = some cmd) :
    SessionInv p' := by
  obtain ⟨hflies, hholds⟩ := h.publishing hserves hordinary hsid
  obtain ⟨_, hplain, _⟩ := PublisherPc.flying_plain hnext
  refine ⟨fun _ _ => .inl ?_, fun hs => ?_, fun g hg _ => ?_, ?_, fun g cmd hg => ?_, ?_⟩
  · rw [hsession, htx, hid, hdel, ← hholds]
  · rw [hpc, PublisherPc.flying_waits hnext] at hs
    cases hs
  · rw [hpc, PublisherPc.flying_flight hnext] at hg
    cases hg
    refine ⟨hsession, ?_⟩
    rw [htx, hid, hdel]
    exact hflies
  · rw [htx, hid, hdel]
    exact h.later
  · rw [hpc] at hg
    rw [hg] at hplain
    cases hplain
  · intro before last t hsplit hlast
    obtain ⟨cmd, hcmd, hend⟩ := h.ended before last t (hdel ▸ hsplit) hlast
    exact ⟨cmd, hsealed cmd hcmd, hend.congr htx hid⟩

theorem EventPublisher.commit_session (p : EventPublisher Body) (f : InFlight Body) :
    (p.commit f).session = match f.establishes with
      | none => p.session
      | some sid => (ensureSession p.session (some sid) p.transactionId).1 := by
  unfold commit
  cases f.establishes <;> rfl

theorem SessionInv.poll (h : SessionInv p) (hnum : Numbered p) (hstr : Streamed p)
    (hseal : SealInv p) (hs : PollStep p p') : SessionInv p' := by
  -- a wait before the terminal event is not it
  have hplain : ∀ {pc : PublisherPc Body}, pc.isEnding = false → ∀ f cmd, pc = .ending f cmd →
      EndSession p p.mailbox.delivered cmd f.event.sessionId := by
    intro pc hpc f cmd heq
    rw [heq] at hpc
    cases hpc
  cases hs with
  | idle => exact h
  | @pending f send m flight mail =>
      refine h.frame ⟨rfl, rfl, mail, rfl, fun _ => id⟩ (fun _ => alive_of_flight flight)
        (fun _ hending => PublisherPc.refly_isEnding ▸ hending)
        (fun hserves _ => PublisherPc.refly_serves ▸ hserves) (fun g hg hending => ?_)
        (fun g cmd hg => ?_)
      · rw [PublisherPc.refly_flight flight] at hg
        cases hg
        exact h.flight f flight (PublisherPc.refly_isEnding ▸ hending)
      · cases hpc : p.pc with
        | ending f₀ cmd₀ =>
            rw [hpc] at flight
            cases flight
            simp only [hpc, PublisherPc.refly, PublisherPc.ending.injEq] at hg
            rw [← hg.1, ← hg.2]
            exact (h.ending _ _ hpc :)
        | _ => simp [hpc, PublisherPc.refly] at hg
  | sealTaken queued narrows next =>
      have halive : p.gone = false := alive_of next (fun _ => rfl)
      obtain ⟨hbefore, hserves⟩ := PublisherPc.sealedBy_before next
      refine h.frame ⟨rfl, rfl, rfl, rfl, fun cmd hcmd => ?_⟩ (fun _ => halive)
        (fun _ _ => hbefore) (fun hs _ => hserves hs) (fun g hg _ => ?_)
        (hplain (PublisherPc.sealedBy_plain next).2.1)
      · rw [hseal.sealed halive, (PublisherPc.sealedBy_seal next).1] at hcmd
        cases hcmd
      · rw [PublisherPc.sealedBy_flight next] at hg
        exact h.flight g hg hbefore
  | sealClosed => exact h.still ⟨rfl, rfl, rfl, rfl, fun _ => id⟩ rfl
  | sealDead at_ lost =>
      refine h.frame ⟨rfl, rfl, rfl, rfl, fun _ => id⟩ (fun _ => alive_of_flight (by rw [at_]; rfl))
        (fun _ _ => by rw [at_]; rfl) (fun hs => ?_) (fun g hg _ => ?_) (hplain rfl)
      · cases hs
      · exact h.flight g (by rw [at_]; exact hg) (by rw [at_]; rfl)
  | cmdClosed => exact h.still ⟨rfl, rfl, rfl, rfl, fun _ => id⟩ rfl
  | ignored => exact h.still ⟨rfl, rfl, rfl, rfl, fun _ => id⟩ rfl
  | discarded => exact h.still ⟨rfl, rfl, rfl, rfl, fun _ => id⟩ rfl
  | establishing queued first next =>
      have hserves := PublisherPc.flying_serves next
      have hempty : p.mailbox.delivered = [] := by
        by_contra hne
        rw [(ignoresEstablish_iff hnum (alive_of_serves hserves)).mpr
          (by simpa [EventPublisher.stream] using hne)] at first
        cases first
      refine h.frame ⟨rfl, rfl, rfl, rfl, fun _ => id⟩ (fun _ => alive_of_serves hserves)
        (fun _ _ => PublisherPc.isEnding_of_serves hserves) (fun _ _ => hserves)
        (fun g hg _ => ?_) (hplain (PublisherPc.flying_plain next).2.1)
      rw [PublisherPc.flying_flight next] at hg
      cases hg
      exact ⟨_, rfl, rfl, hempty, h.start hserves hempty⟩
  | @publishing payload rest sid pc queued resolved next =>
      have hserves := PublisherPc.flying_serves next
      have hordinary : ∃ body, payload = .ordinary body := by
        have hcmd := hstr.ordinary (.publish payload) (by simp [hstr.accepted, queued])
        cases payload with
        | ordinary body => exact ⟨body, rfl⟩
        | sessionEstablished | endedEvent => cases hcmd
      exact h.publish hserves hordinary resolved next rfl rfl rfl rfl rfl (fun _ => id)
  | @delivered f m g pc flight may mail narrows next =>
      have hcommit := EventPublisher.commit_session { p with mailbox := m } f
      obtain ⟨session, established, heq⟩ := EventPublisher.commit_eq { p with mailbox := m } f
      rw [heq] at hcommit ⊢
      exact h.deliver hstr flight (PublisherPc.isEnding_of_landed next) next rfl rfl mail hcommit rfl
  | failed fails mail narrows next =>
      obtain ⟨hbefore, hwaits⟩ := PublisherPc.failing_waits next
      refine h.frame ⟨rfl, rfl, mail, rfl, fun _ => id⟩ (fun _ => alive_of next (fun _ => rfl))
        (fun _ _ => hbefore) (fun hs => ?_) (fun g hg => ?_)
        (hplain (PublisherPc.failing_plain next).2.1)
      · rw [hwaits] at hs
        cases hs
      · rw [PublisherPc.failing_flight next] at hg
        cases hg
  | @ending cmd at_ empty lost =>
      have hholds := h.held (by simp [EventPublisher.gone, at_]) (by rw [at_]; rfl)
      refine ⟨fun _ he => ?_, fun hs => ?_, fun _ _ he => ?_, h.later, fun g cmd' hg => ?_, h.ended⟩
      · cases he
      · cases hs
      · cases he
      · cases hg
        exact ⟨p.session, hholds, rfl⟩
  | @ended f cmd m at_ may mail =>
      have hsealed : p.sealed = some cmd := by
        rw [hseal.sealed (by simp [EventPublisher.gone, at_]), at_]
        rfl
      obtain ⟨session, established, heq⟩ := EventPublisher.commit_eq { p with mailbox := m } f
      rw [heq]
      exact h.deliverEnd at_ (hseal.ending f cmd at_) hsealed rfl rfl mail ⟨_, rfl⟩
  | @finished e m g _ _ replies alive fails mail narrows replied =>
      exact h.returned ⟨rfl, rfl, mail, rfl, fun _ => id⟩ rfl

theorem SessionInv.side (h : SessionInv p) {fin : Bool} (hs : SideStep p fin p') :
    SessionInv p' := by
  cases hs with
  | mail mail => exact h.still ⟨rfl, rfl, mail, rfl, fun _ => id⟩ rfl
  | _ => exact h.still ⟨rfl, rfl, rfl, rfl, fun _ => id⟩ rfl

theorem SessionInv.abort (h : SessionInv p) : SessionInv p.abort := by
  obtain ⟨m, hm, heq⟩ := p.abort_eq
  rw [heq]
  exact h.returned ⟨rfl, rfl, hm, rfl, fun _ => id⟩ rfl

theorem sessionInv_reach {ok : EventPublisher Body → PublisherAction Body → Prop}
    (h : publisher.Reach ok p) : SessionInv p := by
  refine h.invariant (P := SessionInv) ?_ ?_
  · rintro p ⟨estimate, tx, channel, session, sender, deadline, now, rfl⟩
    refine ⟨fun _ _ => .inr ⟨rfl, rfl⟩, fun _ _ => rfl, fun f hf => ?_, fun first rest hdel => ?_,
      fun f cmd hf => ?_, fun before last t hdel => ?_⟩
    · cases hf
    · cases hdel
    · cases hf
    · have hnil : ([] : List (TransactionEvent Body)) = before ++ [last] := hdel
      simp at hnil
  · intro p a p' hr hinv _ hs
    obtain ⟨_, hpoll⟩ | ⟨_, rfl⟩ | hside := EventPublisher.step_cases hs
    · exact hinv.poll (numbered_reach hr) (streamed_reach hr) (sealInv_reach hr) hpoll
    · exact hinv.abort
    · exact hinv.side hside

/-! ## The terminal event -/

section EndSession

variable {events : List (TransactionEvent Body)} {cmd : SealCommand} {id : SessionId}

/-- An authoritative session outlives every offer. -/
theorem EndSession.own (h : EndSession p events cmd id)
    (hown : Authoritative p.transactionId (ownSession p.transactionId p.sessionId events)) :
    ownSession p.transactionId p.sessionId events = some id := by
  obtain ⟨session, hholds, rfl⟩ := h
  obtain ⟨own, howner, hauthoritative⟩ := hown
  rcases hholds.cases with rfl | ⟨hnone, _⟩
  · rw [howner, ensureSession_authoritative hauthoritative]
  · rw [howner] at hnone
    cases hnone

/-- Anything else is no better than the invented one. -/
theorem Holds.not_authoritative {session : Option SessionId} (h : Holds p events session)
    (hown : ¬ Authoritative p.transactionId (ownSession p.transactionId p.sessionId events)) :
    ¬ Authoritative p.transactionId session := by
  rcases h.cases with rfl | ⟨_, rfl⟩
  · exact hown
  · rintro ⟨id, hid, hauthoritative⟩
    cases hid
    rw [transactionScopedSessionId_scoped] at hauthoritative
    cases hauthoritative

theorem EndSession.offered {offer : SessionId} (h : EndSession p events cmd id)
    (hoffer : cmd.terminal.sessionId = some offer)
    (hown : ¬ Authoritative p.transactionId (ownSession p.transactionId p.sessionId events)) :
    id = offer := by
  obtain ⟨session, hholds, rfl⟩ := h
  rw [hoffer, ensureSession_offered (hholds.not_authoritative hown)]

theorem EndSession.invented (h : EndSession p events cmd id)
    (hoffer : cmd.terminal.sessionId = none)
    (hown : ¬ Authoritative p.transactionId (ownSession p.transactionId p.sessionId events)) :
    isTransactionScopedSession id p.transactionId = true := by
  obtain ⟨session, hholds, rfl⟩ := h
  have hsession := hholds.not_authoritative hown
  rw [hoffer, ensureSession_unclaimed]
  cases session with
  | none => exact transactionScopedSessionId_scoped
  | some current =>
      by_contra hne
      exact hsession ⟨current, rfl, by simpa using hne⟩

end EndSession

/-- A terminal event is the last one. -/
theorem Streamed.ended_split (h : Streamed p) {event : TransactionEvent Body}
    {t : TransactionEndEvent} (hmem : event ∈ p.mailbox.delivered)
    (ht : event.payload = .endedEvent t) : ∃ before, p.mailbox.delivered = before ++ [event] := by
  obtain ⟨i, hi⟩ := List.mem_iff_getElem?.mp hmem
  have hlast := h.ended_last (i := i) (t := t) (by
    rw [EventPublisher.stream, List.getElem?_map, hi]
    simp [ht])
  rw [EventPublisher.stream, List.length_map] at hlast
  refine ⟨p.mailbox.delivered.dropLast, (List.dropLast_append_getLast? event ?_).symm⟩
  rw [Option.mem_def, List.getLast?_eq_getElem?, ← hlast, Nat.add_sub_cancel, hi]

/-- An establishment is the first one. -/
theorem Streamed.established_split (h : Streamed p) {before rest : List (TransactionEvent Body)}
    {first : TransactionEvent Body} {external : ExternalSessionId}
    (hdel : p.mailbox.delivered = before ++ first :: rest)
    (hest : first.payload = .sessionEstablished external) : before = [] := by
  have hi : p.stream[before.length]? = some (.sessionEstablished external) := by
    simp [EventPublisher.stream, hdel, hest]
  exact List.length_eq_zero_iff.mp (h.established_first hi)

/-! ## Coherence -/

/-- Which session each event of a transaction names, and the completion. An
authoritative session, admitted or established, is never given up. The seal
offers the ledger's session key, which the completion reports, and it is used
if the transaction has no authoritative session of its own. -/
structure SessionCoherent (s : Delivery Body) : Prop where
  /-- After an establishment all events before the end name one session. -/
  later : ∀ before first rest external,
    s.publisher.mailbox.delivered = before ++ first :: rest →
    first.payload = .sessionEstablished external →
    ∀ event ∈ rest, (∀ t, event.payload ≠ .endedEvent t) →
      event.sessionId = claimedSession s.publisher.transactionId s.publisher.sessionId external
  /-- And so does the end, in its envelope and in its payload. -/
  ended : ∀ event ∈ s.publisher.mailbox.delivered, ∀ t, event.payload = .endedEvent t →
    t.sessionId = some event.sessionId ∧
      (Authoritative s.publisher.transactionId s.publisher.own →
        s.publisher.own = some event.sessionId)
  /-- The completion names the session of the end unless that is another
  authoritative one. -/
  completed : ∀ c, s.completion = some c →
    ∀ event ∈ s.publisher.mailbox.delivered, ∀ t, event.payload = .endedEvent t →
    ∀ id, c.end.sessionId = some id →
      (Authoritative s.publisher.transactionId s.publisher.own → s.publisher.own = some id) →
      event.sessionId = id
  /-- Without any session the end names the invented one, and the completion none. -/
  sessionless : ∀ c, s.completion = some c →
    ∀ event ∈ s.publisher.mailbox.delivered, ∀ t, event.payload = .endedEvent t →
    c.end.sessionId = none → ¬ Authoritative s.publisher.transactionId s.publisher.own →
    isTransactionScopedSession event.sessionId s.publisher.transactionId = true

variable {s : Delivery Body}

/-- The terminal event answers the seal that was taken. -/
theorem EventPublisher.ended_answers (h : publisher.Reach always p)
    {event : TransactionEvent Body} {t : TransactionEndEvent}
    (hmem : event ∈ p.mailbox.delivered) (ht : event.payload = .endedEvent t) :
    t.sessionId = some event.sessionId ∧ ∃ before cmd, p.sealed = some cmd ∧
      ownSession p.transactionId p.sessionId before = p.own ∧
      EndSession p before cmd event.sessionId := by
  have hstr := streamed_reach h
  obtain ⟨before, hdel⟩ := hstr.ended_split hmem ht
  obtain ⟨cmd, hsealed, hsession⟩ := (sessionInv_reach h).ended before event t hdel ht
  refine ⟨?_, before, cmd, hsealed, ?_, hsession⟩
  · have hended : p.HasEnded := ⟨event, hmem, t, ht⟩
    obtain ⟨r, hreply, hd, _⟩ := hended.replied hstr (sealInv_reach h)
    obtain ⟨_, cmd', before', last, _, hdel', hlast⟩ :=
      (sealInv_reach h).published r (hstr.replied r hreply) hd
    rw [hdel] at hdel'
    cases List.append_inj_right' hdel' rfl
    rw [ht] at hlast
    cases hlast
    rfl
  · rw [EventPublisher.own, hdel, ownSession_concat_ended ht]

/-- The completion reports what the seal offered. -/
theorem completion_offered {c : TransactionCompletion} (h : DeliveryInv s)
    (hc : s.completion = some c) {cmd : SealCommand} (hsealed : s.publisher.sealed = some cmd)
    (hended : s.publisher.HasEnded) : cmd.terminal.sessionId = c.end.sessionId := by
  obtain ⟨_, _, _, hreports⟩ := h.completed hc
  obtain ⟨_, _, cmd', _, _, hsealed', hsession⟩ := hreports.ends (hreports.only hended)
  rw [hsealed] at hsealed'
  cases hsealed'
  exact hsession

/-- **One session for all events.** -/
theorem session_coherent (h : delivery.Reach always s) : SessionCoherent s := by
  have hinv := deliveryInv_reach h
  refine ⟨?_, ?_, ?_, ?_⟩
  · intro before first rest external hdel hest event hmem hne
    obtain rfl := (streamed_reach hinv.reach).established_split hdel hest
    rw [(sessionInv_reach hinv.reach).later first rest hdel event hmem hne, hdel,
      List.nil_append, heldSession_established hest]
  · intro event hmem t ht
    obtain ⟨hpayload, before, cmd, _, hown, hsession⟩ :=
      EventPublisher.ended_answers hinv.reach hmem ht
    refine ⟨hpayload, fun hauthoritative => ?_⟩
    rw [← hown] at hauthoritative ⊢
    exact hsession.own hauthoritative
  · intro c hc event hmem t ht id hid hagrees
    obtain ⟨_, before, cmd, hsealed, hown, hsession⟩ :=
      EventPublisher.ended_answers hinv.reach hmem ht
    have hoffer := completion_offered hinv hc hsealed ⟨event, hmem, t, ht⟩
    rw [← hown] at hagrees
    by_cases hauthoritative : Authoritative s.publisher.transactionId
        (ownSession s.publisher.transactionId s.publisher.sessionId before)
    · rw [hsession.own hauthoritative] at hagrees
      exact Option.some.inj (hagrees (hsession.own hauthoritative ▸ hauthoritative))
    · exact hsession.offered (hoffer.trans hid) hauthoritative
  · intro c hc event hmem t ht hnone hauthoritative
    obtain ⟨_, before, cmd, hsealed, hown, hsession⟩ :=
      EventPublisher.ended_answers hinv.reach hmem ht
    have hoffer := completion_offered hinv hc hsealed ⟨event, hmem, t, ht⟩
    rw [← hown] at hauthoritative
    exact hsession.invented (hoffer.trans hnone) hauthoritative

/-- The coordinator claims a session, then publishes one event. -/
def sampleClaim (external : ExternalSessionId) : List (DeliveryAction Nat) :=
  [.bindSession ⟨sampleChannel, .fromExternal external⟩,
    .publisher (.send (.establishExternal external)), .publisher (.enqueue 0), .publisher .poll,
    .publisher .poll, .publisher (.send (.publish (.ordinary 7))), .publisher (.enqueue 0),
    .publisher .poll, .publisher .poll]

theorem claimed_session_coherent : ∃ s : Delivery Nat, delivery.Reach always s ∧
    s.completion.isSome = true ∧ s.publisher.mailbox.delivered.length = 3 ∧
    SessionCoherent s := by
  obtain ⟨s, hs, htest⟩ := System.exists_of_run (sampleDelivery_init none)
    (sampleClaim ⟨"grok-1", by decide⟩ ++ sampleFinish)
    (fun s => s.completion.isSome && s.publisher.mailbox.delivered.length = 3)
    (by decide +kernel)
  simp only [Bool.and_eq_true, decide_eq_true_eq] at htest
  exact ⟨s, hs, htest.1, htest.2, session_coherent hs⟩

/-- The session key of an admission that resumes `kept`. -/
def keptKey : SessionKey := ⟨sampleChannel, ⟨"kept", by decide⟩⟩

/-- A resumed session is not given up for the one that is established, although
the ledger is rebound to it; and without a session the end invents one that the
completion does not name. -/
theorem session_of_events_differs :
    (∃ s : Delivery Nat, delivery.Reach always s ∧ ∃ first event last external t c,
      s.publisher.mailbox.delivered = [first, event, last] ∧
      first.payload = .sessionEstablished external ∧
      event.sessionId ≠ .fromExternal external ∧ last.payload = .endedEvent t ∧
      last.sessionId ≠ .fromExternal external ∧ s.completion = some c ∧
      c.end.sessionId = some (.fromExternal external)) ∧
    ∃ s : Delivery Nat, delivery.Reach always s ∧ ∃ last t c,
      s.publisher.mailbox.delivered = [last] ∧ last.payload = .endedEvent t ∧
      s.completion = some c ∧ c.end.sessionId ≠ some last.sessionId := by
  let tx := sampleTransaction
  let channel := sampleChannel
  let external : ExternalSessionId := ⟨"other", by decide⟩
  constructor
  · obtain ⟨s, hs, htest⟩ := System.exists_of_run (sampleDelivery_init (some keptKey))
      (sampleClaim external ++ sampleFinish)
      (fun s => s.publisher.mailbox.delivered =
          [⟨tx, channel, .fromExternal external, 1, .sessionEstablished external⟩,
            ⟨tx, channel, keptKey.sessionId, 2, .ordinary 7⟩,
            ⟨tx, channel, keptKey.sessionId, 3,
              .endedEvent (endEvent tx channel (some keptKey.sessionId) .completed 3)⟩] &&
        s.completion = some (buildCompletion
          (endEvent tx channel (some (.fromExternal external)) .completed 3) .published
          (.pending 2 0 0)))
      (by decide +kernel)
    simp only [Bool.and_eq_true, decide_eq_true_eq] at htest
    exact ⟨s, hs, _, _, _, external, _, _, htest.1, rfl, by decide, rfl, by decide, htest.2, rfl⟩
  · obtain ⟨s, hs, htest⟩ := System.exists_of_run (sampleDelivery_init none) sampleFinish
      (fun s => s.publisher.mailbox.delivered =
          [⟨tx, channel, transactionScopedSessionId tx, 1,
            .endedEvent (endEvent tx channel (some (transactionScopedSessionId tx)) .completed 1)⟩] &&
        s.completion = some (buildCompletion (endEvent tx channel none .completed 1) .published
          (.pending 2 0 0)))
      (by decide +kernel)
    simp only [Bool.and_eq_true, decide_eq_true_eq] at htest
    exact ⟨s, hs, _, _, _, htest.1, rfl, htest.2, by simp [buildCompletion, endEvent]⟩

end Monoloop.Publisher
