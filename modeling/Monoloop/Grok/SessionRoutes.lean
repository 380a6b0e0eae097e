import Monoloop.Grok.Sessions

/-!
# The routes of the session map

An attachment is taken out of the map under the id it has in common with others, and only
if the lock is free just then. `Scoped` is the condition on a step of a control call under
which neither matters; the map is sound throughout a run exactly when every step meets it.

The invariant says who is in a critical section (`Holds`, which agrees with `holder`), and
what a call or the connection's task knows there.
-/

namespace Monoloop.Grok

open Transition (System)

/-! ## What is promised -/

/-- **The session map.** An attachment is live when it was admitted and not detached; one
that the connection's task has just drained is about to be. -/
structure SessionsSound (s : SessionServer) : Prop where
  /-- A finished attachment has no route. -/
  gone : ∀ (n : Nat) a, s.attachments[n]? = some a → a.finished = true →
    ∀ id, s.map.lookup id ≠ some n
  /-- A live attachment has its own. -/
  live : ∀ (n : Nat) a, s.attachments[n]? = some a → a.admitted = true → a.detached = false →
    s.map.lookup a.sessionId = some n ∨ ∃ kind, s.connection = .finish kind n
  bounded : s.map.keys.length ≤ s.limits.maxSessions
  /-- A notification went to the unfinished attachment of the session it names. -/
  addressed : ∀ d ∈ s.delivered, d.finished = false ∧
    ∃ a, s.attachments[d.target]? = some a ∧ a.admitted = true ∧ a.sessionId = d.named

/-- What the next operation of a control call must find. -/
def ScopedCall (s : SessionServer) (c : SessionCall) (a : Attachment) : Prop :=
  match c.pc with
  | .finish => a.detached = true → s.map.lookup a.sessionId ≠ some c.target
  | .tryWrite => s.holder ≠ none → s.map.lookup a.sessionId ≠ some c.target
  | .remove => ∀ m ∈ s.map.lookup a.sessionId,
      m = c.target ∨ ∀ b ∈ s.attachments[m]?, b.detached = true
  | _ => True

instance (s : SessionServer) (c : SessionCall) (a : Attachment) : Decidable (ScopedCall s c a) :=
  match c with
  | ⟨_, _, .finish⟩ | ⟨_, _, .tryWrite⟩ => inferInstanceAs (Decidable (_ → _))
  | ⟨_, _, .remove⟩ => inferInstanceAs (Decidable (∀ _ ∈ _, _))
  | ⟨_, _, .loadDetached⟩ | ⟨_, _, .swapFlag⟩ | ⟨_, _, .storeCancelled⟩ | ⟨_, _, .sendEnd⟩
  | ⟨_, _, .unlock⟩ | ⟨_, _, .returned _⟩ => inferInstanceAs (Decidable True)

/-- **The condition on a step.** A call that goes without taking its route out has none;
a route that is taken out leads to the attachment of the call, or to a detached one. -/
def Scoped (s : SessionServer) : SessionAction → Prop
  | .call i => ∀ c ∈ s.calls[i]?, ∀ a ∈ s.attachments[c.target]?, ScopedCall s c a
  | _ => True

instance (s : SessionServer) (act : SessionAction) : Decidable (Scoped s act) :=
  match act with
  | .call _ => inferInstanceAs (Decidable (∀ _ ∈ _, ∀ _ ∈ _, _))
  | .beginOpen _ | .rpcDone _ _ | .rpcFailed _ | .opener _ | .abortOpener _ | .control _ _
  | .notification _ _ | .serverEnd _ | .connection | .drain _ | .abortConnection | .dropOutput _
  | .close => inferInstanceAs (Decidable True)

/-! ## Critical sections -/

def OpenerPc.Locked : OpenerPc → Prop
  | .enter _ | .unlock _ => True
  | _ => False

def SessionPc.Locked : SessionPc → Prop
  | .remove | .unlock => True
  | _ => False

/-- After `detached.swap`, up to the return of `finish`. -/
def SessionPc.Detaching : SessionPc → Prop
  | .sendEnd | .tryWrite | .remove | .unlock => True
  | _ => False

def ConnectionPc.Locked : ConnectionPc → Prop
  | .idle | .readLock _ _ | .endLock _ | .ended => False
  | _ => True

namespace SessionServer

/-- The party is in a critical section. -/
def Holds (s : SessionServer) : Holder → Prop
  | .connection => s.connection.Locked
  | .opener k => ∃ o, s.openers[k]? = some o ∧ o.pc.Locked
  | .call i => ∃ c, s.calls[i]? = some c ∧ c.pc.Locked

def Routed (s : SessionServer) (n : Nat) : Prop := ∃ id, s.map.lookup id = some n

/-- What a control call knows. -/
structure CallFits (s : SessionServer) (c : SessionCall) : Prop where
  target : c.target < s.attachments.length
  detached : c.pc.Detaching → ∀ a, s.attachments[c.target]? = some a → a.detached = true
  removed : c.pc = .unlock → ¬ s.Routed c.target

/-- What the connection's task knows. -/
def ConnectionFits (s : SessionServer) : Prop :=
  match s.connection with
  | .test sid n _ | .send sid n _ => s.map.lookup sid = some n
  | .finish _ n | .sendEnd _ n | .tryWrite _ n => ¬ s.Routed n
  | _ => True

theorem connectionFits_of_unlocked {s : SessionServer} (h : ¬ s.connection.Locked) :
    s.ConnectionFits := by
  unfold ConnectionFits
  cases hpc : s.connection <;> rw [hpc] at h <;> simp [ConnectionPc.Locked] at h ⊢

end SessionServer

structure SessionInv (s : SessionServer) : Prop extends SessionsSound s where
  routes : ∀ id n, s.map.lookup id = some n →
    ∃ a, s.attachments[n]? = some a ∧ a.admitted = true ∧ a.sessionId = id
  mutex : ∀ p, s.Holds p ↔ s.holder = some p
  calls : ∀ (i : Nat) c, s.calls[i]? = some c → s.CallFits c
  connection : s.ConnectionFits

section Steps

variable {s s' : SessionServer}

theorem SessionInv.unrouted_iff (h : SessionInv s) {n : Nat} {a : Attachment}
    (ha : s.attachments[n]? = some a) : ¬ s.Routed n ↔ s.map.lookup a.sessionId ≠ some n := by
  constructor
  · intro hn heq
    exact hn ⟨_, heq⟩
  · rintro hn ⟨id, hid⟩
    obtain ⟨b, hb, -, rfl⟩ := h.routes id n hid
    rw [ha] at hb
    cases hb
    exact hn hid

/-! ## Changes of the parts -/

/-- The lock stays where it is, is taken or is given back by `p`. -/
structure LockMoves (p : Holder) (s s' : SessionServer) : Prop where
  others : ∀ q, q ≠ p → (s'.Holds q ↔ s.Holds q)
  self : s'.Holds p ↔ s'.holder = some p
  holder : s'.holder = s.holder ∨ s.holder = none ∧ s'.holder = some p ∨
    s.holder = some p ∧ s'.holder = none

theorem LockMoves.mutex {p : Holder} (h : LockMoves p s s') (hs : ∀ q, s.Holds q ↔ s.holder = some q)
    (q : Holder) : s'.Holds q ↔ s'.holder = some q := by
  by_cases hq : q = p
  · rw [hq]
    exact h.self
  · rw [h.others q hq, hs]
    rcases h.holder with heq | ⟨hnone, hp⟩ | ⟨hp, hnone⟩
    · rw [heq]
    · rw [hnone, hp]
      simp [Ne.symm hq]
    · rw [hnone, hp]
      simp [Ne.symm hq]

/-- An entry after one has been set. -/
theorem set_cases {α : Type} {l : List α} {i j : Nat} {x y : α} (h : (l.set i y)[j]? = some x) :
    x = y ∨ l[j]? = some x := by
  rw [List.getElem?_set] at h
  by_cases hij : i = j
  · rw [if_pos hij] at h
    exact .inl (Option.some.inj (Option.ite_none_right_eq_some.mp h).2).symm
  · rw [if_neg hij] at h
    exact .inr h

theorem holds_setCall {i : Nat} {c c' : SessionCall} (hc : s.calls[i]? = some c)
    {holder : Option Holder} (q : Holder) :
    SessionServer.Holds { s with holder := holder, calls := s.calls.set i c' } q ↔
      if q = .call i then c'.pc.Locked else s.Holds q := by
  obtain ⟨hi, -⟩ := List.getElem?_eq_some_iff.mp hc
  cases q with
  | connection | opener k => rfl
  | call j =>
      by_cases hj : j = i
      · subst hj
        simp [SessionServer.Holds, hi]
      · rw [if_neg (by simpa using hj)]
        show (∃ x, (s.calls.set i c')[j]? = some x ∧ _) ↔ _
        rw [List.getElem?_set_ne (Ne.symm hj)]
        rfl

/-- **A control call goes on**, and nothing else changes but perhaps the lock. -/
theorem SessionInv.setCall (h : SessionInv s) {i : Nat} {c c' : SessionCall}
    (hc : s.calls[i]? = some c) {holder : Option Holder}
    (hself : c'.pc.Locked ↔ holder = some (.call i))
    (hholder : holder = s.holder ∨ s.holder = none ∧ holder = some (.call i) ∨
      s.holder = some (.call i) ∧ holder = none)
    (hfits : s.CallFits c') :
    SessionInv { s with holder := holder, calls := s.calls.set i c' } where
  gone := h.gone
  live := h.live
  bounded := h.bounded
  addressed := h.addressed
  routes := h.routes
  mutex := by
    apply LockMoves.mutex (p := .call i) _ h.mutex
    refine ⟨?_, ?_, hholder⟩
    · intro q hq
      rw [holds_setCall hc, if_neg hq]
    · rw [holds_setCall hc, if_pos rfl]
      exact hself
  calls := by
    intro j x hx
    rcases set_cases hx with rfl | hold
    · exact ⟨hfits.target, hfits.detached, hfits.removed⟩
    · have hx := h.calls j x hold
      exact ⟨hx.target, hx.detached, hx.removed⟩
  connection := h.connection

theorem holds_setOpener {k : Nat} {o o' : Opener} (ho : s.openers[k]? = some o)
    {holder : Option Holder} (q : Holder) :
    SessionServer.Holds { s with holder := holder, openers := s.openers.set k o' } q ↔
      if q = .opener k then o'.pc.Locked else s.Holds q := by
  obtain ⟨hk, -⟩ := List.getElem?_eq_some_iff.mp ho
  cases q with
  | connection | call i => rfl
  | opener j =>
      by_cases hj : j = k
      · subst hj
        simp [SessionServer.Holds, hk]
      · rw [if_neg (by simpa using hj)]
        show (∃ x, (s.openers.set k o')[j]? = some x ∧ _) ↔ _
        rw [List.getElem?_set_ne (Ne.symm hj)]
        rfl

/-- **A pending open goes on.** -/
theorem SessionInv.setOpener (h : SessionInv s) {k : Nat} {o o' : Opener}
    (ho : s.openers[k]? = some o) {holder : Option Holder}
    (hself : o'.pc.Locked ↔ holder = some (.opener k))
    (hholder : holder = s.holder ∨ s.holder = none ∧ holder = some (.opener k) ∨
      s.holder = some (.opener k) ∧ holder = none) :
    SessionInv { s with holder := holder, openers := s.openers.set k o' } where
  gone := h.gone
  live := h.live
  bounded := h.bounded
  addressed := h.addressed
  routes := h.routes
  mutex := by
    apply LockMoves.mutex (p := .opener k) _ h.mutex
    refine ⟨?_, ?_, hholder⟩
    · intro q hq
      rw [holds_setOpener ho, if_neg hq]
    · rw [holds_setOpener ho, if_pos rfl]
      exact hself
  calls := by
    intro i c hc
    have hfits := h.calls i c hc
    exact ⟨hfits.target, hfits.detached, hfits.removed⟩
  connection := h.connection

/-- **The connection's task goes on.** -/
theorem SessionInv.setConnection (h : SessionInv s) {pc : ConnectionPc} {holder : Option Holder}
    (hself : pc.Locked ↔ holder = some .connection)
    (hholder : holder = s.holder ∨ s.holder = none ∧ holder = some .connection ∨
      s.holder = some .connection ∧ holder = none)
    (hlive : ∀ kind n, s.connection = .finish kind n →
      ∀ a, s.attachments[n]? = some a → a.detached = true)
    (hfits : SessionServer.ConnectionFits { s with holder := holder, connection := pc }) :
    SessionInv { s with holder := holder, connection := pc } where
  gone := h.gone
  live := by
    intro n a ha hadmitted hdetached
    rcases h.live n a ha hadmitted hdetached with hroute | ⟨kind, hpc⟩
    · exact .inl hroute
    · rw [hlive kind n hpc a ha] at hdetached
      cases hdetached
  bounded := h.bounded
  addressed := h.addressed
  routes := h.routes
  mutex := by
    apply LockMoves.mutex (p := .connection) _ h.mutex
    refine ⟨?_, hself, hholder⟩
    intro q hq
    cases q with
    | connection => exact absurd rfl hq
    | opener k | call i => rfl
  calls := by
    intro i c hc
    have hfits := h.calls i c hc
    exact ⟨hfits.target, hfits.detached, hfits.removed⟩
  connection := hfits

/-- What no update of an attachment undoes. -/
structure Gentle (f : Attachment → Attachment) : Prop where
  sessionId : ∀ a, (f a).sessionId = a.sessionId
  admitted : ∀ a, (f a).admitted = a.admitted
  detached : ∀ a, a.detached = true → (f a).detached = true

theorem modify_cases {f : Attachment → Attachment} {n m : Nat} {b : Attachment}
    (h : (s.update n f)[m]? = some b) :
    m = n ∧ (∃ a, s.attachments[n]? = some a ∧ b = f a) ∨ m ≠ n ∧ s.attachments[m]? = some b := by
  rw [SessionServer.update, List.getElem?_modify] at h
  by_cases hmn : n = m
  · subst hmn
    obtain ⟨a, ha, hb⟩ := Option.map_eq_some_iff.mp h
    rw [if_pos rfl] at hb
    exact .inl ⟨rfl, a, ha, hb.symm⟩
  · obtain ⟨a, ha, hb⟩ := Option.map_eq_some_iff.mp h
    rw [if_neg hmn] at hb
    cases hb
    exact .inr ⟨Ne.symm hmn, ha⟩

/-- An attachment after a gentle update. -/
theorem Gentle.kept {f : Attachment → Attachment} (hf : Gentle f) (n : Nat) {m : Nat}
    {a : Attachment} (ha : s.attachments[m]? = some a) :
    ∃ b, (s.update n f)[m]? = some b ∧ b.sessionId = a.sessionId ∧ b.admitted = a.admitted := by
  rw [SessionServer.update, List.getElem?_modify, ha]
  by_cases hmn : n = m
  · exact ⟨f a, by simp [hmn], hf.sessionId a, hf.admitted a⟩
  · exact ⟨a, by simp [hmn], rfl, rfl⟩

/-- **An attachment changes**: it may finish when it has no route. -/
theorem SessionInv.update (h : SessionInv s) {n : Nat} {f : Attachment → Attachment} (hf : Gentle f)
    (hfinish : ∀ a, s.attachments[n]? = some a → (f a).finished = true →
      a.finished = true ∨ ¬ s.Routed n) :
    SessionInv { s with attachments := s.update n f } where
  gone := by
    intro m b hb hfinished id hid
    rcases modify_cases hb with ⟨rfl, a, ha, rfl⟩ | ⟨-, hold⟩
    · rcases hfinish a ha hfinished with hdone | hroute
      · exact h.gone m a ha hdone id hid
      · exact hroute ⟨id, hid⟩
    · exact h.gone m b hold hfinished id hid
  live := by
    intro m b hb hadmitted hdetached
    rcases modify_cases hb with ⟨rfl, a, ha, rfl⟩ | ⟨-, hold⟩
    · rw [hf.admitted] at hadmitted
      rw [hf.sessionId]
      apply h.live m a ha hadmitted
      cases hold : a.detached with
      | false => rfl
      | true =>
          rw [hf.detached a hold] at hdetached
          cases hdetached
    · exact h.live m b hold hadmitted hdetached
  bounded := h.bounded
  addressed := by
    intro d hd
    obtain ⟨hfinished, a, ha, hadmitted, hid⟩ := h.addressed d hd
    obtain ⟨b, hb, hbid, hbadmitted⟩ := hf.kept n ha
    exact ⟨hfinished, b, hb, hbadmitted.trans hadmitted, hbid.trans hid⟩
  routes := by
    intro id m hid
    obtain ⟨a, ha, hadmitted, haid⟩ := h.routes id m hid
    obtain ⟨b, hb, hbid, hbadmitted⟩ := hf.kept n ha
    exact ⟨b, hb, hbadmitted.trans hadmitted, hbid.trans haid⟩
  mutex := h.mutex
  calls := by
    intro i c hc
    have hfits := h.calls i c hc
    refine ⟨?_, ?_, hfits.removed⟩
    · show c.target < (s.update n f).length
      rw [SessionServer.update, List.length_modify]
      exact hfits.target
    · intro hpc b hb
      rcases modify_cases hb with ⟨htarget, a, ha, rfl⟩ | ⟨-, hold⟩
      · exact hf.detached a (hfits.detached hpc a (htarget ▸ ha))
      · exact hfits.detached hpc b hold
  connection := h.connection

/-- A new attachment comes last. -/
theorem append_cases {a b : Attachment} {m : Nat} (h : (s.attachments ++ [a])[m]? = some b) :
    m = s.attachments.length ∧ b = a ∨ s.attachments[m]? = some b := by
  rw [List.getElem?_append] at h
  split at h
  · exact .inr h
  · rename_i hm
    obtain ⟨hlt, -⟩ := List.getElem?_eq_some_iff.mp h
    rw [List.length_singleton] at hlt
    have hzero : m - s.attachments.length = 0 := by omega
    rw [hzero] at h
    cases h
    exact .inl ⟨by omega, rfl⟩

theorem append_kept {a b : Attachment} {m : Nat} (h : s.attachments[m]? = some b) :
    (s.attachments ++ [a])[m]? = some b := by
  obtain ⟨hm, -⟩ := List.getElem?_eq_some_iff.mp h
  rw [List.getElem?_append_left hm]
  exact h

/-- **A placeholder comes**, and the pending open it stands for. -/
theorem SessionInv.begin (h : SessionInv s) {id : String} {o : Opener} (ho : ¬ o.pc.Locked) :
    SessionInv { s with
      attachments := s.attachments ++ [.placeholder id], openers := s.openers ++ [o] } where
  gone := by
    intro n a ha hfinished
    rcases append_cases ha with ⟨-, rfl⟩ | hold
    · cases hfinished
    · exact h.gone n a hold hfinished
  live := by
    intro n a ha hadmitted hdetached
    rcases append_cases ha with ⟨-, rfl⟩ | hold
    · cases hadmitted
    · exact h.live n a hold hadmitted hdetached
  bounded := h.bounded
  addressed := by
    intro d hd
    obtain ⟨hfinished, a, ha, hsession⟩ := h.addressed d hd
    exact ⟨hfinished, a, append_kept ha, hsession⟩
  routes := by
    intro id n hid
    obtain ⟨a, ha, hsession⟩ := h.routes id n hid
    exact ⟨a, append_kept ha, hsession⟩
  mutex := by
    intro q
    refine Iff.trans ?_ (h.mutex q)
    cases q with
    | connection | call i => rfl
    | opener k =>
        constructor
        · rintro ⟨x, hx, hlocked⟩
          rw [List.getElem?_append] at hx
          split at hx
          · exact ⟨x, hx, hlocked⟩
          · obtain rfl := List.mem_singleton.mp (List.mem_of_getElem? hx)
            exact absurd hlocked ho
        · rintro ⟨x, hx, hlocked⟩
          refine ⟨x, ?_, hlocked⟩
          obtain ⟨hk, -⟩ := List.getElem?_eq_some_iff.mp hx
          show (s.openers ++ [o])[k]? = some x
          rw [List.getElem?_append_left hk]
          exact hx
  calls := by
    intro i c hc
    have hfits := h.calls i c hc
    refine ⟨?_, ?_, hfits.removed⟩
    · show c.target < (s.attachments ++ [_]).length
      rw [List.length_append]
      exact Nat.lt_add_right _ hfits.target
    · intro hpc a ha
      rcases append_cases ha with ⟨htarget, -⟩ | hold
      · exact absurd htarget (Nat.ne_of_lt hfits.target)
      · exact hfits.detached hpc a hold
  connection := h.connection

/-- **A control handle is used.** -/
theorem SessionInv.control (h : SessionInv s) {c : SessionCall} (htarget : c.target < s.attachments.length)
    (hc : ¬ c.pc.Detaching) : SessionInv { s with calls := s.calls ++ [c] } where
  gone := h.gone
  live := h.live
  bounded := h.bounded
  addressed := h.addressed
  routes := h.routes
  mutex := by
    intro q
    refine Iff.trans ?_ (h.mutex q)
    cases q with
    | connection | opener k => rfl
    | call i =>
        constructor
        · rintro ⟨x, hx, hlocked⟩
          rw [List.getElem?_append] at hx
          split at hx
          · exact ⟨x, hx, hlocked⟩
          · obtain rfl := List.mem_singleton.mp (List.mem_of_getElem? hx)
            apply absurd _ hc
            obtain ⟨kind, n, pc⟩ := x
            cases pc <;> first | exact hlocked | trivial
        · rintro ⟨x, hx, hlocked⟩
          refine ⟨x, ?_, hlocked⟩
          obtain ⟨hi, -⟩ := List.getElem?_eq_some_iff.mp hx
          show (s.calls ++ [c])[i]? = some x
          rw [List.getElem?_append_left hi]
          exact hx
  calls := by
    intro i x hx
    replace hx : (s.calls ++ [c])[i]? = some x := hx
    rcases List.mem_append.mp (List.mem_of_getElem? hx) with hold | hnew
    · obtain ⟨j, hj⟩ := List.getElem?_of_mem hold
      have hfits := h.calls j x hj
      exact ⟨hfits.target, hfits.detached, hfits.removed⟩
    · obtain rfl := List.mem_singleton.mp hnew
      refine ⟨htarget, fun hpc => absurd hpc hc, ?_⟩
      intro hpc
      rw [hpc] at hc
      exact absurd trivial hc
  connection := h.connection

/-- **A route goes**, while the connection's task is `pc`. -/
theorem SessionInv.erase (h : SessionInv s) {id : String} {pc : ConnectionPc}
    (hkeep : ∀ kind n, s.connection = .finish kind n → pc = .finish kind n)
    (hlive : ∀ n a, s.map.lookup id = some n → s.attachments[n]? = some a →
      a.detached = true ∨ ∃ kind, pc = .finish kind n)
    (hlocked : pc.Locked ↔ s.connection.Locked)
    (hfits : SessionServer.ConnectionFits { s with map := s.map.erase id, connection := pc }) :
    SessionInv { s with map := s.map.erase id, connection := pc } where
  gone := by
    intro n a ha hfinished id' hid'
    rw [HashMap.lookup_erase_ite] at hid'
    split at hid'
    · cases hid'
    · exact h.gone n a ha hfinished id' hid'
  live := by
    intro n a ha hadmitted hdetached
    rw [HashMap.lookup_erase_ite]
    rcases h.live n a ha hadmitted hdetached with hroute | ⟨kind, hpc⟩
    · by_cases hid : a.sessionId = id
      · rw [hid] at hroute
        rcases hlive n a hroute ha with hgone | hfinish
        · rw [hgone] at hdetached
          cases hdetached
        · exact .inr hfinish
      · rw [if_neg hid]
        exact .inl hroute
    · exact .inr ⟨kind, hkeep kind n hpc⟩
  bounded := by
    show (s.map.erase id).keys.length ≤ _
    rw [AList.keys_erase]
    exact Nat.le_trans (List.erase_sublist.length_le) h.bounded
  addressed := h.addressed
  routes := by
    intro id' n hid'
    rw [HashMap.lookup_erase_ite] at hid'
    split at hid'
    · cases hid'
    · exact h.routes id' n hid'
  mutex := by
    intro q
    refine Iff.trans ?_ (h.mutex q)
    cases q with
    | opener k | call i => rfl
    | connection => exact hlocked
  calls := by
    intro i c hc
    have hfits := h.calls i c hc
    refine ⟨hfits.target, hfits.detached, ?_⟩
    rintro hpc ⟨id', hid'⟩
    rw [HashMap.lookup_erase_ite] at hid'
    split at hid'
    · cases hid'
    · exact hfits.removed hpc ⟨id', hid'⟩
  connection := hfits

/-- **An attachment is admitted** by the pending open that has the lock. -/
theorem SessionInv.insert (h : SessionInv s) {id : String} {k : Nat}
    (hholder : s.holder = some (.opener k)) (hroom : s.map.keys.length < s.limits.maxSessions)
    (hfree : s.map.lookup id = none) :
    SessionInv { s with
      map := s.map.insert id s.attachments.length
      attachments := s.attachments ++ [.live id] } where
  gone := by
    intro n a ha hfinished id' hid'
    rw [HashMap.lookup_insert_ite] at hid'
    rcases append_cases ha with ⟨-, rfl⟩ | hold
    · cases hfinished
    · split at hid'
      · cases hid'
        obtain ⟨hlt, -⟩ := List.getElem?_eq_some_iff.mp hold
        exact absurd hlt (Nat.lt_irrefl _)
      · exact h.gone n a hold hfinished id' hid'
  live := by
    intro n a ha hadmitted hdetached
    rw [HashMap.lookup_insert_ite]
    rcases append_cases ha with ⟨rfl, rfl⟩ | hold
    · exact .inl (if_pos rfl)
    · rcases h.live n a hold hadmitted hdetached with hroute | hfinish
      · have hid : a.sessionId ≠ id := by
          intro heq
          rw [heq, hfree] at hroute
          cases hroute
        rw [if_neg hid]
        exact .inl hroute
      · exact .inr hfinish
  bounded := by
    show (s.map.insert id s.attachments.length).keys.length ≤ _
    rw [HashMap.length_keys_insert, hfree, Option.isSome_none, if_neg (by simp)]
    exact hroom
  addressed := by
    intro d hd
    obtain ⟨hfinished, a, ha, hsession⟩ := h.addressed d hd
    exact ⟨hfinished, a, append_kept ha, hsession⟩
  routes := by
    intro id' n hid'
    rw [HashMap.lookup_insert_ite] at hid'
    split at hid'
    · rename_i heq
      cases hid'
      exact ⟨.live id, List.getElem?_concat_length .., rfl, heq.symm⟩
    · obtain ⟨a, ha, hsession⟩ := h.routes id' n hid'
      exact ⟨a, append_kept ha, hsession⟩
  mutex := h.mutex
  calls := by
    intro i c hc
    have hfits := h.calls i c hc
    refine ⟨?_, ?_, ?_⟩
    · show c.target < (s.attachments ++ [_]).length
      rw [List.length_append]
      exact Nat.lt_add_right _ hfits.target
    · intro hpc a ha
      rcases append_cases ha with ⟨htarget, -⟩ | hold
      · exact absurd htarget (Nat.ne_of_lt hfits.target)
      · exact hfits.detached hpc a hold
    · intro hpc
      -- the call would have the lock
      have hholds : s.Holds (.call i) := ⟨c, hc, by rw [hpc]; trivial⟩
      rw [h.mutex, hholder] at hholds
      cases hholds
  connection := by
    apply SessionServer.connectionFits_of_unlocked
    intro hlocked
    have hholds : s.Holds .connection := hlocked
    rw [h.mutex, hholder] at hholds
    cases hholds

/-! ## The parties -/

theorem gentle_flag {f : Attachment → Attachment} (hid : ∀ a, (f a).sessionId = a.sessionId)
    (hadmitted : ∀ a, (f a).admitted = a.admitted) (hinner : ∀ a, (f a).detached = a.detached) :
    Gentle f := ⟨hid, hadmitted, fun a h => (hinner a).trans h⟩

theorem gentle_cancelled : Gentle fun a => { a with cancelled := true } :=
  gentle_flag (fun _ => rfl) (fun _ => rfl) (fun _ => rfl)

theorem gentle_terminated : Gentle fun a => { a with terminated := true } :=
  gentle_flag (fun _ => rfl) (fun _ => rfl) (fun _ => rfl)

theorem gentle_detach : Gentle Attachment.detach := ⟨fun _ => rfl, fun _ => rfl, fun _ _ => rfl⟩

theorem gentle_finish : Gentle Attachment.finish :=
  gentle_flag (fun _ => rfl) (fun _ => rfl) (fun _ => rfl)

theorem sendEnd_cases (a : Attachment) (kind : Connector.ConnectionEndKind) :
    (a.sendEnd kind).sessionId = a.sessionId ∧ (a.sendEnd kind).admitted = a.admitted ∧
      (a.sendEnd kind).detached = a.detached ∧ (a.sendEnd kind).finished = a.finished := by
  unfold Attachment.sendEnd
  split <;> exact ⟨rfl, rfl, rfl, rfl⟩

theorem gentle_sendEnd (kind : Connector.ConnectionEndKind) : Gentle (·.sendEnd kind) :=
  gentle_flag (fun a => (sendEnd_cases a kind).1) (fun a => (sendEnd_cases a kind).2.1)
    (fun a => (sendEnd_cases a kind).2.2.1)

theorem SessionServer.length_update (n : Nat) (f : Attachment → Attachment) :
    (s.update n f).length = s.attachments.length := List.length_modify ..

theorem fits_idle {c : SessionCall} (htarget : c.target < s.attachments.length)
    (hpc : ¬ c.pc.Detaching) : s.CallFits c := by
  refine ⟨htarget, fun hpc' => absurd hpc' hpc, ?_⟩
  intro hunlock
  rw [hunlock] at hpc
  exact absurd trivial hpc

theorem SessionInv.call_locked (h : SessionInv s) {i : Nat} {c : SessionCall}
    (hc : s.calls[i]? = some c) : c.pc.Locked ↔ s.holder = some (.call i) := by
  rw [← h.mutex]
  constructor
  · intro hlocked
    exact ⟨c, hc, hlocked⟩
  · rintro ⟨x, hx, hlocked⟩
    rw [hc] at hx
    cases hx
    exact hlocked

/-- A control call goes on without the lock, or with it. -/
theorem SessionInv.stepCall (h : SessionInv s) {i : Nat} {c c' : SessionCall}
    (hc : s.calls[i]? = some c) (hlocked : c'.pc.Locked ↔ c.pc.Locked) (hfits : s.CallFits c') :
    SessionInv { s with calls := s.calls.set i c' } :=
  @SessionInv.setCall s h i c c' hc s.holder (hlocked.trans (h.call_locked hc)) (.inl rfl) hfits

/-- A call that returns without the lock. -/
theorem SessionInv.returnCall (h : SessionInv s) {i : Nat} {c : SessionCall}
    (hc : s.calls[i]? = some c) (hpc : ¬ c.pc.Locked) (disposition : Connector.ControlDisposition) :
    SessionInv { s with calls := s.calls.set i { c with pc := .returned disposition } } := by
  refine h.stepCall hc ⟨False.elim, hpc⟩ (fits_idle (h.calls i c hc).target id)

theorem SessionInv.operateCall (h : SessionInv s) {i : Nat} {c : SessionCall} {a : Attachment}
    (hc : s.calls[i]? = some c) (ha : s.attachments[c.target]? = some a) (hok : ScopedCall s c a)
    (hstep : s.operateCall i c a = some s') : SessionInv s' := by
  have hfits := h.calls i c hc
  have hlocked := h.call_locked hc
  obtain ⟨kind, target, pc⟩ := c
  have hflag : ∀ {f : Attachment → Attachment}, Gentle f → (∀ a, (f a).finished = a.finished) →
      SessionInv { s with attachments := s.update target f } :=
    fun hf hsame => h.update hf (fun a _ hfinished => .inl ((hsame a).symm.trans hfinished))
  have hlength : ∀ f : Attachment → Attachment, target < (s.update target f).length := by
    intro f
    rw [SessionServer.length_update]
    exact hfits.target
  -- what `finish` leaves behind when it returns
  have hfinish : ¬ s.Routed target → SessionInv { s with attachments := s.update target (·.finish) } :=
    fun hroute => h.update gentle_finish (fun _ _ _ => .inr hroute)
  have hdetaching : SessionPc.Detaching pc → ∀ {f : Attachment → Attachment}, Gentle f →
      ∀ b, (s.update target f)[target]? = some b → b.detached = true := by
    intro hpc f hf b hb
    rcases modify_cases hb with ⟨-, x, hx, rfl⟩ | ⟨hne, -⟩
    · exact hf.detached x (hfits.detached hpc x hx)
    · exact absurd rfl hne
  cases pc with
  | loadDetached =>
      cases hstep
      refine h.stepCall hc ?_ ?_
      · dsimp only
        split <;> exact Iff.rfl
      · refine fits_idle hfits.target ?_
        dsimp only
        split <;> exact id
  | swapFlag =>
      cases kind with
      | cancel =>
          cases hstep
          refine (hflag gentle_cancelled (fun _ => rfl)).stepCall hc ?_ ?_
          · dsimp only
            split <;> exact Iff.rfl
          · refine fits_idle (hlength _) ?_
            dsimp only
            split <;> exact id
      | terminate =>
          cases hstep
          refine (hflag gentle_terminated (fun _ => rfl)).stepCall hc ?_ ?_
          · dsimp only
            split <;> exact Iff.rfl
          · refine fits_idle (hlength _) ?_
            dsimp only
            split <;> exact id
  | storeCancelled =>
      cases hstep
      exact (hflag gentle_cancelled (fun _ => rfl)).stepCall hc Iff.rfl (fits_idle (hlength _) id)
  | finish =>
      rw [SessionServer.operateCall] at hstep
      dsimp only at hstep
      split at hstep
      · rename_i hdetached
        cases hstep
        have hroute : ¬ s.Routed target := (h.unrouted_iff ha).mpr (hok hdetached)
        exact (hfinish hroute).returnCall hc id .accepted
      · cases hstep
        refine (hflag gentle_detach (fun _ => rfl)).stepCall hc Iff.rfl ⟨hlength _, ?_, ?_⟩
        · intro _ b hb
          rcases modify_cases hb with ⟨-, x, -, rfl⟩ | ⟨hne, -⟩
          · rfl
          · exact absurd rfl hne
        · intro hpc
          cases hpc
  | sendEnd =>
      cases hstep
      refine (hflag (gentle_sendEnd _) (fun a => (sendEnd_cases a _).2.2.2)).stepCall hc Iff.rfl
        ⟨hlength _, fun _ => hdetaching trivial (gentle_sendEnd _), ?_⟩
      intro hpc
      cases hpc
  | tryWrite =>
      rw [SessionServer.operateCall] at hstep
      dsimp only at hstep
      split at hstep
      · rename_i hfree
        cases hstep
        refine h.setCall hc (iff_of_true trivial rfl) (.inr (.inl ⟨hfree, rfl⟩))
          ⟨hfits.target, fun _ => hfits.detached trivial, ?_⟩
        intro hpc
        cases hpc
      · rename_i hheld
        cases hstep
        have hroute : ¬ s.Routed target := by
          apply (h.unrouted_iff ha).mpr
          apply hok
          rw [hheld]
          simp
        exact (hfinish hroute).returnCall hc id .accepted
  | remove =>
      cases hstep
      have hholder : s.holder = some (.call i) := hlocked.mp trivial
      have hconnection : ¬ s.connection.Locked := by
        intro hconnection
        have hholds : s.Holds .connection := hconnection
        rw [h.mutex, hholder] at hholds
        cases hholds
      have herased : SessionInv { s with map := s.map.erase a.sessionId } := by
        refine h.erase (fun _ _ hpc => hpc) ?_ Iff.rfl
          (SessionServer.connectionFits_of_unlocked hconnection)
        intro n b hid hb
        rcases hok n hid with rfl | hdetached
        · exact .inl (hfits.detached trivial b hb)
        · exact .inl (hdetached b hb)
      refine herased.stepCall hc Iff.rfl ⟨hfits.target, fun _ => hfits.detached trivial, ?_⟩
      rintro - ⟨id, hid⟩
      rw [HashMap.lookup_erase_ite] at hid
      split at hid
      · cases hid
      · rename_i hne
        obtain ⟨b, hb, -, hbid⟩ := h.routes id target hid
        rw [ha] at hb
        cases hb
        exact hne hbid.symm
  | unlock =>
      cases hstep
      have hholder : s.holder = some (.call i) := hlocked.mp trivial
      exact (hfinish (hfits.removed rfl)).setCall hc (iff_of_false id (by simp))
        (.inr (.inr ⟨hholder, rfl⟩)) (fits_idle (hlength _) id)
  | returned disposition => cases hstep

theorem SessionInv.opener_locked (h : SessionInv s) {k : Nat} {o : Opener}
    (ho : s.openers[k]? = some o) : o.pc.Locked ↔ s.holder = some (.opener k) := by
  rw [← h.mutex]
  constructor
  · intro hlocked
    exact ⟨o, ho, hlocked⟩
  · rintro ⟨x, hx, hlocked⟩
    rw [ho] at hx
    cases hx
    exact hlocked

/-- A pending open goes on without the lock, or with it. -/
theorem SessionInv.stepOpener (h : SessionInv s) {k : Nat} {o o' : Opener}
    (ho : s.openers[k]? = some o) (hlocked : o'.pc.Locked ↔ o.pc.Locked) :
    SessionInv { s with openers := s.openers.set k o' } :=
  @SessionInv.setOpener s h k o o' ho s.holder (hlocked.trans (h.opener_locked ho)) (.inl rfl)

theorem SessionInv.operateOpener (h : SessionInv s) {k : Nat} {o : Opener}
    (ho : s.openers[k]? = some o) (hstep : s.operateOpener k o = some s') : SessionInv s' := by
  have hlocked := h.opener_locked ho
  obtain ⟨requested, pc⟩ := o
  cases pc with
  | lock id =>
      rw [SessionServer.operateOpener] at hstep
      dsimp only at hstep
      split at hstep
      · rename_i hfree
        cases hstep
        exact h.setOpener ho (iff_of_true trivial rfl) (.inr (.inl ⟨hfree, rfl⟩))
      · cases hstep
  | enter id =>
      rw [SessionServer.operateOpener] at hstep
      dsimp only at hstep
      split at hstep
      · cases hstep
        exact h.stepOpener ho Iff.rfl
      · rename_i hroom
        split at hstep
        · cases hstep
          exact h.stepOpener ho Iff.rfl
        · rename_i hfree
          cases hstep
          exact (h.insert (hlocked.mp trivial) (Nat.lt_of_not_le hroom) hfree).stepOpener ho Iff.rfl
  | unlock admitted =>
      cases hstep
      exact h.setOpener ho (iff_of_false id (by simp)) (.inr (.inr ⟨hlocked.mp trivial, rfl⟩))
  | rpc | returned _ | aborted => cases hstep

/-- The connection's task goes on without the lock, or with it. -/
theorem SessionInv.stepConnection (h : SessionInv s) {pc : ConnectionPc}
    (hlocked : pc.Locked ↔ s.connection.Locked)
    (hlive : ∀ kind n, s.connection = .finish kind n →
      ∀ a, s.attachments[n]? = some a → a.detached = true)
    (hfits : SessionServer.ConnectionFits { s with connection := pc }) :
    SessionInv { s with connection := pc } :=
  @SessionInv.setConnection s h pc s.holder (hlocked.trans (h.mutex .connection)) (.inl rfl) hlive hfits

/-- A notification reaches an attachment. -/
theorem SessionInv.deliver (h : SessionInv s) {sid : String} {n : Nat} {a : Attachment}
    (ha : s.attachments[n]? = some a) (hroute : s.map.lookup sid = some n) :
    SessionInv { s with delivered := s.delivered ++ [⟨sid, n, a.finished⟩] } where
  gone := h.gone
  live := h.live
  bounded := h.bounded
  addressed := by
    intro d hd
    rcases List.mem_append.mp hd with hold | hnew
    · exact h.addressed d hold
    · obtain rfl := List.mem_singleton.mp hnew
      refine ⟨?_, ?_⟩
      · cases hfinished : a.finished with
        | false => rfl
        | true => exact absurd hroute (h.gone n a ha hfinished sid)
      · obtain ⟨b, hb, hadmitted, hid⟩ := h.routes sid n hroute
        exact ⟨b, hb, hadmitted, hid⟩
  routes := h.routes
  mutex := h.mutex
  calls := by
    intro i c hc
    have hfits := h.calls i c hc
    exact ⟨hfits.target, hfits.detached, hfits.removed⟩
  connection := h.connection

theorem SessionInv.operateConnection (h : SessionInv s) (hstep : s.operateConnection = some s') :
    SessionInv s' := by
  have hlocked : s.connection.Locked ↔ s.holder = some .connection := h.mutex .connection
  have hfits := h.connection
  unfold SessionServer.operateConnection at hstep
  unfold SessionServer.ConnectionFits at hfits
  cases hpc : s.connection with
  | readLock sid bytes =>
      rw [hpc] at hstep
      dsimp only at hstep
      split at hstep
      · rename_i hfree
        cases hstep
        exact h.setConnection (iff_of_true trivial rfl) (.inr (.inl ⟨hfree, rfl⟩))
          (fun _ _ hfinish => absurd (hpc.symm.trans hfinish) (by simp)) trivial
      · cases hstep
  | lookup sid bytes =>
      rw [hpc] at hstep
      dsimp only at hstep
      split at hstep
      · rename_i n hroute
        cases hstep
        exact h.stepConnection (iff_of_true trivial (by rw [hpc]; trivial)) (fun _ _ hfinish => absurd (hpc.symm.trans hfinish) (by simp))
          hroute
      · cases hstep
        exact h.stepConnection (iff_of_true trivial (by rw [hpc]; trivial)) (fun _ _ hfinish => absurd (hpc.symm.trans hfinish) (by simp))
          trivial
  | test sid n bytes =>
      rw [hpc] at hstep hfits
      obtain ⟨a, ha, hstep⟩ := Option.map_eq_some_iff.mp hstep
      split at hstep
      · cases hstep
        exact h.stepConnection (iff_of_true trivial (by rw [hpc]; trivial)) (fun _ _ hfinish => absurd (hpc.symm.trans hfinish) (by simp))
          trivial
      · cases hstep
        have hupdated : SessionInv { s with
            attachments := s.update n fun a =>
              { a with inner := { a.inner with updatesReceived := a.inner.updatesReceived + 1 } } } :=
          h.update (gentle_flag (fun _ => rfl) (fun _ => rfl) (fun _ => rfl))
            (fun _ _ hfinished => .inl hfinished)
        exact hupdated.stepConnection (iff_of_true trivial (by rw [hpc]; trivial))
          (fun _ _ hfinish => absurd (hpc.symm.trans hfinish) (by simp)) hfits
  | send sid n bytes =>
      rw [hpc] at hstep hfits
      obtain ⟨a, ha, hstep⟩ := Option.map_eq_some_iff.mp hstep
      split at hstep
      · cases hstep
        exact h.stepConnection (iff_of_true trivial (by rw [hpc]; trivial)) (fun _ _ hfinish => absurd (hpc.symm.trans hfinish) (by simp))
          trivial
      · cases hstep
        have hupdated : SessionInv { s with
            delivered := s.delivered ++ [⟨sid, n, a.finished⟩]
            attachments := s.update n fun a =>
              { a with inner := { a.inner with queue := a.inner.queue ++ [bytes] } } } :=
          (h.deliver ha hfits).update (gentle_flag (fun _ => rfl) (fun _ => rfl) (fun _ => rfl))
            (fun _ _ hfinished => .inl hfinished)
        exact hupdated.stepConnection (iff_of_true trivial (by rw [hpc]; trivial))
          (fun _ _ hfinish => absurd (hpc.symm.trans hfinish) (by simp)) trivial
  | unlock =>
      rw [hpc] at hstep hlocked
      cases hstep
      exact h.setConnection (iff_of_false id (by simp)) (.inr (.inr ⟨hlocked.mp trivial, rfl⟩))
        (fun _ _ hfinish => absurd (hpc.symm.trans hfinish) (by simp)) trivial
  | endLock kind =>
      rw [hpc] at hstep
      dsimp only at hstep
      split at hstep
      · rename_i hfree
        cases hstep
        exact h.setConnection (iff_of_true trivial rfl) (.inr (.inl ⟨hfree, rfl⟩))
          (fun _ _ hfinish => absurd (hpc.symm.trans hfinish) (by simp)) trivial
      · cases hstep
  | drain kind =>
      rw [hpc] at hstep hlocked
      dsimp only at hstep
      split at hstep
      · cases hstep
        exact h.setConnection (iff_of_false id (by simp)) (.inr (.inr ⟨hlocked.mp trivial, rfl⟩))
          (fun _ _ hfinish => absurd (hpc.symm.trans hfinish) (by simp)) trivial
      · cases hstep
  | finish kind n =>
      rw [hpc] at hstep hfits
      obtain ⟨a, ha, hstep⟩ := Option.map_eq_some_iff.mp hstep
      split at hstep
      · rename_i hdetached
        cases hstep
        have hupdated : SessionInv { s with attachments := s.update n (·.finish) } :=
          h.update gentle_finish (fun _ _ _ => .inr hfits)
        refine hupdated.stepConnection (iff_of_true trivial (by rw [hpc]; trivial)) ?_ trivial
        intro kind' m hfinish b hb
        obtain ⟨-, rfl⟩ := ConnectionPc.finish.inj (hpc.symm.trans hfinish)
        rcases modify_cases hb with ⟨-, x, hx, rfl⟩ | ⟨hne, -⟩
        · rw [ha] at hx
          cases hx
          exact hdetached
        · exact absurd rfl hne
      · cases hstep
        have hupdated : SessionInv { s with attachments := s.update n (·.detach) } :=
          h.update gentle_detach (fun _ _ hfinished => .inl hfinished)
        refine hupdated.stepConnection (iff_of_true trivial (by rw [hpc]; trivial)) ?_ hfits
        intro kind' m hfinish b hb
        obtain ⟨-, rfl⟩ := ConnectionPc.finish.inj (hpc.symm.trans hfinish)
        rcases modify_cases hb with ⟨-, x, -, rfl⟩ | ⟨hne, -⟩
        · rfl
        · exact absurd rfl hne
  | sendEnd kind n =>
      rw [hpc] at hstep hfits
      cases hstep
      have hupdated : SessionInv { s with attachments := s.update n (·.sendEnd kind) } :=
        h.update (gentle_sendEnd kind)
          (fun a _ hfinished => .inl ((sendEnd_cases a kind).2.2.2.symm.trans hfinished))
      exact hupdated.stepConnection (iff_of_true trivial (by rw [hpc]; trivial))
        (fun _ _ hfinish => absurd (hpc.symm.trans hfinish) (by simp)) hfits
  | tryWrite kind n =>
      rw [hpc] at hstep hfits
      cases hstep
      have hupdated : SessionInv { s with attachments := s.update n (·.finish) } :=
        h.update gentle_finish (fun _ _ _ => .inr hfits)
      exact hupdated.stepConnection (iff_of_true trivial (by rw [hpc]; trivial))
        (fun _ _ hfinish => absurd (hpc.symm.trans hfinish) (by simp)) trivial
  | idle | ended =>
      rw [hpc] at hstep
      cases hstep

/-- The step of the invariant. -/
theorem sessionInv_step {act : SessionAction} (h : SessionInv s) (hok : Scoped s act)
    (hstep : s.step act = some s') : SessionInv s' := by
  cases act with
  | beginOpen requested =>
      rw [SessionServer.step] at hstep
      split at hstep
      · cases hstep
      · cases hstep
        exact h.begin id
  | rpcDone k id =>
      obtain ⟨o, ho, hstep⟩ := Option.bind_eq_some_iff.mp hstep
      split at hstep
      · rename_i hpc
        cases hstep
        exact h.stepOpener ho (iff_of_false False.elim (by rw [hpc]; exact False.elim))
      · cases hstep
  | rpcFailed k =>
      obtain ⟨o, ho, hstep⟩ := Option.bind_eq_some_iff.mp hstep
      split at hstep
      · rename_i hpc
        cases hstep
        exact h.stepOpener ho (iff_of_false False.elim (by rw [hpc]; exact False.elim))
      · cases hstep
  | opener k =>
      obtain ⟨o, ho, hstep⟩ := Option.bind_eq_some_iff.mp hstep
      exact h.operateOpener ho hstep
  | abortOpener k =>
      obtain ⟨o, ho, hstep⟩ := Option.bind_eq_some_iff.mp hstep
      split at hstep
      · rename_i hpc
        cases hstep
        exact h.stepOpener ho (iff_of_false False.elim (by rw [hpc]; exact False.elim))
      · rename_i hpc
        cases hstep
        exact h.stepOpener ho (iff_of_false False.elim (by rw [hpc]; exact False.elim))
      · cases hstep
  | control kind target =>
      rw [SessionServer.step] at hstep
      split at hstep
      · rename_i htarget
        cases hstep
        exact h.control htarget id
      · cases hstep
  | call i =>
      obtain ⟨c, hc, hstep⟩ := Option.bind_eq_some_iff.mp hstep
      obtain ⟨a, ha, hstep⟩ := Option.bind_eq_some_iff.mp hstep
      exact h.operateCall hc ha (hok c hc a ha) hstep
  | notification sid bytes =>
      rw [SessionServer.step] at hstep
      split at hstep
      · rename_i hpc
        cases hstep
        exact h.stepConnection (iff_of_false id (by rw [hpc]; exact id))
          (fun _ _ hfinish => absurd (hpc.symm.trans hfinish) (by simp)) trivial
      · cases hstep
  | serverEnd kind =>
      rw [SessionServer.step] at hstep
      split at hstep
      · rename_i hpc
        cases hstep
        exact h.stepConnection (iff_of_false id (by rw [hpc]; exact id))
          (fun _ _ hfinish => absurd (hpc.symm.trans hfinish) (by simp)) trivial
      · cases hstep
  | connection => exact h.operateConnection hstep
  | drain id =>
      rw [SessionServer.step] at hstep
      split at hstep
      · rename_i kind hpc
        obtain ⟨n, hroute, hstep⟩ := Option.map_eq_some_iff.mp hstep
        cases hstep
        refine h.erase (fun _ _ hfinish => absurd (hpc.symm.trans hfinish) (by simp)) ?_
          (iff_of_true trivial (by rw [hpc]; trivial)) ?_
        · intro m a hm _
          rw [hroute] at hm
          cases hm
          exact .inr ⟨kind, rfl⟩
        · -- an attachment has one route at most, under its id
          rintro ⟨id', hid'⟩
          rw [HashMap.lookup_erase_ite] at hid'
          split at hid'
          · cases hid'
          · rename_i hne
            obtain ⟨a, ha, -, rfl⟩ := h.routes id n hroute
            obtain ⟨b, hb, -, rfl⟩ := h.routes id' n hid'
            rw [ha] at hb
            cases hb
            exact hne rfl
      · cases hstep
  | abortConnection =>
      replace hstep : s.abortConnection = some s' := hstep
      unfold SessionServer.abortConnection at hstep
      have hlocked : s.connection.Locked ↔ s.holder = some .connection := h.mutex .connection
      split at hstep
      · rename_i hpc
        cases hstep
        exact h.stepConnection (iff_of_false id (by rw [hpc]; exact id))
          (fun _ _ hfinish => absurd (hpc.symm.trans hfinish) (by simp)) trivial
      · rename_i hpc
        cases hstep
        exact h.stepConnection (iff_of_false id (by rw [hpc]; exact id))
          (fun _ _ hfinish => absurd (hpc.symm.trans hfinish) (by simp)) trivial
      · rename_i hpc
        cases hstep
        exact h.stepConnection (iff_of_false id (by rw [hpc]; exact id))
          (fun _ _ hfinish => absurd (hpc.symm.trans hfinish) (by simp)) trivial
      · rename_i hpc
        cases hstep
        rw [hpc] at hlocked
        exact h.setConnection (iff_of_false id (by simp)) (.inr (.inr ⟨hlocked.mp trivial, rfl⟩))
          (fun _ _ hfinish => absurd (hpc.symm.trans hfinish) (by simp)) trivial
      · cases hstep
  | dropOutput n =>
      cases hstep
      exact h.update (gentle_flag (fun _ => rfl) (fun _ => rfl) (fun _ => rfl))
        (fun _ _ hfinished => .inl hfinished)
  | close =>
      cases hstep
      refine ⟨⟨h.gone, h.live, h.bounded, h.addressed⟩, h.routes, h.mutex, ?_, h.connection⟩
      intro i c hc
      have hfits := h.calls i c hc
      exact ⟨hfits.target, hfits.detached, hfits.removed⟩

/-- A finish that returns while the attachment has its route. -/
theorem finished_routed {n : Nat} {a : Attachment} (ha : s.attachments[n]? = some a)
    (hattachments : s'.attachments = s.update n (·.finish)) (hmap : s'.map = s.map)
    (hroute : s.map.lookup a.sessionId = some n) : ¬ SessionsSound s' := by
  intro hsound
  have hfinished : s'.attachments[n]? = some a.finish := by
    rw [hattachments, SessionServer.update, List.getElem?_modify, ha]
    simp
  refine hsound.gone n a.finish hfinished rfl a.sessionId ?_
  rw [hmap]
  exact hroute

/-- **A step that is not scoped breaks the map.** -/
theorem unscoped_breaks {act : SessionAction} (h : SessionInv s) (hno : ¬ Scoped s act)
    (hstep : s.step act = some s') : ¬ SessionsSound s' := by
  cases act with
  | call i =>
      obtain ⟨c, hc, hstep⟩ := Option.bind_eq_some_iff.mp hstep
      obtain ⟨a, ha, hstep⟩ := Option.bind_eq_some_iff.mp hstep
      have hnot : ¬ ScopedCall s c a := by
        intro hok
        apply hno
        intro c' hc' a' ha'
        rw [hc] at hc'
        cases hc'
        rw [ha] at ha'
        cases ha'
        exact hok
      have hlocked := h.call_locked hc
      obtain ⟨kind, target, pc⟩ := c
      cases pc with
      | finish =>
          obtain ⟨hdetached, hroute⟩ := Classical.not_imp.mp hnot
          rw [SessionServer.operateCall] at hstep
          dsimp only at hstep
          rw [if_pos hdetached] at hstep
          cases hstep
          exact finished_routed ha rfl rfl (Classical.not_not.mp hroute)
      | tryWrite =>
          obtain ⟨hheld, hroute⟩ := Classical.not_imp.mp hnot
          rw [SessionServer.operateCall] at hstep
          dsimp only at hstep
          split at hstep
          · rename_i hfree
            exact absurd hfree hheld
          · cases hstep
            exact finished_routed ha rfl rfl (Classical.not_not.mp hroute)
      | remove =>
          cases hstep
          intro hsound
          apply hnot
          intro m hm
          obtain ⟨b, hb, hadmitted, hid⟩ := h.routes a.sessionId m hm
          right
          intro b' hb'
          rw [hb] at hb'
          cases hb'
          cases hdetached : b.detached with
          | true => rfl
          | false =>
              exfalso
              -- the route of a live attachment was taken out
              rcases hsound.live m b hb hadmitted hdetached with hroute | ⟨kind', hfinish⟩
              · rw [hid, HashMap.lookup_erase_ite, if_pos rfl] at hroute
                cases hroute
              · have hholds : s.Holds .connection := by
                  show s.connection.Locked
                  rw [show s.connection = _ from hfinish]
                  trivial
                rw [h.mutex, hlocked.mp trivial] at hholds
                cases hholds
      | loadDetached | swapFlag | storeCancelled | sendEnd | unlock | returned _ =>
          exact absurd trivial hnot
  | beginOpen _ | rpcDone _ _ | rpcFailed _ | opener _ | abortOpener _ | control _ _
  | notification _ _ | serverEnd _ | connection | drain _ | abortConnection | dropOutput _
  | close => exact absurd trivial hno

theorem sessionInv_init (h : sessionMap.init s) : SessionInv s := by
  obtain ⟨limits, rfl⟩ := h
  refine ⟨⟨?_, ?_, Nat.zero_le _, ?_⟩, ?_, ?_, ?_, trivial⟩
  · intro n a ha
    cases ha
  · intro n a ha
    cases ha
  · intro d hd
    cases hd
  · intro id n hid
    cases hid
  · intro q
    cases q with
    | connection => exact iff_of_false id (by simp [SessionServer.opened])
    | opener k =>
        refine iff_of_false ?_ (by simp [SessionServer.opened])
        rintro ⟨o, ho, -⟩
        cases ho
    | call i =>
        refine iff_of_false ?_ (by simp [SessionServer.opened])
        rintro ⟨c, hc, -⟩
        cases hc
  · intro i c hc
    cases hc

/-- A step of a control call changes the attachment of its handle only. -/
def OwnOnly (s s' : SessionServer) : SessionAction → Prop
  | .call i => ∀ c ∈ s.calls[i]?, ∀ n, n ≠ c.target → s'.attachments[n]? = s.attachments[n]?
  | _ => True

theorem update_other {f : Attachment → Attachment} {n m : Nat} (h : m ≠ n) :
    (s.update n f)[m]? = s.attachments[m]? := by
  rw [SessionServer.update, List.getElem?_modify]
  simp [Ne.symm h]

theorem ownOnly_step {act : SessionAction} (hstep : s.step act = some s') : OwnOnly s s' act := by
  cases act with
  | call i =>
      intro c hc n hn
      obtain ⟨c', hc', hstep⟩ := Option.bind_eq_some_iff.mp hstep
      obtain rfl : c' = c := Option.some.inj (hc'.symm.trans hc)
      obtain ⟨a, -, hstep⟩ := Option.bind_eq_some_iff.mp hstep
      obtain ⟨kind, target, pc⟩ := c'
      cases pc with
      | loadDetached | remove =>
          cases hstep
          rfl
      | swapFlag =>
          cases kind with
          | cancel | terminate =>
              cases hstep
              exact update_other hn
      | storeCancelled | sendEnd | unlock =>
          cases hstep
          exact update_other hn
      | finish =>
          rw [SessionServer.operateCall] at hstep
          dsimp only at hstep
          split at hstep <;> cases hstep <;> exact update_other hn
      | tryWrite =>
          rw [SessionServer.operateCall] at hstep
          dsimp only at hstep
          split at hstep
          · cases hstep
            rfl
          · cases hstep
            exact update_other hn
      | returned disposition => cases hstep
  | beginOpen _ | rpcDone _ _ | rpcFailed _ | opener _ | abortOpener _ | control _ _
  | notification _ _ | serverEnd _ | connection | drain _ | abortConnection | dropOutput _
  | close => trivial

/-- **The session map is sound throughout a run, and no control call changes another
attachment, exactly when every step of a control call is scoped.** -/
theorem sessionsSound_iff_scoped {acts : List SessionAction} (hinit : sessionMap.init s)
    (hrun : sessionMap.run acts s = some s') :
    (sessionMap.Throughout SessionsSound acts s ∧
      ∀ act s₁ s₂, sessionMap.step act s₁ = some s₂ → OwnOnly s₁ s₂ act) ↔
    sessionMap.StepsMeet Scoped acts s := by
  refine Iff.trans (and_iff_left (fun _ _ _ hstep => ownOnly_step hstep)) ?_
  exact System.throughout_iff (fun _ h => h.toSessionsSound)
    (fun _ _ _ h hok hstep => sessionInv_step h hok hstep)
    (fun _ _ _ h hno hstep => unscoped_breaks h hno hstep) (sessionInv_init hinit) hrun

end Steps

section Samples

/-- A load of the session `a`, up to its return. -/
def loading : List SessionAction :=
  [.beginOpen (some "a"), .rpcDone 0 "a", .opener 0, .opener 0, .opener 0]

/-- A cancel, from the test of `detached` to the removal of the route. -/
def cancelling (target : Nat) : List SessionAction :=
  [.control .cancel target, .call 0, .call 0, .call 0, .call 0, .call 0, .call 0]

/-- A session that is loaded, gets a notification and is cancelled. -/
theorem loaded_session_sound :
    sessionMap.Throughout SessionsSound
      (loading ++ [.notification "a" [], .connection, .connection, .connection, .connection,
        .connection] ++ cancelling 1 ++ [.call 0]) (.opened ⟨4194304, 256, 128⟩) := by
  have hrun : ∃ s, sessionMap.runWhere Scoped
      (loading ++ [.notification "a" [], .connection, .connection, .connection, .connection,
        .connection] ++ cancelling 1 ++ [.call 0]) (.opened ⟨4194304, 256, 128⟩) = some s :=
    ⟨_, rfl⟩
  obtain ⟨s, hrun⟩ := hrun
  obtain ⟨hrun, hscoped⟩ := System.runWhere_some hrun
  exact ((sessionsSound_iff_scoped ⟨_, rfl⟩ hrun).mpr hscoped).1

/-- **A pending load takes the route of a live session.** The session `a` is loaded and
live; a second load of it is cancelled while it is pending. -/
theorem pending_cancel_unroutes :
    ∃ s, sessionMap.run (loading ++ [.beginOpen (some "a")] ++ cancelling 2)
        (.opened ⟨4194304, 256, 128⟩) = some s ∧
      s.map.lookup "a" = none ∧ ¬ SessionsSound s := by
  refine ⟨_, rfl, rfl, ?_⟩
  intro hsound
  rcases hsound.live 1 (.live "a") rfl rfl rfl with hroute | ⟨kind, hfinish⟩
  · cases hroute
  · cases hfinish

end Samples

end Monoloop.Grok
