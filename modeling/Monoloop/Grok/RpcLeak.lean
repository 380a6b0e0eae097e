import Monoloop.Grok.RpcTable

/-!
# What the table of pending calls keeps

Only two of the ways out of `rpc_call` give its entry back: the reply and the deadline.
A request that turns out too long, a closed write path and a dropped caller leave the
entry behind, and the size test and the registration are two critical sections.

`Tidy` is the condition on a step under which none of this happens; the table is sound
throughout a run exactly when every step meets it.
-/

namespace Monoloop.Grok

open Connector (ConnectorError)
open Interpreter (Json)
open Transition (System)

/-- **The table**: it holds the registered calls, not too many, and a response resolves
the call whose id it carries, once. -/
structure TableSound (s : RpcState) : Prop where
  exact : ∀ (id n : Nat), s.server.pending.lookup id = some n ↔
    ∃ k, s.calls[n]? = some k ∧ k.id = some id ∧ k.Registered
  bounded : s.server.pending.keys.length ≤ s.server.limits.maxPendingRpc
  own : ∀ r ∈ s.resolved, ∃ k, s.calls[r.2]? = some k ∧ k.id = some r.1
  once : (s.resolved.map (·.2)).Nodup

/-- The request of a call fits into a message. -/
def Fits (serde : Interpreter.SerdeJson) (limits : GrokConnectorLimits) (k : RpcCall) : Prop :=
  ∀ id ∈ k.id, (serde.toString (requestJson id k.method k.params)).utf8ByteSize ≤
    limits.maxMessageBytes

instance (serde : Interpreter.SerdeJson) (limits : GrokConnectorLimits) (k : RpcCall) :
    Decidable (Fits serde limits k) :=
  inferInstanceAs (Decidable (∀ _ ∈ _, _))

/-- What the next operation of a call asks for. -/
def TidyCall (host : Host) (s : RpcState) (k : RpcCall) : Prop :=
  match k.pc with
  | .insert => s.server.pending.keys.length < s.server.limits.maxPendingRpc
  | .serialize => k.Registered → Fits host.serde s.server.limits k
  | .send => k.Registered → s.server.writeOpen = true
  | _ => True

instance (host : Host) (s : RpcState) (k : RpcCall) : Decidable (TidyCall host s k) :=
  match k with
  | ⟨_, _, .insert, _, _⟩ => inferInstanceAs (Decidable (_ < _))
  | ⟨_, _, .serialize, _, _⟩ => inferInstanceAs (Decidable (_ → _))
  | ⟨_, _, .send, _, _⟩ => inferInstanceAs (Decidable (_ → _))
  | ⟨_, _, .checkClosed, _, _⟩ | ⟨_, _, .testCapacity, _, _⟩ | ⟨_, _, .fetchId, _, _⟩
  | ⟨_, _, .await, _, _⟩ | ⟨_, _, .expired, _, _⟩ | ⟨_, _, .returned _, _, _⟩
  | ⟨_, _, .aborted, _, _⟩ => inferInstanceAs (Decidable True)

/-- **The condition on a step.** A call registers while the table has room; a registered
call has a request that fits, sends it on an open write path and is not dropped. -/
def Tidy (host : Host) (s : RpcState) : RpcAction → Prop
  | .operate n => ∀ k ∈ s.calls[n]?, TidyCall host s k
  | .abort n => ∀ k ∈ s.calls[n]?, ¬ k.Registered
  | _ => True

instance (host : Host) (s : RpcState) (a : RpcAction) : Decidable (Tidy host s a) :=
  match a with
  | .operate _ | .abort _ => inferInstanceAs (Decidable (∀ _ ∈ _, _))
  | .call _ _ | .expire _ | .inbound _ | .failAllPending _ | .close | .cancel | .closeWrite =>
      inferInstanceAs (Decidable True)

/-! ## The invariant -/

/-- Before it registers a call has received nothing, and before it fetches its id it has
none. -/
structure CallSound (k : RpcCall) : Prop where
  fresh : k.pc = .checkClosed ∨ k.pc = .testCapacity ∨ k.pc = .fetchId →
    k.id = none ∧ k.inbox = .waiting
  unsent : k.pc = .insert → k.inbox = .waiting
  named : k.Registered → k.id ≠ none

structure RpcInv (s : RpcState) : Prop extends TableSound s where
  sound : ∀ (n : Nat) k, s.calls[n]? = some k → CallSound k
  below : ∀ (n : Nat) k id, s.calls[n]? = some k → k.id = some id → id < s.nextId
  distinct : ∀ (n n' : Nat) k k' id, s.calls[n]? = some k → s.calls[n']? = some k' →
    k.id = some id → k'.id = some id → n = n'
  done : ∀ r ∈ s.resolved, ∀ k, s.calls[r.2]? = some k → k.inbox ≠ .waiting

namespace RpcCall

theorem registered_iff (k : RpcCall) :
    k.Registered ↔ k.inbox = .waiting ∧
      (k.pc = .serialize ∨ k.pc = .send ∨ k.pc = .await ∨ k.pc = .expired) := by
  obtain ⟨method, params, pc, id, inbox⟩ := k
  cases pc <;> cases inbox <;> simp [Registered]

@[simp] theorem goto_id (k : RpcCall) (pc : RpcPc) : (k.goto pc).id = k.id := rfl
@[simp] theorem goto_inbox (k : RpcCall) (pc : RpcPc) : (k.goto pc).inbox = k.inbox := rfl
@[simp] theorem goto_pc (k : RpcCall) (pc : RpcPc) : (k.goto pc).pc = pc := rfl

theorem put_id (k : RpcCall) (inbox : Inbox) : (k.put inbox).id = k.id := by
  unfold put
  split <;> rfl

theorem put_pc (k : RpcCall) (inbox : Inbox) : (k.put inbox).pc = k.pc := by
  unfold put
  split <;> rfl

theorem put_inbox {inbox : Inbox} (h : inbox ≠ .waiting) (k : RpcCall) :
    (k.put inbox).inbox ≠ .waiting := by
  unfold put
  split
  · exact h
  · assumption

end RpcCall

section Moves

variable {s s' : RpcState} {n : Nat} {k k' : RpcCall}

theorem get_set (hget : s.calls[n]? = some k) (m : Nat) :
    (s.calls.set n k')[m]? = if m = n then some k' else s.calls[m]? := by
  obtain ⟨hn, -⟩ := List.getElem?_eq_some_iff.mp hget
  by_cases hm : m = n
  · subst hm
    rw [if_pos rfl]
    exact List.getElem?_set_self hn
  · rw [if_neg hm]
    exact List.getElem?_set_ne (Ne.symm hm)

/-- What a step may do to one call: its entry goes with it, its id is the one it had or
the next one, and what it received stays. -/
structure Stepped (s s' : RpcState) (n : Nat) (k k' : RpcCall) : Prop where
  get : s.calls[n]? = some k
  calls : s'.calls = s.calls.set n k'
  others : ∀ id m, m ≠ n →
    (s'.server.pending.lookup id = some m ↔ s.server.pending.lookup id = some m)
  limits : s'.server.limits = s.server.limits
  resolved : s'.resolved = s.resolved
  nextId : s.nextId ≤ s'.nextId
  id : k'.id = k.id ∨ k.id = none ∧ k'.id = some s.nextId ∧ s.nextId < s'.nextId
  inbox : k'.inbox = k.inbox

/-- Where a call of the new state was before. -/
theorem Stepped.get_cases (h : Stepped s s' n k k') {m : Nat} {x : RpcCall}
    (hx : s'.calls[m]? = some x) : m = n ∧ x = k' ∨ m ≠ n ∧ s.calls[m]? = some x := by
  rw [h.calls, get_set h.get] at hx
  by_cases hmn : m = n
  · rw [if_pos hmn] at hx
    exact .inl ⟨hmn, (Option.some.inj hx).symm⟩
  · rw [if_neg hmn] at hx
    exact .inr ⟨hmn, hx⟩

theorem Stepped.get_self (h : Stepped s s' n k k') : s'.calls[n]? = some k' := by
  rw [h.calls, get_set h.get, if_pos rfl]

theorem Stepped.get_other (h : Stepped s s' n k k') {m : Nat} (hmn : m ≠ n) :
    s'.calls[m]? = s.calls[m]? := by
  rw [h.calls, get_set h.get, if_neg hmn]

theorem RpcInv.stepped (h : RpcInv s) (hm : Stepped s s' n k k')
    (hentry : ∀ id, s'.server.pending.lookup id = some n ↔ k'.id = some id ∧ k'.Registered)
    (hbounded : s'.server.pending.keys.length ≤ s'.server.limits.maxPendingRpc)
    (hsound : CallSound k') : RpcInv s' where
  exact := by
    intro id m
    by_cases hmn : m = n
    · rw [hmn, hentry, hm.get_self]
      simp
    · rw [hm.others id m hmn, h.exact, hm.get_other hmn]
  bounded := hbounded
  own := by
    intro r hr
    rw [hm.resolved] at hr
    obtain ⟨x, hx, hid⟩ := h.own r hr
    by_cases hrn : r.2 = n
    · rw [hrn, hm.get] at hx
      cases hx
      refine ⟨k', hrn ▸ hm.get_self, ?_⟩
      rcases hm.id with hsame | ⟨hnone, -⟩
      · exact hsame.trans hid
      · cases hnone.symm.trans hid
    · exact ⟨x, (hm.get_other hrn).trans hx, hid⟩
  once := hm.resolved ▸ h.once
  sound := by
    intro m x hx
    rcases hm.get_cases hx with ⟨-, rfl⟩ | ⟨-, hold⟩
    · exact hsound
    · exact h.sound m x hold
  below := by
    intro m x id hx hid
    rcases hm.get_cases hx with ⟨-, rfl⟩ | ⟨-, hold⟩
    · rcases hm.id with hsame | ⟨-, hnew, hlt⟩
      · exact Nat.lt_of_lt_of_le (h.below n k id hm.get (hsame.symm.trans hid)) hm.nextId
      · cases hnew.symm.trans hid
        exact hlt
    · exact Nat.lt_of_lt_of_le (h.below m x id hold hid) hm.nextId
  distinct := by
    -- a new id is larger than all others
    have hother : ∀ (m : Nat) x id, m ≠ n → s.calls[m]? = some x → x.id = some id →
        k'.id = some id → False := by
      intro m x id hmn hx hid hid'
      rcases hm.id with hsame | ⟨-, hnew, -⟩
      · exact hmn (h.distinct m n x k id hx hm.get hid (hsame.symm.trans hid'))
      · cases hnew.symm.trans hid'
        exact absurd (h.below m x _ hx hid) (Nat.lt_irrefl _)
    intro m m' x x' id hx hx' hid hid'
    rcases hm.get_cases hx with ⟨rfl, rfl⟩ | ⟨hmn, hold⟩
    · rcases hm.get_cases hx' with ⟨rfl, -⟩ | ⟨hmn', hold'⟩
      · rfl
      · exact absurd hid (fun h' => hother m' x' id hmn' hold' hid' h')
    · rcases hm.get_cases hx' with ⟨rfl, rfl⟩ | ⟨-, hold'⟩
      · exact absurd hid' (fun h' => hother m x id hmn hold hid h')
      · exact h.distinct m m' x x' id hold hold' hid hid'
  done := by
    intro r hr x hx
    rw [hm.resolved] at hr
    rcases hm.get_cases hx with ⟨hrn, rfl⟩ | ⟨-, hold⟩
    · rw [hm.inbox]
      exact h.done r hr k (hrn ▸ hm.get)
    · exact h.done r hr x hold

/-- A step that moves one call and leaves the table alone. -/
structure Moved (s s' : RpcState) (n : Nat) (k k' : RpcCall) : Prop where
  get : s.calls[n]? = some k
  calls : s'.calls = s.calls.set n k'
  pending : s'.server.pending = s.server.pending
  limits : s'.server.limits = s.server.limits
  resolved : s'.resolved = s.resolved
  nextId : s'.nextId = s.nextId
  id : k'.id = k.id
  inbox : k'.inbox = k.inbox

theorem Moved.stepped (h : Moved s s' n k k') : Stepped s s' n k k' where
  get := h.get
  calls := h.calls
  others := fun id m _ => by rw [h.pending]
  limits := h.limits
  resolved := h.resolved
  nextId := Nat.le_of_eq h.nextId.symm
  id := .inl h.id
  inbox := h.inbox

/-- The entry of one call. -/
theorem RpcInv.entry_iff (h : RpcInv s) (hget : s.calls[n]? = some k) (id : Nat) :
    s.server.pending.lookup id = some n ↔ k.id = some id ∧ k.Registered := by
  rw [h.exact, hget]
  simp

theorem RpcInv.moved (h : RpcInv s) (hm : Moved s s' n k k')
    (hreg : k'.Registered ↔ k.Registered) (hsound : CallSound k') : RpcInv s' := by
  refine h.stepped hm.stepped ?_ ?_ hsound
  · intro id
    rw [hm.pending, h.entry_iff hm.get, hm.id, hreg]
  · rw [hm.pending, hm.limits]
    exact h.bounded

/-- A call that goes away while its entry stays makes the table unsound. -/
theorem RpcInv.leaks (h : RpcInv s) (hm : Moved s s' n k k') (hreg : k.Registered)
    (hgone : ¬ k'.Registered) : ¬ TableSound s' := by
  intro hs'
  obtain ⟨id, hid⟩ := Option.ne_none_iff_exists'.mp ((h.sound n k hm.get).named hreg)
  have hentry : s'.server.pending.lookup id = some n := by
    rw [hm.pending]
    exact (h.entry_iff hm.get id).mpr ⟨hid, hreg⟩
  obtain ⟨x, hx, -, hxreg⟩ := (hs'.exact id n).mp hentry
  rw [hm.stepped.get_self] at hx
  cases hx
  exact hgone hxreg

/-- What does not touch the table, the calls or the counter. -/
theorem RpcInv.congr (h : RpcInv s) (hpending : s'.server.pending = s.server.pending)
    (hlimits : s'.server.limits = s.server.limits) (hcalls : s'.calls = s.calls)
    (hresolved : s'.resolved = s.resolved) (hnext : s'.nextId = s.nextId) : RpcInv s' where
  exact := by
    rw [hpending, hcalls]
    exact h.exact
  bounded := by
    rw [hpending, hlimits]
    exact h.bounded
  own := by
    rw [hresolved, hcalls]
    exact h.own
  once := hresolved ▸ h.once
  sound := by
    rw [hcalls]
    exact h.sound
  below := by
    rw [hcalls, hnext]
    exact h.below
  distinct := by
    rw [hcalls]
    exact h.distinct
  done := by
    rw [hresolved, hcalls]
    exact h.done

/-- A new call has neither an id nor an entry. -/
theorem RpcInv.call (h : RpcInv s) (method : String) (params : Option Json) :
    RpcInv { s with calls := s.calls ++ [.new method params] } := by
  have hget : ∀ (m : Nat) x, (s.calls ++ [RpcCall.new method params])[m]? = some x →
      s.calls[m]? = some x ∨ x = .new method params := by
    intro m x hx
    rcases Nat.lt_trichotomy m s.calls.length with hlt | heq | hgt
    · rw [List.getElem?_append_left hlt] at hx
      exact .inl hx
    · rw [List.getElem?_append_right (Nat.le_of_eq heq.symm), heq, Nat.sub_self] at hx
      exact .inr (Option.some.inj hx).symm
    · rw [List.getElem?_eq_none (by simp; omega)] at hx
      cases hx
  have hkeep : ∀ (m : Nat) x, s.calls[m]? = some x →
      (s.calls ++ [RpcCall.new method params])[m]? = some x := by
    intro m x hx
    rw [List.getElem?_append_left (List.getElem?_eq_some_iff.mp hx).1]
    exact hx
  constructor
  · constructor
    · intro id m
      rw [h.exact]
      constructor
      · rintro ⟨x, hx, hrest⟩
        exact ⟨x, hkeep m x hx, hrest⟩
      · rintro ⟨x, hx, hid, hreg⟩
        rcases hget m x hx with hold | rfl
        · exact ⟨x, hold, hid, hreg⟩
        · cases hid
    · exact h.bounded
    · intro r hr
      obtain ⟨x, hx, hid⟩ := h.own r hr
      exact ⟨x, hkeep r.2 x hx, hid⟩
    · exact h.once
  · intro m x hx
    rcases hget m x hx with hold | rfl
    · exact h.sound m x hold
    · exact ⟨fun _ => ⟨rfl, rfl⟩, fun _ => rfl, fun hreg => absurd hreg (by simp [RpcCall.registered_iff, RpcCall.new])⟩
  · intro m x id hx hid
    rcases hget m x hx with hold | rfl
    · exact h.below m x id hold hid
    · cases hid
  · intro m m' x x' id hx hx' hid hid'
    rcases hget m x hx with hold | rfl
    · rcases hget m' x' hx' with hold' | rfl
      · exact h.distinct m m' x x' id hold hold' hid hid'
      · cases hid'
    · cases hid
  · intro r hr x hx
    obtain ⟨y, hy, -⟩ := h.own r hr
    obtain rfl : y = x := Option.some.inj ((hkeep r.2 y hy).symm.trans hx)
    exact h.done r hr y hy

/-! ## The steps of a call -/

/-- A call that is over, or has not registered yet, has no entry. -/
theorem not_registered_of_pc (h : k.pc ≠ .serialize ∧ k.pc ≠ .send ∧ k.pc ≠ .await ∧
    k.pc ≠ .expired) : ¬ k.Registered := by
  rw [RpcCall.registered_iff]
  rintro ⟨-, hpc | hpc | hpc | hpc⟩
  · exact h.1 hpc
  · exact h.2.1 hpc
  · exact h.2.2.1 hpc
  · exact h.2.2.2 hpc

/-- From the registration on only the id matters. -/
theorem callSound_of_late (h : k.pc ≠ .checkClosed ∧ k.pc ≠ .testCapacity ∧ k.pc ≠ .fetchId ∧
    k.pc ≠ .insert) (hnamed : k.Registered → k.id ≠ none) : CallSound k where
  fresh := by
    rintro (hpc | hpc | hpc)
    · exact absurd hpc h.1
    · exact absurd hpc h.2.1
    · exact absurd hpc h.2.2.1
  unsent := fun hpc => absurd hpc h.2.2.2
  named := hnamed

theorem callSound_returned (k : RpcCall) (result : Except ConnectorError Json) :
    CallSound (k.goto (.returned result)) :=
  callSound_of_late (by simp) (fun h => absurd h (not_registered_of_pc (by simp)))

theorem not_registered_returned (k : RpcCall) (result : Except ConnectorError Json) :
    ¬ (k.goto (.returned result)).Registered := not_registered_of_pc (by simp)

/-- Ending a call that is not registered. -/
theorem RpcInv.ended (h : RpcInv s) {result : Except ConnectorError Json}
    (hm : Moved s s' n k (k.goto (.returned result))) (hreg : ¬ k.Registered) : RpcInv s' :=
  h.moved hm (iff_of_false (not_registered_returned k result) hreg) (callSound_returned k result)

/-- A call that passes one of its two tests. -/
theorem RpcInv.advanced (h : RpcInv s) (pc : RpcPc) (hm : Moved s s' n k (k.goto pc))
    (hbefore : k.pc = .checkClosed ∨ k.pc = .testCapacity)
    (hafter : pc = .testCapacity ∨ pc = .fetchId) : RpcInv s' := by
  have hfresh := (h.sound n k hm.get).fresh (hbefore.imp_right .inl)
  have hno : ¬ (k.goto pc).Registered := by
    apply not_registered_of_pc
    rcases hafter with rfl | rfl <;> simp
  apply h.moved hm
  · refine iff_of_false hno (not_registered_of_pc ?_)
    rcases hbefore with hpc | hpc <;> simp [hpc]
  · exact ⟨fun _ => hfresh, fun _ => hfresh.2, fun hreg => absurd hreg hno⟩

/-- A registered call that goes on. -/
theorem RpcInv.proceeded (h : RpcInv s) (pc : RpcPc) (hm : Moved s s' n k (k.goto pc))
    (hbefore : k.pc = .serialize ∨ k.pc = .send ∨ k.pc = .await)
    (hafter : pc = .send ∨ pc = .await ∨ pc = .expired) : RpcInv s' := by
  have hreg : (k.goto pc).Registered ↔ k.Registered := by
    rw [RpcCall.registered_iff, RpcCall.registered_iff]
    rcases hbefore with hpc | hpc | hpc <;> rcases hafter with rfl | rfl | rfl <;> simp [hpc]
  apply h.moved hm hreg
  apply callSound_of_late
  · rcases hafter with rfl | rfl | rfl <;> simp
  · intro hr
    exact (h.sound n k hm.get).named (hreg.mp hr)

/-- The id is the next one, which no other call has. -/
theorem RpcInv.fetched (h : RpcInv s) (hget : s.calls[n]? = some k) (hpc : k.pc = .fetchId) :
    RpcInv { s with
      nextId := s.nextId + 1
      calls := s.calls.set n { k with pc := .insert, id := some s.nextId } } := by
  obtain ⟨hnone, hinbox⟩ := (h.sound n k hget).fresh (.inr (.inr hpc))
  have hno : ¬ ({ k with pc := .insert, id := some s.nextId } : RpcCall).Registered :=
    not_registered_of_pc (by simp)
  refine @RpcInv.stepped s _ n k { k with pc := .insert, id := some s.nextId } h ?_ ?_ h.bounded ?_
  · exact ⟨hget, rfl, fun _ _ _ => Iff.rfl, rfl, rfl, Nat.le_succ _,
      .inr ⟨hnone, rfl, Nat.lt_succ_self _⟩, rfl⟩
  · intro id
    rw [h.entry_iff hget id]
    exact iff_of_false (fun hx => by simp [hnone] at hx) (fun hx => hno hx.2)
  · exact ⟨by simp, fun _ => hinbox, fun hreg => absurd hreg hno⟩

/-- The registration: the call's id is new to the table. -/
theorem RpcInv.insert_none (h : RpcInv s) (hget : s.calls[n]? = some k) (hpc : k.pc = .insert)
    {id : Nat} (hid : k.id = some id) : s.server.pending.lookup id = none := by
  cases hentry : s.server.pending.lookup id with
  | none => rfl
  | some m =>
      obtain ⟨x, hx, hxid, hxreg⟩ := (h.exact id m).mp hentry
      obtain rfl := h.distinct m n x k id hx hget hxid hid
      rw [hget] at hx
      cases hx
      exact absurd hxreg (not_registered_of_pc (by simp [hpc]))

theorem RpcInv.insert (h : RpcInv s) (hget : s.calls[n]? = some k) (hpc : k.pc = .insert)
    {id : Nat} (hid : k.id = some id)
    (hroom : s.server.pending.keys.length < s.server.limits.maxPendingRpc) :
    RpcInv { s with
      server := { s.server with pending := s.server.pending.insert id n }
      calls := s.calls.set n (k.goto .serialize) } := by
  have hnone := h.insert_none hget hpc hid
  have hinbox := (h.sound n k hget).unsent hpc
  have hreg : (k.goto .serialize).Registered := by
    rw [RpcCall.registered_iff]
    exact ⟨hinbox, .inl rfl⟩
  have hno : ∀ id', s.server.pending.lookup id' ≠ some n := by
    intro id' hentry
    obtain ⟨-, hreg'⟩ := (h.entry_iff hget id').mp hentry
    exact absurd hreg' (not_registered_of_pc (by simp [hpc]))
  refine @RpcInv.stepped s _ n k (k.goto .serialize) h ?_ ?_ ?_ ?_
  · refine ⟨hget, rfl, ?_, rfl, rfl, Nat.le_refl _, .inl rfl, rfl⟩
    intro id' m hmn
    show (s.server.pending.insert id n).lookup id' = some m ↔ _
    rw [HashMap.lookup_insert_ite]
    by_cases hid' : id' = id
    · subst hid'
      simp [hnone, Ne.symm hmn]
    · rw [if_neg hid']
  · intro id'
    show (s.server.pending.insert id n).lookup id' = some n ↔ _
    rw [HashMap.lookup_insert_ite]
    by_cases hid' : id' = id
    · subst hid'
      simp [hid, hreg]
    · simp [hid', hno id', hid, Ne.symm hid']
  · show (s.server.pending.insert id n).keys.length ≤ _
    rw [HashMap.length_keys_insert, hnone]
    exact hroom
  · exact callSound_of_late (by simp) (fun _ => by simp [hid])

/-- The deadline: the entry is the call's own, or gone. -/
theorem RpcInv.expired (h : RpcInv s) (hget : s.calls[n]? = some k) {id : Nat}
    (hid : k.id = some id) (result : Except ConnectorError Json) :
    RpcInv { s with
      server := { s.server with pending := s.server.pending.erase id }
      calls := s.calls.set n (k.goto (.returned result)) } := by
  refine @RpcInv.stepped s _ n k (k.goto (.returned result)) h ?_ ?_ ?_
    (callSound_returned k result)
  · refine ⟨hget, rfl, ?_, rfl, rfl, Nat.le_refl _, .inl rfl, rfl⟩
    intro id' m hmn
    show (s.server.pending.erase id).lookup id' = some m ↔ _
    rw [HashMap.lookup_erase_ite]
    by_cases hid' : id' = id
    · subst hid'
      rw [if_pos rfl]
      simp only [reduceCtorEq, false_iff]
      intro hentry
      obtain ⟨x, hx, hxid, -⟩ := (h.exact id' m).mp hentry
      exact hmn (h.distinct m n x k id' hx hget hxid hid)
    · rw [if_neg hid']
  · intro id'
    show (s.server.pending.erase id).lookup id' = some n ↔ _
    rw [HashMap.lookup_erase_ite]
    have hgone := not_registered_returned k result
    by_cases hid' : id' = id
    · simp [hid', hgone]
    · rw [if_neg hid']
      simp only [hgone, and_false, iff_false]
      intro hentry
      obtain ⟨hkid, -⟩ := (h.entry_iff hget id').mp hentry
      exact hid' (Option.some.inj (hkid.symm.trans hid))
  · show (s.server.pending.erase id).keys.length ≤ _
    rw [AList.keys_erase]
    exact Nat.le_trans (List.erase_sublist.length_le) h.bounded

/-- Every operation of a call that meets the condition. -/
theorem RpcInv.operate {serde : Interpreter.SerdeJson} (h : RpcInv s) (hget : s.calls[n]? = some k)
    {host : Host} (hserde : host.serde = serde) (hok : Tidy host s (.operate n))
    (hstep : s.operate serde n k = some s') : RpcInv s' := by
  have hok : TidyCall host s k := hok k hget
  unfold TidyCall at hok
  cases hpc : k.pc with
  | checkClosed =>
      simp only [RpcState.operate, hpc] at hstep
      cases hstep
      have hno : ¬ k.Registered := not_registered_of_pc (by simp [hpc])
      split
      · exact h.ended ⟨hget, rfl, rfl, rfl, rfl, rfl, rfl, rfl⟩ hno
      · exact h.advanced .testCapacity ⟨hget, rfl, rfl, rfl, rfl, rfl, rfl, rfl⟩ (.inl hpc) (.inl rfl)
  | testCapacity =>
      simp only [RpcState.operate, hpc] at hstep
      cases hstep
      have hno : ¬ k.Registered := not_registered_of_pc (by simp [hpc])
      split
      · exact h.ended ⟨hget, rfl, rfl, rfl, rfl, rfl, rfl, rfl⟩ hno
      · exact h.advanced .fetchId ⟨hget, rfl, rfl, rfl, rfl, rfl, rfl, rfl⟩ (.inr hpc) (.inr rfl)
  | fetchId =>
      simp only [RpcState.operate, hpc] at hstep
      cases hstep
      exact h.fetched hget hpc
  | insert =>
      simp only [RpcState.operate, hpc] at hstep
      obtain ⟨id, hid, rfl⟩ := Option.map_eq_some_iff.mp hstep
      simp only [hpc] at hok
      exact h.insert hget hpc hid hok
  | serialize =>
      simp only [RpcState.operate, hpc] at hstep
      obtain ⟨id, hid, rfl⟩ := Option.map_eq_some_iff.mp hstep
      simp only [hpc] at hok
      split
      · rename_i hlong
        refine h.ended ⟨hget, rfl, rfl, rfl, rfl, rfl, rfl, rfl⟩ ?_
        intro hreg
        have hfits := hok hreg id hid
        rw [hserde] at hfits
        omega
      · exact h.proceeded .send ⟨hget, rfl, rfl, rfl, rfl, rfl, rfl, rfl⟩ (.inl hpc) (.inl rfl)
  | send =>
      simp only [RpcState.operate, hpc] at hstep
      obtain ⟨id, hid, rfl⟩ := Option.map_eq_some_iff.mp hstep
      simp only [hpc] at hok
      split
      · exact h.proceeded .await ⟨hget, rfl, rfl, rfl, rfl, rfl, rfl, rfl⟩ (.inr (.inl hpc))
          (.inr (.inl rfl))
      · rename_i hclosed
        exact h.ended ⟨hget, rfl, rfl, rfl, rfl, rfl, rfl, rfl⟩ (fun hreg => hclosed (hok hreg))
  | await =>
      simp only [RpcState.operate, hpc] at hstep
      have hno : k.inbox ≠ .waiting → ¬ k.Registered := by
        intro hinbox hreg
        exact hinbox ((RpcCall.registered_iff k).mp hreg).1
      cases hinbox : k.inbox with
      | waiting =>
          rw [hinbox] at hstep
          cases hstep
      | delivered reply =>
          rw [hinbox] at hstep
          cases hstep
          exact h.ended ⟨hget, rfl, rfl, rfl, rfl, rfl, rfl, rfl⟩ (hno (by simp [hinbox]))
      | dropped =>
          rw [hinbox] at hstep
          cases hstep
          exact h.ended ⟨hget, rfl, rfl, rfl, rfl, rfl, rfl, rfl⟩ (hno (by simp [hinbox]))
  | expired =>
      simp only [RpcState.operate, hpc] at hstep
      obtain ⟨id, hid, rfl⟩ := Option.map_eq_some_iff.mp hstep
      exact h.expired hget hid _
  | returned result => simp [RpcState.operate, hpc] at hstep
  | aborted => simp [RpcState.operate, hpc] at hstep

/-! ## Replies -/

/-- Calls whose entries are taken out are handed something. -/
structure Handed (s s' : RpcState) (ns : List Nat) (what : Inbox) : Prop where
  given : what ≠ .waiting
  known : ∀ n ∈ ns, ∃ id, s.server.pending.lookup id = some n
  calls : ∀ m : Nat, s'.calls[m]? =
    (s.calls[m]?).map fun k => if m ∈ ns then k.put what else k
  pending : ∀ id m : Nat, s'.server.pending.lookup id = some m ↔
    s.server.pending.lookup id = some m ∧ m ∉ ns
  length : s'.server.pending.keys.length ≤ s.server.pending.keys.length
  limits : s'.server.limits = s.server.limits
  nextId : s'.nextId = s.nextId
  resolved : s'.resolved = s.resolved ∨ ∃ id n, n ∈ ns ∧ s.server.pending.lookup id = some n ∧
    s'.resolved = s.resolved ++ [(id, n)]

/-- A call of the new state, and what it was before. -/
theorem Handed.back {ns : List Nat} {what : Inbox} (h : Handed s s' ns what) {m : Nat}
    {x : RpcCall} (hx : s'.calls[m]? = some x) :
    ∃ y, s.calls[m]? = some y ∧ x.id = y.id ∧ x.pc = y.pc ∧
      (m ∈ ns → x.inbox ≠ .waiting) ∧ (m ∉ ns → x = y) := by
  rw [h.calls] at hx
  obtain ⟨y, hy, rfl⟩ := Option.map_eq_some_iff.mp hx
  refine ⟨y, hy, ?_⟩
  by_cases hm : m ∈ ns
  · simp only [if_pos hm, y.put_id, y.put_pc, true_and]
    exact ⟨fun _ => y.put_inbox h.given, fun hno => absurd hm hno⟩
  · simp [hm]

theorem Handed.forth {ns : List Nat} {what : Inbox} (h : Handed s s' ns what) {m : Nat}
    {y : RpcCall} (hy : s.calls[m]? = some y) : ∃ x, s'.calls[m]? = some x ∧ x.id = y.id := by
  rw [h.calls, hy]
  refine ⟨_, rfl, ?_⟩
  by_cases hm : m ∈ ns
  · simp [hm, y.put_id]
  · simp [hm]

theorem RpcInv.handed {ns : List Nat} {what : Inbox} (h : RpcInv s) (hh : Handed s s' ns what) :
    RpcInv s' := by
  have hnot : ∀ {m : Nat} {x : RpcCall}, m ∈ ns → s'.calls[m]? = some x → ¬ x.Registered := by
    intro m x hm hx hreg
    obtain ⟨y, -, -, -, hinbox, -⟩ := hh.back hx
    exact hinbox hm ((RpcCall.registered_iff x).mp hreg).1
  have hdone : ∀ r ∈ s.resolved, ∀ x, s'.calls[r.2]? = some x → x.inbox ≠ .waiting := by
    intro r hr x hx
    obtain ⟨y, hy, -, -, hin, hout⟩ := hh.back hx
    by_cases hm : r.2 ∈ ns
    · exact hin hm
    · rw [hout hm]
      exact h.done r hr y hy
  constructor
  · constructor
    · intro id m
      rw [hh.pending, h.exact]
      constructor
      · rintro ⟨⟨y, hy, hid, hreg⟩, hm⟩
        refine ⟨y, ?_, hid, hreg⟩
        rw [hh.calls, hy]
        simp [hm]
      · rintro ⟨x, hx, hid, hreg⟩
        have hm : m ∉ ns := fun hm => hnot hm hx hreg
        obtain ⟨y, hy, -, -, -, hout⟩ := hh.back hx
        obtain rfl := hout hm
        exact ⟨⟨x, hy, hid, hreg⟩, hm⟩
    · rw [hh.limits]
      exact Nat.le_trans hh.length h.bounded
    · have hold : ∀ r ∈ s.resolved, ∃ x, s'.calls[r.2]? = some x ∧ x.id = some r.1 := by
        intro r hr
        obtain ⟨y, hy, hid⟩ := h.own r hr
        obtain ⟨x, hx, hxid⟩ := hh.forth hy
        exact ⟨x, hx, hxid.trans hid⟩
      rcases hh.resolved with hsame | ⟨id, n, -, hentry, hnew⟩
      · rw [hsame]
        exact hold
      · intro r hr
        rw [hnew] at hr
        rcases List.mem_append.mp hr with hr | hr
        · exact hold r hr
        · obtain rfl := List.mem_singleton.mp hr
          obtain ⟨y, hy, hid, -⟩ := (h.exact id n).mp hentry
          obtain ⟨x, hx, hxid⟩ := hh.forth hy
          exact ⟨x, hx, hxid.trans hid⟩
    · rcases hh.resolved with hsame | ⟨id, n, -, hentry, hnew⟩
      · rw [hsame]
        exact h.once
      · -- a call that still waits has not been resolved before
        rw [hnew, List.map_append]
        apply List.Nodup.append h.once (List.nodup_singleton n)
        intro m hm hmn
        obtain rfl := List.mem_singleton.mp hmn
        obtain ⟨r, hr, hrn⟩ := List.mem_map.mp hm
        obtain ⟨y, hy, -, hreg⟩ := (h.exact id _).mp hentry
        exact h.done r hr y (hrn ▸ hy) ((RpcCall.registered_iff y).mp hreg).1
  · intro m x hx
    obtain ⟨y, hy, hid, hpc, hin, hout⟩ := hh.back hx
    by_cases hm : m ∈ ns
    · -- a call that is handed something was registered
      obtain ⟨id, hentry⟩ := hh.known m hm
      obtain ⟨z, hz, hzid, hreg⟩ := (h.exact id m).mp hentry
      obtain rfl : z = y := Option.some.inj (hz.symm.trans hy)
      have hlate := ((RpcCall.registered_iff z).mp hreg).2
      apply callSound_of_late
      · rw [hpc]
        rcases hlate with hpc' | hpc' | hpc' | hpc' <;> simp [hpc']
      · intro _
        simp [hid, hzid]
    · rw [hout hm]
      exact h.sound m y hy
  · intro m x id hx hid
    obtain ⟨y, hy, hxid, -⟩ := hh.back hx
    rw [hh.nextId]
    exact h.below m y id hy (hxid.symm.trans hid)
  · intro m m' x x' id hx hx' hid hid'
    obtain ⟨y, hy, hxid, -⟩ := hh.back hx
    obtain ⟨y', hy', hxid', -⟩ := hh.back hx'
    exact h.distinct m m' y y' id hy hy' (hxid.symm.trans hid) (hxid'.symm.trans hid')
  · intro r hr x hx
    rcases hh.resolved with hsame | ⟨id, n, hn, -, hnew⟩
    · rw [hsame] at hr
      exact hdone r hr x hx
    · rw [hnew] at hr
      rcases List.mem_append.mp hr with hr | hr
      · exact hdone r hr x hx
      · obtain rfl := List.mem_singleton.mp hr
        obtain ⟨y, -, -, -, hin, -⟩ := hh.back hx
        exact hin hn

end Moves

theorem deliver_get (calls : List RpcCall) (n m : Nat) (inbox : Inbox) :
    (RpcState.deliver calls n inbox)[m]? =
      (calls[m]?).map fun k => if m = n then k.put inbox else k := by
  unfold RpcState.deliver
  rw [List.getElem?_modify]
  by_cases hm : n = m
  · subst hm
    simp
  · simp [hm, Ne.symm hm]

theorem RpcCall.put_put {inbox : Inbox} (h : inbox ≠ .waiting) (k : RpcCall) :
    (k.put inbox).put inbox = k.put inbox := by
  have hput := k.put_inbox h
  cases hin : (k.put inbox).inbox with
  | waiting => exact absurd hin hput
  | delivered reply | dropped =>
      generalize k.put inbox = k' at hin ⊢
      unfold put
      rw [hin]

theorem foldl_deliver_get {inbox : Inbox} (h : inbox ≠ .waiting) (ns : List Nat)
    (calls : List RpcCall) (m : Nat) :
    (ns.foldl (fun calls n => RpcState.deliver calls n inbox) calls)[m]? =
      (calls[m]?).map fun k => if m ∈ ns then k.put inbox else k := by
  induction ns generalizing calls with
  | nil => simp
  | cons n rest ih =>
      rw [List.foldl_cons, ih, deliver_get, Option.map_map]
      congr 1
      funext k
      by_cases hn : m = n
      · subst hn
        by_cases hm : m ∈ rest <;> simp [hm, k.put_put h]
      · by_cases hm : m ∈ rest <;> simp [hm, hn]

section Inbound

variable {host : Host} {s s' : ServerInner} {bytes : List UInt8}
  {result : Except ConnectorError Unit}

theorem taken_lookup {id n : Nat} (h : taken host s bytes = some (id, n)) :
    s.pending.lookup id = some n := by
  unfold taken at h
  split at h
  · cases h
  · split at h
    · split at h
      · obtain ⟨w, hw, heq⟩ := Option.map_eq_some_iff.mp h
        cases heq
        exact hw
      · cases h
    · cases h

theorem answerClientRequest_table {msg : JsonRpcMessage}
    (h : answerClientRequest host s msg = .ok (s', result)) :
    s'.limits = s.limits ∧ s'.pending = s.pending ∧ s'.replies = s.replies := by
  unfold answerClientRequest at h
  split at h
  · cases h
    exact ⟨rfl, rfl, rfl⟩
  · rename_i id hid
    cases hreply : clientReply host id (msg.method.getD "") (msg.params.getD .null) with
    | error p =>
        rw [hreply] at h
        cases h
    | ok reply =>
        rw [hreply] at h
        simp only [Except.map, Except.ok.injEq] at h
        split at h
        · cases h
          exact ⟨rfl, rfl, rfl⟩
        · split at h <;> cases h <;> exact ⟨rfl, rfl, rfl⟩

theorem handleNotification_table (s : ServerInner) (msg : JsonRpcMessage) (bytes : List UInt8) :
    (handleNotification s msg bytes).1.limits = s.limits ∧
      (handleNotification s msg bytes).1.pending = s.pending ∧
      (handleNotification s msg bytes).1.replies = s.replies := by
  unfold handleNotification
  split
  · exact ⟨rfl, rfl, rfl⟩
  · split
    · exact ⟨rfl, rfl, rfl⟩
    · split <;> exact ⟨rfl, rfl, rfl⟩

/-- A message takes out the entry that `taken` says, and only then somebody gets a reply. -/
theorem handleInbound_table (h : handleInbound host s bytes = .ok (s', result)) :
    s'.limits = s.limits ∧
      (taken host s bytes = none → s'.pending = s.pending ∧ s'.replies = s.replies) ∧
      ∀ id n, taken host s bytes = some (id, n) →
        s'.pending = s.pending.erase id ∧ ∃ reply, s'.replies = s.replies ++ [(n, reply)] := by
  have hsame : taken host s bytes = none → s'.limits = s.limits ∧ s'.pending = s.pending ∧
      s'.replies = s.replies → s'.limits = s.limits ∧
      (taken host s bytes = none → s'.pending = s.pending ∧ s'.replies = s.replies) ∧
      ∀ id n, taken host s bytes = some (id, n) →
        s'.pending = s.pending.erase id ∧ ∃ reply, s'.replies = s.replies ++ [(n, reply)] := by
    rintro hnone ⟨hlimits, hrest⟩
    exact ⟨hlimits, fun _ => hrest, fun id n hsome => absurd (hnone.symm.trans hsome) (by simp)⟩
  unfold handleInbound at h
  cases hparse : JsonRpcMessage.parse host.serde host.mismatch bytes with
  | error e =>
      rw [hparse] at h
      cases h
      exact hsame (by simp [taken, hparse]) ⟨rfl, rfl, rfl⟩
  | ok msg =>
      simp only [hparse] at h
      by_cases hresponse : msg.isResponse = true
      · rw [if_pos hresponse] at h
        unfold handleResponse at h
        cases hid : msg.id with
        | none =>
            rw [hid] at h
            cases h
            exact hsame (by simp [taken, hparse, hresponse, hid]) ⟨rfl, rfl, rfl⟩
        | some id =>
            cases hnum : responseId id with
            | error e =>
                simp only [hid, hnum] at h
                cases h
                exact hsame (by simp [taken, hparse, hresponse, hid, hnum]) ⟨rfl, rfl, rfl⟩
            | ok idNum =>
                cases hwaiter : s.pending.lookup idNum with
                | none =>
                    simp only [hid, hnum, hwaiter] at h
                    cases h
                    exact hsame (by simp [taken, hparse, hresponse, hid, hnum, hwaiter])
                      ⟨rfl, rfl, rfl⟩
                | some waiter =>
                    simp only [hid, hnum, hwaiter] at h
                    have htaken : taken host s bytes = some (idNum, waiter) := by
                      simp [taken, hparse, hresponse, hid, hnum, hwaiter]
                    cases hreply : replyOf msg with
                    | error p =>
                        rw [hreply] at h
                        cases h
                    | ok reply =>
                        rw [hreply] at h
                        cases h
                        refine ⟨rfl, fun hnone => absurd (hnone.symm.trans htaken) (by simp), ?_⟩
                        intro id' n' htaken'
                        cases htaken.symm.trans htaken'
                        exact ⟨rfl, reply, rfl⟩
      · have hnone : taken host s bytes = none := by simp [taken, hparse, hresponse]
        rw [if_neg hresponse] at h
        apply hsame hnone
        split at h
        · split at h
          · exact answerClientRequest_table h
          · have hpair : (handleNotification s msg bytes).1 = s' :=
              congrArg Prod.fst (Except.ok.inj h)
            rw [← hpair]
            exact handleNotification_table s msg bytes
        · cases h
          exact ⟨rfl, rfl, rfl⟩

end Inbound

/-! ## Whole runs -/

section Runs

variable {host : Host} {s s' : RpcState}

/-- Taking one entry out. -/
theorem RpcInv.erase_iff (h : RpcInv s) {id n : Nat}
    (hentry : s.server.pending.lookup id = some n) (id' m : Nat) :
    (s.server.pending.erase id).lookup id' = some m ↔
      s.server.pending.lookup id' = some m ∧ m ∉ [n] := by
  rw [HashMap.lookup_erase_ite]
  by_cases hid : id' = id
  · subst hid
    simp only [if_true, reduceCtorEq, List.mem_singleton, false_iff, not_and, not_not]
    intro hm
    exact Option.some.inj (hm.symm.trans hentry)
  · rw [if_neg hid]
    simp only [List.mem_singleton, iff_self_and]
    rintro hm rfl
    obtain ⟨x, hx, hxid, -⟩ := (h.exact id' m).mp hm
    obtain ⟨y, hy, hyid, -⟩ := (h.exact id m).mp hentry
    rw [hx] at hy
    cases hy
    exact hid (Option.some.inj (hxid.symm.trans hyid))

theorem erase_length_le (m : HashMap Nat Nat) (id : Nat) :
    (m.erase id).keys.length ≤ m.keys.length := by
  rw [AList.keys_erase]
  exact List.erase_sublist.length_le

theorem RpcInv.inbound (h : RpcInv s) (bytes : List UInt8) : RpcInv (s.inbound host bytes) := by
  unfold RpcState.inbound
  cases hhandle : handleInbound host s.server bytes with
  | ok handled =>
      obtain ⟨server, result⟩ := handled
      obtain ⟨hlimits, hnone, hsome⟩ := handleInbound_table hhandle
      cases htaken : taken host s.server bytes with
      | none =>
          obtain ⟨hpending, hreplies⟩ := hnone htaken
          apply h.congr hpending hlimits
          · simp [hreplies]
          · simp
          · rfl
      | some entry =>
          obtain ⟨id, n⟩ := entry
          obtain ⟨hpending, reply, hreplies⟩ := hsome id n htaken
          have hentry := taken_lookup htaken
          apply @RpcInv.handed s _ [n] (.delivered reply) h
          refine ⟨by simp, ?_, ?_, ?_, ?_, hlimits, rfl, ?_⟩
          · intro m hm
            obtain rfl := List.mem_singleton.mp hm
            exact ⟨id, hentry⟩
          · intro m
            simp [hreplies, deliver_get]
          · intro id' m
            show server.pending.lookup id' = some m ↔ _
            rw [hpending]
            exact h.erase_iff hentry id' m
          · show server.pending.keys.length ≤ _
            rw [hpending]
            exact erase_length_le _ _
          · exact .inr ⟨id, n, List.mem_singleton_self n, hentry, rfl⟩
  | error p =>
      cases htaken : taken host s.server bytes with
      | none => exact h.congr rfl rfl rfl rfl rfl
      | some entry =>
          obtain ⟨id, n⟩ := entry
          have hentry := taken_lookup htaken
          apply @RpcInv.handed s _ [n] .dropped h
          refine ⟨by simp, ?_, ?_, h.erase_iff hentry, erase_length_le _ _, rfl, rfl, .inl rfl⟩
          · intro m hm
            obtain rfl := List.mem_singleton.mp hm
            exact ⟨id, hentry⟩
          · intro m
            simp [deliver_get]

theorem RpcInv.failAllPending (h : RpcInv s) (e : ConnectorError) :
    RpcInv { s with
      server := { s.server with pending := ∅ }
      calls := (s.server.pending.entries.map (·.2)).foldl
        (fun calls n => RpcState.deliver calls n (.delivered (.error e))) s.calls } := by
  have hmem : ∀ n, n ∈ s.server.pending.entries.map (·.2) ↔
      ∃ id, s.server.pending.lookup id = some n := by
    intro n
    constructor
    · intro hn
      obtain ⟨entry, hentry, rfl⟩ := List.mem_map.mp hn
      exact ⟨entry.1, AList.mem_lookup_iff.mpr hentry⟩
    · rintro ⟨id, hid⟩
      exact List.mem_map.mpr ⟨⟨id, n⟩, AList.mem_lookup_iff.mp hid, rfl⟩
  apply @RpcInv.handed s _ (s.server.pending.entries.map (·.2)) (.delivered (.error e)) h
  refine ⟨by simp, fun n hn => (hmem n).mp hn, ?_, ?_, Nat.zero_le _, rfl, rfl, .inl rfl⟩
  · intro m
    exact foldl_deliver_get (by simp) _ _ m
  · intro id m
    simp only [AList.lookup_empty, reduceCtorEq, false_iff, not_and, not_not]
    intro hm
    exact (hmem m).mpr ⟨id, hm⟩

theorem rpcInv_step {a : RpcAction} (h : RpcInv s) (hok : Tidy host s a)
    (hstep : s.step host a = some s') : RpcInv s' := by
  cases a with
  | call method params =>
      cases hstep
      exact h.call method params
  | operate n =>
      obtain ⟨k, hget, hop⟩ := Option.bind_eq_some_iff.mp hstep
      exact h.operate hget rfl hok hop
  | expire n =>
      obtain ⟨k, hget, hop⟩ := Option.bind_eq_some_iff.mp hstep
      cases hpc : k.pc <;> rw [hpc] at hop <;> cases hop
      exact h.proceeded .expired ⟨hget, rfl, rfl, rfl, rfl, rfl, rfl, rfl⟩ (.inr (.inr hpc))
        (.inr (.inr rfl))
  | abort n =>
      obtain ⟨k, hget, hop⟩ := Option.bind_eq_some_iff.mp hstep
      split at hop
      · cases hop
        have hno := hok k hget
        have hgone : ¬ (k.goto .aborted).Registered := not_registered_of_pc (by simp)
        refine h.moved ⟨hget, rfl, rfl, rfl, rfl, rfl, rfl, rfl⟩ (iff_of_false hgone hno) ?_
        exact callSound_of_late (by simp) (fun hreg => absurd hreg hgone)
      · cases hop
  | inbound bytes =>
      by_cases hreading : s.reading = true
      · simp only [RpcState.step, hreading, if_true] at hstep
        cases hstep
        exact h.inbound bytes
      · simp [RpcState.step, hreading] at hstep
  | failAllPending e =>
      cases hstep
      exact h.failAllPending e
  | close | cancel | closeWrite =>
      cases hstep
      exact h.congr rfl rfl rfl rfl rfl

theorem rpcInv_init (h : (rpcTable host).init s) : RpcInv s := by
  obtain ⟨limits, rfl⟩ := h
  constructor
  · constructor <;> simp [RpcState.opened]
  · simp [RpcState.opened]
  · simp [RpcState.opened]
  · simp [RpcState.opened]
  · simp [RpcState.opened]

/-- A step that is not tidy leaves an unsound table. -/
theorem untidy_breaks {a : RpcAction} (h : RpcInv s) (hok : ¬ Tidy host s a)
    (hstep : s.step host a = some s') : ¬ TableSound s' := by
  cases a with
  | operate n =>
      obtain ⟨k, hget, hop⟩ := Option.bind_eq_some_iff.mp hstep
      have hbad : ¬ TidyCall host s k := by
        intro hgood
        apply hok
        intro k' hk'
        obtain rfl : k = k' := Option.some.inj (hget.symm.trans hk')
        exact hgood
      unfold TidyCall at hbad
      cases hpc : k.pc with
      | insert =>
          simp only [hpc] at hbad
          simp only [RpcState.operate, hpc] at hop
          obtain ⟨id, hid, rfl⟩ := Option.map_eq_some_iff.mp hop
          intro hs'
          have hlen : (s.server.pending.insert id n).keys.length ≤ s.server.limits.maxPendingRpc :=
            hs'.bounded
          rw [HashMap.length_keys_insert, h.insert_none hget hpc hid] at hlen
          exact hbad hlen
      | serialize =>
          simp only [hpc, Classical.not_imp] at hbad
          obtain ⟨hreg, hlong⟩ := hbad
          simp only [RpcState.operate, hpc] at hop
          obtain ⟨id, hid, rfl⟩ := Option.map_eq_some_iff.mp hop
          have hover : s.server.limits.maxMessageBytes <
              (host.serde.toString (requestJson id k.method k.params)).utf8ByteSize := by
            apply Nat.lt_of_not_le
            intro hle
            apply hlong
            intro id' hid'
            obtain rfl : id = id' := Option.some.inj (hid.symm.trans hid')
            exact hle
          rw [if_pos hover]
          exact h.leaks ⟨hget, rfl, rfl, rfl, rfl, rfl, rfl, rfl⟩ hreg (not_registered_returned k _)
      | send =>
          simp only [hpc, Classical.not_imp] at hbad
          obtain ⟨hreg, hclosed⟩ := hbad
          simp only [RpcState.operate, hpc] at hop
          obtain ⟨id, hid, rfl⟩ := Option.map_eq_some_iff.mp hop
          rw [if_neg hclosed]
          exact h.leaks ⟨hget, rfl, rfl, rfl, rfl, rfl, rfl, rfl⟩ hreg (not_registered_returned k _)
      | checkClosed | testCapacity | fetchId | await | expired | returned result | aborted =>
          simp [hpc] at hbad
  | abort n =>
      obtain ⟨k, hget, hop⟩ := Option.bind_eq_some_iff.mp hstep
      have hreg : k.Registered := by
        apply Classical.byContradiction
        intro hno
        apply hok
        intro k' hk'
        obtain rfl : k = k' := Option.some.inj (hget.symm.trans hk')
        exact hno
      split at hop
      · cases hop
        exact h.leaks ⟨hget, rfl, rfl, rfl, rfl, rfl, rfl, rfl⟩ hreg (not_registered_of_pc (by simp))
      · cases hop
  | call method params => exact absurd trivial hok
  | expire n => exact absurd trivial hok
  | inbound bytes => exact absurd trivial hok
  | failAllPending e => exact absurd trivial hok
  | close => exact absurd trivial hok
  | cancel => exact absurd trivial hok
  | closeWrite => exact absurd trivial hok

/-- **The table is sound throughout a run exactly when every step is tidy.** -/
theorem tableSound_iff_tidy {as : List RpcAction} (hinit : (rpcTable host).init s)
    (hrun : (rpcTable host).run as s = some s') :
    (rpcTable host).Throughout TableSound as s ↔ (rpcTable host).StepsMeet (Tidy host) as s :=
  System.throughout_iff (fun _ h => h.toTableSound) (fun _ _ _ h hok hstep => rpcInv_step h hok hstep)
    (fun _ _ _ h hok hstep => untidy_breaks h hok hstep) (rpcInv_init hinit) hrun

end Runs

section Samples

/-- The writer of one request. -/
def pingWriter : Host where
  serde :=
    { fromSlice := fun _ => .error "expected value"
      fromStr := fun _ => none
      toString := fun _ => "\x7b\"id\":1,\"jsonrpc\":\"2.0\",\"method\":\"ping\"\x7d" }
  mismatch _ := "invalid type"
  fs := ⟨fun _ => .error "not found", fun _ => .ok (), fun _ _ => .ok ()⟩
  overflowChecks := true

/-- A call up to its registration. -/
def registering : List RpcAction :=
  [.call "ping" none, .operate 0, .operate 0, .operate 0, .operate 0]

/-- A call that is sent and reaches its deadline. -/
theorem expired_call_sound :
    (rpcTable pingWriter).Throughout TableSound
      (registering ++ [.operate 0, .operate 0, .expire 0, .operate 0])
      (.opened ⟨4194304, 256, 128⟩) := by
  have hrun : ∃ s, (rpcTable pingWriter).runWhere (Tidy pingWriter)
      (registering ++ [.operate 0, .operate 0, .expire 0, .operate 0])
      (.opened ⟨4194304, 256, 128⟩) = some s := ⟨_, rfl⟩
  obtain ⟨s, hrun⟩ := hrun
  obtain ⟨hrun, htidy⟩ := System.runWhere_some hrun
  exact (tableSound_iff_tidy ⟨_, rfl⟩ hrun).mpr htidy

/-- **A leaked entry.** The request is longer than a message may be: the call returns an
error and its entry stays. -/
theorem long_request_leaks :
    ∃ s, (rpcTable pingWriter).run (registering ++ [.operate 0]) (.opened ⟨16, 256, 128⟩) =
      some s ∧ s.server.pending.lookup 1 = some 0 ∧ ¬ TableSound s := by
  refine ⟨_, rfl, rfl, ?_⟩
  intro hsound
  obtain ⟨k, hk, -, hreg⟩ := (hsound.exact 1 0).mp rfl
  cases hk
  exact hreg

end Samples

end Monoloop.Grok
