import Monoloop.Lib.Transition
import Monoloop.Mcp.Binding

/-!
# Routes and the bindings they point to

The route table holds its bindings by reference: a handler that was built for a route
keeps the binding, and its state, after the route is gone. Here the bindings are
numbered in the order in which they were installed and a route is the number of its
binding, so that the state of a binding can be followed past the removal of its route.
`Refines` says that what the table shows is the table of `Mcp.Binding`.

Every operation of the table is one critical section, so a run is a list of operations.
-/

namespace Monoloop.Mcp

open Transition (System)

/-- The table and every binding it ever had. -/
structure RouteBook where
  maxRoutes : Nat
  routes : HashMap CapabilityToken Nat
  bindings : List McpBinding

namespace RouteBook

def new (maxRoutes : Nat) : RouteBook := { maxRoutes := max maxRoutes 1, routes := ∅, bindings := [] }

/-- Number of live (pending or active) routes. -/
def length (t : RouteBook) : Nat := t.routes.keys.length

/-- The state of a binding, whether or not it still has its route. -/
def state (t : RouteBook) (i : Nat) : Option McpBindingState := t.bindings[i]?.map (·.state)

def setState (t : RouteBook) (i : Nat) (state : McpBindingState) : RouteBook :=
  { t with bindings := t.bindings.modify i fun b => { b with state } }

/-- The insertion of a new pending binding. -/
def route (t : RouteBook) (tx : TransactionId) (token : CapabilityToken) : RouteBook :=
  { t with
    routes := t.routes.insert token t.bindings.length
    bindings := t.bindings ++ [⟨token, tx, .pending⟩] }

/-- `install_pending`: the descriptor is built after the insertion. -/
def installPending (t : RouteBook) (baseUrl : String) (tx : TransactionId) :
    Option CapabilityToken → RouteBook × Except McpInstallError CapabilityToken
  | none => (t, .error .entropyUnavailable)
  | some token =>
      if t.maxRoutes ≤ t.length then (t, .error .capacityExceeded)
      else if maxUrlBytes < (capabilityUrl baseUrl token).utf8ByteSize then
        (t.route tx token, .error .invalidDescriptor)
      else (t.route tx token, .ok token)

def activate (t : RouteBook) (token : CapabilityToken) : RouteBook × Except McpInstallError Unit :=
  match t.routes.lookup token with
  | none => (t, .error .unknownCapability)
  | some i =>
      match t.state i with
      | some .pending => (t.setState i .active, .ok ())
      | some .active => (t, .ok ())
      | _ => (t, .error .stateConflict)

def revoke (t : RouteBook) (token : CapabilityToken) : RouteBook × Bool :=
  match t.routes.lookup token with
  | some i => ({ t with routes := t.routes.erase token }.setState i .revoked, true)
  | none => (t, false)

/-- Revoke every route; the tokens that were live. -/
def revokeAll (t : RouteBook) : RouteBook × List CapabilityToken :=
  (t.routes.keys.foldl (fun t token => (t.revoke token).1) t, t.routes.keys)

end RouteBook

inductive RouteOp where
  | install (baseUrl : String) (tx : TransactionId) (drawn : Option CapabilityToken)
  | activate (token : CapabilityToken)
  | revoke (token : CapabilityToken)
  | revokeAll

/-- What an operation does to one binding. -/
inductive RouteEvent where
  | installed
  | activated
  | revoked
deriving DecidableEq, Repr

namespace RouteBook

def apply (t : RouteBook) : RouteOp → RouteBook
  | .install baseUrl tx drawn => (t.installPending baseUrl tx drawn).1
  | .activate token => (t.activate token).1
  | .revoke token => (t.revoke token).1
  | .revokeAll => t.revokeAll.1

def after (t : RouteBook) (ops : List RouteOp) : RouteBook := ops.foldl apply t

/-- An operation, seen from binding `i`: it was inserted, or the operation found it at
the token it was called with. -/
def events (t : RouteBook) (i : Nat) : RouteOp → List RouteEvent
  | .install _ _ drawn =>
      if drawn.isSome ∧ t.length < t.maxRoutes ∧ t.bindings.length = i then [.installed] else []
  | .activate token => if t.routes.lookup token = some i then [.activated] else []
  | .revoke token => if t.routes.lookup token = some i then [.revoked] else []
  | .revokeAll => if ∃ token ∈ t.routes.keys, t.routes.lookup token = some i then [.revoked] else []

/-- Everything that happened to binding `i` in a run. -/
def history (t : RouteBook) (i : Nat) : List RouteOp → List RouteEvent
  | [] => []
  | op :: rest => t.events i op ++ (t.apply op).history i rest

end RouteBook

def routeTable : System RouteBook RouteOp where
  init t := ∃ maxRoutes, t = .new maxRoutes
  step op t := some (t.apply op)

/-! ## Routes point to live bindings -/

namespace RouteBook

variable {t t' : RouteBook} {i j : Nat} {token : CapabilityToken}

theorem state_setState (t : RouteBook) (i j : Nat) (s : McpBindingState) :
    (t.setState i s).state j = if j = i then (t.state j).map fun _ => s else t.state j := by
  unfold state setState
  dsimp only
  rw [List.getElem?_modify]
  by_cases hj : j = i
  · subst hj
    cases t.bindings[j]? <;> simp
  · have hij : ¬ i = j := Ne.symm hj
    cases t.bindings[j]? <;> simp [hj, hij]

theorem state_route (t : RouteBook) (tx : TransactionId) (token : CapabilityToken) (j : Nat) :
    (t.route tx token).state j = if j = t.bindings.length then some .pending else t.state j := by
  unfold state route
  dsimp only
  by_cases hj : j = t.bindings.length
  · rw [if_pos hj, hj, List.getElem?_concat_length]
    rfl
  · rw [if_neg hj, List.getElem?_append]
    by_cases hlt : j < t.bindings.length
    · rw [if_pos hlt]
    · rw [if_neg hlt, List.getElem?_eq_none (l := t.bindings) (by omega)]
      rw [List.getElem?_eq_none (by simp only [List.length_singleton]; omega)]

/-- A route leads to a binding of its own token that is not revoked. -/
structure Live (t : RouteBook) : Prop where
  token : ∀ token i, t.routes.lookup token = some i →
    t.bindings[i]?.map (·.token) = some token
  state : ∀ token i, t.routes.lookup token = some i → t.state i ≠ some .revoked
  bounded : t.length ≤ t.maxRoutes

theorem Live.injective (h : t.Live) {token' : CapabilityToken}
    (hi : t.routes.lookup token = some i) (hi' : t.routes.lookup token' = some i) :
    token = token' := by
  have htoken := h.token token i hi
  rw [h.token token' i hi'] at htoken
  exact (Option.some.inj htoken).symm

theorem Live.exists_state (h : t.Live) (hi : t.routes.lookup token = some i) :
    t.state i = some .pending ∨ t.state i = some .active := by
  have htoken := h.token token i hi
  have hstate := h.state token i hi
  unfold RouteBook.state at hstate ⊢
  cases hb : t.bindings[i]? with
  | none =>
      rw [hb] at htoken
      cases htoken
  | some b =>
      rw [hb] at hstate
      cases hs : b.state with
      | pending => exact .inl (congrArg some hs)
      | active => exact .inr (congrArg some hs)
      | revoked => exact absurd (congrArg some hs) hstate

theorem Live.lt_length (h : t.Live) (hi : t.routes.lookup token = some i) :
    i < t.bindings.length := by
  have htoken := h.token token i hi
  obtain ⟨b, hb, -⟩ := Option.map_eq_some_iff.mp htoken
  exact (List.getElem?_eq_some_iff.mp hb).1

theorem live_new (maxRoutes : Nat) : (new maxRoutes).Live := by
  refine ⟨?_, ?_, Nat.zero_le _⟩
  · intro token i hi
    cases hi
  · intro token i hi
    cases hi

theorem tokens_setState (t : RouteBook) (i j : Nat) (s : McpBindingState) :
    (t.setState i s).bindings[j]?.map (·.token) = t.bindings[j]?.map (·.token) := by
  unfold setState
  dsimp only
  rw [List.getElem?_modify]
  by_cases hj : i = j
  · cases t.bindings[j]? <;> simp [hj]
  · cases t.bindings[j]? <;> simp [hj]

theorem tokens_route (t : RouteBook) (tx : TransactionId) (token : CapabilityToken) (j : Nat) :
    (t.route tx token).bindings[j]?.map (·.token) =
      if j = t.bindings.length then some token else t.bindings[j]?.map (·.token) := by
  unfold route
  dsimp only
  by_cases hj : j = t.bindings.length
  · rw [if_pos hj, hj, List.getElem?_concat_length]
    rfl
  · rw [if_neg hj, List.getElem?_append]
    by_cases hlt : j < t.bindings.length
    · rw [if_pos hlt]
    · rw [if_neg hlt, List.getElem?_eq_none (l := t.bindings) (by omega)]
      rw [List.getElem?_eq_none (by simp only [List.length_singleton]; omega)]

/-- The result of an install, with or without an error. -/
theorem installPending_fst (t : RouteBook) (baseUrl : String) (tx : TransactionId)
    (drawn : Option CapabilityToken) :
    (∃ token, drawn = some token ∧ t.length < t.maxRoutes ∧
      (t.installPending baseUrl tx drawn).1 = t.route tx token) ∨
    (¬ (drawn.isSome = true ∧ t.length < t.maxRoutes) ∧
      (t.installPending baseUrl tx drawn).1 = t) := by
  cases drawn with
  | none => exact .inr ⟨fun h => Bool.false_ne_true h.1, rfl⟩
  | some token =>
      simp only [installPending]
      by_cases hfull : t.maxRoutes ≤ t.length
      · right
        rw [if_pos hfull]
        exact ⟨fun h => absurd h.2 (by omega), rfl⟩
      · left
        refine ⟨token, rfl, by omega, ?_⟩
        rw [if_neg hfull]
        split <;> rfl

theorem Live.route (h : t.Live) (tx : TransactionId) (hroom : t.length < t.maxRoutes) :
    (t.route tx token).Live := by
  have hbefore : ∀ token' i, t.routes.lookup token' = some i → i ≠ t.bindings.length := by
    intro token' i hi
    exact Nat.ne_of_lt (h.lt_length hi)
  have hlookup : ∀ token', (t.route tx token).routes.lookup token' =
      if token' = token then some t.bindings.length else t.routes.lookup token' :=
    fun token' => HashMap.lookup_insert_ite t.routes token' token t.bindings.length
  refine ⟨?_, ?_, ?_⟩
  · intro token' i hi
    rw [hlookup] at hi
    rw [tokens_route]
    by_cases htoken : token' = token
    · rw [if_pos htoken] at hi
      rw [if_pos (Option.some.inj hi).symm, htoken]
    · rw [if_neg htoken] at hi
      rw [if_neg (hbefore token' i hi)]
      exact h.token token' i hi
  · intro token' i hi
    rw [hlookup] at hi
    rw [state_route]
    by_cases htoken : token' = token
    · rw [if_pos htoken] at hi
      rw [if_pos (Option.some.inj hi).symm]
      simp
    · rw [if_neg htoken] at hi
      rw [if_neg (hbefore token' i hi)]
      exact h.state token' i hi
  · show (t.routes.insert token t.bindings.length).keys.length ≤ t.maxRoutes
    rw [HashMap.length_keys_insert]
    have hlen : t.routes.keys.length < t.maxRoutes := hroom
    split <;> omega

/-- A binding changes to a state that is not revoked. -/
theorem Live.setState (h : t.Live) {s : McpBindingState} (hs : s ≠ .revoked) :
    (t.setState i s).Live := by
  refine ⟨?_, ?_, h.bounded⟩
  · intro token j hj
    rw [tokens_setState]
    exact h.token token j hj
  · intro token j hj
    have hbefore := h.state token j hj
    rw [state_setState]
    by_cases hij : j = i
    · rw [if_pos hij]
      cases hstate : t.state j with
      | none => simp
      | some s' => simpa using hs
    · rw [if_neg hij]
      exact hbefore

theorem Live.erase (h : t.Live) (hi : t.routes.lookup token = some i) :
    ({ t with routes := t.routes.erase token }.setState i .revoked).Live := by
  have hlookup : ∀ token' j, (t.routes.erase token).lookup token' = some j →
      t.routes.lookup token' = some j ∧ j ≠ i := by
    intro token' j hj
    rw [HashMap.lookup_erase_ite] at hj
    by_cases htoken : token' = token
    · rw [if_pos htoken] at hj
      cases hj
    · rw [if_neg htoken] at hj
      refine ⟨hj, ?_⟩
      rintro rfl
      exact htoken (h.injective hj hi)
  refine ⟨?_, ?_, ?_⟩
  · intro token' j hj
    rw [tokens_setState]
    exact h.token token' j (hlookup token' j hj).1
  · intro token' j hj
    obtain ⟨hbefore, hne⟩ := hlookup token' j hj
    rw [state_setState, if_neg hne]
    exact h.state token' j hbefore
  · show (t.routes.erase token).keys.length ≤ t.maxRoutes
    rw [AList.keys_erase]
    exact Nat.le_trans (List.erase_sublist.length_le) h.bounded

theorem Live.revoke (h : t.Live) (token : CapabilityToken) : (t.revoke token).1.Live := by
  unfold RouteBook.revoke
  cases hi : t.routes.lookup token with
  | none => exact h
  | some i => exact h.erase hi

theorem Live.activate (h : t.Live) (token : CapabilityToken) : (t.activate token).1.Live := by
  unfold RouteBook.activate
  cases hi : t.routes.lookup token with
  | none => exact h
  | some i =>
      rcases h.exists_state hi with hs | hs
      · simp only [hs]
        exact h.setState (by simp)
      · simp only [hs]
        exact h

theorem Live.revokeAll (h : t.Live) : t.revokeAll.1.Live := by
  show (t.routes.keys.foldl _ t).Live
  generalize t.routes.keys = tokens
  induction tokens generalizing t with
  | nil => exact h
  | cons token rest ih => exact ih (h.revoke token)

theorem Live.apply (h : t.Live) (op : RouteOp) : (t.apply op).Live := by
  cases op with
  | install baseUrl tx drawn =>
      rcases installPending_fst t baseUrl tx drawn with ⟨token, -, hroom, heq⟩ | ⟨-, heq⟩
      · show (t.installPending baseUrl tx drawn).1.Live
        rw [heq]
        exact h.route tx hroom
      · show (t.installPending baseUrl tx drawn).1.Live
        rw [heq]
        exact h
  | activate token => exact h.activate token
  | revoke token => exact h.revoke token
  | revokeAll => exact h.revokeAll

theorem lookup_revoke (t : RouteBook) (token token' : CapabilityToken) :
    (t.revoke token).1.routes.lookup token' =
      if token' = token then none else t.routes.lookup token' := by
  unfold revoke
  cases hi : t.routes.lookup token with
  | none =>
      by_cases htoken : token' = token
      · rw [if_pos htoken, htoken]
        exact hi
      · rw [if_neg htoken]
  | some i => exact HashMap.lookup_erase_ite t.routes token' token

theorem state_revoke (t : RouteBook) (token : CapabilityToken) (i : Nat) :
    (t.revoke token).1.state i =
      if t.routes.lookup token = some i then (t.state i).map fun _ => .revoked else t.state i := by
  unfold revoke
  cases hj : t.routes.lookup token with
  | none =>
      rw [if_neg (by simp)]
  | some j =>
      dsimp only
      rw [state_setState]
      by_cases hij : i = j
      · rw [if_pos hij, if_pos (by rw [hij])]
        rfl
      · rw [if_neg hij, if_neg (fun h => hij (Option.some.inj h).symm)]
        rfl

theorem lookup_revokeAll (tokens : List CapabilityToken) (t : RouteBook) (token : CapabilityToken) :
    (tokens.foldl (fun t token => (t.revoke token).1) t).routes.lookup token =
      if token ∈ tokens then none else t.routes.lookup token := by
  induction tokens generalizing t with
  | nil => rfl
  | cons head rest ih =>
      rw [List.foldl_cons, ih, lookup_revoke]
      by_cases hrest : token ∈ rest
      · rw [if_pos hrest, if_pos (List.mem_cons_of_mem _ hrest)]
      · rw [if_neg hrest]
        by_cases hhead : token = head
        · rw [if_pos hhead, if_pos (hhead ▸ List.mem_cons_self)]
        · rw [if_neg hhead, if_neg (fun hmem => (List.mem_cons.mp hmem).elim hhead hrest)]

theorem state_revokeAll (tokens : List CapabilityToken) (t : RouteBook) (i : Nat) :
    (tokens.foldl (fun t token => (t.revoke token).1) t).state i =
      if ∃ token ∈ tokens, t.routes.lookup token = some i then (t.state i).map fun _ => .revoked
      else t.state i := by
  induction tokens generalizing t with
  | nil =>
      rw [if_neg (by simp)]
      rfl
  | cons token rest ih =>
      rw [List.foldl_cons, ih, state_revoke]
      by_cases hhead : t.routes.lookup token = some i
      · have hany : ∃ token' ∈ token :: rest, t.routes.lookup token' = some i :=
          ⟨token, List.mem_cons_self, hhead⟩
        rw [if_pos hhead, if_pos hany, Option.map_map]
        split <;> rfl
      · rw [if_neg hhead]
        have hrest : (∃ token' ∈ rest, (t.revoke token).1.routes.lookup token' = some i) ↔
            ∃ token' ∈ token :: rest, t.routes.lookup token' = some i := by
          constructor
          · rintro ⟨token', hmem, hlookup⟩
            rw [lookup_revoke] at hlookup
            by_cases htoken : token' = token
            · rw [if_pos htoken] at hlookup
              cases hlookup
            · rw [if_neg htoken] at hlookup
              exact ⟨token', List.mem_cons_of_mem _ hmem, hlookup⟩
          · rintro ⟨token', hmem, hlookup⟩
            have htoken : token' ≠ token := by
              rintro rfl
              exact hhead hlookup
            refine ⟨token', (List.mem_cons.mp hmem).resolve_left htoken, ?_⟩
            rw [lookup_revoke, if_neg htoken]
            exact hlookup
        simp only [hrest]

end RouteBook

/-! ## The history of a binding -/

/-- A binding is installed once, then activated any number of times, then revoked at
most once; its state is told by its history. -/
inductive Tells : List RouteEvent → Option McpBindingState → Prop where
  | absent : Tells [] none
  | pending : Tells [.installed] (some .pending)
  | active (n : Nat) : Tells (.installed :: List.replicate (n + 1) .activated) (some .active)
  | gone (n : Nat) :
      Tells (.installed :: (List.replicate n .activated ++ [.revoked])) (some .revoked)

namespace Tells

variable {events : List RouteEvent} {s : Option McpBindingState}

theorem activated (h : Tells events s) (hlive : s = some .pending ∨ s = some .active) :
    Tells (events ++ [.activated]) (some .active) := by
  cases h with
  | absent => rcases hlive with h | h <;> cases h
  | pending => exact .active 0
  | active n =>
      rw [List.cons_append, ← List.replicate_succ']
      exact .active (n + 1)
  | gone n => rcases hlive with h | h <;> cases h

theorem revoked (h : Tells events s) (hlive : s = some .pending ∨ s = some .active) :
    Tells (events ++ [.revoked]) (some .revoked) := by
  cases h with
  | absent => rcases hlive with h | h <;> cases h
  | pending => exact .gone 0
  | active n => exact .gone (n + 1)
  | gone n => rcases hlive with h | h <;> cases h

theorem active_iff (h : Tells events s) :
    s = some .active ↔ ∃ n, events = .installed :: List.replicate (n + 1) .activated := by
  cases h with
  | absent => simp
  | pending => simp
  | active n => simp
  | gone n =>
      constructor
      · intro hs
        cases hs
      · rintro ⟨m, hm⟩
        have hmem : RouteEvent.revoked ∈ List.replicate (m + 1) RouteEvent.activated := by
          rw [← (List.cons.inj hm).2]
          simp
        exact absurd (List.eq_of_mem_replicate hmem) (by simp)

end Tells

namespace RouteBook

variable {t : RouteBook} {i : Nat} {events : List RouteEvent}

theorem tells_step (h : t.Live) (htells : Tells events (t.state i)) (op : RouteOp) :
    Tells (events ++ t.events i op) ((t.apply op).state i) := by
  cases op with
  | install baseUrl tx drawn =>
      show Tells _ ((t.installPending baseUrl tx drawn).1.state i)
      rcases installPending_fst t baseUrl tx drawn with ⟨token, rfl, hroom, heq⟩ | ⟨hno, heq⟩
      · rw [heq, state_route]
        simp only [RouteBook.events]
        by_cases hi : i = t.bindings.length
        · have hnone : t.state i = none := by
            unfold RouteBook.state
            rw [List.getElem?_eq_none (by omega)]
            rfl
          rw [hnone] at htells
          cases htells
          rw [if_pos hi, if_pos ⟨rfl, hroom, hi.symm⟩]
          exact .pending
        · rw [if_neg hi, if_neg (fun hc => hi hc.2.2.symm), List.append_nil]
          exact htells
      · rw [heq]
        simp only [RouteBook.events]
        rw [if_neg (fun hc => hno ⟨hc.1, hc.2.1⟩), List.append_nil]
        exact htells
  | activate token =>
      show Tells _ ((t.activate token).1.state i)
      unfold RouteBook.activate
      simp only [RouteBook.events]
      cases hj : t.routes.lookup token with
      | none =>
          rw [if_neg (by simp), List.append_nil]
          exact htells
      | some j =>
          have hlive := h.exists_state hj
          by_cases hij : j = i
          · subst hij
            rw [if_pos rfl]
            have hactive := htells.activated hlive
            rcases hlive with hs | hs
            · simp only [hs]
              rw [state_setState, if_pos rfl, hs]
              exact hactive
            · simp only [hs]
              exact hactive
          · rw [if_neg (fun hc => hij (Option.some.inj hc)), List.append_nil]
            rcases hlive with hs | hs
            · simp only [hs]
              rw [state_setState, if_neg (Ne.symm hij)]
              exact htells
            · simp only [hs]
              exact htells
  | revoke token =>
      show Tells _ ((t.revoke token).1.state i)
      rw [state_revoke]
      simp only [RouteBook.events]
      by_cases hi : t.routes.lookup token = some i
      · rw [if_pos hi, if_pos hi]
        have hlive := h.exists_state hi
        have hrevoked := htells.revoked hlive
        rcases hlive with hs | hs
        · rw [hs]
          exact hrevoked
        · rw [hs]
          exact hrevoked
      · rw [if_neg hi, if_neg hi, List.append_nil]
        exact htells
  | revokeAll =>
      show Tells _ ((t.routes.keys.foldl (fun t token => (t.revoke token).1) t).state i)
      rw [state_revokeAll]
      simp only [RouteBook.events]
      by_cases hi : ∃ token ∈ t.routes.keys, t.routes.lookup token = some i
      · rw [if_pos hi, if_pos hi]
        obtain ⟨token, -, hlookup⟩ := hi
        have hlive := h.exists_state hlookup
        have hrevoked := htells.revoked hlive
        rcases hlive with hs | hs
        · rw [hs]
          exact hrevoked
        · rw [hs]
          exact hrevoked
      · rw [if_neg hi, if_neg hi, List.append_nil]
        exact htells

/-- **The run lemma.** -/
theorem tells_run (ops : List RouteOp) (h : t.Live) (htells : Tells events (t.state i)) :
    Tells (events ++ t.history i ops) ((t.after ops).state i) := by
  induction ops generalizing t events with
  | nil =>
      rw [history, List.append_nil]
      exact htells
  | cons op rest ih =>
      rw [history, ← List.append_assoc]
      exact ih (h.apply op) (tells_step h htells op)

theorem maxRoutes_apply (t : RouteBook) (op : RouteOp) : (t.apply op).maxRoutes = t.maxRoutes := by
  have hrevoke : ∀ (t : RouteBook) (token : CapabilityToken),
      (t.revoke token).1.maxRoutes = t.maxRoutes := by
    intro t token
    unfold RouteBook.revoke
    split <;> rfl
  cases op with
  | install baseUrl tx drawn =>
      show (t.installPending baseUrl tx drawn).1.maxRoutes = _
      rcases installPending_fst t baseUrl tx drawn with ⟨token, -, -, heq⟩ | ⟨-, heq⟩
      · rw [heq]
        rfl
      · rw [heq]
  | activate token =>
      show (t.activate token).1.maxRoutes = _
      unfold RouteBook.activate
      split
      · rfl
      · split <;> rfl
  | revoke token => exact hrevoke t token
  | revokeAll =>
      show (t.routes.keys.foldl (fun t token => (t.revoke token).1) t).maxRoutes = _
      generalize t.routes.keys = tokens
      induction tokens generalizing t with
      | nil => rfl
      | cons token rest ih => exact (ih (t.revoke token).1).trans (hrevoke t token)

/-- An install that returns an error leaves the table as it was. -/
def InstallAtomic (t : RouteBook) : RouteOp → Prop
  | .install baseUrl tx drawn => ∀ e, (t.installPending baseUrl tx drawn).2 = .error e →
      (t.installPending baseUrl tx drawn).1 = t
  | _ => True

/-- The descriptor of a route that is about to be installed accepts its URL. -/
def Describable (t : RouteBook) : RouteOp → Prop
  | .install baseUrl _ (some token) => t.length < t.maxRoutes →
      (capabilityUrl baseUrl token).utf8ByteSize ≤ maxUrlBytes
  | _ => True

/-- A refused descriptor is the one error that comes after the insertion. -/
theorem installAtomic_iff (t : RouteBook) (op : RouteOp) : t.InstallAtomic op ↔ t.Describable op := by
  cases op with
  | install baseUrl tx drawn =>
      cases drawn with
      | none => exact ⟨fun _ => trivial, fun _ _ _ => rfl⟩
      | some token =>
          have hlonger : t.route tx token ≠ t := by
            intro heq
            have hlen := congrArg (·.bindings.length) heq
            simp [RouteBook.route] at hlen
          simp only [InstallAtomic, Describable, installPending]
          by_cases hfull : t.maxRoutes ≤ t.length
          · rw [if_pos hfull]
            exact ⟨fun _ hroom => absurd hroom (by omega), fun _ _ _ => rfl⟩
          · rw [if_neg hfull]
            by_cases hlong : maxUrlBytes < (capabilityUrl baseUrl token).utf8ByteSize
            · rw [if_pos hlong]
              constructor
              · intro hatomic
                exact absurd (hatomic _ rfl) hlonger
              · intro hfits
                exact absurd (hfits (by omega)) (by omega)
            · rw [if_neg hlong]
              constructor
              · intro _ _
                omega
              · intro _ e he
                cases he
  | activate token => exact Iff.rfl
  | revoke token => exact Iff.rfl
  | revokeAll => exact Iff.rfl

theorem stepsMeet_congr {ok ok' : RouteBook → RouteOp → Prop} (h : ∀ t op, ok t op ↔ ok' t op)
    (ops : List RouteOp) (t : RouteBook) :
    routeTable.StepsMeet ok ops t ↔ routeTable.StepsMeet ok' ops t := by
  induction ops generalizing t with
  | nil => exact Iff.rfl
  | cons op rest ih =>
      apply and_congr (h t op)
      refine forall_congr' (fun t' => ?_)
      exact imp_congr_right (fun _ => ih t')

theorem bounded_throughout (ops : List RouteOp) (h : t.Live) :
    routeTable.Throughout (fun t' => t'.length ≤ t.maxRoutes) ops t := by
  have hgen : ∀ (ops : List RouteOp) (t' : RouteBook), t'.Live → t'.maxRoutes = t.maxRoutes →
      routeTable.Throughout (fun t' => t'.length ≤ t.maxRoutes) ops t' := by
    intro ops
    induction ops with
    | nil =>
        intro t' hlive hmax
        exact hmax ▸ hlive.bounded
    | cons op rest ih =>
        intro t' hlive hmax
        refine ⟨hmax ▸ hlive.bounded, ?_⟩
        intro t'' hstep
        cases hstep
        exact ih _ (hlive.apply op) ((maxRoutes_apply t' op).trans hmax)
  exact hgen ops t h rfl

end RouteBook

/-- The three laws of the table over a run: it never holds more than its maximum; a
binding is active exactly if it was installed, activated since and not revoked; and an
install that fails changes nothing. -/
def RouteLaws (maxRoutes : Nat) (ops : List RouteOp) : Prop :=
  routeTable.Throughout (fun t => t.length ≤ max maxRoutes 1) ops (.new maxRoutes) ∧
    (∀ i, ((RouteBook.new maxRoutes).after ops).state i = some .active ↔
      ∃ n, (RouteBook.new maxRoutes).history i ops =
        .installed :: List.replicate (n + 1) .activated) ∧
    routeTable.StepsMeet RouteBook.InstallAtomic ops (.new maxRoutes)

/-- **When the laws of the table hold**: exactly if every install that finds room has a
capability URL that its descriptor accepts. -/
theorem route_laws_iff (maxRoutes : Nat) (ops : List RouteOp) :
    RouteLaws maxRoutes ops ↔ routeTable.StepsMeet RouteBook.Describable ops (.new maxRoutes) := by
  have hlive := RouteBook.live_new maxRoutes
  have hbounded := RouteBook.bounded_throughout ops hlive
  have hactive : ∀ i, ((RouteBook.new maxRoutes).after ops).state i = some .active ↔
      ∃ n, (RouteBook.new maxRoutes).history i ops =
        .installed :: List.replicate (n + 1) .activated := by
    intro i
    exact (RouteBook.tells_run ops hlive .absent).active_iff
  rw [← RouteBook.stepsMeet_congr RouteBook.installAtomic_iff]
  exact ⟨fun h => h.2.2, fun h => ⟨hbounded, hactive, h⟩⟩

/-! ## The table it shows -/

/-- The same operation on the table of `Mcp.Binding`. -/
def McpRouteTable.apply (m : McpRouteTable) : RouteOp → McpRouteTable
  | .install baseUrl tx drawn => (m.installPending baseUrl tx drawn).1
  | .activate token =>
      match m.activate token with
      | .ok m' => m'
      | .error _ => m
  | .revoke token => m.revoke token
  | .revokeAll => m.revokeAll

/-- The table of `Mcp.Binding`, which keeps the bindings by value. -/
structure Refines (t : RouteBook) (m : McpRouteTable) : Prop where
  max : m.maxRoutes = t.maxRoutes
  get : ∀ token, m.get token = (t.routes.lookup token).bind (t.bindings[·]?)

namespace Refines

variable {t : RouteBook} {m : McpRouteTable}

theorem get_some (h : Refines t m) (hlive : t.Live) (token : CapabilityToken) :
    (m.get token).isSome = (t.routes.lookup token).isSome := by
  rw [h.get]
  cases hi : t.routes.lookup token with
  | none => rfl
  | some i =>
      have hlt := hlive.lt_length hi
      simp [List.getElem?_eq_getElem hlt]

theorem length (h : Refines t m) (hlive : t.Live) : m.length = t.length := by
  have hkeys : m.routes.keys.Perm t.routes.keys := by
    rw [List.perm_ext_iff_of_nodup m.routes.keys_nodup t.routes.keys_nodup]
    intro token
    rw [HashMap.mem_keys_iff, HashMap.mem_keys_iff, ← Option.isSome_iff_exists,
      ← Option.isSome_iff_exists, ← h.get_some hlive token]
    rfl
  exact hkeys.length_eq

theorem new (maxRoutes : Nat) : Refines (.new maxRoutes) (.new maxRoutes) := by
  refine ⟨rfl, ?_⟩
  intro token
  rfl

/-- A binding of another token stays where it is. -/
theorem route (h : Refines t m) (hlive : t.Live) (tx : TransactionId) (token : CapabilityToken) :
    Refines (t.route tx token)
      { m with routes := m.routes.insert token ⟨token, tx, .pending⟩ } := by
  refine ⟨h.max, ?_⟩
  intro token'
  show (m.routes.insert token _).lookup token' =
    ((t.routes.insert token t.bindings.length).lookup token').bind
      ((t.bindings ++ [_])[·]?)
  rw [HashMap.lookup_insert_ite, HashMap.lookup_insert_ite]
  by_cases htoken : token' = token
  · rw [if_pos htoken, if_pos htoken]
    exact List.getElem?_concat_length.symm
  · rw [if_neg htoken, if_neg htoken]
    have hget := h.get token'
    unfold McpRouteTable.get at hget
    rw [hget]
    cases hi : t.routes.lookup token' with
    | none => rfl
    | some i => exact (List.getElem?_append_left (hlive.lt_length hi)).symm

theorem install (h : Refines t m) (hlive : t.Live) (baseUrl : String) (tx : TransactionId)
    (drawn : Option CapabilityToken) :
    Refines (t.installPending baseUrl tx drawn).1 (m.installPending baseUrl tx drawn).1 ∧
      (m.installPending baseUrl tx drawn).2 = (t.installPending baseUrl tx drawn).2 := by
  cases drawn with
  | none => exact ⟨h, rfl⟩
  | some token =>
      simp only [RouteBook.installPending, McpRouteTable.installPending]
      have hsame : m.maxRoutes ≤ m.length ↔ t.maxRoutes ≤ t.length := by
        rw [h.length hlive, h.max]
      by_cases hfull : t.maxRoutes ≤ t.length
      · rw [if_pos hfull, if_pos (hsame.mpr hfull)]
        exact ⟨h, rfl⟩
      · rw [if_neg hfull, if_neg (fun hm => hfull (hsame.mp hm))]
        by_cases hlong : maxUrlBytes < (capabilityUrl baseUrl token).utf8ByteSize
        · rw [if_pos hlong, if_pos hlong]
          exact ⟨h.route hlive tx token, rfl⟩
        · rw [if_neg hlong, if_neg hlong]
          exact ⟨h.route hlive tx token, rfl⟩

/-- The table by value writes the new state into its own copy of the binding. -/
theorem setState (h : Refines t m) (hlive : t.Live) {token : CapabilityToken} {i : Nat}
    {b : McpBinding} (hi : t.routes.lookup token = some i) (hb : t.bindings[i]? = some b)
    (s : McpBindingState) :
    Refines (t.setState i s) { m with routes := m.routes.insert token { b with state := s } } := by
  refine ⟨h.max, ?_⟩
  intro token'
  show (m.routes.insert token _).lookup token' =
    (t.routes.lookup token').bind ((t.bindings.modify i _)[·]?)
  rw [HashMap.lookup_insert_ite]
  by_cases htoken : token' = token
  · rw [if_pos htoken, htoken, hi]
    simp [List.getElem?_modify, hb]
  · rw [if_neg htoken]
    have hget := h.get token'
    unfold McpRouteTable.get at hget
    rw [hget]
    cases hj : t.routes.lookup token' with
    | none => rfl
    | some j =>
        have hij : ¬ i = j := by
          rintro rfl
          exact htoken (hlive.injective hj hi)
        cases hbj : t.bindings[j]? <;> simp [List.getElem?_modify, hij, hbj]

theorem activate (h : Refines t m) (hlive : t.Live) (token : CapabilityToken) :
    match m.activate token with
    | .ok m' => Refines (t.activate token).1 m' ∧ (t.activate token).2 = .ok ()
    | .error e => (t.activate token).1 = t ∧ (t.activate token).2 = .error e := by
  have hget := h.get token
  simp only [McpRouteTable.activate, RouteBook.activate]
  cases hi : t.routes.lookup token with
  | none =>
      rw [hi] at hget
      simp only [hget, Option.bind_none]
      exact ⟨trivial, trivial⟩
  | some i =>
      obtain ⟨b, hb⟩ : ∃ b, t.bindings[i]? = some b :=
        ⟨_, List.getElem?_eq_getElem (hlive.lt_length hi)⟩
      rw [hi] at hget
      have hget : m.get token = some b := hget.trans hb
      have hstate : t.state i = some b.state := by
        unfold RouteBook.state
        rw [hb]
        rfl
      rcases hlive.exists_state hi with hs | hs
      · have hpending : b.state = .pending := Option.some.inj (hstate.symm.trans hs)
        simp only [hget, hpending, hs]
        exact ⟨h.setState hlive hi hb .active, trivial⟩
      · have hactive : b.state = .active := Option.some.inj (hstate.symm.trans hs)
        simp only [hget, hactive, hs]
        exact ⟨h, trivial⟩

theorem revoke (h : Refines t m) (hlive : t.Live) (token : CapabilityToken) :
    Refines (t.revoke token).1 (m.revoke token) := by
  constructor
  · rw [show (m.revoke token).maxRoutes = m.maxRoutes from rfl, h.max]
    exact (RouteBook.maxRoutes_apply t (.revoke token)).symm
  · intro token'
    show (m.routes.erase token).lookup token' = _
    rw [HashMap.lookup_erase_ite, RouteBook.lookup_revoke]
    by_cases htoken : token' = token
    · rw [if_pos htoken, if_pos htoken]
      rfl
    · rw [if_neg htoken, if_neg htoken]
      have hget := h.get token'
      unfold McpRouteTable.get at hget
      rw [hget]
      unfold RouteBook.revoke
      cases hi : t.routes.lookup token with
      | none => rfl
      | some i =>
          cases hj : t.routes.lookup token' with
          | none => rfl
          | some j =>
              have hij : ¬ i = j := by
                rintro rfl
                exact htoken (hlive.injective hj hi)
              show t.bindings[j]? = (t.bindings.modify i _)[j]?
              cases hbj : t.bindings[j]? <;> simp [hij, hbj]

theorem revokeAll (h : Refines t m) : Refines t.revokeAll.1 m.revokeAll := by
  refine ⟨h.max.trans (RouteBook.maxRoutes_apply t .revokeAll).symm, ?_⟩
  intro token
  have hnone : t.revokeAll.1.routes.lookup token = none := by
    show (t.routes.keys.foldl _ t).routes.lookup token = none
    rw [RouteBook.lookup_revokeAll]
    by_cases hmem : token ∈ t.routes.keys
    · rw [if_pos hmem]
    · rw [if_neg hmem]
      exact AList.lookup_eq_none.mpr (fun hin => hmem (AList.mem_keys.mp hin))
  rw [hnone]
  rfl

theorem apply (h : Refines t m) (hlive : t.Live) (op : RouteOp) :
    Refines (t.apply op) (m.apply op) := by
  cases op with
  | install baseUrl tx drawn => exact (h.install hlive baseUrl tx drawn).1
  | activate token =>
      have hactivate := h.activate hlive token
      simp only [RouteBook.apply, McpRouteTable.apply]
      cases hm : m.activate token with
      | ok m' =>
          rw [hm] at hactivate
          exact hactivate.1
      | error e =>
          rw [hm] at hactivate
          rw [hactivate.1]
          exact h
  | revoke token => exact h.revoke hlive token
  | revokeAll => exact h.revokeAll

/-- **Refinement.** Run side by side, the book always shows the table. -/
theorem after (ops : List RouteOp) (h : Refines t m) (hlive : t.Live) :
    Refines (t.after ops) (ops.foldl McpRouteTable.apply m) := by
  induction ops generalizing t m with
  | nil => exact h
  | cons op rest ih => exact ih (h.apply hlive op) (hlive.apply op)

end Refines

/-- A base URL of 480 bytes: too long for the descriptor once the path is added. -/
def longBaseUrl : String := String.ofList (List.replicate 480 'a')

def strayToken : CapabilityToken := ⟨11#256, by decide⟩

/-- The path and the token add 69 bytes. -/
theorem capabilityUrl_size (n : Nat) (token : CapabilityToken) :
    (capabilityUrl (String.ofList (List.replicate n 'a')) token).utf8ByteSize = n + 69 := by
  have hlen : String.utf8Len (List.replicate n 'a') = n := by
    induction n with
    | zero => rfl
    | succ m ih =>
        rw [List.replicate_succ, String.utf8Len_cons, ih]
        rfl
  have htrim : (List.replicate n 'a').rdropWhile (· == '/') = List.replicate n 'a' := by
    rw [List.rdropWhile_eq_self_iff]
    intro hne
    rw [List.getLast_replicate]
    decide
  have hmcp : ("/mcp/" : String).utf8ByteSize = 5 := by rfl
  simp only [capabilityUrl, String.utf8ByteSize_append, String.toList_ofList, htrim,
    String.utf8ByteSize_ofList, hlen, utf8ByteSize_toHex, hmcp]

theorem longBaseUrl_refused : maxUrlBytes < (capabilityUrl longBaseUrl strayToken).utf8ByteSize := by
  have hsize : (capabilityUrl longBaseUrl strayToken).utf8ByteSize = 480 + 69 :=
    capabilityUrl_size 480 strayToken
  have hmax : maxUrlBytes = 512 := rfl
  omega

/-- The install fails and its route stays: the table of one route is full, and nobody
has the token. -/
theorem refused_descriptor_keeps_route :
    (RouteBook.new 1).installPending longBaseUrl ⟨5#128⟩ (some strayToken) =
      ((RouteBook.new 1).route ⟨5#128⟩ strayToken, .error .invalidDescriptor) ∧
    ((RouteBook.new 1).route ⟨5#128⟩ strayToken).length = 1 ∧
    ¬ RouteLaws 1 [.install longBaseUrl ⟨5#128⟩ (some strayToken)] := by
  have hroom : ¬ (RouteBook.new 1).maxRoutes ≤ (RouteBook.new 1).length := by decide
  have hinstall : (RouteBook.new 1).installPending longBaseUrl ⟨5#128⟩ (some strayToken) =
      ((RouteBook.new 1).route ⟨5#128⟩ strayToken, .error .invalidDescriptor) := by
    simp only [RouteBook.installPending]
    rw [if_neg hroom, if_pos longBaseUrl_refused]
  refine ⟨hinstall, rfl, ?_⟩
  intro hlaws
  have hatomic := hlaws.2.2.1 .invalidDescriptor (by rw [hinstall])
  rw [hinstall] at hatomic
  have hlen := congrArg (·.bindings.length) hatomic
  simp [RouteBook.route, RouteBook.new] at hlen

end Monoloop.Mcp
