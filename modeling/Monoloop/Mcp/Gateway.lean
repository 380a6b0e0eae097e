import Monoloop.Mcp.Routes

/-!
# Requests and revokes of the gateway

`forward_mcp` looks a route up and hands the request to a task of its own;
`execute_mcp_request` looks the route up again, takes the service of the capability
from the service table, or builds it, and serves the request. `revoke` takes the route
off the table and then drops the service. Each of these is a critical section of its
own, and any number of requests and revokes run at once.

A segment that is no token never touches a table and is left out, as is the all-zero
token, which no route has. Whether a permit is free, the body fits and the deadline
holds is left open: a request may be refused wherever the code can refuse it.
-/

namespace Monoloop.Mcp

open Transition (System)

/-- How a request ended. -/
inductive RequestEnd where
  | notFound
  | tooManyRequests
  | payloadTooLarge
  | gatewayTimeout
  | served
  /-- Its task was aborted. -/
  | dropped
deriving DecidableEq, Repr

/-- The next operation of a request; `binding` is the `Arc` found by the first lookup. -/
inductive RequestPhase where
  | lookup
  /-- `drop_capability_service` after a missed lookup. -/
  | dropUnknown
  | recheck (binding : Nat)
  | permit (binding : Nat)
  /-- `services.entry(..).or_insert_with(..)`. -/
  | service (binding : Nat)
  | localPermit (service : Nat)
  | body (service : Nat)
  | handle (service : Nat)
  | ended (how : RequestEnd)
deriving DecidableEq, Repr

def RequestPhase.atService : RequestPhase → Bool
  | .service _ => true
  | _ => false

structure McpRequest where
  token : CapabilityToken
  phase : RequestPhase
deriving DecidableEq

/-- The request has not got past a lookup. -/
def McpRequest.outside (q : McpRequest) : Bool :=
  match q.phase with
  | .lookup | .dropUnknown | .ended .notFound => true
  | _ => false

/-- Per-capability service (shared across requests for one token). -/
structure CapabilityHttpService where
  binding : Nat
  cancelled : Bool
deriving DecidableEq

/-- Where a `revoke` or `revoke_all_services` is. -/
inductive RevokePhase where
  | remove (token : CapabilityToken)
  | removeAll
  /-- The services still to drop. -/
  | drops (tokens : List CapabilityToken)
  | returned
deriving DecidableEq

def RevokePhase.pending : RevokePhase → List CapabilityToken
  | .drops tokens => tokens
  | _ => []

def RevokePhase.dropping : List CapabilityToken → RevokePhase
  | [] => .returned
  | tokens => .drops tokens

/-- The two tables, the services ever built, and the calls in flight. -/
structure Gateway where
  book : RouteBook
  services : HashMap CapabilityToken Nat
  built : List CapabilityHttpService
  requests : List McpRequest
  revokes : List RevokePhase

namespace Gateway

def new (maxRoutes : Nat) : Gateway := ⟨.new maxRoutes, ∅, [], [], []⟩

def routed (g : Gateway) (token : CapabilityToken) : Bool := (g.book.routes.lookup token).isSome

/-- A revoke has taken the route and not yet dropped the service. -/
def dropPending (g : Gateway) (token : CapabilityToken) : Bool :=
  g.revokes.any fun c => token ∈ c.pending

/-- `drop_capability_service`. -/
def dropService (g : Gateway) (token : CapabilityToken) : Gateway :=
  match g.services.lookup token with
  | none => g
  | some v =>
      { g with
        services := g.services.erase token
        built := g.built.modify v fun service => { service with cancelled := true } }

/-- The service of a token, built for `binding` if there is none. -/
def serviceFor (g : Gateway) (token : CapabilityToken) (binding : Nat) : Gateway × Nat :=
  match g.services.lookup token with
  | some v => (g, v)
  | none =>
      ({ g with
        services := g.services.insert token g.built.length
        built := g.built ++ [⟨binding, false⟩] }, g.built.length)

/-- One operation of a request. -/
def advance (g : Gateway) (q : McpRequest) : Option (Gateway × RequestPhase) :=
  match q.phase with
  | .lookup =>
      match g.book.routes.lookup q.token with
      | none => some (g, .dropUnknown)
      | some i => some (g, .recheck i)
  | .dropUnknown => some (g.dropService q.token, .ended .notFound)
  | .recheck i => some (g, if g.routed q.token then .permit i else .dropUnknown)
  | .permit i => some (g, .service i)
  | .service i => some ((g.serviceFor q.token i).1, .localPermit (g.serviceFor q.token i).2)
  | .localPermit v => some (g, .body v)
  | .body v => some (g, .handle v)
  | .handle _ => some (g, .ended .served)
  | .ended _ => none

/-- The ends other than the regular one. -/
def refusable : RequestPhase → RequestEnd → Bool
  | .permit _, .tooManyRequests | .localPermit _, .tooManyRequests => true
  | .body _, .payloadTooLarge | .body _, .gatewayTimeout | .handle _, .gatewayTimeout => true
  | .recheck _, .dropped | .body _, .dropped | .handle _, .dropped => true
  | _, _ => false

/-- One operation of a revoke. -/
def advanceRevoke (g : Gateway) : RevokePhase → Option (Gateway × RevokePhase)
  | .remove token =>
      some ({ g with book := (g.book.revoke token).1 },
        if (g.book.revoke token).2 then .drops [token] else .returned)
  | .removeAll =>
      some ({ g with book := g.book.revokeAll.1 }, .dropping g.book.revokeAll.2)
  | .drops (token :: rest) => some (g.dropService token, .dropping rest)
  | .drops [] | .returned => none

end Gateway

inductive GatewayAction where
  | install (baseUrl : String) (tx : TransactionId) (drawn : Option CapabilityToken)
  | activate (token : CapabilityToken)
  | request (token : CapabilityToken)
  | advance (n : Nat)
  | refuse (n : Nat) (how : RequestEnd)
  | revoke (token : CapabilityToken)
  | revokeAll
  | advanceRevoke (v : Nat)

def stepGateway : GatewayAction → Gateway → Option Gateway
  | .install baseUrl tx drawn, g =>
      some { g with book := (g.book.installPending baseUrl tx drawn).1 }
  | .activate token, g => some { g with book := (g.book.activate token).1 }
  | .request token, g => some { g with requests := g.requests ++ [⟨token, .lookup⟩] }
  | .advance n, g =>
      g.requests[n]?.bind fun q => (g.advance q).map fun (g', phase) =>
        { g' with requests := g.requests.set n { q with phase } }
  | .refuse n how, g =>
      g.requests[n]?.bind fun q =>
        if Gateway.refusable q.phase how then
          some { g with requests := g.requests.set n { q with phase := .ended how } }
        else none
  | .revoke token, g => some { g with revokes := g.revokes ++ [.remove token] }
  | .revokeAll, g => some { g with revokes := g.revokes ++ [.removeAll] }
  | .advanceRevoke v, g =>
      g.revokes[v]?.bind fun c => (g.advanceRevoke c).map fun (g', c') =>
        { g' with revokes := g.revokes.set v c' }

def gateway : System Gateway GatewayAction where
  init g := ∃ maxRoutes, g = .new maxRoutes
  step := stepGateway

namespace Gateway

/-- The generator never draws a token twice. -/
def Fresh (g : Gateway) : GatewayAction → Prop
  | .install _ _ (some token) => ∀ b ∈ g.book.bindings, b.token ≠ token
  | _ => True

/-- A request that passed its second lookup gets to the service table before the revoke
of its token has dropped the service. -/
def Prompt (token : CapabilityToken) (g : Gateway) : GatewayAction → Prop
  | .advance n => ∀ q ∈ g.requests[n]?, q.token = token → q.phase.atService = true →
      g.routed token = true ∨ g.dropPending token = true
  | _ => True

/-- The two conditions on a step. -/
def Orderly (token : CapabilityToken) (g : Gateway) (a : GatewayAction) : Prop :=
  g.Fresh a ∧ Prompt token g a

instance (g : Gateway) : (a : GatewayAction) → Decidable (g.Fresh a)
  | .install _ _ (some token) => inferInstanceAs (Decidable (∀ b ∈ g.book.bindings, b.token ≠ token))
  | .install _ _ none | .activate _ | .request _ | .advance _ | .refuse _ _ | .revoke _
  | .revokeAll | .advanceRevoke _ => .isTrue trivial

instance (token : CapabilityToken) (g : Gateway) :
    (a : GatewayAction) → Decidable (Prompt token g a)
  | .advance n => inferInstanceAs (Decidable (∀ q ∈ g.requests[n]?, q.token = token →
      q.phase.atService = true → g.routed token = true ∨ g.dropPending token = true))
  | .install _ _ _ | .activate _ | .request _ | .refuse _ _ | .revoke _ | .revokeAll
  | .advanceRevoke _ => .isTrue trivial

instance (token : CapabilityToken) (g : Gateway) (a : GatewayAction) :
    Decidable (Orderly token g a) :=
  inferInstanceAs (Decidable (_ ∧ _))

/-- A route of the token was revoked and every revoke that took one has returned. -/
structure Revoked (g : Gateway) (token : CapabilityToken) : Prop where
  binding : ∃ b ∈ g.book.bindings, b.token = token ∧ b.state = .revoked
  unrouted : g.routed token = false
  returned : g.dropPending token = false

/-- From `g`, where the token is revoked, to a later `g'`: once the requests that
started before are over the token has no service, and no later request is served. -/
structure Cleared (g g' : Gateway) (token : CapabilityToken) : Prop where
  service : (∀ n q, n < g.requests.length → g'.requests[n]? = some q → q.token = token →
    ∃ how, q.phase = .ended how) → g'.services.lookup token = none
  served : ∀ n q, g.requests.length ≤ n → g'.requests[n]? = some q → q.token = token →
    q.phase ≠ .ended .served

/-! ## A service has a route, or a revoke that will drop it -/

variable {g g' : Gateway} {token : CapabilityToken}

def Backed (token : CapabilityToken) (g : Gateway) : Prop := ∀ v,
  g.services.lookup token = some v → g.routed token = true ∨ g.dropPending token = true

theorem lookup_dropService (g : Gateway) (token token' : CapabilityToken) :
    (g.dropService token).services.lookup token' =
      if token' = token then none else g.services.lookup token' := by
  unfold dropService
  cases hv : g.services.lookup token with
  | none =>
      by_cases htoken : token' = token
      · rw [if_pos htoken, htoken]
        exact hv
      · rw [if_neg htoken]
  | some v => exact HashMap.lookup_erase_ite g.services token' token

theorem dropService_book (g : Gateway) (token : CapabilityToken) :
    (g.dropService token).book = g.book := by
  unfold dropService
  split <;> rfl

theorem dropService_revokes (g : Gateway) (token : CapabilityToken) :
    (g.dropService token).revokes = g.revokes := by
  unfold dropService
  split <;> rfl

theorem serviceFor_frame (g : Gateway) (token : CapabilityToken) (binding : Nat) :
    (g.serviceFor token binding).1.book = g.book ∧
      (g.serviceFor token binding).1.revokes = g.revokes ∧
      ∀ token', token' ≠ token →
        (g.serviceFor token binding).1.services.lookup token' = g.services.lookup token' := by
  unfold serviceFor
  cases hv : g.services.lookup token with
  | some v => exact ⟨rfl, rfl, fun _ _ => rfl⟩
  | none =>
      refine ⟨rfl, rfl, ?_⟩
      intro token' hne
      show (g.services.insert token _).lookup token' = _
      rw [HashMap.lookup_insert_ite, if_neg hne]

theorem activate_routes (t : RouteBook) (token : CapabilityToken) :
    (t.activate token).1.routes = t.routes := by
  unfold RouteBook.activate
  split
  · rfl
  · split <;> rfl

theorem lookup_install (t : RouteBook) (baseUrl : String) (tx : TransactionId)
    (drawn : Option CapabilityToken) (token : CapabilityToken) :
    (t.installPending baseUrl tx drawn).1.routes.lookup token = t.routes.lookup token ∨
      (drawn = some token ∧
        (t.installPending baseUrl tx drawn).1.routes.lookup token = some t.bindings.length) := by
  rcases RouteBook.installPending_fst t baseUrl tx drawn with ⟨tok, rfl, -, heq⟩ | ⟨-, heq⟩
  · rw [heq]
    show (t.routes.insert tok _).lookup token = _ ∨ _ ∧ (t.routes.insert tok _).lookup token = _
    rw [HashMap.lookup_insert_ite]
    by_cases htoken : token = tok
    · rw [if_pos htoken]
      exact .inr ⟨by rw [htoken], rfl⟩
    · rw [if_neg htoken]
      exact .inl rfl
  · rw [heq]
    exact .inl rfl

/-- A revoke moves on: what it had to drop it still has, or it is the token at hand. -/
theorem dropPending_set {v : Nat} {c c' : RevokePhase} (hc : g.revokes[v]? = some c)
    (h : g.dropPending token = true) (hkeep : token ∈ c.pending → token ∈ c'.pending) :
    ((g.revokes.set v c').any fun c => token ∈ c.pending) = true := by
  obtain ⟨d, hd, hmem⟩ := List.any_eq_true.mp h
  obtain ⟨i, hi⟩ := List.mem_iff_getElem?.mp hd
  rw [List.any_eq_true]
  by_cases hiv : i = v
  · subst hiv
    rw [hc] at hi
    cases hi
    exact ⟨c', List.mem_set (List.getElem?_eq_some_iff.mp hc).1 c',
      decide_eq_true (hkeep (of_decide_eq_true hmem))⟩
  · refine ⟨d, List.mem_of_getElem? (i := i) ?_, hmem⟩
    rw [List.getElem?_set_ne (Ne.symm hiv)]
    exact hi

theorem dropPending_new {v : Nat} {c c' : RevokePhase} (hc : g.revokes[v]? = some c)
    (h : token ∈ c'.pending) :
    ((g.revokes.set v c').any fun c => token ∈ c.pending) = true := by
  rw [List.any_eq_true]
  exact ⟨c', List.mem_set (List.getElem?_eq_some_iff.mp hc).1 c', decide_eq_true h⟩

theorem pending_dropping (tokens : List CapabilityToken) :
    (RevokePhase.dropping tokens).pending = tokens := by
  cases tokens <;> rfl

/-- The operations of a request touch no route and no revoke. -/
theorem advance_frame {q : McpRequest} {phase : RequestPhase}
    (hstep : g.advance q = some (g', phase)) : g'.book = g.book ∧ g'.revokes = g.revokes := by
  unfold advance at hstep
  cases hp : q.phase with
  | lookup =>
      simp only [hp] at hstep
      split at hstep
      · cases hstep
        exact ⟨rfl, rfl⟩
      · cases hstep
        exact ⟨rfl, rfl⟩
  | dropUnknown =>
      simp only [hp] at hstep
      cases hstep
      exact ⟨dropService_book g q.token, dropService_revokes g q.token⟩
  | service i =>
      simp only [hp] at hstep
      cases hstep
      obtain ⟨hbook, hrevokes, -⟩ := serviceFor_frame g q.token i
      exact ⟨hbook, hrevokes⟩
  | ended how =>
      simp only [hp] at hstep
      cases hstep
  | _ =>
      simp only [hp] at hstep
      cases hstep
      exact ⟨rfl, rfl⟩

/-- Two of them touch a service: one drops it, and one takes or builds it. -/
theorem advance_backed {q : McpRequest} {phase : RequestPhase} (h : Backed token g)
    (hok : q.token = token → q.phase.atService = true →
      g.routed token = true ∨ g.dropPending token = true)
    (hstep : g.advance q = some (g', phase)) : Backed token g' := by
  obtain ⟨hbook, hrevokes⟩ := advance_frame hstep
  have hanswers : (g.routed token = true ∨ g.dropPending token = true) →
      g'.routed token = true ∨ g'.dropPending token = true := by
    intro hbefore
    unfold routed dropPending at hbefore ⊢
    rw [hbook, hrevokes]
    exact hbefore
  intro v hv
  apply hanswers
  unfold advance at hstep
  cases hp : q.phase with
  | lookup =>
      simp only [hp] at hstep
      split at hstep
      · cases hstep
        exact h v hv
      · cases hstep
        exact h v hv
  | dropUnknown =>
      simp only [hp] at hstep
      cases hstep
      rw [lookup_dropService] at hv
      by_cases htoken : token = q.token
      · rw [if_pos htoken] at hv
        cases hv
      · rw [if_neg htoken] at hv
        exact h v hv
  | service i =>
      simp only [hp] at hstep
      cases hstep
      by_cases htoken : token = q.token
      · exact hok htoken.symm (by rw [hp]; rfl)
      · rw [(serviceFor_frame g q.token i).2.2 token htoken] at hv
        exact h v hv
  | ended how =>
      simp only [hp] at hstep
      cases hstep
  | _ =>
      simp only [hp] at hstep
      cases hstep
      exact h v hv

/-- A revoke drops the service after the route, so in between it answers for it. -/
theorem advanceRevoke_backed {v : Nat} {c c' : RevokePhase} (h : Backed token g)
    (hc : g.revokes[v]? = some c) (hstep : g.advanceRevoke c = some (g', c')) :
    Backed token { g' with revokes := g.revokes.set v c' } := by
  cases c with
  | remove tok =>
      cases hstep
      intro w hw
      show ((g.book.revoke tok).1.routes.lookup token).isSome = true ∨
        ((g.revokes.set v _).any fun c => token ∈ c.pending) = true
      rw [RouteBook.lookup_revoke]
      rcases h w hw with hrouted | hpending
      · by_cases htoken : token = tok
        · right
          have htook : (g.book.revoke tok).2 = true := by
            unfold RouteBook.revoke
            unfold routed at hrouted
            rw [htoken] at hrouted
            obtain ⟨i, hi⟩ := Option.isSome_iff_exists.mp hrouted
            rw [hi]
          rw [htook]
          exact dropPending_new hc (htoken ▸ List.mem_singleton_self tok)
        · left
          rw [if_neg htoken]
          exact hrouted
      · right
        apply dropPending_set hc hpending
        intro hmem
        cases hmem
  | removeAll =>
      cases hstep
      intro w hw
      right
      show ((g.revokes.set v _).any fun c => token ∈ c.pending) = true
      rcases h w hw with hrouted | hpending
      · apply dropPending_new hc
        rw [pending_dropping]
        exact (HashMap.mem_keys_iff g.book.routes token).mpr (Option.isSome_iff_exists.mp hrouted)
      · apply dropPending_set hc hpending
        intro hmem
        cases hmem
  | drops tokens =>
      cases tokens with
      | nil => cases hstep
      | cons tok rest =>
          cases hstep
          intro w hw
          have hw : (g.dropService tok).services.lookup token = some w := hw
          rw [lookup_dropService] at hw
          by_cases htoken : token = tok
          · rw [if_pos htoken] at hw
            cases hw
          · rw [if_neg htoken] at hw
            show ((g.dropService tok).book.routes.lookup token).isSome = true ∨
              ((g.revokes.set v _).any fun c => token ∈ c.pending) = true
            rw [dropService_book]
            rcases h w hw with hrouted | hpending
            · exact .inl hrouted
            · right
              apply dropPending_set hc hpending
              intro hmem
              rw [pending_dropping]
              exact (List.mem_cons.mp hmem).resolve_left htoken
  | returned => cases hstep

theorem Backed.step {a : GatewayAction} (h : Backed token g) (hok : Prompt token g a)
    (hstep : gateway.step a g = some g') : Backed token g' := by
  cases a with
  | install baseUrl tx drawn =>
      cases hstep
      intro v hv
      rcases h v hv with hrouted | hpending
      · left
        show ((g.book.installPending baseUrl tx drawn).1.routes.lookup token).isSome = true
        rcases lookup_install g.book baseUrl tx drawn token with hsame | ⟨-, hnew⟩
        · rw [hsame]
          exact hrouted
        · rw [hnew]
          rfl
      · exact .inr hpending
  | activate tok =>
      cases hstep
      intro v hv
      rcases h v hv with hrouted | hpending
      · left
        show ((g.book.activate tok).1.routes.lookup token).isSome = true
        rw [activate_routes]
        exact hrouted
      · exact .inr hpending
  | request tok =>
      cases hstep
      exact h
  | advance n =>
      obtain ⟨q, hq, hstep⟩ := Option.bind_eq_some_iff.mp hstep
      obtain ⟨⟨g₁, phase⟩, hadvance, rfl⟩ := Option.map_eq_some_iff.mp hstep
      have hbacked : Backed token g₁ := advance_backed h (hok q hq) hadvance
      exact hbacked
  | refuse n how =>
      obtain ⟨q, hq, hstep⟩ := Option.bind_eq_some_iff.mp hstep
      split at hstep
      · cases hstep
        exact h
      · cases hstep
  | revoke tok =>
      cases hstep
      intro v hv
      rcases h v hv with hrouted | hpending
      · exact .inl hrouted
      · right
        unfold dropPending at hpending ⊢
        rw [List.any_append, hpending]
        rfl
  | revokeAll =>
      cases hstep
      intro v hv
      rcases h v hv with hrouted | hpending
      · exact .inl hrouted
      · right
        unfold dropPending at hpending ⊢
        rw [List.any_append, hpending]
        rfl
  | advanceRevoke v =>
      obtain ⟨c, hc, hstep⟩ := Option.bind_eq_some_iff.mp hstep
      obtain ⟨⟨g₁, c'⟩, hadvance, rfl⟩ := Option.map_eq_some_iff.mp hstep
      exact advanceRevoke_backed h hc hadvance

theorem backed_new (maxRoutes : Nat) : Backed token (new maxRoutes) := by
  intro v hv
  cases hv

/-! ## A request that starts after the revoke is turned away -/

/-- The tokens of the bindings never change. -/
theorem tokens_revoke (t : RouteBook) (tok : CapabilityToken) (i : Nat) :
    (t.revoke tok).1.bindings[i]?.map (·.token) = t.bindings[i]?.map (·.token) := by
  unfold RouteBook.revoke
  split
  · exact RouteBook.tokens_setState _ _ _ _
  · rfl

theorem tokens_revokeAll (t : RouteBook) (i : Nat) :
    t.revokeAll.1.bindings[i]?.map (·.token) = t.bindings[i]?.map (·.token) := by
  show (t.routes.keys.foldl (fun t token => (t.revoke token).1) t).bindings[i]?.map _ = _
  generalize t.routes.keys = tokens
  induction tokens generalizing t with
  | nil => rfl
  | cons tok rest ih => exact (ih (t.revoke tok).1).trans (tokens_revoke t tok i)

theorem tokens_activate (t : RouteBook) (tok : CapabilityToken) (i : Nat) :
    (t.activate tok).1.bindings[i]?.map (·.token) = t.bindings[i]?.map (·.token) := by
  unfold RouteBook.activate
  split
  · rfl
  · split
    · exact RouteBook.tokens_setState _ _ _ _
    · rfl
    · rfl

theorem tokens_install (t : RouteBook) (baseUrl : String) (tx : TransactionId)
    (drawn : Option CapabilityToken) {i : Nat} (hi : t.bindings[i]?.map (·.token) = some token) :
    (t.installPending baseUrl tx drawn).1.bindings[i]?.map (·.token) = some token := by
  rcases RouteBook.installPending_fst t baseUrl tx drawn with ⟨tok, -, -, heq⟩ | ⟨-, heq⟩
  · obtain ⟨b, hb, -⟩ := Option.map_eq_some_iff.mp hi
    have hlt := (List.getElem?_eq_some_iff.mp hb).1
    rw [heq, RouteBook.tokens_route, if_neg (Nat.ne_of_lt hlt)]
    exact hi
  · rw [heq]
    exact hi

/-- The token has been drawn, has no route and no revoke at work, and the requests for
it from number `k` on have not got past a lookup. -/
structure Barred (k : Nat) (token : CapabilityToken) (g : Gateway) : Prop where
  drawn : ∃ i : Nat, g.book.bindings[i]?.map (·.token) = some token
  unrouted : g.routed token = false
  settled : g.dropPending token = false
  late : ∀ n q, k ≤ n → g.requests[n]? = some q → q.token = token → McpRequest.outside q = true

namespace Barred

variable {k : Nat} {a : GatewayAction}

/-- The requests stay as they are. -/
theorem still (h : Barred k token g)
    (hdrawn : ∀ i : Nat, g.book.bindings[i]?.map (·.token) = some token →
      g'.book.bindings[i]?.map (·.token) = some token)
    (hlookup : g'.book.routes.lookup token = none) (hsettled : g'.dropPending token = false)
    (hrequests : g'.requests = g.requests) : Barred k token g' := by
  obtain ⟨i, hi⟩ := h.drawn
  refine ⟨⟨i, hdrawn i hi⟩, ?_, hsettled, hrequests ▸ h.late⟩
  unfold routed
  rw [hlookup]
  rfl

/-- One revoke moves on. -/
theorem dropPending_set_false (h : Barred k token g) {v : Nat} {c c' : RevokePhase}
    (hc : g.revokes[v]? = some c) (hnew : token ∈ c'.pending → token ∈ c.pending) :
    ((g.revokes.set v c').any fun c => token ∈ c.pending) = false := by
  have hnone := List.any_eq_false.mp h.settled
  rw [List.any_eq_false]
  intro d hd hmem
  rcases List.mem_or_eq_of_mem_set hd with hd | rfl
  · exact hnone d hd hmem
  · exact hnone c (List.mem_of_getElem? hc) (decide_eq_true (hnew (of_decide_eq_true hmem)))

/-- One request moves on. -/
theorem move (h : Barred k token g) {n : Nat} {q : McpRequest} {phase : RequestPhase}
    (hq : g.requests[n]? = some q) (hbook : g'.book = g.book) (hrevokes : g'.revokes = g.revokes)
    (hrequests : g'.requests = g.requests.set n { q with phase })
    (hout : q.token = token → McpRequest.outside q = true →
      McpRequest.outside { q with phase } = true) : Barred k token g' := by
  refine ⟨hbook ▸ h.drawn, ?_, ?_, ?_⟩
  · unfold routed
    rw [hbook]
    exact h.unrouted
  · unfold dropPending
    rw [hrevokes]
    exact h.settled
  · intro m r hm hr htoken
    rw [hrequests] at hr
    by_cases hmn : m = n
    · subst hmn
      rw [List.getElem?_set_self (List.getElem?_eq_some_iff.mp hq).1] at hr
      cases hr
      exact hout htoken (h.late m q hm hq htoken)
    · rw [List.getElem?_set_ne (Ne.symm hmn)] at hr
      exact h.late m r hm hr htoken

theorem lookup_none (h : Barred k token g) : g.book.routes.lookup token = none := by
  have hrouted := h.unrouted
  unfold routed at hrouted
  simpa using hrouted

/-- Both lookups of a request miss. -/
theorem requestMoves {n : Nat} {q : McpRequest} {phase : RequestPhase} {g₁ : Gateway}
    (h : Barred k token g) (hq : g.requests[n]? = some q)
    (hadvance : g.advance q = some (g₁, phase)) :
    Barred k token { g₁ with requests := g.requests.set n { q with phase } } := by
  have hnone := h.lookup_none
  obtain ⟨hbook, hrevokes⟩ := advance_frame hadvance
  refine h.move hq hbook hrevokes rfl ?_
  intro htoken hout
  unfold advance at hadvance
  obtain ⟨tok, p⟩ := q
  cases htoken
  cases p with
  | lookup =>
      simp only [hnone] at hadvance
      cases hadvance
      rfl
  | dropUnknown =>
      cases hadvance
      rfl
  | ended how => cases hadvance
  | _ => cases hout

/-- A revoke finds no route of the token, so it takes on no drop of its service. -/
theorem revokeMoves {v : Nat} {c c' : RevokePhase} (h : Barred k token g)
    (hc : g.revokes[v]? = some c) (hadvance : g.advanceRevoke c = some (g', c')) :
    Barred k token { g' with revokes := g.revokes.set v c' } := by
  have hnone := h.lookup_none
  cases c with
  | remove tok =>
      cases hadvance
      refine h.still ?_ ?_ (h.dropPending_set_false hc ?_) rfl
      · intro i hi
        exact (tokens_revoke g.book tok i).trans hi
      · show (g.book.revoke tok).1.routes.lookup token = none
        rw [RouteBook.lookup_revoke, hnone]
        exact ite_self none
      · -- the call finds nothing to remove, or another token
        intro hmem
        cases htook : (g.book.revoke tok).2 with
        | false =>
            rw [htook] at hmem
            cases hmem
        | true =>
            rw [htook] at hmem
            obtain rfl : token = tok := List.mem_singleton.mp hmem
            simp [RouteBook.revoke, hnone] at htook
  | removeAll =>
      cases hadvance
      refine h.still ?_ ?_ (h.dropPending_set_false hc ?_) rfl
      · intro i hi
        exact (tokens_revokeAll g.book i).trans hi
      · show (g.book.routes.keys.foldl _ g.book).routes.lookup token = none
        rw [RouteBook.lookup_revokeAll, hnone]
        exact ite_self none
      · intro hmem
        rw [pending_dropping] at hmem
        obtain ⟨i, hi⟩ := (HashMap.mem_keys_iff g.book.routes token).mp hmem
        rw [hnone] at hi
        cases hi
  | drops tokens =>
      cases tokens with
      | nil => cases hadvance
      | cons tok rest =>
          cases hadvance
          refine h.still ?_ ?_ (h.dropPending_set_false hc ?_) ?_
          · intro i hi
            show (g.dropService tok).book.bindings[i]?.map _ = _
            rw [dropService_book]
            exact hi
          · show (g.dropService tok).book.routes.lookup token = none
            rw [dropService_book]
            exact hnone
          · intro hmem
            rw [pending_dropping] at hmem
            exact List.mem_cons_of_mem tok hmem
          · show (g.dropService tok).requests = g.requests
            unfold dropService
            split <;> rfl
  | returned => cases hadvance

theorem step (h : Barred k token g) (hfresh : g.Fresh a) (hstep : gateway.step a g = some g') :
    Barred k token g' := by
  have hnone := h.lookup_none
  cases a with
  | install baseUrl tx drawn =>
      cases hstep
      refine h.still (fun i => tokens_install g.book baseUrl tx drawn) ?_ h.settled rfl
      rcases lookup_install g.book baseUrl tx drawn token with hsame | ⟨rfl, -⟩
      · rw [hsame]
        exact hnone
      · -- the generator would have drawn a token that it drew before
        obtain ⟨i, hi⟩ := h.drawn
        obtain ⟨b, hb, htoken⟩ := Option.map_eq_some_iff.mp hi
        exact absurd htoken (hfresh b (List.mem_of_getElem? hb))
  | activate tok =>
      cases hstep
      refine h.still ?_ ?_ h.settled rfl
      · intro i hi
        show (g.book.activate tok).1.bindings[i]?.map _ = _
        rw [tokens_activate]
        exact hi
      · show (g.book.activate tok).1.routes.lookup token = none
        rw [activate_routes]
        exact hnone
  | request tok =>
      cases hstep
      refine ⟨h.drawn, h.unrouted, h.settled, ?_⟩
      intro n q hn hq htoken
      have hq : (g.requests ++ [⟨tok, .lookup⟩])[n]? = some q := hq
      rw [List.getElem?_append] at hq
      by_cases hlt : n < g.requests.length
      · rw [if_pos hlt] at hq
        exact h.late n q hn hq htoken
      · rw [if_neg hlt] at hq
        rw [List.mem_singleton.mp (List.mem_of_getElem? hq)]
        rfl
  | advance n =>
      obtain ⟨q, hq, hstep⟩ := Option.bind_eq_some_iff.mp hstep
      obtain ⟨⟨g₁, phase⟩, hadvance, rfl⟩ := Option.map_eq_some_iff.mp hstep
      exact h.requestMoves hq hadvance
  | refuse n how =>
      obtain ⟨q, hq, hstep⟩ := Option.bind_eq_some_iff.mp hstep
      split at hstep
      · rename_i hmay
        cases hstep
        refine h.move hq rfl rfl rfl ?_
        intro _ hout
        obtain ⟨tok, p⟩ := q
        cases p with
        | lookup => cases hmay
        | dropUnknown => cases hmay
        | ended how' => cases hmay
        | _ => cases hout
      · cases hstep
  | revoke tok =>
      cases hstep
      refine ⟨h.drawn, h.unrouted, ?_, h.late⟩
      show (g.revokes ++ [_]).any _ = false
      rw [List.any_append]
      exact (Bool.or_false _).trans h.settled
  | revokeAll =>
      cases hstep
      refine ⟨h.drawn, h.unrouted, ?_, h.late⟩
      show (g.revokes ++ [_]).any _ = false
      rw [List.any_append]
      exact (Bool.or_false _).trans h.settled
  | advanceRevoke v =>
      obtain ⟨c, hc, hstep⟩ := Option.bind_eq_some_iff.mp hstep
      obtain ⟨⟨g₁, c'⟩, hadvance, rfl⟩ := Option.map_eq_some_iff.mp hstep
      exact h.revokeMoves hc hadvance

end Barred

theorem Backed.run {as : List GatewayAction} (h : Backed token g)
    (hrun : gateway.run as g = some g') (hok : gateway.StepsMeet (Orderly token) as g) :
    Backed token g' := by
  refine Transition.System.run_invariant ?_ h hrun hok
  intro g a g' hbacked horderly hstep
  exact hbacked.step horderly.2 hstep

theorem Barred.run {as : List GatewayAction} {k : Nat} (h : Barred k token g)
    (hrun : gateway.run as g = some g') (hok : gateway.StepsMeet (Orderly token) as g) :
    Barred k token g' := by
  refine Transition.System.run_invariant ?_ h hrun hok
  intro g a g' hbarred horderly hstep
  exact hbarred.step horderly.1 hstep

theorem Revoked.barred (h : Revoked g token) : Barred g.requests.length token g where
  drawn := by
    obtain ⟨b, hb, htoken, -⟩ := h.binding
    obtain ⟨i, hi⟩ := List.mem_iff_getElem?.mp hb
    exact ⟨i, by rw [hi, Option.map_some, htoken]⟩
  unrouted := h.unrouted
  settled := h.returned
  late := by
    intro n q hn hq
    have hlt := (List.getElem?_eq_some_iff.mp hq).1
    omega

/-- **A revoked token is cleared.** In a run whose requests get to the service table in
time, a token has no service once its revoke has returned, and no request that starts
later is served. -/
theorem revoked_token_cleared {g₀ g₁ g₂ : Gateway} {as₁ as₂ : List GatewayAction}
    {token : CapabilityToken} (h₀ : gateway.init g₀) (h₁ : gateway.run as₁ g₀ = some g₁)
    (hok₁ : gateway.StepsMeet (Orderly token) as₁ g₀) (hrevoked : Revoked g₁ token)
    (h₂ : gateway.run as₂ g₁ = some g₂) (hok₂ : gateway.StepsMeet (Orderly token) as₂ g₁) :
    Cleared g₁ g₂ token := by
  obtain ⟨maxRoutes, rfl⟩ := h₀
  have hbacked : Backed token g₂ := ((backed_new maxRoutes).run h₁ hok₁).run h₂ hok₂
  have hbarred : Barred g₁.requests.length token g₂ := hrevoked.barred.run h₂ hok₂
  constructor
  · intro _
    cases hv : g₂.services.lookup token with
    | none => rfl
    | some v =>
        rcases hbacked v hv with hrouted | hpending
        · rw [hbarred.unrouted] at hrouted
          cases hrouted
        · rw [hbarred.settled] at hpending
          cases hpending
  · intro n q hn hq htoken hserved
    have hout := hbarred.late n q hn hq htoken
    unfold McpRequest.outside at hout
    rw [hserved] at hout
    cases hout

/-! ## A revoke after a request, and one in the middle of it -/

def raceToken : CapabilityToken := ⟨23#256, by decide⟩

/-- The token gets its route and a request comes in. -/
def installAndRequest : List GatewayAction :=
  [.install "http://127.0.0.1:8080" ⟨5#128⟩ (some raceToken), .activate raceToken,
    .request raceToken]

/-- The token is revoked, start to end. -/
def revokeRace : List GatewayAction := [.revoke raceToken, .advanceRevoke 0, .advanceRevoke 0]

def revoked? (g : Gateway) (token : CapabilityToken) : Bool :=
  g.book.bindings.any (fun b => b.token == token && b.state == .revoked) && !g.routed token &&
    !g.dropPending token

theorem revoked_of_test (h : revoked? g token = true) : Revoked g token := by
  simp only [revoked?, Bool.and_eq_true, List.any_eq_true, beq_iff_eq, Bool.not_eq_true'] at h
  exact ⟨h.1.1, h.1.2, h.2⟩

/-- The request is served before the revoke, and the service is gone after it; a second
request is turned away. -/
theorem served_then_revoked : ∃ g₁ g₂,
    gateway.run (installAndRequest ++ List.replicate 7 (.advance 0) ++ revokeRace) (new 4) =
      some g₁ ∧
    g₁.requests = [⟨raceToken, .ended .served⟩] ∧ Revoked g₁ raceToken ∧
    gateway.run [.request raceToken, .advance 1, .advance 1] g₁ = some g₂ ∧
    g₂.requests = [⟨raceToken, .ended .served⟩, ⟨raceToken, .ended .notFound⟩] ∧
    Cleared g₁ g₂ raceToken := by
  have hrun : (gateway.runWhere (Orderly raceToken)
      (installAndRequest ++ List.replicate 7 (.advance 0) ++ revokeRace) (new 4)).any (fun g₁ =>
        decide (g₁.requests = [⟨raceToken, .ended .served⟩]) && revoked? g₁ raceToken &&
        (gateway.runWhere (Orderly raceToken) [.request raceToken, .advance 1, .advance 1] g₁).any
          fun g₂ => g₂.requests = [⟨raceToken, .ended .served⟩, ⟨raceToken, .ended .notFound⟩]) =
      true := by
    decide +kernel
  rw [Option.any_eq_true] at hrun
  obtain ⟨g₁, hrun₁, hg₁⟩ := hrun
  rw [Bool.and_eq_true, Bool.and_eq_true, Option.any_eq_true] at hg₁
  obtain ⟨⟨hserved, hrevoked⟩, g₂, hrun₂, hg₂⟩ := hg₁
  have hrevoked : Revoked g₁ raceToken := revoked_of_test hrevoked
  obtain ⟨hrun₁, hok₁⟩ := Transition.System.runWhere_some hrun₁
  obtain ⟨hrun₂, hok₂⟩ := Transition.System.runWhere_some hrun₂
  exact ⟨g₁, g₂, hrun₁, of_decide_eq_true hserved, hrevoked, hrun₂, of_decide_eq_true hg₂,
    revoked_token_cleared ⟨4, rfl⟩ hrun₁ hok₁ hrevoked hrun₂ hok₂⟩

/-- The request is past its second lookup when the revoke runs from start to end; then it
builds the service, is served and is over. Nothing drops that service any more. -/
theorem late_request_leaves_service : ∃ g₁ g₂,
    gateway.run (installAndRequest ++ List.replicate 3 (.advance 0) ++ revokeRace) (new 4) =
      some g₁ ∧
    gateway.StepsMeet Fresh
      (installAndRequest ++ List.replicate 3 (.advance 0) ++ revokeRace) (new 4) ∧
    Revoked g₁ raceToken ∧
    gateway.run (List.replicate 4 (.advance 0)) g₁ = some g₂ ∧
    gateway.StepsMeet Fresh (List.replicate 4 (.advance 0)) g₁ ∧
    g₂.requests = [⟨raceToken, .ended .served⟩] ∧ g₂.services.lookup raceToken = some 0 ∧
    g₂.built = [⟨0, false⟩] ∧ ¬ Cleared g₁ g₂ raceToken := by
  have hrun : (gateway.runWhere Fresh
      (installAndRequest ++ List.replicate 3 (.advance 0) ++ revokeRace) (new 4)).any (fun g₁ =>
        revoked? g₁ raceToken && (gateway.runWhere Fresh (List.replicate 4 (.advance 0)) g₁).any
          fun g₂ => g₂.requests = [⟨raceToken, .ended .served⟩] ∧
            g₂.services.lookup raceToken = some 0 ∧ g₂.built = [⟨0, false⟩]) = true := by
    decide +kernel
  rw [Option.any_eq_true] at hrun
  obtain ⟨g₁, hrun₁, hg₁⟩ := hrun
  rw [Bool.and_eq_true, Option.any_eq_true] at hg₁
  obtain ⟨hrevoked, g₂, hrun₂, hg₂⟩ := hg₁
  obtain ⟨hrequests, hservice, hbuilt⟩ := of_decide_eq_true hg₂
  obtain ⟨hrun₁, hfresh₁⟩ := Transition.System.runWhere_some hrun₁
  obtain ⟨hrun₂, hfresh₂⟩ := Transition.System.runWhere_some hrun₂
  refine ⟨g₁, g₂, hrun₁, hfresh₁, revoked_of_test hrevoked, hrun₂, hfresh₂, hrequests, hservice,
    hbuilt, ?_⟩
  intro hcleared
  have hnone := hcleared.service (by
    intro n q _ hq _
    rw [hrequests] at hq
    rw [List.mem_singleton.mp (List.mem_of_getElem? hq)]
    exact ⟨.served, rfl⟩)
  rw [hservice] at hnone
  cases hnone

end Gateway

end Monoloop.Mcp
