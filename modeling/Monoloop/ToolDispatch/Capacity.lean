import Monoloop.Lifecycle.Capacity

/-!
# Tool capacity, one atomic operation at a time

`tool_capacity.rs` bounds running tools three times: over all transactions, within
a transaction and per tool. The shared count is an atomic with a compare-exchange
loop, the count of a transaction an atomic raised under the `per_tool` lock, the
count of a tool a number behind that lock. `dispatcher.rs` surrounds the
acquisition with a queue count of its own.

Every load, exchange, `fetch_add`, `fetch_sub` and locked section is a step here,
and any number of calls run at once. A call is its program counter; the dispatcher
calls the same operations, so a dispatch is a call with more of them.
-/

namespace Monoloop.ToolDispatch

open Lifecycle (fetchSub fetchSub_add_one)
open Transition (System always)

structure ToolSlot where
  maxConcurrent : Nat
  active : Nat
deriving DecidableEq

/-- Per-transaction tool capacity. `locked` is the state of the `per_tool` mutex. -/
structure TransactionToolCapacity where
  maxConcurrent : Nat
  maxQueued : Nat
  txnActive : Nat
  txnQueued : Nat
  perTool : HashMap ToolId ToolSlot
  locked : Bool

namespace TransactionToolCapacity

def new (maxConcurrent maxQueued : Nat) : TransactionToolCapacity where
  maxConcurrent := max maxConcurrent 1
  maxQueued := max maxQueued 1
  txnActive := 0
  txnQueued := 0
  perTool := ∅
  locked := false

def configureTool (txn : TransactionToolCapacity) (tool : ToolId) (maxConcurrent : Nat) :
    TransactionToolCapacity :=
  { txn with perTool := txn.perTool.insert tool ⟨max maxConcurrent 1, 0⟩ }

/-- `map.entry(tool_id).or_insert(..)`: an unconfigured tool runs once at a time. -/
def orInsert (txn : TransactionToolCapacity) (tool : ToolId) : TransactionToolCapacity :=
  match txn.perTool.lookup tool with
  | some _ => txn
  | none => { txn with perTool := txn.perTool.insert tool ⟨1, 0⟩ }

def slotActive (txn : TransactionToolCapacity) (tool : ToolId) : Nat :=
  ((txn.perTool.lookup tool).map (·.active)).getD 0

def slotMax (txn : TransactionToolCapacity) (tool : ToolId) : Option Nat :=
  (txn.perTool.lookup tool).map (·.maxConcurrent)

end TransactionToolCapacity

/-- The shared count and the capacity of every transaction. -/
structure ToolCapacities where
  sharedMax : Nat
  sharedActive : Nat
  txns : List TransactionToolCapacity

inductive ToolCounter where
  | shared
  | txn (t : Nat)
  | slot (t : Nat) (tool : ToolId)
deriving DecidableEq

namespace ToolCapacities

def new (max : Nat) : ToolCapacities := ⟨Nat.max max 1, 0, []⟩

def put (pools : ToolCapacities) (t : Nat) (txn : TransactionToolCapacity) : ToolCapacities :=
  { pools with txns := pools.txns.set t txn }

def count (pools : ToolCapacities) : ToolCounter → Nat
  | .shared => pools.sharedActive
  | .txn t => (pools.txns[t]?.map (·.txnActive)).getD 0
  | .slot t tool => (pools.txns[t]?.map (·.slotActive tool)).getD 0

/-- The maximum of a counter, if it exists. -/
def limit (pools : ToolCapacities) : ToolCounter → Option Nat
  | .shared => some pools.sharedMax
  | .txn t => pools.txns[t]?.map (·.maxConcurrent)
  | .slot t tool => pools.txns[t]?.bind (·.slotMax tool)

def queued (pools : ToolCapacities) (t : Nat) : Nat := (pools.txns[t]?.map (·.txnQueued)).getD 0

/-- One while the lock of a transaction is held. -/
def locks (pools : ToolCapacities) (t : Nat) : Nat := (pools.txns[t]?.any (·.locked)).toNat

end ToolCapacities

inductive CapacityKind where
  | tryEnqueue
  | dequeue
  | tryAcquire
  | dispatch
deriving DecidableEq, Repr

/-- How a call ended. -/
inductive CapacityEnd where
  | enqueued
  | queueFull
  | dequeued
  /-- `try_acquire` returned `None`. -/
  | refused
  /-- The dispatch returned `Rejected`. -/
  | rejected
  /-- The permit was dropped. -/
  | released
  /-- The dispatch future was dropped while it waited for capacity. -/
  | dropped
deriving DecidableEq, Repr

/-- The next operation of a call. -/
inductive CapacityPc where
  | loadQueued
  | casQueued (q : Nat)
  /-- `validate_tool_input`. -/
  | validate
  /-- `while Instant::now() < deadline`. -/
  | loopHead
  /-- `yield_now().await`. -/
  | yielded
  | subQueued
  /-- Lock `per_tool`, find the slot and check it. -/
  | lock
  | loadTxn
  | loadShared
  | casShared (cur : Nat)
  | raiseSlot
  | addTxn
  | takeQueued
  | unlock
  | unlockRefused
  | held
  /-- Drop of the permit. -/
  | releaseShared
  | releaseTxn
  | releaseSlot
  | finished (how : CapacityEnd)
deriving DecidableEq, Repr

/-- One call. `valid` is the outcome of the input validation of a dispatch. -/
structure CapacityCall where
  kind : CapacityKind
  txn : Nat
  tool : ToolId
  valid : Bool
  pc : CapacityPc
deriving DecidableEq

namespace CapacityCall

def goto (k : CapacityCall) (pc : CapacityPc) : CapacityCall := { k with pc }

/-- The first operation of a call. -/
def start : CapacityKind → CapacityPc
  | .tryEnqueue | .dispatch => .loadQueued
  | .dequeue => .subQueued
  | .tryAcquire => .lock

/-- After `try_enqueue`. -/
def afterEnqueue : CapacityKind → CapacityPc
  | .dispatch => .validate
  | _ => .finished .enqueued

/-- After a full queue. -/
def afterFull : CapacityKind → CapacityPc
  | .dispatch => .finished .rejected
  | _ => .finished .queueFull

/-- After `dequeue`. -/
def afterDequeue : CapacityKind → CapacityPc
  | .dispatch => .finished .rejected
  | _ => .finished .dequeued

/-- After `try_acquire` returned `None`. -/
def afterRefused : CapacityKind → CapacityPc
  | .dispatch => .yielded
  | _ => .finished .refused

/-- The counters a call has taken and not yet given back. -/
def owns (k : CapacityCall) : ToolCounter → Bool
  | .shared =>
      match k.pc with
      | .raiseSlot | .addTxn | .takeQueued | .unlock | .held | .releaseShared => true
      | _ => false
  | .txn t =>
      match k.pc with
      | .takeQueued | .unlock | .held | .releaseShared | .releaseTxn => t = k.txn
      | _ => false
  | .slot t tool =>
      match k.pc with
      | .addTxn | .takeQueued | .unlock | .held | .releaseShared | .releaseTxn | .releaseSlot =>
          t = k.txn ∧ tool = k.tool
      | _ => false

/-- The call is between the lock and the unlock of `per_tool`. -/
def holdsLock (k : CapacityCall) (t : Nat) : Bool :=
  match k.pc with
  | .loadTxn | .loadShared | .casShared _ | .raiseSlot | .addTxn | .takeQueued | .unlock
  | .unlockRefused => t = k.txn
  | _ => false

/-- The counters the call has checked, under the lock, and will raise. -/
def checked (k : CapacityCall) : ToolCounter → Bool
  | .shared => false
  | .txn t =>
      match k.pc with
      | .loadShared | .casShared _ | .raiseSlot | .addTxn => t = k.txn
      | _ => false
  | .slot t tool =>
      match k.pc with
      | .loadTxn | .loadShared | .casShared _ | .raiseSlot => t = k.txn ∧ tool = k.tool
      | _ => false

/-- The counter the next operation takes one off. -/
def subtracts (k : CapacityCall) : Option ToolCounter :=
  match k.pc with
  | .releaseShared => some .shared
  | .releaseTxn => some (.txn k.txn)
  | .releaseSlot => some (.slot k.txn k.tool)
  | _ => none

/-- The call owns nothing, has checked nothing and is outside the lock. -/
def idle (k : CapacityCall) : Bool :=
  match k.pc with
  | .loadQueued | .casQueued _ | .validate | .loopHead | .yielded | .subQueued | .lock
  | .finished _ => true
  | _ => false

/-- One operation of a call on its transaction; `none` while it waits for the lock
or for its owner. -/
def operateOn (pools : ToolCapacities) (k : CapacityCall) (txn : TransactionToolCapacity) :
    Option (ToolCapacities × CapacityCall) :=
  match k.pc with
  | .loadQueued =>
      if txn.maxQueued ≤ txn.txnQueued then some (pools, k.goto (afterFull k.kind))
      else some (pools, k.goto (.casQueued txn.txnQueued))
  | .casQueued q =>
      if txn.txnQueued = q then
        some (pools.put k.txn { txn with txnQueued := q + 1 }, k.goto (afterEnqueue k.kind))
      else some (pools, k.goto .loadQueued)
  | .validate => some (pools, k.goto (if k.valid then .loopHead else .subQueued))
  | .loopHead => some (pools, k.goto .lock)
  | .yielded => some (pools, k.goto .loopHead)
  | .subQueued =>
      some (pools.put k.txn { txn with txnQueued := fetchSub txn.txnQueued },
        k.goto (afterDequeue k.kind))
  | .lock =>
      if txn.locked then none
      else
        let txn := { txn.orInsert k.tool with locked := true }
        if (txn.slotMax k.tool).getD 0 ≤ txn.slotActive k.tool then
          some (pools.put k.txn txn, k.goto .unlockRefused)
        else some (pools.put k.txn txn, k.goto .loadTxn)
  | .loadTxn =>
      if txn.maxConcurrent ≤ txn.txnActive then some (pools, k.goto .unlockRefused)
      else some (pools, k.goto .loadShared)
  | .loadShared =>
      if pools.sharedMax ≤ pools.sharedActive then some (pools, k.goto .unlockRefused)
      else some (pools, k.goto (.casShared pools.sharedActive))
  | .casShared cur =>
      if pools.sharedActive = cur then
        some ({ pools with sharedActive := cur + 1 }, k.goto .raiseSlot)
      else some (pools, k.goto .loadShared)
  | .raiseSlot =>
      some (pools.put k.txn { txn with perTool := HashMap.modify txn.perTool k.tool fun slot =>
        { slot with active := slot.active + 1 } }, k.goto .addTxn)
  | .addTxn =>
      some (pools.put k.txn { txn with txnActive := txn.txnActive + 1 }, k.goto .takeQueued)
  | .takeQueued =>
      some (pools.put k.txn { txn with txnQueued := fetchSub txn.txnQueued }, k.goto .unlock)
  | .unlock => some (pools.put k.txn { txn with locked := false }, k.goto .held)
  | .unlockRefused =>
      some (pools.put k.txn { txn with locked := false }, k.goto (afterRefused k.kind))
  | .releaseShared =>
      some ({ pools with sharedActive := fetchSub pools.sharedActive }, k.goto .releaseTxn)
  | .releaseTxn =>
      some (pools.put k.txn { txn with txnActive := fetchSub txn.txnActive }, k.goto .releaseSlot)
  | .releaseSlot =>
      if txn.locked then none
      else
        some (pools.put k.txn { txn with perTool := HashMap.modify txn.perTool k.tool fun slot =>
          { slot with active := slot.active - 1 } }, k.goto (.finished .released))
  | .held | .finished _ => none

def operate (pools : ToolCapacities) (k : CapacityCall) : Option (ToolCapacities × CapacityCall) :=
  pools.txns[k.txn]?.bind (k.operateOn pools)

end CapacityCall

structure CapacityState where
  pools : ToolCapacities
  calls : List CapacityCall

inductive CapacityAction where
  /-- A transaction is created and its tools configured. -/
  | configure (maxConcurrent maxQueued : Nat) (tools : List (ToolId × Nat))
  | call (kind : CapacityKind) (txn : Nat) (tool : ToolId) (valid : Bool)
  | operate (n : Nat)
  /-- The 50 ms of a dispatch are over. -/
  | expire (n : Nat)
  /-- A dispatch future is dropped at its `yield_now().await`. -/
  | abandon (n : Nat)
  /-- The permit of a call is dropped. -/
  | release (n : Nat)
deriving DecidableEq

namespace CapacityState

/-- A call moves on without touching a counter. -/
def skip (s : CapacityState) (n : Nat) (src dst : CapacityPc) : Option CapacityState :=
  s.calls[n]?.bind fun k =>
    if k.pc = src then some { s with calls := s.calls.set n (k.goto dst) } else none

def step : CapacityAction → CapacityState → Option CapacityState
  | .configure maxConcurrent maxQueued tools, s =>
      let txn := tools.foldl (fun txn (tool, max) => txn.configureTool tool max)
        (TransactionToolCapacity.new maxConcurrent maxQueued)
      some { s with pools := { s.pools with txns := s.pools.txns ++ [txn] } }
  | .call kind txn tool valid, s =>
      some { s with calls := s.calls ++ [⟨kind, txn, tool, valid, CapacityCall.start kind⟩] }
  | .operate n, s =>
      s.calls[n]?.bind fun k => (k.operate s.pools).map fun (pools, k') =>
        { pools, calls := s.calls.set n k' }
  | .expire n, s => s.skip n .loopHead .subQueued
  | .abandon n, s => s.skip n .yielded (.finished .dropped)
  | .release n, s => s.skip n .held .releaseShared

end CapacityState

/-- Concurrent calls on capacities that start with no transaction. -/
def toolCapacity : System CapacityState CapacityAction where
  init s := s.calls = [] ∧ ∃ max, s.pools = .new max
  step := CapacityState.step

/-! ## What one operation does -/

section Operate

variable {pools pools' : ToolCapacities} {k k' : CapacityCall} {t : Nat} {pc : CapacityPc}
  {txn txn' : TransactionToolCapacity}

theorem get_put (h : pools.txns[t]? = some txn) (u : Nat) :
    (pools.put t txn').txns[u]? = if u = t then some txn' else pools.txns[u]? := by
  obtain ⟨hlt, -⟩ := List.getElem?_eq_some_iff.mp h
  unfold ToolCapacities.put
  by_cases hu : u = t
  · subst hu
    rw [if_pos rfl]
    exact List.getElem?_set_self hlt
  · rw [if_neg hu]
    exact List.getElem?_set_ne (Ne.symm hu)

theorem count_put_txn (hget : pools.txns[t]? = some txn) (u : Nat) :
    (pools.put t txn').count (.txn u) =
      if u = t then txn'.txnActive else pools.count (.txn u) := by
  show ((pools.put t txn').txns[u]?.map (·.txnActive)).getD 0 = _
  rw [get_put hget]
  split <;> rfl

theorem count_put_slot (hget : pools.txns[t]? = some txn) (u : Nat) (tool : ToolId) :
    (pools.put t txn').count (.slot u tool) =
      if u = t then txn'.slotActive tool else pools.count (.slot u tool) := by
  show ((pools.put t txn').txns[u]?.map (·.slotActive tool)).getD 0 = _
  rw [get_put hget]
  split <;> rfl

theorem limit_put_txn (hget : pools.txns[t]? = some txn) (u : Nat) :
    (pools.put t txn').limit (.txn u) =
      if u = t then some txn'.maxConcurrent else pools.limit (.txn u) := by
  show (pools.put t txn').txns[u]?.map (·.maxConcurrent) = _
  rw [get_put hget]
  split <;> rfl

theorem limit_put_slot (hget : pools.txns[t]? = some txn) (u : Nat) (tool : ToolId) :
    (pools.put t txn').limit (.slot u tool) =
      if u = t then txn'.slotMax tool else pools.limit (.slot u tool) := by
  show (pools.put t txn').txns[u]?.bind (·.slotMax tool) = _
  rw [get_put hget]
  split <;> rfl

theorem locks_put (hget : pools.txns[t]? = some txn) (u : Nat) :
    (pools.put t txn').locks u = if u = t then txn'.locked.toNat else pools.locks u := by
  unfold ToolCapacities.locks
  rw [get_put hget]
  by_cases hu : u = t
  · rw [if_pos hu, if_pos hu]
    rfl
  · rw [if_neg hu, if_neg hu]

/-- The counters of one transaction, read off its capacity. -/
theorem counters_get (hget : pools.txns[t]? = some txn) :
    pools.count (.txn t) = txn.txnActive ∧ pools.limit (.txn t) = some txn.maxConcurrent ∧
      pools.locks t = txn.locked.toNat ∧
      ∀ tool, pools.count (.slot t tool) = txn.slotActive tool ∧
        pools.limit (.slot t tool) = txn.slotMax tool := by
  refine ⟨?_, ?_, ?_, fun tool => ⟨?_, ?_⟩⟩
  · show (pools.txns[t]?.map (·.txnActive)).getD 0 = _
    rw [hget]
    rfl
  · show pools.txns[t]?.map (·.maxConcurrent) = _
    rw [hget]
    rfl
  · show (pools.txns[t]?.any (·.locked)).toNat = _
    rw [hget]
    rfl
  · show (pools.txns[t]?.map (·.slotActive tool)).getD 0 = _
    rw [hget]
    rfl
  · show pools.txns[t]?.bind (·.slotMax tool) = _
    rw [hget]
    rfl

/-- The counters move with what the call that operates owns; a counter goes up only
if it was checked under the lock or is the shared one below its maximum. -/
structure Shifts (pools pools' : ToolCapacities) (k k' : CapacityCall) : Prop where
  txn : k'.txn = k.txn
  count : ∀ c, pools'.count c + (k.owns c).toNat = pools.count c + (k'.owns c).toNat
  limit : ∀ c m, pools'.limit c = some m →
    pools.limit c = some m ∨ (pools'.count c = 0 ∧ m = 1)
  kept : ∀ c m, pools.limit c = some m → pools'.limit c = some m
  raised : ∀ c, pools'.count c ≤ pools.count c ∨ k.checked c = true ∨
    (c = .shared ∧ k.pc = .casShared pools.sharedActive)
  checked : ∀ c, k'.checked c = true →
    k.checked c = true ∧ pools'.count c = pools.count c ∨
      ∃ m, pools'.limit c = some m ∧ pools'.count c < m
  lock : ∀ u, pools'.locks u + (k.holdsLock u).toNat = pools.locks u + (k'.holdsLock u).toNat
  expected : ∀ cur, k'.pc = .casShared cur → cur < pools'.sharedMax
  sharedMax : pools'.sharedMax = pools.sharedMax

/-- The transaction of the call, rewritten without a change to what it counts. -/
structure SameCounts (txn txn' : TransactionToolCapacity) : Prop where
  active : txn'.txnActive = txn.txnActive
  max : txn'.maxConcurrent = txn.maxConcurrent
  slotActive : ∀ tool, txn'.slotActive tool = txn.slotActive tool
  slotMax : ∀ tool, txn'.slotMax tool = txn.slotMax tool ∨
    (txn.slotMax tool = none ∧ txn'.slotActive tool = 0 ∧ txn'.slotMax tool = some 1)

theorem SameCounts.count (h : SameCounts txn txn') (hget : pools.txns[t]? = some txn)
    (c : ToolCounter) : (pools.put t txn').count c = pools.count c := by
  obtain ⟨hactive, -, -, hslots⟩ := counters_get hget
  cases c with
  | shared => rfl
  | txn u =>
      rw [count_put_txn hget]
      by_cases hu : u = t
      · rw [if_pos hu, h.active, hu, hactive]
      · rw [if_neg hu]
  | slot u tool =>
      rw [count_put_slot hget]
      by_cases hu : u = t
      · rw [if_pos hu, h.slotActive, hu, (hslots tool).1]
      · rw [if_neg hu]

theorem SameCounts.limit (h : SameCounts txn txn') (hget : pools.txns[t]? = some txn)
    (c : ToolCounter) (m : Nat) (hm : (pools.put t txn').limit c = some m) :
    pools.limit c = some m ∨ ((pools.put t txn').count c = 0 ∧ m = 1) := by
  obtain ⟨-, hmax, -, hslots⟩ := counters_get hget
  cases c with
  | shared => exact .inl hm
  | txn u =>
      left
      rw [limit_put_txn hget] at hm
      by_cases hu : u = t
      · rw [if_pos hu, h.max] at hm
        rw [hu, hmax]
        exact hm
      · rw [if_neg hu] at hm
        exact hm
  | slot u tool =>
      rw [limit_put_slot hget] at hm
      rw [count_put_slot hget]
      by_cases hu : u = t
      · rw [if_pos hu] at hm ⊢
        rcases h.slotMax tool with hsame | ⟨-, hzero, hone⟩
        · left
          rw [hu, (hslots tool).2, ← hsame]
          exact hm
        · right
          rw [hone] at hm
          cases hm
          exact ⟨hzero, rfl⟩
      · rw [if_neg hu] at hm
        exact .inl hm

theorem SameCounts.kept (h : SameCounts txn txn') (hget : pools.txns[t]? = some txn)
    (c : ToolCounter) (m : Nat) (hm : pools.limit c = some m) :
    (pools.put t txn').limit c = some m := by
  obtain ⟨-, hmax, -, hslots⟩ := counters_get hget
  cases c with
  | shared => exact hm
  | txn u =>
      rw [limit_put_txn hget]
      by_cases hu : u = t
      · rw [if_pos hu, h.max]
        rw [hu, hmax] at hm
        exact hm
      · rw [if_neg hu]
        exact hm
  | slot u tool =>
      rw [limit_put_slot hget]
      by_cases hu : u = t
      · rw [if_pos hu]
        rw [hu, (hslots tool).2] at hm
        rcases h.slotMax tool with hsame | ⟨hnone, -⟩
        · rw [hsame]
          exact hm
        · rw [hnone] at hm
          cases hm
      · rw [if_neg hu]
        exact hm

/-- An operation that counts nothing: it moves the call and at most the lock. -/
theorem Shifts.stay (hget : pools.txns[k.txn]? = some txn) (hsame : SameCounts txn txn')
    (howns : ∀ c, (k.goto pc).owns c = k.owns c)
    (hchecked : ∀ c, (k.goto pc).checked c = true → k.checked c = true ∨
      ∃ m, (pools.put k.txn txn').limit c = some m ∧ (pools.put k.txn txn').count c < m)
    (hlock : ∀ u, (if u = k.txn then txn'.locked.toNat else pools.locks u) +
      (k.holdsLock u).toNat = pools.locks u + ((k.goto pc).holdsLock u).toNat)
    (hexpected : ∀ cur, pc = .casShared cur → cur < pools.sharedMax) :
    Shifts pools (pools.put k.txn txn') k (k.goto pc) where
  txn := rfl
  count c := by rw [hsame.count hget, howns]
  limit := hsame.limit hget
  kept := hsame.kept hget
  raised c := .inl (Nat.le_of_eq (hsame.count hget c))
  checked c hc := by
    rcases hchecked c hc with hbefore | hroom
    · exact .inl ⟨hbefore, hsame.count hget c⟩
    · exact .inr hroom
  lock u := by
    rw [locks_put hget]
    exact hlock u
  expected := hexpected
  sharedMax := rfl

/-- An operation that only reads, or an exchange that fails. -/
theorem Shifts.read (howns : ∀ c, (k.goto pc).owns c = k.owns c)
    (hchecked : ∀ c, (k.goto pc).checked c = true → k.checked c = true ∨
      ∃ m, pools.limit c = some m ∧ pools.count c < m)
    (hlock : ∀ u, (k.goto pc).holdsLock u = k.holdsLock u)
    (hexpected : ∀ cur, pc = .casShared cur → cur < pools.sharedMax) :
    Shifts pools pools k (k.goto pc) where
  txn := rfl
  count c := by rw [howns]
  limit _ _ hm := .inl hm
  kept _ _ hm := hm
  raised c := .inl (Nat.le_refl _)
  checked c hc := by
    rcases hchecked c hc with hbefore | hroom
    · exact .inl ⟨hbefore, rfl⟩
    · exact .inr hroom
  lock u := by rw [hlock]
  expected := hexpected
  sharedMax := rfl

/-- An operation that raises one counter. -/
theorem Shifts.raise (c₀ : ToolCounter)
    (hmay : k.checked c₀ = true ∨ (c₀ = .shared ∧ k.pc = .casShared pools.sharedActive))
    (hcount : ∀ c, pools'.count c = pools.count c + if c = c₀ then 1 else 0)
    (hlimit : ∀ c, pools'.limit c = pools.limit c) (hlocks : ∀ u, pools'.locks u = pools.locks u)
    (hmax : pools'.sharedMax = pools.sharedMax)
    (howns : ∀ c, ((k.goto pc).owns c).toNat = (k.owns c).toNat + if c = c₀ then 1 else 0)
    (hchecked : ∀ c, (k.goto pc).checked c = true → k.checked c = true ∧ c ≠ c₀)
    (hlock : ∀ u, (k.goto pc).holdsLock u = k.holdsLock u)
    (hpc : ∀ cur, pc ≠ .casShared cur) : Shifts pools pools' k (k.goto pc) where
  txn := rfl
  count c := by
    rw [hcount, howns]
    omega
  limit c m hm := .inl ((hlimit c).symm.trans hm)
  kept c m hm := (hlimit c).trans hm
  raised c := by
    by_cases hc : c = c₀
    · subst hc
      exact .inr hmay
    · left
      rw [hcount, if_neg hc]
      omega
  checked c hc := by
    obtain ⟨hbefore, hne⟩ := hchecked c hc
    left
    rw [hcount, if_neg hne]
    exact ⟨hbefore, rfl⟩
  lock u := by rw [hlocks, hlock]
  expected cur hcur := absurd hcur (hpc cur)
  sharedMax := hmax

/-- An operation that takes one off a counter. -/
theorem Shifts.lower (c₀ : ToolCounter)
    (hcount : ∀ c, (pools'.count c + if c = c₀ then 1 else 0) = pools.count c)
    (hlimit : ∀ c, pools'.limit c = pools.limit c) (hlocks : ∀ u, pools'.locks u = pools.locks u)
    (hmax : pools'.sharedMax = pools.sharedMax)
    (howns : ∀ c, (((k.goto pc).owns c).toNat + if c = c₀ then 1 else 0) = (k.owns c).toNat)
    (hchecked : ∀ c, (k.goto pc).checked c = false)
    (hlock : ∀ u, (k.goto pc).holdsLock u = k.holdsLock u)
    (hpc : ∀ cur, pc ≠ .casShared cur) : Shifts pools pools' k (k.goto pc) where
  txn := rfl
  count c := by
    rw [← hcount, ← howns]
    omega
  limit c m hm := .inl ((hlimit c).symm.trans hm)
  kept c m hm := (hlimit c).trans hm
  raised c := by
    left
    rw [← hcount]
    omega
  checked c hc := by
    rw [hchecked] at hc
    cases hc
  lock u := by rw [hlocks, hlock]
  expected cur hcur := absurd hcur (hpc cur)
  sharedMax := hmax

/-- A transaction rewritten in its own count or in the count of one tool. -/
theorem counters_put (txn' : TransactionToolCapacity) (hget : pools.txns[t]? = some txn)
    (hmax : txn'.maxConcurrent = txn.maxConcurrent)
    (hslotMax : ∀ tool, txn'.slotMax tool = txn.slotMax tool) (hlocked : txn'.locked = txn.locked) :
    (∀ c, (pools.put t txn').limit c = pools.limit c) ∧
      ∀ u, (pools.put t txn').locks u = pools.locks u := by
  obtain ⟨-, hmax₀, hlocks₀, hslots⟩ := counters_get hget
  constructor
  · intro c
    cases c with
    | shared => rfl
    | txn u =>
        rw [limit_put_txn hget]
        by_cases hu : u = t
        · rw [if_pos hu, hmax, hu, hmax₀]
        · rw [if_neg hu]
    | slot u tool =>
        rw [limit_put_slot hget]
        by_cases hu : u = t
        · rw [if_pos hu, hslotMax, hu, (hslots tool).2]
        · rw [if_neg hu]
  · intro u
    rw [locks_put hget]
    by_cases hu : u = t
    · rw [if_pos hu, hlocked, hu, hlocks₀]
    · rw [if_neg hu]

/-- A slot rewritten in its count. -/
theorem slot_modify (txn : TransactionToolCapacity) (tool : ToolId) (f : Nat → Nat)
    (other : ToolId) :
    let txn' := { txn with perTool := HashMap.modify txn.perTool tool fun slot =>
      { slot with active := f slot.active } }
    txn'.slotMax other = txn.slotMax other ∧
      txn'.slotActive other = if other = tool then
        ((txn.perTool.lookup tool).map fun slot => f slot.active).getD 0
      else txn.slotActive other := by
  unfold TransactionToolCapacity.slotMax TransactionToolCapacity.slotActive
  dsimp only
  rw [HashMap.lookup_modify]
  by_cases ho : other = tool
  · subst ho
    rw [if_pos rfl, if_pos rfl]
    cases txn.perTool.lookup other <;> exact ⟨rfl, rfl⟩
  · rw [if_neg ho, if_neg ho]
    exact ⟨rfl, rfl⟩

/-- A write of the transaction's own count. -/
theorem put_txnActive (hget : pools.txns[t]? = some txn) (n : Nat) :
    let pools' := pools.put t { txn with txnActive := n }
    (∀ c, pools'.count c = if c = .txn t then n else pools.count c) ∧
      (∀ c, pools'.limit c = pools.limit c) ∧ ∀ u, pools'.locks u = pools.locks u := by
  obtain ⟨-, -, -, hslots⟩ := counters_get hget
  refine ⟨?_, counters_put _ hget rfl (fun _ => rfl) rfl⟩
  intro c
  cases c with
  | shared => rfl
  | txn u =>
      rw [count_put_txn hget]
      by_cases hu : u = t
      · rw [if_pos hu, if_pos (congrArg ToolCounter.txn hu)]
      · rw [if_neg hu, if_neg (by simpa using hu)]
  | slot u tool' =>
      rw [count_put_slot hget, if_neg (by simp : ¬ ToolCounter.slot u tool' = .txn t)]
      by_cases hu : u = t
      · rw [if_pos hu, hu, (hslots tool').1]
        rfl
      · rw [if_neg hu]

/-- A write of the count of one tool. -/
theorem put_slotActive {tool : ToolId} {slot : ToolSlot} (hget : pools.txns[t]? = some txn)
    (hlookup : txn.perTool.lookup tool = some slot) (f : Nat → Nat) :
    let pools' := pools.put t { txn with perTool := HashMap.modify txn.perTool tool fun slot =>
      { slot with active := f slot.active } }
    (∀ c, pools'.count c = if c = .slot t tool then f slot.active else pools.count c) ∧
      (∀ c, pools'.limit c = pools.limit c) ∧ ∀ u, pools'.locks u = pools.locks u := by
  obtain ⟨hactive, -, -, hslots⟩ := counters_get hget
  have hmodify := slot_modify txn tool f
  refine ⟨?_, counters_put _ hget rfl (fun other => (hmodify other).1) rfl⟩
  intro c
  cases c with
  | shared => rfl
  | txn u =>
      rw [count_put_txn hget, if_neg (by simp : ¬ ToolCounter.txn u = .slot t tool)]
      by_cases hu : u = t
      · rw [if_pos hu, hu, hactive]
      · rw [if_neg hu]
  | slot u tool' =>
      rw [count_put_slot hget]
      by_cases hu : u = t
      · subst hu
        rw [if_pos rfl, (hmodify tool').2]
        by_cases htool : tool' = tool
        · rw [if_pos htool, if_pos (by rw [htool]), hlookup]
          rfl
        · rw [if_neg htool, if_neg (by simpa using htool), (hslots tool').1]
      · rw [if_neg hu, if_neg (by simp [hu])]

theorem sameCounts_orInsert (txn : TransactionToolCapacity) (tool : ToolId) (locked : Bool) :
    SameCounts txn { txn.orInsert tool with locked := locked } ∧
      ∃ m, ({ txn.orInsert tool with locked := locked } : TransactionToolCapacity).slotMax tool =
        some m := by
  unfold TransactionToolCapacity.orInsert
  cases hslot : txn.perTool.lookup tool with
  | some slot =>
      refine ⟨⟨rfl, rfl, fun _ => rfl, fun _ => .inl rfl⟩, slot.maxConcurrent, ?_⟩
      simp [TransactionToolCapacity.slotMax, hslot]
  | none =>
      refine ⟨⟨rfl, rfl, ?_, ?_⟩, 1, ?_⟩
      · intro other
        unfold TransactionToolCapacity.slotActive
        dsimp only
        rw [HashMap.lookup_insert_ite]
        by_cases ho : other = tool
        · rw [if_pos ho, ho, hslot]
          rfl
        · rw [if_neg ho]
      · intro other
        unfold TransactionToolCapacity.slotActive TransactionToolCapacity.slotMax
        dsimp only
        rw [HashMap.lookup_insert_ite]
        by_cases ho : other = tool
        · right
          rw [if_pos ho, ho, hslot]
          exact ⟨rfl, rfl, rfl⟩
        · left
          rw [if_neg ho]
      · unfold TransactionToolCapacity.slotMax
        dsimp only
        rw [HashMap.lookup_insert_ite, if_pos rfl]
        rfl

/-- A rewrite of the queue count alone. -/
theorem sameCounts_queued (txn : TransactionToolCapacity) (q : Nat) :
    SameCounts txn { txn with txnQueued := q } := ⟨rfl, rfl, fun _ => rfl, fun _ => .inl rfl⟩

theorem sameCounts_unlock (txn : TransactionToolCapacity) :
    SameCounts txn { txn with locked := false } := ⟨rfl, rfl, fun _ => rfl, fun _ => .inl rfl⟩

/-- The lock stays as it is. -/
theorem locks_same (hget : pools.txns[k.txn]? = some txn) (hlocked : txn'.locked = txn.locked)
    (hholds : ∀ u, (k.goto pc).holdsLock u = k.holdsLock u) (u : Nat) :
    (if u = k.txn then txn'.locked.toNat else pools.locks u) + (k.holdsLock u).toNat =
      pools.locks u + ((k.goto pc).holdsLock u).toNat := by
  rw [hholds]
  by_cases hu : u = k.txn
  · rw [if_pos hu, hlocked, hu, (counters_get hget).2.2.1]
  · rw [if_neg hu]

/-- The call gives the lock back. -/
theorem locks_unlock (hlocked : pools.locks k.txn = 1) (hholds : ∀ u, k.holdsLock u = decide (u = k.txn))
    (hfree : ∀ u, (k.goto pc).holdsLock u = false) (u : Nat) :
    (if u = k.txn then false.toNat else pools.locks u) + (k.holdsLock u).toNat =
      pools.locks u + ((k.goto pc).holdsLock u).toNat := by
  rw [hholds, hfree]
  by_cases hu : u = k.txn
  · rw [if_pos hu, hu, hlocked]
    simp
  · rw [if_neg hu]
    simp [hu]

theorem idle_spec (h : k.idle = true) :
    (∀ c, k.owns c = false) ∧ (∀ c, k.checked c = false) ∧ ∀ u, k.holdsLock u = false := by
  obtain ⟨kind, t, tool, valid, pc⟩ := k
  cases pc with
  | loadTxn => cases h
  | loadShared => cases h
  | casShared cur => cases h
  | raiseSlot => cases h
  | addTxn => cases h
  | takeQueued => cases h
  | unlock => cases h
  | unlockRefused => cases h
  | held => cases h
  | releaseShared => cases h
  | releaseTxn => cases h
  | releaseSlot => cases h
  | _ => exact ⟨fun c => by cases c <;> rfl, fun c => by cases c <;> rfl, fun u => rfl⟩

theorem idle_after (k : CapacityCall) : (k.goto (CapacityCall.afterEnqueue k.kind)).idle = true ∧
    (k.goto (CapacityCall.afterFull k.kind)).idle = true ∧
    (k.goto (CapacityCall.afterDequeue k.kind)).idle = true ∧
    (k.goto (CapacityCall.afterRefused k.kind)).idle = true := by
  obtain ⟨kind, t, tool, valid, pc⟩ := k
  cases kind <;> exact ⟨rfl, rfl, rfl, rfl⟩

/-- A move between two idle points, with or without a rewrite of the queue count. -/
theorem Shifts.idle (hget : pools.txns[k.txn]? = some txn) (hsame : SameCounts txn txn')
    (hlocked : txn'.locked = txn.locked) (hfrom : k.idle = true) (hto : (k.goto pc).idle = true) :
    Shifts pools (pools.put k.txn txn') k (k.goto pc) := by
  obtain ⟨howns, -, hholds⟩ := idle_spec hfrom
  obtain ⟨howns', hchecked', hholds'⟩ := idle_spec hto
  refine .stay hget hsame ?_ ?_ ?_ ?_
  · intro c
    rw [howns, howns']
  · intro c hc
    rw [hchecked'] at hc
    cases hc
  · apply locks_same hget hlocked
    intro u
    rw [hholds, hholds']
  · rintro cur rfl
    cases hto

theorem Shifts.idleRead (hfrom : k.idle = true) (hto : (k.goto pc).idle = true) :
    Shifts pools pools k (k.goto pc) := by
  obtain ⟨howns, -, hholds⟩ := idle_spec hfrom
  obtain ⟨howns', hchecked', hholds'⟩ := idle_spec hto
  refine .read ?_ ?_ ?_ ?_
  · intro c
    rw [howns, howns']
  · intro c hc
    rw [hchecked'] at hc
    cases hc
  · intro u
    rw [hholds, hholds']
  · rintro cur rfl
    cases hto

/-- **One operation**, given that a decrement does not meet zero, that the slot to
raise exists and that a call in the locked section has the lock. -/
theorem operate_shifts (h : k.operate pools = some (pools', k'))
    (hslot : k.pc = .raiseSlot → ∃ m, pools.limit (.slot k.txn k.tool) = some m)
    (hsub : ∀ c, k.subtracts = some c → 0 < pools.count c)
    (hlocked : ∀ u, k.holdsLock u = true → pools.locks u = 1) : Shifts pools pools' k k' := by
  obtain ⟨txn, hget, h⟩ := Option.bind_eq_some_iff.mp h
  obtain ⟨hactive, hmax, hlocks, hslots⟩ := counters_get hget
  obtain ⟨kind, t, tool, valid, pc⟩ := k
  cases pc with
  | loadQueued =>
      simp only [CapacityCall.operateOn] at h
      split at h
      · cases h
        exact .idleRead rfl (idle_after _).2.1
      · cases h
        exact .idleRead rfl rfl
  | casQueued q =>
      simp only [CapacityCall.operateOn] at h
      split at h
      · cases h
        exact .idle hget (sameCounts_queued _ _) rfl rfl (idle_after _).1
      · cases h
        exact .idleRead rfl rfl
  | validate =>
      simp only [CapacityCall.operateOn] at h
      cases h
      refine .idleRead rfl ?_
      cases valid <;> rfl
  | loopHead =>
      simp only [CapacityCall.operateOn] at h
      cases h
      exact .idleRead rfl rfl
  | yielded =>
      simp only [CapacityCall.operateOn] at h
      cases h
      exact .idleRead rfl rfl
  | subQueued =>
      simp only [CapacityCall.operateOn] at h
      cases h
      exact .idle hget (sameCounts_queued _ _) rfl rfl (idle_after _).2.2.1
  | lock =>
      simp only [CapacityCall.operateOn] at h
      split at h
      · cases h
      · rename_i hfree
        have hfree : txn.locked = false := by simpa using hfree
        obtain ⟨hsame, m, hm⟩ := sameCounts_orInsert txn tool true
        have htake : ∀ pc u, (∀ v, (CapacityCall.holdsLock ⟨kind, t, tool, valid, pc⟩ v) =
            decide (v = t)) →
            (if u = t then true.toNat else pools.locks u) +
              (CapacityCall.holdsLock ⟨kind, t, tool, valid, .lock⟩ u).toNat =
            pools.locks u + (CapacityCall.holdsLock ⟨kind, t, tool, valid, pc⟩ u).toNat := by
          intro pc u hholds
          rw [hholds]
          by_cases hu : u = t
          · rw [if_pos hu, hu, hlocks, hfree]
            simp [CapacityCall.holdsLock]
          · rw [if_neg hu]
            simp [CapacityCall.holdsLock, hu]
        split at h
        · cases h
          refine .stay hget hsame (fun c => by cases c <;> rfl) ?_ ?_ (fun _ hcur => by cases hcur)
          · intro c hc
            cases c <;> cases hc
          · intro u
            exact htake .unlockRefused u (fun _ => rfl)
        · rename_i hroom
          cases h
          refine .stay hget hsame (fun c => by cases c <;> rfl) ?_ ?_ (fun _ hcur => by cases hcur)
          · intro c hc
            right
            cases c with
            | shared => cases hc
            | txn u => cases hc
            | slot u tool' =>
                obtain ⟨rfl, rfl⟩ : u = t ∧ tool' = tool := of_decide_eq_true hc
                refine ⟨m, ?_, ?_⟩
                · rw [limit_put_slot hget, if_pos rfl]
                  exact hm
                · rw [count_put_slot hget, if_pos rfl]
                  rw [hm] at hroom
                  simpa using hroom
          · intro u
            exact htake .loadTxn u (fun _ => rfl)
  | loadTxn =>
      simp only [CapacityCall.operateOn] at h
      split at h
      · cases h
        refine .read (fun c => by cases c <;> rfl) ?_ (fun _ => rfl) (fun _ hcur => by cases hcur)
        intro c hc
        cases c <;> cases hc
      · rename_i hroom
        cases h
        refine .read (fun c => by cases c <;> rfl) ?_ (fun _ => rfl) (fun _ hcur => by cases hcur)
        intro c hc
        cases c with
        | shared => cases hc
        | txn u =>
            right
            obtain rfl : u = t := of_decide_eq_true hc
            refine ⟨txn.maxConcurrent, hmax, ?_⟩
            rw [hactive]
            omega
        | slot u tool' => exact .inl hc
  | loadShared =>
      simp only [CapacityCall.operateOn] at h
      split at h
      · cases h
        refine .read (fun c => by cases c <;> rfl) ?_ (fun _ => rfl) (fun _ hcur => by cases hcur)
        intro c hc
        cases c <;> cases hc
      · rename_i hroom
        cases h
        refine .read (fun c => by cases c <;> rfl) ?_ (fun _ => rfl) ?_
        · intro c hc
          left
          cases c <;> exact hc
        · intro cur hcur
          cases hcur
          omega
  | casShared cur =>
      simp only [CapacityCall.operateOn] at h
      split at h
      · rename_i hcur
        subst hcur
        cases h
        refine .raise .shared (.inr ⟨rfl, rfl⟩) ?_ (fun c => by cases c <;> rfl) (fun _ => rfl) rfl
          ?_ ?_ (fun _ => rfl) (fun _ hcur => by cases hcur)
        · intro c
          cases c <;> rfl
        · intro c
          cases c <;> rfl
        · intro c hc
          cases c with
          | shared => cases hc
          | txn u => exact ⟨hc, by simp⟩
          | slot u tool' => exact ⟨hc, by simp⟩
      · cases h
        refine .read (fun c => by cases c <;> rfl) ?_ (fun _ => rfl) (fun _ hcur => by cases hcur)
        intro c hc
        left
        cases c <;> exact hc
  | raiseSlot =>
      simp only [CapacityCall.operateOn] at h
      cases h
      obtain ⟨m, hm⟩ := hslot rfl
      have hm : txn.slotMax tool = some m := (hslots tool).2.symm.trans hm
      obtain ⟨slot, hlookup, -⟩ := Option.map_eq_some_iff.mp hm
      have hone : pools.count (.slot t tool) = slot.active := by
        rw [(hslots tool).1]
        simp [TransactionToolCapacity.slotActive, hlookup]
      obtain ⟨hcount, hlimit, hlocks'⟩ := put_slotActive hget hlookup (· + 1)
      refine .raise (.slot t tool) (.inl (decide_eq_true ⟨rfl, rfl⟩)) ?_ hlimit hlocks' rfl ?_
        ?_ (fun _ => rfl) (fun _ hcur => by cases hcur)
      · intro c
        refine (hcount c).trans ?_
        by_cases hc : c = .slot t tool
        · rw [if_pos hc, if_pos hc, hc, hone]
        · rw [if_neg hc, if_neg hc]
          rfl
      · intro c
        cases c with
        | shared => rfl
        | txn u => rfl
        | slot u tool' =>
            by_cases hsame : u = t ∧ tool' = tool
            · simp [CapacityCall.owns, CapacityCall.goto, hsame]
            · simp [CapacityCall.owns, CapacityCall.goto, hsame]
      · intro c hc
        cases c with
        | shared => cases hc
        | txn u => exact ⟨hc, by simp⟩
        | slot u tool' => cases hc
  | addTxn =>
      simp only [CapacityCall.operateOn] at h
      cases h
      obtain ⟨hcount, hlimit, hlocks'⟩ := put_txnActive hget (txn.txnActive + 1)
      refine .raise (.txn t) (.inl (decide_eq_true rfl)) ?_ hlimit hlocks' rfl ?_ ?_
        (fun _ => rfl) (fun _ hcur => by cases hcur)
      · intro c
        refine (hcount c).trans ?_
        by_cases hc : c = .txn t
        · rw [if_pos hc, if_pos hc, hc, hactive]
        · rw [if_neg hc, if_neg hc]
          rfl
      · intro c
        cases c with
        | shared => rfl
        | txn u =>
            by_cases hu : u = t
            · simp [CapacityCall.owns, CapacityCall.goto, hu]
            · simp [CapacityCall.owns, CapacityCall.goto, hu]
        | slot u tool' => rfl
      · intro c hc
        cases c <;> cases hc
  | takeQueued =>
      simp only [CapacityCall.operateOn] at h
      cases h
      refine .stay hget (sameCounts_queued _ _) (fun c => by cases c <;> rfl) ?_
        (locks_same hget rfl (fun _ => rfl)) (fun _ hcur => by cases hcur)
      intro c hc
      cases c <;> cases hc
  | unlock =>
      simp only [CapacityCall.operateOn] at h
      cases h
      refine .stay hget (sameCounts_unlock _) (fun c => by cases c <;> rfl) ?_
        (locks_unlock (hlocked t (decide_eq_true rfl)) (fun _ => rfl) (fun _ => rfl))
        (fun _ hcur => by cases hcur)
      intro c hc
      cases c <;> cases hc
  | unlockRefused =>
      simp only [CapacityCall.operateOn] at h
      cases h
      obtain ⟨howns, hchecked, hholds⟩ :=
        idle_spec (idle_after ⟨kind, t, tool, valid, .unlockRefused⟩).2.2.2
      refine .stay hget (sameCounts_unlock _) ?_ ?_
        (locks_unlock (hlocked t (decide_eq_true rfl)) (fun _ => rfl) hholds) ?_
      · intro c
        rw [howns]
        cases c <;> rfl
      · intro c hc
        rw [hchecked] at hc
        cases hc
      · intro cur hcur
        cases kind <;> cases hcur
  | held =>
      simp only [CapacityCall.operateOn] at h
      cases h
  | releaseShared =>
      simp only [CapacityCall.operateOn] at h
      cases h
      have hpos : 0 < pools.sharedActive := hsub .shared rfl
      refine .lower .shared ?_ (fun c => by cases c <;> rfl) (fun _ => rfl) rfl ?_
        (fun c => by cases c <;> rfl) (fun _ => rfl) (fun _ hcur => by cases hcur)
      · intro c
        cases c with
        | shared => exact fetchSub_add_one hpos
        | txn u => rfl
        | slot u tool' => rfl
      · intro c
        cases c <;> rfl
  | releaseTxn =>
      simp only [CapacityCall.operateOn] at h
      cases h
      have hpos : 0 < txn.txnActive := hactive ▸ hsub (.txn t) rfl
      obtain ⟨hcount, hlimit, hlocks'⟩ := put_txnActive hget (fetchSub txn.txnActive)
      refine .lower (.txn t) ?_ hlimit hlocks' rfl ?_ (fun c => by cases c <;> rfl) (fun _ => rfl)
        (fun _ hcur => by cases hcur)
      · intro c
        rw [hcount c]
        by_cases hc : c = .txn t
        · rw [if_pos hc, if_pos hc, hc, hactive]
          exact fetchSub_add_one hpos
        · rw [if_neg hc, if_neg hc]
          rfl
      · intro c
        cases c with
        | shared => rfl
        | txn u =>
            by_cases hu : u = t
            · simp [CapacityCall.owns, CapacityCall.goto, hu]
            · simp [CapacityCall.owns, CapacityCall.goto, hu]
        | slot u tool' => rfl
  | releaseSlot =>
      simp only [CapacityCall.operateOn] at h
      split at h
      · cases h
      · cases h
        have hpos : 0 < txn.slotActive tool := (hslots tool).1 ▸ hsub (.slot t tool) rfl
        obtain ⟨slot, hlookup⟩ : ∃ slot, txn.perTool.lookup tool = some slot := by
          cases hlookup : txn.perTool.lookup tool with
          | none => simp [TransactionToolCapacity.slotActive, hlookup] at hpos
          | some slot => exact ⟨slot, rfl⟩
        have hone : txn.slotActive tool = slot.active := by
          simp [TransactionToolCapacity.slotActive, hlookup]
        obtain ⟨hcount, hlimit, hlocks'⟩ := put_slotActive hget hlookup (· - 1)
        refine .lower (.slot t tool) ?_ hlimit hlocks' rfl ?_ (fun c => by cases c <;> rfl)
          (fun _ => rfl) (fun _ hcur => by cases hcur)
        · intro c
          rw [hcount c]
          by_cases hc : c = .slot t tool
          · rw [if_pos hc, if_pos hc, hc, (hslots tool).1]
            omega
          · rw [if_neg hc, if_neg hc]
            rfl
        · intro c
          cases c with
          | shared => rfl
          | txn u => rfl
          | slot u tool' =>
              by_cases hsame : u = t ∧ tool' = tool
              · simp [CapacityCall.owns, CapacityCall.goto, hsame]
              · simp [CapacityCall.owns, CapacityCall.goto, hsame]
  | finished how =>
      simp only [CapacityCall.operateOn] at h
      cases h

end Operate

/-! ## Every interleaving -/

/-- What holds between any two operations. -/
structure Balanced (s : CapacityState) : Prop where
  count : ∀ c, s.pools.count c = s.calls.countP (·.owns c)
  within : ∀ c m, s.pools.limit c = some m → s.pools.count c ≤ m
  lock : ∀ u, s.pools.locks u = s.calls.countP (·.holdsLock u)
  checked : ∀ k ∈ s.calls, ∀ c, k.checked c = true →
    ∃ m, s.pools.limit c = some m ∧ s.pools.count c < m
  expected : ∀ k ∈ s.calls, ∀ cur, k.pc = .casShared cur → cur < s.pools.sharedMax

variable {s s' : CapacityState} {a : CapacityAction} {n : Nat} {k k' : CapacityCall}

/-- The transaction whose lock guards a counter. -/
def ToolCounter.guard : ToolCounter → Option Nat
  | .shared => none
  | .txn t | .slot t _ => some t

theorem checked_holdsLock {c : ToolCounter} (h : k.checked c = true) :
    ∃ u, c.guard = some u ∧ k.holdsLock u = true := by
  obtain ⟨kind, t, tool, valid, pc⟩ := k
  cases c with
  | shared => cases h
  | txn u =>
      refine ⟨u, rfl, ?_⟩
      cases pc <;> first | exact h | cases h
  | slot u tool' =>
      refine ⟨u, rfl, ?_⟩
      have hu : u = t := by
        cases pc <;> first | exact (of_decide_eq_true h).1 | cases h
      subst hu
      cases pc with
      | loadTxn => exact decide_eq_true rfl
      | loadShared => exact decide_eq_true rfl
      | casShared cur => exact decide_eq_true rfl
      | raiseSlot => exact decide_eq_true rfl
      | _ => cases h

theorem locks_le (pools : ToolCapacities) (u : Nat) : pools.locks u ≤ 1 := Bool.toNat_le _

theorem Balanced.locked (h : Balanced s) (hk : k ∈ s.calls) {u : Nat} (hu : k.holdsLock u = true) :
    s.pools.locks u = 1 := by
  have hle := locks_le s.pools u
  have hpos : 0 < s.calls.countP (·.holdsLock u) := List.countP_pos_iff.mpr ⟨k, hk, hu⟩
  rw [← h.lock] at hpos
  omega

theorem subtracts_owned {c : ToolCounter} (h : k.subtracts = some c) : k.owns c = true := by
  obtain ⟨kind, t, tool, valid, pc⟩ := k
  cases pc with
  | releaseShared =>
      cases h
      rfl
  | releaseTxn =>
      cases h
      exact decide_eq_true rfl
  | releaseSlot =>
      cases h
      exact decide_eq_true ⟨rfl, rfl⟩
  | _ => cases h

theorem Balanced.positive (h : Balanced s) (hk : k ∈ s.calls) {c : ToolCounter}
    (hc : k.owns c = true) : 0 < s.pools.count c := by
  rw [h.count]
  exact List.countP_pos_iff.mpr ⟨k, hk, hc⟩

theorem Balanced.operate {pools : ToolCapacities} (h : Balanced s) (hk : k ∈ s.calls)
    (hop : k.operate s.pools = some (pools, k')) : Shifts s.pools pools k k' := by
  refine operate_shifts hop ?_ ?_ ?_
  · intro hpc
    have hchecked : k.checked (.slot k.txn k.tool) = true := by
      simp [CapacityCall.checked, hpc]
    obtain ⟨m, hm, -⟩ := h.checked k hk _ hchecked
    exact ⟨m, hm⟩
  · intro c hsub
    exact h.positive hk (subtracts_owned hsub)
  · intro u hu
    exact h.locked hk hu

/-- What an action does to the calls: it adds one, or moves one on. -/
inductive CapacityStep (s : CapacityState) : CapacityAction → CapacityState → Prop where
  | configure (maxConcurrent maxQueued : Nat) (tools : List (ToolId × Nat)) :
      CapacityStep s (.configure maxConcurrent maxQueued tools)
        { s with pools := { s.pools with txns := s.pools.txns ++ [tools.foldl
          (fun txn (tool, max) => txn.configureTool tool max)
          (TransactionToolCapacity.new maxConcurrent maxQueued)] } }
  | call (kind : CapacityKind) (txn : Nat) (tool : ToolId) (valid : Bool) :
      CapacityStep s (.call kind txn tool valid)
        { s with calls := s.calls ++ [⟨kind, txn, tool, valid, CapacityCall.start kind⟩] }
  | operate {n : Nat} {k k' : CapacityCall} {pools : ToolCapacities} :
      s.calls[n]? = some k → k.operate s.pools = some (pools, k') →
      CapacityStep s (.operate n) ⟨pools, s.calls.set n k'⟩
  | expire {n : Nat} {k : CapacityCall} : s.calls[n]? = some k → k.pc = .loopHead →
      CapacityStep s (.expire n) { s with calls := s.calls.set n (k.goto .subQueued) }
  | abandon {n : Nat} {k : CapacityCall} : s.calls[n]? = some k → k.pc = .yielded →
      CapacityStep s (.abandon n) { s with calls := s.calls.set n (k.goto (.finished .dropped)) }
  | release {n : Nat} {k : CapacityCall} : s.calls[n]? = some k → k.pc = .held →
      CapacityStep s (.release n) { s with calls := s.calls.set n (k.goto .releaseShared) }

theorem skip_cases {src dst : CapacityPc} (h : s.skip n src dst = some s') :
    ∃ k, s.calls[n]? = some k ∧ k.pc = src ∧ s' = { s with calls := s.calls.set n (k.goto dst) } := by
  obtain ⟨k, hk, h⟩ := Option.bind_eq_some_iff.mp h
  split at h
  · rename_i hpc
    cases h
    exact ⟨k, hk, hpc, rfl⟩
  · cases h

theorem step_cases (h : toolCapacity.step a s = some s') : CapacityStep s a s' := by
  cases a with
  | configure maxConcurrent maxQueued tools =>
      cases h
      exact .configure maxConcurrent maxQueued tools
  | call kind txn tool valid =>
      cases h
      exact .call kind txn tool valid
  | operate n =>
      obtain ⟨k, hk, h⟩ := Option.bind_eq_some_iff.mp h
      obtain ⟨⟨pools, k'⟩, hop, rfl⟩ := Option.map_eq_some_iff.mp h
      exact .operate hk hop
  | expire n =>
      obtain ⟨k, hk, hpc, rfl⟩ := skip_cases h
      exact .expire hk hpc
  | abandon n =>
      obtain ⟨k, hk, hpc, rfl⟩ := skip_cases h
      exact .abandon hk hpc
  | release n =>
      obtain ⟨k, hk, hpc, rfl⟩ := skip_cases h
      exact .release hk hpc

/-- A call that starts owns nothing. -/
theorem idle_start (kind : CapacityKind) (t : Nat) (tool : ToolId) (valid : Bool) :
    CapacityCall.idle ⟨kind, t, tool, valid, CapacityCall.start kind⟩ = true := by
  cases kind <;> rfl

theorem Balanced.call (h : Balanced s) (hidle : k.idle = true) :
    Balanced { s with calls := s.calls ++ [k] } := by
  obtain ⟨howns, hchecked, hholds⟩ := idle_spec hidle
  have hmem : ∀ {j : CapacityCall}, j ∈ s.calls ++ [k] → j ∈ s.calls ∨ j = k := by
    intro j hj
    rcases List.mem_append.mp hj with hj | hj
    · exact .inl hj
    · exact .inr (List.mem_singleton.mp hj)
  constructor
  · intro c
    show _ = (s.calls ++ [k]).countP _
    rw [List.countP_append, List.countP_singleton, howns]
    exact h.count c
  · exact h.within
  · intro u
    show _ = (s.calls ++ [k]).countP _
    rw [List.countP_append, List.countP_singleton, hholds]
    exact h.lock u
  · intro j hj c hc
    rcases hmem hj with hj | rfl
    · exact h.checked j hj c hc
    · rw [hchecked] at hc
      cases hc
  · intro j hj cur hcur
    rcases hmem hj with hj | rfl
    · exact h.expected j hj cur hcur
    · simp [CapacityCall.idle, hcur] at hidle

/-- **A move of one call.** Another call that has checked a counter holds the lock
that guards it, so the call that moves cannot have raised the counter since. -/
theorem Balanced.move {pools : ToolCapacities} (h : Balanced s) (hk : s.calls[n]? = some k)
    (hshift : Shifts s.pools pools k k') : Balanced ⟨pools, s.calls.set n k'⟩ := by
  have hmem := List.mem_of_getElem? hk
  constructor
  · intro c
    have hset := Counting.countP_set_toNat (·.owns c) k' hk
    have hcount := hshift.count c
    have hbefore := h.count c
    show pools.count c = (s.calls.set n k').countP _
    omega
  · intro c m hm
    show pools.count c ≤ m
    rcases hshift.limit c m hm with hlimit | ⟨hzero, -⟩
    · have hwithin := h.within c m hlimit
      have hcount := hshift.count c
      rcases hshift.raised c with hle | hchecked | ⟨rfl, hpc⟩
      · omega
      · obtain ⟨m', hm', hlt⟩ := h.checked k hmem c hchecked
        obtain rfl : m' = m := by
          rw [hlimit] at hm'
          exact (Option.some.inj hm').symm
        have hone := Bool.toNat_le (k'.owns c)
        omega
      · have hlt := h.expected k hmem _ hpc
        have hone := Bool.toNat_le (k'.owns .shared)
        have hmax : s.pools.sharedMax = m := Option.some.inj hlimit
        have hshared : s.pools.count .shared = s.pools.sharedActive := rfl
        omega
    · omega
  · intro u
    have hset := Counting.countP_set_toNat (·.holdsLock u) k' hk
    have hlock := hshift.lock u
    have hbefore := h.lock u
    show pools.locks u = (s.calls.set n k').countP _
    omega
  · intro j hj c hc
    show ∃ m, pools.limit c = some m ∧ pools.count c < m
    obtain ⟨i, hi⟩ := List.mem_iff_getElem?.mp hj
    by_cases hin : i = n
    · subst hin
      rw [List.getElem?_set_self (List.getElem?_eq_some_iff.mp hk).1] at hi
      cases hi
      rcases hshift.checked c hc with ⟨hbefore, hsame⟩ | hroom
      · obtain ⟨m, hm, hlt⟩ := h.checked k hmem c hbefore
        exact ⟨m, hshift.kept c m hm, hsame ▸ hlt⟩
      · exact hroom
    · rw [List.getElem?_set_ne (Ne.symm hin)] at hi
      obtain ⟨m, hm, hlt⟩ := h.checked j (List.mem_of_getElem? hi) c hc
      refine ⟨m, hshift.kept c m hm, ?_⟩
      rcases hshift.raised c with hle | hchecked | ⟨rfl, -⟩
      · exact Nat.lt_of_le_of_lt hle hlt
      · -- both calls hold the lock of the same transaction
        obtain ⟨u, hu, hheld⟩ := checked_holdsLock hchecked
        obtain ⟨u', hu', hheld'⟩ := checked_holdsLock hc
        obtain rfl : u = u' := Option.some.inj (hu.symm.trans hu')
        have htwo := Counting.two_le_countP (p := (·.holdsLock u)) hin hi hk hheld' hheld
        have hle := locks_le s.pools u
        rw [h.lock] at hle
        omega
      · cases hc
  · intro j hj cur hcur
    show cur < pools.sharedMax
    obtain ⟨i, hi⟩ := List.mem_iff_getElem?.mp hj
    by_cases hin : i = n
    · subst hin
      rw [List.getElem?_set_self (List.getElem?_eq_some_iff.mp hk).1] at hi
      cases hi
      exact hshift.expected cur hcur
    · rw [List.getElem?_set_ne (Ne.symm hin)] at hi
      rw [hshift.sharedMax]
      exact h.expected j (List.mem_of_getElem? hi) cur hcur

/-- A transaction that was configured and not yet used counts nothing. -/
theorem configured_zero (tools : List (ToolId × Nat)) (txn : TransactionToolCapacity)
    (hactive : txn.txnActive = 0) (hslots : ∀ tool, txn.slotActive tool = 0)
    (hlocked : txn.locked = false) (hqueued : txn.txnQueued = 0) :
    let txn' := tools.foldl (fun txn (tool, max) => txn.configureTool tool max) txn
    txn'.txnActive = 0 ∧ (∀ tool, txn'.slotActive tool = 0) ∧ txn'.locked = false ∧
      txn'.txnQueued = 0 := by
  induction tools generalizing txn with
  | nil => exact ⟨hactive, hslots, hlocked, hqueued⟩
  | cons entry rest ih =>
      obtain ⟨tool, max⟩ := entry
      apply ih (txn.configureTool tool max) hactive ?_ hlocked hqueued
      intro other
      unfold TransactionToolCapacity.slotActive TransactionToolCapacity.configureTool
      dsimp only
      rw [HashMap.lookup_insert_ite]
      by_cases ho : other = tool
      · rw [if_pos ho]
        rfl
      · rw [if_neg ho]
        exact hslots other

/-- A transaction is appended: every counter keeps its value, those of the new
transaction included. -/
theorem appended_counters (pools : ToolCapacities) (txn : TransactionToolCapacity)
    (hactive : txn.txnActive = 0) (hslots : ∀ tool, txn.slotActive tool = 0)
    (hlocked : txn.locked = false) :
    let pools' : ToolCapacities := { pools with txns := pools.txns ++ [txn] }
    (∀ c, pools'.count c = pools.count c) ∧ (∀ u, pools'.locks u = pools.locks u) ∧
      (∀ c m, pools.limit c = some m → pools'.limit c = some m) ∧
      ∀ c m, pools'.limit c = some m → pools.limit c = some m ∨ pools'.count c = 0 := by
  have hget : ∀ u : Nat, (pools.txns ++ [txn])[u]? = pools.txns[u]? ∨
      (pools.txns[u]? = none ∧ (pools.txns ++ [txn])[u]? = some txn) := by
    intro u
    by_cases hu : u < pools.txns.length
    · exact .inl (List.getElem?_append_left hu)
    · have hnone : pools.txns[u]? = none := List.getElem?_eq_none (by omega)
      by_cases hlast : u = pools.txns.length
      · exact .inr ⟨hnone, hlast ▸ List.getElem?_concat_length⟩
      · left
        rw [hnone]
        apply List.getElem?_eq_none
        rw [List.length_append, List.length_singleton]
        omega
  have hcount : ∀ c, ({ pools with txns := pools.txns ++ [txn] } : ToolCapacities).count c =
      pools.count c := by
    intro c
    cases c with
    | shared => rfl
    | txn u =>
        show ((pools.txns ++ [txn])[u]?.map (·.txnActive)).getD 0 =
          (pools.txns[u]?.map (·.txnActive)).getD 0
        rcases hget u with hsame | ⟨hnone, hnew⟩
        · rw [hsame]
        · rw [hnone, hnew]
          exact hactive
    | slot u tool =>
        show ((pools.txns ++ [txn])[u]?.map (·.slotActive tool)).getD 0 =
          (pools.txns[u]?.map (·.slotActive tool)).getD 0
        rcases hget u with hsame | ⟨hnone, hnew⟩
        · rw [hsame]
        · rw [hnone, hnew]
          exact hslots tool
  refine ⟨hcount, ?_, ?_, ?_⟩
  · intro u
    show ((pools.txns ++ [txn])[u]?.any (·.locked)).toNat = (pools.txns[u]?.any (·.locked)).toNat
    rcases hget u with hsame | ⟨hnone, hnew⟩
    · rw [hsame]
    · rw [hnone, hnew]
      simp [hlocked]
  · intro c m hm
    cases c with
    | shared => exact hm
    | txn u =>
        obtain ⟨txn₀, htxn, hval⟩ := Option.map_eq_some_iff.mp hm
        rcases hget u with hsame | ⟨hnone, -⟩
        · show (pools.txns ++ [txn])[u]?.map (·.maxConcurrent) = some m
          rw [hsame]
          exact hm
        · rw [hnone] at htxn
          cases htxn
    | slot u tool =>
        obtain ⟨txn₀, htxn, hval⟩ := Option.bind_eq_some_iff.mp hm
        rcases hget u with hsame | ⟨hnone, -⟩
        · show (pools.txns ++ [txn])[u]?.bind (·.slotMax tool) = some m
          rw [hsame]
          exact hm
        · rw [hnone] at htxn
          cases htxn
  · intro c m hm
    rw [hcount]
    cases c with
    | shared => exact .inl hm
    | txn u =>
        rcases hget u with hsame | ⟨hnone, -⟩
        · left
          show pools.txns[u]?.map (·.maxConcurrent) = some m
          rw [← hsame]
          exact hm
        · right
          show (pools.txns[u]?.map (·.txnActive)).getD 0 = 0
          rw [hnone]
          rfl
    | slot u tool =>
        rcases hget u with hsame | ⟨hnone, -⟩
        · left
          show pools.txns[u]?.bind (·.slotMax tool) = some m
          rw [← hsame]
          exact hm
        · right
          show (pools.txns[u]?.map (·.slotActive tool)).getD 0 = 0
          rw [hnone]
          rfl

theorem Balanced.configure (h : Balanced s) {txn : TransactionToolCapacity}
    (hactive : txn.txnActive = 0) (hslots : ∀ tool, txn.slotActive tool = 0)
    (hlocked : txn.locked = false) :
    Balanced { s with pools := { s.pools with txns := s.pools.txns ++ [txn] } } := by
  obtain ⟨hcount, hlocks, hkept, hlimit⟩ := appended_counters s.pools txn hactive hslots hlocked
  constructor
  · intro c
    exact (hcount c).trans (h.count c)
  · intro c m hm
    rcases hlimit c m hm with hm' | hzero
    · rw [hcount]
      exact h.within c m hm'
    · rw [hzero]
      exact Nat.zero_le m
  · intro u
    exact (hlocks u).trans (h.lock u)
  · intro k hk c hc
    obtain ⟨m, hm, hlt⟩ := h.checked k hk c hc
    refine ⟨m, hkept c m hm, ?_⟩
    rw [hcount]
    exact hlt
  · exact h.expected

/-- The drop of a permit begins: nothing is given back yet. -/
theorem Shifts.drop {pools : ToolCapacities} (hpc : k.pc = .held) :
    Shifts pools pools k (k.goto .releaseShared) := by
  obtain ⟨kind, t, tool, valid, pc⟩ := k
  cases hpc
  refine .read (fun c => by cases c <;> rfl) ?_ (fun _ => rfl) (fun _ hcur => by cases hcur)
  intro c hc
  cases c <;> cases hc

theorem Balanced.step (h : Balanced s) (hstep : toolCapacity.step a s = some s') :
    Balanced s' := by
  cases step_cases hstep with
  | configure maxConcurrent maxQueued tools =>
      obtain ⟨hactive, hslots, hlocked, -⟩ := configured_zero tools
        (TransactionToolCapacity.new maxConcurrent maxQueued) rfl (fun _ => rfl) rfl rfl
      exact h.configure hactive hslots hlocked
  | call kind txn tool valid => exact h.call (idle_start kind txn tool valid)
  | operate hk hop => exact h.move hk (h.operate (List.mem_of_getElem? hk) hop)
  | expire hk hpc => exact h.move hk (.idleRead (by simp [CapacityCall.idle, hpc]) rfl)
  | abandon hk hpc => exact h.move hk (.idleRead (by simp [CapacityCall.idle, hpc]) rfl)
  | release hk hpc => exact h.move hk (.drop hpc)

theorem balanced_init (h : toolCapacity.init s) : Balanced s := by
  obtain ⟨hcalls, max, hpools⟩ := h
  obtain ⟨pools, calls⟩ := s
  cases hcalls
  cases hpools
  have hzero : ∀ c, (ToolCapacities.new max).count c = 0 := by
    intro c
    cases c <;> rfl
  constructor
  · exact hzero
  · intro c m _
    exact Nat.le_trans (Nat.le_of_eq (hzero c)) (Nat.zero_le m)
  · intro u
    rfl
  · intro k hk
    cases hk
  · intro k hk
    cases hk

/-- **Every reachable state is balanced.** -/
theorem balanced_reach (h : toolCapacity.Reach always s) : Balanced s :=
  h.invariant (fun _ => balanced_init) (fun _ _ _ _ hb _ hs => hb.step hs)

/-- No operation of call `n` in a run moves a counter. -/
def untouched (n : Nat) : List CapacityAction → CapacityState → Prop
  | [], _ => True
  | a :: rest, s => ∀ s', toolCapacity.step a s = some s' →
      (a = .operate n → ∀ c, s'.pools.count c = s.pools.count c) ∧ untouched n rest s'

namespace CapacityCall

/-- The latest `try_acquire` of the call returned `None`. -/
def refused (k : CapacityCall) : Bool :=
  match k.pc with
  | .yielded | .finished .refused => true
  | _ => false

/-- The call has not taken a counter so far. -/
def clean (k : CapacityCall) : Bool :=
  match k.pc with
  | .raiseSlot | .addTxn | .takeQueued | .unlock | .held | .releaseShared | .releaseTxn
  | .releaseSlot | .finished .released => false
  | _ => true

end CapacityCall

theorem clean_owns (h : k.clean = true) (c : ToolCounter) : k.owns c = false := by
  obtain ⟨kind, t, tool, valid, pc⟩ := k
  cases pc with
  | raiseSlot => cases h
  | addTxn => cases h
  | takeQueued => cases h
  | unlock => cases h
  | held => cases h
  | releaseShared => cases h
  | releaseTxn => cases h
  | releaseSlot => cases h
  | _ => cases c <;> rfl

theorem refused_clean (h : k.refused = true) : k.clean = true := by
  obtain ⟨kind, t, tool, valid, pc⟩ := k
  cases pc with
  | yielded => rfl
  | finished how => cases how <;> first | rfl | cases h
  | _ => cases h

/-- A call that has taken a counter stays on the way that keeps or drops the permit. -/
theorem operate_clean {pools pools' : ToolCapacities} (h : k.operate pools = some (pools', k'))
    (hclean : k'.clean = true) : k.clean = true := by
  obtain ⟨txn, -, h⟩ := Option.bind_eq_some_iff.mp h
  obtain ⟨kind, t, tool, valid, pc⟩ := k
  cases pc with
  | raiseSlot =>
      cases h
      cases hclean
  | addTxn =>
      cases h
      cases hclean
  | takeQueued =>
      cases h
      cases hclean
  | unlock =>
      cases h
      cases hclean
  | held => cases h
  | releaseShared =>
      cases h
      cases hclean
  | releaseTxn =>
      cases h
      cases hclean
  | releaseSlot =>
      simp only [CapacityCall.operateOn] at h
      split at h
      · cases h
      · cases h
        cases hclean
  | finished how => cases h
  | _ => rfl

/-- Call `n`, if it exists, has not taken a counter. -/
def CapacityState.cleanAt (s : CapacityState) (n : Nat) : Prop :=
  ∀ k, s.calls[n]? = some k → k.clean = true

theorem cleanAt_of_set {s s' : CapacityState} {m : Nat} (hk : s.calls[m]? = some k)
    (hs' : s'.calls = s.calls.set m k') (hback : k'.clean = true → k.clean = true)
    (hclean : s'.cleanAt n) : s.cleanAt n := by
  intro j hj
  have hclean := hclean
  unfold CapacityState.cleanAt at hclean
  rw [hs'] at hclean
  by_cases hn : n = m
  · subst hn
    rw [hk] at hj
    cases hj
    exact hback (hclean k' (List.getElem?_set_self (List.getElem?_eq_some_iff.mp hk).1))
  · apply hclean
    rw [List.getElem?_set_ne (Ne.symm hn)]
    exact hj

/-- The step lemma, read backwards: if call `n` has taken nothing after a step, it
had taken nothing before, and the step was not a move of a counter by `n`. -/
theorem step_clean (hbal : Balanced s) (hstep : toolCapacity.step a s = some s')
    (hclean : s'.cleanAt n) : s.cleanAt n ∧
      (a = .operate n → ∀ c, s'.pools.count c = s.pools.count c) := by
  cases step_cases hstep with
  | configure maxConcurrent maxQueued tools => exact ⟨hclean, fun ha => by cases ha⟩
  | call kind txn tool valid =>
      refine ⟨?_, fun ha => by cases ha⟩
      intro j hj
      apply hclean
      exact (List.getElem?_append_left (List.getElem?_eq_some_iff.mp hj).1).trans hj
  | @operate m k k' pools hk hop =>
      have hbefore := cleanAt_of_set hk rfl (operate_clean hop) hclean
      refine ⟨hbefore, ?_⟩
      intro ha c
      cases ha
      have hafter : k'.clean = true :=
        hclean k' (List.getElem?_set_self (List.getElem?_eq_some_iff.mp hk).1)
      have hcount := (hbal.operate (List.mem_of_getElem? hk) hop).count c
      rw [clean_owns (hbefore k hk), clean_owns hafter] at hcount
      exact hcount
  | @expire m k hk hpc =>
      refine ⟨cleanAt_of_set hk rfl ?_ hclean, fun ha => by cases ha⟩
      intro _
      simp [CapacityCall.clean, hpc]
  | @abandon m k hk hpc =>
      refine ⟨cleanAt_of_set hk rfl ?_ hclean, fun ha => by cases ha⟩
      intro _
      simp [CapacityCall.clean, hpc]
  | @release m k hk hpc =>
      refine ⟨cleanAt_of_set hk rfl ?_ hclean, fun ha => by cases ha⟩
      intro hafter
      cases hafter

/-- The run lemma. -/
theorem run_untouched {as : List CapacityAction} (hbal : Balanced s)
    (hrun : toolCapacity.run as s = some s') (hclean : s'.cleanAt n) :
    s.cleanAt n ∧ untouched n as s := by
  induction as generalizing s with
  | nil =>
      cases hrun
      exact ⟨hclean, trivial⟩
  | cons a rest ih =>
      obtain ⟨s₁, hs₁, hrest⟩ := Option.bind_eq_some_iff.mp hrun
      obtain ⟨hclean₁, hrest₁⟩ := ih (hbal.step hs₁) hrest
      obtain ⟨hclean₀, hsame⟩ := step_clean hbal hs₁ hclean₁
      refine ⟨hclean₀, ?_⟩
      intro s₂ hs₂
      obtain rfl : s₁ = s₂ := Option.some.inj (hs₁.symm.trans hs₂)
      exact ⟨hsame, hrest₁⟩

/-- **The three counters at every interleaving point.** Each is the number of calls
that have taken it and not yet given it back, and stays within its maximum; a
`try_acquire` that returned `None`, on its own or inside a dispatch, has moved no
counter in any of its operations. -/
theorem permits_counted {s₀ : CapacityState} {as : List CapacityAction}
    (h₀ : toolCapacity.init s₀) (hrun : toolCapacity.run as s₀ = some s) :
    (∀ c, s.pools.count c = s.calls.countP (·.owns c)) ∧
    (∀ c m, s.pools.limit c = some m → s.pools.count c ≤ m) ∧
    ∀ n k, s.calls[n]? = some k → k.refused = true → untouched n as s₀ := by
  have hbal := balanced_reach (System.run_reach (.init h₀) hrun)
  refine ⟨hbal.count, hbal.within, ?_⟩
  intro n k hk hrefused
  have hclean : s.cleanAt n := by
    intro j hj
    rw [hk] at hj
    cases hj
    exact refused_clean hrefused
  exact (run_untouched (balanced_init h₀) hrun hclean).2

def shellTool : ToolId := ⟨"shell", by decide⟩

/-- Room for four tools, and no transaction yet. -/
def fourTools : CapacityState := ⟨.new 4, []⟩

theorem fourTools_init : toolCapacity.init fourTools := ⟨rfl, 4, rfl⟩

/-- A dispatch that runs, and a second one whose `try_acquire` finds the tool busy. -/
def busyTool : List CapacityAction :=
  .configure 4 8 [(shellTool, 1)] ::
    (.call .dispatch 0 shellTool true :: List.replicate 12 (.operate 0)) ++
    (.call .dispatch 0 shellTool true :: List.replicate 6 (.operate 1))

theorem busyTool_run : ∃ s, toolCapacity.run busyTool fourTools = some s ∧
    s.calls = [⟨.dispatch, 0, shellTool, true, .held⟩, ⟨.dispatch, 0, shellTool, true, .yielded⟩] ∧
    s.pools.queued 0 = 1 := by
  have hrun : (toolCapacity.run busyTool fourTools).any (fun s =>
      s.calls = [⟨.dispatch, 0, shellTool, true, .held⟩,
        ⟨.dispatch, 0, shellTool, true, .yielded⟩] ∧ s.pools.queued 0 = 1) = true := by
    decide +kernel
  rw [Option.any_eq_true] at hrun
  obtain ⟨s, hrun, hs⟩ := hrun
  exact ⟨s, hrun, of_decide_eq_true hs⟩

/-- The second dispatch has moved nothing, and every counter stands at one. -/
theorem busyTool_counted : ∃ s, toolCapacity.run busyTool fourTools = some s ∧
    (∀ c, s.pools.count c = s.calls.countP (·.owns c)) ∧ untouched 1 busyTool fourTools := by
  obtain ⟨s, hrun, hcalls, -⟩ := busyTool_run
  obtain ⟨hcount, -, huntouched⟩ := permits_counted fourTools_init hrun
  refine ⟨s, hrun, hcount, huntouched 1 ⟨.dispatch, 0, shellTool, true, .yielded⟩ ?_ rfl⟩
  rw [hcalls]
  rfl

end Monoloop.ToolDispatch
