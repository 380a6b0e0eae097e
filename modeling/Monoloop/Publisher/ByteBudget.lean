import Mathlib.Algebra.Order.BigOperators.Group.List
import Mathlib.Algebra.Order.Group.Nat
import Monoloop.Lib.Counting
import Monoloop.Lib.Transition
import Monoloop.Lib.Usize
import Monoloop.Contracts.Transaction

/-!
# The mailbox, one atomic operation at a time

`delivery.rs` bounds the bytes of queued events by an atomic counter beside the
channel. A send takes its bytes with a compare-exchange before the item enters the
channel; the item's permit gives them back, with a `fetch_sub` and then a
`notify_waiters`, when it is received, refused, abandoned or dropped with the
receiver. Here each of these operations is a step of its own and any number of
sends run at once.

The channel is tokio's: a bounded queue whose operations are atomic; a closed one
takes nothing more and the drop of its receiver drops what is left. A `Notified` is
woken by every `notify_waiters` after its creation, polled or not. The size of an
event is the length of its JSON form; here it is a parameter.
-/

namespace Monoloop.Publisher

open Transition (System)

/-- `AtomicU64::fetch_sub`. -/
def fetchSubBytes (x n : Nat) : Nat := (x + 2 ^ 64 - n) % 2 ^ 64

/-- Validated event-queue capacities. -/
structure DeliveryLimits where
  maxEventItems : Nat
  maxEventBytes : Nat
  items_pos : 0 < maxEventItems
  bytes_pos : 0 < maxEventBytes
  bytes_le : maxEventBytes ≤ usizeMax

/-- Invalid delivery-port construction. -/
inductive DeliveryConfigError where
  | zeroItemCapacity
  | zeroByteCapacity
deriving DecidableEq, Repr

def DeliveryLimits.tryNew (maxEventItems maxEventBytes : Nat) (h : maxEventBytes ≤ usizeMax) :
    Except DeliveryConfigError DeliveryLimits :=
  if hitems : maxEventItems = 0 then .error .zeroItemCapacity
  else if hbytes : maxEventBytes = 0 then .error .zeroByteCapacity
  else .ok ⟨maxEventItems, maxEventBytes, Nat.pos_of_ne_zero hitems, Nat.pos_of_ne_zero hbytes, h⟩

inductive SendKind where
  | send
  | trySend
deriving DecidableEq, Repr

/-- How a send ended: it returned, or its future was dropped. -/
inductive SendOutcome where
  | accepted
  | refused (error : EventEnqueueError)
  | abandoned
deriving DecidableEq, Repr

/-- The next operation of a send. `woken` tells whether a `notify_waiters` came
since the `Notified` of this turn of the loop was created. -/
inductive SendPc where
  | check
  /-- `self.byte_freed.notified()`. -/
  | subscribe
  | load (woken : Bool)
  | exchange (cur : Nat) (woken : Bool)
  /-- `notified.await`. -/
  | waitBytes (woken : Bool)
  /-- `self.tx.send(item).await` or `self.tx.try_send(item)`. -/
  | enqueue
  /-- Drop of the permit. -/
  | subtract (outcome : SendOutcome)
  | notify (outcome : SendOutcome)
  | ended (outcome : SendOutcome)
deriving DecidableEq, Repr

/-- One call of `send` or `try_send`. -/
structure SendCall (Event : Type) where
  kind : SendKind
  event : Event
  nbytes : Nat
  pc : SendPc

/-- The next operation of the receiver. `closing` marks the permits dropped with
the receiver itself. -/
inductive ReceiverPc where
  | ready
  | subtract (nbytes : Nat) (closing : Bool)
  | notify (closing : Bool)
  | draining
  | gone
deriving DecidableEq, Repr

namespace ReceiverPc

/-- The channel still takes items. -/
def isOpen : ReceiverPc → Bool
  | .ready | .subtract _ false | .notify false => true
  | _ => false

/-- The permit the receiver has taken out of the queue and not yet given back. -/
def held : ReceiverPc → Nat
  | .subtract nbytes _ => nbytes
  | _ => 0

def notifies : ReceiverPc → Bool
  | .notify _ => true
  | _ => false

end ReceiverPc

namespace SendCall

variable {Event : Type}

def goto (k : SendCall Event) (pc : SendPc) : SendCall Event := { k with pc }

/-- The bytes reserved by a send whose item is not in the channel yet. -/
def reserved (k : SendCall Event) : Nat :=
  match k.pc with
  | .enqueue => k.nbytes
  | _ => 0

/-- The permit a send is dropping and has not given back yet. -/
def releasing (k : SendCall Event) : Nat :=
  match k.pc with
  | .subtract _ => k.nbytes
  | _ => 0

/-- The bytes of the event a send still carries. -/
def carried (k : SendCall Event) : Nat :=
  match k.pc with
  | .ended _ => 0
  | _ => k.nbytes

def notifies (k : SendCall Event) : Bool :=
  match k.pc with
  | .notify _ => true
  | _ => false

/-- The send has not taken its bytes. -/
def unreserved (k : SendCall Event) : Bool :=
  match k.pc with
  | .enqueue | .subtract _ | .notify _ | .ended _ => false
  | _ => true

def isOver (k : SendCall Event) : Bool :=
  match k.pc with
  | .ended _ => true
  | _ => false

/-- `notify_waiters`, for one `Notified`. -/
def wake (k : SendCall Event) : SendCall Event :=
  match k.pc with
  | .load _ => k.goto (.load true)
  | .exchange cur _ => k.goto (.exchange cur true)
  | .waitBytes _ => k.goto (.waitBytes true)
  | _ => k

/-- The head of the reservation loop; `try_send` has no `Notified`. -/
def again (k : SendCall Event) : SendPc :=
  match k.kind with
  | .send => .subscribe
  | .trySend => .load false

end SendCall

/-- Both halves of the mailbox and the sends made on it. `accepted` and `received`
are not in the source: they record every event that entered the channel and that
the host took out, oldest first. -/
structure ByteMailbox (Event : Type) where
  limits : DeliveryLimits
  queuedBytes : Nat
  queue : List (Event × Nat)
  receiver : ReceiverPc
  calls : List (SendCall Event)
  accepted : List Event
  received : List Event

namespace ByteMailbox

variable {Event : Type}

/-- `transaction_delivery`. -/
def new (limits : DeliveryLimits) : ByteMailbox Event where
  limits := limits
  queuedBytes := 0
  queue := []
  receiver := .ready
  calls := []
  accepted := []
  received := []

/-- The `n`th call, `k`, goes on at `pc`. -/
def goto (s : ByteMailbox Event) (n : Nat) (k : SendCall Event) (pc : SendPc) :
    ByteMailbox Event :=
  { s with calls := s.calls.set n (k.goto pc) }

/-- `byte_freed.notify_waiters()`. -/
def notifyWaiters (s : ByteMailbox Event) : ByteMailbox Event :=
  { s with calls := s.calls.map SendCall.wake }

/-- `queued_bytes.fetch_sub(nbytes)`. -/
def release (s : ByteMailbox Event) (nbytes : Nat) : ByteMailbox Event :=
  { s with queuedBytes := fetchSubBytes s.queuedBytes nbytes }

/-- Sends that wait for a slot of the channel. -/
def slotWaiters (s : ByteMailbox Event) : Nat :=
  s.calls.countP fun k => k.kind = .send ∧ k.pc = .enqueue

/-- The next operation of the `n`th call; `none` while it waits. -/
def operate (s : ByteMailbox Event) (n : Nat) (k : SendCall Event) : Option (ByteMailbox Event) :=
  match k.pc with
  | .check =>
      if s.limits.maxEventBytes < k.nbytes then
        some (s.goto n k (.ended (.refused .eventTooLarge)))
      else some (s.goto n k k.again)
  | .subscribe => some (s.goto n k (.load false))
  | .load woken =>
      if s.limits.maxEventBytes < satAdd s.queuedBytes k.nbytes then
        match k.kind with
        | .send => some (s.goto n k (.waitBytes woken))
        | .trySend => some (s.goto n k (.ended (.refused .byteCapacityExceeded)))
      else some (s.goto n k (.exchange s.queuedBytes woken))
  | .exchange cur _ =>
      if s.queuedBytes = cur then
        some { s.goto n k .enqueue with queuedBytes := satAdd cur k.nbytes }
      else some (s.goto n k k.again)
  | .waitBytes true => some (s.goto n k k.again)
  | .waitBytes false => none
  | .enqueue =>
      if s.receiver.isOpen then
        if s.queue.length < s.limits.maxEventItems then
          some { s.goto n k (.ended .accepted) with
            queue := s.queue ++ [(k.event, k.nbytes)]
            accepted := s.accepted ++ [k.event] }
        else
          match k.kind with
          | .send => none
          | .trySend => some (s.goto n k (.subtract (.refused .itemCapacityExceeded)))
      else some (s.goto n k (.subtract (.refused .closed)))
  | .subtract outcome => some ((s.goto n k (.notify outcome)).release k.nbytes)
  | .notify outcome => some (s.notifyWaiters.goto n k (.ended outcome))
  | .ended _ => none

/-- A `try_send` finds every free slot promised to a waiting send. -/
def full (s : ByteMailbox Event) (n : Nat) (k : SendCall Event) : Option (ByteMailbox Event) :=
  if k.kind = .trySend ∧ k.pc = .enqueue ∧ s.receiver.isOpen ∧
      s.limits.maxEventItems ≤ s.queue.length + s.slotWaiters then
    some (s.goto n k (.subtract (.refused .itemCapacityExceeded)))
  else none

/-- The future of a send is dropped where it waits. -/
def abandon (s : ByteMailbox Event) (n : Nat) (k : SendCall Event) : Option (ByteMailbox Event) :=
  match k.kind, k.pc with
  | .send, .check => some (s.goto n k (.ended .abandoned))
  | .send, .waitBytes _ => some (s.goto n k (.ended .abandoned))
  | .send, .enqueue => some (s.goto n k (.subtract .abandoned))
  | _, _ => none

/-- `recv` and `try_recv` take the oldest item out. -/
def recv (s : ByteMailbox Event) : Option (ByteMailbox Event) :=
  match s.receiver, s.queue with
  | .ready, (event, nbytes) :: rest =>
      some { s with
        queue := rest
        received := s.received ++ [event]
        receiver := .subtract nbytes false }
  | _, _ => none

/-- The host drops the receiver: the channel is closed. -/
def dropReceiver (s : ByteMailbox Event) : Option (ByteMailbox Event) :=
  if s.receiver = .ready then some { s with receiver := .draining } else none

/-- The next operation of the receiver: it drops the permit of an item, or the
items left in a closed channel. -/
def receive (s : ByteMailbox Event) : Option (ByteMailbox Event) :=
  match s.receiver with
  | .subtract nbytes closing =>
      some { s.release nbytes with receiver := .notify closing }
  | .notify closing =>
      some { s.notifyWaiters with receiver := if closing then .draining else .ready }
  | .draining =>
      match s.queue with
      | [] => some { s with receiver := .gone }
      | (_, nbytes) :: rest => some { s with queue := rest, receiver := .subtract nbytes true }
  | .ready | .gone => none

end ByteMailbox

inductive MailboxAction (Event : Type) where
  /-- A thread calls `send` or `try_send`. -/
  | call (kind : SendKind) (event : Event)
  | operate (n : Nat)
  | full (n : Nat)
  | abandon (n : Nat)
  | recv
  | dropReceiver
  | receive
deriving DecidableEq

namespace ByteMailbox

variable {Event : Type} (estimateEventBytes : Event → Nat)

def step : MailboxAction Event → ByteMailbox Event → Option (ByteMailbox Event)
  | .call kind event, s =>
      some { s with calls := s.calls ++ [⟨kind, event, estimateEventBytes event, .check⟩] }
  | .operate n, s => s.calls[n]?.bind (s.operate n)
  | .full n, s => s.calls[n]?.bind (s.full n)
  | .abandon n, s => s.calls[n]?.bind (s.abandon n)
  | .recv, s => s.recv
  | .dropReceiver, s => s.dropReceiver
  | .receive, s => s.receive

/-- The bytes of the items in the channel. -/
def queueBytes (s : ByteMailbox Event) : Nat := (s.queue.map (·.2)).sum

/-- The bytes reserved by sends in flight. -/
def reservedBytes (s : ByteMailbox Event) : Nat := (s.calls.map SendCall.reserved).sum

/-- The bytes of permits being dropped and not yet given back. -/
def releasingBytes (s : ByteMailbox Event) : Nat :=
  (s.calls.map SendCall.releasing).sum + s.receiver.held

/-- The bytes of all events alive. -/
def carriedBytes (s : ByteMailbox Event) : Nat :=
  s.queueBytes + (s.calls.map SendCall.carried).sum + s.receiver.held

/-- The drops that still have to notify. -/
def notifiers (s : ByteMailbox Event) : Nat :=
  s.calls.countP SendCall.notifies + s.receiver.notifies.toNat

/-- With the largest `u64` as its limit the counter bounds nothing; what bounds the
bytes then is that the events are in memory. -/
def InMemory (s : ByteMailbox Event) : MailboxAction Event → Prop
  | .call _ event => s.limits.maxEventBytes = usizeMax →
      s.carriedBytes + estimateEventBytes event ≤ usizeMax
  | _ => True

end ByteMailbox

/-- Concurrent sends and receives on a mailbox fresh from `transaction_delivery`. -/
def byteMailbox {Event : Type} (estimateEventBytes : Event → Nat) :
    System (ByteMailbox Event) (MailboxAction Event) where
  init s := ∃ limits, s = .new limits
  step := ByteMailbox.step estimateEventBytes

/-! ## What every operation keeps -/

namespace ByteMailbox

variable {Event : Type} {s : ByteMailbox Event} {n : Nat} {k : SendCall Event} {pc : SendPc}

/-- What holds between any two operations: the counter is the sum of what is queued,
reserved and being given back, within the limit; the channel keeps its order; a
send waits for bytes only while it lacks them or a drop is about to wake it. -/
structure Sound (s : ByteMailbox Event) : Prop where
  bytes : s.queuedBytes = s.queueBytes + s.reservedBytes + s.releasingBytes
  bound : s.queuedBytes ≤ s.limits.maxEventBytes
  expected : ∀ k ∈ s.calls, ∀ cur woken, k.pc = .exchange cur woken →
    satAdd cur k.nbytes ≤ s.limits.maxEventBytes
  memory : s.limits.maxEventBytes = usizeMax → s.carriedBytes ≤ usizeMax
  order : ∃ drained, s.accepted = s.received ++ drained ++ s.queue.map (·.1) ∧
    (s.receiver.isOpen = true → drained = [])
  gone : s.receiver = .gone → s.queue = []
  awake : ∀ k ∈ s.calls, k.pc = .waitBytes false →
    s.limits.maxEventBytes < s.queuedBytes + k.nbytes ∨ 0 < s.notifiers

theorem sound_new (limits : DeliveryLimits) : Sound (new limits : ByteMailbox Event) where
  bytes := rfl
  bound := Nat.zero_le _
  expected k hk := by cases hk
  memory _ := Nat.zero_le _
  order := ⟨[], rfl, fun _ => rfl⟩
  gone _ := rfl
  awake k hk := by cases hk

/-- The sums after the `n`th call went on at `pc`. -/
theorem goto_sums (hk : s.calls[n]? = some k) (pc : SendPc) :
    (s.goto n k pc).reservedBytes + k.reserved = s.reservedBytes + (k.goto pc).reserved ∧
    (s.goto n k pc).releasingBytes + k.releasing = s.releasingBytes + (k.goto pc).releasing ∧
    (s.goto n k pc).carriedBytes + k.carried = s.carriedBytes + (k.goto pc).carried ∧
    (s.goto n k pc).notifiers + k.notifies.toNat = s.notifiers + (k.goto pc).notifies.toNat := by
  have hreserved := Counting.sum_map_set SendCall.reserved (k.goto pc) hk
  have hreleasing := Counting.sum_map_set SendCall.releasing (k.goto pc) hk
  have hcarried := Counting.sum_map_set SendCall.carried (k.goto pc) hk
  have hnotifies := Counting.countP_set_toNat SendCall.notifies (k.goto pc) hk
  unfold reservedBytes releasingBytes carriedBytes notifiers queueBytes ByteMailbox.goto
  dsimp only
  refine ⟨hreserved, ?_, ?_, ?_⟩
  · omega
  · omega
  · omega

/-- A call after the `n`th went on is that one, or one of before. -/
theorem mem_goto {k' : SendCall Event} (h : k' ∈ (s.goto n k pc).calls) :
    k' = k.goto pc ∨ k' ∈ s.calls := by
  rcases List.mem_or_eq_of_mem_set h with hold | hnew
  · exact .inr hold
  · exact .inl hnew

/-- An operation that moves one call and no bytes. -/
theorem Sound.move (h : Sound s) (hk : s.calls[n]? = some k)
    (hheld : (k.goto pc).reserved + (k.goto pc).releasing = k.reserved + k.releasing)
    (hcarried : (k.goto pc).carried ≤ k.carried)
    (hexpected : ∀ cur woken, pc = .exchange cur woken →
      satAdd cur k.nbytes ≤ s.limits.maxEventBytes)
    (hawake : ∀ k' ∈ (s.goto n k pc).calls, k'.pc = .waitBytes false →
      s.limits.maxEventBytes < s.queuedBytes + k'.nbytes ∨ 0 < (s.goto n k pc).notifiers) :
    Sound (s.goto n k pc) := by
  obtain ⟨hreserved, hreleasing, hlive, -⟩ := goto_sums hk pc
  have hbytes := h.bytes
  refine ⟨?_, h.bound, ?_, ?_, h.order, h.gone, hawake⟩
  · show s.queuedBytes = s.queueBytes + (s.goto n k pc).reservedBytes +
      (s.goto n k pc).releasingBytes
    omega
  · intro k' hk' cur woken hpc
    rcases mem_goto hk' with rfl | hold
    · exact hexpected cur woken hpc
    · exact h.expected k' hold cur woken hpc
  · intro hmax
    have hmemory := h.memory hmax
    omega

/-- The same for a call that has no notification to give. -/
theorem Sound.goto (h : Sound s) (hk : s.calls[n]? = some k)
    (hheld : (k.goto pc).reserved + (k.goto pc).releasing = k.reserved + k.releasing)
    (hcarried : (k.goto pc).carried ≤ k.carried)
    (hexpected : ∀ cur woken, pc = .exchange cur woken →
      satAdd cur k.nbytes ≤ s.limits.maxEventBytes)
    (hawake : pc = .waitBytes false → s.limits.maxEventBytes < s.queuedBytes + k.nbytes)
    (hnotifies : k.notifies = false) : Sound (s.goto n k pc) := by
  obtain ⟨-, -, -, hcount⟩ := goto_sums hk pc
  rw [hnotifies, Bool.toNat_false] at hcount
  refine h.move hk hheld hcarried hexpected ?_
  intro k' hk' hpc
  rcases mem_goto hk' with rfl | hold
  · exact .inl (hawake hpc)
  · rcases h.awake k' hold hpc with hfull | hpos
    · exact .inl hfull
    · right
      omega

/-- What is reserved belongs to an event that is alive. -/
theorem held_le_carried (s : ByteMailbox Event) :
    s.queueBytes + s.reservedBytes + s.releasingBytes ≤ s.carriedBytes := by
  have hcalls : ∀ calls : List (SendCall Event), (calls.map SendCall.reserved).sum +
      (calls.map SendCall.releasing).sum ≤ (calls.map SendCall.carried).sum := by
    intro calls
    induction calls with
    | nil => exact Nat.le_refl _
    | cons k rest ih =>
        have hone : k.reserved + k.releasing ≤ k.carried := by
          unfold SendCall.reserved SendCall.releasing SendCall.carried
          cases k.pc <;> simp
        simp only [List.map_cons, List.sum_cons]
        omega
  have hsum := hcalls s.calls
  unfold reservedBytes releasingBytes carriedBytes
  omega

/-- The compare-exchange succeeds. -/
theorem Sound.reserve (h : Sound s) (hk : s.calls[n]? = some k) {woken : Bool}
    (hpc : k.pc = .exchange s.queuedBytes woken) :
    Sound { s.goto n k .enqueue with queuedBytes := satAdd s.queuedBytes k.nbytes } := by
  have hlimit := h.expected k (List.mem_of_getElem? hk) _ _ hpc
  obtain ⟨hreserved, hreleasing, hcarried, hcount⟩ := goto_sums hk .enqueue
  rw [show k.reserved = 0 by simp [SendCall.reserved, hpc],
    show (k.goto .enqueue).reserved = k.nbytes from rfl] at hreserved
  rw [show k.releasing = 0 by simp [SendCall.releasing, hpc],
    show (k.goto .enqueue).releasing = 0 from rfl] at hreleasing
  rw [show k.carried = k.nbytes by simp [SendCall.carried, hpc],
    show (k.goto .enqueue).carried = k.nbytes from rfl] at hcarried
  rw [show k.notifies = false by simp [SendCall.notifies, hpc],
    show (k.goto .enqueue).notifies = false from rfl] at hcount
  have hbytes := h.bytes
  -- the sum does not saturate: it is within a smaller limit, or the events are in memory
  have hsum : s.queuedBytes + k.nbytes ≤ usizeMax := by
    have hle := s.limits.bytes_le
    by_cases hmax : s.limits.maxEventBytes = usizeMax
    · have hmemory := h.memory hmax
      have hheld := held_le_carried (s.goto n k .enqueue)
      rw [show (s.goto n k .enqueue).queueBytes = s.queueBytes from rfl] at hheld
      omega
    · unfold satAdd at hlimit
      omega
  have hadd : satAdd s.queuedBytes k.nbytes = s.queuedBytes + k.nbytes := satAdd_eq hsum
  refine ⟨?_, hlimit, ?_, ?_, h.order, h.gone, ?_⟩
  · show satAdd s.queuedBytes k.nbytes = s.queueBytes + (s.goto n k .enqueue).reservedBytes +
      (s.goto n k .enqueue).releasingBytes
    omega
  · intro k' hk' cur woken' hpc'
    rcases mem_goto hk' with rfl | hold
    · cases hpc'
    · exact h.expected k' hold cur woken' hpc'
  · intro hmax
    have hmemory := h.memory hmax
    show (s.goto n k .enqueue).carriedBytes ≤ usizeMax
    omega
  · intro k' hk' hpc'
    rcases mem_goto hk' with rfl | hold
    · cases hpc'
    · rcases h.awake k' hold hpc' with hfull | hpos
      · left
        show s.limits.maxEventBytes < satAdd s.queuedBytes k.nbytes + k'.nbytes
        omega
      · right
        show 0 < (s.goto n k .enqueue).notifiers
        omega

/-- The item enters the channel. -/
theorem Sound.accept (h : Sound s) (hk : s.calls[n]? = some k) (hpc : k.pc = .enqueue)
    (hopen : s.receiver.isOpen = true) :
    Sound { s.goto n k (.ended .accepted) with
      queue := s.queue ++ [(k.event, k.nbytes)]
      accepted := s.accepted ++ [k.event] } := by
  obtain ⟨hreserved, hreleasing, hcarried, hcount⟩ := goto_sums hk (.ended .accepted)
  rw [show k.reserved = k.nbytes by simp [SendCall.reserved, hpc],
    show (k.goto (.ended .accepted)).reserved = 0 from rfl] at hreserved
  rw [show k.releasing = 0 by simp [SendCall.releasing, hpc],
    show (k.goto (.ended .accepted)).releasing = 0 from rfl] at hreleasing
  rw [show k.carried = k.nbytes by simp [SendCall.carried, hpc],
    show (k.goto (.ended .accepted)).carried = 0 from rfl] at hcarried
  rw [show k.notifies = false by simp [SendCall.notifies, hpc],
    show (k.goto (.ended .accepted)).notifies = false from rfl] at hcount
  have hbytes := h.bytes
  have hqueue : ((s.queue ++ [(k.event, k.nbytes)]).map (·.2)).sum = s.queueBytes + k.nbytes := by
    simp [queueBytes]
  refine ⟨?_, h.bound, ?_, ?_, ?_, ?_, ?_⟩
  · show s.queuedBytes = ((s.queue ++ [(k.event, k.nbytes)]).map (·.2)).sum +
      (s.goto n k (.ended .accepted)).reservedBytes + (s.goto n k (.ended .accepted)).releasingBytes
    omega
  · intro k' hk' cur woken hpc'
    rcases mem_goto hk' with rfl | hold
    · cases hpc'
    · exact h.expected k' hold cur woken hpc'
  · intro hmax
    have hmemory := h.memory hmax
    have hsplit : (s.goto n k (.ended .accepted)).carriedBytes = s.queueBytes +
        ((s.goto n k (.ended .accepted)).calls.map SendCall.carried).sum + s.receiver.held := rfl
    show ((s.queue ++ [(k.event, k.nbytes)]).map (·.2)).sum +
      ((s.goto n k (.ended .accepted)).calls.map SendCall.carried).sum + s.receiver.held ≤ usizeMax
    omega
  · obtain ⟨drained, haccepted, hnone⟩ := h.order
    refine ⟨drained, ?_, hnone⟩
    show s.accepted ++ [k.event] =
      s.received ++ drained ++ (s.queue ++ [(k.event, k.nbytes)]).map (·.1)
    rw [haccepted]
    simp
  · intro hgone
    rw [show s.receiver = .gone from hgone] at hopen
    cases hopen
  · intro k' hk' hpc'
    rcases mem_goto hk' with rfl | hold
    · cases hpc'
    · rcases h.awake k' hold hpc' with hfull | hpos
      · exact .inl hfull
      · right
        show 0 < (s.goto n k (.ended .accepted)).notifiers
        omega

theorem fetchSubBytes_eq {x n : Nat} (hle : n ≤ x) (hx : x ≤ usizeMax) :
    fetchSubBytes x n = x - n := by
  have hsplit : x + 2 ^ 64 - n = (x - n) + 2 ^ 64 := by omega
  have hlt : x - n < 2 ^ 64 := by
    unfold usizeMax at hx
    omega
  rw [fetchSubBytes, hsplit, Nat.add_mod_right, Nat.mod_eq_of_lt hlt]

/-- The counter does not wrap. -/
theorem release_eq {nbytes : Nat} (hle : nbytes ≤ s.queuedBytes) (hmax : s.queuedBytes ≤ usizeMax) :
    s.release nbytes = { s with queuedBytes := s.queuedBytes - nbytes } := by
  unfold ByteMailbox.release
  rw [fetchSubBytes_eq hle hmax]

/-- A send gives its permit back. -/
theorem Sound.subtract (h : Sound s) (hk : s.calls[n]? = some k) {outcome : SendOutcome}
    (hpc : k.pc = .subtract outcome) :
    Sound ((s.goto n k (.notify outcome)).release k.nbytes) := by
  obtain ⟨hreserved, hreleasing, hcarried, hcount⟩ := goto_sums hk (.notify outcome)
  rw [show k.reserved = 0 by simp [SendCall.reserved, hpc],
    show (k.goto (.notify outcome)).reserved = 0 from rfl] at hreserved
  rw [show k.releasing = k.nbytes by simp [SendCall.releasing, hpc],
    show (k.goto (.notify outcome)).releasing = 0 from rfl] at hreleasing
  rw [show k.carried = k.nbytes by simp [SendCall.carried, hpc],
    show (k.goto (.notify outcome)).carried = k.nbytes from rfl] at hcarried
  rw [show k.notifies = false by simp [SendCall.notifies, hpc],
    show (k.goto (.notify outcome)).notifies = true from rfl] at hcount
  have hbytes := h.bytes
  have hbound := h.bound
  have hle : k.nbytes ≤ s.queuedBytes := by omega
  rw [release_eq (s := s.goto n k (.notify outcome)) hle
    (Nat.le_trans hbound s.limits.bytes_le)]
  refine ⟨?_, ?_, ?_, ?_, h.order, h.gone, ?_⟩
  · show s.queuedBytes - k.nbytes = s.queueBytes +
      (s.goto n k (.notify outcome)).reservedBytes + (s.goto n k (.notify outcome)).releasingBytes
    omega
  · show s.queuedBytes - k.nbytes ≤ s.limits.maxEventBytes
    omega
  · intro k' hk' cur woken hpc'
    rcases mem_goto hk' with rfl | hold
    · cases hpc'
    · exact h.expected k' hold cur woken hpc'
  · intro hmax
    have hmemory := h.memory hmax
    show (s.goto n k (.notify outcome)).carriedBytes ≤ usizeMax
    omega
  · -- whoever waits now is woken by the notification that follows
    intro k' hk' hpc'
    right
    show 0 < (s.goto n k (.notify outcome)).notifiers
    simp at hcount
    omega

section Wake

@[simp] theorem wake_reserved (k : SendCall Event) : k.wake.reserved = k.reserved := by
  obtain ⟨kind, event, nbytes, pc⟩ := k
  cases pc <;> rfl

@[simp] theorem wake_releasing (k : SendCall Event) : k.wake.releasing = k.releasing := by
  obtain ⟨kind, event, nbytes, pc⟩ := k
  cases pc <;> rfl

@[simp] theorem wake_carried (k : SendCall Event) : k.wake.carried = k.carried := by
  obtain ⟨kind, event, nbytes, pc⟩ := k
  cases pc <;> rfl

@[simp] theorem wake_nbytes (k : SendCall Event) : k.wake.nbytes = k.nbytes := by
  obtain ⟨kind, event, nbytes, pc⟩ := k
  cases pc <;> rfl

theorem wake_exchange {k : SendCall Event} {cur : Nat} {woken : Bool}
    (h : k.wake.pc = .exchange cur woken) : ∃ woken', k.pc = .exchange cur woken' := by
  obtain ⟨kind, event, nbytes, pc⟩ := k
  cases pc with
  | exchange cur' woken' =>
      cases h
      exact ⟨woken', rfl⟩
  | _ => cases h

theorem wake_awake (k : SendCall Event) : k.wake.pc ≠ .waitBytes false := by
  obtain ⟨kind, event, nbytes, pc⟩ := k
  cases pc <;> simp [SendCall.wake, SendCall.goto]

end Wake

theorem awake_notifyWaiters : ∀ k ∈ s.notifyWaiters.calls, k.pc ≠ .waitBytes false := by
  intro k hk
  obtain ⟨k₀, -, rfl⟩ := List.mem_map.mp hk
  exact wake_awake k₀

theorem Sound.notifyWaiters (h : Sound s) : Sound s.notifyWaiters := by
  have hsum : ∀ f : SendCall Event → Nat, (∀ k, f k.wake = f k) →
      (s.notifyWaiters.calls.map f).sum = (s.calls.map f).sum := by
    intro f hf
    unfold ByteMailbox.notifyWaiters
    rw [List.map_map]
    exact congrArg List.sum (List.map_congr_left (fun k _ => hf k))
  have hreserved : s.notifyWaiters.reservedBytes = s.reservedBytes := hsum _ wake_reserved
  have hreleasing : s.notifyWaiters.releasingBytes = s.releasingBytes :=
    congrArg (· + s.receiver.held) (hsum _ wake_releasing)
  have hcarried : s.notifyWaiters.carriedBytes = s.carriedBytes :=
    congrArg (s.queueBytes + · + s.receiver.held) (hsum _ wake_carried)
  refine ⟨?_, h.bound, ?_, ?_, h.order, h.gone, ?_⟩
  · rw [hreserved, hreleasing]
    exact h.bytes
  · intro k hk cur woken hpc
    obtain ⟨k₀, hk₀, rfl⟩ := List.mem_map.mp hk
    obtain ⟨woken', hpc₀⟩ := wake_exchange hpc
    rw [wake_nbytes]
    exact h.expected k₀ hk₀ cur woken' hpc₀
  · rw [hcarried]
    exact h.memory
  · intro k hk hpc
    exact absurd hpc (awake_notifyWaiters k hk)

/-- A send wakes the waiters and is over. -/
theorem Sound.notify (h : Sound s) (hk : s.calls[n]? = some k) {outcome : SendOutcome}
    (hpc : k.pc = .notify outcome) : Sound (s.notifyWaiters.goto n k (.ended outcome)) := by
  have hwake : k.wake = k := by
    simp [SendCall.wake, hpc]
  have hk' : s.notifyWaiters.calls[n]? = some k := by
    unfold ByteMailbox.notifyWaiters
    rw [List.getElem?_map, hk, Option.map_some, hwake]
  refine h.notifyWaiters.move hk' ?_ (Nat.zero_le _) ?_ ?_
  · simp [SendCall.goto, SendCall.reserved, SendCall.releasing, hpc]
  · intro cur woken hover
    cases hover
  · intro k₁ hk₁ hwait
    rcases mem_goto hk₁ with rfl | hold
    · cases hwait
    · exact absurd hwait (awake_notifyWaiters k₁ hold)

/-- A call that has no bytes yet goes on without, or is over. -/
theorem Sound.advance (h : Sound s) (hk : s.calls[n]? = some k) (hfrom : k.unreserved = true)
    (hto : (k.goto pc).unreserved = true ∨ ∃ outcome, pc = .ended outcome)
    (hexpected : ∀ cur woken, pc = .exchange cur woken →
      satAdd cur k.nbytes ≤ s.limits.maxEventBytes)
    (hawake : pc = .waitBytes false → s.limits.maxEventBytes < s.queuedBytes + k.nbytes) :
    Sound (s.goto n k pc) := by
  have hempty : ∀ k : SendCall Event, k.unreserved = true →
      k.reserved = 0 ∧ k.releasing = 0 ∧ k.carried = k.nbytes ∧ k.notifies = false := by
    rintro ⟨kind, event, nbytes, pc⟩ hfree
    cases pc with
    | enqueue => cases hfree
    | subtract outcome => cases hfree
    | notify outcome => cases hfree
    | ended outcome => cases hfree
    | _ => exact ⟨rfl, rfl, rfl, rfl⟩
  obtain ⟨hreserved, hreleasing, hcarried, hnotifies⟩ := hempty k hfrom
  rcases hto with hto | ⟨outcome, rfl⟩
  · obtain ⟨hreserved', hreleasing', hcarried', -⟩ := hempty _ hto
    refine h.goto hk ?_ ?_ hexpected hawake hnotifies
    · omega
    · rw [hcarried', hcarried]
      exact Nat.le_refl _
  · refine h.goto hk ?_ (Nat.zero_le _) hexpected hawake hnotifies
    show 0 + 0 = k.reserved + k.releasing
    omega

/-- A send drops the item it could not place. -/
theorem Sound.refuse (h : Sound s) (hk : s.calls[n]? = some k) (hpc : k.pc = .enqueue)
    (outcome : SendOutcome) : Sound (s.goto n k (.subtract outcome)) := by
  refine h.goto hk ?_ ?_ ?_ ?_ ?_
  · simp [SendCall.goto, SendCall.reserved, SendCall.releasing, hpc]
  · simp [SendCall.goto, SendCall.carried, hpc]
  · intro cur woken hexchange
    cases hexchange
  · intro hwait
    cases hwait
  · simp [SendCall.notifies, hpc]

theorem again_unreserved (k : SendCall Event) : (k.goto k.again).unreserved = true := by
  obtain ⟨kind, event, nbytes, pc⟩ := k
  cases kind <;> rfl

theorem again_ne (k : SendCall Event) :
    (∀ cur woken, k.again ≠ .exchange cur woken) ∧ k.again ≠ .waitBytes false := by
  obtain ⟨kind, event, nbytes, pc⟩ := k
  cases kind <;> simp [SendCall.again]

/-- The head of the loop, from any point before the reservation. -/
theorem Sound.again (h : Sound s) (hk : s.calls[n]? = some k) (hfrom : k.unreserved = true) :
    Sound (s.goto n k k.again) :=
  h.advance hk hfrom (.inl (again_unreserved k))
    (fun cur woken heq => absurd heq ((again_ne k).1 cur woken))
    (fun heq => absurd heq (again_ne k).2)

/-- **One operation of a send.** -/
theorem Sound.operate {s' : ByteMailbox Event} (h : Sound s) (hk : s.calls[n]? = some k)
    (hstep : s.operate n k = some s') : Sound s' := by
  have hover : ∀ outcome, k.unreserved = true → Sound (s.goto n k (.ended outcome)) := by
    intro outcome hfrom
    exact h.advance hk hfrom (.inr ⟨outcome, rfl⟩) (fun _ _ heq => by cases heq)
      (fun heq => by cases heq)
  unfold ByteMailbox.operate at hstep
  cases hpc : k.pc with
  | check =>
      have hfrom : k.unreserved = true := by simp [SendCall.unreserved, hpc]
      simp only [hpc] at hstep
      split at hstep
      · cases hstep
        exact hover _ hfrom
      · cases hstep
        exact h.again hk hfrom
  | subscribe =>
      simp only [hpc] at hstep
      cases hstep
      refine h.advance hk (by simp [SendCall.unreserved, hpc]) (.inl rfl) ?_ ?_
      · intro cur woken heq
        cases heq
      · intro heq
        cases heq
  | load woken =>
      have hfrom : k.unreserved = true := by simp [SendCall.unreserved, hpc]
      simp only [hpc] at hstep
      split at hstep
      · rename_i hfull
        have hlack : s.limits.maxEventBytes < s.queuedBytes + k.nbytes :=
          Nat.lt_of_lt_of_le hfull (satAdd_le _ _)
        split at hstep
        · cases hstep
          refine h.advance hk hfrom (.inl rfl) ?_ (fun _ => hlack)
          intro cur woken' heq
          cases heq
        · cases hstep
          exact hover _ hfrom
      · rename_i hfits
        cases hstep
        refine h.advance hk hfrom (.inl rfl) ?_ ?_
        · intro cur woken' heq
          cases heq
          omega
        · intro heq
          cases heq
  | exchange cur woken =>
      simp only [hpc] at hstep
      split at hstep
      · rename_i hcur
        subst hcur
        cases hstep
        exact h.reserve hk hpc
      · cases hstep
        exact h.again hk (by simp [SendCall.unreserved, hpc])
  | waitBytes woken =>
      simp only [hpc] at hstep
      cases woken with
      | false => cases hstep
      | true =>
          cases hstep
          exact h.again hk (by simp [SendCall.unreserved, hpc])
  | enqueue =>
      simp only [hpc] at hstep
      split at hstep
      · rename_i hopen
        split at hstep
        · cases hstep
          exact h.accept hk hpc hopen
        · split at hstep
          · cases hstep
          · cases hstep
            exact h.refuse hk hpc _
      · cases hstep
        exact h.refuse hk hpc _
  | subtract outcome =>
      simp only [hpc] at hstep
      cases hstep
      exact h.subtract hk hpc
  | notify outcome =>
      simp only [hpc] at hstep
      cases hstep
      exact h.notify hk hpc
  | ended outcome =>
      simp only [hpc] at hstep
      cases hstep

theorem Sound.abandon {s' : ByteMailbox Event} (h : Sound s) (hk : s.calls[n]? = some k)
    (hstep : s.abandon n k = some s') : Sound s' := by
  have hover : k.unreserved = true → Sound (s.goto n k (.ended .abandoned)) := by
    intro hfrom
    exact h.advance hk hfrom (.inr ⟨_, rfl⟩) (fun _ _ heq => by cases heq)
      (fun heq => by cases heq)
  unfold ByteMailbox.abandon at hstep
  split at hstep
  · rename_i hpc
    cases hstep
    exact hover (by simp [SendCall.unreserved, hpc])
  · rename_i woken _ hpc
    cases hstep
    exact hover (by simp [SendCall.unreserved, hpc])
  · rename_i hpc
    cases hstep
    exact h.refuse hk hpc _
  · cases hstep

/-! ## The receiver -/

/-- The receiver takes the oldest item out. -/
theorem queueBytes_cons {event : Event} {nbytes : Nat} {rest : List (Event × Nat)}
    (hqueue : s.queue = (event, nbytes) :: rest) :
    s.queueBytes = nbytes + (rest.map (·.2)).sum := by
  simp [queueBytes, hqueue]

theorem Sound.recv {s' : ByteMailbox Event} (h : Sound s) (hstep : s.recv = some s') : Sound s' := by
  unfold ByteMailbox.recv at hstep
  split at hstep
  · rename_i event nbytes rest hreceiver hqueue
    cases hstep
    have hbytes := h.bytes
    have hsplit := queueBytes_cons hqueue
    unfold releasingBytes at hbytes
    rw [hreceiver] at hbytes
    simp only [ReceiverPc.held] at hbytes
    refine ⟨?_, h.bound, h.expected, ?_, ?_, ?_, ?_⟩
    · show s.queuedBytes = (rest.map (·.2)).sum + s.reservedBytes +
        ((s.calls.map SendCall.releasing).sum + nbytes)
      omega
    · intro hmax
      have hmemory := h.memory hmax
      unfold carriedBytes at hmemory
      rw [hreceiver] at hmemory
      simp only [ReceiverPc.held] at hmemory
      show (rest.map (·.2)).sum + (s.calls.map SendCall.carried).sum + nbytes ≤ usizeMax
      omega
    · obtain ⟨drained, haccepted, hnone⟩ := h.order
      have hnil := hnone (by rw [hreceiver]; rfl)
      subst hnil
      refine ⟨[], ?_, fun _ => rfl⟩
      show s.accepted = (s.received ++ [event]) ++ [] ++ rest.map (·.1)
      rw [haccepted, hqueue]
      simp
    · intro hgone
      cases hgone
    · intro k hk hpc
      rcases h.awake k hk hpc with hfull | hpos
      · exact .inl hfull
      · right
        unfold notifiers at hpos ⊢
        rw [hreceiver] at hpos
        exact hpos
  · cases hstep

/-- The host drops its receiver. -/
theorem Sound.dropReceiver {s' : ByteMailbox Event} (h : Sound s)
    (hstep : s.dropReceiver = some s') : Sound s' := by
  unfold ByteMailbox.dropReceiver at hstep
  split at hstep
  · rename_i hreceiver
    cases hstep
    have hbytes := h.bytes
    have hmemory := h.memory
    have hawake := h.awake
    unfold releasingBytes at hbytes
    unfold carriedBytes at hmemory
    unfold notifiers at hawake
    rw [hreceiver] at hbytes hmemory hawake
    obtain ⟨drained, haccepted, -⟩ := h.order
    refine ⟨hbytes, h.bound, h.expected, hmemory, ⟨drained, haccepted, ?_⟩, ?_, hawake⟩
    · intro hopen
      cases hopen
    · intro hgone
      cases hgone
  · cases hstep

/-- **One operation of the receiver.** -/
theorem Sound.receive {s' : ByteMailbox Event} (h : Sound s) (hstep : s.receive = some s') :
    Sound s' := by
  unfold ByteMailbox.receive at hstep
  have hbytes := h.bytes
  have hbound := h.bound
  have hmemory := h.memory
  have hawake := h.awake
  unfold releasingBytes at hbytes
  unfold carriedBytes at hmemory
  unfold notifiers at hawake
  cases hreceiver : s.receiver with
  | ready =>
      simp only [hreceiver] at hstep
      cases hstep
  | gone =>
      simp only [hreceiver] at hstep
      cases hstep
  | subtract nbytes closing =>
      simp only [hreceiver, ReceiverPc.held] at hstep hbytes hmemory
      have hle : nbytes ≤ s.queuedBytes := by omega
      rw [release_eq hle (Nat.le_trans hbound s.limits.bytes_le)] at hstep
      cases hstep
      refine ⟨?_, ?_, h.expected, ?_, ?_, ?_, ?_⟩
      · show s.queuedBytes - nbytes = s.queueBytes + s.reservedBytes +
          ((s.calls.map SendCall.releasing).sum + 0)
        omega
      · show s.queuedBytes - nbytes ≤ s.limits.maxEventBytes
        omega
      · intro hmax
        have hlive := hmemory hmax
        show s.queueBytes + (s.calls.map SendCall.carried).sum + 0 ≤ usizeMax
        omega
      · obtain ⟨drained, haccepted, hnone⟩ := h.order
        refine ⟨drained, haccepted, ?_⟩
        rw [hreceiver] at hnone
        cases closing with
        | false => exact fun _ => hnone rfl
        | true =>
            intro hopen
            cases hopen
      · intro hgone
        cases hgone
      · intro k hk hpc
        right
        show 0 < s.calls.countP SendCall.notifies + 1
        omega
  | notify closing =>
      simp only [hreceiver] at hstep
      cases hstep
      have hnotified := h.notifyWaiters
      have hbytes' := hnotified.bytes
      have hmemory' := hnotified.memory
      unfold releasingBytes at hbytes'
      unfold carriedBytes at hmemory'
      rw [show s.notifyWaiters.receiver = .notify closing from hreceiver] at hbytes' hmemory'
      have hheld : (if closing then ReceiverPc.draining else .ready).held = 0 := by
        cases closing <;> rfl
      refine ⟨?_, hbound, hnotified.expected, ?_, ?_, ?_, ?_⟩
      · show s.queuedBytes = s.queueBytes + s.notifyWaiters.reservedBytes +
          ((s.notifyWaiters.calls.map SendCall.releasing).sum +
            (if closing then ReceiverPc.draining else .ready).held)
        rw [hheld]
        exact hbytes'
      · intro hmax
        show s.queueBytes + (s.notifyWaiters.calls.map SendCall.carried).sum +
            (if closing then ReceiverPc.draining else .ready).held ≤ usizeMax
        rw [hheld]
        exact hmemory' hmax
      · obtain ⟨drained, haccepted, hnone⟩ := h.order
        refine ⟨drained, haccepted, ?_⟩
        rw [hreceiver] at hnone
        cases closing with
        | false => exact fun _ => hnone rfl
        | true =>
            intro hopen
            cases hopen
      · intro hgone
        cases closing <;> cases hgone
      · intro k hk hpc
        exact absurd hpc (awake_notifyWaiters k hk)
  | draining =>
      simp only [hreceiver, ReceiverPc.held, ReceiverPc.notifies] at hstep hbytes hmemory hawake
      obtain ⟨drained, haccepted, -⟩ := h.order
      cases hqueue : s.queue with
      | nil =>
          simp only [hqueue] at hstep
          cases hstep
          unfold queueBytes at hbytes hmemory
          rw [hqueue] at hbytes hmemory haccepted
          refine ⟨hbytes, hbound, h.expected, hmemory, ⟨drained, haccepted, ?_⟩, fun _ => rfl,
            hawake⟩
          intro hopen
          cases hopen
      | cons item rest =>
          obtain ⟨event, nbytes⟩ := item
          simp only [hqueue] at hstep
          cases hstep
          have hsplit := queueBytes_cons hqueue
          refine ⟨?_, hbound, h.expected, ?_, ⟨drained ++ [event], ?_, ?_⟩, ?_, hawake⟩
          · show s.queuedBytes = (rest.map (·.2)).sum + s.reservedBytes +
              ((s.calls.map SendCall.releasing).sum + nbytes)
            omega
          · intro hmax
            have hlive := hmemory hmax
            show (rest.map (·.2)).sum + (s.calls.map SendCall.carried).sum + nbytes ≤ usizeMax
            omega
          · show s.accepted = s.received ++ (drained ++ [event]) ++ rest.map (·.1)
            rw [haccepted, hqueue]
            simp
          · intro hopen
            cases hopen
          · intro hgone
            cases hgone

/-- A new send carries its event and holds no bytes. -/
theorem Sound.call {estimate : Event → Nat} {event : Event} (kind : SendKind) (h : Sound s)
    (hmemory : s.InMemory estimate (.call kind event)) :
    Sound { s with calls := s.calls ++ [⟨kind, event, estimate event, .check⟩] } := by
  have hnew : ∀ k ∈ s.calls ++ [(⟨kind, event, estimate event, .check⟩ : SendCall Event)],
      k ∈ s.calls ∨ k.pc = .check := by
    intro k hk
    rcases List.mem_append.mp hk with hold | hnew
    · exact .inl hold
    · rw [List.mem_singleton.mp hnew]
      exact .inr rfl
  refine ⟨?_, h.bound, ?_, ?_, h.order, h.gone, ?_⟩
  · have hbytes := h.bytes
    unfold releasingBytes reservedBytes queueBytes at hbytes ⊢
    simpa [SendCall.reserved, SendCall.releasing] using hbytes
  · intro k hk cur woken hpc
    rcases hnew k hk with hold | hcheck
    · exact h.expected k hold cur woken hpc
    · rw [hpc] at hcheck
      cases hcheck
  · intro hmax
    have hfits := hmemory hmax
    unfold carriedBytes queueBytes at hfits ⊢
    simp only [List.map_append, List.map_cons, List.map_nil, List.sum_append, List.sum_cons,
      List.sum_nil, SendCall.carried]
    omega
  · intro k hk hpc
    rcases hnew k hk with hold | hcheck
    · rcases h.awake k hold hpc with hfull | hpos
      · exact .inl hfull
      · right
        unfold notifiers at hpos ⊢
        simpa [SendCall.notifies] using hpos
    · rw [hpc] at hcheck
      cases hcheck

/-- **Every step keeps the account.** -/
theorem Sound.step {estimate : Event → Nat} {s' : ByteMailbox Event} {a : MailboxAction Event}
    (h : Sound s) (hmemory : s.InMemory estimate a) (hstep : step estimate a s = some s') :
    Sound s' := by
  cases a with
  | call kind event =>
      cases hstep
      exact h.call kind hmemory
  | operate n =>
      obtain ⟨k, hk, hoperate⟩ := Option.bind_eq_some_iff.mp hstep
      exact h.operate hk hoperate
  | full n =>
      obtain ⟨k, hk, hfull⟩ := Option.bind_eq_some_iff.mp hstep
      unfold ByteMailbox.full at hfull
      split at hfull
      · rename_i hwaits
        cases hfull
        exact h.refuse hk hwaits.2.1 _
      · cases hfull
  | abandon n =>
      obtain ⟨k, hk, habandon⟩ := Option.bind_eq_some_iff.mp hstep
      exact h.abandon hk habandon
  | recv => exact h.recv hstep
  | dropReceiver => exact h.dropReceiver hstep
  | receive => exact h.receive hstep

theorem sound_of_reach {estimate : Event → Nat} {s : ByteMailbox Event}
    (h : (byteMailbox estimate).Reach (ByteMailbox.InMemory estimate) s) : Sound s := by
  refine h.invariant ?_ ?_
  · rintro s ⟨limits, rfl⟩
    exact sound_new limits
  · intro s a s' _ hsound hmemory hstep
    exact hsound.step hmemory hstep

/-- No permit is between its place and the end of its drop: no item taken out of the
channel whose bytes or notification are still due. -/
def Settled (s : ByteMailbox Event) : Prop := s.releasingBytes = 0 ∧ s.notifiers = 0

end ByteMailbox

open ByteMailbox in
/-- **The mailbox keeps its account and loses nothing.** In every state reached by
sends, receives, abandoned sends and the drop of the receiver in any interleaving,
the counter is the sum of what is queued, what sends in flight have reserved and
what is being given back, within the limit, and no `fetch_sub` takes more than is
there; what was received is, in order, the first part of what was accepted, and up
to the drop of the receiver the rest is queued; with the receiver dropped and every
send over the counter is zero; and a send waits unwoken only while it lacks bytes
or a drop that freed some has its notification still to come. -/
theorem mailbox_accounts {Event : Type} {estimate : Event → Nat} {s : ByteMailbox Event}
    (h : (byteMailbox estimate).Reach (ByteMailbox.InMemory estimate) s) :
    (s.queuedBytes = s.queueBytes + s.reservedBytes + s.releasingBytes ∧
      (s.Settled → s.queuedBytes = s.queueBytes + s.reservedBytes)) ∧
    s.queuedBytes ≤ s.limits.maxEventBytes ∧
    ((∀ k ∈ s.calls, ∀ outcome, k.pc = .subtract outcome → k.nbytes ≤ s.queuedBytes) ∧
      ∀ nbytes closing, s.receiver = .subtract nbytes closing → nbytes ≤ s.queuedBytes) ∧
    (s.received <+: s.accepted ∧
      (s.receiver.isOpen = true → s.accepted = s.received ++ s.queue.map (·.1))) ∧
    (s.receiver = .gone → (∀ k ∈ s.calls, k.isOver = true) → s.queuedBytes = 0) ∧
    ∀ k ∈ s.calls, k.pc = .waitBytes false →
      (s.limits.maxEventBytes < s.queuedBytes + k.nbytes ∨ 0 < s.notifiers) ∧
      (s.Settled → s.limits.maxEventBytes < s.queuedBytes + k.nbytes) := by
  have hsound := sound_of_reach h
  have hbytes := hsound.bytes
  obtain ⟨drained, haccepted, hnone⟩ := hsound.order
  refine ⟨⟨hbytes, ?_⟩, hsound.bound, ⟨?_, ?_⟩, ⟨?_, ?_⟩, ?_, ?_⟩
  · intro hsettled
    rw [hbytes, hsettled.1, Nat.add_zero]
  · intro k hk outcome hpc
    have hle : k.releasing ≤ (s.calls.map SendCall.releasing).sum :=
      List.single_le_sum (fun _ _ => Nat.zero_le _) _ (List.mem_map_of_mem hk)
    rw [show k.releasing = k.nbytes by simp [SendCall.releasing, hpc]] at hle
    unfold releasingBytes at hbytes
    omega
  · intro nbytes closing hreceiver
    unfold releasingBytes at hbytes
    rw [hreceiver] at hbytes
    simp only [ReceiverPc.held] at hbytes
    omega
  · rw [haccepted, List.append_assoc]
    exact List.prefix_append _ _
  · intro hopen
    rw [haccepted, hnone hopen, List.append_nil]
  · intro hgone hover
    have hempty : ∀ f : SendCall Event → Nat, (∀ k, k.isOver = true → f k = 0) →
        (s.calls.map f).sum = 0 := by
      intro f hf
      rw [List.sum_eq_zero_iff_forall_eq_nat]
      intro x hx
      obtain ⟨k, hk, rfl⟩ := List.mem_map.mp hx
      exact hf k (hover k hk)
    have hreserved : s.reservedBytes = 0 := hempty _ (by
      intro k hk
      unfold SendCall.isOver at hk
      unfold SendCall.reserved
      cases hpc : k.pc <;> simp_all)
    have hreleasing : (s.calls.map SendCall.releasing).sum = 0 := hempty _ (by
      intro k hk
      unfold SendCall.isOver at hk
      unfold SendCall.releasing
      cases hpc : k.pc <;> simp_all)
    have hqueue : s.queueBytes = 0 := by
      simp [queueBytes, hsound.gone hgone]
    unfold releasingBytes at hbytes
    rw [hgone] at hbytes
    simp only [ReceiverPc.held] at hbytes
    omega
  · intro k hk hpc
    refine ⟨hsound.awake k hk hpc, fun hsettled => ?_⟩
    rcases hsound.awake k hk hpc with hfull | hpos
    · exact hfull
    · have hquiet := hsettled.2
      omega

instance {Event : Type} (estimate : Event → Nat) (s : ByteMailbox Event) (a : MailboxAction Event) :
    Decidable (s.InMemory estimate a) :=
  match a with
  | .call _ event => inferInstanceAs (Decidable (_ = _ → s.carriedBytes + estimate event ≤ usizeMax))
  | .operate _ | .full _ | .abandon _ | .recv | .dropReceiver | .receive =>
      inferInstanceAs (Decidable True)

/-- A second send of six bytes waits in a mailbox of ten until the first is received. -/
def secondSend : List (MailboxAction Nat) :=
  [.call .send 6, .operate 0, .operate 0, .operate 0, .operate 0, .operate 0,
    .call .send 6, .operate 1, .operate 1, .operate 1, .recv, .receive, .receive,
    .operate 1, .operate 1, .operate 1, .operate 1, .operate 1]

theorem second_send_accounted : ∃ s : ByteMailbox Nat, s.received = [6] ∧ s.accepted = [6, 6] ∧
    s.queuedBytes = s.queueBytes + s.reservedBytes + s.releasingBytes := by
  obtain ⟨s, hreach, htest⟩ := System.exists_of_runWhere (M := byteMailbox id)
    (ByteMailbox.InMemory id) ⟨⟨2, 10, by decide, by decide, by decide⟩, rfl⟩ secondSend
    (fun s => decide (s.received = [6]) && decide (s.accepted = [6, 6])) (by decide +kernel)
  simp only [Bool.and_eq_true, decide_eq_true_eq] at htest
  exact ⟨s, htest.1, htest.2, (mailbox_accounts hreach).1.1⟩

end Monoloop.Publisher
