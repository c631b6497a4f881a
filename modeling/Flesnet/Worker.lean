import Mathlib.Data.List.Basic

/-! Work items and the per-worker record of the `ItemDistributor` broker (`ItemDistributor.hpp`).

    An `Item` is the object the broker shares between worker queues through `shared_ptr`:
    `serial` stands for the object's address, so two objects that carry the same ID stay
    distinct. A `Worker` keeps the stride/offset predicate of its REGISTER, its queue policy and
    its two queues. The record steps below are the parts of `on_generator_pollin` and
    `on_worker_pollin` that touch a single record; `Distributor` composes them with the
    completion ledger and the two sockets. -/

namespace Flesnet

/-- `ItemID`: the 64-bit unsigned value `std::stoull` returns. -/
abbrev ItemID := UInt64

/-- An `Item` object (lines 69-86). The reference to the ledger is the broker's one ledger. -/
structure Item where
  serial : Nat
  id : ItemID
  payload : String
  deriving DecidableEq, Repr

/-- Modelled from the spec: `WorkerQueuePolicy` is declared in `ItemWorkerProtocol.hpp`, which is
    not in this repository; the spec names its three values `Async`, `PrebufferOne` and `Skip`. -/
inductive WorkerQueuePolicy where
  | async | prebufferOne | skip
  deriving DecidableEq, Repr

/-- The waiting queue of a busy record after a new item (lines 186-188, with the PrebufferOne
    clear of lines 176-178): Async appends it, PrebufferOne keeps only it, Skip drops it. -/
def WorkerQueuePolicy.hold {α : Type} : WorkerQueuePolicy → List α → α → List α
  | .async, q, x => q ++ [x]
  | .prebufferOne, _, x => [x]
  | .skip, q, _ => q

@[simp] theorem WorkerQueuePolicy.map_hold {α β : Type} (p : WorkerQueuePolicy) (f : α → β)
    (q : List α) (x : α) : (p.hold q x).map f = p.hold (q.map f) (f x) := by
  cases p <;> simp [WorkerQueuePolicy.hold]

/-- Why an event handler does not return: a failed `assert`, an exception that escapes it
    (`std::out_of_range`, `std::invalid_argument`, `zmq::error_t`), or undefined behaviour
    (a frame read past the end of a message, a `%` by zero). -/
inductive Fault where
  | assertion | outOfRange | invalidArgument | zmqError | undefined
  deriving DecidableEq, Repr

/-- `struct Worker` (lines 88-99) without `next_heartbeat_time`, which no code reads. -/
structure Worker where
  stride : UInt64
  offset : UInt64
  queuePolicy : WorkerQueuePolicy
  clientName : String
  waitingItems : List Item
  outstandingItems : List Item
  deriving DecidableEq, Repr

namespace Worker

/-- `Worker::wants_item`: `id % stride == offset`. A zero stride divides by zero. -/
def wantsItem (w : Worker) (id : ItemID) : Except Fault Bool :=
  if w.stride = 0 then .error .undefined else .ok (id % w.stride == w.offset)

/-- The IDs the predicate selects: those for which `wants_item` is defined and true. -/
def selects (w : Worker) (id : ItemID) : Bool := w.stride != 0 && id % w.stride == w.offset

/-- Every `shared_ptr` the record holds: its waiting and its outstanding items. -/
def items (w : Worker) : List Item := w.waitingItems ++ w.outstandingItems

/-- Lines 176-178: a PrebufferOne worker drops its prebuffered item before the new one. -/
def clearPrebuffer (w : Worker) : Worker :=
  if w.queuePolicy = .prebufferOne then { w with waitingItems := [] } else w

/-- The items `clearPrebuffer` lets go of. -/
def prebuffered (w : Worker) : List Item :=
  if w.queuePolicy = .prebufferOne then w.waitingItems else []

/-- Lines 179-188: an idle worker takes the item as outstanding at once; a busy one queues it
    in `waiting_items`, unless it skips. -/
def enqueue (w : Worker) (x : Item) : Worker :=
  if w.outstandingItems = [] then { w with outstandingItems := w.outstandingItems ++ [x] }
  else if w.queuePolicy = .skip then w
  else { w with waitingItems := w.waitingItems ++ [x] }

/-- The loop body of `on_generator_pollin` on a worker that wants `x`. -/
def offer (w : Worker) (x : Item) : Worker := w.clearPrebuffer.enqueue x

/-- Lines 233-237: `find_if` the first outstanding item with this ID and `erase` it. -/
def eraseOutstanding (w : Worker) (id : ItemID) : Worker :=
  { w with outstandingItems := w.outstandingItems.eraseP (·.id == id) }

/-- Lines 239-244: the front of `waiting_items` moves to the back of `outstanding_items`. -/
def sendNext (w : Worker) : Worker :=
  match w.waitingItems with
  | [] => w
  | y :: rest => { w with waitingItems := rest, outstandingItems := w.outstandingItems ++ [y] }

/-- The record after an accepted `COMPLETE id`. -/
def handOff (w : Worker) (id : ItemID) : Worker := (w.eraseOutstanding id).sendNext

/-! ### The record steps keep the REGISTER fields -/

section
variable (w : Worker) (x : Item) (id : ItemID)

@[simp] theorem clearPrebuffer_stride : w.clearPrebuffer.stride = w.stride := by
  unfold clearPrebuffer; split <;> rfl
@[simp] theorem clearPrebuffer_offset : w.clearPrebuffer.offset = w.offset := by
  unfold clearPrebuffer; split <;> rfl
@[simp] theorem clearPrebuffer_queuePolicy : w.clearPrebuffer.queuePolicy = w.queuePolicy := by
  unfold clearPrebuffer; split <;> rfl
@[simp] theorem clearPrebuffer_outstandingItems :
    w.clearPrebuffer.outstandingItems = w.outstandingItems := by
  unfold clearPrebuffer; split <;> rfl
@[simp] theorem enqueue_stride : (w.enqueue x).stride = w.stride := by
  unfold enqueue; split_ifs <;> rfl
@[simp] theorem enqueue_offset : (w.enqueue x).offset = w.offset := by
  unfold enqueue; split_ifs <;> rfl
@[simp] theorem enqueue_queuePolicy : (w.enqueue x).queuePolicy = w.queuePolicy := by
  unfold enqueue; split_ifs <;> rfl
@[simp] theorem offer_stride : (w.offer x).stride = w.stride := by simp [offer]
@[simp] theorem offer_offset : (w.offer x).offset = w.offset := by simp [offer]
@[simp] theorem offer_queuePolicy : (w.offer x).queuePolicy = w.queuePolicy := by simp [offer]
@[simp] theorem sendNext_stride : w.sendNext.stride = w.stride := by
  unfold sendNext; split <;> rfl
@[simp] theorem sendNext_offset : w.sendNext.offset = w.offset := by
  unfold sendNext; split <;> rfl
@[simp] theorem sendNext_queuePolicy : w.sendNext.queuePolicy = w.queuePolicy := by
  unfold sendNext; split <;> rfl
@[simp] theorem handOff_stride : (w.handOff id).stride = w.stride := by simp [handOff, eraseOutstanding]
@[simp] theorem handOff_offset : (w.handOff id).offset = w.offset := by simp [handOff, eraseOutstanding]
@[simp] theorem handOff_queuePolicy : (w.handOff id).queuePolicy = w.queuePolicy := by
  simp [handOff, eraseOutstanding]

@[simp] theorem offer_selects : (w.offer x).selects = w.selects := by
  funext; simp [selects]
@[simp] theorem handOff_selects : (w.handOff id).selects = w.selects := by
  funext; simp [selects]

end

theorem wantsItem_eq_ok {w : Worker} {id : ItemID} {b : Bool} (h : w.wantsItem id = .ok b) :
    w.selects id = b := by
  unfold wantsItem at h
  split_ifs at h with h0
  cases h
  simp [selects, h0]

/-! ### What `offer` and `handOff` do to a record of the usual shape -/

section
variable {w : Worker} {x : Item} {id : ItemID}

/-- An idle record with nothing waiting takes the item as its one outstanding item. -/
theorem offer_of_idle (ho : w.outstandingItems = []) (hq : w.waitingItems = []) :
    w.offer x = { w with outstandingItems := [x] } := by
  unfold offer enqueue clearPrebuffer
  split_ifs <;> simp_all

/-- A busy record keeps the item back as its policy says. -/
theorem offer_of_busy (ho : w.outstandingItems ≠ []) :
    w.offer x = { w with waitingItems := w.queuePolicy.hold w.waitingItems x } := by
  obtain ⟨_, _, p, _, _, _⟩ := w
  cases p <;> simp_all [offer, enqueue, clearPrebuffer, WorkerQueuePolicy.hold]

/-- An accepted COMPLETE on a record with at most one outstanding item empties
    `outstanding_items`. -/
theorem eraseOutstanding_of_find (h1 : w.outstandingItems.length ≤ 1)
    (hx : w.outstandingItems.find? (·.id == id) = some x) :
    w.eraseOutstanding id = { w with outstandingItems := [] } := by
  match hw : w.outstandingItems, h1 with
  | [], _ => simp [hw] at hx
  | [y], _ =>
    rw [hw, List.find?_singleton] at hx
    simp [eraseOutstanding, hw, Option.ite_none_right_eq_some.mp hx]

end

end Worker

end Flesnet
