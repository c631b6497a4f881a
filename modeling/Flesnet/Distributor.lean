import Flesnet.WorkerTable
import Flesnet.Codec

/-! The broker `ItemDistributor` (`ItemDistributor.hpp`, lines 101-300) as a state machine.

    The state is the worker table, the completion ledger `completed_items_`, and what the two
    sockets have seen: the IDs read from the producer and every message handed to a socket with
    the transport's verdict on it. Item objects are shared: an object is alive while a worker
    queue, or a local `shared_ptr` of the running handler, still points to it, and when the last
    pointer goes `~Item` appends its ID to the ledger. `dropRef` is that release, with the local
    pointers passed as `pinned`. The transport is a parameter: which routing identities have a
    peer, and the network's verdict on the `n`-th send of a run, so every run of every network
    is a run of the model. `operator()` is the loop of `poller.wait` and `send_heartbeat()`
    over these handlers.

    Each handler is the source function it is named after; a `Fault` is the end of the process
    (a failed `assert`, an escaping exception, undefined behaviour). -/

namespace Flesnet

/-- The transport's verdict on one send: queued for delivery, or an error, which cppzmq throws
    as `zmq::error_t`. No send passes `ZMQ_DONTWAIT` and no socket sets a send timeout (lines
    103-110), so a send blocks until it is queued: `EAGAIN`, the one error cppzmq reports by
    returning false, never happens. -/
inductive SendResult where
  | delivered | raised
  deriving DecidableEq, Repr

/-- A message the broker hands to a socket. `send_disconnect` is never called. -/
inductive Outbound where
  | workItem (identity : String) (item : Item)
  | heartbeat (identity : String)
  | completion (id : ItemID)
  deriving DecidableEq, Repr

/-- The frames of each message as the code builds them (lines 146, 252-259, 283-287). -/
def Outbound.frames : Outbound → List String
  | .workItem identity item =>
    [identity, "", "WORK_ITEM " ++ toString item.id] ++
      (if item.payload.isEmpty then [] else [item.payload])
  | .heartbeat identity => [identity, "", "HEARTBEAT"]
  | .completion id => [toString id]

/-- The sockets and the network under them. `router_mandatory` (line 107) makes the worker
    socket throw on a send to a routing identity no connected peer has; `hasPeer` says which
    have one. Any other send gets the network's verdict, by its position in the run. -/
structure Transport where
  hasPeer : String → Bool
  verdict : Nat → SendResult

instance : CoeFun Transport fun _ => Nat → SendResult := ⟨Transport.verdict⟩

/-- A transport that routes every identity and delivers every message. -/
def deliverAll : Transport := ⟨fun _ => true, fun _ => .delivered⟩

/-- The broker's state; `allocated` counts the `Item` objects made so far, so the next one gets
    a fresh serial. -/
structure ItemDistributor where
  workers : WorkerTable
  completedItems : List ItemID
  allocated : Nat
  received : List ItemID
  sent : List (Outbound × SendResult)

namespace ItemDistributor

/-- The broker after its constructor: no workers, nothing received or sent. -/
def init : ItemDistributor := ⟨.empty, [], 0, [], []⟩

/-- A send recorded with the transport's verdict. -/
def log (st : ItemDistributor) (o : Outbound) (r : SendResult) : ItemDistributor :=
  { st with sent := st.sent ++ [(o, r)] }

/-- The IDs the producer actually received. -/
def transmitted (st : ItemDistributor) : List ItemID :=
  st.sent.filterMap fun
    | (.completion id, .delivered) => some id
    | _ => none

end ItemDistributor

open ItemDistributor

/-! ### Sockets -/

/-- `send_work_item` and `send_heartbeat(identity)` (lines 250-293) on the `ROUTER` socket: a
    send to an identity with no peer throws `EHOSTUNREACH`, and a `zmq::error_t` escapes. The
    branch that logs a send returning false is dead. -/
def sendWorkerMessage (net : Transport) (identity : String) (o : Outbound)
    (st : ItemDistributor) : Except Fault ItemDistributor :=
  if net.hasPeer identity = false ∨ net st.sent.length = .raised then .error .zmqError
  else .ok (st.log o (net st.sent.length))

/-- `send_work_item` (lines 250-265). -/
def sendWorkItem (net : Transport) (identity : String) (item : Item) :=
  sendWorkerMessage net identity (.workItem identity item)

/-- `send_heartbeat(identity)` (lines 281-293). -/
def sendHeartbeat (net : Transport) (identity : String) :=
  sendWorkerMessage net identity (.heartbeat identity)

/-- The loop of `send_pending_completions` (lines 145-147): a send that throws ends it, into the
    `catch`. -/
def sendCompletions (net : Transport) : List ItemID → ItemDistributor → ItemDistributor
  | [], st => st
  | id :: ids, st =>
    if net st.sent.length = .raised then st.log (.completion id) .raised
    else sendCompletions net ids (st.log (.completion id) (net st.sent.length))

/-- `send_pending_completions` (lines 143-152): the ledger is cleared whatever the sends did. -/
def sendPendingCompletions (net : Transport) (st : ItemDistributor) : ItemDistributor :=
  { sendCompletions net st.completedItems st with completedItems := [] }

/-! ### Shared ownership of items -/

/-- One `shared_ptr` to `x` is destroyed; `pinned` are the pointers still alive outside the
    table. With no copy left the object dies and `~Item` appends its ID to the ledger (line 80). -/
def dropRef (pinned : List Item) (x : Item) (st : ItemDistributor) : ItemDistributor :=
  if x ∈ pinned ∨ x ∈ st.workers.items then st
  else { st with completedItems := st.completedItems ++ [x.id] }

/-- A container of pointers destroyed front to back; the pointers not yet destroyed pin theirs. -/
def dropRefs (pinned : List Item) : List Item → ItemDistributor → ItemDistributor
  | [], st => st
  | x :: xs, st => dropRefs pinned xs (dropRef (xs ++ pinned) x st)

/-- Destroying a `Worker`: its members go in reverse order, `outstanding_items` before
    `waiting_items`. -/
def destroyWorker (w : Worker) : ItemDistributor → ItemDistributor :=
  dropRefs [] (w.outstandingItems ++ w.waitingItems)

/-- `workers_.erase(identity)` (line 209): the node leaves the map, then its record is
    destroyed. An unknown identity only logs an error. -/
def eraseWorker (identity : String) (st : ItemDistributor) : ItemDistributor :=
  match st.workers.get? identity with
  | none => st
  | some w => destroyWorker w { st with workers := st.workers.erase identity }

/-- `workers_[identity] = std::move(c)` (line 223): the new record is in place before the one it
    replaces is destroyed. -/
def assignWorker (identity : String) (c : Worker) (st : ItemDistributor) : ItemDistributor :=
  let st' := { st with workers := st.workers.insert identity c }
  match st.workers.get? identity with
  | none => st'
  | some w => destroyWorker w st'

/-! ### `on_generator_pollin` -/

/-- `receive_producer_item` (lines 154-167): the ID frame through `std::stoull`, the optional
    payload frame, and a new `Item` object. -/
def receiveProducerItem (message : List String) (st : ItemDistributor) :
    Except Fault (Item × ItemDistributor) :=
  match message with
  | [] => .error .undefined
  | frame :: rest => do
    let id ← stoull frame
    pure (⟨st.allocated, id, rest.headD ""⟩,
      { st with allocated := st.allocated + 1, received := st.received ++ [id] })

/-- The loop body of `on_generator_pollin` (lines 175-189) on the worker under `identity`;
    `new_item` pins `x`. -/
def distribute (net : Transport) (x : Item) (st : ItemDistributor) (identity : String) :
    Except Fault ItemDistributor :=
  match st.workers.get? identity with
  | none => .ok st
  | some w =>
    match w.wantsItem x.id with
    | .error e => .error e
    | .ok false => .ok st
    | .ok true =>
      let st := dropRefs [x] w.prebuffered
        { st with workers := st.workers.insert identity w.clearPrebuffer }
      let st := { st with workers := st.workers.insert identity (w.offer x) }
      if w.outstandingItems = [] then sendWorkItem net identity x st else .ok st

/-- The fan-out loop over the workers, in key order. -/
def fanOut (net : Transport) (x : Item) : List String → ItemDistributor →
    Except Fault ItemDistributor
  | [], st => .ok st
  | k :: ks, st => do fanOut net x ks (← distribute net x st k)

/-- `on_generator_pollin` (lines 170-195): the fan-out, `new_item = nullptr`, the drain. -/
def onGeneratorPollin (net : Transport) (message : List String) (st : ItemDistributor) :
    Except Fault ItemDistributor := do
  let (x, st) ← receiveProducerItem message st
  let st ← fanOut net x st.workers.keys st
  pure (sendPendingCompletions net (dropRef [] x st))

/-! ### `on_worker_pollin` -/

/-- What `on_worker_pollin` makes of a worker message. -/
inductive WorkerCommand where
  | disconnect (identity : String)
  | register (identity : String) (record : Option Worker)
  | complete (identity : String) (id : Option ItemID)
  | other

/-- Lines 215 and 224: the verb at the start of the command text. -/
def commandOf (identity message : String) : WorkerCommand :=
  if "REGISTER ".data.isPrefixOf message.data then .register identity (parseRegister message)
  else if "COMPLETE ".data.isPrefixOf message.data then
    .complete identity (parseComplete message)
  else .other

/-- Lines 199-214: the three asserts, `peekstr(1)` as the identity, a two-frame message as a
    disconnect notification, and `peekstr(3)` as the command text otherwise. -/
def decodeMessage (message : List String) : Except Fault WorkerCommand :=
  match message with
  | f0 :: f1 :: rest =>
    if f0.isEmpty || !f1.isEmpty then .error .assertion
    else if rest = [] then .ok (.disconnect f1)
    else match message[3]? with
      | none => .error .undefined
      | some body => .ok (commandOf f1 body)
  | _ => .error .assertion

/-- The COMPLETE branch (lines 226-244): `workers_.at`, the asserts, the erase, and the hand-off
    of the next waiting item. -/
def complete (net : Transport) (identity : String) (id : Option ItemID)
    (st : ItemDistributor) : Except Fault ItemDistributor := do
  let c ← st.workers.«at» identity
  let some id := id | .error .assertion
  let some x := c.outstandingItems.find? (·.id == id) | .error .assertion
  let c := c.eraseOutstanding id
  let st := dropRef [] x { st with workers := st.workers.insert identity c }
  match c.waitingItems with
  | [] => pure st
  | y :: _ => sendWorkItem net identity y { st with workers := st.workers.insert identity c.sendNext }

/-- The branches of `on_worker_pollin` before its drain. -/
def execute (net : Transport) : WorkerCommand → ItemDistributor → Except Fault ItemDistributor
  | .disconnect identity, st => .ok (eraseWorker identity st)
  | .register _ none, _ => .error .assertion
  | .register identity (some c), st => .ok (assignWorker identity c st)
  | .complete identity id, st => complete net identity id st
  | .other, st => .ok st

/-- `on_worker_pollin` (lines 198-248). -/
def onWorkerPollin (net : Transport) (message : List String) (st : ItemDistributor) :
    Except Fault ItemDistributor := do
  let st ← execute net (← decodeMessage message) st
  pure (sendPendingCompletions net st)

/-! ### Heartbeats and the event loop -/

/-- The loop of `send_heartbeat()` (lines 134-141) over the table's entries: every idle worker
    gets a HEARTBEAT; the timing the TODO mentions is not there. -/
def sendHeartbeats (net : Transport) : List (String × Worker) → ItemDistributor →
    Except Fault ItemDistributor
  | [], st => .ok st
  | (identity, w) :: ws, st => do
    sendHeartbeats net ws
      (← if w.outstandingItems = [] then sendHeartbeat net identity st else pure st)

/-- What wakes the loop of `operator()`: a readable socket, or the end of a `poller.wait`, after
    which `send_heartbeat()` runs. -/
inductive Event where
  | producer (message : List String)
  | worker (message : List String)
  | tick

/-- One event, handled. -/
def handle (net : Transport) : Event → ItemDistributor → Except Fault ItemDistributor
  | .producer message, st => onGeneratorPollin net message st
  | .worker message, st => onWorkerPollin net message st
  | .tick, st => sendHeartbeats net st.workers.entries st

/-- A run: the events in order, up to the first fault. -/
def run (net : Transport) : List Event → ItemDistributor → Except Fault ItemDistributor
  | [], st => .ok st
  | ev :: evs, st => do run net evs (← handle net ev st)

/-- The states some run from `init` reaches on the transport `net`. -/
def Reachable (net : Transport) (st : ItemDistributor) : Prop :=
  ∃ evs, run net evs init = .ok st

/-- What one `poller.wait` of `operator()` (lines 113-125) hands to the handlers: at most one
    message of each socket, the producer's first, in the order the sockets were added. -/
structure Wait where
  producer : Option (List String)
  worker : Option (List String)

/-- The events of one pass of the loop: the messages of the wait, then `send_heartbeat()`,
    which runs after every wait, whether a message came or the timeout passed. -/
def Wait.events (w : Wait) : List Event :=
  w.producer.toList.map .producer ++ w.worker.toList.map .worker ++ [.tick]

/-- `operator()`: the passes of the loop in order, up to the first fault. -/
def operator (net : Transport) : List Wait → ItemDistributor → Except Fault ItemDistributor
  | [], st => .ok st
  | w :: ws, st => do operator net ws (← run net w.events st)

end Flesnet
