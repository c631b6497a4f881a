import Flesnet.Steps

/-! The worker channel as `on_worker_pollin` reads it.

    The handler asserts that frame 0 is non-empty and frame 1 empty, takes the identity from
    `peekstr(1)`, which is that empty delimiter, and the command text from `peekstr(3)`. So a
    two-frame envelope disconnects the empty identity, a three-frame envelope reads past its
    end, and a longer one is the command of frame 3 (`onWorkerPollin_envelope`); every record is
    filed under the empty identity, so no other key is ever present (`worker_table_keys`).
    REGISTER checks none of its fields: a zero stride is installed, and the next producer item
    divides by it (`register_zero_stride`). A COMPLETE or REGISTER that is malformed or names
    nothing outstanding ends the handler with an exception or a failed assert
    (`bad_worker_frames`). -/

namespace Flesnet
open ItemDistributor

/-! ### Envelopes -/

section decode
variable {f0 : String} (h0 : f0 ≠ "")
include h0

theorem decodeMessage_two : decodeMessage [f0, ""] = .ok (.disconnect "") := by
  simp [decodeMessage, String.isEmpty_iff, h0]

theorem decodeMessage_three (f2 : String) : decodeMessage [f0, "", f2] = .error .undefined := by
  simp [decodeMessage, String.isEmpty_iff, h0]

theorem decodeMessage_long (f2 body : String) (rest : List String) :
    decodeMessage (f0 :: "" :: f2 :: body :: rest) = .ok (commandOf "" body) := by
  simp [decodeMessage, String.isEmpty_iff, h0]

variable (net : Transport) (st : ItemDistributor)

theorem onWorkerPollin_two :
    onWorkerPollin net [f0, ""] st = .ok (sendPendingCompletions net (eraseWorker "" st)) := by
  rw [onWorkerPollin, decodeMessage_two h0]; rfl

theorem onWorkerPollin_long (f2 body : String) (rest : List String) :
    onWorkerPollin net (f0 :: "" :: f2 :: body :: rest) st =
      (execute net (commandOf "" body) st).map (sendPendingCompletions net) := by
  rw [onWorkerPollin, decodeMessage_long h0]
  show (execute net (commandOf "" body) st >>= fun s => pure (sendPendingCompletions net s)) = _
  cases execute net (commandOf "" body) st <;> rfl

end decode

/-- A verb followed by a blank starts the text `verb ++ blank ++ rest`. -/
theorem isPrefixOf_verb {v v' : String} (hv : v'.data = v.data ++ [' ']) (r : List Char) :
    v'.data.isPrefixOf (v.data ++ ' ' :: r) = true :=
  List.isPrefixOf_iff_prefix.mpr ⟨r, by rw [hv, List.append_assoc]; rfl⟩

theorem commandOf_registerText (i : String) (stride offset : UInt64) (p : WorkerQueuePolicy)
    (name : String) :
    commandOf i (registerText stride offset p name) =
      .register i (parseRegister (registerText stride offset p name)) := by
  rw [commandOf, if_pos]
  rw [registerText_data]
  exact isPrefixOf_verb (by decide) _

theorem commandOf_completeText (i : String) (id : ItemID) :
    commandOf i (completeText id) = .complete i (some id) := by
  have hR : "REGISTER ".data = 'R' :: "EGISTER ".data := by decide
  have hC : "COMPLETE".data = 'C' :: "OMPLETE".data := by decide
  rw [commandOf, if_neg, if_pos, parseComplete_completeText] <;> rw [completeText_data]
  · exact isPrefixOf_verb (by decide) _
  · rw [hR, hC]
    simp [List.isPrefixOf]

/-- Envelope decoding as the code does it: a two-frame envelope is the disconnect of the empty
    identity, a three-frame one makes `peekstr(3)` read past its end, and a longer one is the
    command of frame 3, filed under the empty identity. -/
theorem onWorkerPollin_envelope (net : Transport) (st : ItemDistributor) {f0 : String}
    (h0 : f0 ≠ "") :
    onWorkerPollin net [f0, ""] st = .ok (sendPendingCompletions net (eraseWorker "" st)) ∧
      (∀ f2, onWorkerPollin net [f0, "", f2] st = .error .undefined) ∧
      ∀ f2 body rest, onWorkerPollin net (f0 :: "" :: f2 :: body :: rest) st =
        (execute net (commandOf "" body) st).map (sendPendingCompletions net) :=
  ⟨onWorkerPollin_two h0 net st, fun f2 => by rw [onWorkerPollin, decodeMessage_three h0]; rfl,
    onWorkerPollin_long h0 net st⟩

theorem onWorkerPollin_envelope_init :
    "A" ≠ "" ∧
      onWorkerPollin deliverAll ["A", ""] init =
        .ok (sendPendingCompletions deliverAll (eraseWorker "" init)) ∧
      (∀ f2, onWorkerPollin deliverAll ["A", "", f2] init = .error .undefined) ∧
      ∀ f2 body rest, onWorkerPollin deliverAll ("A" :: "" :: f2 :: body :: rest) init =
        (execute deliverAll (commandOf "" body) init).map (sendPendingCompletions deliverAll) :=
  ⟨by decide, onWorkerPollin_envelope deliverAll init (by decide)⟩

/-! ### One identity for every worker -/

/-- A decoded worker command only ever touches the record under the empty identity. -/
theorem execute_get? {net : Transport} {m : List String} {cmd : WorkerCommand}
    {s s' : ItemDistributor} (hd : decodeMessage m = .ok cmd) (h : execute net cmd s = .ok s')
    {k : String} (hk : k ≠ "") : s'.workers.get? k = s.workers.get? k := by
  obtain ⟨_, _, -, -, ⟨-, rfl⟩ | ⟨body, -, rfl⟩⟩ := decodeMessage_eq_ok hd
  · cases h; simp [hk]
  unfold commandOf at h
  split_ifs at h
  · cases hc : parseRegister body <;> rw [hc] at h <;> cases h
    simp [hk]
  · obtain ⟨w, id, x, -, -, -, hwk, -⟩ := complete_inv h
    simp [hwk, hk]
  · cases h; rfl

/-- The loop body of the fan-out creates no record. -/
theorem distribute_get?_none {net : Transport} {x : Item} {s s' : ItemDistributor} {k k' : String}
    (hd : distribute net x s k' = .ok s') (hn : s.workers.get? k = none) :
    s'.workers.get? k = none := by
  rcases distribute_inv hd with ⟨rfl, -⟩ | ⟨w, hw, -, hwk, -⟩
  · exact hn
  · rw [hwk, WorkerTable.get?_insert, if_neg (by rintro rfl; simp [hn] at hw)]
    exact hn

/-- The producer path and the heartbeat sweep never create a record. -/
theorem handle_get?_none {net : Transport} {ev : Event} {s s' : ItemDistributor}
    (h : handle net ev s = .ok s') {k : String} (hk : k ≠ "") (hnone : s.workers.get? k = none) :
    s'.workers.get? k = none := by
  cases ev with
  | producer m =>
    obtain ⟨x, s₁, s₂, h₁, h₂, rfl⟩ := onGeneratorPollin_inv h
    obtain ⟨_, _, -, -, -, hs₁⟩ := receiveProducerItem_inv h₁
    have hn₁ : s₁.workers.get? k = none := by rw [hs₁]; exact hnone
    simpa using fanOut_induct (fun s => s.workers.get? k = none)
      (fun _ _ _ hn hd => distribute_get?_none hd hn) _ s₁ _ hn₁ h₂
  | worker m =>
    obtain ⟨cmd, s₁, hcmd, h₁, rfl⟩ := onWorkerPollin_inv h
    simpa [execute_get? hcmd h₁ hk] using hnone
  | tick => obtain ⟨l, rfl, -⟩ := sendHeartbeats_inv h; exact hnone

/-- Every record of every reachable state is filed under the empty identity: `peekstr(1)` is
    the delimiter frame, so a worker's REGISTER never creates a record under its own routing
    identity, and any peer's disconnect removes it. -/
theorem worker_table_keys {net : Transport} {st : ItemDistributor} (h : Reachable net st)
    {k : String} (hk : k ≠ "") : st.workers.get? k = none :=
  Reachable.induct (fun s => s.workers.get? k = none) rfl
    (fun _ _ _ hn hs => handle_get?_none hs hk hn) h

/-- Peer "A" registers with a four-frame envelope whose frame 2 is its REGISTER. -/
def registerRun : List Event :=
  [.worker ["A", "", "REGISTER 1 0 Async w", "REGISTER 1 0 Async w"]]

/-- The state `registerRun` ends in. -/
def registerState : ItemDistributor :=
  match run deliverAll registerRun init with
  | .ok st => st
  | .error _ => init

theorem worker_table_keys_registerState :
    Reachable deliverAll registerState ∧ registerState.workers.get? "A" = none :=
  have h : Reachable deliverAll registerState := ⟨registerRun, rfl⟩
  ⟨h, worker_table_keys h (by decide)⟩

example : registerState.workers.keys = [""] := rfl

example : (run deliverAll [.worker ["B", ""]] registerState).map (·.workers.keys) = .ok [] := rfl

/-! ### REGISTER bounds nothing -/

theorem distribute_zero_stride {net : Transport} {x : Item} {s : ItemDistributor} {k : String}
    {w : Worker} (hw : s.workers.get? k = some w) (h0 : w.stride = 0) :
    distribute net x s k = .error .undefined := by
  simp [distribute, hw, Worker.wantsItem, h0]

/-- With a record of stride 0 under the empty identity, the first key, the fan-out of any
    producer item whose ID frame parses divides by zero. -/
theorem onGeneratorPollin_zero_stride {net : Transport} {st : ItemDistributor} {w : Worker}
    (hw : st.workers.get? "" = some w) (h0 : w.stride = 0) {frame : String} {id : ItemID}
    (hid : stoull frame = .ok id) (rest : List String) :
    onGeneratorPollin net (frame :: rest) st = .error .undefined := by
  obtain ⟨ks, hks⟩ := WorkerTable.keys_of_get?_empty hw
  let x : Item := ⟨st.allocated, id, rest.headD ""⟩
  let s₁ : ItemDistributor :=
    { st with allocated := st.allocated + 1, received := st.received ++ [id] }
  have hw₁ : s₁.workers.get? "" = some w := hw
  have hf : fanOut net x s₁.workers.keys s₁ = .error .undefined := by
    show fanOut net x st.workers.keys s₁ = _
    rw [hks]
    show (distribute net x s₁ "" >>= _) = _
    rw [distribute_zero_stride hw₁ h0]
    rfl
  simp only [onGeneratorPollin, receiveProducerItem, hid]
  show (fanOut net x s₁.workers.keys s₁ >>= _) = _
  rw [hf]
  rfl

/-- REGISTER takes any stride: from any state a REGISTER of stride 0 installs a record under
    the empty identity, and the next producer item whose ID frame parses makes
    `on_generator_pollin` evaluate `id % 0`. -/
theorem register_zero_stride (net : Transport) (st : ItemDistributor) {f0 name : String}
    (h0 : f0 ≠ "") (hn : name.data ≠ []) (hs : ∀ c ∈ name.data, isSpace c = false) (f2 : String)
    (offset : UInt64) (p : WorkerQueuePolicy) {frame : String} {id : ItemID}
    (hid : stoull frame = .ok id) (rest : List String) :
    ∃ st', onWorkerPollin net [f0, "", f2, registerText 0 offset p name] st = .ok st' ∧
      st'.workers.get? "" = some ⟨0, offset, p, name, [], []⟩ ∧
      onGeneratorPollin net (frame :: rest) st' = .error .undefined := by
  let c : Worker := ⟨0, offset, p, name, [], []⟩
  have hcmd : commandOf "" (registerText 0 offset p name) = .register "" (some c) := by
    rw [commandOf_registerText, parseRegister_registerText _ _ _ hn hs]
  refine ⟨sendPendingCompletions net (assignWorker "" c st), ?_, by simp, ?_⟩
  · rw [onWorkerPollin_long h0, hcmd]
    rfl
  · have hget : (sendPendingCompletions net (assignWorker "" c st)).workers.get? "" = some c := by
      simp
    exact onGeneratorPollin_zero_stride hget rfl hid rest

theorem register_zero_stride_init :
    "A" ≠ "" ∧ "w".data ≠ [] ∧ (∀ c ∈ "w".data, isSpace c = false) ∧ stoull "5" = .ok 5 ∧
      ∃ st', onWorkerPollin deliverAll ["A", "", "", registerText 0 0 .async "w"] init = .ok st' ∧
        st'.workers.get? "" = some ⟨0, 0, .async, "w", [], []⟩ ∧
        onGeneratorPollin deliverAll ["5"] st' = .error .undefined :=
  have hid : stoull "5" = .ok 5 := rfl
  ⟨by decide, by decide, by decide, hid,
    register_zero_stride deliverAll init (by decide) (by decide) (by decide) "" 0 .async hid []⟩

/-! ### Bad frames -/

/-- What the code does with the frames the spec says to log and drop: a COMPLETE when no record
    is filed under the empty identity throws `std::out_of_range` from `workers_.at`; a COMPLETE
    that names nothing outstanding, or does not parse, fails an assert, and so does a REGISTER
    that does not parse. Only a disconnect with no record under the empty identity leaves the
    state as it was. -/
theorem bad_worker_frames {net : Transport} {st : ItemDistributor} (h : Reachable net st)
    {f0 : String} (h0 : f0 ≠ "") (f2 body : String) (rest : List String) :
    (∀ id?, st.workers.get? "" = none → commandOf "" body = .complete "" id? →
      onWorkerPollin net (f0 :: "" :: f2 :: body :: rest) st = .error .outOfRange) ∧
    (∀ w id, st.workers.get? "" = some w → commandOf "" body = .complete "" (some id) →
      (∀ x ∈ w.outstandingItems, x.id ≠ id) →
      onWorkerPollin net (f0 :: "" :: f2 :: body :: rest) st = .error .assertion) ∧
    (∀ w, st.workers.get? "" = some w → commandOf "" body = .complete "" none →
      onWorkerPollin net (f0 :: "" :: f2 :: body :: rest) st = .error .assertion) ∧
    (commandOf "" body = .register "" none →
      onWorkerPollin net (f0 :: "" :: f2 :: body :: rest) st = .error .assertion) ∧
    (st.workers.get? "" = none → onWorkerPollin net [f0, ""] st = .ok st) := by
  have henv := onWorkerPollin_long h0 net st f2 body rest
  refine ⟨fun id? hnone hc => ?_, fun w id hw hc hout => ?_, fun w hw hc => ?_,
    fun hc => by rw [henv, hc]; rfl, fun hnone => ?_⟩
  · rw [henv, hc]
    simp [execute, complete, WorkerTable.«at», hnone, bind, Except.bind, Except.map]
  · have hfind : w.outstandingItems.find? (·.id == id) = none :=
      List.find?_eq_none.mpr fun x hx => by simpa using hout x hx
    rw [henv, hc]
    simp [execute, complete, WorkerTable.«at», hw, hfind, bind, Except.bind, Except.map]
  · rw [henv, hc]
    simp [execute, complete, WorkerTable.«at», hw, bind, Except.bind, Except.map]
  · rw [onWorkerPollin_two h0]
    have hl := completedItems_eq_nil h
    simp only [eraseWorker, hnone]
    simp only [sendPendingCompletions, hl, sendCompletions]
    rw [← hl]

theorem bad_worker_frames_init :
    Reachable deliverAll init ∧ "A" ≠ "" ∧
    (∀ id?, init.workers.get? "" = none → commandOf "" "COMPLETE 10" = .complete "" id? →
      onWorkerPollin deliverAll ["A", "", "", "COMPLETE 10"] init = .error .outOfRange) ∧
    (∀ w id, init.workers.get? "" = some w → commandOf "" "COMPLETE 10" = .complete "" (some id) →
      (∀ x ∈ w.outstandingItems, x.id ≠ id) →
      onWorkerPollin deliverAll ["A", "", "", "COMPLETE 10"] init = .error .assertion) ∧
    (∀ w, init.workers.get? "" = some w → commandOf "" "COMPLETE 10" = .complete "" none →
      onWorkerPollin deliverAll ["A", "", "", "COMPLETE 10"] init = .error .assertion) ∧
    (commandOf "" "COMPLETE 10" = .register "" none →
      onWorkerPollin deliverAll ["A", "", "", "COMPLETE 10"] init = .error .assertion) ∧
    (init.workers.get? "" = none → onWorkerPollin deliverAll ["A", ""] init = .ok init) :=
  have h : Reachable deliverAll init := ⟨[], rfl⟩
  ⟨h, by decide, bad_worker_frames h (by decide) "" "COMPLETE 10" []⟩

end Flesnet
