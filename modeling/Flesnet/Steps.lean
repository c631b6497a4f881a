import Flesnet.Distributor

/-! What each operation of `Distributor` does, stated once so that the invariants never unfold
    a handler: which fields an operation leaves alone, an inversion lemma for every handler that
    can fail (`distribute_inv`, `complete_inv`, ...), and the loops (`fanOut`, the heartbeat
    sweep, `run`) packaged as inductions over their step. -/

namespace Flesnet
open ItemDistributor

theorem bind_eq_ok {ε α β : Type} {x : Except ε α} {f : α → Except ε β} {b : β} :
    x >>= f = .ok b ↔ ∃ a, x = .ok a ∧ f a = .ok b := by
  cases x <;> simp [bind, Except.bind]

/-! ### Fields an operation leaves alone -/

section fields
variable (st : ItemDistributor) (o : Outbound) (r : SendResult) (p : List Item) (x : Item)

@[simp] theorem log_workers : (st.log o r).workers = st.workers := rfl
@[simp] theorem log_completedItems : (st.log o r).completedItems = st.completedItems := rfl
@[simp] theorem log_allocated : (st.log o r).allocated = st.allocated := rfl
@[simp] theorem log_received : (st.log o r).received = st.received := rfl
@[simp] theorem log_sent : (st.log o r).sent = st.sent ++ [(o, r)] := rfl

@[simp] theorem dropRef_workers : (dropRef p x st).workers = st.workers := by
  unfold dropRef; split <;> rfl
@[simp] theorem dropRef_allocated : (dropRef p x st).allocated = st.allocated := by
  unfold dropRef; split <;> rfl
@[simp] theorem dropRef_received : (dropRef p x st).received = st.received := by
  unfold dropRef; split <;> rfl
@[simp] theorem dropRef_sent : (dropRef p x st).sent = st.sent := by
  unfold dropRef; split <;> rfl

@[simp] theorem dropRefs_workers : ∀ xs st, (dropRefs p xs st).workers = st.workers
  | [], _ => rfl
  | _ :: xs, st => by simp [dropRefs, dropRefs_workers xs]
@[simp] theorem dropRefs_allocated : ∀ xs st, (dropRefs p xs st).allocated = st.allocated
  | [], _ => rfl
  | _ :: xs, st => by simp [dropRefs, dropRefs_allocated xs]
@[simp] theorem dropRefs_received : ∀ xs st, (dropRefs p xs st).received = st.received
  | [], _ => rfl
  | _ :: xs, st => by simp [dropRefs, dropRefs_received xs]
@[simp] theorem dropRefs_sent : ∀ xs st, (dropRefs p xs st).sent = st.sent
  | [], _ => rfl
  | _ :: xs, st => by simp [dropRefs, dropRefs_sent xs]

variable (net : Transport)

@[simp] theorem sendCompletions_workers :
    ∀ ids st, (sendCompletions net ids st).workers = st.workers
  | [], _ => rfl
  | _ :: ids, st => by unfold sendCompletions; split <;> simp [sendCompletions_workers ids]
@[simp] theorem sendCompletions_allocated :
    ∀ ids st, (sendCompletions net ids st).allocated = st.allocated
  | [], _ => rfl
  | _ :: ids, st => by unfold sendCompletions; split <;> simp [sendCompletions_allocated ids]
@[simp] theorem sendCompletions_received :
    ∀ ids st, (sendCompletions net ids st).received = st.received
  | [], _ => rfl
  | _ :: ids, st => by unfold sendCompletions; split <;> simp [sendCompletions_received ids]

@[simp] theorem sendPendingCompletions_workers :
    (sendPendingCompletions net st).workers = st.workers := by simp [sendPendingCompletions]
@[simp] theorem sendPendingCompletions_completedItems :
    (sendPendingCompletions net st).completedItems = [] := rfl
@[simp] theorem sendPendingCompletions_allocated :
    (sendPendingCompletions net st).allocated = st.allocated := by simp [sendPendingCompletions]
@[simp] theorem sendPendingCompletions_received :
    (sendPendingCompletions net st).received = st.received := by simp [sendPendingCompletions]

end fields

@[simp] theorem eraseWorker_workers (k : String) (st : ItemDistributor) :
    (eraseWorker k st).workers = st.workers.erase k := by
  unfold eraseWorker destroyWorker
  split
  · next h => exact (WorkerTable.erase_of_get?_none h).symm
  · simp

@[simp] theorem eraseWorker_allocated (k : String) (st : ItemDistributor) :
    (eraseWorker k st).allocated = st.allocated := by
  unfold eraseWorker destroyWorker; split <;> simp

@[simp] theorem eraseWorker_sent (k : String) (st : ItemDistributor) :
    (eraseWorker k st).sent = st.sent := by
  unfold eraseWorker destroyWorker; split <;> simp

@[simp] theorem eraseWorker_received (k : String) (st : ItemDistributor) :
    (eraseWorker k st).received = st.received := by
  unfold eraseWorker destroyWorker; split <;> simp

@[simp] theorem assignWorker_allocated (k : String) (c : Worker) (st : ItemDistributor) :
    (assignWorker k c st).allocated = st.allocated := by
  unfold assignWorker destroyWorker; split <;> simp

@[simp] theorem assignWorker_sent (k : String) (c : Worker) (st : ItemDistributor) :
    (assignWorker k c st).sent = st.sent := by
  unfold assignWorker destroyWorker; split <;> simp

@[simp] theorem assignWorker_received (k : String) (c : Worker) (st : ItemDistributor) :
    (assignWorker k c st).received = st.received := by
  unfold assignWorker destroyWorker; split <;> simp

@[simp] theorem assignWorker_workers (k : String) (c : Worker) (st : ItemDistributor) :
    (assignWorker k c st).workers = st.workers.insert k c := by
  unfold assignWorker destroyWorker; split <;> simp

/-! ### Sends -/

@[simp] theorem deliverAll_hasPeer (i : String) : deliverAll.hasPeer i = true := rfl
@[simp] theorem deliverAll_verdict (n : Nat) : deliverAll n = .delivered := rfl

theorem sendWorkerMessage_eq_ok {net : Transport} {i : String} {o : Outbound}
    {st st' : ItemDistributor} :
    sendWorkerMessage net i o st = .ok st' ↔
      net.hasPeer i = true ∧ net st.sent.length ≠ .raised ∧ st' = st.log o (net st.sent.length) := by
  unfold sendWorkerMessage
  cases net.hasPeer i <;> by_cases hr : net st.sent.length = .raised <;> simp [hr, eq_comm]

/-- The drain sends nothing but completions. -/
theorem sendCompletions_sent (net : Transport) :
    ∀ (ids : List ItemID) (st : ItemDistributor), ∃ l,
      (sendCompletions net ids st).sent = st.sent ++ l ∧ ∀ p ∈ l, ∃ id, p.1 = .completion id
  | [], st => ⟨[], by simp [sendCompletions], by simp⟩
  | id :: ids, st => by
    unfold sendCompletions
    split
    · exact ⟨_, rfl, by simp⟩
    · obtain ⟨l, hl, hc⟩ := sendCompletions_sent net ids (st.log (.completion id) (net st.sent.length))
      refine ⟨(.completion id, net st.sent.length) :: l, by rw [hl, log_sent]; simp, fun p hp => ?_⟩
      rcases List.mem_cons.mp hp with rfl | hp
      · exact ⟨id, rfl⟩
      · exact hc p hp

theorem sendPendingCompletions_sent (net : Transport) (st : ItemDistributor) :
    ∃ l, (sendPendingCompletions net st).sent = st.sent ++ l ∧
      ∀ p ∈ l, ∃ id, p.1 = .completion id :=
  sendCompletions_sent net st.completedItems st

/-- On a transport that delivers everything, the drain hands the whole ledger to the producer. -/
theorem sendCompletions_deliverAll :
    ∀ (ids : List ItemID) (st : ItemDistributor),
      sendCompletions deliverAll ids st =
        { st with sent := st.sent ++ ids.map fun id => (.completion id, .delivered) }
  | [], st => by simp [sendCompletions]
  | id :: ids, st => by
    simp [sendCompletions, sendCompletions_deliverAll ids, log]

/-! ### Inversion lemmas -/

section inversion
variable {net : Transport} {x : Item} {st st' : ItemDistributor} {k : String}

/-- The loop body of the fan-out either leaves the state alone, when there is no record under
    `k` or it does not want `x`, or hands `x` to the worker under `k`: the record becomes
    `w.offer x`, the prebuffered item is released while `new_item` pins `x`, and an idle worker
    is sent `x`. -/
theorem distribute_inv (h : distribute net x st k = .ok st') :
    (st' = st ∧ ∀ w, st.workers.get? k = some w → w.wantsItem x.id = .ok false) ∨ ∃ w, st.workers.get? k = some w ∧ w.wantsItem x.id = .ok true ∧
      st'.workers = st.workers.insert k (w.offer x) ∧
      st'.completedItems = (dropRefs [x] w.prebuffered
        { st with workers := st.workers.insert k w.clearPrebuffer }).completedItems ∧
      st'.allocated = st.allocated ∧ st'.received = st.received ∧
      st'.sent = st.sent ++
        (if w.outstandingItems = [] then [(.workItem k x, net st.sent.length)] else []) ∧
      (w.outstandingItems = [] → net.hasPeer k = true ∧ net st.sent.length ≠ .raised) := by
  unfold distribute at h
  split at h
  · next hw => exact .inl ⟨(Except.ok.inj h).symm, fun w hw' => by simp [hw] at hw'⟩
  · next w hw =>
    split at h
    · cases h
    · next hf =>
      refine .inl ⟨(Except.ok.inj h).symm, fun w' hw' => ?_⟩
      rw [hw, Option.some.injEq] at hw'
      exact hw' ▸ hf
    · next hwant =>
      refine .inr ⟨w, hw, hwant, ?_⟩
      split_ifs at h with hidle
      · obtain ⟨hp, hr, rfl⟩ := sendWorkerMessage_eq_ok.mp h
        simp_all [sendWorkItem]
      · cases h
        simp [hidle]

theorem fanOut_induct (P : ItemDistributor → Prop)
    (hstep : ∀ k st st', P st → distribute net x st k = .ok st' → P st') :
    ∀ ks st st', P st → fanOut net x ks st = .ok st' → P st'
  | [], _, _, hp, h => by cases h; exact hp
  | k :: ks, st, st', hp, h => by
    obtain ⟨s, hs, h⟩ := bind_eq_ok.mp h
    exact fanOut_induct P hstep ks s st' (hstep k st s hp hs) h

theorem receiveProducerItem_inv {m : List String} (h : receiveProducerItem m st = .ok (x, st')) :
    ∃ frame rest, m = frame :: rest ∧ stoull frame = .ok x.id ∧
      x = ⟨st.allocated, x.id, rest.headD ""⟩ ∧
      st' = { st with allocated := st.allocated + 1, received := st.received ++ [x.id] } := by
  unfold receiveProducerItem at h
  split at h
  · cases h
  · next frame rest =>
    obtain ⟨id, hid, h⟩ := bind_eq_ok.mp h
    cases h
    exact ⟨frame, rest, rfl, hid, rfl, rfl⟩

theorem onGeneratorPollin_inv {m : List String} (h : onGeneratorPollin net m st = .ok st') :
    ∃ x s₁ s₂, receiveProducerItem m st = .ok (x, s₁) ∧
      fanOut net x s₁.workers.keys s₁ = .ok s₂ ∧ st' = sendPendingCompletions net (dropRef [] x s₂) := by
  obtain ⟨⟨x, s₁⟩, h₁, h⟩ := bind_eq_ok.mp h
  obtain ⟨s₂, h₂, h⟩ := bind_eq_ok.mp h
  exact ⟨x, s₁, s₂, h₁, h₂, (Except.ok.inj h).symm⟩

/-- An accepted COMPLETE: the record under `k` had an outstanding item `x` with the ID; it
    becomes `w.handOff id`, `x` is released, and the front waiting item, if any, is sent. -/
theorem complete_inv {id? : Option ItemID} (h : complete net k id? st = .ok st') :
    ∃ w id x, st.workers.get? k = some w ∧ id? = some id ∧
      w.outstandingItems.find? (·.id == id) = some x ∧
      st'.workers = st.workers.insert k (w.handOff id) ∧
      st'.completedItems = (dropRef [] x
        { st with workers := st.workers.insert k (w.eraseOutstanding id) }).completedItems ∧
      st'.allocated = st.allocated ∧ st'.received = st.received ∧
      st'.sent = st.sent ++ (w.waitingItems.take 1).map (fun y => (.workItem k y, net st.sent.length)) ∧
      (w.waitingItems ≠ [] → net.hasPeer k = true ∧ net st.sent.length ≠ .raised) := by
  obtain ⟨w, hw, h⟩ := bind_eq_ok.mp h
  rw [WorkerTable.at_eq_ok] at hw
  cases id? with
  | none => cases h
  | some id =>
    simp only at h
    cases hx : w.outstandingItems.find? (·.id == id) with
    | none => simp [hx] at h
    | some x =>
      simp only [hx] at h
      refine ⟨w, id, x, hw, rfl, hx, ?_⟩
      cases hq : w.waitingItems with
      | nil =>
        simp only [Worker.eraseOutstanding, hq] at h
        cases h
        simp [Worker.handOff, Worker.sendNext, Worker.eraseOutstanding, hq]
      | cons y ys =>
        simp only [Worker.eraseOutstanding, hq] at h
        obtain ⟨hp, hr, rfl⟩ := sendWorkerMessage_eq_ok.mp h
        simp_all [Worker.handOff, Worker.sendNext, Worker.eraseOutstanding]

/-- A worker message that passes the asserts: frame 0 non-empty and frame 1 empty. Frame 1,
    the empty delimiter, is what the code takes as the identity. -/
theorem decodeMessage_eq_ok {m : List String} {cmd : WorkerCommand}
    (h : decodeMessage m = .ok cmd) :
    ∃ f0 rest, m = f0 :: "" :: rest ∧ f0 ≠ "" ∧
      ((rest = [] ∧ cmd = .disconnect "") ∨ ∃ body, rest[1]? = some body ∧ cmd = commandOf "" body) := by
  unfold decodeMessage at h
  split at h
  · next f0 f1 rest =>
    have hf : ¬(f0.isEmpty || !f1.isEmpty) = true := fun hc => by simp [hc] at h
    rw [if_neg hf] at h
    simp only [Bool.or_eq_true, Bool.not_eq_true', not_or, Bool.not_eq_false,
      String.isEmpty_iff] at hf
    obtain ⟨h0, rfl⟩ := hf
    split_ifs at h with hr
    · cases h; exact ⟨f0, rest, rfl, h0, .inl ⟨hr, rfl⟩⟩
    · split at h
      · cases h
      · next body hb => cases h; exact ⟨f0, rest, rfl, h0, .inr ⟨body, by simpa using hb, rfl⟩⟩
  · cases h

theorem commandOf_register {i i' body : String} {c : Option Worker}
    (h : commandOf i body = .register i' c) : i' = i ∧ c = parseRegister body := by
  unfold commandOf at h
  split_ifs at h
  cases h
  exact ⟨rfl, rfl⟩

/-- A REGISTER that parses yields a record with empty queues. -/
theorem decodeMessage_register {m : List String} {i : String} {c : Worker}
    (h : decodeMessage m = .ok (.register i (some c))) :
    c.waitingItems = [] ∧ c.outstandingItems = [] := by
  obtain ⟨_, _, -, -, ⟨-, hc⟩ | ⟨body, -, hbody⟩⟩ := decodeMessage_eq_ok h
  · cases hc
  · exact parseRegister_queues (commandOf_register hbody.symm).2.symm

theorem onWorkerPollin_inv {m : List String} (h : onWorkerPollin net m st = .ok st') :
    ∃ cmd s₁, decodeMessage m = .ok cmd ∧ execute net cmd st = .ok s₁ ∧
      st' = sendPendingCompletions net s₁ := by
  obtain ⟨cmd, h₁, h⟩ := bind_eq_ok.mp h
  obtain ⟨s₁, h₂, h⟩ := bind_eq_ok.mp h
  exact ⟨cmd, s₁, h₁, h₂, (Except.ok.inj h).symm⟩

/-- The heartbeat sweep only sends HEARTBEATs. -/
theorem sendHeartbeats_inv :
    ∀ {es : List (String × Worker)} {st st' : ItemDistributor},
      sendHeartbeats net es st = .ok st' →
      ∃ l, st' = { st with sent := st.sent ++ l } ∧ ∀ p ∈ l, ∃ i, p.1 = .heartbeat i
  | [], st, st', h => by cases h; exact ⟨[], by simp, by simp⟩
  | (i, w) :: es, st, st', h => by
    unfold sendHeartbeats at h
    obtain ⟨s, hs, h⟩ := bind_eq_ok.mp h
    obtain ⟨l, rfl, hl⟩ := sendHeartbeats_inv h
    split_ifs at hs
    · obtain ⟨-, -, rfl⟩ := sendWorkerMessage_eq_ok.mp hs
      exact ⟨(.heartbeat i, net st.sent.length) :: l, by simp [log],
        by simpa using hl⟩
    · cases hs
      exact ⟨l, rfl, hl⟩

end inversion

/-! ### Runs -/

/-- A property every handler keeps holds along every run. -/
theorem run_induct {net : Transport} (P : ItemDistributor → Prop)
    (hstep : ∀ ev st st', P st → handle net ev st = .ok st' → P st') :
    ∀ evs st st', P st → run net evs st = .ok st' → P st'
  | [], _, _, hp, h => by cases h; exact hp
  | ev :: evs, st, st', hp, h => by
    obtain ⟨s, hs, h⟩ := bind_eq_ok.mp h
    exact run_induct P hstep evs s st' (hstep ev st s hp hs) h

theorem run_append {net : Transport} :
    ∀ (evs evs' : List Event) (st : ItemDistributor),
      run net (evs ++ evs') st = run net evs st >>= run net evs'
  | [], _, _ => rfl
  | ev :: evs, evs', st => by
    show (handle net ev st >>= _) = (handle net ev st >>= _) >>= _
    cases handle net ev st with
    | error => rfl
    | ok s => exact run_append evs evs' s

theorem run_singleton {net : Transport} (ev : Event) (st : ItemDistributor) :
    run net [ev] st = handle net ev st := by
  show (handle net ev st >>= fun s => .ok s) = _
  cases handle net ev st <;> rfl

/-- `operator()` runs the events of its waits one after another. -/
theorem operator_eq_run {net : Transport} :
    ∀ (ws : List Wait) (st : ItemDistributor),
      operator net ws st = run net (ws.flatMap Wait.events) st
  | [], _ => rfl
  | w :: ws, st => by
    rw [List.flatMap_cons, run_append]
    show (run net w.events st >>= _) = _
    cases run net w.events st with
    | error => rfl
    | ok s => exact operator_eq_run ws s

/-- An invariant of `init` kept by every handler holds in every reachable state. -/
theorem Reachable.induct {net : Transport} (P : ItemDistributor → Prop) (h₀ : P init)
    (hstep : ∀ ev st st', P st → handle net ev st = .ok st' → P st') {st : ItemDistributor}
    (h : Reachable net st) : P st :=
  let ⟨evs, hrun⟩ := h
  run_induct P hstep evs init st h₀ hrun

/-- Every state `operator()` reaches between two waits is reachable. -/
theorem Reachable.of_operator {net : Transport} {ws : List Wait} {st : ItemDistributor}
    (h : operator net ws init = .ok st) : Reachable net st :=
  ⟨_, (operator_eq_run ws init).symm.trans h⟩

/-- Every event ends with the drain, so the ledger is empty in every reachable state. -/
theorem completedItems_eq_nil {net : Transport} {st : ItemDistributor} (h : Reachable net st) :
    st.completedItems = [] :=
  Reachable.induct (fun s => s.completedItems = []) rfl (fun ev s s' hs h => by
    cases ev with
    | producer m => obtain ⟨_, _, _, -, -, rfl⟩ := onGeneratorPollin_inv h; rfl
    | worker m => obtain ⟨_, _, -, -, rfl⟩ := onWorkerPollin_inv h; rfl
    | tick => obtain ⟨l, rfl, -⟩ := sendHeartbeats_inv h; exact hs) h

end Flesnet
