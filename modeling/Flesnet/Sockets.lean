import Flesnet.WorkerChannel

/-! The broker on the sockets its constructor sets up.

    The worker socket is a `ROUTER` with `router_mandatory` (line 107): a send to a routing
    identity that no connected peer has throws `EHOSTUNREACH`. ZMQ gives no peer the empty
    identity, and every record is filed under it (`worker_table_keys`), so every WORK_ITEM and
    every HEARTBEAT the broker sends throws, whatever the network would have done with it.

    A pass of `send_heartbeat()` therefore returns only when no record is idle, and then it
    sends nothing and changes nothing (`tick_heartbeats_idle`): over a run that survives, the
    ticks are no-ops, and the run ends where its events without the ticks end
    (`ticks_noninterfering`). But `operator()` runs the sweep after every `poller.wait`, and a
    record REGISTER creates is idle. So the wait that installs a record ends the broker, every
    wait starts from an empty table, and no WORK_ITEM is ever sent (`work_items_never_sent`):
    `operator()` survives exactly the waits whose producer frame `std::stoull` takes and whose
    worker message is a disconnect notification or a command other than REGISTER and COMPLETE
    (`operator_ok_iff`). -/

namespace Flesnet
open ItemDistributor

/-! ### Sends to the empty identity -/

theorem sendWorkerMessage_noPeer {net : Transport} {i : String} (hn : net.hasPeer i = false)
    (o : Outbound) (st : ItemDistributor) : sendWorkerMessage net i o st = .error .zmqError :=
  if_pos (.inl hn)

/-- Every record is filed under the empty identity. -/
def WorkerTable.OnlyEmptyKey (t : WorkerTable) : Prop := ∀ k, k ≠ "" → t.get? k = none

namespace WorkerTable.OnlyEmptyKey
variable {t : WorkerTable}

theorem key (h : t.OnlyEmptyKey) {k : String} {w : Worker} (hw : t.get? k = some w) : k = "" :=
  Classical.byContradiction fun hk => by simp [h k hk] at hw

theorem entry (h : t.OnlyEmptyKey) {e : String × Worker} (he : e ∈ t.entries) : e.1 = "" :=
  h.key (WorkerTable.get?_of_mem he)

theorem of_reachable {net : Transport} {st : ItemDistributor} (h : Reachable net st) :
    st.workers.OnlyEmptyKey := fun _ hk =>
  Reachable.induct (fun s => s.workers.get? _ = none) rfl
    (fun _ _ _ hn hs => handle_get?_none hs hk hn) h

end WorkerTable.OnlyEmptyKey

/-! ### The heartbeat sweep -/

/-- On entries filed under the empty identity, the sweep returns exactly when no record is idle,
    having sent nothing. -/
theorem sendHeartbeats_noPeer {net : Transport} (hn : net.hasPeer "" = false) :
    ∀ (es : List (String × Worker)) (st : ItemDistributor), (∀ e ∈ es, e.1 = "") →
      sendHeartbeats net es st =
        if es.all fun e => !e.2.outstandingItems.isEmpty then .ok st else .error .zmqError
  | [], _, _ => rfl
  | (i, w) :: es, st, hk => by
    obtain rfl : i = "" := hk _ (List.mem_cons_self _ _)
    have ih := sendHeartbeats_noPeer hn es st fun e he => hk e (List.mem_cons_of_mem _ he)
    cases hw : w.outstandingItems with
    | nil => simp [sendHeartbeats, hw, sendHeartbeat, sendWorkerMessage_noPeer hn, bind, Except.bind]
    | cons y ys =>
      simp only [sendHeartbeats, hw, List.all_cons, List.isEmpty_cons, Bool.not_false,
        Bool.true_and, ← ih]
      rfl

/-- A tick of `operator()` on the real worker socket, from every reachable state: each idle record
    is under the empty identity, so `send_heartbeat()` returns only when no record is idle,
    having sent nothing and changed nothing, and otherwise its first HEARTBEAT throws. -/
theorem tick_heartbeats_idle {net : Transport} (hn : net.hasPeer "" = false) {st : ItemDistributor}
    (h : Reachable net st) :
    handle net .tick st =
      if st.workers.entries.all fun e => !e.2.outstandingItems.isEmpty then .ok st
      else .error .zmqError :=
  sendHeartbeats_noPeer hn _ st fun _ he => (WorkerTable.OnlyEmptyKey.of_reachable h).entry he

/-- The real sockets on a network that gives every send the verdict `r`: no peer has the empty
    identity. -/
def noPeers (r : SendResult) : Transport := ⟨fun _ => false, fun _ => r⟩

theorem tick_heartbeats_idle_registerState :
    (noPeers .delivered).hasPeer "" = false ∧ Reachable (noPeers .delivered) registerState ∧
      handle (noPeers .delivered) .tick registerState =
        if registerState.workers.entries.all fun e => !e.2.outstandingItems.isEmpty then
          .ok registerState
        else .error .zmqError :=
  have h : Reachable (noPeers .delivered) registerState := ⟨registerRun, rfl⟩
  ⟨rfl, h, tick_heartbeats_idle rfl h⟩

/-- After the REGISTER the one record is idle, and the sweep throws. -/
example : handle (noPeers .delivered) .tick registerState = .error .zmqError := rfl

/-! ### Ticks that return change nothing -/

/-- A tick of the poller, as opposed to a message. -/
def Event.isTick : Event → Bool
  | .tick => true
  | _ => false

/-- From a state whose records are all under the empty identity, a run on the real worker socket
    that survives ends where the same run with its ticks left out ends. -/
theorem run_filter_ticks {net : Transport} (hn : net.hasPeer "" = false) :
    ∀ (evs : List Event) (st s : ItemDistributor), st.workers.OnlyEmptyKey →
      run net evs st = .ok s → run net (evs.filter fun ev => !ev.isTick) st = .ok s
  | [], _, _, _, h => h
  | ev :: evs, st, s, hk, h => by
    obtain ⟨s₁, h₁, h⟩ := bind_eq_ok.mp h
    have hk₁ : s₁.workers.OnlyEmptyKey := fun k hne => handle_get?_none h₁ hne (hk k hne)
    have ih := run_filter_ticks hn evs s₁ s hk₁ h
    cases ev with
    | tick =>
      have ht : sendHeartbeats net st.workers.entries st = .ok s₁ := h₁
      rw [sendHeartbeats_noPeer hn _ st fun _ he => hk.entry he] at ht
      split_ifs at ht
      cases ht
      exact ih
    | producer m | worker m => exact bind_eq_ok.mpr ⟨s₁, h₁, ih⟩

/-- On the real worker socket the ticks never change a run that survives them: every run from
    the constructor that ends normally ends in the state the run with its ticks left out ends
    in. The ticks only decide whether it survives. -/
theorem ticks_noninterfering {net : Transport} (hn : net.hasPeer "" = false) {evs : List Event}
    {s : ItemDistributor} (h : run net evs init = .ok s) :
    run net (evs.filter fun ev => !ev.isTick) init = .ok s :=
  run_filter_ticks hn evs init s (fun _ _ => rfl) h

/-- Two producer items around a tick. -/
def itemsRun : List Event := [.producer ["5"], .tick, .producer ["6"]]

theorem ticks_noninterfering_itemsRun :
    (noPeers .delivered).hasPeer "" = false ∧
      run (noPeers .delivered) itemsRun init = .ok (match run (noPeers .delivered) itemsRun init with
        | .ok s => s
        | .error _ => init) ∧
      run (noPeers .delivered) (itemsRun.filter fun ev => !ev.isTick) init =
        .ok (match run (noPeers .delivered) itemsRun init with
          | .ok s => s
          | .error _ => init) :=
  have h : run (noPeers .delivered) itemsRun init = .ok (match run (noPeers .delivered) itemsRun init with
      | .ok s => s
      | .error _ => init) := rfl
  ⟨rfl, h, ticks_noninterfering rfl h⟩

/-- A tick after a REGISTER ends the run; without it the run survives. -/
example : run (noPeers .delivered) (registerRun ++ [Event.tick]) init = .error .zmqError ∧
    run (noPeers .delivered) ((registerRun ++ [Event.tick]).filter fun ev => !ev.isTick) init =
      .ok registerState := ⟨rfl, rfl⟩

/-! ### The loop of `operator()` -/

/-- A producer message whose first frame `std::stoull` takes. -/
def parsesId : List String → Bool
  | [] => false
  | frame :: _ => (stoull frame).isOk

/-- A worker message that passes the asserts and creates no record: a disconnect notification,
    or a command other than REGISTER and COMPLETE. -/
def harmless (m : List String) : Bool :=
  match decodeMessage m with
  | .ok (.disconnect _) | .ok .other => true
  | _ => false

/-- The waits `operator()` survives on the real worker socket. -/
def Wait.survivable (w : Wait) : Bool := w.producer.all parsesId && w.worker.all harmless

/-- `s` has no record, and has sent nothing but completions since `s₀`. -/
def Calm (s₀ s : ItemDistributor) : Prop :=
  s.workers = .empty ∧ ∃ l, s.sent = s₀.sent ++ l ∧ ∀ p ∈ l, ∃ id, p.1 = .completion id

theorem Calm.refl {s : ItemDistributor} (ht : s.workers = .empty) : Calm s s :=
  ⟨ht, [], by simp, by simp⟩

theorem Calm.trans {s₀ s₁ s₂ : ItemDistributor} (h₁ : Calm s₀ s₁) (h₂ : Calm s₁ s₂) :
    Calm s₀ s₂ := by
  obtain ⟨-, l₁, hs₁, hc₁⟩ := h₁
  obtain ⟨ht, l₂, hs₂, hc₂⟩ := h₂
  refine ⟨ht, l₁ ++ l₂, by rw [hs₂, hs₁, List.append_assoc], fun p hp => ?_⟩
  exact (List.mem_append.mp hp).elim (hc₁ p) (hc₂ p)

/-- The drain sends nothing but completions. -/
theorem Calm.drain {s₀ s : ItemDistributor} (net : Transport) (h : Calm s₀ s) :
    Calm s₀ (sendPendingCompletions net s) := by
  obtain ⟨l, hl, hc⟩ := sendPendingCompletions_sent net s
  exact h.trans ⟨by simp [h.1], l, hl, hc⟩

section empty
variable {net : Transport} {st s : ItemDistributor} (ht : st.workers = .empty)
include ht

/-- From an empty table, a producer message is handled exactly when its ID frame parses: the
    fan-out has no record to visit, the item is released at once and its completion drained. -/
theorem producer_calm {m : List String} (h : onGeneratorPollin net m st = .ok s) :
    parsesId m = true ∧ Calm st s := by
  obtain ⟨x, s₁, s₂, h₁, h₂, rfl⟩ := onGeneratorPollin_inv h
  obtain ⟨frame, rest, rfl, hid, -, rfl⟩ := receiveProducerItem_inv h₁
  have hks : ({ st with allocated := st.allocated + 1, received := st.received ++ [x.id] } :
      ItemDistributor).workers.keys = [] := by simp [ht, WorkerTable.keys, WorkerTable.empty]
  rw [hks] at h₂
  cases h₂
  exact ⟨by simp [parsesId, hid, Except.isOk, Except.toBool],
    Calm.drain net ⟨by simp [ht], [], by simp, by simp⟩⟩

theorem producer_of_parsesId {m : List String} (hm : parsesId m = true) :
    ∃ s, onGeneratorPollin net m st = .ok s := by
  match m, hm with
  | frame :: rest, hm =>
    simp only [parsesId, Except.isOk, Except.toBool] at hm
    split at hm
    · next id hid =>
      have hks : st.workers.keys = [] := by simp [ht, WorkerTable.keys, WorkerTable.empty]
      simp [onGeneratorPollin, receiveProducerItem, hid, hks, fanOut, bind, Except.bind, pure,
        Except.pure]
    · cases hm

/-- From an empty table, a worker message that is handled leaves the table empty and is
    harmless, or is a REGISTER whose idle record is now the only one. -/
theorem worker_calm {m : List String} (h : onWorkerPollin net m st = .ok s) :
    (harmless m = true ∧ Calm st s) ∨ harmless m = false ∧
      ∃ c : Worker, c.outstandingItems = [] ∧ s.workers = WorkerTable.empty.insert "" c := by
  obtain ⟨cmd, s₁, hd, h₁, rfl⟩ := onWorkerPollin_inv h
  match cmd, h₁ with
  | .disconnect k, h₁ =>
    cases h₁
    refine .inl ⟨by simp [harmless, hd], Calm.drain net ⟨?_, [], by simp, by simp⟩⟩
    rw [eraseWorker_workers, ht]
    rfl
  | .register k (some c), h₁ =>
    cases h₁
    obtain ⟨_, _, -, -, ⟨-, hc⟩ | ⟨body, -, hbody⟩⟩ := decodeMessage_eq_ok hd
    · cases hc
    obtain ⟨rfl, -⟩ := commandOf_register hbody.symm
    exact .inr ⟨by simp [harmless, hd], c, (decodeMessage_register hd).2, by simp [ht]⟩
  | .complete k id?, h₁ =>
    obtain ⟨w, -, -, hw, -⟩ := complete_inv h₁
    simp [ht] at hw
  | .other, h₁ =>
    cases h₁
    exact .inl ⟨by simp [harmless, hd], Calm.drain net (.refl ht)⟩

theorem tick_empty : handle net .tick st = .ok st := by
  show sendHeartbeats net st.workers.entries st = _
  rw [ht]
  rfl

end empty

/-- The producer half of a wait: survived exactly when the ID frame parses, and then nothing
    but completions go out. -/
theorem producer_half (net : Transport) {st : ItemDistributor} (ht : st.workers = .empty)
    (p : Option (List String)) :
    ((∃ s, run net (p.toList.map .producer) st = .ok s) ↔ p.all parsesId = true) ∧
      ∀ s, run net (p.toList.map .producer) st = .ok s → Calm st s := by
  cases p with
  | none => exact ⟨iff_of_true ⟨st, rfl⟩ rfl, fun s h => by cases h; exact .refl ht⟩
  | some m =>
    simp only [Option.toList_some, List.map_cons, List.map_nil, run_singleton, Option.all_some]
    exact ⟨⟨fun ⟨_, h⟩ => (producer_calm ht h).1, producer_of_parsesId ht⟩,
      fun _ h => (producer_calm ht h).2⟩

/-- A harmless worker message is handled from every state. -/
theorem worker_of_harmless {net : Transport} {st : ItemDistributor} {m : List String} (hm : harmless m = true) :
    ∃ s, onWorkerPollin net m st = .ok s := by
  unfold harmless at hm
  split at hm
  · next k hd => exact ⟨sendPendingCompletions net (eraseWorker k st), by
      simp [onWorkerPollin, hd, execute, bind, Except.bind, pure, Except.pure]⟩
  · next hd => exact ⟨sendPendingCompletions net st, by
      simp [onWorkerPollin, hd, execute, bind, Except.bind, pure, Except.pure]⟩
  · cases hm

/-- The sweep after a REGISTER: the new record is idle, and its HEARTBEAT throws. -/
theorem tick_registered {net : Transport} (hn : net.hasPeer "" = false) {st : ItemDistributor}
    {c : Worker} (hc : c.outstandingItems = []) (ht : st.workers = WorkerTable.empty.insert "" c) :
    handle net .tick st = .error .zmqError := by
  show sendHeartbeats net st.workers.entries st = _
  rw [ht]
  simp [sendHeartbeats, hc, sendHeartbeat, sendWorkerMessage_noPeer hn, WorkerTable.insert,
    WorkerTable.empty, insertEntry, bind, Except.bind]

/-- The worker half of a wait, after a calm producer half: a harmless message is handled and
    keeps the table empty, and any other that is handled leaves one idle record. -/
theorem worker_half (net : Transport) {st s₁ : ItemDistributor} (hc : Calm st s₁)
    (q : Option (List String)) :
    (q.all harmless = true → ∃ s, run net (q.toList.map .worker) s₁ = .ok s) ∧
      ∀ s, run net (q.toList.map .worker) s₁ = .ok s → (q.all harmless = true ∧ Calm st s) ∨
        q.all harmless = false ∧
          ∃ c : Worker, c.outstandingItems = [] ∧ s.workers = WorkerTable.empty.insert "" c := by
  cases q with
  | none => exact ⟨fun _ => ⟨s₁, rfl⟩, fun s h => by cases h; exact .inl ⟨rfl, hc⟩⟩
  | some m =>
    simp only [Option.toList_some, List.map_cons, List.map_nil, run_singleton, Option.all_some]
    exact ⟨worker_of_harmless,
      fun _ h => (worker_calm hc.1 h).imp (fun hm => ⟨hm.1, hc.trans hm.2⟩) id⟩

/-- One pass of the loop from an empty table on the real worker socket: the wait is survived
    exactly when it is `survivable`, and then the table is empty again and only completions
    went out. A REGISTER that parses installs an idle record, which the sweep after the wait
    sends a HEARTBEAT to the empty identity. -/
theorem run_wait {net : Transport} (hn : net.hasPeer "" = false) (w : Wait) {st : ItemDistributor}
    (ht : st.workers = .empty) :
    ((∃ s, run net w.events st = .ok s) ↔ w.survivable = true) ∧
      ∀ s, run net w.events st = .ok s → Calm st s := by
  obtain ⟨p, q⟩ := w
  have hsplit : run net (Wait.events ⟨p, q⟩) st = (run net (p.toList.map .producer) st >>=
      run net (q.toList.map .worker)) >>= run net [.tick] := by
    rw [Wait.events, run_append, run_append]
  have hp := producer_half net ht p
  have hok : ∀ s, run net (Wait.events ⟨p, q⟩) st = .ok s →
      Wait.survivable ⟨p, q⟩ = true ∧ Calm st s := by
    intro s h
    rw [hsplit] at h
    obtain ⟨s₂, h₁₂, h₃⟩ := bind_eq_ok.mp h
    obtain ⟨s₁, h₁, h₂⟩ := bind_eq_ok.mp h₁₂
    rw [run_singleton] at h₃
    rcases (worker_half net (hp.2 s₁ h₁) q).2 s₂ h₂ with ⟨hq, hc₂⟩ | ⟨-, c, hc, hreg⟩
    · rw [tick_empty hc₂.1] at h₃
      cases h₃
      exact ⟨by simp [Wait.survivable, hp.1.mp ⟨s₁, h₁⟩, hq], hc₂⟩
    · rw [tick_registered hn hc hreg] at h₃
      cases h₃
  refine ⟨⟨fun ⟨s, h⟩ => (hok s h).1, fun hw => ?_⟩, fun s h => (hok s h).2⟩
  simp only [Wait.survivable, Bool.and_eq_true] at hw
  obtain ⟨s₁, h₁⟩ := hp.1.mpr hw.1
  have hq := worker_half net (hp.2 s₁ h₁) q
  obtain ⟨s₂, h₂⟩ := hq.1 hw.2
  have hc₂ : Calm st s₂ :=
    ((hq.2 s₂ h₂).resolve_right fun h => absurd (hw.2.symm.trans h.1) (by decide)).2
  refine ⟨s₂, ?_⟩
  rw [hsplit, h₁]
  exact bind_eq_ok.mpr ⟨s₂, h₂, by rw [run_singleton]; exact tick_empty hc₂.1⟩

/-- The passes of the loop from an empty table on the real worker socket. -/
theorem operator_calm {net : Transport} (hn : net.hasPeer "" = false) :
    ∀ (ws : List Wait) (st : ItemDistributor), st.workers = .empty →
      ((∃ s, operator net ws st = .ok s) ↔ ws.all Wait.survivable = true) ∧
        ∀ s, operator net ws st = .ok s → Calm st s
  | [], st, ht => ⟨iff_of_true ⟨st, rfl⟩ rfl, fun s h => by cases h; exact .refl ht⟩
  | w :: ws, st, ht => by
    have hw := run_wait hn w ht
    have ih : ∀ s₁, run net w.events st = .ok s₁ → _ := fun s₁ h₁ =>
      operator_calm hn ws s₁ (hw.2 s₁ h₁).1
    simp only [List.all_cons, Bool.and_eq_true]
    refine ⟨⟨fun ⟨s, h⟩ => ?_, fun ⟨h₁, h₂⟩ => ?_⟩, fun s h => ?_⟩
    · obtain ⟨s₁, h₁, h⟩ := bind_eq_ok.mp h
      exact ⟨hw.1.mp ⟨s₁, h₁⟩, (ih s₁ h₁).1.mp ⟨s, h⟩⟩
    · obtain ⟨s₁, hs₁⟩ := hw.1.mpr h₁
      obtain ⟨s, hs⟩ := (ih s₁ hs₁).1.mpr h₂
      exact ⟨s, bind_eq_ok.mpr ⟨s₁, hs₁, hs⟩⟩
    · obtain ⟨s₁, h₁, h⟩ := bind_eq_ok.mp h
      exact (hw.2 s₁ h₁).trans ((ih s₁ h₁).2 s h)

/-- Exactly the runs of `operator()` the real worker socket lets through: the broker survives a
    sequence of waits if and only if every producer message has an ID frame `std::stoull` takes
    and every worker message is a disconnect notification or a command other than REGISTER and
    COMPLETE. A REGISTER ends it at the sweep after its wait, a COMPLETE finds no record, and so
    the broker never serves a worker. -/
theorem operator_ok_iff {net : Transport} (hn : net.hasPeer "" = false) (ws : List Wait) :
    (∃ st, operator net ws init = .ok st) ↔ ws.all Wait.survivable = true :=
  (operator_calm hn ws init rfl).1

/-- A worker registers while the producer sends item 5. -/
def registerWaits : List Wait := [⟨some ["5"], some ["A", "", "", "REGISTER 1 0 Async w"]⟩]

theorem operator_ok_iff_registerWaits :
    (noPeers .delivered).hasPeer "" = false ∧
      ((∃ st, operator (noPeers .delivered) registerWaits init = .ok st) ↔
        registerWaits.all Wait.survivable = true) :=
  ⟨rfl, operator_ok_iff rfl registerWaits⟩

/-- The REGISTER's wait ends in the HEARTBEAT to the empty identity. -/
example : registerWaits.all Wait.survivable = false ∧
    operator (noPeers .delivered) registerWaits init = .error .zmqError := ⟨rfl, rfl⟩

end Flesnet
