import Flesnet.WorkerChannel
import Flesnet.Conservation

/-! The life of an item across the handlers.

    An item no record's predicate selects dies when `on_generator_pollin` resets `new_item`,
    and its ID goes back to the producer in the same event (`unmatched_item_completes`).
    Removing the record under the empty identity, by a disconnect notification or by a second
    REGISTER, which assigns over it, destroys the objects only that record held, and exactly
    their IDs are transmitted in the same event (`disconnect_releases`, `register_replaces`).
    A WORK_ITEM is only ever sent for an item that is outstanding, when the event is done, at
    the record it went to, and whose ID that record's predicate selects
    (`work_item_matches`). -/

namespace Flesnet
open ItemDistributor

/-! ### Drop before dispatch -/

section unwanted
variable {net : Transport} {x : Item}

theorem distribute_unwanted {s : ItemDistributor} {k : String}
    (h : ∀ w, s.workers.get? k = some w → w.wantsItem x.id = .ok false) :
    distribute net x s k = .ok s := by
  unfold distribute
  split
  · rfl
  · next w hw => rw [h w hw]

theorem fanOut_unwanted :
    ∀ (ks : List String) (s : ItemDistributor),
      (∀ k w, s.workers.get? k = some w → w.wantsItem x.id = .ok false) →
      fanOut net x ks s = .ok s
  | [], _, _ => rfl
  | k :: ks, s, h => by
    show (distribute net x s k >>= fanOut net x ks) = _
    rw [distribute_unwanted (h k)]
    exact fanOut_unwanted ks s h

end unwanted

/-- An item that no record wants is completed in its own event: from every reachable state,
    when no record's `wants_item` holds for the ID, `on_generator_pollin` returns with the table
    unchanged and nothing sent to a worker, and the drain gets a ledger holding exactly that
    ID. -/
theorem unmatched_item_completes {net : Transport} {st : ItemDistributor} (h : Reachable net st)
    {frame : String} {id : ItemID} (hid : stoull frame = .ok id)
    (hnone : ∀ k w, st.workers.get? k = some w → w.wantsItem id = .ok false) (rest : List String) :
    onGeneratorPollin net (frame :: rest) st = .ok (sendPendingCompletions net
      { st with
        allocated := st.allocated + 1, received := st.received ++ [id], completedItems := [id] }) := by
  let x : Item := ⟨st.allocated, id, rest.headD ""⟩
  let s₁ : ItemDistributor :=
    { st with allocated := st.allocated + 1, received := st.received ++ [id] }
  have hx : x ∉ st.workers.items := fun hm => lt_irrefl _ ((TableInv.of_reachable h).fresh x hm)
  have hf : fanOut net x s₁.workers.keys s₁ = .ok s₁ := fanOut_unwanted _ s₁ hnone
  have hd : dropRef [] x s₁ = { s₁ with completedItems := [id] } := by
    rw [dropRef, if_neg (not_or.mpr ⟨List.not_mem_nil _, hx⟩), completedItems_eq_nil h]
    rfl
  simp only [onGeneratorPollin, receiveProducerItem, hid]
  show (fanOut net x s₁.workers.keys s₁ >>= _) = _
  rw [hf]
  show Except.ok (sendPendingCompletions net (dropRef [] x s₁)) = _
  rw [hd]

/-- A worker of stride 2 and offset 0 registers. -/
def unmatchedRun : List Event := [.worker ["A", "", "", "REGISTER 2 0 Async w"]]

/-- The state `unmatchedRun` ends in. -/
def unmatchedState : ItemDistributor :=
  match run deliverAll unmatchedRun init with
  | .ok st => st
  | .error _ => init

/-- The item 7, which the one record does not select. -/
theorem unmatched_item_completes_unmatchedState :
    Reachable deliverAll unmatchedState ∧ stoull "7" = .ok 7 ∧
      (∀ k w, unmatchedState.workers.get? k = some w → w.wantsItem 7 = .ok false) ∧
      onGeneratorPollin deliverAll ["7"] unmatchedState = .ok (sendPendingCompletions deliverAll
        { unmatchedState with
          allocated := unmatchedState.allocated + 1, received := unmatchedState.received ++ [7],
          completedItems := [7] }) :=
  have h : Reachable deliverAll unmatchedState := ⟨unmatchedRun, rfl⟩
  have hid : stoull "7" = .ok 7 := rfl
  have hnone : ∀ k w, unmatchedState.workers.get? k = some w → w.wantsItem 7 = .ok false :=
    fun k w hw => by
      have ht : unmatchedState.workers = WorkerTable.empty.insert "" ⟨2, 0, .async, "w", [], []⟩ :=
        rfl
      rw [ht, WorkerTable.get?_insert] at hw
      split_ifs at hw
      · cases hw; rfl
      · simp at hw
  ⟨h, hid, hnone, unmatched_item_completes h hid hnone []⟩

example : (onGeneratorPollin deliverAll ["7"] unmatchedState).map transmitted = .ok [7] := rfl

/-! ### Retiring a record -/

/-- A disconnect notification from any peer erases the record under the empty identity: from
    every reachable state on a delivering transport the handler returns with that key gone,
    and in the same event the objects only that record held die and exactly their IDs are
    transmitted to the producer. -/
theorem disconnect_releases {st : ItemDistributor} (h : Reachable deliverAll st) {f0 : String}
    (h0 : f0 ≠ "") :
    ∃ st', onWorkerPollin deliverAll [f0, ""] st = .ok st' ∧
      st'.workers = st.workers.erase "" ∧
      (st'.transmitted : Multiset ItemID) =
        st.transmitted + (heldObjects st \ heldObjects st').val.map Item.id := by
  have hb := (reachable_balanced h).2
  refine ⟨_, onWorkerPollin_two h0 deliverAll st, by simp, ?_⟩
  refine transmitted_of_balanced hb (drain_balanced (eraseWorker_balanced hb)) (by simp)
    (completedItems_eq_nil h) (by simp) ?_
  simpa [heldObjects] using WorkerTable.items_erase_subset st.workers ""

/-- Peer B disconnects after `completionRun`, whose record still holds the item 11. -/
theorem disconnect_releases_completionState :
    Reachable deliverAll completionState ∧ "B" ≠ "" ∧
      ∃ st', onWorkerPollin deliverAll ["B", ""] completionState = .ok st' ∧
        st'.workers = completionState.workers.erase "" ∧
        (st'.transmitted : Multiset ItemID) = completionState.transmitted +
          (heldObjects completionState \ heldObjects st').val.map Item.id :=
  have h : Reachable deliverAll completionState := ⟨completionRun, rfl⟩
  ⟨h, by decide, disconnect_releases h (by decide)⟩

example : (onWorkerPollin deliverAll ["B", ""] completionState).map transmitted = .ok [10, 11] :=
  rfl

/-- `workers_[identity] = std::move(c)` is an assignment, not a first-wins insert: from every
    reachable state on a delivering transport a REGISTER puts a fresh record under the empty
    identity in place of whatever was there, and in the same event the objects only the old
    record held die and their IDs are transmitted to the producer. -/
theorem register_replaces {st : ItemDistributor} (h : Reachable deliverAll st) {f0 name : String}
    (h0 : f0 ≠ "") (hn : name.data ≠ []) (hs : ∀ c ∈ name.data, isSpace c = false) (f2 : String)
    (stride offset : UInt64) (p : WorkerQueuePolicy) :
    ∃ st', onWorkerPollin deliverAll [f0, "", f2, registerText stride offset p name] st = .ok st' ∧
      st'.workers = st.workers.insert "" ⟨stride, offset, p, name, [], []⟩ ∧
      (st'.transmitted : Multiset ItemID) =
        st.transmitted + (heldObjects st \ heldObjects st').val.map Item.id := by
  let c : Worker := ⟨stride, offset, p, name, [], []⟩
  have hcmd : commandOf "" (registerText stride offset p name) = .register "" (some c) := by
    rw [commandOf_registerText, parseRegister_registerText _ _ _ hn hs]
  have hb := (reachable_balanced h).2
  refine ⟨sendPendingCompletions deliverAll (assignWorker "" c st), ?_, by simp, ?_⟩
  · rw [onWorkerPollin_long h0, hcmd]; rfl
  · refine transmitted_of_balanced hb (drain_balanced (assignWorker_balanced rfl hb)) (by simp)
      (completedItems_eq_nil h) (by simp) ?_
    simp only [heldObjects, sendPendingCompletions_workers, assignWorker_workers,
      WorkerTable.items_insert]
    simpa [c, Worker.items] using WorkerTable.items_erase_subset st.workers ""

/-- A second REGISTER after `completionRun`, whose record still holds the item 11. -/
theorem register_replaces_completionState :
    Reachable deliverAll completionState ∧ "B" ≠ "" ∧ "v".data ≠ [] ∧
      (∀ c ∈ "v".data, isSpace c = false) ∧
      ∃ st', onWorkerPollin deliverAll ["B", "", "", registerText 2 1 .skip "v"] completionState =
          .ok st' ∧
        st'.workers = completionState.workers.insert "" ⟨2, 1, .skip, "v", [], []⟩ ∧
        (st'.transmitted : Multiset ItemID) = completionState.transmitted +
          (heldObjects completionState \ heldObjects st').val.map Item.id :=
  have h : Reachable deliverAll completionState := ⟨completionRun, rfl⟩
  ⟨h, by decide, by decide, by decide,
    register_replaces h (by decide) (by decide) (by decide) "" 2 1 .skip⟩

example : (onWorkerPollin deliverAll ["B", "", "", registerText 2 1 .skip "v"]
    completionState).map transmitted = .ok [10, 11] := rfl

/-! ### WORK_ITEMs -/

/-- Every WORK_ITEM among the sends `l` is for an item that, in `s`, is outstanding at the
    record it went to. -/
def WorkOutstanding (s : ItemDistributor) (l : List (Outbound × SendResult)) : Prop :=
  ∀ p ∈ l, ∀ k y, p.1 = .workItem k y → ∃ w, s.workers.get? k = some w ∧ y ∈ w.outstandingItems

section work
variable {net : Transport} {s s' : ItemDistributor}

theorem WorkOutstanding.nil : WorkOutstanding s [] := fun _ hp => absurd hp (List.not_mem_nil _)

theorem WorkOutstanding.append {l l' : List (Outbound × SendResult)} (h : WorkOutstanding s l)
    (h' : WorkOutstanding s l') : WorkOutstanding s (l ++ l') := fun p hp =>
  (List.mem_append.mp hp).elim (h p) (h' p)

theorem WorkOutstanding.of_workers {l : List (Outbound × SendResult)} (h : WorkOutstanding s l)
    (hw : s'.workers = s.workers) : WorkOutstanding s' l := by
  rw [WorkOutstanding, hw]; exact h

/-- Sends that are all completions carry no WORK_ITEM. -/
theorem WorkOutstanding.of_completions {l : List (Outbound × SendResult)}
    (h : ∀ p ∈ l, ∃ id, p.1 = .completion id) : WorkOutstanding s l := fun p hp k y hpy => by
  obtain ⟨id, hid⟩ := h p hp
  rw [hid] at hpy; cases hpy

/-- The drain sends no WORK_ITEM and leaves the table alone. -/
theorem WorkOutstanding.drain {l : List (Outbound × SendResult)} (h : s.sent = s'.sent ++ l)
    (hw : WorkOutstanding s l) :
    ∃ l', (sendPendingCompletions net s).sent = s'.sent ++ l' ∧
      WorkOutstanding (sendPendingCompletions net s) l' := by
  obtain ⟨l₂, hl₂, hc⟩ := sendPendingCompletions_sent net s
  exact ⟨l ++ l₂, by rw [hl₂, h, List.append_assoc],
    (hw.of_workers (sendPendingCompletions_workers s net)).append (.of_completions hc)⟩

theorem fanOut_get?_of_not_mem {x : Item} {k : String} :
    ∀ {ks : List String} {s s' : ItemDistributor}, k ∉ ks → fanOut net x ks s = .ok s' →
      s'.workers.get? k = s.workers.get? k
  | [], _, _, _, h => by cases h; rfl
  | k' :: ks, _, _, hk, h => by
    obtain ⟨s₁, h₁, h₂⟩ := bind_eq_ok.mp h
    rw [fanOut_get?_of_not_mem (fun hm => hk (List.mem_cons_of_mem _ hm)) h₂]
    have hk' : k ≠ k' := fun he => hk (he ▸ List.mem_cons_self _ _)
    rcases distribute_inv h₁ with ⟨rfl, -⟩ | ⟨w, -, -, hwk, -⟩
    · rfl
    · rw [hwk, WorkerTable.get?_insert, if_neg hk']

/-- The fan-out sends `x` only to records that take it as outstanding. -/
theorem fanOut_workOutstanding {x : Item} :
    ∀ {ks : List String} {s s' : ItemDistributor}, ks.Nodup → fanOut net x ks s = .ok s' →
      ∃ l, s'.sent = s.sent ++ l ∧ WorkOutstanding s' l
  | [], _, _, _, h => by cases h; exact ⟨[], by simp, .nil⟩
  | k :: ks, s, s', hnd, h => by
    obtain ⟨s₁, h₁, h₂⟩ := bind_eq_ok.mp h
    rw [List.nodup_cons] at hnd
    obtain ⟨l₂, hl₂, hw₂⟩ := fanOut_workOutstanding hnd.2 h₂
    rcases distribute_inv h₁ with ⟨rfl, -⟩ | ⟨w, -, -, hwk, -, -, -, hs, -⟩
    · exact ⟨l₂, hl₂, hw₂⟩
    have hw₁ : WorkOutstanding s'
        (if w.outstandingItems = [] then [(.workItem k x, net s.sent.length)] else []) := by
      rintro p hp k' y hpy
      split_ifs at hp with hidle
      · obtain rfl := List.mem_singleton.mp hp
        obtain ⟨rfl, rfl⟩ := Outbound.workItem.inj hpy
        refine ⟨w.offer x, ?_, by simp [Worker.offer, Worker.enqueue, hidle]⟩
        rw [fanOut_get?_of_not_mem hnd.1 h₂, hwk, WorkerTable.get?_insert, if_pos rfl]
      · cases hp
    exact ⟨_, by rw [hl₂, hs, List.append_assoc], hw₁.append hw₂⟩

/-- An accepted COMPLETE sends the front waiting item, now outstanding. -/
theorem complete_workOutstanding {k : String} {id? : Option ItemID}
    (h : complete net k id? s = .ok s') : ∃ l, s'.sent = s.sent ++ l ∧ WorkOutstanding s' l := by
  obtain ⟨w, id, x, -, -, -, hwk, -, -, -, hs, -⟩ := complete_inv h
  refine ⟨_, hs, fun p hp k' y hpy => ?_⟩
  cases hq : w.waitingItems with
  | nil => rw [hq] at hp; cases hp
  | cons z zs =>
    rw [hq] at hp
    obtain rfl := List.mem_singleton.mp hp
    obtain ⟨rfl, rfl⟩ := Outbound.workItem.inj hpy
    refine ⟨w.handOff id, by rw [hwk, WorkerTable.get?_insert, if_pos rfl], ?_⟩
    simp [Worker.handOff, Worker.sendNext, Worker.eraseOutstanding, hq]

/-- Every event sends a WORK_ITEM only for an item it leaves outstanding at the record it went
    to. -/
theorem handle_workOutstanding {ev : Event} (h : handle net ev s = .ok s') :
    ∃ l, s'.sent = s.sent ++ l ∧ WorkOutstanding s' l := by
  cases ev with
  | producer m =>
    obtain ⟨x, s₁, s₂, h₁, h₂, rfl⟩ := onGeneratorPollin_inv h
    obtain ⟨_, _, -, -, -, rfl⟩ := receiveProducerItem_inv h₁
    obtain ⟨l, hl, hw⟩ := fanOut_workOutstanding (WorkerTable.keys_nodup _) h₂
    exact WorkOutstanding.drain (by rw [dropRef_sent]; exact hl)
      (hw.of_workers (dropRef_workers _ [] x))
  | worker m =>
    obtain ⟨cmd, s₁, -, h₁, rfl⟩ := onWorkerPollin_inv h
    obtain ⟨l, hl, hw⟩ : ∃ l, s₁.sent = s.sent ++ l ∧ WorkOutstanding s₁ l := by
      cases cmd with
      | disconnect i => cases h₁; exact ⟨[], by simp, .nil⟩
      | register i c =>
        cases c with
        | none => cases h₁
        | some c => cases h₁; exact ⟨[], by simp, .nil⟩
      | complete i id => exact complete_workOutstanding h₁
      | other => cases h₁; exact ⟨[], by simp, .nil⟩
    exact WorkOutstanding.drain hl hw
  | tick =>
    obtain ⟨l, rfl, hl⟩ := sendHeartbeats_inv h
    refine ⟨l, rfl, fun p hp k y hpy => ?_⟩
    obtain ⟨i, hi⟩ := hl p hp
    rw [hi] at hpy; cases hpy

end work

/-- WORK_ITEMs go only where they are wanted: in every run, every WORK_ITEM an event sends
    is for an item that, when the event is done, is outstanding at the record it went to, and
    whose ID `n` satisfies `n % stride = offset` for that record. -/
theorem work_item_matches {net : Transport} {s s' : ItemDistributor} {ev : Event}
    (h : Reachable net s) (hs : handle net ev s = .ok s') :
    ∃ l, s'.sent = s.sent ++ l ∧ ∀ p ∈ l, ∀ k y, p.1 = .workItem k y →
      ∃ w, s'.workers.get? k = some w ∧ y ∈ w.outstandingItems ∧ y.id % w.stride = w.offset := by
  obtain ⟨l, hl, hw⟩ := handle_workOutstanding hs
  have hinv := handle_keeps (TableInv.of_reachable h) hs
  refine ⟨l, hl, fun p hp k y hpy => ?_⟩
  obtain ⟨w, hwk, hy⟩ := hw p hp k y hpy
  exact ⟨w, hwk, hy, (hinv.get hwk).1.matches_predicate y (by simp [Worker.items, hy])⟩

/-- The producer item 5 after the REGISTER of `registerRun`. -/
def dispatchState : ItemDistributor :=
  match handle deliverAll (.producer ["5"]) registerState with
  | .ok st => st
  | .error _ => registerState

theorem work_item_matches_registerState :
    Reachable deliverAll registerState ∧
      handle deliverAll (.producer ["5"]) registerState = .ok dispatchState ∧
      ∃ l, dispatchState.sent = registerState.sent ++ l ∧ ∀ p ∈ l, ∀ k y, p.1 = .workItem k y →
        ∃ w, dispatchState.workers.get? k = some w ∧ y ∈ w.outstandingItems ∧
          y.id % w.stride = w.offset :=
  have h : Reachable deliverAll registerState := ⟨registerRun, rfl⟩
  have hs : handle deliverAll (.producer ["5"]) registerState = .ok dispatchState := rfl
  ⟨h, hs, work_item_matches h hs⟩

end Flesnet
