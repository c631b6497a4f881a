import Flesnet.Conservation
import Flesnet.WorkerChannel

/-! Completion accounting on every transport.

    `completion_conservation` needs a network that delivers everything. On any other network
    sends fail: a WORK_ITEM send that throws ends the handler, and a completion send that
    throws ends the drain of `send_pending_completions` (lines 143-152), whose ledger is then
    cleared anyway. What
    survives every network is a bound. Count, as a multiset, every completion the broker has
    handed to the producer socket (whatever the socket did with it), the ledger, and one ID for
    each live item object: that count never exceeds the IDs read from the producer
    (`completions_le_received`). So no ID is reported more often than the producer sent it,
    and an ID whose object is still alive has been reported fewer times than it was sent.

    The proof follows `Conservation`: `accounted` is the left side with the objects `pinned`
    by the running handler's local pointers; `dropRef` keeps it (`accounted_dropRef`); every
    other step except the drain keeps it; the drain lowers it, since what it hands the socket
    is a prefix of the ledger (`sendCompletions_prefix`). -/

namespace Flesnet
open ItemDistributor

/-- The IDs of the completions among some sends, whatever the transport did with them. -/
def completionIds (l : List (Outbound × SendResult)) : List ItemID :=
  l.filterMap fun
    | (.completion id, _) => some id
    | _ => none

@[simp] theorem completionIds_append (l l' : List (Outbound × SendResult)) :
    completionIds (l ++ l') = completionIds l ++ completionIds l' :=
  List.filterMap_append ..

theorem completionIds_eq_nil {l : List (Outbound × SendResult)}
    (h : ∀ p ∈ l, ∀ id, p.1 ≠ .completion id) : completionIds l = [] := by
  refine List.filterMap_eq_nil_iff.mpr fun ⟨o, r⟩ hp => ?_
  cases o with
  | completion id => exact absurd rfl (h _ hp id)
  | _ => rfl

theorem completionIds_of_map {l : List (Outbound × SendResult)} {ids : List ItemID}
    (h : l.map Prod.fst = ids.map .completion) : completionIds l = ids := by
  induction l generalizing ids with
  | nil => cases ids <;> simp_all [completionIds]
  | cons p l ih =>
    obtain ⟨o, r⟩ := p
    cases ids with
    | nil => simp at h
    | cons id ids =>
      simp only [List.map_cons, List.cons.injEq] at h
      obtain ⟨rfl, h⟩ := h
      simpa [completionIds] using ih h

/-- The drain hands the producer socket a prefix of the ledger: up to and including the first
    send that throws. -/
theorem sendCompletions_prefix (net : Transport) :
    ∀ (ids : List ItemID) (st : ItemDistributor), ∃ l,
      (sendCompletions net ids st).sent = st.sent ++ l ∧
        l.map Prod.fst = (ids.take l.length).map .completion
  | [], st => ⟨[], by simp [sendCompletions], rfl⟩
  | id :: ids, st => by
    unfold sendCompletions
    split
    · exact ⟨_, rfl, rfl⟩
    · obtain ⟨l, hl, hp⟩ :=
        sendCompletions_prefix net ids (st.log (.completion id) (net st.sent.length))
      exact ⟨(.completion id, net st.sent.length) :: l, by rw [hl, log_sent]; simp,
        by simp [hp]⟩

/-- What the broker has accounted for: every completion it handed to the producer socket, the
    ledger, and one ID for each live object, those `pinned` by local pointers included. -/
def accounted (pinned : List Item) (st : ItemDistributor) : Multiset ItemID :=
  (completionIds st.sent : Multiset ItemID) + st.completedItems +
    (heldObjects st ∪ pinned.toFinset).val.map Item.id

theorem accounted_dropRef (E : List Item) (x : Item) (st : ItemDistributor) :
    accounted E (dropRef E x st) = accounted (x :: E) st := by
  unfold dropRef
  split_ifs with hx
  · have hmem : x ∈ heldObjects st ∪ E.toFinset := by
      rcases hx with hx | hx
      · exact Finset.mem_union_right _ (List.mem_toFinset.mpr hx)
      · exact Finset.mem_union_left _ (List.mem_toFinset.mpr hx)
    rw [accounted, accounted, List.toFinset_cons, Finset.union_insert, Finset.insert_eq_of_mem hmem]
  · push_neg at hx
    have hnot : x ∉ heldObjects st ∪ E.toFinset := by simp [heldObjects, hx.1, hx.2]
    rw [accounted, accounted, List.toFinset_cons, Finset.union_insert,
      Finset.insert_val_of_not_mem hnot, Multiset.map_cons]
    simp only [heldObjects, ← Multiset.coe_add, Multiset.coe_singleton, ← Multiset.singleton_add,
      add_assoc]


theorem accounted_dropRefs (E : List Item) :
    ∀ (xs : List Item) (st : ItemDistributor),
      accounted E (dropRefs E xs st) = accounted (xs ++ E) st
  | [], _ => rfl
  | x :: xs, st => by rw [dropRefs, accounted_dropRefs E xs, accounted_dropRef]; rfl

/-- Two states with the same completions sent, the same ledger and the same live objects account
    for the same IDs. -/
theorem accounted_congr {E E' : List Item} {s s' : ItemDistributor}
    (hc : completionIds s'.sent = completionIds s.sent) (hl : s'.completedItems = s.completedItems)
    (hi : heldObjects s' ∪ E'.toFinset = heldObjects s ∪ E.toFinset) :
    accounted E' s' = accounted E s := by
  rw [accounted, accounted, hc, hl, hi]

/-- The drain moves a prefix of the ledger to the producer socket and drops the rest. -/
theorem accounted_drain (net : Transport) (E : List Item) (st : ItemDistributor) :
    accounted E (sendPendingCompletions net st) ≤ accounted E st := by
  obtain ⟨l, hl, hp⟩ := sendCompletions_prefix net st.completedItems st
  have hs : (sendPendingCompletions net st).sent = st.sent ++ l := hl
  rw [accounted, accounted, hs, completionIds_append, completionIds_of_map hp,
    sendPendingCompletions_completedItems, heldObjects, heldObjects, sendPendingCompletions_workers,
    ← Multiset.coe_add, Multiset.coe_nil, add_zero]
  exact add_le_add_right (add_le_add_left (Multiset.coe_le.mpr (List.take_sublist _ _).subperm) _) _


/-! ### The handlers -/

section handlers
variable {net : Transport} {st st' : ItemDistributor}

theorem accounted_distribute {x : Item} {k : String} (hd : distribute net x st k = .ok st') :
    accounted [x] st' = accounted [x] st := by
  rcases distribute_inv hd with ⟨rfl, -⟩ | ⟨w, hw, -, hwk, hl, -, -, hs, -⟩
  · rfl
  have h₀ : accounted (w.prebuffered ++ [x])
      { st with workers := st.workers.insert k w.clearPrebuffer } = accounted [x] st :=
    accounted_congr rfl rfl (by
      simp only [heldObjects, WorkerTable.items_insert, WorkerTable.items_of_get? hw,
        List.toFinset_append, ← clearPrebuffer_items w]
      ac_rfl)
  rw [← h₀, ← accounted_dropRefs]
  refine accounted_congr ?_ hl ?_
  · have hw : completionIds (if w.outstandingItems = [] then
        [(Outbound.workItem k x, net st.sent.length)] else []) = [] :=
      completionIds_eq_nil (by split_ifs <;> simp)
    rw [hs, dropRefs_sent, completionIds_append, hw, List.append_nil]
  · simp only [heldObjects, hwk, dropRefs_workers, WorkerTable.items_insert]
    rw [Finset.union_right_comm, offer_items, Finset.union_right_comm]

theorem accounted_generator {m : List String} (hinv : TableInv st.workers st.allocated)
    (hb : accounted [] st ≤ st.received) (h : onGeneratorPollin net m st = .ok st') :
    accounted [] st' ≤ st'.received := by
  obtain ⟨x, s₁, s₂, h₁, h₂, rfl⟩ := onGeneratorPollin_inv h
  obtain ⟨_, _, -, -, hx, rfl⟩ := receiveProducerItem_inv h₁
  have hnew : x ∉ heldObjects st := fun hmem => by
    have := hinv.fresh x (by simpa [heldObjects] using hmem)
    rw [hx] at this; simp at this
  have hfan : accounted [x] s₂ = accounted [x] st :=
    fanOut_induct (fun s => accounted [x] s = accounted [x] st)
      (fun _ _ _ hp hs => (accounted_distribute hs).trans hp) _ _ _ (by rfl) h₂
  have hx₁ : accounted [x] st = accounted [] st + {x.id} := by
    rw [accounted, accounted, List.toFinset_cons, List.toFinset_nil, Finset.union_insert,
      Finset.insert_val_of_not_mem (by simpa using hnew), Multiset.map_cons,
      ← Multiset.singleton_add, add_comm ({x.id} : Multiset ItemID), ← add_assoc]
  have hr : s₂.received = st.received ++ [x.id] :=
    fanOut_induct (fun s => s.received = st.received ++ [x.id]) (fun _ _ _ hp hs => by
      rcases distribute_inv hs with ⟨rfl, -⟩ | ⟨_, _, _, _, _, _, hr, _⟩
      exacts [hp, hr.trans hp]) _ _ _ (by rfl) h₂
  calc accounted [] (sendPendingCompletions net (dropRef [] x s₂))
      ≤ accounted [] (dropRef [] x s₂) := accounted_drain net [] _
    _ = accounted [] st + {x.id} := by rw [accounted_dropRef, hfan, hx₁]
    _ ≤ st.received + {x.id} := add_le_add_right hb _
    _ = _ := by
      rw [sendPendingCompletions_received, dropRef_received, hr, ← Multiset.coe_add,
        Multiset.coe_singleton]

theorem accounted_eraseWorker (k : String) (st : ItemDistributor) :
    accounted [] (eraseWorker k st) = accounted [] st := by
  unfold eraseWorker destroyWorker
  split
  · rfl
  · next w hw =>
    rw [accounted_dropRefs]
    refine accounted_congr rfl rfl ?_
    simp only [heldObjects, List.append_nil, WorkerTable.items_of_get? hw, List.toFinset_append,
      Worker.items, List.toFinset_nil, Finset.union_empty]
    ac_rfl

theorem accounted_assignWorker {k : String} {c : Worker} (hc : c.items = [])
    (st : ItemDistributor) : accounted [] (assignWorker k c st) = accounted [] st := by
  unfold assignWorker destroyWorker
  split
  · next hw =>
    refine accounted_congr rfl rfl ?_
    simp only [heldObjects, WorkerTable.items_insert, hc, WorkerTable.erase_of_get?_none hw,
      List.toFinset_nil, Finset.empty_union]
  · next w hw =>
    rw [accounted_dropRefs]
    refine accounted_congr rfl rfl ?_
    rw [heldObjects, heldObjects, WorkerTable.items_insert, hc, WorkerTable.items_of_get? hw]
    simp only [List.append_nil, List.toFinset_append, Worker.items, List.toFinset_nil,
      Finset.empty_union, Finset.union_empty]
    ac_rfl

theorem accounted_complete {k : String} {id? : Option ItemID}
    (hc : complete net k id? st = .ok st') : accounted [] st' = accounted [] st := by
  obtain ⟨w, id, x, hw, -, hx, hwk, hl, -, -, hs, -⟩ := complete_inv hc
  have h₀ : accounted [x] { st with workers := st.workers.insert k (w.eraseOutstanding id) } =
      accounted [] st :=
    accounted_congr rfl rfl (by
      simp only [heldObjects, WorkerTable.items_insert, WorkerTable.items_of_get? hw,
        ← eraseOutstanding_items hx, List.toFinset_nil, Finset.union_empty]
      ac_rfl)
  rw [← h₀, ← accounted_dropRef]
  refine accounted_congr ?_ hl ?_
  · have hw : completionIds ((w.waitingItems.take 1).map
        fun y => (Outbound.workItem k y, net st.sent.length)) = [] :=
      completionIds_eq_nil fun p hp _ he => by
        obtain ⟨y, -, rfl⟩ := List.mem_map.mp hp
        cases he
    rw [hs, dropRef_sent, completionIds_append, hw, List.append_nil]
  · simp only [heldObjects, hwk, dropRef_workers, WorkerTable.items_insert, handOff_items]

theorem accounted_worker {m : List String} (hb : accounted [] st ≤ st.received)
    (h : onWorkerPollin net m st = .ok st') : accounted [] st' ≤ st'.received := by
  obtain ⟨cmd, s₁, hcmd, h₁, rfl⟩ := onWorkerPollin_inv h
  have hs₁ : accounted [] s₁ = accounted [] st ∧ s₁.received = st.received := by
    cases cmd with
    | disconnect i => cases h₁; exact ⟨accounted_eraseWorker i st, eraseWorker_received i st⟩
    | register i c =>
      cases c with
      | none => cases h₁
      | some c =>
        cases h₁
        obtain ⟨hq, ho⟩ := decodeMessage_register hcmd
        exact ⟨accounted_assignWorker (by simp [Worker.items, hq, ho]) st,
          assignWorker_received i c st⟩
    | complete i id =>
      obtain ⟨-, -, -, -, -, -, -, -, -, hr, -, -⟩ := complete_inv h₁
      exact ⟨accounted_complete h₁, hr⟩
    | other => cases h₁; exact ⟨rfl, rfl⟩
  calc accounted [] (sendPendingCompletions net s₁) ≤ accounted [] s₁ := accounted_drain net [] s₁
    _ ≤ _ := by rw [hs₁.1, sendPendingCompletions_received, hs₁.2]; exact hb

theorem accounted_tick {es : List (String × Worker)} (hb : accounted [] st ≤ st.received)
    (h : sendHeartbeats net es st = .ok st') : accounted [] st' ≤ st'.received := by
  obtain ⟨l, rfl, hl⟩ := sendHeartbeats_inv h
  have hh : completionIds l = [] := completionIds_eq_nil fun p hp id he => by
    obtain ⟨i, hi⟩ := hl p hp
    rw [he] at hi
    cases hi
  have he : accounted [] { st with sent := st.sent ++ l } = accounted [] st :=
    accounted_congr (by rw [completionIds_append, hh, List.append_nil]) rfl rfl
  exact he.trans_le hb

end handlers

/-- The bound after every event of every run, on every transport. -/
theorem accounted_le_received {net : Transport} {st : ItemDistributor} (h : Reachable net st) :
    accounted [] st ≤ st.received :=
  (Reachable.induct (fun s => TableInv s.workers s.allocated ∧ accounted [] s ≤ s.received)
    ⟨TableInv.init, by simp [accounted, ItemDistributor.init, completionIds, heldObjects,
      WorkerTable.empty, WorkerTable.items]⟩
    (fun ev s s' ⟨hinv, hb⟩ hs => ⟨handle_keeps hinv hs, by
      cases ev with
      | producer m => exact accounted_generator hinv hb hs
      | worker m => exact accounted_worker hb hs
      | tick => exact accounted_tick hb hs⟩) h).2

/-- Completion accounting: on every transport, after every event of every run, the completions
    handed to the producer socket, the ledger and the IDs of the live item objects together are
    a sub-multiset of the IDs the producer sent; and every drain hands the socket a prefix of
    the ledger and clears it. -/
theorem completions_le_received {net : Transport} {st : ItemDistributor} (h : Reachable net st) :
    (completionIds st.sent : Multiset ItemID) + st.completedItems +
      (heldObjects st).val.map Item.id ≤ st.received ∧
    ∀ s : ItemDistributor, (sendPendingCompletions net s).completedItems = [] ∧
      ∃ l, (sendPendingCompletions net s).sent = s.sent ++ l ∧
        l.map Prod.fst = (s.completedItems.take l.length).map .completion :=
  ⟨by simpa [accounted] using accounted_le_received h,
    fun s => ⟨rfl, sendCompletions_prefix net s.completedItems s⟩⟩

/-- A network that routes every identity, delivers the first `n` sends of a run and throws on
    every later one. -/
def failFrom (n : Nat) : Transport := ⟨fun _ => true, fun i => if i < n then .delivered else .raised⟩

/-- `completionRun` on a network that fails from its third send on: the two WORK_ITEMs go out,
    and the completion of 10 throws in the drain. -/
def failedState : ItemDistributor :=
  match run (failFrom 2) completionRun init with
  | .ok st => st
  | .error _ => init

theorem completions_le_received_failedState :
    Reachable (failFrom 2) failedState ∧
      ((completionIds failedState.sent : Multiset ItemID) + failedState.completedItems +
        (heldObjects failedState).val.map Item.id ≤ failedState.received ∧
      ∀ s : ItemDistributor, (sendPendingCompletions (failFrom 2) s).completedItems = [] ∧
        ∃ l, (sendPendingCompletions (failFrom 2) s).sent = s.sent ++ l ∧
          l.map Prod.fst = (s.completedItems.take l.length).map .completion) :=
  have h : Reachable (failFrom 2) failedState := ⟨completionRun, rfl⟩
  ⟨h, completions_le_received h⟩

example : completionIds failedState.sent = [10] ∧ failedState.transmitted = [] ∧
    failedState.received = [10, 11] := ⟨rfl, rfl, rfl⟩

end Flesnet
