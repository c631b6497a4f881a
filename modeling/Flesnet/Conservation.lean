import Flesnet.QueueInvariant
import Mathlib.Data.Multiset.Basic
import Mathlib.Data.Finset.Basic

/-! Completion conservation.

    Every ID the producer sends is, at every point, either transmitted back to it, in the
    ledger, or the ID of an item object that is still alive, each object counted once. An
    object is alive while a worker queue or a local pointer (`pinned`) holds it; `dropRef`, the
    release of one pointer, moves its ID to the ledger exactly when the last pointer goes
    (`dropRef_balanced`). On a transport that delivers everything the ledger is drained at the
    end of every event, so after each event the IDs received are the IDs transmitted plus the
    IDs of the objects the queues still hold (`completion_conservation`). -/

namespace Flesnet
open ItemDistributor

/-- The objects the table holds, each once. -/
def heldObjects (st : ItemDistributor) : Finset Item := st.workers.items.toFinset

/-- The ledger balance with the objects `pinned` by local pointers. -/
def Balanced (pinned : List Item) (st : ItemDistributor) : Prop :=
  (st.received : Multiset ItemID) =
    st.transmitted + st.completedItems + (heldObjects st ∪ pinned.toFinset).val.map Item.id

theorem Balanced.transfer {E E' : List Item} {s s' : ItemDistributor} (h : Balanced E s)
    (hr : s'.received = s.received) (ht : s'.transmitted = s.transmitted)
    (hl : s'.completedItems = s.completedItems)
    (hi : heldObjects s' ∪ E'.toFinset = heldObjects s ∪ E.toFinset) : Balanced E' s' := by
  unfold Balanced at *; rw [hr, ht, hl, hi]; exact h

theorem transmitted_eq_of_sent {s s' : ItemDistributor} {l : List (Outbound × SendResult)}
    (h : s'.sent = s.sent ++ l) (hl : ∀ p ∈ l, ∀ id, p ≠ (.completion id, .delivered)) :
    s'.transmitted = s.transmitted := by
  simp only [transmitted, h, List.filterMap_append, List.append_right_eq_self,
    List.filterMap_eq_nil_iff]
  rintro ⟨o, r⟩ hp
  cases o with
  | completion id => cases r <;> first | rfl | exact absurd rfl (hl _ hp id)
  | _ => rfl

/-! ### Releasing a pointer -/

/-- Releasing one of the pointers to `x`: if another pointer is left nothing happens, else the
    object dies and its ID moves from the live objects to the ledger. -/
theorem dropRef_balanced {E : List Item} {x : Item} {st : ItemDistributor}
    (h : Balanced (x :: E) st) : Balanced E (dropRef E x st) := by
  unfold dropRef
  split_ifs with hx
  · refine h.transfer rfl rfl rfl ?_
    rw [List.toFinset_cons, Finset.union_insert, Finset.insert_eq_of_mem]
    rcases hx with hx | hx
    · exact Finset.mem_union_right _ (List.mem_toFinset.mpr hx)
    · exact Finset.mem_union_left _ (List.mem_toFinset.mpr hx)
  · push_neg at hx
    have hnot : x ∉ heldObjects st ∪ E.toFinset := by simp [heldObjects, hx.1, hx.2]
    unfold Balanced at *
    rw [List.toFinset_cons, Finset.union_insert, Finset.insert_val_of_not_mem hnot,
      Multiset.map_cons] at h
    rw [h, ← Multiset.singleton_add, ← Multiset.coe_add, Multiset.coe_singleton]
    simp only [heldObjects, transmitted, add_assoc, add_left_comm]

theorem dropRefs_balanced {E : List Item} :
    ∀ (xs : List Item) {st : ItemDistributor}, Balanced (xs ++ E) st →
      Balanced E (dropRefs E xs st)
  | [], _, h => h
  | _ :: xs, _, h => dropRefs_balanced xs (dropRef_balanced h)

/-! ### What a record step does to the objects it holds -/

theorem clearPrebuffer_items (w : Worker) :
    w.clearPrebuffer.items.toFinset ∪ w.prebuffered.toFinset = w.items.toFinset := by
  unfold Worker.clearPrebuffer Worker.prebuffered Worker.items
  split_ifs <;> simp [Finset.union_comm]

theorem offer_items (w : Worker) (x : Item) :
    (w.offer x).items.toFinset ∪ [x].toFinset = w.clearPrebuffer.items.toFinset ∪ [x].toFinset := by
  unfold Worker.offer Worker.enqueue
  split_ifs <;> simp [Worker.items, Finset.union_assoc, Finset.union_left_comm]

theorem eraseOutstanding_items {w : Worker} {id : ItemID} {x : Item}
    (hx : w.outstandingItems.find? (·.id == id) = some x) :
    (w.eraseOutstanding id).items.toFinset ∪ [x].toFinset = w.items.toFinset := by
  obtain ⟨a, l₁, l₂, hl₁, ha, hw, he⟩ :=
    List.exists_of_eraseP (List.mem_of_find?_eq_some hx) (List.find?_some hx)
  have hax : a = x := by
    rw [hw, List.find?_append, List.find?_eq_none.mpr (fun b hb => by simpa using hl₁ b hb),
      Option.none_or] at hx
    simpa [List.find?_cons, ha] using hx
  subst hax
  simp only [Worker.items, Worker.eraseOutstanding]
  rw [he, hw]
  ext y
  simp only [Finset.mem_union, List.mem_toFinset, List.mem_append, List.mem_cons,
    List.mem_singleton, List.not_mem_nil, or_false, false_or, or_assoc, or_comm, or_left_comm]

theorem handOff_items (w : Worker) (id : ItemID) :
    (w.handOff id).items.toFinset = (w.eraseOutstanding id).items.toFinset :=
  List.toFinset_eq_of_perm _ _ (sendNext_items_perm _)

/-! ### The sockets -/

theorem sendPendingCompletions_transmitted (st : ItemDistributor) :
    (sendPendingCompletions deliverAll st).transmitted = st.transmitted ++ st.completedItems := by
  simp [sendPendingCompletions, sendCompletions_deliverAll, transmitted, List.filterMap_append,
    List.filterMap_map, Function.comp_def]

/-- On a transport that delivers everything the drain moves the ledger to the producer. -/
theorem drain_balanced {E : List Item} {st : ItemDistributor} (h : Balanced E st) :
    Balanced E (sendPendingCompletions deliverAll st) := by
  unfold Balanced heldObjects at *
  rw [sendPendingCompletions_transmitted, sendPendingCompletions_completedItems,
    sendPendingCompletions_workers, sendPendingCompletions_received, h, ← Multiset.coe_add]
  simp

/-! ### The handlers -/

theorem distribute_balanced {x : Item} {st st' : ItemDistributor} {k : String}
    (h : Balanced [x] st) (hd : distribute deliverAll x st k = .ok st') : Balanced [x] st' := by
  rcases distribute_inv hd with ⟨rfl, -⟩ | ⟨w, hw, -, hwk, hl, -, hr, hs, -⟩
  · exact h
  have h₀ : Balanced (w.prebuffered ++ [x])
      { st with workers := st.workers.insert k w.clearPrebuffer } := h.transfer rfl rfl rfl (by
    simp only [heldObjects, WorkerTable.items_insert, WorkerTable.items_of_get? hw,
      List.toFinset_append, ← clearPrebuffer_items w]
    ac_rfl)
  refine (dropRefs_balanced _ h₀).transfer (by simp [hr])
    (transmitted_eq_of_sent (by rw [dropRefs_sent]; exact hs) (by split_ifs <;> simp)) hl ?_
  simp only [heldObjects, hwk, dropRefs_workers, WorkerTable.items_insert]
  rw [Finset.union_right_comm, offer_items, Finset.union_right_comm]

theorem generator_balanced {m : List String} {st st' : ItemDistributor}
    (hinv : TableInv st.workers st.allocated) (hb : Balanced [] st)
    (h : onGeneratorPollin deliverAll m st = .ok st') : Balanced [] st' := by
  obtain ⟨x, s₁, s₂, h₁, h₂, rfl⟩ := onGeneratorPollin_inv h
  obtain ⟨_, _, -, -, hx, rfl⟩ := receiveProducerItem_inv h₁
  have hnew : x ∉ heldObjects st := fun hmem => by
    have := hinv.fresh x (by simpa [heldObjects] using hmem)
    rw [hx] at this; simp at this
  have hb₁ : Balanced [x]
      { st with allocated := st.allocated + 1, received := st.received ++ [x.id] } := by
    have hset : heldObjects st ∪ [x].toFinset =
        insert x (heldObjects st ∪ ([] : List Item).toFinset) := by
      simp [Finset.insert_eq, Finset.union_comm]
    unfold Balanced at hb ⊢
    rw [← Multiset.coe_add, hb]
    erw [hset, Finset.insert_val_of_not_mem (by simpa using hnew), Multiset.map_cons,
      Multiset.add_cons, Multiset.coe_singleton, add_comm, Multiset.singleton_add]
    rfl
  exact drain_balanced (dropRef_balanced (fanOut_induct (Balanced [x])
    (fun _ _ _ hp hs => distribute_balanced hp hs) _ _ _ hb₁ h₂))

theorem eraseWorker_balanced {k : String} {st : ItemDistributor} (h : Balanced [] st) :
    Balanced [] (eraseWorker k st) := by
  unfold eraseWorker destroyWorker
  split
  · exact h
  · next w hw =>
    refine dropRefs_balanced _ (h.transfer rfl rfl rfl ?_)
    simp only [heldObjects, List.append_nil, WorkerTable.items_of_get? hw, List.toFinset_append,
      Worker.items, List.toFinset_nil, Finset.union_empty]
    ac_rfl

theorem assignWorker_balanced {k : String} {c : Worker} {st : ItemDistributor}
    (hc : c.items = []) (h : Balanced [] st) : Balanced [] (assignWorker k c st) := by
  unfold assignWorker destroyWorker
  split
  · next hw =>
    refine h.transfer rfl rfl rfl ?_
    simp only [heldObjects, WorkerTable.items_insert, hc, WorkerTable.erase_of_get?_none hw,
      List.toFinset_nil, Finset.empty_union]
  · next w hw =>
    refine dropRefs_balanced _ (h.transfer rfl rfl rfl ?_)
    rw [heldObjects, heldObjects, WorkerTable.items_insert, hc, WorkerTable.items_of_get? hw]
    simp only [List.append_nil, List.toFinset_append, Worker.items, List.toFinset_nil,
      Finset.empty_union, Finset.union_empty]
    ac_rfl

theorem complete_balanced {k : String} {id? : Option ItemID} {st st' : ItemDistributor}
    (h : Balanced [] st) (hc : complete deliverAll k id? st = .ok st') : Balanced [] st' := by
  obtain ⟨w, id, x, hw, -, hx, hwk, hl, -, hr, hs, -⟩ := complete_inv hc
  have h₀ : Balanced [x] { st with workers := st.workers.insert k (w.eraseOutstanding id) } :=
    h.transfer rfl rfl rfl (by
      simp only [heldObjects, WorkerTable.items_insert, WorkerTable.items_of_get? hw,
        ← eraseOutstanding_items hx, List.toFinset_nil, Finset.union_empty]
      ac_rfl)
  refine (dropRef_balanced h₀).transfer (by simp [hr])
    (transmitted_eq_of_sent (by rw [dropRef_sent]; exact hs) fun p hp _ he => by
      obtain ⟨y, -, rfl⟩ := List.mem_map.mp hp
      cases he) hl ?_
  simp only [heldObjects, hwk, dropRef_workers, WorkerTable.items_insert, handOff_items]

theorem worker_balanced {m : List String} {st st' : ItemDistributor} (h : Balanced [] st)
    (hw : onWorkerPollin deliverAll m st = .ok st') : Balanced [] st' := by
  obtain ⟨cmd, s₁, hcmd, h₁, rfl⟩ := onWorkerPollin_inv hw
  apply drain_balanced
  cases cmd with
  | disconnect i => cases h₁; exact eraseWorker_balanced h
  | register i c =>
    cases c with
    | none => cases h₁
    | some c =>
      cases h₁
      obtain ⟨hq, ho⟩ := decodeMessage_register hcmd
      exact assignWorker_balanced (by simp [Worker.items, hq, ho]) h
  | complete i id => exact complete_balanced h h₁
  | other => cases h₁; exact h

theorem tick_balanced {es : List (String × Worker)} {st st' : ItemDistributor}
    (h : Balanced [] st) (ht : sendHeartbeats deliverAll es st = .ok st') : Balanced [] st' := by
  obtain ⟨l, rfl, hl⟩ := sendHeartbeats_inv ht
  refine h.transfer rfl (transmitted_eq_of_sent rfl fun p hp id he => ?_) rfl rfl
  obtain ⟨i, hi⟩ := hl p hp
  rw [he] at hi
  cases hi

/-- The balance after every event of every run on a transport that delivers every message. -/
theorem reachable_balanced {st : ItemDistributor} (h : Reachable deliverAll st) :
    TableInv st.workers st.allocated ∧ Balanced [] st :=
  Reachable.induct (fun s => TableInv s.workers s.allocated ∧ Balanced [] s)
    ⟨TableInv.init, by simp [Balanced, heldObjects, ItemDistributor.init, transmitted,
      WorkerTable.empty, WorkerTable.items]⟩
    (fun ev s s' ⟨hinv, hb⟩ hs => ⟨handle_keeps hinv hs, by
      cases ev with
      | producer m => exact generator_balanced hinv hb hs
      | worker m => exact worker_balanced hb hs
      | tick => exact tick_balanced hb hs⟩) h

/-- Completion conservation: on a transport that delivers every message, after every event of
    every run the ledger is empty, and the IDs received from the producer are, as a multiset,
    the IDs transmitted to it plus one ID for each item object some worker queue still holds. -/
theorem completion_conservation {st : ItemDistributor} (h : Reachable deliverAll st) :
    st.completedItems = [] ∧
      (st.received : Multiset ItemID) = st.transmitted + (heldObjects st).val.map Item.id := by
  have hl := completedItems_eq_nil h
  have hb := (reachable_balanced h).2
  unfold Balanced at hb
  exact ⟨hl, by simpa [hl] using hb⟩

/-- A run in which the first of two items is completed. -/
def completionRun : List Event :=
  [.worker ["A", "", "", "REGISTER 1 0 Async w"], .producer ["10"], .producer ["11"],
    .worker ["A", "", "", "COMPLETE 10"]]

/-- The state `completionRun` ends in. -/
def completionState : ItemDistributor :=
  match run deliverAll completionRun init with
  | .ok st => st
  | .error _ => init

theorem completion_conservation_completionState :
    Reachable deliverAll completionState ∧ completionState.completedItems = [] ∧
      (completionState.received : Multiset ItemID) =
        completionState.transmitted + (heldObjects completionState).val.map Item.id :=
  have h : Reachable deliverAll completionState := ⟨completionRun, rfl⟩
  ⟨h, completion_conservation h⟩

example : completionState.transmitted = [10] ∧ completionState.workers.items.map (·.id) = [11] :=
  ⟨rfl, rfl⟩

/-- Two balanced states with the same IDs received and no ledger: what the second has
    transmitted more are the IDs of the objects it no longer holds. -/
theorem transmitted_of_balanced {s s' : ItemDistributor} (hb : Balanced [] s)
    (hb' : Balanced [] s') (hr : s'.received = s.received) (hl : s.completedItems = [])
    (hl' : s'.completedItems = []) (hsub : heldObjects s' ⊆ heldObjects s) :
    (s'.transmitted : Multiset ItemID) =
      s.transmitted + (heldObjects s \ heldObjects s').val.map Item.id := by
  unfold Balanced at hb hb'
  have hsplit : (heldObjects s).val =
      (heldObjects s').val + (heldObjects s \ heldObjects s').val := by
    conv_lhs => rw [← Finset.union_sdiff_of_subset hsub,
      ← Finset.disjUnion_eq_union _ _ Finset.disjoint_sdiff]
    rfl
  simp only [hl, hl', List.toFinset_nil, Finset.union_empty, Multiset.coe_nil, add_zero, hr,
    hsplit, Multiset.map_add] at hb hb'
  refine add_right_cancel (hb'.symm.trans (hb.trans ?_))
  rw [← add_assoc, add_right_comm]

end Flesnet
