import Flesnet.Conservation

/-! No item object goes out twice to one worker.

    The code sends a WORK_ITEM in two places: the fan-out sends the new object to an idle worker
    that takes it at once (lines 179-183), and COMPLETE sends the front of `waiting_items`
    (lines 239-244). Neither sends an object a second time to the same identity, on any
    transport. The fan-out offers only the object just made, whose serial no earlier send
    carries, and visits each key once. COMPLETE sends an object that was waiting, and nothing
    waiting at an identity has gone out to it. `Unsent` is this invariant; a send that throws
    changes nothing in it, so it holds whatever the transport does. Over every run,
    `work_item_at_most_once` follows. -/

namespace Flesnet
open ItemDistributor

/-- The WORK_ITEMs of a send log, as identity and object. -/
def dispatched (l : List (Outbound × SendResult)) : List (String × Item) :=
  l.filterMap fun
    | (.workItem k x, _) => some (k, x)
    | _ => none

@[simp] theorem dispatched_append (l l' : List (Outbound × SendResult)) :
    dispatched (l ++ l') = dispatched l ++ dispatched l' :=
  List.filterMap_append ..

@[simp] theorem dispatched_workItems (k : String) (ys : List Item) (r : SendResult) :
    dispatched (ys.map fun y => (.workItem k y, r)) = ys.map (k, ·) := by
  induction ys with
  | nil => rfl
  | cons y ys ih => simpa [dispatched] using ih

@[simp] theorem dispatched_workItem (k : String) (x : Item) (r : SendResult) :
    dispatched [(.workItem k x, r)] = [(k, x)] := rfl

theorem dispatched_eq_nil {l : List (Outbound × SendResult)}
    (h : ∀ p ∈ l, ∀ k x, p.1 ≠ .workItem k x) : dispatched l = [] :=
  List.filterMap_eq_nil_iff.mpr fun ⟨o, r⟩ hp => by
    cases o with
    | workItem k x => exact absurd rfl (h _ hp k x)
    | _ => rfl

theorem Worker.handOff_waitingItems (w : Worker) (id : ItemID) :
    (w.handOff id).waitingItems = w.waitingItems.tail := by
  unfold Worker.handOff Worker.sendNext Worker.eraseOutstanding
  split <;> simp_all

/-- What `offer` can leave waiting: what waited before, or the new object behind an
    outstanding one. -/
theorem mem_offer_waiting {w : Worker} {x y : Item} (h : y ∈ (w.offer x).waitingItems) :
    y ∈ w.waitingItems ∨ (y = x ∧ w.outstandingItems ≠ []) := by
  unfold Worker.offer Worker.enqueue Worker.clearPrebuffer at h
  split_ifs at h <;> simp_all

/-- The WORK_ITEMs sent so far are distinct and carry objects made before the next one, and
    nothing waiting at an identity has gone out to it. -/
structure Unsent (st : ItemDistributor) : Prop where
  nodup : (dispatched st.sent).Nodup
  old : ∀ p ∈ dispatched st.sent, p.2.serial < st.allocated
  waiting : ∀ e ∈ st.workers.entries, ∀ y ∈ e.2.waitingItems, (e.1, y) ∉ dispatched st.sent

namespace Unsent
variable {st st' : ItemDistributor} {k : String}

theorem init : Unsent init :=
  ⟨List.nodup_nil, nofun, by simp [ItemDistributor.init, WorkerTable.empty]⟩

/-- A step that adds no record and sends no WORK_ITEM. -/
theorem frame (h : Unsent st) (hw : ∀ e ∈ st'.workers.entries, e ∈ st.workers.entries)
    (ha : st.allocated ≤ st'.allocated) (hs : dispatched st'.sent = dispatched st.sent) :
    Unsent st' :=
  ⟨hs ▸ h.nodup, fun p hp => Nat.lt_of_lt_of_le (h.old p (hs ▸ hp)) ha,
    fun e he y hy => hs ▸ h.waiting e (hw e he) y hy⟩

theorem drain (h : Unsent st) (net : Transport) : Unsent (sendPendingCompletions net st) := by
  obtain ⟨l, hl, hc⟩ := sendPendingCompletions_sent net st
  have hd : dispatched l = [] := dispatched_eq_nil fun p hp k x hx => by
    obtain ⟨id, hid⟩ := hc p hp
    exact Outbound.noConfusion (hid.symm.trans hx)
  exact h.frame (fun e he => by rwa [sendPendingCompletions_workers] at he) (by simp)
    (by rw [hl, dispatched_append, hd, List.append_nil])

theorem dropRef (h : Unsent st) (p : List Item) (x : Item) : Unsent (Flesnet.dropRef p x st) :=
  h.frame (fun e he => by rwa [dropRef_workers] at he) (by simp) (by simp)

/-- The record under `k` is replaced by `w'`, and WORK_ITEMs for `l` go out to `k`: distinct
    objects made before, none sent to `k` already, and none of what waits in `w'`, which has
    not gone out to `k` either. -/
theorem insert (h : Unsent st) {w' : Worker} (l : List Item) (l' : List (Outbound × SendResult))
    (hw : st'.workers = st.workers.insert k w') (ha : st'.allocated = st.allocated)
    (hs : st'.sent = st.sent ++ l') (hl : dispatched l' = l.map (k, ·)) (hnd : l.Nodup)
    (hnew : ∀ y ∈ l, (k, y) ∉ dispatched st.sent ∧ y.serial < st.allocated)
    (hwait : ∀ y ∈ w'.waitingItems, (k, y) ∉ dispatched st.sent ∧ y ∉ l) : Unsent st' := by
  have hd : dispatched st'.sent = dispatched st.sent ++ l.map (k, ·) := by
    rw [hs, dispatched_append, hl]
  refine ⟨?_, fun p hp => ?_, fun e he y hy => ?_⟩
  · rw [hd]
    refine h.nodup.append (hnd.map fun _ _ => congrArg Prod.snd) fun p hp hp' => ?_
    obtain ⟨y, hy, rfl⟩ := List.mem_map.mp hp'
    exact (hnew y hy).1 hp
  · rw [ha]
    rcases List.mem_append.mp (hd ▸ hp) with hp | hp
    · exact h.old p hp
    · obtain ⟨y, hy, rfl⟩ := List.mem_map.mp hp
      exact (hnew y hy).2
  · rw [hw] at he
    rw [hd, List.mem_append, not_or, List.mem_map]
    rcases WorkerTable.mem_insert_ne he with rfl | ⟨hek, he⟩
    · exact ⟨(hwait y hy).1, fun ⟨z, hz, hzy⟩ => (hwait y hy).2 ((Prod.mk.inj hzy).2 ▸ hz)⟩
    · exact ⟨h.waiting e he y hy, fun ⟨_, _, hzy⟩ => hek (Prod.mk.inj hzy).1.symm⟩

end Unsent

section steps
variable {net : Transport} {x : Item} {st st' : ItemDistributor} {k : String}

/-- The loop body of the fan-out, for an object no record under `k` holds and that has not
    gone out to `k`. -/
theorem Unsent.distribute (h : Unsent st) (hx : x.serial < st.allocated)
    (hk : (k, x) ∉ dispatched st.sent) (hnot : ∀ w, st.workers.get? k = some w → x ∉ w.items)
    (hd : distribute net x st k = .ok st') : Unsent st' := by
  rcases distribute_inv hd with ⟨rfl, -⟩ | ⟨w, hw, -, hwk, -, hal, -, hs, -⟩
  · exact h
  have hxw : x ∉ w.waitingItems := fun hm => hnot w hw (List.mem_append_left _ hm)
  have hold := h.waiting (k, w) (WorkerTable.mem_of_get? hw)
  refine h.insert (if w.outstandingItems = [] then [x] else []) _ hwk hal hs
    (by split_ifs <;> rfl) (by split_ifs <;> simp) (fun y hy => ?_) fun y hy => ?_
  · split_ifs at hy
    · exact List.mem_singleton.mp hy ▸ ⟨hk, hx⟩
    · cases hy
  · rcases mem_offer_waiting hy with hy | ⟨rfl, hb⟩
    · have hyx : y ≠ x := fun h' => hxw (h' ▸ hy)
      exact ⟨hold y hy, by split_ifs <;> simp [hyx]⟩
    · exact ⟨hk, by simp [hb]⟩

/-- The fan-out over distinct keys, for an object that no record under them holds and that has
    gone out to none of them. -/
theorem Unsent.fanOut :
    ∀ (ks : List String) {st st' : ItemDistributor}, ks.Nodup → Unsent st →
      x.serial < st.allocated →
      (∀ k ∈ ks, (k, x) ∉ dispatched st.sent ∧ ∀ w, st.workers.get? k = some w → x ∉ w.items) →
      fanOut net x ks st = .ok st' → Unsent st'
  | [], _, _, _, h, _, _, hf => by cases hf; exact h
  | k :: ks, st, st', hnd, h, hx, hks, hf => by
    obtain ⟨s, hs, hf⟩ := bind_eq_ok.mp hf
    rw [List.nodup_cons] at hnd
    obtain ⟨hk, hnot⟩ := hks k (List.mem_cons_self _ _)
    have hrest : x.serial < s.allocated ∧ ∀ k' ∈ ks, (k', x) ∉ dispatched s.sent ∧
        ∀ w, s.workers.get? k' = some w → x ∉ w.items := by
      rcases distribute_inv hs with ⟨rfl, -⟩ | ⟨w, -, -, hwk, -, hal, -, hsent, -⟩
      · exact ⟨hx, fun k' hk' => hks k' (.tail _ hk')⟩
      refine ⟨hal ▸ hx, fun k' hk' => ?_⟩
      have hne : k' ≠ k := fun h' => hnd.1 (h' ▸ hk')
      obtain ⟨h₁, h₂⟩ := hks k' (.tail _ hk')
      refine ⟨?_, by rw [hwk, WorkerTable.get?_insert, if_neg hne]; exact h₂⟩
      rw [hsent]
      split_ifs <;> simp [h₁, hne]
    exact Unsent.fanOut ks hnd.2 (h.distribute hx hk hnot hs) hrest.1 hrest.2 hf

theorem Unsent.generator (h : Unsent st) (hinv : TableInv st.workers st.allocated)
    {m : List String} (hg : onGeneratorPollin net m st = .ok st') : Unsent st' := by
  obtain ⟨x, s₁, s₂, h₁, h₂, rfl⟩ := onGeneratorPollin_inv hg
  obtain ⟨_, _, -, -, hx, rfl⟩ := receiveProducerItem_inv h₁
  have hxs : x.serial = st.allocated := by rw [hx]
  have h₁ : Unsent { st with allocated := st.allocated + 1, received := st.received ++ [x.id] } :=
    h.frame (fun _ he => he) (Nat.le_succ _) rfl
  have hfan := Unsent.fanOut _ (WorkerTable.keys_nodup _) h₁ (Nat.lt_succ_of_le hxs.le)
    (fun k _ => ⟨fun hm => Nat.lt_irrefl x.serial (hxs ▸ h.old _ hm),
      fun w hw hm => Nat.lt_irrefl x.serial (hxs ▸ (hinv.get hw).2 x hm)⟩) h₂
  exact (hfan.dropRef [] x).drain net

/-- COMPLETE sends the front of `waiting_items`, which waited and so has not gone out. -/
theorem Unsent.complete (h : Unsent st) (hinv : TableInv st.workers st.allocated)
    {id? : Option ItemID} (hc : complete net k id? st = .ok st') : Unsent st' := by
  obtain ⟨w, id, -, hw, -, -, hwk, -, hal, -, hs, -⟩ := complete_inv hc
  obtain ⟨hq, hf⟩ := hinv.get hw
  have hold := h.waiting (k, w) (WorkerTable.mem_of_get? hw)
  have hnd : w.waitingItems.Nodup := hq.nodup.sublist (List.sublist_append_left _ _)
  refine h.insert (w.waitingItems.take 1) _ hwk hal hs (dispatched_workItems ..)
    (hnd.sublist (List.take_sublist _ _)) (fun y hy => ?_) fun y hy => ?_
  · have hy := List.mem_of_mem_take hy
    exact ⟨hold y hy, hf y (List.mem_append_left _ hy)⟩
  · rw [Worker.handOff_waitingItems] at hy
    refine ⟨hold y (List.mem_of_mem_tail hy), fun hy' => ?_⟩
    cases hq' : w.waitingItems with
    | nil => simp [hq'] at hy
    | cons z rest =>
      rw [hq'] at hy hy' hnd
      rw [List.take_one, List.head?_cons, Option.toList_some, List.mem_singleton] at hy'
      exact (List.nodup_cons.mp hnd).1 (hy' ▸ hy)

theorem Unsent.worker (h : Unsent st) (hinv : TableInv st.workers st.allocated)
    {m : List String} (hw : onWorkerPollin net m st = .ok st') : Unsent st' := by
  obtain ⟨cmd, s₁, hcmd, h₁, rfl⟩ := onWorkerPollin_inv hw
  refine Unsent.drain ?_ net
  match cmd, h₁ with
  | .disconnect k, h₁ =>
    cases h₁
    exact h.frame (fun e he => WorkerTable.mem_erase (by rwa [eraseWorker_workers] at he))
      (by simp) (by simp)
  | .register k (some c), h₁ =>
    cases h₁
    have hc := (decodeMessage_register hcmd).1
    exact h.insert [] [] (assignWorker_workers k c st) (by simp) (by simp) rfl List.nodup_nil
      nofun fun y hy => by simp [hc] at hy
  | .complete k id?, h₁ => exact h.complete hinv h₁
  | .other, h₁ => cases h₁; exact h

end steps

theorem Unsent.handle {net : Transport} {ev : Event} {st st' : ItemDistributor} (h : Unsent st)
    (hinv : TableInv st.workers st.allocated) (he : handle net ev st = .ok st') : Unsent st' := by
  cases ev with
  | producer m => exact h.generator hinv he
  | worker m => exact h.worker hinv he
  | tick =>
    obtain ⟨l, rfl, hl⟩ := sendHeartbeats_inv he
    have hd : dispatched l = [] := dispatched_eq_nil fun p hp k x hx => by
      obtain ⟨i, hi⟩ := hl p hp
      exact Outbound.noConfusion (hi.symm.trans hx)
    exact h.frame (fun _ he => he) le_rfl (by rw [dispatched_append, hd, List.append_nil])

/-- On every transport, in every reachable state, no item object has gone out twice in a
    WORK_ITEM to the same identity: a failed send is never repeated, and an object
    is offered to a record only once. -/
theorem work_item_at_most_once {net : Transport} {st : ItemDistributor} (h : Reachable net st) :
    (dispatched st.sent).Nodup :=
  (Reachable.induct (fun s => Unsent s ∧ TableInv s.workers s.allocated)
    ⟨Unsent.init, TableInv.init⟩
    (fun _ _ _ hp hs => ⟨hp.1.handle hp.2 hs, handle_keeps hp.2 hs⟩) h).1.nodup

theorem work_item_at_most_once_completionState :
    Reachable deliverAll completionState ∧ (dispatched completionState.sent).Nodup :=
  have h : Reachable deliverAll completionState := ⟨completionRun, rfl⟩
  ⟨h, work_item_at_most_once h⟩

/-- Item 10 goes out, item 11 waits behind it and goes out on COMPLETE 10. -/
example : (dispatched completionState.sent).map (·.2.id) = [10, 11] := rfl

end Flesnet
