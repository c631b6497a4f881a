import Flesnet.Steps

/-! The per-worker queue invariant.

    Every record of every reachable state has at most one outstanding item, has nothing
    waiting while it is idle, keeps at most one prebuffered item under PrebufferOne and none
    under Skip, holds only items that match its stride/offset predicate, and holds no item
    object twice. The record steps `offer` and `handOff` keep this shape (`QueueInv.offer`,
    `QueueInv.handOff`); the fan-out keeps it because each record is visited once, before
    the new object can be in it (`fanOut_keeps`). -/

namespace Flesnet
open ItemDistributor

/-- The queue shape of a worker record, items (a) to (d) of the invariant. -/
structure QueueShape (w : Worker) : Prop where
  outstanding_le_one : w.outstandingItems.length ≤ 1
  busy_of_waiting : w.waitingItems ≠ [] → w.outstandingItems ≠ []
  prebuffer_le_one : w.queuePolicy = .prebufferOne → w.waitingItems.length ≤ 1
  skip_no_waiting : w.queuePolicy = .skip → w.waitingItems = []

/-- The invariant every worker record keeps: its shape, (e) every held object matches the
    predicate, and (f) no object is held twice. -/
structure QueueInv (w : Worker) extends QueueShape w : Prop where
  matches_predicate : ∀ y ∈ w.items, y.id % w.stride = w.offset
  nodup : w.items.Nodup

theorem wantsItem_eq_ok_true {w : Worker} {id : ItemID} :
    w.wantsItem id = .ok true ↔ w.stride ≠ 0 ∧ id % w.stride = w.offset := by
  unfold Worker.wantsItem; split_ifs with h <;> simp [h]

theorem mem_offer_items {w : Worker} {x y : Item} (h : y ∈ (w.offer x).items) :
    y ∈ w.items ∨ y = x := by
  unfold Worker.offer Worker.enqueue Worker.clearPrebuffer at h
  split_ifs at h <;> simp_all [Worker.items] <;> tauto

theorem sendNext_items_perm (w : Worker) : w.sendNext.items.Perm w.items := by
  unfold Worker.sendNext
  split
  · rfl
  · next y rest hq =>
    simp only [Worker.items, hq]
    exact ((List.perm_append_comm.append_left rest).trans List.perm_middle)

theorem mem_handOff_items {w : Worker} {id : ItemID} {y : Item} (h : y ∈ (w.handOff id).items) :
    y ∈ w.items := by
  have h' := (sendNext_items_perm _).subset h
  simp only [Worker.items, Worker.eraseOutstanding, List.mem_append] at h' ⊢
  exact h'.imp_right List.mem_of_mem_eraseP

namespace QueueShape
variable {w : Worker}

theorem of_empty (hq : w.waitingItems = []) (ho : w.outstandingItems = []) : QueueShape w :=
  ⟨by simp [ho], by simp [ho, hq], by simp [hq], fun _ => hq⟩

theorem waiting_of_idle (h : QueueShape w) (ho : w.outstandingItems = []) : w.waitingItems = [] :=
  by_contra fun hq => h.busy_of_waiting hq ho

theorem offer (h : QueueShape w) (x : Item) : QueueShape (w.offer x) := by
  by_cases ho : w.outstandingItems = []
  · rw [Worker.offer_of_idle ho (h.waiting_of_idle ho)]
    exact ⟨by simp, by simp, by simp [h.waiting_of_idle ho], fun _ => h.waiting_of_idle ho⟩
  · rw [Worker.offer_of_busy ho]
    refine ⟨h.outstanding_le_one, fun _ => ho, fun hp => ?_, fun hp => ?_⟩ <;>
      simp only at hp ⊢ <;> rw [hp]
    · simp [WorkerQueuePolicy.hold]
    · exact h.skip_no_waiting hp

/-- An accepted COMPLETE: the one outstanding item goes, and the front waiting item, if any,
    takes its place. -/
theorem handOff {id : ItemID} {x : Item} (h : QueueShape w)
    (hx : w.outstandingItems.find? (·.id == id) = some x) : QueueShape (w.handOff id) := by
  rw [Worker.handOff, Worker.eraseOutstanding_of_find h.outstanding_le_one hx, Worker.sendNext]
  cases hq : w.waitingItems with
  | nil => exact .of_empty rfl rfl
  | cons y ys =>
    show QueueShape { w with waitingItems := ys, outstandingItems := [y] }
    refine ⟨by simp, by simp, fun hp => ?_, fun hp => absurd (h.skip_no_waiting hp) (by simp [hq])⟩
    have := h.prebuffer_le_one hp
    simp only [hq, List.length_cons] at this ⊢
    omega

end QueueShape

namespace QueueInv
variable {w : Worker}

theorem of_empty (hq : w.waitingItems = []) (ho : w.outstandingItems = []) : QueueInv w :=
  ⟨.of_empty hq ho, by simp [Worker.items, hq, ho], by simp [Worker.items, hq, ho]⟩

/-- Offering a new matching object keeps the invariant. -/
theorem offer {x : Item} (h : QueueInv w) (hx : x.id % w.stride = w.offset)
    (hfresh : x ∉ w.items) : QueueInv (w.offer x) := by
  refine ⟨h.toQueueShape.offer x, fun y hy => ?_, ?_⟩
  · rcases mem_offer_items hy with hy | rfl
    · simpa using h.matches_predicate y hy
    · simpa using hx
  have hnd := h.nodup
  simp only [Worker.items, List.mem_append, not_or] at hfresh hnd
  by_cases ho : w.outstandingItems = []
  · simp [Worker.offer_of_idle ho (h.waiting_of_idle ho), Worker.items, h.waiting_of_idle ho]
  rw [Worker.offer_of_busy ho, Worker.items]
  cases hp : w.queuePolicy with
  | async =>
    rw [WorkerQueuePolicy.hold, List.append_assoc]
    exact List.nodup_middle.mpr (List.Nodup.cons (by simp [hfresh.1, hfresh.2]) hnd)
  | prebufferOne => simpa [WorkerQueuePolicy.hold, hfresh.2] using (List.nodup_append.mp hnd).2.1
  | skip => exact hnd

/-- An accepted COMPLETE keeps the invariant. -/
theorem handOff {id : ItemID} {x : Item} (h : QueueInv w)
    (hx : w.outstandingItems.find? (·.id == id) = some x) : QueueInv (w.handOff id) :=
  ⟨h.toQueueShape.handOff hx, fun y hy => by simpa using h.matches_predicate y (mem_handOff_items hy),
    (sendNext_items_perm _).nodup_iff.mpr
      (h.nodup.sublist ((List.eraseP_sublist _).append_left _))⟩

end QueueInv

/-! ### The table -/

/-- Every record has the queue shape, and holds only objects older than `n`, the number of
    objects made so far. -/
structure TableInv (t : WorkerTable) (n : Nat) : Prop where
  records : ∀ e ∈ t.entries, QueueInv e.2
  fresh : ∀ y ∈ t.items, y.serial < n

namespace TableInv
variable {t : WorkerTable} {n : Nat} {k : String} {w : Worker}

theorem get (h : TableInv t n) (hk : t.get? k = some w) :
    QueueInv w ∧ ∀ y ∈ w.items, y.serial < n :=
  ⟨h.records _ (WorkerTable.mem_of_get? hk),
    fun y hy => h.fresh y (WorkerTable.mem_items.mpr ⟨_, WorkerTable.mem_of_get? hk, hy⟩)⟩

theorem insert (h : TableInv t n) (hw : QueueInv w) (hf : ∀ y ∈ w.items, y.serial < n) :
    TableInv (t.insert k w) n :=
  ⟨fun e he => (WorkerTable.mem_insert he).elim (fun h' => h' ▸ hw) (h.records e),
    fun y hy => (WorkerTable.mem_items_insert hy).elim (hf y) (h.fresh y)⟩

theorem erase (h : TableInv t n) : TableInv (t.erase k) n :=
  ⟨fun e he => h.records e (WorkerTable.mem_erase he),
    fun y hy => h.fresh y (WorkerTable.mem_items_erase hy)⟩

end TableInv

/-- The fan-out visits each key once, and a record not yet visited cannot hold the new object,
    so every `offer` meets a record without it. -/
theorem fanOut_keeps {net : Transport} {x : Item} :
    ∀ (ks : List String) (st st' : ItemDistributor), ks.Nodup →
      (∀ k ∈ ks, ∀ w, st.workers.get? k = some w → x ∉ w.items) → x.serial < st.allocated →
      TableInv st.workers st.allocated → fanOut net x ks st = .ok st' →
      TableInv st'.workers st'.allocated
  | [], _, _, _, _, _, hinv, h => by cases h; exact hinv
  | k :: ks, st, st', hnd, hnot, hx, hinv, h => by
    obtain ⟨s, hs, hrest⟩ := bind_eq_ok.mp h
    rw [List.nodup_cons] at hnd
    rcases distribute_inv hs with ⟨rfl, -⟩ | ⟨w, hw, hwant, hwk, -, hal, -⟩
    · exact fanOut_keeps ks _ st' hnd.2 (fun k' hk' => hnot k' (.tail _ hk')) hx hinv hrest
    · obtain ⟨hq, hf⟩ := hinv.get hw
      have hnew : TableInv s.workers s.allocated := by
        rw [hwk, hal]
        refine hinv.insert (hq.offer (wantsItem_eq_ok_true.mp hwant).2 (hnot k (.head _) w hw))
          fun y hy => (mem_offer_items hy).elim (hf y) (fun h' => h' ▸ hx)
      refine fanOut_keeps ks s st' hnd.2 (fun k' hk' w' hw' => ?_) (hal ▸ hx) hnew hrest
      have hne : k' ≠ k := fun h' => hnd.1 (h' ▸ hk')
      rw [hwk, WorkerTable.get?_insert, if_neg hne] at hw'
      exact hnot k' (.tail _ hk') w' hw'

theorem fanOut_allocated {net : Transport} {x : Item} {ks : List String}
    {st st' : ItemDistributor} (h : fanOut net x ks st = .ok st') : st'.allocated = st.allocated :=
  fanOut_induct (fun s => s.allocated = st.allocated) (fun _ _ _ hp hs => by
    rcases distribute_inv hs with ⟨rfl, -⟩ | ⟨_, _, _, _, _, hal, _⟩
    · exact hp
    · exact hal.trans hp) ks st st' rfl h

section handlers
variable {net : Transport} {m : List String} {st st' : ItemDistributor}

theorem generator_keeps (hinv : TableInv st.workers st.allocated)
    (h : onGeneratorPollin net m st = .ok st') : TableInv st'.workers st'.allocated := by
  obtain ⟨x, s₁, s₂, h₁, h₂, rfl⟩ := onGeneratorPollin_inv h
  obtain ⟨_, _, -, -, hx, hs₁⟩ := receiveProducerItem_inv h₁
  have hxs : x.serial = st.allocated := by rw [hx]
  have hw₁ : s₁.workers = st.workers := by rw [hs₁]
  have ha₁ : s₁.allocated = st.allocated + 1 := by rw [hs₁]
  have hnot : ∀ k ∈ s₁.workers.keys, ∀ w, s₁.workers.get? k = some w → x ∉ w.items :=
    fun _ _ w hw hmem => by rw [hw₁] at hw; have := (hinv.get hw).2 x hmem; omega
  simpa using fanOut_keeps _ s₁ s₂ (WorkerTable.keys_nodup _) hnot (by omega)
    ⟨hw₁ ▸ hinv.records, fun y hy => by rw [hw₁] at hy; have := hinv.fresh y hy; omega⟩ h₂

theorem worker_keeps (hinv : TableInv st.workers st.allocated)
    (h : onWorkerPollin net m st = .ok st') : TableInv st'.workers st'.allocated := by
  obtain ⟨cmd, s₁, hcmd, h₁, rfl⟩ := onWorkerPollin_inv h
  simp only [sendPendingCompletions_workers, sendPendingCompletions_allocated]
  cases cmd with
  | disconnect i =>
    cases h₁
    simpa using hinv.erase
  | register i c =>
    cases c with
    | none => cases h₁
    | some c =>
      cases h₁
      obtain ⟨hq, ho⟩ := decodeMessage_register hcmd
      simpa using hinv.insert (.of_empty hq ho) (by simp [Worker.items, hq, ho])
  | complete i id =>
    obtain ⟨w, id, x, hw, -, hx, hwk, -, hal, -⟩ := complete_inv h₁
    obtain ⟨hq, hf⟩ := hinv.get hw
    rw [hwk, hal]
    exact hinv.insert (hq.handOff hx) fun y hy => hf y (mem_handOff_items hy)
  | other =>
    cases h₁
    exact hinv

end handlers

/-- Every handler keeps the table's shape. -/
theorem handle_keeps {net : Transport} {ev : Event} {st st' : ItemDistributor}
    (hinv : TableInv st.workers st.allocated) (h : handle net ev st = .ok st') :
    TableInv st'.workers st'.allocated := by
  cases ev with
  | producer m => exact generator_keeps hinv h
  | worker m => exact worker_keeps hinv h
  | tick =>
    obtain ⟨l, rfl, -⟩ := sendHeartbeats_inv h
    exact hinv

theorem TableInv.init : TableInv init.workers init.allocated :=
  ⟨by simp [ItemDistributor.init, WorkerTable.empty],
    by simp [ItemDistributor.init, WorkerTable.empty, WorkerTable.items]⟩

theorem TableInv.of_reachable {net : Transport} {st : ItemDistributor} (h : Reachable net st) :
    TableInv st.workers st.allocated :=
  Reachable.induct (fun st => TableInv st.workers st.allocated) TableInv.init
    (fun _ _ _ hp hs => handle_keeps hp hs) h

/-- Per-worker queue invariant: in every reachable state, on every transport, every record has
    at most one outstanding item, nothing waiting while idle, at most one prebuffered item
    under PrebufferOne and none under Skip, only items matching its predicate, and no object
    twice. -/
theorem queue_invariant {net : Transport} {st : ItemDistributor} (h : Reachable net st) :
    ∀ e ∈ st.workers.entries, QueueInv e.2 :=
  (TableInv.of_reachable h).records

/-- A PrebufferOne worker registers and three items arrive while the first is in flight. -/
def prebufferRun : List Event :=
  [.worker ["A", "", "", "REGISTER 1 0 PrebufferOne w"], .producer ["10"], .producer ["11"],
    .producer ["12"]]

/-- The state `prebufferRun` ends in. -/
def prebufferState : ItemDistributor :=
  match run deliverAll prebufferRun init with
  | .ok st => st
  | .error _ => init

theorem queue_invariant_prebufferState :
    Reachable deliverAll prebufferState ∧ ∀ e ∈ prebufferState.workers.entries, QueueInv e.2 :=
  have h : Reachable deliverAll prebufferState := ⟨prebufferRun, rfl⟩
  ⟨h, queue_invariant h⟩

end Flesnet
