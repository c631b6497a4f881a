import Flesnet.Lifecycle

/-! Item provenance.

    The broker forwards what the producer sends and makes nothing up. `receive_producer_item`
    (lines 154-167) makes one `Item` object of each producer message: the ID is the first frame
    through `std::stoull`, the payload the second frame, or empty. Its serial is the number of
    objects made before it, so the `n`-th object comes from the `n`-th producer message of the
    run (`MadeFrom`). No handler makes an object any other way: the fan-out offers only the
    object just made, and a worker message only erases records, installs an empty one, or moves
    an object from `waiting_items` to `outstanding_items` (`onWorkerPollin_items`). So in every
    run every object a queue holds, and every object a WORK_ITEM went out for, is one the
    producer announced (`Provenance.of_run`), and the WORK_ITEM frames of `send_work_item`
    (lines 250-265) carry its ID and payload (`work_item_provenance`). -/

namespace Flesnet
open ItemDistributor

/-- The producer messages among some events, in the order the broker reads them. -/
def producerMessages : List Event → List (List String)
  | [] => []
  | .producer m :: evs => m :: producerMessages evs
  | _ :: evs => producerMessages evs

theorem producerMessages_cons (ev : Event) (evs : List Event) :
    producerMessages (ev :: evs) = producerMessages [ev] ++ producerMessages evs := by
  cases ev <;> rfl

/-- The object `receive_producer_item` makes of the producer message `m` as the `n`-th object
    of the run; it depends on nothing else of the state. -/
def producerItem (n : Nat) (m : List String) : Option Item :=
  (receiveProducerItem m { init with allocated := n }).toOption.map Prod.fst

theorem producerItem_cons {frame : String} {id : ItemID} (h : stoull frame = .ok id) (n : Nat)
    (rest : List String) : producerItem n (frame :: rest) = some ⟨n, id, rest.headD ""⟩ := by
  simp [producerItem, receiveProducerItem, h, bind, Except.bind, pure, Except.pure,
    Except.toOption]

theorem producerItem_eq_some {n : Nat} {m : List String} {x : Item}
    (h : producerItem n m = some x) :
    ∃ frame rest, m = frame :: rest ∧ stoull frame = .ok x.id ∧ x = ⟨n, x.id, rest.headD ""⟩ := by
  obtain ⟨⟨y, s⟩, hy, rfl⟩ := Option.map_eq_some'.mp h
  cases hr : receiveProducerItem m { init with allocated := n } with
  | error e => rw [hr] at hy; cases hy
  | ok r =>
    rw [hr] at hy
    cases hy
    obtain ⟨frame, rest, hm, hid, hx, -⟩ := receiveProducerItem_inv hr
    exact ⟨frame, rest, hm, hid, hx⟩

/-- `x` is the object made of the `x.serial`-th of the producer messages `msgs`. -/
def MadeFrom (msgs : List (List String)) (x : Item) : Prop :=
  msgs[x.serial]?.bind (producerItem x.serial) = some x

instance (msgs : List (List String)) (x : Item) : Decidable (MadeFrom msgs x) :=
  inferInstanceAs (Decidable (_ = _))

theorem MadeFrom.append {msgs : List (List String)} {x : Item} (h : MadeFrom msgs x)
    (l : List (List String)) : MadeFrom (msgs ++ l) x := by
  unfold MadeFrom at *
  cases hm : msgs[x.serial]? with
  | none => rw [hm] at h; cases h
  | some m =>
    rw [List.getElem?_append_left (List.getElem?_eq_some_iff.mp hm).1, hm]
    rwa [hm] at h

theorem MadeFrom.of_receive {msgs : List (List String)} {m : List String} {st s₁ : ItemDistributor}
    {x : Item} (h : receiveProducerItem m st = .ok (x, s₁)) (hn : st.allocated = msgs.length) :
    MadeFrom (msgs ++ [m]) x := by
  obtain ⟨frame, rest, rfl, hid, hx, -⟩ := receiveProducerItem_inv h
  have hs : x.serial = msgs.length := by rw [hx]; exact hn
  rw [MadeFrom, hs, List.getElem?_append_right le_rfl, Nat.sub_self]
  rw [hx, hn]
  simp [producerItem_cons hid]

/-! ### Where the objects of the table come from -/

section items
variable {net : Transport} {s s' : ItemDistributor}

theorem distribute_items {x : Item} {k : String} (h : distribute net x s k = .ok s') :
    ∀ y ∈ s'.workers.items, y ∈ s.workers.items ∨ y = x := by
  rcases distribute_inv h with ⟨rfl, -⟩ | ⟨w, hw, -, hwk, -⟩
  · exact fun y hy => .inl hy
  intro y hy
  rw [hwk] at hy
  rcases WorkerTable.mem_items_insert hy with hy | hy
  · exact (mem_offer_items hy).imp_left
      fun hy => WorkerTable.mem_items.mpr ⟨_, WorkerTable.mem_of_get? hw, hy⟩
  · exact .inl hy

theorem fanOut_items {x : Item} {ks : List String} (h : fanOut net x ks s = .ok s') :
    ∀ y ∈ s'.workers.items, y ∈ s.workers.items ∨ y = x :=
  fanOut_induct (fun s₁ => ∀ y ∈ s₁.workers.items, y ∈ s.workers.items ∨ y = x)
    (fun _ _ _ hp hd y hy => (distribute_items hd y hy).elim (hp y) .inr) _ _ _
    (fun _ hy => .inl hy) h

/-- A worker message adds no object to the table. -/
theorem onWorkerPollin_items {m : List String} (h : onWorkerPollin net m s = .ok s') :
    ∀ y ∈ s'.workers.items, y ∈ s.workers.items := by
  obtain ⟨cmd, s₁, hcmd, h₁, rfl⟩ := onWorkerPollin_inv h
  intro y hy
  rw [sendPendingCompletions_workers] at hy
  cases cmd with
  | disconnect i => cases h₁; exact WorkerTable.mem_items_erase (by simpa using hy)
  | register i c =>
    cases c with
    | none => cases h₁
    | some c =>
      cases h₁
      obtain ⟨hq, ho⟩ := decodeMessage_register hcmd
      rw [assignWorker_workers] at hy
      exact (WorkerTable.mem_items_insert hy).resolve_left (by simp [Worker.items, hq, ho])
  | complete i n =>
    obtain ⟨w, _, _, hw, -, -, hwk, -⟩ := complete_inv h₁
    rw [hwk] at hy
    exact (WorkerTable.mem_items_insert hy).elim
      (fun hy => WorkerTable.mem_items.mpr ⟨_, WorkerTable.mem_of_get? hw, mem_handOff_items hy⟩) id
  | other => cases h₁; exact hy

/-- A worker message makes no object. -/
theorem onWorkerPollin_allocated {m : List String} (h : onWorkerPollin net m s = .ok s') :
    s'.allocated = s.allocated := by
  obtain ⟨cmd, s₁, -, h₁, rfl⟩ := onWorkerPollin_inv h
  rw [sendPendingCompletions_allocated]
  cases cmd with
  | disconnect i => cases h₁; exact eraseWorker_allocated i s
  | register i c =>
    cases c with
    | none => cases h₁
    | some c => cases h₁; exact assignWorker_allocated i c s
  | complete i n =>
    obtain ⟨-, _, -, -, -, -, -, -, ha, -⟩ := complete_inv h₁
    exact ha
  | other => cases h₁; rfl

end items

/-! ### The invariant -/

/-- One object made per producer message read, and every object in a worker queue or in a
    WORK_ITEM sent is the object made of a producer message. -/
structure Provenance (msgs : List (List String)) (st : ItemDistributor) : Prop where
  allocated : st.allocated = msgs.length
  items : ∀ x ∈ st.workers.items, MadeFrom msgs x
  workItems : ∀ p ∈ st.sent, ∀ k x, p.1 = .workItem k x → MadeFrom msgs x

namespace Provenance
variable {net : Transport} {msgs : List (List String)} {s s' : ItemDistributor}

theorem init : Provenance [] init :=
  ⟨rfl, by simp [ItemDistributor.init, WorkerTable.empty, WorkerTable.items],
    by simp [ItemDistributor.init]⟩

/-- An event keeps the invariant once its objects are accounted for: a WORK_ITEM it sends is
    for an object its end state holds. -/
theorem of_items {ev : Event} {l : List (List String)} (hp : Provenance msgs s)
    (h : handle net ev s = .ok s') (ha : s'.allocated = (msgs ++ l).length)
    (hi : ∀ x ∈ s'.workers.items, MadeFrom (msgs ++ l) x) : Provenance (msgs ++ l) s' := by
  obtain ⟨l', hl', hw⟩ := handle_workOutstanding h
  refine ⟨ha, hi, fun p hmem k x hpx => ?_⟩
  rw [hl'] at hmem
  rcases List.mem_append.mp hmem with hmem | hmem
  · exact (hp.workItems p hmem k x hpx).append l
  · obtain ⟨w, hwk, hx⟩ := hw p hmem k x hpx
    exact hi x (WorkerTable.mem_items.mpr
      ⟨_, WorkerTable.mem_of_get? hwk, List.mem_append_right _ hx⟩)

theorem handle {ev : Event} (hp : Provenance msgs s) (h : handle net ev s = .ok s') :
    Provenance (msgs ++ producerMessages [ev]) s' := by
  cases ev with
  | producer m =>
    obtain ⟨x, s₁, s₂, h₁, h₂, rfl⟩ := onGeneratorPollin_inv h
    obtain ⟨_, _, -, -, -, rfl⟩ := receiveProducerItem_inv h₁
    refine hp.of_items h ?_ fun y hy => ?_
    · simp [fanOut_allocated h₂, hp.allocated, producerMessages]
    · rw [sendPendingCompletions_workers, dropRef_workers] at hy
      exact (fanOut_items h₂ y hy).elim (fun hy => (hp.items y hy).append _)
        fun hy => hy ▸ MadeFrom.of_receive h₁ hp.allocated
  | worker m =>
    exact hp.of_items h (by simpa [producerMessages] using
      (onWorkerPollin_allocated h).trans hp.allocated)
      fun y hy => by simpa [producerMessages] using hp.items y (onWorkerPollin_items h y hy)
  | tick =>
    obtain ⟨l, rfl, -⟩ := sendHeartbeats_inv h
    exact hp.of_items h (by simpa [producerMessages] using hp.allocated)
      (by simpa [producerMessages] using hp.items)

theorem of_run : ∀ (evs : List Event) {msgs : List (List String)} {s s' : ItemDistributor},
    Provenance msgs s → Flesnet.run net evs s = .ok s' →
      Provenance (msgs ++ producerMessages evs) s'
  | [], _, _, _, hp, h => by cases h; simpa [producerMessages] using hp
  | ev :: evs, _, _, _, hp, h => by
    obtain ⟨s₁, h₁, h⟩ := bind_eq_ok.mp h
    rw [producerMessages_cons, ← List.append_assoc]
    exact of_run evs (hp.handle h₁) h

end Provenance

/-- What an object made of a producer message carries: the ID its first frame gives through
    `std::stoull` and its second frame, or the empty payload. -/
theorem MadeFrom.frames {msgs : List (List String)} {x : Item} (h : MadeFrom msgs x) :
    ∃ frame rest, msgs[x.serial]? = some (frame :: rest) ∧ stoull frame = .ok x.id ∧
      x.payload = rest.headD "" := by
  unfold MadeFrom at h
  cases hm : msgs[x.serial]? with
  | none => rw [hm] at h; cases h
  | some m =>
    rw [hm] at h
    obtain ⟨frame, rest, rfl, hid, hx⟩ := producerItem_eq_some h
    exact ⟨frame, rest, rfl, hid, by rw [hx]⟩

/-- Item provenance: in every run from the constructor, on every transport, every WORK_ITEM the
    broker hands a worker socket is for the object made of the `x.serial`-th producer message
    of the run, and its frames carry, after the identity and the empty delimiter, the ID the
    producer wrote as `std::stoull` read it, then the producer's payload frame when it is not
    empty. -/
theorem work_item_provenance {net : Transport} {evs : List Event} {st : ItemDistributor}
    (h : run net evs init = .ok st) :
    ∀ p ∈ st.sent, ∀ k x, p.1 = .workItem k x →
      ∃ frame rest, (producerMessages evs)[x.serial]? = some (frame :: rest) ∧
        stoull frame = .ok x.id ∧
        p.1.frames = [k, "", "WORK_ITEM " ++ toString x.id] ++
          (if (rest.headD "").isEmpty then [] else [rest.headD ""]) := by
  intro p hp k x hpx
  obtain ⟨frame, rest, hm, hid, hx⟩ :=
    ((Provenance.init.of_run evs h).workItems p hp k x hpx).frames
  exact ⟨frame, rest, by simpa using hm, hid, by rw [hpx, Outbound.frames, hx]⟩

/-- A worker registers, then the producer sends item 10 with a payload. -/
def payloadRun : List Event := registerRun ++ [.producer ["10", "abc"]]

/-- The state `payloadRun` ends in. -/
def payloadState : ItemDistributor :=
  match run deliverAll payloadRun init with
  | .ok st => st
  | .error _ => init

theorem work_item_provenance_payloadState :
    run deliverAll payloadRun init = .ok payloadState ∧
      ∀ p ∈ payloadState.sent, ∀ k x, p.1 = .workItem k x →
        ∃ frame rest, (producerMessages payloadRun)[x.serial]? = some (frame :: rest) ∧
          stoull frame = .ok x.id ∧
          p.1.frames = [k, "", "WORK_ITEM " ++ toString x.id] ++
            (if (rest.headD "").isEmpty then [] else [rest.headD ""]) :=
  have h : run deliverAll payloadRun init = .ok payloadState := rfl
  ⟨h, work_item_provenance h⟩

example : payloadState.sent.map (·.1.frames) = [["", "", "WORK_ITEM 10", "abc"]] := rfl

end Flesnet
