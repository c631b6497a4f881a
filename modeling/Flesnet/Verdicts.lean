import Flesnet.Sockets

/-! What the network does reaches only the send log.

    On the real worker socket every WORK_ITEM and every HEARTBEAT goes to the empty identity and
    throws, whatever the network would have done with it (`Sockets`). The only sends the network
    decides are the completions of `send_pending_completions` (lines 143-152), and there a send
    that throws only ends the loop, whose ledger is cleared anyway. Nothing else reads a verdict.
    So for any two networks under the real sockets, every run from the constructor faults with
    the same fault on both, or ends on both in states that differ only in their send logs
    (`verdicts_forgotten`): the network decides which completions reach the producer, and
    nothing about the worker table, the ledger or the IDs received.

    The two runs are compared handler by handler, from two states that differ only in their
    send logs: each lemma below commutes a handler with the replacement of the log. -/

namespace Flesnet
open ItemDistributor

/-- The state with its send log forgotten. -/
def ItemDistributor.forgetSent (st : ItemDistributor) : ItemDistributor := { st with sent := [] }

theorem eq_withSent_of_forgetSent {s t : ItemDistributor} (h : s.forgetSent = t.forgetSent) :
    t = { s with sent := t.sent } := by
  cases s
  cases t
  simp only [forgetSent, ItemDistributor.mk.injEq] at h ⊢
  exact ⟨h.1.symm, h.2.1.symm, h.2.2.1.symm, h.2.2.2.1.symm, trivial⟩

/-! ### Operations that never read the sends -/

section blind
variable (p : List Item) (x : Item) (st : ItemDistributor) (xs : List (Outbound × SendResult))

@[simp] theorem dropRef_withSent :
    dropRef p x { st with sent := xs } = { dropRef p x st with sent := xs } := by
  unfold dropRef
  by_cases h : x ∈ p ∨ x ∈ st.workers.items <;> simp [h]

@[simp] theorem dropRefs_withSent :
    ∀ xs' (st : ItemDistributor),
      dropRefs p xs' { st with sent := xs } = { dropRefs p xs' st with sent := xs }
  | [], _ => rfl
  | y :: ys, st => by rw [dropRefs, dropRefs, dropRef_withSent, dropRefs_withSent ys]

@[simp] theorem eraseWorker_withSent (k : String) :
    eraseWorker k { st with sent := xs } = { eraseWorker k st with sent := xs } := by
  unfold eraseWorker destroyWorker
  cases st.workers.get? k with
  | none => rfl
  | some w => exact dropRefs_withSent [] xs _ { st with workers := st.workers.erase k }

@[simp] theorem assignWorker_withSent (k : String) (c : Worker) :
    assignWorker k c { st with sent := xs } = { assignWorker k c st with sent := xs } := by
  unfold assignWorker destroyWorker
  cases st.workers.get? k with
  | none => rfl
  | some w => exact dropRefs_withSent [] xs _ { st with workers := st.workers.insert k c }

theorem receiveProducerItem_withSent (m : List String) :
    receiveProducerItem m { st with sent := xs } =
      (receiveProducerItem m st).map fun p => (p.1, { p.2 with sent := xs }) := by
  cases m with
  | nil => rfl
  | cons frame rest =>
    simp only [receiveProducerItem]
    cases stoull frame <;> rfl

/-- The drain changes nothing but the log, and clears the ledger. -/
theorem sendPendingCompletions_forgetSent (net : Transport) :
    (sendPendingCompletions net st).forgetSent = { st.forgetSent with completedItems := [] } := by
  simp [forgetSent, sendPendingCompletions]

end blind

/-- Two computations that agree up to the send log, continued by two that agree up to the send
    log on states that do, agree up to the send log. -/
theorem map_bind_forgetSent {m₁ m₂ : Except Fault ItemDistributor}
    {f₁ f₂ : ItemDistributor → Except Fault ItemDistributor} (P : ItemDistributor → Prop)
    (hm : m₁.map forgetSent = m₂.map forgetSent) (hP : ∀ s, m₁ = .ok s → P s)
    (hf : ∀ s xs, P s → (f₁ s).map forgetSent = (f₂ { s with sent := xs }).map forgetSent) :
    (m₁ >>= f₁).map forgetSent = (m₂ >>= f₂).map forgetSent := by
  cases m₁ with
  | error e =>
    cases m₂ with
    | error e' => exact hm
    | ok => cases hm
  | ok s =>
    cases m₂ with
    | error => cases hm
    | ok t =>
      rw [eq_withSent_of_forgetSent (Except.ok.inj hm)]
      exact hf s t.sent (hP s rfl)

/-! ### The handlers on two networks under the real sockets -/

section agree
variable {net₁ net₂ : Transport} (h₁ : net₁.hasPeer "" = false) (h₂ : net₂.hasPeer "" = false)
include h₁ h₂

theorem distribute_forgetSent {x : Item} {st : ItemDistributor} {k : String}
    (hk : st.workers.OnlyEmptyKey) (xs : List (Outbound × SendResult)) :
    (distribute net₁ x st k).map forgetSent =
      (distribute net₂ x { st with sent := xs } k).map forgetSent := by
  unfold distribute
  cases hw : st.workers.get? k with
  | none => rfl
  | some w =>
    obtain rfl := hk.key hw
    dsimp only
    cases w.wantsItem x.id with
    | error => rfl
    | ok b =>
      cases b
      · rfl
      · have key := dropRefs_withSent [x] xs w.prebuffered
          { st with workers := st.workers.insert "" w.clearPrebuffer }
        dsimp only at key ⊢
        rw [key]
        split_ifs
        · simp only [sendWorkItem, sendWorkerMessage_noPeer h₁, sendWorkerMessage_noPeer h₂]
        · rfl

theorem fanOut_forgetSent {x : Item} :
    ∀ (ks : List String) (st : ItemDistributor) (xs : List (Outbound × SendResult)),
      st.workers.OnlyEmptyKey →
      (fanOut net₁ x ks st).map forgetSent = (fanOut net₂ x ks { st with sent := xs }).map forgetSent
  | [], _, _, _ => rfl
  | _ :: ks, _, xs, hk =>
    map_bind_forgetSent (fun s => s.workers.OnlyEmptyKey) (distribute_forgetSent h₁ h₂ hk xs)
      (fun _ hs k' hne => distribute_get?_none hs (hk k' hne))
      fun s ys hs => fanOut_forgetSent ks s ys hs

theorem onGeneratorPollin_forgetSent {st : ItemDistributor} (hk : st.workers.OnlyEmptyKey)
    (m : List String) (xs : List (Outbound × SendResult)) :
    (onGeneratorPollin net₁ m st).map forgetSent =
      (onGeneratorPollin net₂ m { st with sent := xs }).map forgetSent := by
  simp only [onGeneratorPollin, receiveProducerItem_withSent]
  cases hr : receiveProducerItem m st with
  | error => rfl
  | ok p =>
    obtain ⟨x, s₁⟩ := p
    obtain ⟨-, -, -, -, -, rfl⟩ := receiveProducerItem_inv hr
    show (fanOut net₁ x _ _ >>= _).map forgetSent = (fanOut net₂ x _ _ >>= _).map forgetSent
    refine map_bind_forgetSent (fun _ => True) (fanOut_forgetSent h₁ h₂ _ _ xs hk)
      (fun _ _ => trivial) fun s ys _ => ?_
    show Except.ok _ = Except.ok _
    rw [sendPendingCompletions_forgetSent, sendPendingCompletions_forgetSent,
      dropRef_withSent [] x s ys]
    rfl

theorem complete_forgetSent {k : String} {id? : Option ItemID} {st : ItemDistributor}
    (hk : st.workers.OnlyEmptyKey) (xs : List (Outbound × SendResult)) :
    (complete net₁ k id? st).map forgetSent =
      (complete net₂ k id? { st with sent := xs }).map forgetSent := by
  unfold complete
  cases hw : st.workers.«at» k with
  | error => rfl
  | ok w =>
    obtain rfl := hk.key (WorkerTable.at_eq_ok.mp hw)
    cases id? with
    | none => rfl
    | some id =>
      dsimp only [bind, Except.bind]
      cases w.outstandingItems.find? (·.id == id) with
      | none => rfl
      | some x =>
        have key := dropRef_withSent [] x
          { st with workers := st.workers.insert "" (w.eraseOutstanding id) } xs
        dsimp only at key ⊢
        rw [key]
        cases (w.eraseOutstanding id).waitingItems with
        | nil => rfl
        | cons y ys =>
          simp only [sendWorkItem, sendWorkerMessage_noPeer h₁, sendWorkerMessage_noPeer h₂]

theorem onWorkerPollin_forgetSent {st : ItemDistributor} (hk : st.workers.OnlyEmptyKey)
    (m : List String) (xs : List (Outbound × SendResult)) :
    (onWorkerPollin net₁ m st).map forgetSent =
      (onWorkerPollin net₂ m { st with sent := xs }).map forgetSent := by
  simp only [onWorkerPollin]
  cases decodeMessage m with
  | error => rfl
  | ok cmd =>
    show (execute net₁ cmd st >>= _).map forgetSent = (execute net₂ cmd _ >>= _).map forgetSent
    have hx : (execute net₁ cmd st).map forgetSent =
        (execute net₂ cmd { st with sent := xs }).map forgetSent := by
      match cmd with
      | .disconnect k =>
        show Except.ok _ = Except.ok _
        rw [eraseWorker_withSent st xs k]
        rfl
      | .register _ none => rfl
      | .register k (some c) =>
        show Except.ok _ = Except.ok _
        rw [assignWorker_withSent st xs k c]
        rfl
      | .complete k id? => exact complete_forgetSent h₁ h₂ hk xs
      | .other => rfl
    refine map_bind_forgetSent (fun _ => True) hx (fun _ _ => trivial) fun s ys _ => ?_
    show Except.ok _ = Except.ok _
    rw [sendPendingCompletions_forgetSent, sendPendingCompletions_forgetSent]
    rfl

theorem handle_forgetSent (ev : Event) {st : ItemDistributor} (hk : st.workers.OnlyEmptyKey)
    (xs : List (Outbound × SendResult)) :
    (handle net₁ ev st).map forgetSent = (handle net₂ ev { st with sent := xs }).map forgetSent := by
  cases ev with
  | producer m => exact onGeneratorPollin_forgetSent h₁ h₂ hk m xs
  | worker m => exact onWorkerPollin_forgetSent h₁ h₂ hk m xs
  | tick =>
    have hs₁ := sendHeartbeats_noPeer h₁ st.workers.entries st fun _ he => hk.entry he
    have hs₂ := sendHeartbeats_noPeer h₂ st.workers.entries { st with sent := xs }
      fun _ he => hk.entry he
    show (sendHeartbeats net₁ _ st).map forgetSent = (sendHeartbeats net₂ _ _).map forgetSent
    rw [hs₁, hs₂]
    split_ifs <;> rfl

theorem run_forgetSent :
    ∀ (evs : List Event) (st : ItemDistributor) (xs : List (Outbound × SendResult)),
      st.workers.OnlyEmptyKey →
      (run net₁ evs st).map forgetSent = (run net₂ evs { st with sent := xs }).map forgetSent
  | [], _, _, _ => rfl
  | ev :: evs, _, xs, hk =>
    map_bind_forgetSent (fun s => s.workers.OnlyEmptyKey) (handle_forgetSent h₁ h₂ ev hk xs)
      (fun _ hs k hne => handle_get?_none hs hne (hk k hne))
      fun s ys hs => run_forgetSent evs s ys hs

end agree

/-- The network reaches nothing but the send log: for any two networks under the real worker
    socket, where no peer has the empty identity, every run from the constructor faults on both
    with the same fault, or ends on both in states with the same worker table, ledger, item count
    and received IDs. -/
theorem verdicts_forgotten {net₁ net₂ : Transport} (h₁ : net₁.hasPeer "" = false)
    (h₂ : net₂.hasPeer "" = false) (evs : List Event) :
    (run net₁ evs init).map forgetSent = (run net₂ evs init).map forgetSent :=
  run_forgetSent h₁ h₂ evs init [] fun _ _ => rfl

theorem verdicts_forgotten_itemsRun :
    (noPeers .delivered).hasPeer "" = false ∧ (noPeers .raised).hasPeer "" = false ∧
      (run (noPeers .delivered) itemsRun init).map forgetSent =
        (run (noPeers .raised) itemsRun init).map forgetSent :=
  ⟨rfl, rfl, verdicts_forgotten rfl rfl itemsRun⟩

/-- Both completions reach the producer on the first network and neither on the second, yet the
    two runs end alike but for the log. -/
example : (run (noPeers .delivered) itemsRun init).map transmitted = .ok [5, 6] ∧
    (run (noPeers .raised) itemsRun init).map transmitted = .ok [] := ⟨rfl, rfl⟩

end Flesnet
