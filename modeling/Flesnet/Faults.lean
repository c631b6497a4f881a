import Flesnet.Sockets

/-! Where a zero stride comes from.

    `operator()` catches nothing: a failed assert, the `std::out_of_range` of `workers_.at`, the
    `id % 0` of `Worker::wants_item`, a frame `std::stoull` rejects, or a `zmq::error_t` from a
    send ends the process. Of these, the `id % 0` needs a record of stride 0, and such a record
    can only come from a REGISTER of stride 0: every record holds, under its identity, the fields
    of a REGISTER the run carried, since the fan-out and COMPLETE move items between queues and
    touch nothing else (`records_registered`). So after a run whose REGISTERs all had non-zero
    strides, on every transport, a producer item ends the broker only through its ID frame or a
    send that throws, never by dividing by zero (`producer_survives`). -/

namespace Flesnet
open ItemDistributor

/-- The loop body of the fan-out changes no record's stride. -/
theorem distribute_stride {net : Transport} {x : Item} {st s' : ItemDistributor} {k : String}
    (h : distribute net x st k = .ok s') (k' : String) :
    (s'.workers.get? k').map (·.stride) = (st.workers.get? k').map (·.stride) := by
  rcases distribute_inv h with ⟨rfl, -⟩ | ⟨w, hw, -, hwk, -⟩
  · rfl
  · rw [hwk, WorkerTable.get?_insert]
    split_ifs with hk
    · simp [hk, hw]
    · rfl

/-! ### Where records come from -/

/-- The fields of a record that REGISTER sets: all but the queues. -/
def Worker.config (w : Worker) : UInt64 × UInt64 × WorkerQueuePolicy × String :=
  (w.stride, w.offset, w.queuePolicy, w.clientName)

@[simp] theorem Worker.offer_config (w : Worker) (x : Item) : (w.offer x).config = w.config := by
  unfold Worker.offer Worker.enqueue Worker.clearPrebuffer Worker.config
  split_ifs <;> rfl

@[simp] theorem Worker.handOff_config (w : Worker) (id : ItemID) :
    (w.handOff id).config = w.config := by
  unfold Worker.handOff Worker.sendNext Worker.eraseOutstanding Worker.config
  split <;> rfl

/-- Every record of `t` holds, under its identity, the fields of a REGISTER among the worker
    messages of `evs`. -/
def Registered (evs : List Event) (t : WorkerTable) : Prop :=
  ∀ e ∈ t.entries, ∃ m c, .worker m ∈ evs ∧
    decodeMessage m = .ok (.register e.1 (some c)) ∧ c.config = e.2.config

namespace Registered
variable {evs : List Event} {t : WorkerTable}

theorem append (h : Registered evs t) (evs' : List Event) : Registered (evs ++ evs') t :=
  fun e he =>
    let ⟨m, c, hm, hd, hc⟩ := h e he
    ⟨m, c, List.mem_append_left _ hm, hd, hc⟩

theorem erase (h : Registered evs t) (k : String) : Registered evs (t.erase k) :=
  fun e he => h e (WorkerTable.mem_erase he)

/-- A record replaced by one with the same REGISTER fields. -/
theorem update (h : Registered evs t) {k : String} {w w' : Worker} (hw : t.get? k = some w)
    (hc : w'.config = w.config) : Registered evs (t.insert k w') := fun e he => by
  rcases WorkerTable.mem_insert he with rfl | he
  · obtain ⟨m, c, hm, hd, hc'⟩ := h (k, w) (WorkerTable.mem_of_get? hw)
    exact ⟨m, c, hm, hd, hc'.trans hc.symm⟩
  · exact h e he

/-- A record installed by a REGISTER among `evs`. -/
theorem register (h : Registered evs t) {m : List String} {k : String} {c : Worker}
    (hm : .worker m ∈ evs) (hd : decodeMessage m = .ok (.register k (some c))) :
    Registered evs (t.insert k c) := fun e he => by
  rcases WorkerTable.mem_insert he with rfl | he
  · exact ⟨m, c, hm, hd, rfl⟩
  · exact h e he

end Registered

theorem registered_handle {net : Transport} {evs : List Event} {ev : Event}
    {st st' : ItemDistributor} (h : handle net ev st = .ok st') (hr : Registered evs st.workers) :
    Registered (evs ++ [ev]) st'.workers := by
  have hr' := hr.append [ev]
  cases ev with
  | producer m =>
    obtain ⟨x, s₁, s₂, h₁, h₂, rfl⟩ := onGeneratorPollin_inv h
    obtain ⟨-, -, -, -, -, rfl⟩ := receiveProducerItem_inv h₁
    rw [sendPendingCompletions_workers, dropRef_workers]
    refine fanOut_induct (fun s => Registered _ s.workers) (fun k s s' hs hd => ?_) _ _ _
      (by exact hr') h₂
    rcases distribute_inv hd with ⟨rfl, -⟩ | ⟨w, hw, -, hwk, -⟩
    · exact hs
    · exact hwk ▸ hs.update hw (Worker.offer_config w x)
  | worker m =>
    obtain ⟨cmd, s₁, hd, he, rfl⟩ := onWorkerPollin_inv h
    rw [sendPendingCompletions_workers]
    match cmd, he with
    | .disconnect k, he => cases he; exact (eraseWorker_workers k st).symm ▸ hr'.erase k
    | .register k (some c), he =>
      cases he
      exact (assignWorker_workers k c st).symm ▸ hr'.register (by simp) hd
    | .complete k id?, he =>
      obtain ⟨w, id, -, hw, -, -, hwk, -⟩ := complete_inv he
      exact hwk ▸ hr'.update hw (Worker.handOff_config w id)
    | .other, he => cases he; exact hr'
  | tick =>
    obtain ⟨l, rfl, -⟩ := sendHeartbeats_inv h
    exact hr'

theorem registered_run {net : Transport} :
    ∀ {evs₀ evs : List Event} {st st' : ItemDistributor},
      Registered evs₀ st.workers → run net evs st = .ok st' → Registered (evs₀ ++ evs) st'.workers
  | _, [], _, _, hr, h => by cases h; simpa using hr
  | evs₀, ev :: evs, _, _, hr, h => by
    obtain ⟨s, hs, h⟩ := bind_eq_ok.mp h
    simpa using registered_run (registered_handle hs hr) h

/-- After any run, every record holds under its identity the stride, offset, policy and client
    name of a REGISTER some worker sent in that run: the broker never makes a record up. -/
theorem records_registered {net : Transport} {evs : List Event} {st : ItemDistributor}
    (h : run net evs init = .ok st) :
    ∀ e ∈ st.workers.entries, ∃ m c, .worker m ∈ evs ∧
      decodeMessage m = .ok (.register e.1 (some c)) ∧ c.config = e.2.config := by
  have h₀ : Registered [] init.workers := fun _ he => absurd he (List.not_mem_nil _)
  have hr := registered_run h₀ h
  rwa [List.nil_append] at hr

theorem records_registered_registerState :
    run deliverAll registerRun init = .ok registerState ∧
      ("", (⟨1, 0, .async, "w", [], []⟩ : Worker)) ∈ registerState.workers.entries ∧
      ∃ m c, .worker m ∈ registerRun ∧
        decodeMessage m = .ok (.register "" (some c)) ∧ c.config = (1, 0, .async, "w") :=
  have h : run deliverAll registerRun init = .ok registerState := rfl
  have he : ("", (⟨1, 0, .async, "w", [], []⟩ : Worker)) ∈ registerState.workers.entries :=
    List.mem_singleton_self _
  ⟨h, he, records_registered h _ he⟩

/-- After a run in which every REGISTER that parsed had a non-zero stride, no record has
    stride 0. -/
theorem stride_ne_zero_of_run {net : Transport} {evs : List Event} {st : ItemDistributor}
    (h : run net evs init = .ok st)
    (hreg : ∀ m i c, .worker m ∈ evs → decodeMessage m = .ok (.register i (some c)) →
      c.stride ≠ 0) {k : String} {w : Worker} (hw : st.workers.get? k = some w) :
    w.stride ≠ 0 := by
  have h₀ : Registered [] init.workers := fun _ he => absurd he (List.not_mem_nil _)
  obtain ⟨m, c, hm, hd, hc⟩ := registered_run h₀ h (k, w) (WorkerTable.mem_of_get? hw)
  have hs : c.stride = w.stride := congrArg Prod.fst hc
  exact hs ▸ hreg m k c (by simpa using hm) hd

/-- `std::stoull` throws `std::invalid_argument` or `std::out_of_range`, nothing else. -/
theorem stoull_error {frame : String} {e : Fault} (h : stoull frame = .error e) :
    e = .invalidArgument ∨ e = .outOfRange := by
  unfold stoull at h
  split at h <;> cases h
  · exact .inl rfl
  · exact .inr rfl

/-- The loop body of the fan-out fails only by dividing by the stride of the record under `k`,
    or in the send of the WORK_ITEM. -/
theorem distribute_error {net : Transport} {x : Item} {st : ItemDistributor} {k : String}
    {e : Fault} (h : distribute net x st k = .error e) :
    e = .zmqError ∨ ∃ w, st.workers.get? k = some w ∧ w.stride = 0 := by
  unfold distribute at h
  split at h
  · cases h
  · next w hw =>
    split at h
    · next hwant =>
      cases h
      unfold Worker.wantsItem at hwant
      split_ifs at hwant with h0
      exact .inr ⟨w, hw, h0⟩
    · cases h
    · dsimp only [sendWorkItem, sendWorkerMessage] at h
      split_ifs at h
      cases h
      exact .inl rfl

/-- The fan-out fails only at a record of stride 0, or in a send. -/
theorem fanOut_error {net : Transport} {x : Item} :
    ∀ (ks : List String) (st : ItemDistributor) {e : Fault}, fanOut net x ks st = .error e →
      e = .zmqError ∨ ∃ k w, st.workers.get? k = some w ∧ w.stride = 0
  | [], _, _, h => by cases h
  | k :: ks, st, e, h => by
    cases hd : distribute net x st k with
    | error e' =>
      have he : e' = e := by simpa [fanOut, hd, bind, Except.bind] using h
      rcases distribute_error hd with h' | ⟨w, hw, h0⟩
      · exact .inl (he ▸ h')
      · exact .inr ⟨k, w, hw, h0⟩
    | ok s₁ =>
      have h₁ : fanOut net x ks s₁ = .error e := by simpa [fanOut, hd, bind, Except.bind] using h
      rcases fanOut_error ks s₁ h₁ with h' | ⟨k', w, hw, h0⟩
      · exact .inl h'
      · have hs := distribute_stride hd k'
        rw [hw, Option.map_some'] at hs
        obtain ⟨w', hw', hs'⟩ := Option.map_eq_some'.mp hs.symm
        exact .inr ⟨k', w', hw', hs'.trans h0⟩

/-- `on_generator_pollin` fails in `receive_producer_item` or in the fan-out; the drain never
    throws. -/
theorem onGeneratorPollin_error {net : Transport} {m : List String} {st : ItemDistributor}
    {e : Fault} (h : onGeneratorPollin net m st = .error e) :
    receiveProducerItem m st = .error e ∨
      ∃ x s₁, receiveProducerItem m st = .ok (x, s₁) ∧ fanOut net x s₁.workers.keys s₁ = .error e := by
  cases hr : receiveProducerItem m st with
  | error e' =>
    simp only [onGeneratorPollin, hr, bind, Except.bind] at h
    exact .inl (congrArg Except.error (Except.error.inj h))
  | ok p =>
    obtain ⟨x, s₁⟩ := p
    refine .inr ⟨x, s₁, rfl, ?_⟩
    cases hf : fanOut net x s₁.workers.keys s₁ <;>
      simp_all [onGeneratorPollin, bind, Except.bind, pure, Except.pure]

/-- A zero stride can only come from a REGISTER: after a run, on every transport, in which every
    REGISTER that parsed had a non-zero stride, a producer item brings the broker down only
    through an ID frame `std::stoull` rejects or a send that throws, and never by the `id % 0`
    of `Worker::wants_item`. -/
theorem producer_survives {net : Transport} {evs : List Event} {st : ItemDistributor}
    (h : run net evs init = .ok st)
    (hreg : ∀ m i c, .worker m ∈ evs → decodeMessage m = .ok (.register i (some c)) → c.stride ≠ 0)
    (frame : String) (rest : List String) {e : Fault}
    (he : handle net (.producer (frame :: rest)) st = .error e) :
    e = .invalidArgument ∨ e = .outOfRange ∨ e = .zmqError := by
  rcases onGeneratorPollin_error he with hr | ⟨x, s₁, hr, hf⟩
  · have hid : stoull frame = .error e := by
      cases hs : stoull frame <;>
        simp_all [receiveProducerItem, bind, Except.bind, pure, Except.pure]
    exact (stoull_error hid).elim .inl (.inr ∘ .inl)
  · obtain ⟨-, -, -, -, -, rfl⟩ := receiveProducerItem_inv hr
    rcases fanOut_error _ _ hf with h' | ⟨k, w, hw, h0⟩
    · exact .inr (.inr h')
    · exact absurd h0 (stride_ne_zero_of_run h hreg hw)

theorem producer_survives_registerState :
    run (noPeers .delivered) registerRun init = .ok registerState ∧
      (∀ m i c, .worker m ∈ registerRun → decodeMessage m = .ok (.register i (some c)) →
        c.stride ≠ 0) ∧
      handle (noPeers .delivered) (.producer ["5"]) registerState = .error .zmqError ∧
      (Fault.zmqError = .invalidArgument ∨ Fault.zmqError = .outOfRange ∨
        Fault.zmqError = .zmqError) :=
  have h : run (noPeers .delivered) registerRun init = .ok registerState := rfl
  have hreg : ∀ m i c, .worker m ∈ registerRun → decodeMessage m = .ok (.register i (some c)) →
      c.stride ≠ 0 := by
    intro m i c hm hd
    rw [registerRun, List.mem_singleton] at hm
    cases hm
    have hdec : decodeMessage ["A", "", "REGISTER 1 0 Async w", "REGISTER 1 0 Async w"] =
        .ok (.register "" (some ⟨1, 0, .async, "w", [], []⟩)) := rfl
    rw [hdec] at hd
    cases hd
    decide
  have he : handle (noPeers .delivered) (.producer ["5"]) registerState = .error .zmqError := rfl
  ⟨h, hreg, he, producer_survives h hreg "5" [] he⟩

end Flesnet
