import Flesnet.QueueInvariant

/-! Dispatch semantics of one worker record.

    Seen from one record, a run is a sequence of record events: the producer items its
    predicate selects, and the COMPLETEs accepted for it. `Intent` says what a record is for:
    whether a WORK_ITEM is in flight, and the IDs it holds back, with one step per policy. The
    code's record refines it (`offer_intent`, `handOff_intent`); every handler moves the record
    under `k` by exactly its record events and sends WORK_ITEMs to `k` only as the abstract
    record dispatches them (`handle_follows`), and so does every run that neither removes nor
    replaces the record (`run_follows`). Read per policy, the abstract record gives the dispatch
    law (`dispatch_semantics`): under Async the WORK_ITEMs and the waiting queue together are
    the arrivals in order; under Skip an arrival is sent exactly when it finds the worker idle;
    under PrebufferOne a COMPLETE sends the newest arrival since the previous dispatch. The
    code accepts a COMPLETE only while a WORK_ITEM is in flight, so every WORK_ITEM but the one
    outstanding is answered by a COMPLETE (`flow_control`). -/

namespace Flesnet
open ItemDistributor

/-! ### A run as one record sees it -/

/-- What happens to one worker record: a producer item its predicate selects arrives, or a
    COMPLETE for it is accepted; both given by the item ID. -/
inductive RecordEvent where
  | arrival (id : ItemID)
  | complete (id : ItemID)
  deriving DecidableEq, Repr

/-- An accepted COMPLETE. -/
def RecordEvent.isComplete : RecordEvent → Bool
  | .complete _ => true
  | .arrival _ => false

/-- The record events of a decoded worker command for the record under `k`. -/
def WorkerCommand.recordEvents (k : String) : WorkerCommand → List RecordEvent
  | .complete i (some id) => if i = k then [.complete id] else []
  | _ => []

/-- A decoded worker command that removes or replaces the record under `k`. -/
def WorkerCommand.retires (k : String) : WorkerCommand → Bool
  | .disconnect i => i == k
  | .register i _ => i == k
  | _ => false

/-- The record events of one event for the record under `k` whose predicate is `sel`: a
    producer item whose ID frame parses to a selected ID, or a COMPLETE for `k`. -/
def recordEventsOf (k : String) (sel : ItemID → Bool) : Event → List RecordEvent
  | .producer (frame :: _) =>
    match stoull frame with
    | .ok id => if sel id then [.arrival id] else []
    | .error _ => []
  | .producer [] => []
  | .worker m =>
    match decodeMessage m with
    | .ok cmd => cmd.recordEvents k
    | .error _ => []
  | .tick => []

/-- The record events of a sequence of events. -/
def recordEvents (k : String) (sel : ItemID → Bool) (evs : List Event) : List RecordEvent :=
  evs.flatMap (recordEventsOf k sel)

/-- An event that removes or replaces the record under `k`. -/
def Event.retires (k : String) : Event → Bool
  | .worker m =>
    match decodeMessage m with
    | .ok cmd => cmd.retires k
    | .error _ => false
  | _ => false

/-- The IDs of the WORK_ITEMs of a send log addressed to `k`, whatever the transport did with
    them. -/
def workIds (k : String) (l : List (Outbound × SendResult)) : List ItemID :=
  l.filterMap fun
    | (.workItem i x, _) => if i = k then some x.id else none
    | _ => none

@[simp] theorem recordEvents_cons (k : String) (sel : ItemID → Bool) (ev : Event)
    (evs : List Event) :
    recordEvents k sel (ev :: evs) = recordEventsOf k sel ev ++ recordEvents k sel evs :=
  List.flatMap_cons ..

@[simp] theorem workIds_append (k : String) (l l' : List (Outbound × SendResult)) :
    workIds k (l ++ l') = workIds k l ++ workIds k l' :=
  List.filterMap_append ..

@[simp] theorem workIds_workItems (k : String) (ys : List Item) (v : SendResult) :
    workIds k (ys.map fun y => (.workItem k y, v)) = ys.map Item.id := by
  induction ys with
  | nil => rfl
  | cons y ys ih => simpa [workIds] using ih

theorem workIds_eq_nil {k : String} {l : List (Outbound × SendResult)}
    (h : ∀ p ∈ l, ∀ x, p.1 ≠ .workItem k x) : workIds k l = [] := by
  refine List.filterMap_eq_nil_iff.mpr fun ⟨o, r⟩ hp => ?_
  cases o with
  | workItem i x => exact if_neg fun hi => h _ hp x (by rw [hi])
  | _ => rfl

theorem workIds_of_completions {k : String} {l : List (Outbound × SendResult)}
    (h : ∀ p ∈ l, ∃ id, p.1 = .completion id) : workIds k l = [] :=
  workIds_eq_nil fun p hp x hx => by
    obtain ⟨id, hid⟩ := h p hp
    rw [hid] at hx
    cases hx

/-! ### The abstract record -/

/-- The abstract record: whether a WORK_ITEM is in flight, and the IDs held back for later. -/
structure Intent where
  busy : Bool
  pending : List ItemID
  deriving DecidableEq, Repr

namespace Intent

/-- One record event and the IDs it dispatches: an arrival goes out at once to an idle worker
    and is held back by the policy otherwise; a COMPLETE sends the first held-back ID, or
    leaves the worker idle. -/
def step (p : WorkerQueuePolicy) (i : Intent) : RecordEvent → Intent × List ItemID
  | .arrival id => if i.busy then (⟨true, p.hold i.pending id⟩, []) else (⟨true, i.pending⟩, [id])
  | .complete _ =>
    match i.pending with
    | [] => (⟨false, []⟩, [])
    | y :: q => (⟨true, q⟩, [y])

/-- A sequence of record events: where the abstract record ends, and every ID dispatched. -/
def run (p : WorkerQueuePolicy) : Intent → List RecordEvent → Intent × List ItemID
  | i, [] => (i, [])
  | i, e :: es => (((i.step p e).1.run p es).1, (i.step p e).2 ++ ((i.step p e).1.run p es).2)

theorem run_append (p : WorkerQueuePolicy) :
    ∀ (i : Intent) (es es' : List RecordEvent), i.run p (es ++ es') =
      (((i.run p es).1.run p es').1, (i.run p es).2 ++ ((i.run p es).1.run p es').2)
  | _, [], _ => rfl
  | i, e :: es, es' => by simp [run, run_append p _ es es']

/-- The record events the code lets through from `i`: a COMPLETE is accepted only while a
    WORK_ITEM is in flight. -/
def Accepts (p : WorkerQueuePolicy) : Intent → List RecordEvent → Prop
  | _, [] => True
  | i, .arrival id :: es => Accepts p (i.step p (.arrival id)).1 es
  | i, .complete id :: es => i.busy = true ∧ Accepts p (i.step p (.complete id)).1 es

theorem accepts_append (p : WorkerQueuePolicy) :
    ∀ (i : Intent) (es es' : List RecordEvent),
      Accepts p i (es ++ es') ↔ Accepts p i es ∧ Accepts p (i.run p es).1 es'
  | _, [], _ => by simp [Accepts, run]
  | i, .arrival id :: es, es' => by simp [Accepts, run, accepts_append p _ es es']
  | i, .complete id :: es, es' => by simp [Accepts, run, accepts_append p _ es es', and_assoc]

/-- Flow control: every dispatch is answered by a COMPLETE, except the one still in flight. -/
theorem run_count (p : WorkerQueuePolicy) :
    ∀ (es : List RecordEvent) (i : Intent), Accepts p i es →
      (i.run p es).2.length + i.busy.toNat =
        es.countP RecordEvent.isComplete + (i.run p es).1.busy.toNat
  | [], _, _ => by simp [run]
  | .arrival id :: es, ⟨b, q⟩, h => by
    have ih := run_count p es _ h
    cases b <;> simp_all [run, step, RecordEvent.isComplete]
  | .complete id :: es, ⟨b, q⟩, ⟨hb, h⟩ => by
    have ih := run_count p es _ h
    cases q <;> simp_all [run, step, RecordEvent.isComplete] <;> omega

end Intent

/-- The abstract record of a code record: busy while an item is outstanding, holding back the
    IDs of its waiting items. -/
def Worker.intent (w : Worker) : Intent := ⟨!w.outstandingItems.isEmpty, w.waitingItems.map Item.id⟩

/-- With at most one outstanding item, the abstract record is busy exactly as often as the code
    record has items outstanding. -/
theorem Worker.intent_busy_toNat {w : Worker} (h : QueueShape w) :
    w.intent.busy.toNat = w.outstandingItems.length := by
  have := h.outstanding_le_one
  match hw : w.outstandingItems, this with
  | [], _ => simp [Worker.intent, hw]
  | [_], _ => simp [Worker.intent, hw]

/-! ### The code's record refines the abstract one -/

section refinement
variable {w : Worker}

/-- An arrival: the record after `offer`, and the item sent exactly when the worker was idle. -/
theorem offer_intent (h : QueueShape w) (x : Item) :
    w.intent.step w.queuePolicy (.arrival x.id) =
      ((w.offer x).intent, if w.outstandingItems = [] then [x.id] else []) := by
  by_cases ho : w.outstandingItems = []
  · simp [Worker.offer_of_idle ho (h.waiting_of_idle ho), Worker.intent, Intent.step, ho,
      h.waiting_of_idle ho]
  · simp [Worker.offer_of_busy ho, Worker.intent, Intent.step, ho]

/-- An accepted COMPLETE: the record after `handOff`, and the front waiting item sent. -/
theorem handOff_intent {id : ItemID} {x : Item} (h : QueueShape w)
    (hx : w.outstandingItems.find? (·.id == id) = some x) :
    w.intent.step w.queuePolicy (.complete id) =
      ((w.handOff id).intent, (w.waitingItems.take 1).map Item.id) := by
  rw [Worker.handOff, Worker.eraseOutstanding_of_find h.outstanding_le_one hx]
  cases hq : w.waitingItems <;> simp [Worker.sendNext, Worker.intent, Intent.step, hq]

end refinement

/-! ### Every handler moves a record by its record events -/

/-- From `s` to `s'` the record `r` under `k` moved by the record events `es`: it is now `r'`,
    of the same shape, predicate and policy, abstracted by where the abstract record ends, and
    the WORK_ITEMs sent to `k` meanwhile are what the abstract record dispatched. -/
def Follows (k : String) (r : Worker) (es : List RecordEvent) (s s' : ItemDistributor) : Prop :=
  ∃ r' l, s'.workers.get? k = some r' ∧ QueueShape r' ∧ r'.selects = r.selects ∧
    r'.queuePolicy = r.queuePolicy ∧ s'.sent = s.sent ++ l ∧
    (r'.intent, workIds k l) = r.intent.run r.queuePolicy es ∧ r.intent.Accepts r.queuePolicy es

section follows
variable {net : Transport} {k : String} {r : Worker} {sel : ItemID → Bool}
  {s s' : ItemDistributor}

theorem Follows.frame {l : List (Outbound × SendResult)} (hr : s.workers.get? k = some r)
    (hq : QueueShape r) (hw : s'.workers.get? k = s.workers.get? k) (hl : s'.sent = s.sent ++ l)
    (hk : workIds k l = []) : Follows k r [] s s' :=
  ⟨r, l, hw.trans hr, hq, rfl, rfl, hl, by rw [hk]; rfl, trivial⟩

theorem Follows.stay (hr : s.workers.get? k = some r) (hq : QueueShape r)
    (hw : s'.workers.get? k = s.workers.get? k) (hl : s'.sent = s.sent) : Follows k r [] s s' :=
  ⟨r, [], hw.trans hr, hq, rfl, rfl, by rw [hl, List.append_nil], rfl, trivial⟩

/-- A step that sends nothing to `k` and leaves the table alone. -/
theorem Follows.quiet {l : List (Outbound × SendResult)} (hr : s.workers.get? k = some r)
    (hq : QueueShape r) (hw : s'.workers = s.workers) (hl : s'.sent = s.sent ++ l)
    (hk : ∀ p ∈ l, ∃ id, p.1 = .completion id) : Follows k r [] s s' :=
  .frame hr hq (by rw [hw]) hl (workIds_of_completions hk)

/-- The drain of the ledger after a step that kept the table and sent nothing. -/
theorem Follows.drain (net : Transport) {s₁ : ItemDistributor} (hr : s.workers.get? k = some r) (hq : QueueShape r)
    (hw : s₁.workers = s.workers) (hs : s₁.sent = s.sent) :
    Follows k r [] s (sendPendingCompletions net s₁) := by
  obtain ⟨l, hl, hc⟩ := sendPendingCompletions_sent net s₁
  exact .quiet hr hq (by rw [sendPendingCompletions_workers, hw]) (by rw [hl, hs]) hc

theorem Follows.trans {es es' : List RecordEvent} {s₁ s₂ : ItemDistributor}
    (h₁ : Follows k r es s s₁)
    (h₂ : ∀ r₁, s₁.workers.get? k = some r₁ → QueueShape r₁ → r₁.selects = r.selects →
      r₁.queuePolicy = r.queuePolicy → Follows k r₁ es' s₁ s₂) :
    Follows k r (es ++ es') s s₂ := by
  obtain ⟨r₁, l₁, hg₁, hq₁, hs₁, hp₁, hl₁, hi₁, ha₁⟩ := h₁
  obtain ⟨r₂, l₂, hg₂, hq₂, hs₂, hp₂, hl₂, hi₂, ha₂⟩ := h₂ r₁ hg₁ hq₁ hs₁ hp₁
  have hr₁ : (r.intent.run r.queuePolicy es).1 = r₁.intent := (congrArg Prod.fst hi₁).symm
  rw [hp₁] at hi₂ ha₂
  refine ⟨r₂, l₁ ++ l₂, hg₂, hq₂, hs₂.trans hs₁, hp₂.trans hp₁,
    by rw [hl₂, hl₁, List.append_assoc], ?_, (Intent.accepts_append _ _ _ _).mpr ⟨ha₁, hr₁ ▸ ha₂⟩⟩
  rw [Intent.run_append, ← hi₁, ← hi₂, workIds_append]

/-- A step followed by the drain of the ledger moves the record as the step alone does. -/
theorem Follows.then_drain {es : List RecordEvent} {s₁ s₂ : ItemDistributor}
    (h : Follows k r es s s₁) (hw : s₂.workers = s₁.workers) (hs : s₂.sent = s₁.sent) :
    Follows k r es s (sendPendingCompletions net s₂) := by
  have key := h.trans fun _ hr₁ hq₁ _ _ => Follows.drain net hr₁ hq₁ hw hs
  rwa [List.append_nil] at key

/-- The fan-out body at another key. -/
theorem distribute_other {x : Item} {k' : String} (hk : k' ≠ k)
    (hd : distribute net x s k' = .ok s') (hr : s.workers.get? k = some r) (hq : QueueShape r) :
    Follows k r [] s s' := by
  rcases distribute_inv hd with ⟨rfl, -⟩ | ⟨w, -, -, hwk, -, -, -, hs, -⟩
  · exact .stay hr hq rfl rfl
  · refine .frame hr hq (by rw [hwk, WorkerTable.get?_insert, if_neg hk.symm]) hs ?_
    split_ifs <;> simp [workIds, hk]

/-- The fan-out body at `k`: an arrival if the predicate selects the item. -/
theorem distribute_self {x : Item} (hd : distribute net x s k = .ok s')
    (hr : s.workers.get? k = some r) (hq : QueueShape r) (hsel : r.selects = sel) :
    Follows k r (if sel x.id then [.arrival x.id] else []) s s' := by
  subst hsel
  rcases distribute_inv hd with ⟨rfl, hf⟩ | ⟨w, hw, hwant, hwk, -, -, -, hs, -⟩
  · rw [Worker.wantsItem_eq_ok (hf r hr)]
    exact .stay hr hq rfl rfl
  · obtain rfl : w = r := Option.some.inj (hw.symm.trans hr)
    rw [Worker.wantsItem_eq_ok hwant, if_pos rfl]
    refine ⟨w.offer x, _, by rw [hwk, WorkerTable.get?_insert, if_pos rfl], hq.offer x,
      by simp, by simp, hs, ?_, trivial⟩
    simp only [Intent.run, offer_intent hq x, List.append_nil]
    split_ifs <;> simp [workIds]

theorem fanOut_append {x : Item} :
    ∀ (ks ks' : List String) (s : ItemDistributor),
      fanOut net x (ks ++ ks') s = fanOut net x ks s >>= fanOut net x ks'
  | [], _, _ => rfl
  | k :: ks, ks', s => by
    show (distribute net x s k >>= fun s₁ => fanOut net x (ks ++ ks') s₁) =
      (distribute net x s k >>= fun s₁ => fanOut net x ks s₁) >>= fanOut net x ks'
    cases distribute net x s k with
    | error => rfl
    | ok s₁ => exact fanOut_append ks ks' s₁

/-- A fan-out over keys other than `k`. -/
theorem fanOut_frame {x : Item} :
    ∀ {ks : List String} {s s' : ItemDistributor} {r : Worker}, k ∉ ks → fanOut net x ks s = .ok s' →
      s.workers.get? k = some r → QueueShape r → Follows k r [] s s'
  | [], _, _, _, _, h, hr, hq => by cases h; exact .stay hr hq rfl rfl
  | k' :: ks, _, _, _, hk, h, hr, hq => by
    obtain ⟨s₁, h₁, h₂⟩ := bind_eq_ok.mp h
    have hk' : k' ≠ k := by rintro rfl; exact hk (List.mem_cons_self _ _)
    exact (distribute_other hk' h₁ hr hq).trans
      fun _ hr₁ hq₁ _ _ => fanOut_frame (fun hm => hk (List.mem_cons_of_mem _ hm)) h₂ hr₁ hq₁

/-- The fan-out visits `k` exactly once. -/
theorem fanOut_follows {x : Item} {ks : List String} (hnd : ks.Nodup) (hk : k ∈ ks)
    (h : fanOut net x ks s = .ok s') (hr : s.workers.get? k = some r) (hq : QueueShape r)
    (hsel : r.selects = sel) : Follows k r (if sel x.id then [.arrival x.id] else []) s s' := by
  obtain ⟨pre, post, rfl⟩ := List.append_of_mem hk
  have hnd' := List.nodup_middle.mp hnd
  rw [List.nodup_cons, List.mem_append, not_or] at hnd'
  rw [fanOut_append] at h
  obtain ⟨s₁, h₁, h₂⟩ := bind_eq_ok.mp h
  obtain ⟨s₂, h₂, h₃⟩ := bind_eq_ok.mp h₂
  have key := (fanOut_frame hnd'.1.1 h₁ hr hq).trans fun _ hr₁ hq₁ hs₁ _ =>
    (distribute_self h₂ hr₁ hq₁ (hs₁.trans hsel)).trans fun _ hr₂ hq₂ _ _ =>
      fanOut_frame hnd'.1.2 h₃ hr₂ hq₂
  simpa using key

/-- A decoded worker command moves the record by its record events. -/
theorem execute_follows {cmd : WorkerCommand} (h : execute net cmd s = .ok s')
    (hlive : cmd.retires k = false) (hr : s.workers.get? k = some r) (hq : QueueShape r) :
    Follows k r (cmd.recordEvents k) s s' := by
  cases cmd with
  | disconnect i =>
    cases h
    have hi : i ≠ k := by simpa [WorkerCommand.retires] using hlive
    exact .stay hr hq (by simp [Ne.symm hi]) (by simp)
  | register i c =>
    cases c with
    | none => cases h
    | some c =>
      cases h
      have hi : i ≠ k := by simpa [WorkerCommand.retires] using hlive
      exact .stay hr hq (by simp [Ne.symm hi]) (by simp)
  | complete i id? =>
    obtain ⟨w, id, x, hw, rfl, hx, hwk, -, -, -, hs, -⟩ := complete_inv h
    by_cases hi : i = k
    · subst hi
      obtain rfl : w = r := Option.some.inj (hw.symm.trans hr)
      have hbusy : w.intent.busy = true := by
        simp [Worker.intent, List.ne_nil_of_mem (List.mem_of_find?_eq_some hx)]
      refine ⟨w.handOff id, _, by rw [hwk, WorkerTable.get?_insert, if_pos rfl], hq.handOff hx,
        by simp, by simp, hs, ?_, ?_⟩ <;> simp only [WorkerCommand.recordEvents, if_pos rfl]
      · simp only [Intent.run, handOff_intent hq hx, List.append_nil, workIds_workItems]
      · exact ⟨hbusy, trivial⟩
    · rw [WorkerCommand.recordEvents, if_neg hi]
      refine .frame hr hq (by rw [hwk, WorkerTable.get?_insert, if_neg (Ne.symm hi)]) hs
        (workIds_eq_nil fun p hp y hy => ?_)
      obtain ⟨z, -, rfl⟩ := List.mem_map.mp hp
      exact hi (Outbound.workItem.inj hy).1
  | other => cases h; exact .stay hr hq rfl rfl

/-- Every handler moves the record under `k` by the record events of its event, unless the
    event removes or replaces it. -/
theorem handle_follows {ev : Event} (h : handle net ev s = .ok s') (hlive : ev.retires k = false)
    (hr : s.workers.get? k = some r) (hq : QueueShape r) (hsel : r.selects = sel) :
    Follows k r (recordEventsOf k sel ev) s s' := by
  cases ev with
  | producer m =>
    obtain ⟨x, s₁, s₂, h₁, h₂, rfl⟩ := onGeneratorPollin_inv h
    obtain ⟨frame, rest, rfl, hid, -, rfl⟩ := receiveProducerItem_inv h₁
    have hk : k ∈ s.workers.keys := List.mem_map_of_mem _ (WorkerTable.mem_of_get? hr)
    simp only [recordEventsOf, hid]
    exact (fanOut_follows (WorkerTable.keys_nodup _) hk h₂ hr hq hsel).then_drain
      (dropRef_workers _ [] x) (dropRef_sent _ [] x)
  | worker m =>
    obtain ⟨cmd, s₁, hcmd, h₁, rfl⟩ := onWorkerPollin_inv h
    simp only [Event.retires, hcmd] at hlive
    simp only [recordEventsOf, hcmd]
    exact (execute_follows h₁ hlive hr hq).then_drain rfl rfl
  | tick =>
    obtain ⟨l, rfl, hl⟩ := sendHeartbeats_inv h
    refine .frame hr hq rfl rfl (workIds_eq_nil fun p hp x hx => ?_)
    obtain ⟨i, hi⟩ := hl p hp
    rw [hi] at hx
    cases hx

/-- A run that neither removes nor replaces the record under `k` moves it by its record
    events. -/
theorem run_follows :
    ∀ {evs : List Event} {s s' : ItemDistributor} {r : Worker}, run net evs s = .ok s' →
      (∀ ev ∈ evs, ev.retires k = false) → s.workers.get? k = some r → QueueShape r →
      r.selects = sel → Follows k r (recordEvents k sel evs) s s'
  | [], _, _, _, h, _, hr, hq, _ => by cases h; exact .stay hr hq rfl rfl
  | ev :: evs, _, _, _, h, hlive, hr, hq, hsel => by
    obtain ⟨s₁, h₁, h₂⟩ := bind_eq_ok.mp h
    rw [recordEvents_cons]
    exact (handle_follows h₁ (hlive ev (List.mem_cons_self _ _)) hr hq hsel).trans
      fun _ hr₁ hq₁ hs₁ _ =>
        run_follows h₂ (fun e he => hlive e (List.mem_cons_of_mem _ he)) hr₁ hq₁ (hs₁.trans hsel)

end follows

/-! ### The dispatch law per policy -/

/-- The IDs of the arrivals, in order. -/
def arrivals : List RecordEvent → List ItemID
  | [] => []
  | .arrival id :: es => id :: arrivals es
  | .complete _ :: es => arrivals es

/-- Skip: an arrival that finds the worker idle is sent and any other is dropped; an accepted
    COMPLETE leaves the worker idle. `busy` is whether a WORK_ITEM is in flight. -/
def skipDispatch : Bool → List RecordEvent → List ItemID
  | _, [] => []
  | false, .arrival id :: es => id :: skipDispatch true es
  | true, .arrival _ :: es => skipDispatch true es
  | _, .complete _ :: es => skipDispatch false es

/-- PrebufferOne: an arrival that finds the worker idle is sent; at an accepted COMPLETE the
    most recent arrival since the previous dispatch, `latest`, is sent if there is one, and
    otherwise the worker is idle. -/
def prebufferDispatch : Bool → Option ItemID → List RecordEvent → List ItemID
  | _, _, [] => []
  | false, _, .arrival id :: es => id :: prebufferDispatch true none es
  | true, _, .arrival id :: es => prebufferDispatch true (some id) es
  | _, some y, .complete _ :: es => y :: prebufferDispatch true none es
  | _, none, .complete _ :: es => prebufferDispatch false none es

/-- The dispatch law of policy `p` for a record with record events `es` that was sent the IDs
    `sent` and holds back `held` at the end. -/
def DispatchLaw (p : WorkerQueuePolicy) (es : List RecordEvent) (sent held : List ItemID) :
    Prop :=
  (p = .async → sent ++ held = arrivals es) ∧
  (p = .skip → sent = skipDispatch false es) ∧
  (p = .prebufferOne → sent = prebufferDispatch false none es)

namespace Intent

/-- Under Async every arrival is sent or held back, in order. -/
theorem run_async : ∀ (es : List RecordEvent) (i : Intent), (i.busy = false → i.pending = []) →
    (i.run .async es).2 ++ (i.run .async es).1.pending = i.pending ++ arrivals es
  | [], _, _ => by simp [run, arrivals]
  | .arrival id :: es, ⟨false, q⟩, h => by
    obtain rfl : q = [] := h rfl
    simpa [run, step, arrivals] using run_async es ⟨true, []⟩ (by simp)
  | .arrival id :: es, ⟨true, q⟩, _ => by
    simpa [run, step, arrivals, WorkerQueuePolicy.hold] using run_async es ⟨true, q ++ [id]⟩ (by simp)
  | .complete _ :: es, ⟨_, []⟩, _ => by
    simpa [run, step, arrivals] using run_async es ⟨false, []⟩ (fun _ => rfl)
  | .complete _ :: es, ⟨_, y :: q⟩, _ => by
    simpa [run, step, arrivals] using run_async es ⟨true, q⟩ (by simp)

/-- Under Skip nothing is held back, and an arrival is sent exactly when the worker is idle. -/
theorem run_skip : ∀ (es : List RecordEvent) (i : Intent), i.pending = [] →
    (i.run .skip es).2 = skipDispatch i.busy es
  | [], ⟨b, _⟩, _ => by cases b <;> rfl
  | .arrival id :: es, ⟨false, q⟩, h => by
    subst h
    simpa [run, step, skipDispatch] using run_skip es ⟨true, []⟩ rfl
  | .arrival id :: es, ⟨true, q⟩, h => by
    subst h
    simpa [run, step, skipDispatch, WorkerQueuePolicy.hold] using run_skip es ⟨true, []⟩ rfl
  | .complete _ :: es, ⟨b, q⟩, h => by
    subst h
    cases b <;> simpa [run, step, skipDispatch] using run_skip es ⟨false, []⟩ rfl

/-- Under PrebufferOne at most the newest arrival is held back, and a COMPLETE sends it. -/
theorem run_prebufferOne : ∀ (es : List RecordEvent) (i : Intent), i.pending.length ≤ 1 →
    (i.busy = false → i.pending = []) →
    (i.run .prebufferOne es).2 = prebufferDispatch i.busy i.pending.head? es
  | [], _, _, _ => by cases ‹Intent›; simp [run, prebufferDispatch]
  | .arrival id :: es, ⟨false, q⟩, _, h => by
    obtain rfl : q = [] := h rfl
    simpa [run, step, prebufferDispatch] using run_prebufferOne es ⟨true, []⟩ (by simp) (by simp)
  | .arrival id :: es, ⟨true, q⟩, _, _ => by
    simpa [run, step, prebufferDispatch, WorkerQueuePolicy.hold] using
      run_prebufferOne es ⟨true, [id]⟩ (by simp) (by simp)
  | .complete _ :: es, ⟨b, []⟩, _, _ => by
    cases b <;> simpa [run, step, prebufferDispatch] using
      run_prebufferOne es ⟨false, []⟩ (by simp) (fun _ => rfl)
  | .complete _ :: es, ⟨b, [y]⟩, _, _ => by
    cases b <;> simpa [run, step, prebufferDispatch] using
      run_prebufferOne es ⟨true, []⟩ (by simp) (by simp)
  | .complete _ :: _, ⟨_, _ :: _ :: _⟩, h, _ => by simp at h

/-- An abstract record that starts idle obeys the dispatch law of its policy. -/
theorem run_dispatchLaw (p : WorkerQueuePolicy) (es : List RecordEvent) :
    DispatchLaw p es (Intent.run p ⟨false, []⟩ es).2 (Intent.run p ⟨false, []⟩ es).1.pending :=
  ⟨fun hp => by simpa [hp] using run_async es ⟨false, []⟩ (fun _ => rfl),
    fun hp => hp ▸ run_skip es _ rfl, fun hp => hp ▸ run_prebufferOne es _ (by simp) (fun _ => rfl)⟩

end Intent

/-- From the REGISTER that creates the record under `k`, a run that neither removes nor
    replaces it moves the record as the abstract record moves from idle over the run's record
    events, and the code lets through only the COMPLETEs the abstract record can accept. -/
theorem register_follows {net : Transport} {m : List String} {k : String} {c : Worker}
    {evs : List Event} {s₀ s₁ : ItemDistributor}
    (hreg : decodeMessage m = .ok (.register k (some c)))
    (hlive : ∀ ev ∈ evs, ev.retires k = false)
    (hrun : run net (.worker m :: evs) s₀ = .ok s₁) :
    ∃ r, s₁.workers.get? k = some r ∧ QueueShape r ∧
      (r.intent, workIds k (s₁.sent.drop s₀.sent.length)) =
        Intent.run c.queuePolicy ⟨false, []⟩ (recordEvents k c.selects evs) ∧
      Intent.Accepts c.queuePolicy ⟨false, []⟩ (recordEvents k c.selects evs) := by
  obtain ⟨s, h₀, h₁⟩ := bind_eq_ok.mp hrun
  obtain ⟨cmd, s', hcmd, hexec, rfl⟩ := onWorkerPollin_inv h₀
  rw [hreg] at hcmd
  cases hcmd
  cases hexec
  obtain ⟨hq, ho⟩ := decodeMessage_register hreg
  obtain ⟨l₀, hl₀, hc₀⟩ := sendPendingCompletions_sent net (assignWorker k c s₀)
  obtain ⟨r, l, hg, hqr, -, -, hl, hi, ha⟩ :=
    run_follows h₁ hlive (by simp) (.of_empty hq ho) (rfl : c.selects = c.selects)
  have hint : c.intent = ⟨false, []⟩ := by simp [Worker.intent, hq, ho]
  have hsent : s₁.sent.drop s₀.sent.length = l₀ ++ l := by
    rw [hl, hl₀, assignWorker_sent, List.append_assoc, List.drop_left]
  refine ⟨r, hg, hqr, ?_, hint ▸ ha⟩
  rw [hsent, workIds_append, workIds_of_completions hc₀, List.nil_append, hi, hint]

/-- Dispatch semantics per queue policy: from the REGISTER that creates the record under `k`
    until an event removes or replaces it, the WORK_ITEMs sent to `k` obey the dispatch law of
    the record's policy over its record events, the producer items its predicate selects and
    the COMPLETEs for `k`. -/
theorem dispatch_semantics {net : Transport} {m : List String} {k : String} {c : Worker}
    {evs : List Event} {s₀ s₁ : ItemDistributor}
    (hreg : decodeMessage m = .ok (.register k (some c)))
    (hlive : ∀ ev ∈ evs, ev.retires k = false)
    (hrun : run net (.worker m :: evs) s₀ = .ok s₁) :
    ∃ r, s₁.workers.get? k = some r ∧
      DispatchLaw c.queuePolicy (recordEvents k c.selects evs)
        (workIds k (s₁.sent.drop s₀.sent.length)) (r.waitingItems.map Item.id) := by
  obtain ⟨r, hg, -, hi, -⟩ := register_follows hreg hlive hrun
  have hd : workIds k (s₁.sent.drop s₀.sent.length) = _ := congrArg Prod.snd hi
  have hw : r.waitingItems.map Item.id = _ := congrArg (fun q => q.1.pending) hi
  refine ⟨r, hg, ?_⟩
  rw [hd, hw]
  exact Intent.run_dispatchLaw _ _

/-- The REGISTER of the spec's scenario S2. -/
def s2Register : List String := ["A", "", "", "REGISTER 1 0 PrebufferOne w"]

/-- The rest of S2: items 10 to 13 arrive while 10 is in flight, then 10 is completed. -/
def s2Events : List Event :=
  [.producer ["10"], .producer ["11"], .producer ["12"], .producer ["13"],
    .worker ["A", "", "", "COMPLETE 10"]]

/-- The state S2 ends in. -/
def s2State : ItemDistributor :=
  match run deliverAll (.worker s2Register :: s2Events) init with
  | .ok st => st
  | .error _ => init

theorem dispatch_semantics_s2 :
    decodeMessage s2Register = .ok (.register "" (some ⟨1, 0, .prebufferOne, "w", [], []⟩)) ∧
      (∀ ev ∈ s2Events, ev.retires "" = false) ∧
      run deliverAll (.worker s2Register :: s2Events) init = .ok s2State ∧
      ∃ r, s2State.workers.get? "" = some r ∧
        DispatchLaw .prebufferOne
          (recordEvents "" (Worker.selects ⟨1, 0, .prebufferOne, "w", [], []⟩) s2Events)
          (workIds "" (s2State.sent.drop init.sent.length)) (r.waitingItems.map Item.id) :=
  have h₁ : decodeMessage s2Register =
      .ok (.register "" (some ⟨1, 0, .prebufferOne, "w", [], []⟩)) := rfl
  have h₂ : ∀ ev ∈ s2Events, ev.retires "" = false := by decide
  have h₃ : run deliverAll (.worker s2Register :: s2Events) init = .ok s2State := rfl
  ⟨h₁, h₂, h₃, dispatch_semantics h₁ h₂ h₃⟩

example : workIds "" s2State.sent = [10, 13] := rfl

/-- At most one WORK_ITEM in flight: from the REGISTER that creates the record under `k` until
    an event removes or replaces it, the WORK_ITEMs sent to `k` number the COMPLETEs accepted
    from `k` plus the record's outstanding items, of which there is at most one; and each of
    those COMPLETEs came while a WORK_ITEM was in flight. -/
theorem flow_control {net : Transport} {m : List String} {k : String} {c : Worker}
    {evs : List Event} {s₀ s₁ : ItemDistributor}
    (hreg : decodeMessage m = .ok (.register k (some c)))
    (hlive : ∀ ev ∈ evs, ev.retires k = false)
    (hrun : run net (.worker m :: evs) s₀ = .ok s₁) :
    ∃ r, s₁.workers.get? k = some r ∧ r.outstandingItems.length ≤ 1 ∧
      (workIds k (s₁.sent.drop s₀.sent.length)).length =
        (recordEvents k c.selects evs).countP RecordEvent.isComplete +
          r.outstandingItems.length ∧
      Intent.Accepts c.queuePolicy ⟨false, []⟩ (recordEvents k c.selects evs) := by
  obtain ⟨r, hg, hq, hi, ha⟩ := register_follows hreg hlive hrun
  have hcount := Intent.run_count c.queuePolicy _ _ ha
  rw [← hi, Worker.intent_busy_toNat hq] at hcount
  exact ⟨r, hg, hq.outstanding_le_one, by simpa using hcount, ha⟩

theorem flow_control_s2 :
    decodeMessage s2Register = .ok (.register "" (some ⟨1, 0, .prebufferOne, "w", [], []⟩)) ∧
      (∀ ev ∈ s2Events, ev.retires "" = false) ∧
      run deliverAll (.worker s2Register :: s2Events) init = .ok s2State ∧
      ∃ r, s2State.workers.get? "" = some r ∧ r.outstandingItems.length ≤ 1 ∧
        (workIds "" (s2State.sent.drop init.sent.length)).length =
          (recordEvents "" (Worker.selects ⟨1, 0, .prebufferOne, "w", [], []⟩) s2Events).countP
            RecordEvent.isComplete + r.outstandingItems.length ∧
        Intent.Accepts .prebufferOne ⟨false, []⟩
          (recordEvents "" (Worker.selects ⟨1, 0, .prebufferOne, "w", [], []⟩) s2Events) :=
  have h₁ : decodeMessage s2Register =
      .ok (.register "" (some ⟨1, 0, .prebufferOne, "w", [], []⟩)) := rfl
  have h₂ : ∀ ev ∈ s2Events, ev.retires "" = false := by decide
  have h₃ : run deliverAll (.worker s2Register :: s2Events) init = .ok s2State := rfl
  ⟨h₁, h₂, h₃, flow_control h₁ h₂ h₃⟩

end Flesnet
