import Flesnet.Worker
import Mathlib.Data.String.Basic
import Mathlib.Data.Finset.Basic

/-! The worker table `workers_`, a `std::map<std::string, std::unique_ptr<Worker>>`.

    A `std::map` iterates in key order and holds each key once, so the table is its list of
    entries with keys strictly increasing; the structure carries that order, and `insert`
    (`workers_[k] = ...`) and `erase` keep it. Keys compare as `std::string` does, byte by
    byte, which for identities read as characters is the order on `String`. The lemmas
    below say where a key sits in the list, so that replacing or removing one record can be
    followed through the items the table holds. -/

namespace Flesnet

/-- `workers_`, in iteration order. -/
@[ext] structure WorkerTable where
  entries : List (String × Worker)
  sorted : entries.Pairwise (fun a b => a.1 < b.1)

/-- `workers_[k] = w` on the entry list: replace the entry of `k`, or add it in key order. -/
def insertEntry (k : String) (w : Worker) : List (String × Worker) → List (String × Worker)
  | [] => [(k, w)]
  | e :: es =>
    if k.data < e.1.data then (k, w) :: e :: es
    else if k = e.1 then (k, w) :: es
    else e :: insertEntry k w es

theorem mem_insertEntry {k : String} {w : Worker} {e : String × Worker} :
    ∀ {es : List (String × Worker)}, e ∈ insertEntry k w es → e = (k, w) ∨ e ∈ es
  | [], h => by simpa [insertEntry] using h
  | e' :: es, h => by
    unfold insertEntry at h
    split_ifs at h
    · simpa using h
    · simp only [List.mem_cons] at h ⊢; tauto
    · simp only [List.mem_cons] at h ⊢
      rcases h with rfl | h
      · exact .inr (.inl rfl)
      · rcases mem_insertEntry h with h | h <;> simp [h]

theorem insertEntry_sorted (k : String) (w : Worker) :
    ∀ {es : List (String × Worker)}, es.Pairwise (fun a b => a.1 < b.1) →
      (insertEntry k w es).Pairwise (fun a b => a.1 < b.1)
  | [], _ => by simp [insertEntry]
  | e :: es, h => by
    rw [List.pairwise_cons] at h
    have hlt : k < e.1 ↔ k.data < e.1.data := String.lt_iff_toList_lt
    unfold insertEntry
    split_ifs with h1 h2
    · exact List.Pairwise.cons (fun a ha => by
        rcases List.mem_cons.mp ha with rfl | ha
        · exact hlt.mpr h1
        · exact (hlt.mpr h1).trans (h.1 a ha)) (List.Pairwise.cons h.1 h.2)
    · exact List.Pairwise.cons (fun a ha => h2 ▸ h.1 a ha) h.2
    · have hek : e.1 < k := lt_of_le_of_ne (not_lt.mp (mt hlt.mp h1)) (Ne.symm h2)
      exact List.Pairwise.cons (fun a ha => by
        rcases mem_insertEntry ha with rfl | ha
        · exact hek
        · exact h.1 a ha) (insertEntry_sorted k w h.2)

namespace WorkerTable

/-- The empty table the broker starts with. -/
def empty : WorkerTable := ⟨[], .nil⟩

/-- The identities, in iteration order. -/
def keys (t : WorkerTable) : List String := t.entries.map (·.1)

/-- `workers_.find(k)`. -/
def get? (t : WorkerTable) (k : String) : Option Worker := t.entries.lookup k

/-- `workers_.at(k)`: an absent key throws `std::out_of_range`. -/
def «at» (t : WorkerTable) (k : String) : Except Fault Worker :=
  match t.get? k with
  | some w => .ok w
  | none => .error .outOfRange

/-- `workers_[k] = w`. -/
def insert (t : WorkerTable) (k : String) (w : Worker) : WorkerTable :=
  ⟨insertEntry k w t.entries, insertEntry_sorted k w t.sorted⟩

/-- `workers_.erase(k)`. -/
def erase (t : WorkerTable) (k : String) : WorkerTable :=
  ⟨t.entries.filter (·.1 != k), t.sorted.filter _⟩

/-- Every item object some record of the table points to. -/
def items (t : WorkerTable) : List Item := t.entries.flatMap (·.2.items)

/-! ### Lookups -/

theorem lookup_cons_ite (k : String) (e : String × Worker) (es : List (String × Worker)) :
    (e :: es).lookup k = if k = e.1 then some e.2 else es.lookup k := by
  obtain ⟨a, b⟩ := e
  by_cases h : k = a
  · subst h; simp
  · rw [List.lookup_cons, beq_false_of_ne h]; simp [h]

theorem lookup_insertEntry (k k' : String) (w : Worker) :
    ∀ es : List (String × Worker),
      (insertEntry k w es).lookup k' = if k' = k then some w else es.lookup k'
  | [] => by simp [insertEntry, lookup_cons_ite]
  | e :: es => by
    by_cases h1 : k.data < e.1.data
    · simp only [insertEntry, if_pos h1, lookup_cons_ite]
    by_cases h2 : k = e.1
    · subst h2
      simp only [insertEntry, if_neg h1, if_pos rfl, lookup_cons_ite]
      by_cases h : k' = e.1 <;> simp [h, lookup_cons_ite]
    · simp only [insertEntry, if_neg h1, if_neg h2, lookup_cons_ite, lookup_insertEntry k k' w es]
      by_cases h : k' = k
      · subst h; simp [h2]
      · simp [h]

@[simp] theorem get?_insert (t : WorkerTable) (k k' : String) (w : Worker) :
    (t.insert k w).get? k' = if k' = k then some w else t.get? k' :=
  lookup_insertEntry k k' w t.entries

theorem lookup_filter (k k' : String) :
    ∀ es : List (String × Worker),
      (es.filter (·.1 != k)).lookup k' = if k' = k then none else es.lookup k'
  | [] => by simp
  | e :: es => by
    rw [List.filter_cons]
    by_cases he : e.1 = k
    · simp only [he, bne_self_eq_false, Bool.false_eq_true, if_false, lookup_filter k k' es,
        lookup_cons_ite]
      by_cases h : k' = k <;> simp [h]
    · simp only [bne_iff_ne, ne_eq, he, not_false_eq_true, if_true, lookup_cons_ite,
        lookup_filter k k' es]
      by_cases h : k' = k
      · subst h; simp [Ne.symm he]
      · simp [h]

@[simp] theorem get?_erase (t : WorkerTable) (k k' : String) :
    (t.erase k).get? k' = if k' = k then none else t.get? k' :=
  lookup_filter k k' t.entries

@[simp] theorem get?_empty (k : String) : empty.get? k = none := rfl

theorem at_eq_ok {t : WorkerTable} {k : String} {w : Worker} :
    t.«at» k = .ok w ↔ t.get? k = some w := by
  unfold WorkerTable.«at»; cases t.get? k <;> simp

/-! ### Where a key sits -/

theorem data_lt_iff (a b : String) : a.data < b.data ↔ a < b := String.lt_iff_toList_lt.symm

/-- A key found in a sorted entry list splits it into smaller keys, its entry, larger keys. -/
theorem lookup_split {k : String} {w : Worker} :
    ∀ {es : List (String × Worker)}, es.Pairwise (fun a b => a.1 < b.1) → es.lookup k = some w →
      ∃ pre post, es = pre ++ (k, w) :: post ∧ (∀ e ∈ pre, e.1 < k) ∧ ∀ e ∈ post, k < e.1
  | [], _, h => by simp at h
  | e :: es, hs, h => by
    rw [List.pairwise_cons] at hs
    rw [lookup_cons_ite] at h
    split_ifs at h with hk
    · cases h
      exact ⟨[], es, by simp [hk], by simp, fun e' he' => hk ▸ hs.1 e' he'⟩
    · obtain ⟨pre, post, rfl, hpre, hpost⟩ := lookup_split hs.2 h
      exact ⟨e :: pre, post, rfl, List.forall_mem_cons.mpr ⟨hs.1 (k, w) (by simp), hpre⟩, hpost⟩

/-- The empty key is the least: a record under it is the first entry. -/
theorem keys_of_get?_empty {t : WorkerTable} {w : Worker} (h : t.get? "" = some w) :
    ∃ ks, t.keys = "" :: ks := by
  obtain ⟨pre, post, he, hpre, -⟩ := lookup_split t.sorted h
  cases pre with
  | nil => exact ⟨post.map (·.1), by simp [keys, he]⟩
  | cons e _ =>
    have hlt : e.1.data < [] := (data_lt_iff e.1 "").mpr (hpre e (List.mem_cons_self _ _))
    generalize e.1.data = l at hlt
    cases hlt

theorem insertEntry_split {k : String} (w w' : Worker) (post : List (String × Worker)) :
    ∀ pre : List (String × Worker), (∀ e ∈ pre, e.1 < k) →
      insertEntry k w' (pre ++ (k, w) :: post) = pre ++ (k, w') :: post
  | [], _ => by simp [insertEntry, data_lt_iff]
  | e :: pre, h => by
    have he : e.1 < k := h e (List.mem_cons_self _ _)
    rw [List.cons_append, insertEntry, if_neg (by rw [data_lt_iff]; exact lt_asymm he),
      if_neg (ne_of_gt he), insertEntry_split w w' post pre (fun e' h' => h e' (by simp [h']))]
    rfl

theorem filter_split {k : String} (w : Worker) (pre post : List (String × Worker))
    (hpre : ∀ e ∈ pre, e.1 < k) (hpost : ∀ e ∈ post, k < e.1) :
    (pre ++ (k, w) :: post).filter (·.1 != k) = pre ++ post := by
  rw [List.filter_append, List.filter_cons, List.filter_eq_self.mpr, List.filter_eq_self.mpr]
  · simp
  · exact fun e he => by simpa using ne_of_gt (hpost e he)
  · exact fun e he => by simpa using ne_of_lt (hpre e he)

/-- `workers_[k] = w` holds the entries of `erase k` and `(k, w)`. -/
theorem insertEntry_perm (k : String) (w : Worker) :
    ∀ {es : List (String × Worker)}, es.Pairwise (fun a b => a.1 < b.1) →
      (insertEntry k w es).Perm ((k, w) :: es.filter (·.1 != k))
  | [], _ => by simp [insertEntry]
  | e :: es, hs => by
    rw [List.pairwise_cons] at hs
    have hfilter : es.filter (·.1 != k) = es ↔ ∀ e' ∈ es, e'.1 ≠ k := by
      simp [List.filter_eq_self]
    by_cases h1 : k.data < e.1.data
    · have hk : k < e.1 := (data_lt_iff _ _).mp h1
      have hkeep : (e.1 != k) = true := by simpa using ne_of_gt hk
      simp only [insertEntry, if_pos h1, List.filter_cons, hkeep, if_true,
        hfilter.mpr fun e' he' => ne_of_gt (hk.trans (hs.1 e' he')), List.Perm.refl]
    by_cases h2 : k = e.1
    · subst h2
      rw [insertEntry, if_neg h1, if_pos rfl, List.filter_cons_of_neg (by simp),
        hfilter.mpr fun e' he' => ne_of_gt (hs.1 e' he')]
    · have hkeep : (e.1 != k) = true := by simpa using Ne.symm h2
      simp only [insertEntry, if_neg h1, if_neg h2, List.filter_cons, hkeep, if_true]
      exact ((insertEntry_perm k w hs.2).cons e).trans (List.Perm.swap _ _ _)

theorem mem_of_get? {t : WorkerTable} {k : String} {w : Worker} (h : t.get? k = some w) :
    (k, w) ∈ t.entries := by
  obtain ⟨pre, post, he, -, -⟩ := lookup_split t.sorted h
  simp [he]

theorem lookup_of_mem {e : String × Worker} :
    ∀ {es : List (String × Worker)}, es.Pairwise (fun a b => a.1 < b.1) → e ∈ es →
      es.lookup e.1 = some e.2
  | e' :: es, hs, h => by
    rw [List.pairwise_cons] at hs
    rw [lookup_cons_ite]
    rcases List.mem_cons.mp h with rfl | h
    · exact if_pos rfl
    · rw [if_neg (hs.1 e h).ne', lookup_of_mem hs.2 h]

/-- Each key is held once, so an entry is what `find` returns for its key. -/
theorem get?_of_mem {t : WorkerTable} {e : String × Worker} (h : e ∈ t.entries) :
    t.get? e.1 = some e.2 :=
  lookup_of_mem t.sorted h

theorem mem_insert {t : WorkerTable} {k : String} {w : Worker} {e : String × Worker}
    (h : e ∈ (t.insert k w).entries) : e = (k, w) ∨ e ∈ t.entries :=
  mem_insertEntry h

/-- An entry of `t.insert k w` is the new one, or an entry of `t` under another key. -/
theorem mem_insert_ne {t : WorkerTable} {k : String} {w : Worker} {e : String × Worker}
    (h : e ∈ (t.insert k w).entries) : e = (k, w) ∨ e.1 ≠ k ∧ e ∈ t.entries := by
  by_cases hk : e.1 = k
  · have he := get?_of_mem h
    rw [get?_insert, if_pos hk] at he
    exact .inl (Prod.ext hk (Option.some.inj he).symm)
  · exact (mem_insert h).imp_right fun he => ⟨hk, he⟩

theorem mem_erase {t : WorkerTable} {k : String} {e : String × Worker}
    (h : e ∈ (t.erase k).entries) : e ∈ t.entries :=
  (List.mem_filter.mp h).1

theorem insertEntry_insertEntry (k : String) (a b : Worker) :
    ∀ es : List (String × Worker), insertEntry k b (insertEntry k a es) = insertEntry k b es
  | [] => by simp [insertEntry, data_lt_iff]
  | e :: es => by
    by_cases h1 : k.data < e.1.data
    · simp [insertEntry, h1, data_lt_iff]
    by_cases h2 : k = e.1
    · simp [insertEntry, h1, h2, data_lt_iff]
    · simp only [insertEntry, if_neg h1, if_neg h2, insertEntry_insertEntry k a b es]

@[simp] theorem insert_insert (t : WorkerTable) (k : String) (a b : Worker) :
    (t.insert k a).insert k b = t.insert k b :=
  WorkerTable.ext (insertEntry_insertEntry k a b t.entries)

theorem keys_nodup (t : WorkerTable) : t.keys.Nodup :=
  List.pairwise_map.mpr (t.sorted.imp ne_of_lt)

/-! ### The items a table holds -/

theorem mem_items {t : WorkerTable} {y : Item} : y ∈ t.items ↔ ∃ e ∈ t.entries, y ∈ e.2.items :=
  List.mem_flatMap

theorem mem_items_insert {t : WorkerTable} {k : String} {w : Worker} {y : Item}
    (h : y ∈ (t.insert k w).items) : y ∈ w.items ∨ y ∈ t.items := by
  obtain ⟨e, he, hy⟩ := mem_items.mp h
  rcases mem_insert he with rfl | he
  · exact .inl hy
  · exact .inr (mem_items.mpr ⟨e, he, hy⟩)

theorem mem_items_erase {t : WorkerTable} {k : String} {y : Item}
    (h : y ∈ (t.erase k).items) : y ∈ t.items := by
  obtain ⟨e, he, hy⟩ := mem_items.mp h
  exact mem_items.mpr ⟨e, mem_erase he, hy⟩

theorem items_insert (t : WorkerTable) (k : String) (w : Worker) :
    (t.insert k w).items.toFinset = w.items.toFinset ∪ (t.erase k).items.toFinset := by
  simp only [items, insert]
  rw [List.toFinset_eq_of_perm _ _ ((insertEntry_perm k w t.sorted).flatMap_right _)]
  simp [erase]

theorem items_of_get? {t : WorkerTable} {k : String} {w : Worker} (h : t.get? k = some w) :
    t.items.toFinset = w.items.toFinset ∪ (t.erase k).items.toFinset := by
  obtain ⟨pre, post, he, hpre, hpost⟩ := lookup_split t.sorted h
  simp only [items, erase, he, filter_split w pre post hpre hpost, List.flatMap_append,
    List.flatMap_cons, List.toFinset_append]
  ac_rfl

theorem erase_of_get?_none {t : WorkerTable} {k : String} (h : t.get? k = none) :
    t.erase k = t := by
  refine WorkerTable.ext (List.filter_eq_self.mpr fun e he => ?_)
  have : k ≠ e.1 := by
    rintro rfl
    exact absurd (List.lookup_eq_none_iff.mp h e he) (by simp)
  simpa using Ne.symm this

theorem items_erase_subset (t : WorkerTable) (k : String) :
    (t.erase k).items.toFinset ⊆ t.items.toFinset := by
  cases h : t.get? k with
  | none => rw [erase_of_get?_none h]
  | some w => rw [items_of_get? h]; exact Finset.subset_union_right

end WorkerTable

end Flesnet
