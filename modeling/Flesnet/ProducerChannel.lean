import Flesnet.Steps

/-! The producer channel: IDs in through `std::stoull`, completions out through
    `std::to_string`.

    `send_pending_completions` catches a `zmq::error_t` around the whole loop and clears the
    ledger afterwards, so a send that throws loses every ID after it (`drain_drops_after_failure`).
    `std::stoull` is not a strict reader: it skips blanks, takes a sign, leading zeros and any
    trailing text, and the exceptions it throws escape `on_generator_pollin`. `producer_id_codec`
    says what it reads of every frame, part by part (`NumberText`). -/

namespace Flesnet
open ItemDistributor

/-! ### The drain -/

theorem sendCompletions_raised (net : Transport) :
    ∀ (ids : List ItemID) (st : ItemDistributor) (k : Nat), k < ids.length →
      net (st.sent.length + k) = .raised → (∀ i < k, net (st.sent.length + i) ≠ .raised) →
      ∃ l, (sendCompletions net ids st).sent = st.sent ++ l ∧
        l.map Prod.fst = (ids.take (k + 1)).map .completion
  | [], _, _, hk, _, _ => absurd hk (Nat.not_lt_zero _)
  | id :: ids, st, 0, _, hf, _ =>
    ⟨[(.completion id, .raised)], by rw [Nat.add_zero] at hf; simp [sendCompletions, hf, log], rfl⟩
  | id :: ids, st, k + 1, hk, hf, hok => by
    have h0 : net st.sent.length ≠ .raised := by simpa using hok 0 (Nat.succ_pos k)
    obtain ⟨l, hl, hmap⟩ := sendCompletions_raised net ids
      (st.log (.completion id) (net st.sent.length)) k (by simpa using hk)
      (by simpa [Nat.add_right_comm, Nat.add_assoc] using hf)
      fun i hi => by simpa [Nat.add_right_comm, Nat.add_assoc] using hok (i + 1) (by omega)
    refine ⟨(.completion id, net st.sent.length) :: l, ?_, by simp [hmap]⟩
    rw [sendCompletions, if_neg h0, hl, log_sent, List.append_assoc]
    rfl

/-- A send that throws in the drain loses the rest of the ledger: if the `k`-th ID is the first
    whose send throws, the IDs after it are never sent, the failed one is not kept, and the
    ledger is cleared all the same. -/
theorem drain_drops_after_failure (net : Transport) (st : ItemDistributor) {k : Nat}
    (hk : k < st.completedItems.length) (hfail : net (st.sent.length + k) = .raised)
    (hok : ∀ i < k, net (st.sent.length + i) ≠ .raised) :
    (sendPendingCompletions net st).completedItems = [] ∧
      ∃ l, (sendPendingCompletions net st).sent = st.sent ++ l ∧
        l.map Prod.fst = (st.completedItems.take (k + 1)).map .completion :=
  ⟨rfl, sendCompletions_raised net st.completedItems st k hk hfail hok⟩

/-- A network on which every send throws. -/
def raiseAll : Transport := ⟨fun _ => true, fun _ => .raised⟩

/-- A ledger of two IDs. -/
def ledgerState : ItemDistributor := { init with completedItems := [5, 6] }

theorem drain_drops_after_failure_ledgerState :
    (sendPendingCompletions raiseAll ledgerState).completedItems = [] ∧
      ∃ l, (sendPendingCompletions raiseAll ledgerState).sent = ledgerState.sent ++ l ∧
        l.map Prod.fst = ([5, 6].take 1).map .completion :=
  drain_drops_after_failure raiseAll ledgerState (by decide) rfl
    (fun i hi => absurd hi (Nat.not_lt_zero i))

/-! ### The ID reader -/

/-- What `receive_producer_item` and `on_generator_pollin` do with the ID frame. Every frame
    splits into leading blanks, a sign, the longest run of digits and an unread tail, and
    `std::stoull` decides on the digits alone: none is `std::invalid_argument`, a value of 2^64 or
    more is `std::out_of_range`, and otherwise the ID is the value, negated after a `-`. So leading
    blanks and zeros of any length, a sign and trailing text are accepted around the canonical
    text `std::to_string n`. An accepted frame becomes the next item with that ID; the exception
    of a rejected one escapes `on_generator_pollin`. -/
theorem producer_id_codec (net : Transport) (st : ItemDistributor) (rest : List String) :
    (∀ frame : String, ∃ t : NumberText, t.text = frame.data) ∧
    (∀ t : NumberText, stoull (String.mk t.text) =
      if t.digits = [] then .error .invalidArgument
      else if UInt64.size ≤ digitsValue t.digits then .error .outOfRange
      else .ok (if t.sign = ['-'] then 0 - UInt64.ofNat (digitsValue t.digits)
        else UInt64.ofNat (digitsValue t.digits))) ∧
    (∀ (blanks sign : List Char) (zeros : Nat) (n : ItemID) (s : String),
      (∀ c ∈ blanks, isSpace c = true) → (sign = [] ∨ sign = ['+'] ∨ sign = ['-']) →
      (∀ c ∈ s.data.head?, isDigit c = false) →
      stoull (String.mk (blanks ++ sign ++ List.replicate zeros '0') ++ toString n ++ s) =
        .ok (if sign = ['-'] then 0 - n else n)) ∧
    (∀ frame v, stoull frame = .ok v → receiveProducerItem (frame :: rest) st =
      .ok (⟨st.allocated, v, rest.headD ""⟩,
        { st with allocated := st.allocated + 1, received := st.received ++ [v] })) ∧
    (∀ frame e, stoull frame = .error e → onGeneratorPollin net (frame :: rest) st = .error e) :=
  ⟨fun frame => NumberText.exists_text frame.data,
    NumberText.stoull_text,
    fun _ _ zeros n _ hb hs ht => stoull_padded zeros n hb hs ht,
    fun frame v hv => by simp [receiveProducerItem, hv],
    fun frame e he => by simp [onGeneratorPollin, receiveProducerItem, he, bind, Except.bind]⟩

/-- The frame `007` is accepted as the ID 7, whose canonical text is `7`; the frame `abc`
    throws `std::invalid_argument` out of `on_generator_pollin`. -/
theorem producer_accepts_noncanonical :
    stoull "007" = .ok 7 ∧ toString (7 : ItemID) ≠ "007" ∧
      onGeneratorPollin deliverAll ["abc"] init = .error .invalidArgument :=
  ⟨rfl, by decide, rfl⟩

end Flesnet
