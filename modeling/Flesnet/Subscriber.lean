import Flesnet.Steps

/-! The timeslice subscriber `fles::TimesliceSubscriber` (`lib/fles_ipc/TimesliceSubscriber.hpp`
    and `.cpp`).

    The subscriber reads serialized timeslices from a zeromq SUB socket. `get()` returns null
    once `eos_flag` is set, and otherwise receives one message and deserializes it with boost.
    If the body does not deserialize, `do_get()` sets `eos_flag` and returns null. The archive
    is constructed before the `try`, so a message whose archive header does not decode throws
    `archive_exception` out of `get()` instead, and so does a receive that throws. The `catch`
    takes `archive_exception` only: any other exception of the `new` or of the loads
    (`std::bad_alloc`, `std::length_error`) escapes too, and the object `new` made leaks. The
    socket is the sequence of what its receives give, and boost's reading is a parameter
    (`Decoded`).

    What the subscriber is for is stated without the flag: the timeslices in arrival order,
    then null for good (`streamFrom`). The flag machine refines it (`subscriber_stream`).
    `eos()` is true exactly when `get()` has returned null, and every message received is
    accounted for (`subscriber_eos`).

        eos_flag = false ──(message, body does not decode)──▶ eos_flag = true ⟲ (no receive)
              ⟲ (message holding a timeslice)
              ──(receive throws, header does not decode, other exception)──▶ exception -/

namespace Flesnet

/-- What one `recv` on the SUB socket gives: a message, or a `zmq::error_t`, which escapes. -/
inductive Received (μ : Type) where
  | message (m : μ)
  | raised

/-- What reading a message makes of it: the `binary_iarchive` constructor, which runs before
    the `try`, rejects the archive header; `ia >> *sts`, inside it, rejects the body with an
    `archive_exception`; the constructor, the `new` or the loads throw some other exception; or
    the message holds a timeslice. -/
inductive Decoded (α : Type) where
  | badHeader
  | badBody
  | otherException
  | timeslice (ts : α)

/-- An exception that escapes `do_get()`. -/
inductive SubscriberFault where
  | zmqError | archiveException | otherException
  deriving DecidableEq, Repr

/-- `TimesliceSubscriber`: its `eos_flag` and how many messages its socket has given so far. -/
structure TimesliceSubscriber where
  eosFlag : Bool
  received : Nat
  deriving DecidableEq, Repr

namespace TimesliceSubscriber

/-- After the constructor (TimesliceSubscriber.cpp lines 7-12): no end of stream yet. -/
def init : TimesliceSubscriber := ⟨false, 0⟩

/-- `eos()` (TimesliceSubscriber.hpp line 42). -/
def eos (s : TimesliceSubscriber) : Bool := s.eosFlag

section
variable {μ α : Type} (socket : Nat → Received μ) (decode : μ → Decoded α)

/-- `do_get()` (TimesliceSubscriber.cpp lines 14-38), which `get()` wraps: the `n`-th receive
    gives `socket n`, and boost reads it as `decode` says. -/
def doGet (s : TimesliceSubscriber) : Except SubscriberFault (Option α × TimesliceSubscriber) :=
  if s.eosFlag then .ok (none, s)
  else match socket s.received with
    | .raised => .error .zmqError
    | .message m =>
      match decode m with
      | .badHeader => .error .archiveException
      | .badBody => .ok (none, { eosFlag := true, received := s.received + 1 })
      | .otherException => .error .otherException
      | .timeslice ts => .ok (some ts, { s with received := s.received + 1 })

/-- `n` calls of `get()` in a row, with what each returned. -/
def gets : Nat → TimesliceSubscriber →
    Except SubscriberFault (List (Option α) × TimesliceSubscriber)
  | 0, s => .ok ([], s)
  | n + 1, s => do
    let (x, s) ← doGet socket decode s
    let (xs, s) ← gets n s
    pure (x :: xs, s)

/-- What the subscriber is for, read from its documentation ("nullptr if end-of-file"): the
    timeslices of the messages in the order they arrive, up to the first message that is not one;
    from a message whose body does not decode on, end of stream for good; a receive that throws,
    an archive header that does not decode, or any exception but `archive_exception` while
    reading, an exception. -/
def streamFrom : Nat → Nat → Except SubscriberFault (List (Option α))
  | 0, _ => .ok []
  | n + 1, i =>
    match socket i with
    | .raised => .error .zmqError
    | .message m =>
      match decode m with
      | .badHeader => .error .archiveException
      | .badBody => .ok (List.replicate (n + 1) none)
      | .otherException => .error .otherException
      | .timeslice ts => (streamFrom n (i + 1)).map (some ts :: ·)

theorem doGet_of_eos {s : TimesliceSubscriber} (h : s.eosFlag = true) :
    doGet socket decode s = .ok (none, s) := by
  simp [doGet, h]

/-- After the end of stream every `get()` returns null and receives nothing. -/
theorem gets_of_eos {s : TimesliceSubscriber} (h : s.eosFlag = true) :
    ∀ n, gets socket decode n s = .ok (List.replicate n none, s)
  | 0 => rfl
  | n + 1 => by
    simp [gets, doGet_of_eos socket decode h, gets_of_eos h n, bind, Except.bind, pure,
      Except.pure, List.replicate_succ]

/-- The subscriber does what it is for: from a subscriber that has received `i` messages and not
    yet met the end of stream, `n` calls of `get()` return the stream from message `i` on. -/
theorem gets_streamFrom : ∀ (n i : Nat),
    (gets socket decode n ⟨false, i⟩).map Prod.fst = streamFrom socket decode n i
  | 0, _ => rfl
  | n + 1, i => by
    simp only [gets, doGet, streamFrom, Bool.false_eq_true, if_false]
    cases socket i with
    | raised => rfl
    | message m =>
      dsimp only
      cases decode m with
      | badHeader | otherException => rfl
      | badBody =>
        have heos : (⟨true, i + 1⟩ : TimesliceSubscriber).eosFlag = true := rfl
        simp [gets_of_eos socket decode heos, bind, Except.bind, pure, Except.pure, Except.map,
          List.replicate_succ]
      | timeslice ts =>
        rw [← gets_streamFrom n (i + 1)]
        simp only [bind, Except.bind, pure, Except.pure, Except.map]
        cases gets socket decode n ⟨false, i + 1⟩ <;> rfl

/-- One `get()`: the flag is raised exactly by a null, and a message is received for a timeslice
    returned or for the null that raises the flag. -/
theorem doGet_counts {s s' : TimesliceSubscriber} {x : Option α}
    (h : doGet socket decode s = .ok (x, s')) :
    s'.eosFlag = (s.eosFlag || x.isNone) ∧
      s'.received + s.eosFlag.toNat = s.received + x.isSome.toNat + s'.eosFlag.toNat := by
  unfold doGet at h
  split at h
  · cases h; simp [*]
  · next he =>
    split at h
    · cases h
    · split at h <;> cases h <;> simp [he]

theorem gets_counts : ∀ (n : Nat) {s s' : TimesliceSubscriber} {outs : List (Option α)},
    gets socket decode n s = .ok (outs, s') →
      s'.eosFlag = (s.eosFlag || outs.any Option.isNone) ∧
        s'.received + s.eosFlag.toNat =
          s.received + (outs.filter Option.isSome).length + s'.eosFlag.toNat
  | 0, s, s', outs, h => by cases h; simp
  | n + 1, s, s', outs, h => by
    obtain ⟨⟨x, s₁⟩, h₁, h⟩ := bind_eq_ok.mp h
    obtain ⟨⟨xs, s₂⟩, h₂, h⟩ := bind_eq_ok.mp h
    cases h
    obtain ⟨he₁, hr₁⟩ := doGet_counts socket decode h₁
    obtain ⟨he₂, hr₂⟩ := gets_counts n h₂
    have hlen : ((x :: xs).filter Option.isSome).length =
        x.isSome.toNat + (xs.filter Option.isSome).length := by
      cases x <;> simp [List.filter_cons, Nat.add_comm]
    exact ⟨by rw [he₂, he₁, List.any_cons, Bool.or_assoc], by omega⟩

/-- The subscriber refines its stream: `n` calls of `get()` on a new subscriber return the
    timeslices of the messages in the order they arrive, up to the first message that is not a
    timeslice, then null for good if that message's body does not decode; a receive that throws,
    an archive header that does not decode, or an exception other than `archive_exception`
    while reading escapes instead. -/
theorem subscriber_stream (n : Nat) :
    (gets socket decode n init).map Prod.fst = streamFrom socket decode n 0 :=
  gets_streamFrom socket decode n 0

/-- `eos()` tells whether `get()` has returned null, and no message is skipped or read twice:
    the subscriber has received one message per timeslice returned, plus the one whose body ended
    the stream. -/
theorem subscriber_eos {n : Nat} {outs : List (Option α)} {s : TimesliceSubscriber}
    (h : gets socket decode n init = .ok (outs, s)) :
    s.eos = outs.any Option.isNone ∧
      s.received = (outs.filter Option.isSome).length + s.eos.toNat := by
  simpa [init, eos] using gets_counts socket decode n h

end

/-- A publisher whose third message does not decode. -/
def twoThenEnd : Nat → Received Nat := fun i => .message i

/-- Messages below 2 hold a timeslice; the others have a body that does not decode. -/
def decodeBelowTwo (m : Nat) : Decoded Nat := if m < 2 then .timeslice m else .badBody

theorem subscriber_eos_twoThenEnd :
    gets twoThenEnd decodeBelowTwo 4 init = .ok ([some 0, some 1, none, none], ⟨true, 3⟩) ∧
      (⟨true, 3⟩ : TimesliceSubscriber).eos = [some 0, some 1, none, none].any Option.isNone ∧
      (⟨true, 3⟩ : TimesliceSubscriber).received =
        ([some 0, some 1, none, none].filter Option.isSome).length +
          (⟨true, 3⟩ : TimesliceSubscriber).eos.toNat :=
  have h : gets twoThenEnd decodeBelowTwo 4 init = .ok ([some 0, some 1, none, none], ⟨true, 3⟩) :=
    rfl
  ⟨h, subscriber_eos twoThenEnd decodeBelowTwo h⟩

end TimesliceSubscriber

end Flesnet
