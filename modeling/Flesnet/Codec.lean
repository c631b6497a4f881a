import Flesnet.Worker
import Mathlib.Data.List.Basic

/-! The text codecs of the broker.

    The producer sends an item ID as decimal text, which `receive_producer_item` converts with
    `std::stoull`; the completions go back as `std::to_string` of the ID. REGISTER and COMPLETE
    bodies are read with a `std::stringstream` and `>>`. Both number readers are `strtoull`
    underneath: blanks are skipped, a sign is allowed (a `-` negates modulo 2^64), and the longest
    run of decimal digits is read; no digits or a value of 2^64 or more is a failure, and what
    follows the digits is left unread. `std::to_string` of an unsigned value is Lean's `toString`.
    The main results are the round trip `strtoull_toString` and `NumberText.stoull_text`, which
    says what `std::stoull` reads of every text, part by part. -/

namespace Flesnet

/-- `isspace` in the "C" locale: blank, or tab through carriage return. -/
def isSpace (c : Char) : Bool := c.toNat = 32 || (9 ≤ c.toNat && c.toNat ≤ 13)

/-- A decimal digit. -/
def isDigit (c : Char) : Bool := 48 ≤ c.toNat && c.toNat ≤ 57

/-- The value of a run of decimal digits, most significant first. -/
def digitsValue (ds : List Char) : Nat := ds.foldl (fun n c => 10 * n + (c.toNat - 48)) 0

/-- The optional sign `strtoull` reads after the blanks; `true` for `-`. -/
def takeSign : List Char → Bool × List Char
  | c :: t => if c = '-' then (true, t) else if c = '+' then (false, t) else (false, c :: t)
  | [] => (false, [])

/-- What `strtoull(s, &end, 10)` finds: no digits, a value out of range (`ERANGE`), or the
    value and the text after the digits. -/
inductive Conversion where
  | noDigits
  | outOfRange
  | value (v : UInt64) (rest : List Char)

/-- The conversion after the sign: the longest run of decimal digits, its value against 2^64,
    and the negation a `-` asks for. -/
def convertDigits (negative : Bool) (t : List Char) : Conversion :=
  let ds := t.takeWhile isDigit
  if ds = [] then .noDigits
  else if UInt64.size ≤ digitsValue ds then .outOfRange
  else
    let v := UInt64.ofNat (digitsValue ds)
    .value (if negative then 0 - v else v) (t.dropWhile isDigit)

/-- `strtoull(s, &end, 10)`: blanks, an optional sign, then the digits. -/
def strtoull (s : List Char) : Conversion :=
  let (negative, t) := takeSign (s.dropWhile isSpace)
  convertDigits negative t

/-- `std::stoull(str)`: `std::invalid_argument` without digits, `std::out_of_range` when the
    value does not fit; trailing text is ignored. -/
def stoull (str : String) : Except Fault ItemID :=
  match strtoull str.data with
  | .noDigits => .error .invalidArgument
  | .outOfRange => .error .outOfRange
  | .value v _ => .ok v

/-- `s >> n` for an unsigned `n` (`size_t`, `ItemID`): the stream fails where `strtoull` finds
    no digits or overflows. -/
def extractUnsigned (s : List Char) : Option (UInt64 × List Char) :=
  match strtoull s with
  | .value v rest => some (v, rest)
  | _ => none

/-- `s >> str` for a `std::string`: skip blanks, read up to the next blank; the stream fails
    when nothing is left. -/
def extractToken (s : List Char) : Option (String × List Char) :=
  let t := s.dropWhile isSpace
  match t.takeWhile (!isSpace ·) with
  | [] => none
  | tok => some (String.mk tok, t.dropWhile (!isSpace ·))

/-- Modelled from the spec: `operator>>` for `WorkerQueuePolicy` is declared in
    `ItemWorkerProtocol.hpp`, which is not in this repository; it reads one of the tokens `Async`,
    `PrebufferOne`, `Skip`, and fails on any other. -/
def extractPolicy (s : List Char) : Option (WorkerQueuePolicy × List Char) := do
  let (tok, rest) ← extractToken s
  match tok with
  | "Async" => some (.async, rest)
  | "PrebufferOne" => some (.prebufferOne, rest)
  | "Skip" => some (.skip, rest)
  | _ => none

/-- Lines 217-222: `s >> command >> stride >> offset >> queue_policy >> client_name` into a
    fresh record; `none` when the stream fails. -/
def parseRegister (message : String) : Option Worker := do
  let (_, r) ← extractToken message.data
  let (stride, r) ← extractUnsigned r
  let (offset, r) ← extractUnsigned r
  let (queuePolicy, r) ← extractPolicy r
  let (clientName, _) ← extractToken r
  pure { stride, offset, queuePolicy, clientName, waitingItems := [], outstandingItems := [] }

/-- Lines 227-230: `s >> command >> id`; `none` when the stream fails. -/
def parseComplete (message : String) : Option ItemID := do
  let (_, r) ← extractToken message.data
  let (id, _) ← extractUnsigned r
  pure id

/-- A record REGISTER creates has empty queues. -/
theorem parseRegister_queues {m : String} {c : Worker} (h : parseRegister m = some c) :
    c.waitingItems = [] ∧ c.outstandingItems = [] := by
  unfold parseRegister at h
  repeat obtain ⟨⟨_, _⟩, -, h⟩ := Option.bind_eq_some.mp h
  cases h
  exact ⟨rfl, rfl⟩

/-! ### `std::to_string` and `std::stoull` round-trip -/

theorem digitChar_toNat : ∀ d, d < 10 → (Nat.digitChar d).toNat = 48 + d := by decide

theorem digitsValue_append_singleton (ds : List Char) (c : Char) :
    digitsValue (ds ++ [c]) = 10 * digitsValue ds + (c.toNat - 48) := by
  simp [digitsValue]

/-- The digits `toDigitsCore` writes in front of its accumulator spell the number. -/
theorem toDigitsCore_spec : ∀ fuel n (ds : List Char), n < fuel →
    ∃ L, Nat.toDigitsCore 10 fuel n ds = L ++ ds ∧ L ≠ [] ∧ (∀ c ∈ L, isDigit c) ∧
      digitsValue L = n
  | 0, n, _, h => absurd h (Nat.not_lt_zero n)
  | fuel + 1, n, ds, h => by
    have hd := digitChar_toNat (n % 10) (Nat.mod_lt n (by decide))
    have hdig : isDigit (Nat.digitChar (n % 10)) := by simp [isDigit, hd]; omega
    have hstep : Nat.toDigitsCore 10 (fuel + 1) n ds = if n / 10 = 0 then Nat.digitChar (n % 10) :: ds
        else Nat.toDigitsCore 10 fuel (n / 10) (Nat.digitChar (n % 10) :: ds) := rfl
    rw [hstep]
    split_ifs with h0
    · refine ⟨[Nat.digitChar (n % 10)], rfl, by simp, by simpa using hdig, ?_⟩
      simp [digitsValue, hd]; omega
    · obtain ⟨L, hL, -, hL10, hval⟩ :=
        toDigitsCore_spec fuel (n / 10) (Nat.digitChar (n % 10) :: ds) (by omega)
      refine ⟨L ++ [Nat.digitChar (n % 10)], by simp [hL], by simp, ?_, ?_⟩
      · simpa [or_imp, forall_and] using And.intro hL10 hdig
      · rw [digitsValue_append_singleton, hval, hd]; omega

theorem isSpace_of_isDigit {c : Char} (h : isDigit c) : isSpace c = false := by
  simp only [isDigit, Bool.and_eq_true, decide_eq_true_eq] at h
  simp only [isSpace, Bool.or_eq_false_iff, decide_eq_false_iff_not, Bool.and_eq_false_imp,
    decide_eq_true_eq]
  omega

theorem ne_sign_of_isDigit {c : Char} (h : isDigit c) : c ≠ '+' ∧ c ≠ '-' := by
  simp only [isDigit, Bool.and_eq_true, decide_eq_true_eq] at h
  exact ⟨fun he => by subst he; simp at h, fun he => by subst he; simp at h⟩

/-- The conversion of a run of digits followed by a non-digit: the run decides. -/
theorem convertDigits_split (negative : Bool) {L rest : List Char} (hdig : ∀ c ∈ L, isDigit c)
    (hrest : ∀ c ∈ rest.head?, isDigit c = false) :
    convertDigits negative (L ++ rest) =
      if L = [] then .noDigits
      else if UInt64.size ≤ digitsValue L then .outOfRange
      else .value (if negative then 0 - UInt64.ofNat (digitsValue L)
        else UInt64.ofNat (digitsValue L)) rest := by
  have htake : (L ++ rest).takeWhile isDigit = L := by
    rw [List.takeWhile_append_of_pos hdig]
    cases rest <;> simp_all [List.takeWhile_cons]
  have hdrop : (L ++ rest).dropWhile isDigit = rest := by
    rw [List.dropWhile_append_of_pos hdig]
    cases rest <;> simp_all [List.dropWhile_cons]
  simp only [convertDigits, htake, hdrop]

/-- A run of digits is converted whole, up to where the digits end. -/
theorem convertDigits_digits (negative : Bool) {L rest : List Char} (hne : L ≠ [])
    (hdig : ∀ c ∈ L, isDigit c) (hv : digitsValue L < UInt64.size)
    (hrest : ∀ c ∈ rest.head?, isDigit c = false) :
    convertDigits negative (L ++ rest) =
      .value (if negative then 0 - UInt64.ofNat (digitsValue L) else UInt64.ofNat (digitsValue L))
        rest := by
  rw [convertDigits_split negative hdig hrest, if_neg hne, if_neg (not_le.mpr hv)]

theorem strtoull_space {c : Char} (hc : isSpace c = true) (s : List Char) :
    strtoull (c :: s) = strtoull s := by
  simp [strtoull, List.dropWhile_cons, hc]

/-- Leading blanks are skipped. -/
theorem strtoull_blanks {blanks : List Char} (hb : ∀ c ∈ blanks, isSpace c = true)
    (s : List Char) : strtoull (blanks ++ s) = strtoull s := by
  induction blanks with
  | nil => rfl
  | cons c blanks ih =>
    rw [List.cons_append, strtoull_space (hb c (List.mem_cons_self _ _)),
      ih fun d hd => hb d (List.mem_cons_of_mem _ hd)]

theorem strtoull_plus (s : List Char) : strtoull ('+' :: s) = convertDigits false s := rfl

theorem strtoull_minus (s : List Char) : strtoull ('-' :: s) = convertDigits true s := rfl

/-- A text that starts with neither a blank nor a sign goes to the digits as it is. -/
theorem strtoull_plain {s : List Char} (hs : ∀ c ∈ s.head?, isSpace c = false ∧ c ≠ '+' ∧ c ≠ '-') :
    strtoull s = convertDigits false s := by
  cases s with
  | nil => rfl
  | cons c s =>
    obtain ⟨hsp, hp, hm⟩ := hs c rfl
    simp only [strtoull, List.dropWhile_cons, hsp, Bool.false_eq_true, if_false, takeSign,
      if_neg hp, if_neg hm]

theorem strtoull_of_isDigit {c : Char} (hc : isDigit c) (s : List Char) :
    strtoull (c :: s) = convertDigits false (c :: s) :=
  strtoull_plain fun _ h => Option.some_inj.mp h ▸ ⟨isSpace_of_isDigit hc, ne_sign_of_isDigit hc⟩

/-- `strtoull` reads a run of digits whole and stops where the digits end. -/
theorem strtoull_digits {L rest : List Char} (hne : L ≠ []) (hdig : ∀ c ∈ L, isDigit c)
    (hv : digitsValue L < UInt64.size) (hrest : ∀ c ∈ rest.head?, isDigit c = false) :
    strtoull (L ++ rest) = .value (UInt64.ofNat (digitsValue L)) rest := by
  obtain ⟨c, t, rfl⟩ := List.exists_cons_of_ne_nil hne
  rw [List.cons_append, strtoull_of_isDigit (hdig c (List.mem_cons_self _ _)), ← List.cons_append,
    convertDigits_digits false hne hdig hv hrest]
  rfl

/-- `std::to_string n` is a run of digits whose value is `n`. -/
theorem toString_digits (n : UInt64) :
    (toString n).data ≠ [] ∧ (∀ c ∈ (toString n).data, isDigit c) ∧
      digitsValue (toString n).data = n.toNat := by
  obtain ⟨L, hL, hne, hdig, hval⟩ := toDigitsCore_spec (n.toNat + 1) n.toNat [] (by omega)
  have hdata : (toString n).data = L := by
    show Nat.toDigitsCore 10 (n.toNat + 1) n.toNat [] = L
    simpa using hL
  exact hdata ▸ ⟨hne, hdig, hval⟩

/-- `strtoull` reads `std::to_string n` back as `n`, up to the first non-digit. -/
theorem strtoull_toString (n : UInt64) (rest : List Char)
    (hrest : ∀ c ∈ rest.head?, isDigit c = false) :
    strtoull ((toString n).data ++ rest) = .value n rest := by
  obtain ⟨hne, hdig, hval⟩ := toString_digits n
  rw [strtoull_digits hne hdig (hval ▸ n.toNat_lt_size) hrest, hval,
    UInt64.toNat.inj (UInt64.toNat_ofNat_of_lt n.toNat_lt_size)]

/-! ### What `strtoull` reads, part by part -/

/-- A text as `strtoull` splits it: the leading blanks, the optional sign, the longest run of
    digits after them, and the text left unread. Each part is as long as `strtoull` takes it. -/
structure NumberText where
  blanks : List Char
  sign : List Char
  digits : List Char
  tail : List Char
  blanks_space : ∀ c ∈ blanks, isSpace c = true
  sign_mem : sign = [] ∨ sign = ['+'] ∨ sign = ['-']
  digits_digit : ∀ c ∈ digits, isDigit c = true
  blanks_max : ∀ c ∈ (sign ++ digits ++ tail).head?, isSpace c = false
  sign_max : sign = [] → ∀ c ∈ (digits ++ tail).head?, c ≠ '+' ∧ c ≠ '-'
  digits_max : ∀ c ∈ tail.head?, isDigit c = false

namespace NumberText

/-- The text itself. -/
def text (t : NumberText) : List Char := t.blanks ++ t.sign ++ t.digits ++ t.tail

/-- `strtoull` skips the blanks, reads the sign and converts the digits. -/
theorem strtoull_text (t : NumberText) :
    strtoull t.text = convertDigits (t.sign = ['-']) (t.digits ++ t.tail) := by
  have hmax := t.blanks_max
  have hsign := t.sign_max
  rw [text, List.append_assoc, List.append_assoc, strtoull_blanks t.blanks_space]
  rcases t.sign_mem with h | h | h <;> rw [h] at hmax hsign ⊢
  · exact strtoull_plain fun c hc => ⟨hmax c (by simpa using hc), hsign rfl c hc⟩
  · exact strtoull_plus _
  · exact strtoull_minus _

/-- `std::stoull` of a text, by its parts: no digits is `std::invalid_argument`, digits worth
    2^64 or more are `std::out_of_range`, and otherwise their value, negated after a `-`. -/
theorem stoull_text (t : NumberText) :
    stoull (String.mk t.text) =
      if t.digits = [] then .error .invalidArgument
      else if UInt64.size ≤ digitsValue t.digits then .error .outOfRange
      else .ok (if t.sign = ['-'] then 0 - UInt64.ofNat (digitsValue t.digits)
        else UInt64.ofNat (digitsValue t.digits)) := by
  simp only [stoull, strtoull_text, convertDigits_split _ t.digits_digit t.digits_max,
    decide_eq_true_eq]
  split_ifs <;> rfl

theorem head?_dropWhile_false {p : Char → Bool} (l : List Char) :
    ∀ c ∈ (l.dropWhile p).head?, p c = false := fun c hc => by
  have h := List.head?_dropWhile_not p l
  rwa [Option.mem_def.mp hc] at h

/-- Every text splits as `strtoull` reads it. -/
theorem exists_text (s : List Char) : ∃ t : NumberText, t.text = s := by
  obtain ⟨sign, w, hsw, hsign, hmax⟩ : ∃ sign w, sign ++ w = s.dropWhile isSpace ∧
      (sign = [] ∨ sign = ['+'] ∨ sign = ['-']) ∧
      (sign = [] → ∀ c ∈ w.head?, c ≠ '+' ∧ c ≠ '-') := by
    cases s.dropWhile isSpace with
    | nil => exact ⟨[], [], rfl, .inl rfl, nofun⟩
    | cons c v =>
      by_cases hp : c = '+'
      · exact ⟨['+'], v, by rw [hp]; rfl, .inr (.inl rfl), nofun⟩
      by_cases hm : c = '-'
      · exact ⟨['-'], v, by rw [hm]; rfl, .inr (.inr rfl), nofun⟩
      exact ⟨[], c :: v, rfl, .inl rfl, fun _ d hd => Option.some_inj.mp hd ▸ ⟨hp, hm⟩⟩
  have hw : w.takeWhile isDigit ++ w.dropWhile isDigit = w := List.takeWhile_append_dropWhile _ _
  refine ⟨⟨s.takeWhile isSpace, sign, w.takeWhile isDigit, w.dropWhile isDigit,
    fun _ hc => List.mem_takeWhile_imp hc, hsign, fun _ hc => List.mem_takeWhile_imp hc,
    ?_, fun h => by rw [hw]; exact hmax h, head?_dropWhile_false w⟩, ?_⟩
  · rw [List.append_assoc, hw, hsw]
    exact head?_dropWhile_false s
  · show s.takeWhile isSpace ++ sign ++ w.takeWhile isDigit ++ w.dropWhile isDigit = s
    rw [List.append_assoc, List.append_assoc, hw, hsw, List.takeWhile_append_dropWhile]

end NumberText

theorem digitsValue_zeros_append (zeros : Nat) (L : List Char) :
    digitsValue (List.replicate zeros '0' ++ L) = digitsValue L := by
  induction zeros with
  | zero => rfl
  | succ k ih => rw [List.replicate_succ, List.cons_append, ← ih]; rfl

/-- Leading blanks, a sign and leading zeros of any length before `std::to_string n`, and any text
    after it that does not start with a digit: `std::stoull` reads `n`, negated after a `-`. -/
theorem stoull_padded {blanks sign : List Char} (zeros : Nat) (n : UInt64) {s : String}
    (hb : ∀ c ∈ blanks, isSpace c = true) (hs : sign = [] ∨ sign = ['+'] ∨ sign = ['-'])
    (ht : ∀ c ∈ s.data.head?, isDigit c = false) :
    stoull (String.mk (blanks ++ sign ++ List.replicate zeros '0') ++ toString n ++ s) =
      .ok (if sign = ['-'] then 0 - n else n) := by
  obtain ⟨hne, hdig, hval⟩ := toString_digits n
  have hd : ∀ c ∈ List.replicate zeros '0' ++ (toString n).data, isDigit c = true := by
    simp only [List.mem_append, List.mem_replicate]
    rintro c (⟨-, rfl⟩ | hc)
    exacts [rfl, hdig c hc]
  have hZ : List.replicate zeros '0' ++ (toString n).data ≠ [] := by simp [hne]
  have hhead : ∀ c ∈ (List.replicate zeros '0' ++ (toString n).data ++ s.data).head?,
      isDigit c = true := fun c hc =>
    hd c (List.mem_of_mem_head? (by rwa [List.head?_append_of_ne_nil _ hZ] at hc))
  have hmax : ∀ c ∈ (sign ++ (List.replicate zeros '0' ++ (toString n).data) ++ s.data).head?,
      isSpace c = false := by
    rcases hs with rfl | rfl | rfl
    · exact fun c hc => isSpace_of_isDigit (hhead c hc)
    all_goals rintro c ⟨⟩; rfl
  let t : NumberText := ⟨blanks, sign, List.replicate zeros '0' ++ (toString n).data, s.data, hb, hs,
    hd, hmax, fun _ c hc => ne_sign_of_isDigit (hhead c hc), ht⟩
  have htext : String.mk t.text = String.mk (blanks ++ sign ++ List.replicate zeros '0') ++
      toString n ++ s :=
    congrArg String.mk (by simp only [NumberText.text, t, List.append_assoc]; rfl)
  rw [← htext, NumberText.stoull_text, if_neg hZ, digitsValue_zeros_append, hval,
    if_neg (not_le.mpr n.toNat_lt_size), UInt64.toNat.inj (UInt64.toNat_ofNat_of_lt n.toNat_lt_size)]

/-! ### REGISTER and COMPLETE bodies

    The worker side is not in this repository: the bodies below are the texts of the spec's wire table,
    each field separated by one blank. The stream reads them back field by field. -/

/-- Modelled from the spec: the policy tokens `Async`, `PrebufferOne`, `Skip`. -/
def WorkerQueuePolicy.token : WorkerQueuePolicy → String
  | .async => "Async"
  | .prebufferOne => "PrebufferOne"
  | .skip => "Skip"

/-- Modelled from the spec: `REGISTER <stride> <offset> <policy> <client_name>`. -/
def registerText (stride offset : UInt64) (p : WorkerQueuePolicy) (name : String) : String :=
  "REGISTER" ++ " " ++ toString stride ++ " " ++ toString offset ++ " " ++ p.token ++ " " ++ name

/-- Modelled from the spec: `COMPLETE <id>`. -/
def completeText (id : ItemID) : String := "COMPLETE" ++ " " ++ toString id

theorem extractToken_word {d : List Char} (hne : d ≠ []) (hsp : ∀ c ∈ d, isSpace c = false)
    {rest : List Char} (hr : ∀ c ∈ rest.head?, isSpace c = true) :
    extractToken (d ++ rest) = some (String.mk d, rest) := by
  obtain ⟨c, t, rfl⟩ := List.exists_cons_of_ne_nil hne
  have hc : isSpace c = false := hsp c (List.mem_cons_self _ _)
  have hdrop : (c :: t ++ rest).dropWhile isSpace = c :: t ++ rest := by
    simp [List.dropWhile_cons, hc]
  have htake : (c :: t ++ rest).takeWhile (!isSpace ·) = c :: t := by
    rw [List.takeWhile_append_of_pos (by simpa using hsp)]
    cases rest <;> simp_all [List.takeWhile_cons]
  have hdrop' : (c :: t ++ rest).dropWhile (!isSpace ·) = rest := by
    rw [List.dropWhile_append_of_pos (by simpa using hsp)]
    cases rest <;> simp_all [List.dropWhile_cons]
  simp only [extractToken, hdrop, htake, hdrop']

section blank
variable {c : Char} (hc : isSpace c = true) (s : List Char)
include hc

theorem extractToken_space : extractToken (c :: s) = extractToken s := by
  simp [extractToken, List.dropWhile_cons, hc]

theorem extractUnsigned_space : extractUnsigned (c :: s) = extractUnsigned s := by
  simp only [extractUnsigned, strtoull_space hc]

theorem extractPolicy_space : extractPolicy (c :: s) = extractPolicy s := by
  simp only [extractPolicy, extractToken_space hc]

end blank

theorem extractUnsigned_toString (n : UInt64) {rest : List Char}
    (hr : ∀ c ∈ rest.head?, isDigit c = false) :
    extractUnsigned ((toString n).data ++ rest) = some (n, rest) := by
  simp [extractUnsigned, strtoull_toString n rest hr]

theorem extractPolicy_token (p : WorkerQueuePolicy) {rest : List Char}
    (hr : ∀ c ∈ rest.head?, isSpace c = true) :
    extractPolicy (p.token.data ++ rest) = some (p, rest) := by
  have h : extractToken (p.token.data ++ rest) = some (p.token, rest) :=
    extractToken_word (by cases p <;> decide) (by cases p <;> decide) hr
  rw [extractPolicy, h]
  cases p <;> rfl

theorem registerText_data (stride offset : UInt64) (p : WorkerQueuePolicy) (name : String) :
    (registerText stride offset p name).data = "REGISTER".data ++ ' ' ::
      ((toString stride).data ++ ' ' :: ((toString offset).data ++ ' ' ::
        (p.token.data ++ ' ' :: name.data))) := by
  simp [registerText]

theorem completeText_data (id : ItemID) :
    (completeText id).data = "COMPLETE".data ++ ' ' :: (toString id).data := by
  simp [completeText]

/-- The REGISTER body of any stride, offset, policy and one-word client name is read back as
    a record with exactly those fields and empty queues. -/
theorem parseRegister_registerText (stride offset : UInt64) (p : WorkerQueuePolicy)
    {name : String} (hn : name.data ≠ []) (hs : ∀ c ∈ name.data, isSpace c = false) :
    parseRegister (registerText stride offset p name) = some ⟨stride, offset, p, name, [], []⟩ := by
  have hb : isSpace ' ' = true := rfl
  have hnd {l : List Char} : ∀ c ∈ (' ' :: l).head?, isDigit c = false := by simp; rfl
  have hsp : ∀ c ∈ (' ' :: name.data).head?, isSpace c = true := by simp [hb]
  have hreg : extractToken ("REGISTER".data ++ ' ' :: ((toString stride).data ++ ' ' ::
      ((toString offset).data ++ ' ' :: (p.token.data ++ ' ' :: name.data)))) =
      some ("REGISTER", _) := extractToken_word (by decide) (by decide) (by simp [hb])
  have hname : extractToken name.data = some (name, []) := by
    simpa using extractToken_word hn hs (by simp : ∀ c ∈ ([] : List Char).head?, isSpace c = true)
  rw [parseRegister, registerText_data, hreg]
  simp only [Option.bind_eq_bind, Option.some_bind, extractUnsigned_space hb,
    extractUnsigned_toString _ hnd, extractPolicy_space hb, extractPolicy_token _ hsp,
    extractToken_space hb, hname]
  rfl

/-- The COMPLETE body of any ID is read back as that ID. -/
theorem parseComplete_completeText (id : ItemID) : parseComplete (completeText id) = some id := by
  have hb : isSpace ' ' = true := rfl
  have hc : extractToken ("COMPLETE".data ++ ' ' :: ((toString id).data ++ [])) =
      some ("COMPLETE", _) := extractToken_word (by decide) (by decide) (by simp [hb])
  rw [parseComplete, completeText_data, ← List.append_nil (toString id).data, hc]
  simp only [Option.bind_eq_bind, Option.some_bind, extractUnsigned_space hb,
    extractUnsigned_toString id (by simp : ∀ c ∈ ([] : List Char).head?, isDigit c = false)]
  rfl

end Flesnet
