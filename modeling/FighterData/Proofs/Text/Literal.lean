import FighterData.Text.Literal

/-! Numbers that are written and read again. The digits of a number denote it in its base, zeros
before them change nothing, and a decimal number that is short enough to be written is short enough
to be read. What is written holds nothing that a listing gives a meaning to. -/
namespace FighterData.Text

/-- The characters of names and numbers: ASCII that prints, but for the blank, the equals sign and
the sign of a comment. -/
def isPlain (c : Char) : Bool :=
  0x21 ≤ c.toNat && c.toNat ≤ 0x7E && c.toNat != 0x23 && c.toNat != 0x3D

/-- A text of these characters only. -/
def Plain (text : List Char) : Prop :=
  ∀ c ∈ text, isPlain c = true

instance : DecidablePred Plain := fun text =>
  decidable_of_iff (text.all isPlain = true) List.all_eq_true

theorem Plain.append {front back : List Char} (first : Plain front) (second : Plain back) :
    Plain (front ++ back) :=
  List.forall_mem_append.mpr ⟨first, second⟩

theorem isBlank_of_isPlain {c : Char} (plain : isPlain c = true) : isBlank c = false := by
  simp only [isPlain, Bool.and_eq_true, decide_eq_true_eq, bne_iff_ne] at plain
  simp only [isBlank, Bool.or_eq_false_iff, Bool.and_eq_false_iff, decide_eq_false_iff_not,
    beq_eq_false_iff_ne]
  omega

section Digits

variable {base : Nat}

theorem ofDigits_append (front back : List Nat) :
    ofDigits base (front ++ back) =
      back.foldl (fun total digit => total * base + digit) (ofDigits base front) :=
  List.foldl_append

theorem ofDigits_concat (front : List Nat) (last : Nat) :
    ofDigits base (front ++ [last]) = ofDigits base front * base + last := by
  rw [ofDigits_append]
  rfl

theorem ofDigits_zeros (count : Nat) (digits : List Nat) :
    ofDigits base (List.replicate count 0 ++ digits) = ofDigits base digits := by
  induction count with
  | zero => rfl
  | succ count ih =>
      rw [List.replicate_succ, List.cons_append, ← ih]
      simp [ofDigits]

/-- The written digits of a number denote it, and the first one is zero for zero only. -/
theorem exists_digits (big : 1 < base) (value : Nat) :
    ∃ digits, Nat.toDigits base value = digits.map Nat.digitChar ∧ digits ≠ [] ∧
      (∀ digit ∈ digits, digit < base) ∧ ofDigits base digits = value ∧
      (digits.head? = some 0 → value = 0) := by
  induction value using Nat.strongRecOn with
  | ind value ih =>
      by_cases small : value < base
      · refine ⟨[value], Nat.toDigits_of_lt_base small, by simp, by simpa using small, ?_, ?_⟩
        · simp [ofDigits]
        · simp
      · have order : base ≤ value := by omega
        have less : value / base < value := Nat.div_lt_self (by omega) big
        obtain ⟨digits, spelled, some, below, denoted, lead⟩ := ih (value / base) less
        refine ⟨digits ++ [value % base], ?_, by simp, ?_, ?_, ?_⟩
        · rw [Nat.toDigits_of_base_le big order, spelled, List.map_append]
          rfl
        · intro digit member
          cases List.mem_append.mp member with
          | inl inside => exact below digit inside
          | inr last =>
              rw [List.mem_singleton.mp last]
              exact Nat.mod_lt value (by omega)
        · rw [ofDigits_concat, denoted, Nat.mul_comm]
          exact Nat.div_add_mod value base
        · intro zero
          obtain ⟨first, rest, rfl⟩ := List.exists_cons_of_ne_nil some
          have none := lead zero
          have positive := Nat.div_pos order (by omega : 0 < base)
          omega

/-- Characters that stand for digits are read as those digits. -/
theorem literalDigits?_map {mark : Nat → Char} {digits : List Nat}
    (each : ∀ digit ∈ digits, digitIn? base (mark digit) = some digit) (afterDigit : Bool)
    (may : afterDigit = true ∨ digits ≠ []) :
    literalDigits? base afterDigit (digits.map mark) = some digits := by
  induction digits generalizing afterDigit with
  | nil => simpa [literalDigits?] using may
  | cons digit digits ih =>
      rw [List.forall_mem_cons] at each
      have other : mark digit ≠ '_' := by
        intro same
        have none : digitIn? base '_' = none := by
          have unknown : literalDigit? '_' = none := by decide
          rw [digitIn?, unknown]
          rfl
        rw [same, none] at each
        cases each.1
      rw [List.map_cons, literalDigits?, if_neg other, each.1]
      simp only [ih each.2 true (Or.inl rfl), Option.map_some]

end Digits

theorem trimLiteral_eq_self {text : List Char} (solid : Plain text) :
    trimLiteral text = text := by
  have same {items : List Char} (inside : Plain items) :
      items.dropWhile isLiteralBlank = items := by
    cases items with
    | nil => rfl
    | cons c items =>
        have blank : isLiteralBlank c = false := by
          rw [isLiteralBlank, isBlank_of_isPlain (inside c (by simp))]
          rfl
        rw [List.dropWhile_cons_of_neg (by simp [blank])]
  rw [trimLiteral, same solid, same (fun c member => solid c (List.mem_reverse.mp member)),
    List.reverse_reverse]

theorem digitIn?_digitChar {digit : Nat} (below : digit < 10) :
    digitIn? 10 (Nat.digitChar digit) = some digit := by
  have every : ∀ digit < 10, digitIn? 10 (Nat.digitChar digit) = some digit := by decide +kernel
  exact every digit below

/-- The digits of base sixteen are written with capital letters. -/
theorem digitIn?_upper {digit : Nat} (below : digit < 16) :
    digitIn? 16 (Nat.digitChar digit).toUpper = some digit := by
  have every : ∀ digit < 16, digitIn? 16 (Nat.digitChar digit).toUpper = some digit := by
    decide +kernel
  exact every digit below

theorem isPlain_digitChar {digit : Nat} (below : digit < 16) :
    isPlain (Nat.digitChar digit) = true ∧ isPlain (Nat.digitChar digit).toUpper = true := by
  have every : ∀ digit < 16,
      isPlain (Nat.digitChar digit) = true ∧ isPlain (Nat.digitChar digit).toUpper = true := by
    decide +kernel
  exact every digit below

theorem markedBase?_digitChar {digit : Nat} (below : digit < 10) :
    markedBase? (Nat.digitChar digit) = none := by
  have every : ∀ digit < 10, markedBase? (Nat.digitChar digit) = none := by decide +kernel
  exact every digit below

/-- The limit is a power that must not be computed, so it stands for any power here. -/
theorem length_toDigits_le {value : Nat} (short : value < decimalLimit) :
    (Nat.toDigits 10 value).length ≤ digitLimit := by
  have some : 0 < digitLimit := by decide
  unfold decimalLimit at short
  generalize digitLimit = limit at some short ⊢
  exact (Nat.length_toDigits_le_iff (by omega) some).mpr short

/-- A decimal number without its sign. -/
theorem magnitude?_toDigits {value : Nat} (short : value < decimalLimit) :
    magnitude? (Nat.toDigits 10 value) = some value := by
  obtain ⟨digits, spelled, some, below, denoted, lead⟩ := exists_digits (by omega : 1 < 10) value
  have length : ¬ digits.length > digitLimit := by
    have bound := length_toDigits_le short
    rw [spelled, List.length_map] at bound
    exact Nat.not_lt.mpr bound
  have each : ∀ digit ∈ digits, digitIn? 10 (Nat.digitChar digit) = Option.some digit :=
    fun digit member => digitIn?_digitChar (below digit member)
  have read := literalDigits?_map each false (Or.inr some)
  have decimal : decimalLiteral? (digits.map Nat.digitChar) = Option.some value := by
    have zero : ¬ (digits.head? = Option.some 0 && value ≠ 0) = true := by
      simpa using lead
    simp only [decimalLiteral?, read, bind, Option.bind, denoted]
    rw [if_neg length, if_neg zero]
  rw [spelled]
  match digits, below, decimal with
  | [_], _, decimal => exact decimal
  | first :: second :: rest, below, decimal =>
      have unmarked := markedBase?_digitChar (below second (by simp))
      simp only [List.map_cons, magnitude?, unmarked, ite_self]
      exact decimal

theorem isPlain_of_mem_toDigits {base value : Nat} (big : 1 < base) (small : base ≤ 16) {c : Char}
    (member : c ∈ Nat.toDigits base value) : isPlain c = true ∧ isPlain c.toUpper = true := by
  obtain ⟨digits, spelled, _, below, _, _⟩ := exists_digits big value
  rw [spelled] at member
  obtain ⟨digit, inside, rfl⟩ := List.mem_map.mp member
  exact isPlain_digitChar (Nat.lt_of_lt_of_le (below digit inside) small)

theorem toList_decimal (value : Int) : (decimal value).toList =
    (if value < 0 then ['-'] else []) ++ Nat.toDigits 10 value.natAbs := by
  simp only [decimal, decimalPadded, withSign, decimalDigits, String.toList_ofList, Nat.zero_sub,
    List.replicate_zero, List.append_nil, decide_eq_true_eq]

theorem plain_decimal (value : Int) : Plain (decimal value).toList := by
  have digits : Plain (Nat.toDigits 10 value.natAbs) := fun c member =>
    (isPlain_of_mem_toDigits (by omega) (by omega) member).1
  rw [toList_decimal]
  split
  · exact Plain.append (by decide) digits
  · exact digits

/-- Zeros that pad a natural number are digits of it. -/
theorem exists_digits_decimalPadded (width value : Nat) : ∃ digits,
    (decimalPadded width (value : Int)).toList = digits.map Nat.digitChar ∧
      (∀ digit ∈ digits, digit < 10) ∧ ofDigits 10 digits = value := by
  obtain ⟨digits, spelled, _, below, denoted, _⟩ := exists_digits (by omega : 1 < 10) value
  have sign : decide ((value : Int) < 0) = false := by simp
  refine ⟨List.replicate (width - (Nat.toDigits 10 value).length) 0 ++ digits, ?_, ?_, ?_⟩
  · simp only [decimalPadded, withSign, sign, decimalDigits, Int.natAbs_natCast,
      String.toList_ofList, List.map_append, List.map_replicate, ← spelled]
    rfl
  · intro digit member
    cases List.mem_append.mp member with
    | inl zero => rw [List.eq_of_mem_replicate zero]; omega
    | inr inside => exact below digit inside
  · rw [ofDigits_zeros, denoted]

theorem decimalPadded_injective {width first second : Nat}
    (same : decimalPadded width (first : Int) = decimalPadded width (second : Int)) :
    first = second := by
  obtain ⟨digits, spelled, below, denoted⟩ := exists_digits_decimalPadded width first
  obtain ⟨others, written, small, meant⟩ := exists_digits_decimalPadded width second
  have read {numbers : List Nat} (each : ∀ digit ∈ numbers, digit < 10) :
      (numbers.map Nat.digitChar).map (digitIn? 10) = numbers.map some := by
    rw [List.map_map]
    exact List.map_congr_left fun digit member => digitIn?_digitChar (each digit member)
  have shown : digits.map some = others.map some := by
    rw [← read below, ← read small, ← spelled, ← written, same]
  have equal := (List.map_inj_right fun _ _ => Option.some.inj).mp shown
  rw [← denoted, ← meant, equal]

/-- A written number without a sign begins with none. -/
theorem exists_cons_toDigits (value : Nat) : ∃ first rest, Nat.toDigits 10 value = first :: rest ∧
    first ≠ '-' ∧ first ≠ '+' := by
  obtain ⟨digits, spelled, some, below, _, _⟩ := exists_digits (by omega : 1 < 10) value
  obtain ⟨digit, digits, rfl⟩ := List.exists_cons_of_ne_nil some
  have every : ∀ digit < 10, Nat.digitChar digit ≠ '-' ∧ Nat.digitChar digit ≠ '+' := by decide
  exact ⟨_, _, spelled, every digit (below digit (by simp))⟩

/-- Every decimal number that can be written is read again. -/
theorem literal?_decimal {value : Int} (short : value.natAbs < decimalLimit) :
    literal? (decimal value) = some value := by
  have read := magnitude?_toDigits short
  rw [literal?, trimLiteral_eq_self (plain_decimal value), toList_decimal]
  by_cases negative : value < 0
  · rw [if_pos negative]
    have denoted : -(value.natAbs : Int) = value := by omega
    simp only [List.singleton_append, read]
    exact congrArg some denoted
  · obtain ⟨first, rest, spelled, minus, plus⟩ := exists_cons_toDigits value.natAbs
    rw [if_neg negative, List.nil_append]
    rw [spelled] at read ⊢
    split
    next same => exact absurd (List.cons.inj same).1 minus
    next same => exact absurd (List.cons.inj same).1 plus
    next =>
      have denoted : (value.natAbs : Int) = value := by omega
      rw [read]
      exact congrArg some denoted

theorem toList_hexPadded (width : Nat) {value : Int} (natural : 0 ≤ value) :
    ∃ zeros, (hexPadded width value).toList =
      List.replicate zeros '0' ++ (Nat.toDigits 16 value.natAbs).map Char.toUpper := by
  have sign : decide (value < 0) = false := by simpa using natural
  refine ⟨width - (Nat.toDigits 16 value.natAbs).length, ?_⟩
  simp [hexPadded, withSign, hexDigits, sign]

/-- A hexadecimal number with its mark. -/
theorem plain_hexPadded (width : Nat) {value : Int} (natural : 0 ≤ value) :
    Plain ("0x" ++ hexPadded width value).toList := by
  obtain ⟨zeros, spelled⟩ := toList_hexPadded width natural
  rw [String.toList_append, spelled]
  refine Plain.append (by decide) (Plain.append ?_ ?_)
  · intro c zero
    rw [List.eq_of_mem_replicate zero]
    decide
  · intro c upper
    obtain ⟨digit, inside, rfl⟩ := List.mem_map.mp upper
    exact (isPlain_of_mem_toDigits (by omega) (by omega) inside).2

/-- A hexadecimal number is read again, whatever zeros stand before it. -/
theorem literal?_hexPadded {width : Nat} {value : Int} (natural : 0 ≤ value) :
    literal? ("0x" ++ hexPadded width value) = some value := by
  obtain ⟨zeros, spelled⟩ := toList_hexPadded width natural
  obtain ⟨digits, written, some, below, denoted, _⟩ :=
    exists_digits (by omega : 1 < 16) value.natAbs
  let mark (digit : Nat) : Char := (Nat.digitChar digit).toUpper
  have whole : (hexPadded width value).toList = (List.replicate zeros 0 ++ digits).map mark := by
    rw [spelled, written, List.map_append, List.map_replicate, List.map_map]
    rfl
  have each : ∀ digit ∈ List.replicate zeros 0 ++ digits,
      digitIn? 16 (mark digit) = Option.some digit := by
    intro digit member
    refine digitIn?_upper ?_
    cases List.mem_append.mp member with
    | inl zero => rw [List.eq_of_mem_replicate zero]; omega
    | inr inside => exact below digit inside
  have read := literalDigits?_map each false (Or.inr (by simp [some]))
  rw [← whole] at read
  have text : ("0x" ++ hexPadded width value).toList =
      '0' :: 'x' :: (hexPadded width value).toList := by
    rw [String.toList_append]
    rfl
  have unbroken : ∀ after, (hexPadded width value).toList ≠ '_' :: after := by
    intro after same
    rw [same] at read
    simp [literalDigits?] at read
  have magnitude : magnitude? ('0' :: 'x' :: (hexPadded width value).toList) =
      Option.some value.natAbs := by
    have zero : digitValue? '0' = Option.some 0 := by decide +kernel
    have marked : markedBase? 'x' = Option.some 16 := by decide
    -- `unbroken` decides the match on what is behind the mark
    simp only [magnitude?, zero, marked, if_pos]
    rw [read, Option.map_some, ofDigits_zeros, denoted]
  have same : (value.natAbs : Int) = value := by omega
  rw [literal?, trimLiteral_eq_self (plain_hexPadded width natural), text]
  split
  next minus => exact absurd (List.cons.inj minus).1 (by decide)
  next plus => exact absurd (List.cons.inj plus).1 (by decide)
  next =>
    rw [magnitude]
    exact congrArg Option.some same

end FighterData.Text
