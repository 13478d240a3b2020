import Mathlib.Tactic

/-!
# Decimal texts

* `natValue`, `intText`, `readInt`: numerals, and what is read from them;
* `Decimal`: a number in plain or in scientific notation, with its `text` and its `value`;
* `readValue_text`: the value is read back from the text, so that a text denotes one number
  (`Denotes.unique`);
* `denotes_whole`, `denotes_point`, `denotes_leading`, `denotes_scientific`: the texts that a list
  of digits gives with zeroes, a point or an exponent.
-/

namespace DecimalText

/-! ### Numerals -/

/-- The number of a list of decimal digits. -/
def natValue (digits : List Char) : ℕ := Nat.ofDigitChars 10 digits 0

/-- The sign of a negative number. -/
def sign (negative : Bool) : List Char := if negative then ['-'] else []

/-- The numeral of an integer. -/
def intText (n : ℤ) : List Char := sign (n < 0) ++ Nat.toDigits 10 n.natAbs

/-- The integer of a numeral. -/
def readInt (text : List Char) : ℤ :=
  if text.head? = some '-' then -natValue text.tail else natValue text

theorem ne_of_isDigit {c c' : Char} (h : c.isDigit) (h' : c'.isDigit = false) : c ≠ c' := by
  rintro rfl
  exact Bool.noConfusion (h.symm.trans h')

theorem isDigit_of_mem_toDigits {n : ℕ} : ∀ c ∈ Nat.toDigits 10 n, c.isDigit :=
  fun _ hc => Nat.isDigit_of_mem_toDigits (by decide) (by decide) hc

@[simp] theorem natValue_toDigits (n : ℕ) : natValue (Nat.toDigits 10 n) = n :=
  Nat.ofDigitChars_ten_toDigits

theorem natValue_append (l m : List Char) :
    natValue (l ++ m) = natValue l * 10 ^ m.length + natValue m := by
  rw [natValue, Nat.ofDigitChars_append, Nat.ofDigitChars_eq_ofDigitChars_zero, mul_comm]
  rfl

theorem natValue_zeroes (n : ℕ) : natValue (List.replicate n '0') = 0 :=
  Nat.ofDigitChars_replicate_zero

/-- Zeroes behind the digits multiply by a power of ten. -/
theorem natValue_append_zeroes (l : List Char) (n : ℕ) :
    natValue (l ++ List.replicate n '0') = natValue l * 10 ^ n := by
  rw [natValue_append, natValue_zeroes, List.length_replicate, add_zero]

/-- Zeroes in front of the digits change nothing. -/
theorem natValue_zeroes_append (n : ℕ) (l : List Char) :
    natValue (List.replicate n '0' ++ l) = natValue l := by
  rw [natValue_append, natValue_zeroes, zero_mul, zero_add]

theorem head?_ne_of_digits {l : List Char} (h : ∀ c ∈ l, c.isDigit) : l.head? ≠ some '-' := by
  cases l with
  | nil => exact nofun
  | cons c l =>
      rw [List.head?_cons]
      exact fun heq => ne_of_isDigit (h c List.mem_cons_self) rfl (Option.some.inj heq)

/-- The numeral of an integer is read as the integer. -/
theorem readInt_intText (n : ℤ) : readInt (intText n) = n := by
  unfold readInt intText sign
  by_cases hneg : n < 0
  · simp only [hneg, decide_true, if_true, List.singleton_append, List.head?_cons, List.tail_cons,
      natValue_toDigits]
    omega
  · simp only [hneg, decide_false, Bool.false_eq_true, if_false, List.nil_append]
    rw [if_neg (head?_ne_of_digits isDigit_of_mem_toDigits), natValue_toDigits]
    omega

/-! ### Numbers in plain or in scientific notation -/

/-- A number: digits with a possible sign, point and exponent.  With an exponent there is one digit
in front of the point. -/
structure Decimal where
  negative : Bool
  whole : List Char
  fraction : List Char
  exponent : Option ℤ
  whole_ne_nil : whole ≠ []
  digits : ∀ c ∈ whole ++ fraction, c.isDigit
  scientific : exponent.isSome → whole.length = 1

/-- The point and the digits behind it. -/
def pointText (fraction : List Char) : List Char := if fraction = [] then [] else '.' :: fraction

/-- The exponent. -/
def exponentText (exponent : Option ℤ) : List Char := exponent.elim [] fun e => 'E' :: intText e

/-- The text of a number. -/
def Decimal.text (d : Decimal) : List Char :=
  sign d.negative ++ ((d.whole ++ pointText d.fraction) ++ exponentText d.exponent)

/-- What a sign makes of a number. -/
def signed (negative : Bool) (q : ℚ) : ℚ := if negative then -q else q

/-- The value of a number. -/
def Decimal.value (d : Decimal) : ℚ :=
  signed d.negative
    (natValue (d.whole ++ d.fraction) * 10 ^ (d.exponent.getD 0 - d.fraction.length))

/-- The text denotes the number. -/
def Denotes (text : List Char) (q : ℚ) : Prop := ∃ d : Decimal, d.text = text ∧ d.value = q

/-- The value of a text without its sign. -/
def readUnsigned (body : List Char) : ℚ :=
  let mantissa := body.takeWhile fun c => c ≠ 'E'
  let whole := mantissa.takeWhile fun c => c ≠ '.'
  let fraction := (mantissa.dropWhile fun c => c ≠ '.').tail
  let exponent := readInt (body.dropWhile fun c => c ≠ 'E').tail
  natValue (whole ++ fraction) * 10 ^ (exponent - fraction.length)

/-- The value of a text. -/
def readValue (text : List Char) : ℚ :=
  if text.head? = some '-' then -readUnsigned text.tail else readUnsigned text

/-- What stands in front of the first separator. -/
theorem takeWhile_separator {l m : List Char} {c : Char} (h : ∀ a ∈ l, a ≠ c)
    (hm : m = [] ∨ ∃ m', m = c :: m') :
    ((l ++ m).takeWhile fun a => a ≠ c) = l ∧ ((l ++ m).dropWhile fun a => a ≠ c) = m := by
  have hl : ∀ a ∈ l, (fun a => decide (a ≠ c)) a = true := fun a ha => decide_eq_true (h a ha)
  rw [List.takeWhile_append_of_pos hl, List.dropWhile_append_of_pos hl]
  rcases hm with rfl | ⟨m', rfl⟩
  · simp
  · simp

theorem Decimal.readUnsigned_text (d : Decimal) :
    readUnsigned ((d.whole ++ pointText d.fraction) ++ exponentText d.exponent) =
      natValue (d.whole ++ d.fraction) * 10 ^ (d.exponent.getD 0 - d.fraction.length) := by
  have hwhole : ∀ c ∈ d.whole, c.isDigit := fun c hc => d.digits c (List.mem_append_left _ hc)
  have hmantissa : ∀ c ∈ d.whole ++ pointText d.fraction, c ≠ 'E' := by
    intro c hc
    rcases List.mem_append.mp hc with hc | hc
    · exact ne_of_isDigit (hwhole c hc) rfl
    · unfold pointText at hc
      split_ifs at hc with hnil
      · cases hc
      · rcases List.mem_cons.mp hc with rfl | hc
        · decide
        · exact ne_of_isDigit (d.digits c (List.mem_append_right _ hc)) rfl
  have hexponent : exponentText d.exponent = [] ∨ ∃ m, exponentText d.exponent = 'E' :: m := by
    cases hexp : d.exponent with
    | none => exact Or.inl rfl
    | some e => exact Or.inr ⟨intText e, rfl⟩
  have hpoint : pointText d.fraction = [] ∨ ∃ m, pointText d.fraction = '.' :: m := by
    unfold pointText
    split_ifs
    · exact Or.inl rfl
    · exact Or.inr ⟨_, rfl⟩
  have hfraction : (pointText d.fraction).tail = d.fraction := by
    unfold pointText
    split_ifs with hnil
    · exact hnil.symm
    · rfl
  have hread : readInt (exponentText d.exponent).tail = d.exponent.getD 0 := by
    cases d.exponent with
    | none => rfl
    | some e => exact readInt_intText e
  obtain ⟨htake, hdrop⟩ := takeWhile_separator hmantissa hexponent
  obtain ⟨htake', hdrop'⟩ := takeWhile_separator
    (fun c hc => ne_of_isDigit (hwhole c hc) rfl : ∀ c ∈ d.whole, c ≠ '.') hpoint
  unfold readUnsigned
  dsimp only
  rw [htake, hdrop, htake', hdrop', hfraction, hread]

/-- The value of a number is read from its text. -/
theorem readValue_text (d : Decimal) : readValue d.text = d.value := by
  have hread := d.readUnsigned_text
  unfold readValue Decimal.text Decimal.value sign signed
  cases d.negative with
  | true =>
      simp only [if_true, List.singleton_append, List.head?_cons, List.tail_cons]
      rw [hread]
  | false =>
      simp only [Bool.false_eq_true, if_false, List.nil_append]
      rw [if_neg ?_, hread]
      cases hwhole : d.whole with
      | nil => exact absurd hwhole d.whole_ne_nil
      | cons c l =>
          have hc : c.isDigit := d.digits c (by rw [hwhole]; simp)
          simp only [List.cons_append, List.head?_cons]
          exact fun heq => ne_of_isDigit hc rfl (Option.some.inj heq)

/-- A text denotes one number. -/
theorem Denotes.unique {text : List Char} {q q' : ℚ} (h : Denotes text q) (h' : Denotes text q') :
    q = q' := by
  obtain ⟨d, hd, rfl⟩ := h
  obtain ⟨d', hd', rfl⟩ := h'
  rw [← readValue_text, ← readValue_text, hd, hd']

/-! ### The texts of a list of digits -/

section Digits

variable {digits : List Char}

/-- The digits of an integer, with its sign in front of them, stand for the integer. -/
theorem signed_natAbs (n : ℤ) (q : ℚ) : signed (n < 0) (n.natAbs * q) = n * q := by
  unfold signed
  rw [Nat.cast_natAbs]
  by_cases hneg : n < 0
  · simp only [hneg, decide_true, if_true]
    rw [abs_of_neg hneg, Int.cast_neg, neg_mul, neg_neg]
  · simp only [hneg, decide_false, Bool.false_eq_true, if_false]
    rw [abs_of_nonneg (not_lt.mp hneg)]

/-- Digits with zeroes behind them. -/
theorem denotes_whole (negative : Bool) (hne : digits ≠ []) (hdigits : ∀ c ∈ digits, c.isDigit)
    (n : ℕ) :
    Denotes (sign negative ++ (digits ++ List.replicate n '0'))
      (signed negative (natValue digits * 10 ^ (n : ℤ))) := by
  refine ⟨⟨negative, digits ++ List.replicate n '0', [], none, by simp [hne], ?_, nofun⟩, ?_, ?_⟩
  · intro c hc
    rw [List.append_nil] at hc
    rcases List.mem_append.mp hc with hc | hc
    · exact hdigits c hc
    · rw [List.eq_of_mem_replicate hc]
      rfl
  · simp only [Decimal.text, pointText, exponentText, if_true, List.append_nil, Option.elim_none]
  · simp only [Decimal.value, List.append_nil, Option.getD_none, List.length_nil,
      natValue_append_zeroes]
    push_cast
    rw [mul_one, zpow_natCast]

/-- Digits with a point between them. -/
theorem denotes_point (negative : Bool) (hdigits : ∀ c ∈ digits, c.isDigit) {k : ℕ} (hk : 0 < k)
    (hlt : k < digits.length) :
    Denotes (sign negative ++ (digits.take k ++ '.' :: digits.drop k))
      (signed negative (natValue digits * 10 ^ ((k : ℤ) - digits.length))) := by
  have hne : digits.take k ≠ [] := by
    rw [Ne, List.take_eq_nil_iff]
    rintro (h | h)
    · omega
    · rw [h] at hlt
      exact Nat.not_lt_zero k hlt
  have hdrop : digits.drop k ≠ [] := by
    rw [Ne, List.drop_eq_nil_iff]
    omega
  refine ⟨⟨negative, digits.take k, digits.drop k, none, hne, ?_, nofun⟩, ?_, ?_⟩
  · rwa [List.take_append_drop]
  · simp only [Decimal.text, pointText, exponentText, if_neg hdrop, List.append_nil,
      Option.elim_none]
  · simp only [Decimal.value, List.take_append_drop, Option.getD_none, List.length_drop]
    rw [show (0 : ℤ) - ((digits.length - k : ℕ) : ℤ) = k - digits.length by omega]

/-- Digits behind a point and zeroes. -/
theorem denotes_leading (negative : Bool) (hne : digits ≠ []) (hdigits : ∀ c ∈ digits, c.isDigit)
    (n : ℕ) :
    Denotes (sign negative ++ ('0' :: '.' :: (List.replicate n '0' ++ digits)))
      (signed negative (natValue digits * 10 ^ (-((n : ℤ) + digits.length)))) := by
  have hfraction : List.replicate n '0' ++ digits ≠ [] := by simp [hne]
  refine ⟨⟨negative, ['0'], List.replicate n '0' ++ digits, none, by simp, ?_, nofun⟩, ?_, ?_⟩
  · intro c hc
    simp only [List.singleton_append, List.mem_cons, List.mem_append] at hc
    rcases hc with rfl | hc | hc
    · rfl
    · rw [List.eq_of_mem_replicate hc]
      rfl
    · exact hdigits c hc
  · simp only [Decimal.text, pointText, exponentText, if_neg hfraction, List.append_nil,
      Option.elim_none, List.singleton_append]
  · have hvalue : natValue (['0'] ++ (List.replicate n '0' ++ digits)) = natValue digits := by
      rw [natValue_append, natValue_zeroes_append]
      show 0 * _ + _ = _
      rw [zero_mul, zero_add]
    simp only [Decimal.value, hvalue, Option.getD_none, List.length_append, List.length_replicate]
    rw [show (0 : ℤ) - ((n + digits.length : ℕ) : ℤ) = -((n : ℤ) + digits.length) by
      push_cast
      ring]

/-- Digits in scientific notation. -/
theorem denotes_scientific (negative : Bool) {c : Char} (hdigits : ∀ a ∈ c :: digits, a.isDigit)
    (e : ℤ) :
    Denotes (sign negative ++ ((c :: pointText digits) ++ 'E' :: intText e))
      (signed negative (natValue (c :: digits) * 10 ^ (e - digits.length))) :=
  ⟨⟨negative, [c], digits, some e, by simp, hdigits, fun _ => rfl⟩, rfl, rfl⟩

theorem denotes_intText (n : ℤ) : Denotes (intText n) n := by
  have h := denotes_whole (n < 0) (Nat.toDigits_ne_nil (n := n.natAbs) (b := 10))
    isDigit_of_mem_toDigits 0
  rw [natValue_toDigits, signed_natAbs] at h
  simpa [intText] using h

end Digits

end DecimalText
