import HarnessSdk.Library.Text

/-! Integers as texts: `str` of a number, and `int` of a text. -/
namespace PyText

/-- Digits with single underscores between them. -/
def digitsValue (decimal : Char → Option Nat) : Bool → Nat → List Char → Option Nat
  | afterDigit, value, [] => if afterDigit then some value else none
  | afterDigit, value, c :: rest =>
    if c = '_' then if afterDigit then digitsValue decimal false value rest else none
    else
      match (if c.isDigit then some (c.toNat - 48) else decimal c) with
      | some digit => digitsValue decimal true (10 * value + digit) rest
      | none => none

/-- `int(s)`, none for a `ValueError`: blanks around, then a sign, then digits. The decimal digits
beyond ASCII are given by `decimal`. -/
def pyInt (decimal : Char → Option Nat) (s : String) : Option Int :=
  match (strip s).toList with
  | '-' :: digits => (digitsValue decimal false 0 digits).map fun n => -(n : Int)
  | '+' :: digits => (digitsValue decimal false 0 digits).map fun n => (n : Int)
  | digits => (digitsValue decimal false 0 digits).map fun n => (n : Int)

variable (decimal : Char → Option Nat)

theorem isSpace_of_isDigit {c : Char} (digit : c.isDigit) : isSpace c = false := by
  have range : 48 ≤ c.toNat ∧ c.toNat ≤ 57 := by
    simpa [Char.isDigit, UInt32.le_iff_toNat_le] using digit
  simp [isSpace]
  omega

theorem digitsValue_digits (afterDigit : Bool) (value : Nat) {cs : List Char}
    (digits : ∀ c ∈ cs, c.isDigit) (some_digit : afterDigit = true ∨ cs ≠ []) :
    digitsValue decimal afterDigit value cs = some (Nat.ofDigitChars 10 cs value) := by
  induction cs generalizing afterDigit value with
  | nil =>
    have after : afterDigit = true := by simpa using some_digit
    simp [digitsValue, after]
  | cons c rest ih =>
    have first : c.isDigit := digits c List.mem_cons_self
    have plain : c ≠ '_' := by
      intro same
      rw [same] at first
      exact absurd first (by decide)
    rw [digitsValue, if_neg plain, if_pos first, Nat.ofDigitChars_cons]
    exact ih true _ (fun d inside => digits d (List.mem_cons_of_mem _ inside)) (Or.inl rfl)

theorem pyInt_toString (n : Nat) : pyInt decimal (toString n) = some (n : Int) := by
  have chars : (toString n).toList = Nat.toDigits 10 n := by simp
  have digits := @isDigit_of_mem_repr n
  have solid : strip (toString n) = toString n :=
    strip_of_no_space fun c inside => isSpace_of_isDigit (digits c inside)
  have value := digitsValue_digits decimal false 0 digits (Or.inr (by simp))
  rw [chars, Nat.ofDigitChars_ten_toDigits] at value
  rw [pyInt, solid, chars]
  rw [chars] at digits
  cases whole : Nat.toDigits 10 n with
  | nil => exact absurd whole Nat.toDigits_ne_nil
  | cons c rest =>
    have first : c.isDigit := digits c (by simp [whole])
    have minus : c ≠ '-' := by
      rintro rfl
      exact absurd first (by decide)
    have plus : c ≠ '+' := by
      rintro rfl
      exact absurd first (by decide)
    rw [whole] at value
    simp [minus, plus, value]

end PyText
