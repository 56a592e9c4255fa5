import Mathlib.Data.Nat.Notation

namespace Decimal

-- The characters of a signed decimal numeral.
def isNumeral (c : Char) : Bool := c.isDigit || c = '-'

-- The value of a numeral, by its sign and its digits.
def value : List Char → Int
  | '-' :: digits => -(Nat.ofDigitChars 10 digits 0 : Int)
  | digits => Nat.ofDigitChars 10 digits 0

theorem toList_toString (number : Int) :
    (toString number).toList =
      if 0 ≤ number then Nat.toDigits 10 number.toNat
      else '-' :: Nat.toDigits 10 (-number).toNat := by
  rw [Int.toString_eq_repr, Int.repr_eq_if]
  split
  · exact Nat.toList_repr
  · rw [String.toList_append, Nat.toList_repr]
    rfl

theorem toDigits_head_ne (number : Nat) (rest : List Char) : Nat.toDigits 10 number ≠ '-' :: rest := by
  intro h
  have hdigit : ('-' : Char).isDigit := Nat.isDigit_of_mem_toDigits (by decide) (by decide)
    (n := number) (h ▸ List.mem_cons_self ..)
  exact absurd hdigit (by decide)

theorem value_toDigits (number : Nat) : value (Nat.toDigits 10 number) = number := by
  unfold value
  split
  · next digits h => exact absurd h (toDigits_head_ne number digits)
  · rw [Nat.ofDigitChars_ten_toDigits]

@[simp] theorem value_toString (number : Int) : value (toString number).toList = number := by
  rw [toList_toString]
  split
  · rw [value_toDigits]
    omega
  · rw [value, Nat.ofDigitChars_ten_toDigits]
    omega

theorem toString_inj (first second : Int) (h : toString first = toString second) : first = second := by
  rw [← value_toString first, h, value_toString]

theorem isNumeral_toString (number : Int) : ∀ c ∈ (toString number).toList, isNumeral c := by
  intro c hc
  rw [toList_toString] at hc
  split at hc
  · simp [isNumeral, Nat.isDigit_of_mem_toDigits (by decide) (by decide) hc]
  · cases List.mem_cons.mp hc with
    | inl hsign => simp [isNumeral, hsign]
    | inr hdigit => simp [isNumeral, Nat.isDigit_of_mem_toDigits (by decide) (by decide) hdigit]

end Decimal
