/-!
# Decimal numerals

A numeral is an optional minus sign followed by decimal digits. Every integer has
one canonical numeral, without leading zeros and without a sign on zero; many more
numerals are read, since leading zeros and a sign on zero change nothing. Signed
64-bit integers are read only from numerals whose value lies in their range.
-/
namespace EdgeExpression.Decimal

/-- The digits of a natural number, the most significant first. -/
def digits (n : Nat) : List Char := Nat.toDigits 10 n

/-- The canonical numeral of a natural number. -/
def ofNat (n : Nat) : String := String.ofList (digits n)

/-- The canonical numeral of an integer: the digits of its absolute value, behind a
minus sign exactly when it is negative. -/
def ofInt (i : Int) : String :=
  String.ofList (if i < 0 then '-' :: digits i.natAbs else digits i.natAbs)

/-- The canonical numeral of a signed 64-bit integer. -/
def ofInt64 (v : Int64) : String := ofInt v.toInt

/-- The integer a numeral stands for. -/
def value : List Char → Int
  | '-' :: rest => -(Nat.ofDigitChars 10 rest 0 : Int)
  | text => (Nat.ofDigitChars 10 text 0 : Int)

/-- A value that a signed 64-bit integer can hold. -/
def InRange (i : Int) : Prop := Int64.minValue.toInt ≤ i ∧ i ≤ Int64.maxValue.toInt

instance (i : Int) : Decidable (InRange i) := inferInstanceAs (Decidable (_ ∧ _))

/-- The signed 64-bit integer of a numeral, if its value is in range. -/
def toInt64? (text : String) : Option Int64 :=
  if InRange (value text.toList) then some (Int64.ofInt (value text.toList)) else none

/-- The digits of a natural number are digits. -/
theorem isDigit_of_mem_digits {n : Nat} {c : Char} (member : c ∈ digits n) :
    c.isDigit = true :=
  Nat.isDigit_of_mem_toDigits (by decide) (by decide) member

/-- The digits of a natural number are read as that number. -/
theorem value_digits (n : Nat) : value (digits n) = n := by
  unfold value
  split
  · next rest minus =>
      have digit := isDigit_of_mem_digits (minus ▸ List.mem_cons_self : '-' ∈ digits n)
      exact absurd digit (by decide)
  · rw [digits, Nat.ofDigitChars_ten_toDigits]

/-- The canonical numeral of an integer is read as that integer. -/
theorem value_ofInt (i : Int) : value (ofInt i).toList = i := by
  unfold ofInt
  rw [String.toList_ofList]
  split
  · next negative =>
      rw [value, digits, Nat.ofDigitChars_ten_toDigits]
      omega
  · next nonnegative =>
      rw [value_digits]
      omega

/-- Every signed 64-bit integer is in range. -/
theorem inRange_toInt (v : Int64) : InRange v.toInt :=
  ⟨v.le_toInt, Int.le_of_lt_add_one v.toInt_lt⟩

/-- The canonical numeral of a signed 64-bit integer is read as that integer. -/
theorem toInt64?_ofInt64 (v : Int64) : toInt64? (ofInt64 v) = some v := by
  rw [toInt64?, ofInt64, value_ofInt, if_pos (inRange_toInt v), Int64.ofInt_toInt]

/-- A text is not read as a number if its value is out of range. -/
theorem toInt64?_eq_none_iff (text : String) :
    toInt64? text = none ↔ ¬ InRange (value text.toList) := by
  unfold toInt64?
  split <;> simp [*]

/-- The integer read from a numeral has exactly the numeral's value. -/
theorem toInt_of_toInt64? {text : String} {v : Int64} (read : toInt64? text = some v) :
    v.toInt = value text.toList := by
  unfold toInt64? at read
  split at read
  · next inside =>
      obtain rfl := Option.some.inj read
      exact Int64.toInt_ofInt_of_le inside.1 (Int.lt_of_le_of_lt inside.2 (by decide))
  · exact absurd read (by simp)

end EdgeExpression.Decimal
