/-! Decimal numerals. A numeral is read only if every character is a digit, and a fraction is
written without the zeros at its end. -/

namespace ControlPlane.Digits

def value? (c : Char) : Option Nat :=
  if c.isDigit then some (c.toNat - 48) else none

/-- The value of a hexadecimal digit. -/
def hexValue? (c : Char) : Option Nat :=
  if c.isDigit then some (c.toNat - 48)
  else if 'a' ≤ c ∧ c ≤ 'f' then some (c.toNat - 87)
  else if 'A' ≤ c ∧ c ≤ 'F' then some (c.toNat - 55)
  else none

/-- The hexadecimal digit of a value below sixteen. -/
def hexDigit (n : Nat) : Char := if n < 10 then Char.ofNat (48 + n) else Char.ofNat (87 + n)

/-- The number that a row of digits stands for in a base. -/
def ofValues (base : Nat) (values : List Nat) : Nat := values.foldl (fun n d => n * base + d) 0

/-- The decimal digits of a number, without leading zeros. -/
def ofNat (n : Nat) : List Char := Nat.toDigits 10 n

/-- The decimal digits of a number, filled up with zeros to a width. -/
def padded (width n : Nat) : List Char :=
  List.replicate (width - (ofNat n).length) '0' ++ ofNat n

/-- The value of the digits read after those that make up `acc`. -/
def readFrom? (acc : Nat) : List Char → Option Nat
  | [] => some acc
  | c :: cs => (value? c).bind fun d => readFrom? (acc * 10 + d) cs

/-- The value of a numeral of at least one digit. -/
def read? : List Char → Option Nat
  | [] => none
  | cs => readFrom? 0 cs

/-- The value of a numeral below a bound; one plus sign may stand before it. -/
def readBelow? (bound : Nat) (s : List Char) : Option Nat :=
  (read? (if s.head? = some '+' then s.tail else s)).filter (· < bound)

/-- The digits of `n` after a decimal point, where the last of `width` places counts one unit;
zeros at the end are dropped. -/
def fraction (width n : Nat) : List Char :=
  ((padded width n).reverse.dropWhile (· == '0')).reverse

/-- A whole number and a fraction in `width` places, with a point only if the fraction is not
zero. -/
def decimal (whole width frac : Nat) : String :=
  let digits := if frac = 0 then [] else '.' :: fraction width frac
  String.ofList (ofNat whole ++ digits)

theorem hexValue?_hexDigit {n : Nat} (h : n < 16) : hexValue? (hexDigit n) = some n := by
  have : ∀ n < 16, hexValue? (hexDigit n) = some n := by decide
  exact this n h

end ControlPlane.Digits
