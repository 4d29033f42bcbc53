import ControlPlane.Text.Digits
import ControlPlane.Timestamp.Basic

/-! Numbers, dates and times of a TOML document, each judged as a whole word. -/

namespace ControlPlane.Toml.Token

/-- The digits of a numeral, without the underscores that may stand between two of them. -/
def ungroup? (isDigit : Char → Bool) : List Char → Option (List Char)
  | [] => none
  | [c] => if isDigit c then some [c] else none
  | c :: '_' :: s => if isDigit c then (ungroup? isDigit s).map (c :: ·) else none
  | c :: s => if isDigit c then (ungroup? isDigit s).map (c :: ·) else none

/-- The digits of a decimal numeral that does not begin with a superfluous zero. -/
def decimal? (s : List Char) : Option (List Char) :=
  (ungroup? Char.isDigit s).filter fun digits => digits.length = 1 || digits.head? != some '0'

/-- The sign of a numeral and what follows it. -/
def sign : List Char → Bool × List Char
  | '-' :: s => (true, s)
  | '+' :: s => (false, s)
  | s => (false, s)

/-- A whole number that fits into 64 bits with a sign. -/
def inRange? (n : Int) : Option Int :=
  if -9223372036854775808 ≤ n ∧ n ≤ 9223372036854775807 then some n else none

/-- A numeral in a base other than ten. -/
def based? (base : Nat) (isDigit : Char → Bool) (s : List Char) : Option Int := do
  let digits ← ungroup? isDigit s
  inRange? (Digits.ofValues base (← digits.mapM Digits.hexValue?))

def integer? : List Char → Option Int
  | '0' :: 'x' :: s => based? 16 (fun c => (Digits.hexValue? c).isSome) s
  | '0' :: 'o' :: s => based? 8 (fun c => '0' ≤ c && c ≤ '7') s
  | '0' :: 'b' :: s => based? 2 (fun c => c == '0' || c == '1') s
  | s => do
    let (negative, s) := sign s
    let n : Int ← Digits.read? (← decimal? s)
    inRange? (if negative then -n else n)

/-- The least number that is too large for a double: halfway above the largest one. -/
def tooLarge : Nat := Nat.pow 2 1024 - Nat.pow 2 970

/-- A mantissa times a power of ten is too large for a double. Numbers are compared by their length
first, so that no large power is ever computed. -/
def overflows (mantissa : Nat) (exponent : Int) : Bool :=
  let length : Int := (Digits.ofNat mantissa).length + exponent
  if mantissa = 0 ∨ length < 308 then false
  else if 310 < length then true
  else if 0 ≤ exponent then tooLarge ≤ mantissa * Nat.pow 10 exponent.toNat
  else tooLarge * Nat.pow 10 (-exponent).toNat ≤ mantissa

/-- The exponent behind an `e`. -/
def exponent? (s : List Char) : Option Int := do
  let (negative, s) := sign s
  let n : Int ← Digits.read? (← ungroup? Char.isDigit s)
  some (if negative then -n else n)

/-- A float: a whole part, and a fraction or an exponent or both. Only positive infinity has to be
written as such. -/
def isFloat (s : List Char) : Bool :=
  let (negative, s) := sign s
  if s = ['i', 'n', 'f'] ∨ s = ['n', 'a', 'n'] then true
  else
    let isMark := fun c => c == 'e' || c == 'E'
    let (mantissa, tail) := s.span (!isMark ·)
    let (whole, fraction) := mantissa.span (· != '.')
    let parts : Option (List Char × List Char × Int) := do
      let whole ← decimal? whole
      let fraction ← if fraction.isEmpty then some [] else ungroup? Char.isDigit fraction.tail
      let exponent ← if tail.isEmpty then some 0 else exponent? tail.tail
      some (whole, fraction, exponent)
    match parts with
    | none => false
    | some (whole, digits, exponent) =>
      !(fraction.isEmpty && tail.isEmpty) &&
        (negative ||
          !overflows ((Digits.read? (whole ++ digits)).getD 0) (exponent - digits.length))

/-- Two digits with a value up to a bound. -/
def twoDigits? (least most : Nat) (s : List Char) : Option (List Char) :=
  match s with
  | a :: b :: s => do
    let n := (← Digits.value? a) * 10 + (← Digits.value? b)
    if least ≤ n ∧ n ≤ most then some s else none
  | _ => none

def mark? (c : Char) : List Char → Option (List Char)
  | d :: s => if c = d then some s else none
  | [] => none

/-- Takes a date off the front. -/
def date? (s : List Char) : Option (List Char) := do
  let year ← Digits.read? (s.take 4)
  let month ← Digits.read? ((s.drop 5).take 2)
  let day ← Digits.read? ((s.drop 8).take 2)
  let rest ← mark? '-' (s.drop 4)
  let rest ← mark? '-' (← twoDigits? 1 12 rest)
  let rest ← twoDigits? 1 31 rest
  if day ≤ Calendar.daysIn year month then some rest else none

/-- Takes a time of day off the front, with a fraction of a second if there is one. -/
def time? (s : List Char) : Option (List Char) := do
  let rest ← mark? ':' (← twoDigits? 0 23 s)
  let rest ← mark? ':' (← twoDigits? 0 59 rest)
  let rest ← twoDigits? 0 60 rest
  match rest with
  | '.' :: c :: more => if c.isDigit then some (more.dropWhile Char.isDigit) else none
  | rest => some rest

/-- A word is an offset from UTC, or empty. -/
def isOffset : List Char → Bool
  | [] => true
  | ['Z'] => true
  | ['z'] => true
  | c :: s =>
    (c == '+' || c == '-') &&
      ((twoDigits? 0 23 s).bind (mark? ':') |>.bind (twoDigits? 0 59)) == some []

/-- A word is a time of day, and an offset if `offset` allows one. -/
def isTime (offset : Bool) (s : List Char) : Bool :=
  match time? s with
  | some rest => if offset then isOffset rest else rest.isEmpty
  | none => false

/-- A word is a date alone. -/
def isDate (s : List Char) : Bool := date? s == some []

/-- A word is a date, a time of day, or both with a `T` in between. -/
def isDatetime (s : List Char) : Bool :=
  isTime false s ||
    match date? s with
    | some [] => true
    | some (c :: rest) => (c == 'T' || c == 't') && isTime true rest
    | none => false

end ControlPlane.Toml.Token
