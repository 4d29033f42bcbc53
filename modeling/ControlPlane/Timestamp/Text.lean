import ControlPlane.Text.Blank
import ControlPlane.Timestamp.Basic

/-! The text of a point in time, after RFC 3339. Writing gives UTC with a fraction of 0, 3, 6 or 9
digits, the fewest that suffice. Reading is lenient: blanks may stand between the components, a
sign may stand before the year, and any offset is taken back to UTC. -/

namespace ControlPlane.Timestamp

/-- The fraction of a second, with its point. -/
def fractionText (nanos : Nat) : List Char :=
  if nanos = 0 then []
  else if nanos % 1000000 = 0 then '.' :: Digits.padded 3 (nanos / 1000000)
  else if nanos % 1000 = 0 then '.' :: Digits.padded 6 (nanos / 1000)
  else '.' :: Digits.padded 9 nanos

/-- A year in four digits, with a sign where four digits do not hold it. -/
def yearText (year : Int) : List Char :=
  if 0 ≤ year ∧ year ≤ 9999 then Digits.padded 4 year.toNat
  else if year < 0 then '-' :: Digits.padded 4 (-year).toNat
  else '+' :: Digits.padded 4 year.toNat

/-- Date and time up to the fraction, without the offset. -/
def civil (t : Timestamp) : List Char :=
  yearText t.year ++ '-' :: (Digits.padded 2 t.month ++ '-' :: (Digits.padded 2 t.day ++
    'T' :: (Digits.padded 2 t.hour ++ ':' :: (Digits.padded 2 t.minute ++
      ':' :: (Digits.padded 2 t.second ++ fractionText t.nanos)))))

/-- The text with the offset written `Z`. -/
def write (t : Timestamp) : String := String.ofList (civil t ++ ['Z'])

/-- The text with the offset written as a number. -/
def writeOffset (t : Timestamp) : String := String.ofList (civil t ++ "+00:00".toList)

/-- Reads a number of one to `width` digits. -/
def number? (width : Nat) (s : List Char) : Option (Nat × List Char) :=
  let digits := (s.take width).takeWhile Char.isDigit
  (Digits.read? digits).map (·, s.drop digits.length)

/-- Reads a number with blanks before it. -/
def component? (width : Nat) (s : List Char) : Option (Nat × List Char) :=
  number? width (dropBlanks s)

/-- Reads a year of up to four digits, or of any length after a sign. -/
def year? (s : List Char) : Option (Int × List Char) :=
  match dropBlanks s with
  | '-' :: s => (number? s.length s).map fun (n, s) => (-(n : Int), s)
  | '+' :: s => (number? s.length s).map fun (n, s) => ((n : Int), s)
  | s => (number? 4 s).map fun (n, s) => ((n : Int), s)

/-- Reads one given character, with blanks before it. -/
def mark? (c : Char) (s : List Char) : Option (List Char) :=
  match dropBlanks s with
  | d :: s => if c = d then some s else none
  | [] => none

/-- Reads a fraction of a second, if there is one; digits after the ninth are passed over. -/
def fraction? (s : List Char) : Option (Nat × List Char) :=
  match s with
  | '.' :: s => do
    let (n, rest) ← number? 9 s
    some (n * Nat.pow 10 (9 - (s.length - rest.length)), rest.dropWhile Char.isDigit)
  | s => some (0, s)

/-- The two digits at the front, as a number. -/
def twoDigits? (s : List Char) : Option (Nat × List Char) :=
  match s with
  | a :: b :: s => do some ((← Digits.value? a) * 10 + (← Digits.value? b), s)
  | _ => none

/-- Reads an offset from UTC in minutes. -/
def offset? (s : List Char) : Option (Int × List Char) :=
  match s with
  | 'Z' :: s => some (0, s)
  | 'z' :: s => some (0, s)
  | '+' :: s => span? s
  | '-' :: s => (span? s).map fun (n, s) => (-n, s)
  | '−' :: s => (span? s).map fun (n, s) => (-n, s)
  | u :: t :: c :: s =>
    if u.toUpper = 'U' ∧ t.toUpper = 'T' ∧ c.toUpper = 'C' then some (0, s) else none
  | _ => none
where
  /-- Hours and minutes, with colons or blanks between them. -/
  span? (s : List Char) : Option (Int × List Char) := do
    let (hours, s) ← twoDigits? s
    let (minutes, s) ← twoDigits? (s.dropWhile fun c => c = ':' || isBlank c)
    if minutes < 60 then some ((hours * 60 + minutes : Nat), s) else none

/-- Reads a point in time. -/
def read? (s : String) : Option Timestamp := do
  let (year, s) ← year? s.toList
  let (month, s) ← component? 2 (← mark? '-' s)
  let (day, s) ← component? 2 (← mark? '-' s)
  let s ← match s with
    | c :: s => if c = 'T' ∨ c = 't' ∨ c = ' ' then some s else none
    | [] => none
  let (hour, s) ← component? 2 s
  let (minute, s) ← component? 2 (← mark? ':' s)
  let (second, s) ← component? 2 (← mark? ':' s)
  let (nanos, s) ← fraction? s
  let (offset, s) ← offset? (dropBlanks s)
  if dropBlanks s = [] ∧ -1440 < offset ∧ offset < 1440 then
    (← of? year month day hour minute second nanos).minusMinutes? offset
  else none

end ControlPlane.Timestamp
