import ControlPlane.Span.Basic
import ControlPlane.Text.Blank

/-! Spans written as phrases such as `1h 30m`. A phrase is a row of numbers, each with a unit; the
parts add up, in any order. A number may have a fraction if that fraction of the unit is a whole
number of nanoseconds, or of seconds for an hour and more. Every step is checked against 64 bits. -/

namespace ControlPlane.Span.Phrase

inductive TimeUnit where
  | nanosecond | microsecond | millisecond | second | minute | hour | day | week | month | year
deriving DecidableEq, Repr

namespace TimeUnit

/-- The spellings of a unit; case matters. -/
def spellings : TimeUnit → List String
  | nanosecond => ["nanos", "nsec", "ns"]
  | microsecond => ["usec", "us", "µs"]
  | millisecond => ["millis", "msec", "ms"]
  | second => ["seconds", "second", "secs", "sec", "s"]
  | minute => ["minutes", "minute", "min", "mins", "m"]
  | hour => ["hours", "hour", "hr", "hrs", "h"]
  | day => ["days", "day", "d"]
  | week => ["weeks", "week", "wk", "wks", "w"]
  | month => ["months", "month", "M"]
  | year => ["years", "year", "yr", "yrs", "y"]

def all : List TimeUnit :=
  [nanosecond, microsecond, millisecond, second, minute, hour, day, week, month, year]

def ofSpelling? (s : String) : Option TimeUnit := all.find? (s ∈ ·.spellings)

/-- The length of a unit as `(seconds, nanoseconds)`, one of which is zero. -/
def size : TimeUnit → Nat × Nat
  | nanosecond => (0, 1)
  | microsecond => (0, 1000)
  | millisecond => (0, 1000000)
  | second => (1, 0)
  | minute => (60, 0)
  | hour => (3600, 0)
  | day => (86400, 0)
  | week => (604800, 0)
  | month => (2630016, 0)
  | year => (31557600, 0)

/-- The length of a unit of which fractions are taken: whole nanoseconds up to a minute and whole
seconds above. A nanosecond has no fractions. -/
def divisible? : TimeUnit → Option (Nat × Nat)
  | nanosecond => none
  | second => some (0, 1000000000)
  | minute => some (0, 60000000000)
  | u => some u.size

end TimeUnit

/-- The part of a number behind the decimal point, as a quotient. -/
structure Fraction where
  numerator : Nat
  denominator : Nat

/-- A number that fits into 64 bits. -/
def word? (n : Nat) : Option Nat := if n < UInt64.size then some n else none

/-- Adds `n` times a length to a span. -/
def add? (total : Span) (n : Nat) (length : Nat × Nat) : Option Span := do
  let secs ← word? (n * length.1)
  let nanos ← word? (n * length.2)
  let nanos ← word? (total.nanos + nanos)
  ofParts? (total.secs.toNat + secs) nanos

/-- Adds a fraction of a length to a span, if it comes out even. -/
def addFraction? (total : Span) (f : Fraction) (length : Nat × Nat) : Option Span := do
  let secs ← word? (f.numerator * length.1)
  let nanos ← word? (f.numerator * length.2)
  if secs % f.denominator = 0 ∧ nanos % f.denominator = 0 then
    add? total 1 (secs / f.denominator, nanos / f.denominator)
  else none

/-- What has been read of a phrase. -/
inductive Reading where
  | start
  /-- Between two parts. -/
  | between
  | whole (n : Nat)
  | fraction (n : Nat) (f : Fraction)
  /-- Inside a unit, whose letters stand in reverse. -/
  | unit (n : Nat) (f : Option Fraction) (letters : List Char)

def isUnitLetter (c : Char) : Bool := c.isAlpha || c == 'µ'

/-- Adds the part that has just ended. -/
def close? (total : Span) (n : Nat) (f : Option Fraction) (letters : List Char) : Option Span := do
  let u ← TimeUnit.ofSpelling? (String.ofList letters.reverse)
  let total ← add? total n u.size
  match f with
  | none => some total
  | some f => addFraction? total f (← u.divisible?)

/-- Reads one character. -/
def step? (total : Span) : Reading → Char → Option (Span × Reading)
  | .start, c => before .start c
  | .between, c => before .between c
  | .whole n, c =>
    match Digits.value? c with
    | some d => (word? (n * 10 + d)).map fun n => (total, .whole n)
    | none =>
      if isBlank c then some (total, .whole n)
      else if isUnitLetter c then some (total, .unit n none [c])
      else if c = '.' then some (total, .fraction n ⟨0, 1⟩)
      else none
  | .fraction n f, c =>
    match Digits.value? c with
    | some d => do
      let denominator ← word? (f.denominator * 10)
      let numerator ← word? (f.numerator * 10 + d)
      some (total, .fraction n ⟨numerator, denominator⟩)
    | none =>
      if isBlank c then some (total, .fraction n f)
      else if isUnitLetter c ∧ f.denominator ≠ 1 then some (total, .unit n (some f) [c])
      else none
  | .unit n f letters, c =>
    match Digits.value? c with
    | some d => (close? total n f letters).map (·, .whole d)
    | none =>
      if isBlank c then (close? total n f letters).map (·, .between)
      else if isUnitLetter c then some (total, .unit n f (c :: letters))
      else none
where
  /-- A number begins, after any white space. -/
  before (here : Reading) (c : Char) : Option (Span × Reading) :=
    match Digits.value? c with
    | some d => some (total, .whole d)
    | none => if isBlank c then some (total, here) else none

/-- Reads the rest of a phrase. -/
def run? (total : Span) : Reading → List Char → Option Span
  | .between, [] => some total
  | .unit n f letters, [] => close? total n f letters
  | _, [] => none
  | r, c :: cs => (step? total r c).bind fun (total, r) => run? total r cs

/-- Reads a phrase; a zero alone needs no unit. -/
def read? (s : String) : Option Span :=
  if s = "0" then some zero else run? zero .start s.toList

/-- The parts of a span in the order in which they are written, each with its unit; those of days
and more take an `s` in the plural. -/
def parts (s : Span) : List (Nat × String) :=
  let secs := s.secs.toNat
  let inYear := secs % 31557600
  let inMonth := inYear % 2630016
  let inDay := inMonth % 86400
  let long (n : Nat) (name : String) := (n, if 1 < n then name ++ "s" else name)
  [long (secs / 31557600) "year", long (inYear / 2630016) "month", long (inMonth / 86400) "day",
   (inDay / 3600, "h"), (inDay % 3600 / 60, "m"), (inDay % 60, "s"),
   (s.nanos / 1000000, "ms"), (s.nanos / 1000 % 1000, "us"), (s.nanos % 1000, "ns")]

/-- The phrase of a span: the parts that are not zero, with a space between them. -/
def write (s : Span) : String :=
  if s = zero then "0s"
  else " ".intercalate (((parts s).filter (·.1 ≠ 0)).map fun (n, u) => toString n ++ u)

end ControlPlane.Span.Phrase
