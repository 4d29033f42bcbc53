import ControlPlane.Text.Digits

/-! Points in time on the civil calendar, in UTC. A leap second is the sixtieth second of a minute.
Years reach from -262143 to 262142. -/

namespace ControlPlane

namespace Calendar

def IsLeap (year : Int) : Prop := year % 4 = 0 ∧ (year % 100 ≠ 0 ∨ year % 400 = 0)

instance (year : Int) : Decidable (IsLeap year) := by unfold IsLeap; infer_instance

def daysIn (year : Int) (month : Nat) : Nat :=
  if month = 2 then (if IsLeap year then 29 else 28)
  else if month = 4 ∨ month = 6 ∨ month = 9 ∨ month = 11 then 30
  else 31

/-- The days from 1 March of year 0 to a date, counting years from March. -/
def dayNumber (year : Int) (month day : Nat) : Int :=
  let y := if month ≤ 2 then year - 1 else year
  let m := if month ≤ 2 then month + 9 else month - 3
  y * 365 + y / 4 - y / 100 + y / 400 + (m * 306 + 5) / 10 + (day - 1)

/-- The date with a given day number, as year, month and day. -/
def dateOf (n : Int) : Int × Nat × Nat :=
  let era := n / 146097
  let d := (n % 146097).toNat
  let yearOfEra := (d - d / 1460 + d / 36524 - d / 146096) / 365
  let dayOfYear := d - (365 * yearOfEra + yearOfEra / 4 - yearOfEra / 100)
  let m := (5 * dayOfYear + 2) / 153
  let day := dayOfYear - (m * 306 + 5) / 10 + 1
  let month := if m < 10 then m + 3 else m - 9
  let year := era * 400 + yearOfEra
  (if month ≤ 2 then year + 1 else year, month, day)

end Calendar

/-- The fields of a point in time are in range. -/
def Timestamp.Valid (year : Int) (month day hour minute second nanos : Nat) : Prop :=
  -262143 ≤ year ∧ year ≤ 262142 ∧ 1 ≤ month ∧ month ≤ 12 ∧ 1 ≤ day ∧
    day ≤ Calendar.daysIn year month ∧ hour < 24 ∧ minute < 60 ∧
    second ≤ 60 ∧ nanos < 1000000000

instance (year : Int) (month day hour minute second nanos : Nat) :
    Decidable (Timestamp.Valid year month day hour minute second nanos) := by
  unfold Timestamp.Valid; infer_instance

@[ext] structure Timestamp where
  year : Int
  month : Nat
  day : Nat
  hour : Nat
  minute : Nat
  second : Nat
  nanos : Nat
  valid : Timestamp.Valid year month day hour minute second nanos
deriving DecidableEq, Repr

namespace Timestamp

def epoch : Timestamp := ⟨1970, 1, 1, 0, 0, 0, 0, by decide⟩

instance : Inhabited Timestamp := ⟨epoch⟩

def of? (year : Int) (month day hour minute second nanos : Nat) : Option Timestamp :=
  if h : Valid year month day hour minute second nanos then
    some ⟨year, month, day, hour, minute, second, nanos, h⟩
  else none

/-- The point that lies some minutes before another one. -/
def minusMinutes? (t : Timestamp) (minutes : Int) : Option Timestamp :=
  if minutes = 0 then some t
  else
    let total := (Calendar.dayNumber t.year t.month t.day * 24 + t.hour) * 60 + t.minute - minutes
    let (year, month, day) := Calendar.dateOf (total / 1440)
    let rest := (total % 1440).toNat
    of? year month day (rest / 60) (rest % 60) t.second t.nanos

/-- The point some nanoseconds after the epoch. -/
def ofEpochNanos? (n : Nat) : Option Timestamp :=
  let secs := n / 1000000000
  let (year, month, day) := Calendar.dateOf (Calendar.dayNumber 1970 1 1 + secs / 86400)
  of? year month day (secs % 86400 / 3600) (secs % 3600 / 60) (secs % 60) (n % 1000000000)

/-- The fields from the longest to the shortest, which order points in time. -/
def fields (t : Timestamp) : List Int :=
  [t.year, t.month, t.day, t.hour, t.minute, t.second, t.nanos]

/-- Rows of numbers in the order of the first place where they differ. -/
def RowLe : List Int → List Int → Prop
  | [], _ => True
  | _ :: _, [] => False
  | a :: s, b :: t => a < b ∨ a = b ∧ RowLe s t

instance instDecidableRowLe : (s t : List Int) → Decidable (RowLe s t)
  | [], _ => isTrue trivial
  | _ :: _, [] => isFalse id
  | a :: s, b :: t =>
    have := instDecidableRowLe s t
    inferInstanceAs (Decidable (a < b ∨ a = b ∧ RowLe s t))

/-- The order of time. -/
def Le (s t : Timestamp) : Prop := RowLe s.fields t.fields

instance (s t : Timestamp) : Decidable (Le s t) := by unfold Le; infer_instance

end Timestamp
end ControlPlane
