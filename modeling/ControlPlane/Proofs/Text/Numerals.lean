import ControlPlane.Timestamp.Text
import Mathlib.Algebra.Group.Nat.Defs

/-!
# Numerals and moments are read back

A numeral ends where its width is used up, or where a character is no digit. Written with zeros
before it or without, it is read back as the number it stands for. So the text of every point in
time is read as that point.
-/

namespace ControlPlane

namespace Digits
variable {n width : Nat} {s : List Char}

/-- Some characters are a numeral of the number. -/
structure Spells (n : Nat) (s : List Char) : Prop where
  digits : ∀ c ∈ s, c.isDigit = true
  ne_nil : s ≠ []
  value : Nat.ofDigitChars 10 s 0 = n

theorem spells_ofNat (n : Nat) : Spells n (ofNat n) where
  digits _ mem := Nat.isDigit_of_mem_toDigits (by decide) (by decide) mem
  ne_nil := Nat.toDigits_ne_nil
  value := Nat.ofDigitChars_ten_toDigits

theorem spells_padded (width n : Nat) : Spells n (padded width n) where
  digits c mem := by
    rcases List.mem_append.1 mem with zero | mem
    · rw [(List.mem_replicate.1 zero).2]
      rfl
    · exact (spells_ofNat n).digits c mem
  ne_nil := List.append_ne_nil_of_right_ne_nil _ (spells_ofNat n).ne_nil
  value := by
    rw [padded, Nat.ofDigitChars_append, Nat.ofDigitChars_replicate_zero, Nat.mul_zero]
    exact (spells_ofNat n).value

theorem length_padded (room : 0 < width) (small : n < 10 ^ width) :
    (padded width n).length = width := by
  have short := (Nat.length_toDigits_le_iff (by decide) room).2 small
  simp only [padded, ofNat, List.length_append, List.length_replicate]
  omega

theorem value?_of_isDigit {c : Char} (digit : c.isDigit = true) :
    value? c = some (c.toNat - '0'.toNat) :=
  if_pos digit

theorem readFrom?_eq (digits : ∀ c ∈ s, c.isDigit = true) (acc : Nat) :
    readFrom? acc s = some (Nat.ofDigitChars 10 s acc) := by
  induction s generalizing acc with
  | nil => rfl
  | cons c s ih =>
    rw [readFrom?, value?_of_isDigit (digits c List.mem_cons_self), Option.bind_some,
      ih fun c mem => digits c (List.mem_cons_of_mem _ mem), Nat.ofDigitChars_cons, Nat.mul_comm]

theorem Spells.read? (h : Spells n s) : read? s = some n := by
  cases s with
  | nil => exact (h.ne_nil rfl).elim
  | cons c s =>
    have read := readFrom?_eq h.digits 0
    rw [h.value] at read
    exact read

end Digits

theorem isBlank_of_isDigit {c : Char} (digit : c.isDigit = true) : isBlank c = false := by
  simp only [Char.isDigit, Bool.and_eq_true, decide_eq_true_eq] at digit
  have low : 48 ≤ c.toNat := digit.1
  have high : c.toNat ≤ 57 := digit.2
  simp [isBlank, blankRanges]
  omega

theorem dropBlanks_cons {c : Char} {s : List Char} (seen : isBlank c = false) :
    dropBlanks (c :: s) = c :: s := by
  rw [dropBlanks, List.dropWhile_cons_of_neg (by rw [seen]; decide)]

theorem Digits.Spells.dropBlanks {n : Nat} {s : List Char} (h : Spells n s) (t : List Char) :
    dropBlanks (s ++ t) = s ++ t := by
  cases s with
  | nil => exact (h.ne_nil rfl).elim
  | cons c s => exact dropBlanks_cons (isBlank_of_isDigit (h.digits c List.mem_cons_self))

namespace Timestamp
open Digits
variable {n width : Nat} {s rest : List Char}

theorem number?_append (h : Spells n s) (room : s.length ≤ width)
    (ends : s.length = width ∨ ∀ c ∈ rest.head?, c.isDigit = false) :
    number? width (s ++ rest) = some (n, rest) := by
  have behind : (rest.take (width - s.length)).takeWhile Char.isDigit = [] := by
    rcases ends with full | stop
    · rw [full, Nat.sub_self, List.take_zero, List.takeWhile_nil]
    · cases rest with
      | nil => rw [List.take_nil, List.takeWhile_nil]
      | cons c rest =>
        have plain := stop c rfl
        cases width - s.length <;> simp [plain]
  have digits : ((s ++ rest).take width).takeWhile Char.isDigit = s := by
    rw [List.take_append, List.take_of_length_le room,
      List.takeWhile_append_of_pos h.digits, behind, List.append_nil]
  simp only [number?, digits, h.read?, Option.map_some, List.drop_left]

theorem component?_padded (room : 0 < width) (small : n < 10 ^ width) (rest : List Char) :
    component? width (padded width n ++ rest) = some (n, rest) := by
  have full := length_padded room small
  rw [component?, (spells_padded width n).dropBlanks]
  exact number?_append (spells_padded width n) (Nat.le_of_eq full) (.inl full)

theorem mark?_cons {c : Char} (seen : isBlank c = false) (s : List Char) :
    mark? c (c :: s) = some s := by
  simp only [mark?, dropBlanks_cons seen, if_pos]

theorem year?_yearText (year : Int) (rest : List Char) :
    year? (yearText year ++ '-' :: rest) = some (year, '-' :: rest) := by
  have stop : ∀ c ∈ ('-' :: rest).head?, c.isDigit = false := by simp
  have signed (n : Nat) : number? (padded 4 n ++ '-' :: rest).length (padded 4 n ++ '-' :: rest) =
      some (n, '-' :: rest) :=
    number?_append (spells_padded 4 n) (by simp) (.inr stop)
  unfold yearText
  split
  next plain =>
    have spelled := spells_padded 4 year.toNat
    have full : (padded 4 year.toNat).length = 4 := length_padded (by decide) (by omega)
    have read : number? 4 (padded 4 year.toNat ++ '-' :: rest) = _ :=
      number?_append spelled (Nat.le_of_eq full) (.inl full)
    rw [year?, spelled.dropBlanks]
    generalize padded 4 year.toNat = digits at spelled read
    -- A digit is no sign.
    obtain ⟨c, digits, rfl⟩ := List.exists_cons_of_ne_nil spelled.ne_nil
    have digit := spelled.digits c List.mem_cons_self
    split
    next h =>
      cases h
      cases digit
    next h =>
      cases h
      cases digit
    · rw [read, Option.map_some]
      simp only [Int.toNat_of_nonneg plain.1]
  next long =>
    split
    next early =>
      rw [List.cons_append, year?, dropBlanks_cons (by decide)]
      simp only [signed, Option.map_some, Option.some.injEq, Prod.mk.injEq, and_true]
      omega
    next late =>
      rw [List.cons_append, year?, dropBlanks_cons (by decide)]
      simp only [signed, Option.map_some, Option.some.injEq, Prod.mk.injEq, and_true]
      omega

theorem fraction?_digits (room : width ≤ 9) (some_digits : 0 < width) (small : n < 10 ^ width)
    (rest : List Char) :
    fraction? ('.' :: (padded width n ++ 'Z' :: rest)) =
      some (n * 10 ^ (9 - width), 'Z' :: rest) := by
  have full := length_padded some_digits small
  have read : number? 9 (padded width n ++ 'Z' :: rest) = some (n, 'Z' :: rest) :=
    number?_append (spells_padded width n) (Nat.le_trans (Nat.le_of_eq full) room) (.inr (by simp))
  simp [fraction?, read, full]

theorem fraction?_fractionText {nanos : Nat} (small : nanos < 1000000000) (rest : List Char) :
    fraction? (fractionText nanos ++ 'Z' :: rest) = some (nanos, 'Z' :: rest) := by
  unfold fractionText
  split
  next zero =>
    rw [zero]
    rfl
  split
  next millis =>
    rw [List.cons_append, fraction?_digits (by decide) (by decide) (by omega)]
    have whole : nanos / 1000000 * 10 ^ (9 - 3) = nanos := by omega
    rw [whole]
  split
  next micros =>
    rw [List.cons_append, fraction?_digits (by decide) (by decide) (by omega)]
    have whole : nanos / 1000 * 10 ^ (9 - 6) = nanos := by omega
    rw [whole]
  · rw [List.cons_append, fraction?_digits (by decide) (by decide) small,
      Nat.sub_self, Nat.pow_zero, Nat.mul_one]

theorem read?_write (t : Timestamp) : read? t.write = some t := by
  obtain ⟨-, -, -, month, -, day, hour, minute, second, nanos⟩ := t.valid
  have days : Calendar.daysIn t.year t.month ≤ 31 := by
    unfold Calendar.daysIn
    repeat' split
    all_goals decide
  have field {n : Nat} (h : n ≤ 99) (rest : List Char) :
      component? 2 (padded 2 n ++ rest) = some (n, rest) :=
      component?_padded (by decide) (by omega) rest
  have zone : offset? (dropBlanks ['Z']) = some (0, []) := rfl
  have known : of? t.year t.month t.day t.hour t.minute t.second t.nanos = some t := dif_pos t.valid
  simp only [write, civil, List.append_assoc, List.cons_append]
  rw [read?, String.toList_ofList, year?_yearText]
  dsimp only [Option.bind_eq_bind, Option.bind_some]
  rw [mark?_cons (by decide), Option.bind_some, field (by omega), Option.bind_some,
    mark?_cons (by decide), Option.bind_some, field (by omega), Option.bind_some]
  simp only [true_or, if_true]
  rw [field (by omega), Option.bind_some, mark?_cons (by decide),
    Option.bind_some, field (by omega),
    Option.bind_some, mark?_cons (by decide), Option.bind_some, field (by omega), Option.bind_some,
    fraction?_fractionText nanos, Option.bind_some, zone, Option.bind_some, known, Option.bind_some]
  rfl

end Timestamp
end ControlPlane
