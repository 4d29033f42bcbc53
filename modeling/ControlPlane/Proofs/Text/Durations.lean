import ControlPlane.Proofs.Text.Numerals
import ControlPlane.Span.Phrase

/-!
# Spans are read back

The phrase of a span is a row of numbers, each with its unit, and what they amount to is the span. A
reader that adds them up comes by the same total, and never leaves 64 bits on the way, since no sum
of some of the parts exceeds the span.
-/

namespace ControlPlane.Span

def length (s : Span) : Nat := 1000000000 * s.secs.toNat + s.nanos

theorem length_injective {s t : Span} (h : s.length = t.length) : s = t := by
  have hs := s.nanos_lt
  have ht := t.nanos_lt
  simp only [length] at h
  exact Span.ext (UInt64.toNat_inj.1 (by omega)) (by omega)

theorem length_lt (s : Span) : s.length < 1000000000 * UInt64.size := by
  have secs := s.secs.toNat_lt
  have nanos := s.nanos_lt
  simp only [length, UInt64.size]
  omega

namespace Phrase
open Digits

def TimeUnit.length (u : TimeUnit) : Nat := 1000000000 * u.size.1 + u.size.2

theorem ofParts?_eq (secs nanos : Nat)
    (room : 1000000000 * secs + nanos < 1000000000 * UInt64.size) :
    ∃ s, ofParts? secs nanos = some s ∧ s.length = 1000000000 * secs + nanos := by
  have small : secs + nanos / 1000000000 < UInt64.size := by omega
  refine ⟨_, if_pos small, ?_⟩
  simp only [length, UInt64.toNat_ofNat_of_lt' small]
  omega

theorem word?_eq {n : Nat} (small : n < UInt64.size) : word? n = some n := if_pos small

theorem add?_eq {total : Span} {n : Nat} {u : TimeUnit} (short : n * u.size.2 < 1000000000)
    (room : total.length + n * u.length < 1000000000 * UInt64.size) :
    ∃ s, add? total n u.size = some s ∧ s.length = total.length + n * u.length := by
  have below := total.nanos_lt
  have whole : n * u.length = 1000000000 * (n * u.size.1) + n * u.size.2 := by
    rw [TimeUnit.length, Nat.mul_add, Nat.mul_left_comm]
  rw [whole, Span.length] at room ⊢
  simp only [add?]
  generalize n * u.size.1 = secs, n * u.size.2 = nanos at short room ⊢
  generalize total.secs.toNat = before at room ⊢
  have bound : 2000000000 < UInt64.size := by simp [UInt64.size]
  obtain ⟨s, sum, amount⟩ := ofParts?_eq (before + secs) (total.nanos + nanos) (by omega)
  rw [word?_eq (n := secs) (by omega), word?_eq (n := nanos) (by omega)]
  simp only [Option.bind_eq_bind, Option.bind_some]
  rw [word?_eq (by omega)]
  exact ⟨s, sum, by omega⟩

/-! ### One part -/

/-- A part of a phrase is a number of units that leave 64 bits alone. -/
structure Counts (n : Nat) (name : String) (u : TimeUnit) : Prop where
  spelling : TimeUnit.ofSpelling? name = some u
  letters : name.toList.all Char.isAlpha = true
  small : n < UInt64.size
  short : n * u.size.2 < 1000000000

section
variable {total : Span} {n : Nat} {name : String} {u : TimeUnit} {letters rest : List Char}

theorem letter_range {c : Char} (letter : c.isAlpha = true) :
    (65 ≤ c.toNat ∧ c.toNat ≤ 90) ∨ (97 ≤ c.toNat ∧ c.toNat ≤ 122) := by
  rcases (Bool.or_eq_true _ _).mp letter with upper | lower
  · exact .inl (of_decide_eq_true upper)
  · have bounds := (Bool.and_eq_true _ _).mp lower
    exact .inr ⟨of_decide_eq_true bounds.1, of_decide_eq_true bounds.2⟩

theorem letter_cases {c : Char} (letter : c.isAlpha = true) :
    value? c = none ∧ isBlank c = false ∧ isUnitLetter c = true := by
  have range := letter_range letter
  refine ⟨?_, ?_, by rw [isUnitLetter, letter, Bool.true_or]⟩
  · simp [value?, Char.isDigit, UInt32.le_iff_toNat_le]
    omega
  · simp [isBlank, blankRanges]
    omega

theorem le_ofDigitChars (digits : List Char) (acc : Nat) :
    acc ≤ Nat.ofDigitChars 10 digits acc := by
  rw [Nat.ofDigitChars_eq_ofDigitChars_zero]
  exact Nat.le_add_right_of_le (Nat.le_mul_of_pos_left _ (Nat.pow_pos (by decide)))

theorem run?_digits {digits : List Char} (all : ∀ c ∈ digits, c.isDigit = true) {acc : Nat}
    (small : Nat.ofDigitChars 10 digits acc < UInt64.size) (rest : List Char) :
    run? total (.whole acc) (digits ++ rest) =
      run? total (.whole (Nat.ofDigitChars 10 digits acc)) rest := by
  induction digits generalizing acc with
  | nil => rfl
  | cons c digits ih =>
    rw [Nat.ofDigitChars_cons] at small ⊢
    have value := value?_of_isDigit (all c List.mem_cons_self)
    have fits := Nat.lt_of_le_of_lt (le_ofDigitChars digits _) small
    rw [← ih (fun c mem => all c (List.mem_cons_of_mem _ mem)) small,
      List.cons_append, run?, step?, value]
    simp only [Nat.mul_comm acc 10]
    rw [word?_eq fits]
    rfl

theorem run?_number {r : Reading} (ready : r = .start ∨ r = .between) (small : n < UInt64.size)
    (rest : List Char) : run? total r (ofNat n ++ rest) = run? total (.whole n) rest := by
  obtain ⟨digits, ne_nil, value⟩ := spells_ofNat n
  have read : run? total (.whole 0) (ofNat n ++ rest) = _ :=
    run?_digits digits (by rwa [value]) rest
  rw [value] at read
  rw [← read]
  cases all : ofNat n with
  | nil => exact (ne_nil all).elim
  | cons c later =>
    rw [all] at digits value
    have first := value?_of_isDigit (digits c List.mem_cons_self)
    rw [Nat.ofDigitChars_cons] at value
    have below := le_ofDigitChars later (10 * 0 + (c.toNat - '0'.toNat))
    rw [value, Nat.mul_zero, Nat.zero_add] at below
    have fits := Nat.lt_of_le_of_lt below small
    rcases ready with rfl | rfl
    all_goals
      simp only [List.cons_append, run?, step?, step?.before, first, Nat.zero_mul, Nat.zero_add,
        word?_eq fits]
      rfl

theorem run?_letters (letter : ∀ c ∈ letters, c.isAlpha = true) (seen rest : List Char) :
    run? total (.unit n none seen) (letters ++ rest) =
      run? total (.unit n none (letters.reverse ++ seen)) rest := by
  induction letters generalizing seen with
  | nil => rfl
  | cons c letters ih =>
    obtain ⟨noDigit, seenChar, unitLetter⟩ := letter_cases (letter c List.mem_cons_self)
    rw [List.reverse_cons, List.append_assoc, List.singleton_append,
      ← ih fun c mem => letter c (List.mem_cons_of_mem _ mem)]
    simp [run?, step?, noDigit, seenChar, unitLetter]

theorem Counts.run? (h : Counts n name u) {r : Reading} (ready : r = .start ∨ r = .between) :
    run? total r (ofNat n ++ (name.toList ++ rest)) =
      run? total (.unit n none name.toList.reverse) rest := by
  rw [run?_number ready h.small]
  have letter := List.all_eq_true.1 h.letters
  cases all : name.toList with
  | nil =>
    have empty : name = "" := String.toList_eq_nil_iff.1 all
    have spelling := h.spelling
    rw [empty] at spelling
    cases spelling
  | cons c letters =>
    rw [all] at letter
    obtain ⟨noDigit, seenChar, unitLetter⟩ := letter_cases (letter c List.mem_cons_self)
    rw [List.reverse_cons, ← run?_letters fun c mem => letter c (List.mem_cons_of_mem _ mem)]
    simp [Phrase.run?, step?, noDigit, seenChar, unitLetter]

theorem Counts.close? (h : Counts n name u) :
    close? total n none name.toList.reverse = add? total n u.size := by
  simp [Phrase.close?, h.spelling]

end

/-! ### All parts -/

def worth : List (Nat × String) → Nat
  | [] => 0
  | (n, name) :: parts => n * ((TimeUnit.ofSpelling? name).elim 0 TimeUnit.length) + worth parts

def phrase (parts : List (Nat × String)) : String :=
  " ".intercalate (parts.map fun (n, name) => toString n ++ name)

theorem run?_phrase {parts : List (Nat × String)} (some_parts : parts ≠ [])
    (counts : ∀ p ∈ parts, ∃ u, Counts p.1 p.2 u) {total : Span} {r : Reading}
    (ready : r = .start ∨ r = .between)
    (room : total.length + worth parts < 1000000000 * UInt64.size) :
    ∃ s, run? total r (phrase parts).toList = some s ∧
      s.length = total.length + worth parts := by
  induction parts generalizing total r with
  | nil => exact (some_parts rfl).elim
  | cons p parts ih =>
    obtain ⟨n, name⟩ := p
    obtain ⟨u, h⟩ : ∃ u, Counts n name u := counts (n, name) List.mem_cons_self
    have amount : worth ((n, name) :: parts) = n * u.length + worth parts := by
      simp [worth, h.spelling]
    rw [amount, ← Nat.add_assoc] at room ⊢
    obtain ⟨s, added, sum⟩ : ∃ s, add? total n u.size = some s ∧
      s.length = total.length + n * u.length :=
      add?_eq h.short (by omega)
    rw [← sum] at room ⊢
    have first : (toString n ++ name).toList = ofNat n ++ name.toList := by
      rw [String.toList_append, Nat.toString_eq_ofList_toDigits, String.toList_ofList]
      rfl
    cases parts with
    | nil =>
      refine ⟨s, ?_, rfl⟩
      have read : run? total r (ofNat n ++ (name.toList ++ [])) = _ := h.run? ready
      rw [List.append_nil] at read
      rw [phrase, List.map_singleton, String.intercalate_singleton, first, read,
        Phrase.run?, h.close?, added]
    | cons q parts =>
      have later : ∀ p ∈ q :: parts, ∃ u, Counts p.1 p.2 u :=
        fun p mem => counts p (List.mem_cons_of_mem _ mem)
      obtain ⟨s', read, sum'⟩ := ih (List.cons_ne_nil _ _) later (.inr rfl) room
      refine ⟨s', ?_, sum'⟩
      have split : (phrase ((n, name) :: q :: parts)).toList =
          ofNat n ++ (name.toList ++ ' ' :: (phrase (q :: parts)).toList) := by
        simp only [phrase, List.map_cons, String.intercalate_cons_cons, String.toList_append]
          at first ⊢
        rw [first, List.append_assoc, List.append_assoc]
        rfl
      have blank : step? total (.unit n none name.toList.reverse) ' ' = some (s, .between) := by
        have closed : close? total n none name.toList.reverse = _ := h.close?
        rw [added] at closed
        have gap : value? ' ' = none := rfl
        have seen : isBlank ' ' = true := rfl
        simp only [step?, gap, seen, closed, Option.map_some, if_true]
      rw [split, h.run? ready, ← read, Phrase.run?, blank]
      rfl

/-! ### The parts of a span -/

theorem worth_filter (parts : List (Nat × String)) :
    worth (parts.filter (·.1 ≠ 0)) = worth parts := by
  induction parts with
  | nil => rfl
  | cons p parts ih =>
    obtain ⟨n, name⟩ := p
    by_cases none_left : n = 0
    · rw [List.filter_cons_of_neg (by simpa using none_left), ih, none_left, worth, Nat.zero_mul,
        Nat.zero_add]
    · rw [List.filter_cons_of_pos (by simpa using none_left), worth, ih, worth]

theorem ofSpelling?_long {name : String} {u : TimeUnit} (one : TimeUnit.ofSpelling? name = some u)
    (several : TimeUnit.ofSpelling? (name ++ "s") = some u) (n : Nat) :
    TimeUnit.ofSpelling? (if 1 < n then name ++ "s" else name) = some u := by
  split
  · exact several
  · exact one

theorem isAlpha_long {name : String} (letters : name.toList.all Char.isAlpha = true) (n : Nat) :
    (if 1 < n then name ++ "s" else name).toList.all Char.isAlpha = true := by
  split
  · rw [String.toList_append, List.all_append, letters]
    rfl
  · exact letters

theorem counts_parts (s : Span) : ∀ p ∈ parts s, ∃ u, Counts p.1 p.2 u := by
  have nanos := s.nanos_lt
  have whole {n : Nat} (h : n ≤ s.secs.toNat) : n < UInt64.size :=
    Nat.lt_of_le_of_lt h s.secs.toNat_lt
  have broken {n : Nat} (h : n < 1000000000) : n < UInt64.size :=
    Nat.lt_trans h (by simp [UInt64.size])
  have none_short {n : Nat} : n * 0 < 1000000000 := by rw [Nat.mul_zero]; decide
  simp only [parts, List.forall_mem_cons, List.not_mem_nil, false_imp_iff, implies_true, and_true]
  refine ⟨⟨.year, ofSpelling?_long rfl rfl _, isAlpha_long (by decide) _,
    whole (by omega), none_short⟩,
    ⟨.month, ofSpelling?_long rfl rfl _, isAlpha_long (by decide) _,
      whole (by omega), none_short⟩,
    ⟨.day, ofSpelling?_long rfl rfl _, isAlpha_long (by decide) _,
      whole (by omega), none_short⟩,
    ⟨.hour, rfl, by decide, whole (by omega), none_short⟩,
    ⟨.minute, rfl, by decide, whole (by omega), none_short⟩,
    ⟨.second, rfl, by decide, whole (by omega), none_short⟩,
    ⟨.millisecond, rfl, by decide, broken (by omega), ?_⟩,
    ⟨.microsecond, rfl, by decide, broken (by omega), ?_⟩,
    ⟨.nanosecond, rfl, by decide, broken (by omega), ?_⟩⟩
  all_goals
    simp only [TimeUnit.size]
    omega

theorem worth_parts (s : Span) : worth (parts s) = s.length := by
  have hour : TimeUnit.ofSpelling? "h" = some .hour := rfl
  have minute : TimeUnit.ofSpelling? "m" = some .minute := rfl
  have second : TimeUnit.ofSpelling? "s" = some .second := rfl
  have milli : TimeUnit.ofSpelling? "ms" = some .millisecond := rfl
  have micro : TimeUnit.ofSpelling? "us" = some .microsecond := rfl
  have nano : TimeUnit.ofSpelling? "ns" = some .nanosecond := rfl
  have year : TimeUnit.ofSpelling? "year" = some .year := rfl
  have month : TimeUnit.ofSpelling? "month" = some .month := rfl
  have day : TimeUnit.ofSpelling? "day" = some .day := rfl
  simp only [worth, parts, ofSpelling?_long year rfl, ofSpelling?_long month rfl,
    ofSpelling?_long day rfl, hour, minute, second, milli, micro, nano, Option.elim_some,
    TimeUnit.length, TimeUnit.size, length]
  omega

theorem read?_write (s : Span) : read? (write s) = some s := by
  by_cases none_left : s = zero
  · rw [none_left]
    rfl
  have counts : ∀ p ∈ (parts s).filter (·.1 ≠ 0), ∃ u, Counts p.1 p.2 u := fun p mem =>
    counts_parts s p (List.mem_filter.1 mem).1
  have worth_s : worth ((parts s).filter (·.1 ≠ 0)) = s.length :=
    (worth_filter _).trans (worth_parts s)
  have some_parts : (parts s).filter (·.1 ≠ 0) ≠ [] := by
    intro empty
    rw [empty] at worth_s
    exact none_left (length_injective worth_s.symm)
  have room : zero.length + worth ((parts s).filter (·.1 ≠ 0)) < 1000000000 * UInt64.size := by
    rw [worth_s, show zero.length = 0 from rfl, Nat.zero_add]
    exact s.length_lt
  obtain ⟨t, read, sum⟩ := run?_phrase some_parts counts (.inl rfl) room
  have back : t = s := length_injective (by rw [sum, worth_s]; exact Nat.zero_add _)
  have written : write s = phrase ((parts s).filter (·.1 ≠ 0)) := if_neg none_left
  rw [read?, written, read, back, if_neg]
  -- A zero without a unit is no phrase.
  intro bare
  have refused : run? zero .start "0".toList = none := rfl
  rw [bare, refused] at read
  cases read

end Phrase
end ControlPlane.Span
