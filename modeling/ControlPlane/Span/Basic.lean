import ControlPlane.Text.Digits

/-! Lengths of time: whole seconds in 64 bits and a rest below one second. The short text of a
span, which error messages show, is a decimal number of the largest of the units `s`, `ms`, `µs`
and `ns` that fits into the span. -/

namespace ControlPlane

@[ext] structure Span where
  secs : UInt64
  nanos : Nat
  nanos_lt : nanos < 1000000000 := by omega
deriving DecidableEq, Repr

namespace Span

def zero : Span := ⟨0, 0, by omega⟩

instance : Inhabited Span := ⟨zero⟩

def ofSecs (n : UInt64) : Span := ⟨n, 0, by omega⟩

def ofMillis (n : UInt64) : Span :=
  ⟨n / 1000, (n % 1000).toNat * 1000000, by
    have : (n % 1000).toNat < 1000 := by
      rw [UInt64.toNat_mod]; exact Nat.mod_lt _ (by decide)
    omega⟩

/-- The span of whole seconds and nanoseconds, or `none` if the seconds exceed 64 bits. -/
def ofParts? (secs nanos : Nat) : Option Span :=
  if secs + nanos / 1000000000 < UInt64.size then
    some ⟨UInt64.ofNat (secs + nanos / 1000000000), nanos % 1000000000,
      Nat.mod_lt _ (by decide)⟩
  else none

/-- The whole milliseconds of the span. -/
def millis (s : Span) : Nat := s.secs.toNat * 1000 + s.nanos / 1000000

/-- The milliseconds that pass before the span is over. -/
def millisUp (s : Span) : Nat := s.secs.toNat * 1000 + (s.nanos + 999999) / 1000000

/-- The short text of a span. -/
def short (s : Span) : String :=
  if 0 < s.secs.toNat then Digits.decimal s.secs.toNat 9 s.nanos ++ "s"
  else if 1000000 ≤ s.nanos then Digits.decimal (s.nanos / 1000000) 6 (s.nanos % 1000000) ++ "ms"
  else if 1000 ≤ s.nanos then Digits.decimal (s.nanos / 1000) 3 (s.nanos % 1000) ++ "µs"
  else Digits.decimal s.nanos 0 0 ++ "ns"

instance : ToString Span := ⟨short⟩

end Span
end ControlPlane
