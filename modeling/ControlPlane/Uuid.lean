import ControlPlane.Table
import ControlPlane.Text.Digits

/-! Universally unique identifiers: 128 bits, written as 32 hexadecimal digits in five groups. -/

namespace ControlPlane

@[ext] structure Uuid where
  hi : UInt64
  lo : UInt64
deriving DecidableEq, Repr

namespace Uuid

instance : Inhabited Uuid := ⟨⟨0, 0⟩⟩

/-- The identifier as a number, which orders identifiers as their texts are ordered. -/
def toNat (u : Uuid) : Nat := u.hi.toNat * UInt64.size + u.lo.toNat

def ofNat (n : Nat) : Uuid := ⟨UInt64.ofNat (n / UInt64.size), UInt64.ofNat n⟩

instance : Keyed Uuid := ⟨toNat⟩

theorem toNat_injective {u v : Uuid} (h : u.toNat = v.toNat) : u = v := by
  have hu := u.lo.toNat_lt
  have hv := v.lo.toNat_lt
  simp only [toNat, UInt64.size] at h
  exact Uuid.ext (UInt64.toNat_inj.1 (by omega)) (UInt64.toNat_inj.1 (by omega))

/-- The sizes of the groups of digits. -/
def groups : List Nat := [8, 4, 4, 4, 12]

/-- Cuts a row of digits into groups with hyphens between them. -/
def hyphenate : List Nat → List Char → List Char
  | [], _ => []
  | [n], digits => digits.take n
  | n :: sizes, digits => digits.take n ++ '-' :: hyphenate sizes (digits.drop n)

def write (u : Uuid) : String :=
  let digits := Nat.toDigits 16 u.toNat
  String.ofList (hyphenate groups (List.replicate (32 - digits.length) '0' ++ digits))

instance : ToString Uuid := ⟨write⟩

/-- Reads the hyphenated text of an identifier. -/
def read? (s : String) : Option Uuid := do
  let digits := s.toList.filter (· ≠ '-')
  let values ← digits.mapM Digits.hexValue?
  if hyphenate groups digits = s.toList ∧ digits.length = 32 then
    some (ofNat (Digits.ofValues 16 values))
  else none

end Uuid
end ControlPlane
