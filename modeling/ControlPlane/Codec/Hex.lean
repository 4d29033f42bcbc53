import ControlPlane.Codec.Basic
import ControlPlane.Text.Digits

/-! Bytes as text: two hexadecimal digits for each byte, the higher one first. -/

namespace ControlPlane.Hex

def encode : Bytes → List Char
  | [] => []
  | b :: bytes =>
    Digits.hexDigit (b.toNat / 16) :: Digits.hexDigit (b.toNat % 16) :: encode bytes

/-- Refuses a digit that stands alone. -/
def decode? : List Char → Option Bytes
  | [] => some []
  | [_] => none
  | a :: b :: s => do
    let high ← Digits.hexValue? a
    let low ← Digits.hexValue? b
    (decode? s).map (UInt8.ofNat (16 * high + low) :: ·)

def write (bytes : Bytes) : String := String.ofList (encode bytes)

def read? (s : String) : Option Bytes := decode? s.toList

theorem decode?_encode (bytes : Bytes) : decode? (encode bytes) = some bytes := by
  induction bytes with
  | nil => rfl
  | cons b bytes ih =>
    have hb := b.toNat_lt
    have value : UInt8.ofNat (16 * (b.toNat / 16) + b.toNat % 16) = b := by
      rw [Nat.div_add_mod, UInt8.ofNat_toNat]
    rw [encode, decode?, Digits.hexValue?_hexDigit (by omega), Digits.hexValue?_hexDigit (by omega)]
    simp only [ih, bind, Option.bind_some, Option.map_some, value]

theorem read?_write (bytes : Bytes) : read? (write bytes) = some bytes := by
  simp [read?, write, decode?_encode]

end ControlPlane.Hex
