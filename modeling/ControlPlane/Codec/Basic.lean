import ControlPlane.Enumeration
import ControlPlane.Table

/-! Codecs: pairs of a writer, which turns a value into bytes, and a reader, which takes a value off
the front of some bytes and hands back the rest. Words have a fixed width and stand with their
lowest byte first; texts, lists and tables begin with their length; a choice begins with its index.
Whatever follows a value is left alone. -/

namespace ControlPlane

abbrev Bytes := List UInt8

structure Codec (α : Type) where
  encode : α → Bytes
  decode? : Bytes → Option (α × Bytes)

namespace Codec
variable {α β : Type}

/-- The value at the front of some bytes, whatever follows it. -/
def read? (c : Codec α) (bytes : Bytes) : Option α := (c.decode? bytes).map (·.1)

/-- The lowest `width` bytes of a number, the lowest one first. -/
def littleEndian : Nat → Nat → Bytes
  | 0, _ => []
  | width + 1, n => UInt8.ofNat n :: littleEndian width (n / 256)

/-- The number whose bytes these are, the lowest one first. -/
def ofLittleEndian : Bytes → Nat
  | [] => 0
  | b :: bytes => b.toNat + 256 * ofLittleEndian bytes

/-- The first `n` bytes and the rest, if there are as many. -/
def split? : Nat → Bytes → Option (Bytes × Bytes)
  | 0, bytes => some ([], bytes)
  | _ + 1, [] => none
  | n + 1, b :: bytes => (split? n bytes).map fun (front, rest) => (b :: front, rest)

/-- Numbers in a fixed number of bytes. -/
def word (width : Nat) : Codec Nat where
  encode := littleEndian width
  decode? bytes := (split? width bytes).map fun (front, rest) => (ofLittleEndian front, rest)

/-- Writes a value of another type that stands for the value. -/
def along (c : Codec α) (into : β → α) (of : α → β) : Codec β where
  encode b := c.encode (into b)
  decode? bytes := (c.decode? bytes).map fun (a, rest) => (of a, rest)

/-- Like `along`, where not every value of the other type stands for one. -/
def along? (c : Codec α) (into : β → α) (of? : α → Option β) : Codec β where
  encode b := c.encode (into b)
  decode? bytes := (c.decode? bytes).bind fun (a, rest) => (of? a).map (·, rest)

def u32 : Codec UInt32 := (word 4).along UInt32.toNat UInt32.ofNat

def u64 : Codec UInt64 := (word 8).along UInt64.toNat UInt64.ofNat

def unit : Codec Unit where
  encode _ := []
  decode? bytes := some ((), bytes)

/-- One value after the other. -/
def pair (c : Codec α) (d : Codec β) : Codec (α × β) where
  encode p := c.encode p.1 ++ d.encode p.2
  decode? bytes :=
    (c.decode? bytes).bind fun (a, rest) => (d.decode? rest).map fun (b, rest) => ((a, b), rest)

/-- The index of a value among finitely many, in a word of `width` bytes. -/
def choice (α : Type) [DecidableEq α] [Enumeration α] (width : Nat) : Codec α :=
  (word width).along? Enumeration.index Enumeration.ofIndex?

instance : Enumeration Bool where
  all := [false, true]
  name
    | false => "false"
    | true => "true"
  mem_all a := by cases a <;> decide

def bool : Codec Bool := choice Bool 1

/-- A truth value says whether a value follows. -/
def option (c : Codec α) : Codec (Option α) where
  encode
    | none => bool.encode false
    | some a => bool.encode true ++ c.encode a
  decode? bytes :=
    (bool.decode? bytes).bind fun (present, rest) =>
      if present then (c.decode? rest).map fun (a, rest) => (some a, rest)
      else some (none, rest)

/-- The bytes of some values, one after the other. -/
def encodeAll (c : Codec α) : List α → Bytes
  | [] => []
  | a :: items => c.encode a ++ encodeAll c items

/-- Takes a number of values off the front. -/
def decodeAll? (c : Codec α) : Nat → Bytes → Option (List α × Bytes)
  | 0, bytes => some ([], bytes)
  | n + 1, bytes =>
    (c.decode? bytes).bind fun (a, rest) =>
      (decodeAll? c n rest).map fun (items, rest) => (a :: items, rest)

def list (c : Codec α) : Codec (List α) where
  encode items := (word 8).encode items.length ++ encodeAll c items
  decode? bytes := ((word 8).decode? bytes).bind fun (n, rest) => decodeAll? c n rest

/-- A length and as many bytes. -/
def bytes : Codec Bytes where
  encode b := (word 8).encode b.length ++ b
  decode? b := ((word 8).decode? b).bind fun (n, rest) => split? n rest

/-- The text of well-formed UTF-8. -/
def text? (b : Bytes) : Option String := String.fromUTF8? ⟨b.toArray⟩

def text : Codec String := bytes.along? (·.toUTF8.data.toList) text?

/-- The rows of a table in ascending order. Rows are read in any order, and a later row takes the
place of an earlier one with the same key. -/
def table [Keyed α] (c : Codec α) : Codec (Table α) := (list c).along Table.rows Table.ofList

end Codec
end ControlPlane
