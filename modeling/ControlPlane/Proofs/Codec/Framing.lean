import ControlPlane.Codec.Basic
import Mathlib.Algebra.Group.Nat.Defs

/-!
# Values in frames

A codec is lawful if its reader finds the end of a value by itself: it gives back what was written,
whatever follows, and does not look behind the value that it takes. Nothing can be read off bytes
that break off inside a value. Every way to build a codec out of others keeps to this law.
-/

namespace ControlPlane.Codec
variable {α β : Type}

/-- A reader takes a value off the front, and would take the same off whatever begins like that. -/
def TakesFront (read : Bytes → Option (α × Bytes)) : Prop :=
  ∀ b a rest, read b = some (a, rest) → ∃ front, b = front ++ rest ∧
    ∀ t, read (front ++ t) = some (a, t)

namespace TakesFront
variable {read : Bytes → Option (α × Bytes)} {next : α → Bytes → Option (β × Bytes)}

theorem nothing (a? : Option α) : TakesFront fun b => a?.map (·, b) := by
  intro b a rest h
  obtain ⟨a, rfl, h⟩ := Option.map_eq_some_iff.1 h
  cases h
  exact ⟨[], rfl, fun t => rfl⟩

theorem bind (first : TakesFront read) (after : ∀ a, TakesFront (next a)) :
    TakesFront fun b => (read b).bind fun x => next x.1 x.2 := by
  intro b y rest both
  obtain ⟨⟨a, middle⟩, taken, then_taken⟩ := Option.bind_eq_some_iff.1 both
  obtain ⟨front, rfl, again⟩ := first _ _ _ taken
  obtain ⟨back, rfl, again'⟩ := after a _ _ _ then_taken
  refine ⟨front ++ back, (List.append_assoc ..).symm, fun t => ?_⟩
  simp only [List.append_assoc, again, Option.bind_some, again']

theorem map (first : TakesFront read) (f : α → β) :
    TakesFront fun b => (read b).map fun x => (f x.1, x.2) := by
  have same : (fun b => (read b).map fun x => (f x.1, x.2)) =
      fun b => (read b).bind fun x => (some (f x.1)).map (·, x.2) := by
    funext b
    cases read b <;> rfl
  rw [same]
  exact first.bind fun a => nothing (some (f a))

end TakesFront

/-! ### Words -/

theorem split?_eq_some {n : Nat} {b front rest : Bytes} :
    split? n b = some (front, rest) ↔ b = front ++ rest ∧ front.length = n := by
  induction n generalizing b front with
  | zero =>
    rw [List.length_eq_zero_iff]
    constructor
    · intro h
      cases h
      exact ⟨rfl, rfl⟩
    · rintro ⟨rfl, rfl⟩
      rfl
  | succ n ih =>
    cases b with
    | nil =>
      refine ⟨nofun, fun ⟨whole, length⟩ => ?_⟩
      rw [(List.append_eq_nil_iff.1 whole.symm).1] at length
      cases length
    | cons x b =>
      simp only [split?, Option.map_eq_some_iff]
      constructor
      · rintro ⟨⟨front, rest⟩, found, h⟩
        cases h
        obtain ⟨rfl, rfl⟩ := ih.1 found
        exact ⟨rfl, rfl⟩
      · rintro ⟨whole, length⟩
        cases front with
        | nil => cases length
        | cons y front =>
          cases whole
          exact ⟨(front, rest), ih.2 ⟨rfl, Nat.succ.inj length⟩, rfl⟩

theorem split?_append (front rest : Bytes) :
    split? front.length (front ++ rest) = some (front, rest) :=
  split?_eq_some.2 ⟨rfl, rfl⟩

theorem takesFront_split? (n : Nat) : TakesFront (split? n) := by
  intro b front rest h
  obtain ⟨rfl, rfl⟩ := split?_eq_some.1 h
  exact ⟨front, rfl, split?_append front⟩

theorem takesFront_word (width : Nat) : TakesFront (word width).decode? :=
  (takesFront_split? width).map ofLittleEndian

theorem length_littleEndian (width n : Nat) : (littleEndian width n).length = width := by
  induction width generalizing n with
  | zero => rfl
  | succ width ih => exact congrArg (· + 1) (ih _)

theorem ofLittleEndian_littleEndian {width n : Nat} (h : n < 256 ^ width) :
    ofLittleEndian (littleEndian width n) = n := by
  induction width generalizing n with
  | zero => simp_all [littleEndian, ofLittleEndian]
  | succ width ih =>
    have upper : n / 256 < 256 ^ width := by
      rw [Nat.pow_succ] at h
      omega
    simp only [littleEndian, ofLittleEndian, ih upper, UInt8.toNat_ofNat']
    omega

theorem decode?_word {width n : Nat} (h : n < 256 ^ width) (t : Bytes) :
    (word width).decode? ((word width).encode n ++ t) = some (n, t) := by
  have split := split?_append (littleEndian width n) t
  rw [length_littleEndian] at split
  simp only [word, split, Option.map_some, ofLittleEndian_littleEndian h]

/-! ### The law -/

/-- Lengths are written in 64 bits, so what is written of a value has to fit in there. -/
class Lawful (c : Codec α) : Prop where
  takesFront : TakesFront c.decode?
  restores : ∀ a t, (c.encode a).length < UInt64.size →
    c.decode? (c.encode a ++ t) = some (a, t)

class Solid (c : Codec α) : Prop where
  encode_ne_nil : ∀ a, c.encode a ≠ []

section
variable {c : Codec α} [Lawful c]

theorem read?_append (a : α) (t : Bytes) (fits : (c.encode a).length < UInt64.size) :
    c.read? (c.encode a ++ t) = some a := by
  rw [read?, Lawful.restores a t fits, Option.map_some]

/-- Nothing is read off bytes that break off inside a value. -/
theorem read?_eq_none {a : α} {p : Bytes} (fits : (c.encode a).length < UInt64.size)
    (part : p <+: c.encode a) (strict : p ≠ c.encode a) : c.read? p = none := by
  rw [read?, Option.map_eq_none_iff, Option.eq_none_iff_forall_ne_some]
  rintro ⟨other, rest⟩ taken
  obtain ⟨missing, whole⟩ := part
  obtain ⟨front, rfl, again⟩ := Lawful.takesFront _ _ _ taken
  -- The whole value is read as the other one too, and leaves what is missing.
  have twice := again (rest ++ missing)
  rw [← List.append_assoc, whole, ← List.append_nil (c.encode a), Lawful.restores a [] fits]
    at twice
  have none_missing := (List.append_eq_nil_iff.1 (congrArg Prod.snd (Option.some.inj twice)).symm).2
  rw [none_missing, List.append_nil] at whole
  exact strict whole

end

theorem lawful_along {c : Codec α} [Lawful c] {into : β → α} {of : α → β}
    (back : ∀ b, of (into b) = b) :
    Lawful (c.along into of) where
  takesFront := Lawful.takesFront.map of
  restores b t fits := by
    have restored := Lawful.restores (c := c) (into b) t fits
    simp only [along, restored, Option.map_some, back]

theorem lawful_along? {c : Codec α} [Lawful c] {into : β → α} {of? : α → Option β}
    (back : ∀ b, of? (into b) = some b) : Lawful (c.along? into of?) where
  takesFront := Lawful.takesFront.bind fun a => .nothing (of? a)
  restores b t fits := by
    have restored := Lawful.restores (c := c) (into b) t fits
    simp only [along?, restored, Option.bind_some, back, Option.map_some]

instance lawful_u32 : Lawful u32 where
  takesFront := (takesFront_word 4).map UInt32.ofNat
  restores n t _ := by
    have read : (word 4).decode? ((word 4).encode n.toNat ++ t) = _ := decode?_word n.toNat_lt t
    simp only [u32, along, read, Option.map_some, UInt32.ofNat_toNat]

instance lawful_u64 : Lawful u64 where
  takesFront := (takesFront_word 8).map UInt64.ofNat
  restores n t _ := by
    have read : (word 8).decode? ((word 8).encode n.toNat ++ t) = _ := decode?_word n.toNat_lt t
    simp only [u64, along, read, Option.map_some, UInt64.ofNat_toNat]

instance lawful_unit : Lawful unit where
  takesFront := .nothing (some ())
  restores _ _ _ := rfl

instance lawful_pair {c : Codec α} {d : Codec β} [Lawful c] [Lawful d] : Lawful (pair c d) where
  takesFront := Lawful.takesFront.bind fun a => Lawful.takesFront.map (a, ·)
  restores p t fits := by
    simp only [pair, List.length_append] at fits ⊢
    rw [List.append_assoc, Lawful.restores p.1 _ (by omega), Option.bind_some,
      Lawful.restores p.2 t (by omega), Option.map_some]

theorem lawful_choice [DecidableEq α] [Enumeration α] {width : Nat}
    (room : (Enumeration.all : List α).length ≤ 256 ^ width) : Lawful (choice α width) where
  takesFront := (takesFront_word width).bind fun n => .nothing (Enumeration.ofIndex? n)
  restores a t _ := by
    have small : Enumeration.index a < 256 ^ width :=
      Nat.lt_of_lt_of_le (Enumeration.index_lt_length a) room
    simp only [choice, along?, decode?_word small, Option.bind_some, Enumeration.ofIndex?_index,
      Option.map_some]

instance lawful_bool : Lawful bool := lawful_choice (by decide)

instance lawful_option {c : Codec α} [Lawful c] : Lawful (option c) where
  takesFront := by
    have value (present : Bool) : TakesFront fun rest =>
        if present then (c.decode? rest).map fun (a, rest) => (some a, rest)
          else some (none, rest) := by
      cases present with
      | false => exact .nothing (some none)
      | true => exact Lawful.takesFront.map some
    exact lawful_bool.takesFront.bind value
  restores a t fits := by
    cases a with
    | none => simp [option, lawful_bool.restores false t (by decide)]
    | some a =>
      simp only [option, List.length_append] at fits ⊢
      rw [List.append_assoc, lawful_bool.restores true _ (by decide)]
      simp [Lawful.restores (c := c) a t (by omega)]

/-! ### Rows of values -/

theorem takesFront_decodeAll? {c : Codec α} (each : TakesFront c.decode?) (n : Nat) :
    TakesFront (decodeAll? c n) := by
  induction n with
  | zero => exact .nothing (some [])
  | succ n ih => exact each.bind fun a => ih.map (a :: ·)

theorem decodeAll?_encodeAll {c : Codec α} [Lawful c] (items : List α) (t : Bytes)
    (fits : (encodeAll c items).length < UInt64.size) :
    decodeAll? c items.length (encodeAll c items ++ t) = some (items, t) := by
  induction items with
  | nil => rfl
  | cons a items ih =>
    simp only [encodeAll, List.length_append] at fits
    simp only [encodeAll, List.length_cons, decodeAll?, List.append_assoc]
    rw [Lawful.restores a _ (by omega), Option.bind_some, ih (by omega), Option.map_some]

theorem length_le_encodeAll {c : Codec α} [Solid c] (items : List α) :
    items.length ≤ (encodeAll c items).length := by
  induction items with
  | nil => exact Nat.zero_le _
  | cons a items ih =>
    have some_bytes := List.length_pos_iff.2 (Solid.encode_ne_nil (c := c) a)
    simp only [encodeAll, List.length_cons, List.length_append]
    omega

instance lawful_list {c : Codec α} [Lawful c] [Solid c] : Lawful (list c) where
  takesFront := (takesFront_word 8).bind fun n => takesFront_decodeAll? Lawful.takesFront n
  restores items t fits := by
    simp only [list, List.length_append] at fits ⊢
    have count := length_le_encodeAll (c := c) items
    have small : items.length < 256 ^ 8 :=
      Nat.lt_of_le_of_lt (Nat.le_trans count (Nat.le_add_left ..)) fits
    rw [List.append_assoc, decode?_word small, Option.bind_some,
      decodeAll?_encodeAll items t (by omega)]

instance lawful_bytes : Lawful bytes where
  takesFront := (takesFront_word 8).bind takesFront_split?
  restores b t fits := by
    simp only [bytes, List.length_append] at fits ⊢
    have small : b.length < 256 ^ 8 := Nat.lt_of_le_of_lt (Nat.le_add_left ..) fits
    rw [List.append_assoc, decode?_word small, Option.bind_some, split?_append]

instance solid_u64 : Solid u64 where
  encode_ne_nil n := List.ne_nil_of_length_pos (by simp [u64, along, word, length_littleEndian])

instance solid_bytes : Solid bytes where
  encode_ne_nil b := List.ne_nil_of_length_pos (by
    simp only [bytes, word, List.length_append, length_littleEndian]
    omega)

instance solid_pair {c : Codec α} {d : Codec β} [Solid c] : Solid (pair c d) where
  encode_ne_nil p := List.append_ne_nil_of_left_ne_nil (Solid.encode_ne_nil p.1) _

instance solid_along {c : Codec α} [Solid c] {into : β → α} {of : α → β} :
    Solid (c.along into of) where
  encode_ne_nil b := Solid.encode_ne_nil (c := c) (into b)

instance solid_along? {c : Codec α} [Solid c] {into : β → α} {of? : α → Option β} :
    Solid (c.along? into of?) where
  encode_ne_nil b := Solid.encode_ne_nil (c := c) (into b)

/-! ### Texts and tables -/

theorem text?_toUTF8 (s : String) : text? s.toUTF8.data.toList = some s := by
  have whole : (⟨s.toUTF8.data.toList.toArray⟩ : ByteArray) = s.toUTF8 := by simp
  rw [text?, whole]
  exact dif_pos s.isValidUTF8

instance lawful_text : Lawful text := lawful_along? text?_toUTF8

instance solid_text : Solid text := inferInstanceAs (Solid (bytes.along? ..))

end ControlPlane.Codec
