/-! Tables: finite collections of rows in ascending order of a number that each row carries as its
key, with at most one row for a key. -/

namespace ControlPlane

/-- A type whose values carry a number by which a table finds them. -/
class Keyed (α : Type) where
  key : α → Nat

@[ext] structure Table (α : Type) [Keyed α] where
  rows : List α
  ascending : rows.Pairwise (Keyed.key · < Keyed.key ·)
deriving Repr

namespace Table
variable {α : Type} [Keyed α]
open Keyed

instance [DecidableEq α] : DecidableEq (Table α) := fun s t =>
  decidable_of_iff (s.rows = t.rows) Table.ext_iff.symm

def empty : Table α := ⟨[], .nil⟩

instance : EmptyCollection (Table α) := ⟨empty⟩
instance : Inhabited (Table α) := ⟨empty⟩

/-- Puts a row in its place, over any row with the same key. -/
def insertRow (a : α) : List α → List α
  | [] => [a]
  | b :: rows =>
    if key a < key b then a :: b :: rows
    else if key a = key b then a :: rows
    else b :: insertRow a rows

theorem mem_of_mem_insertRow {a x : α} {rows : List α} (h : x ∈ insertRow a rows) :
    x = a ∨ x ∈ rows := by
  induction rows with
  | nil => simpa [insertRow] using h
  | cons b rows ih => grind [insertRow]

theorem insertRow_ascending (a : α) {rows : List α} (h : rows.Pairwise (key · < key ·)) :
    (insertRow a rows).Pairwise (key · < key ·) := by
  induction rows with
  | nil => simp [insertRow]
  | cons b rows ih => grind [insertRow, mem_of_mem_insertRow, List.pairwise_cons]

def insert (t : Table α) (a : α) : Table α :=
  ⟨insertRow a t.rows, insertRow_ascending a t.ascending⟩

def erase (t : Table α) (k : Nat) : Table α :=
  ⟨t.rows.filter (key · ≠ k), t.ascending.filter _⟩

/-- The row with a given key. -/
def get? (t : Table α) (k : Nat) : Option α := t.rows.find? (key · = k)

def contains (t : Table α) (k : Nat) : Bool := t.rows.any (key · = k)

def size (t : Table α) : Nat := t.rows.length

/-- The table of some rows; of two rows with one key the later counts. -/
def ofList (rows : List α) : Table α := rows.foldl insert empty

theorem key_of_get? {t : Table α} {k : Nat} {a : α} (h : t.get? k = some a) : key a = k := by
  simpa using List.find?_some h

theorem get?_insert (t : Table α) (a : α) (k : Nat) :
    (t.insert a).get? k = if key a = k then some a else t.get? k := by
  obtain ⟨rows, ascending⟩ := t
  simp only [get?, insert]
  induction rows with
  | nil => simp [insertRow, List.find?_cons]; split <;> simp_all
  | cons b rows ih => grind [insertRow, List.pairwise_cons]

theorem get?_erase (t : Table α) (k l : Nat) :
    (t.erase k).get? l = if k = l then none else t.get? l := by
  simp only [get?, erase, List.find?_filter]
  split
  · next h => subst h; simp [List.find?_eq_none]
  · congr 1; funext a; grind

end Table
end ControlPlane
