/-! Finite types whose values are listed in a fixed order and carry a name. The order gives each
value its index, and reading a name or an index back finds the value it came from. -/

namespace ControlPlane

/-- A type with finitely many named values, in a fixed order. -/
class Enumeration (α : Type) [DecidableEq α] where
  all : List α
  name : α → String
  mem_all : ∀ a, a ∈ all

namespace Enumeration
variable {α : Type} [DecidableEq α] [Enumeration α]

/-- The position of a value in the fixed order. -/
def index (a : α) : Nat := (all : List α).idxOf a

def ofIndex? (n : Nat) : Option α := (all : List α)[n]?

def ofName? (s : String) : Option α := (all : List α).find? (name · == s)

theorem index_lt_length (a : α) : index a < (all : List α).length :=
  List.idxOf_lt_length_of_mem (mem_all a)

@[simp] theorem ofIndex?_index (a : α) : ofIndex? (index a) = some a := by
  have h : (all : List α).idxOf a < (all : List α).length := index_lt_length a
  rw [ofIndex?, index, List.getElem?_eq_getElem h, List.getElem_idxOf]

end Enumeration
end ControlPlane
