import ControlPlane.Text.Digits

/-! JSON values made of text, natural numbers, truth values, arrays and objects. An object keeps its
members in the order in which they are written. -/

namespace ControlPlane

inductive Json where
  | null
  | bool (b : Bool)
  | num (n : Nat)
  | str (s : String)
  | arr (items : List Json)
  | obj (members : List (String × Json))
deriving Inhabited, Repr

namespace Json

/-- A character inside quotes. Control characters are escaped, as are the quote and the
backslash. -/
def escape (c : Char) : List Char :=
  if c = '"' then ['\\', '"']
  else if c = '\\' then ['\\', '\\']
  else if c = '\n' then ['\\', 'n']
  else if c = '\r' then ['\\', 'r']
  else if c = '\t' then ['\\', 't']
  else if c = '\x08' then ['\\', 'b']
  else if c = '\x0c' then ['\\', 'f']
  else if c.toNat < 32 then
    ['\\', 'u', '0', '0', Digits.hexDigit (c.toNat / 16), Digits.hexDigit (c.toNat % 16)]
  else [c]

def quote (s : String) : List Char := '"' :: s.toList.flatMap escape ++ ['"']

/-- A new line, indented by two blanks for each level. -/
def newline (level : Nat) : List Char := '\n' :: List.replicate (2 * level) ' '

mutual

/-- The text over several lines, of a value that stands at a level of nesting. -/
def write (level : Nat) : Json → List Char
  | null => "null".toList
  | bool b => (toString b).toList
  | num n => (toString n).toList
  | str s => quote s
  | arr [] => ['[', ']']
  | arr (a :: items) =>
    '[' :: newline (level + 1) ++ write (level + 1) a ++ writeItems (level + 1) items ++
      newline level ++ [']']
  | obj [] => ['{', '}']
  | obj ((k, a) :: members) =>
    '{' :: newline (level + 1) ++ quote k ++ [':', ' '] ++ write (level + 1) a ++
      writeMembers (level + 1) members ++ newline level ++ ['}']

def writeItems (level : Nat) : List Json → List Char
  | [] => []
  | a :: items => ',' :: newline level ++ write level a ++ writeItems level items

def writeMembers (level : Nat) : List (String × Json) → List Char
  | [] => []
  | (k, a) :: members =>
    ',' :: newline level ++ quote k ++ [':', ' '] ++ write level a ++ writeMembers level members

end

def pretty (j : Json) : String := String.ofList (write 0 j)

def option {α : Type} (f : α → Json) : Option α → Json
  | none => null
  | some a => f a

end Json
end ControlPlane
