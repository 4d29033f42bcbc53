/-! The values of a TOML document. A table remembers how it came about, because that decides whether
later lines may add to it. -/

namespace ControlPlane.Toml

/-- How a table came about. -/
inductive Origin where
  /-- Under a header of its own. -/
  | header
  /-- On the way to another header. -/
  | implied
  /-- On the way of a dotted key. -/
  | dotted
  /-- Between braces; nothing can be added. -/
  | inline
deriving DecidableEq, Repr

/-- Floats and dates are told apart from other values; what they stand for is not kept. -/
inductive Value where
  | text (s : String)
  | integer (n : Int)
  | float
  | boolean (b : Bool)
  | datetime
  | array (items : List Value)
  | table (origin : Origin) (members : List (String × Value))
  /-- Tables under one header, which is repeated for each. -/
  | tables (rows : List (List (String × Value)))
deriving Inhabited, Repr

abbrev Members := List (String × Value)

namespace Members

def get? (members : Members) (key : String) : Option Value := members.lookup key

/-- Gives a key a value, in the place that the key already has. -/
def put (members : Members) (key : String) (value : Value) : Members :=
  match members with
  | [] => [(key, value)]
  | (k, v) :: rest => if k = key then (k, value) :: rest else (k, v) :: put rest key value

/-- Changes the table at the end of a path, and makes the tables on the way that are missing. A
dotted key does not pass through a table that has a header; where a header is repeated, the path
goes through the last table under it. -/
def alter? (dotted : Bool) (change? : Origin → Members → Option (Origin × Members)) :
    List String → Origin → Members → Option (Origin × Members)
  | [], origin, members => change? origin members
  | key :: path, origin, members => do
    let step := alter? dotted change? path
    let child ← (match get? members key with
      | none => (step (if dotted then .dotted else .implied) []).map fun (o, ms) => .table o ms
      | some (.table .inline _) => none
      | some (.table o ms) =>
        if dotted && o == .header then none else (step o ms).map fun (o, ms) => .table o ms
      | some (.tables rows) =>
        rows.getLast?.bind fun last => (step .header last).map fun (_, ms) =>
          .tables (rows.dropLast ++ [ms])
      | some _ => none)
    some (origin, put members key child)

/-- Gives a value to a key that has none yet. -/
def add? (members : Members) (key : String) (value : Value) : Option Members :=
  if (get? members key).isSome then none else some (put members key value)

/-- Gives a value to a dotted key, whose last part lies in a table of dotted keys. -/
def addDotted? (path : List String) (key : String) (value : Value) (origin : Origin)
    (members : Members) : Option (Origin × Members) :=
  alter? true (fun o ms =>
    if (o == .dotted) == path.isEmpty then none else (add? ms key value).map (o, ·))
    path origin members

/-- Opens the table under a header. A table that was only passed through may still get a header. -/
def openTable? (key : String) (origin : Origin) (members : Members) :
    Option (Origin × Members) :=
  match get? members key with
  | none => some (origin, put members key (.table .header []))
  | some (.table .implied inner) => some (origin, put members key (.table .header inner))
  | some _ => none

/-- Opens one more table under a repeated header. -/
def openRow? (key : String) (origin : Origin) (members : Members) : Option (Origin × Members) :=
  match get? members key with
  | none => some (origin, put members key (.tables [[]]))
  | some (.tables rows) => some (origin, put members key (.tables (rows ++ [[]])))
  | some _ => none

end Members
end ControlPlane.Toml
