import ControlPlane.Toml.Token
import ControlPlane.Toml.Value

/-! Reading TOML documents. A document is a row of lines: a header, which opens a table, or a key
with a value, which goes into the table that is open. -/

namespace ControlPlane.Toml

/-- Arrays, tables and keys are nested less deeply than this. -/
def nestingLimit : Nat := 80

def isGap (c : Char) : Bool := c == ' ' || c == '\t'

/-- A character that may stand in a comment, or unescaped in a text. -/
def isPlain (c : Char) : Bool := c == '\t' || (32 ≤ c.toNat && c.toNat != 127)

def dropGaps (s : List Char) : List Char := s.dropWhile isGap

def newline? : List Char → Option (List Char)
  | '\n' :: s => some s
  | '\r' :: '\n' :: s => some s
  | _ => none

/-- Takes the rest of a line off, which may hold a comment. -/
def lineEnd? (s : List Char) : Option (List Char) :=
  let s := dropGaps s
  match if s.head? = some '#' then s.dropWhile isPlain else s with
  | [] => some []
  | s => newline? s

/-- Drops blanks, line ends and comments; `comment` says whether a comment is under way. -/
def dropSpace (comment : Bool) : List Char → List Char
  | [] => []
  | c :: s =>
    if c = '\n' then dropSpace false s
    else if c = '\r' ∧ s.head? = some '\n' then dropSpace false s
    else if comment then (if isPlain c then dropSpace true s else c :: s)
    else if isGap c then dropSpace false s
    else if c = '#' then dropSpace true s
    else c :: s

/-- The character with a number in hexadecimal digits. -/
def codePoint? (width : Nat) (s : List Char) : Option (Char × List Char) := do
  let digits := s.take width
  let n := Digits.ofValues 16 (← digits.mapM Digits.hexValue?)
  if digits.length = width ∧ n.isValidChar then some (Char.ofNat n, s.drop width) else none

/-- What the characters after a backslash stand for. -/
def escaped? : List Char → Option (Char × List Char)
  | 'b' :: s => some ('\x08', s)
  | 't' :: s => some ('\t', s)
  | 'n' :: s => some ('\n', s)
  | 'f' :: s => some ('\x0c', s)
  | 'r' :: s => some ('\r', s)
  | '"' :: s => some ('"', s)
  | '\\' :: s => some ('\\', s)
  | 'u' :: s => codePoint? 4 s
  | 'U' :: s => codePoint? 8 s
  | _ => none

/-- Reads a text up to its closing quote. Escapes count between double quotes only. -/
def line? (quote : Char) : Nat → List Char → Option (List Char × List Char)
  | 0, _ => none
  | _ + 1, [] => none
  | fuel + 1, c :: s =>
    if c = quote then some ([], s)
    else if c = '\\' ∧ quote = '"' then do
      let (c, s) ← escaped? s
      (line? quote fuel s).map fun (text, s) => (c :: text, s)
    else if isPlain c then (line? quote fuel s).map fun (text, s) => (c :: text, s)
    else none

/-- Reads a text of several lines up to its three closing quotes. One or two quotes more belong to
the text. A backslash at the end of a line takes away all space that follows. -/
def lines? (quote : Char) : Nat → List Char → Option (List Char × List Char)
  | 0, _ => none
  | _ + 1, [] => none
  | fuel + 1, c :: s =>
    let quotes := (c :: s).takeWhile (· == quote)
    if 3 ≤ quotes.length then
      if quotes.length ≤ 5 then some (quotes.drop 3, (c :: s).drop quotes.length) else none
    else if c = '\\' ∧ quote = '"' then
      match newline? (dropGaps s) with
      | some s => lines? quote fuel (s.dropWhile fun c => isGap c || c == '\n' || c == '\r')
      | none => do
        let (c, s) ← escaped? s
        (lines? quote fuel s).map fun (text, s) => (c :: text, s)
    else match newline? (c :: s) with
      | some s => (lines? quote fuel s).map fun (text, s) => ('\n' :: text, s)
      | none =>
        if isPlain c then (lines? quote fuel s).map fun (text, s) => (c :: text, s) else none

/-- Reads the text that begins with a quote; `multiline` allows three quotes. -/
def text? (multiline : Bool) (s : List Char) : Option (String × List Char) :=
  let finish : Option (List Char × List Char) → Option (String × List Char) :=
    Option.map fun (text, s) => (String.ofList text, s)
  match s with
  | a :: b :: c :: rest =>
    if multiline ∧ a = b ∧ b = c then
      finish (lines? a (s.length + 1) ((newline? rest).getD rest))
    else finish (line? a s.length (b :: c :: rest))
  | a :: rest => finish (line? a s.length rest)
  | [] => none

def isBareKey (c : Char) : Bool := c.isAlphanum || c == '_' || c == '-'

/-- Reads one part of a key. -/
def keyPart? (s : List Char) : Option (String × List Char) :=
  if s.head? = some '"' ∨ s.head? = some '\'' then text? false s
  else
    let name := s.takeWhile isBareKey
    if name.isEmpty then none else some (String.ofList name, s.drop name.length)

/-- Reads the parts of a key, with dots between them. -/
def key? : Nat → List Char → Option (List String × List Char)
  | 0, _ => none
  | fuel + 1, s => do
    let (part, s) ← keyPart? (dropGaps s)
    match dropGaps s with
    | '.' :: s => (key? fuel s).map fun (parts, s) => (part :: parts, s)
    | s => some ([part], s)

/-- Reads a key as the path to its last part and that part. -/
def path? (s : List Char) : Option (List String × String × List Char) := do
  let (parts, s) ← key? (nestingLimit - 1) s
  some (parts.dropLast, ← parts.getLast?, s)

/-- A character at which a word ends. -/
def endsWord (c : Char) : Bool :=
  isGap c || c == '\n' || c == '\r' || c == '#' || c == ',' || c == ']' || c == '}'

/-- Reads a value that is a word: a truth value, a number, a date or a time. A blank may stand
between a date and a time. -/
def word? (s : List Char) : Option (Value × List Char) :=
  let (word, rest) := s.span (!endsWord ·)
  if word = "true".toList then some (.boolean true, rest)
  else if word = "false".toList then some (.boolean false, rest)
  else if Token.isDate word then
    match rest with
    | ' ' :: c :: more =>
      if c.isDigit then
        let (time, rest) := (c :: more).span (!endsWord ·)
        if Token.isTime true time then some (.datetime, rest) else none
      else some (.datetime, rest)
    | rest => some (.datetime, rest)
  else if Token.isDatetime word then some (.datetime, rest)
  else match Token.integer? word with
    | some n => some (.integer n, rest)
    | none => if Token.isFloat word then some (.float, rest) else none

mutual

/-- Reads a value inside `depth` others. -/
def value? : Nat → Nat → List Char → Option (Value × List Char)
  | 0, _, _ => none
  | fuel + 1, depth, s =>
    match s with
    | '"' :: _ => (text? true s).map fun (text, s) => (.text text, s)
    | '\'' :: _ => (text? true s).map fun (text, s) => (.text text, s)
    | '[' :: s =>
      if nestingLimit ≤ depth + 1 then none
      else (items? fuel (depth + 1) s).map fun (items, s) => (.array items, s)
    | '{' :: s =>
      if nestingLimit ≤ depth + 1 then none
      else match dropGaps s with
        | '}' :: s => some (.table .inline [], s)
        | s => (members? fuel (depth + 1) [] s).map fun (members, s) => (.table .inline members, s)
    | s => word? s

/-- Reads the items of an array up to its closing bracket. -/
def items? : Nat → Nat → List Char → Option (List Value × List Char)
  | 0, _, _ => none
  | fuel + 1, depth, s =>
    match dropSpace false s with
    | ']' :: s => some ([], s)
    | s => do
      let (item, s) ← value? fuel depth s
      match dropSpace false s with
      | ']' :: s => some ([item], s)
      | ',' :: s => (items? fuel depth s).map fun (items, s) => (item :: items, s)
      | _ => none

/-- Reads the members of a table between braces up to the closing one. -/
def members? : Nat → Nat → Members → List Char → Option (Members × List Char)
  | 0, _, _, _ => none
  | fuel + 1, depth, members, s => do
    let (path, key, s) ← path? s
    match s with
    | '=' :: s => do
      let (value, s) ← value? fuel depth (dropGaps s)
      let (_, members) ← Members.addDotted? path key value .inline members
      match dropGaps s with
      | '}' :: s => some (members, s)
      | ',' :: s => members? fuel depth members s
      | _ => none
    | _ => none

end

/-- Reads the lines of a document into the tables that there are; `current` is the path to the table
that is open. -/
def lineByLine? : Nat → List String → Members → List Char → Option Members
  | 0, _, _, _ => none
  | fuel + 1, current, members, s =>
    match dropGaps s with
    | [] => some members
    | '[' :: '[' :: s => do
      let (path, key, s) ← path? s
      match s with
      | ']' :: ']' :: s => do
        let (_, members) ← Members.alter? false (Members.openRow? key) path .header members
        lineByLine? fuel (path ++ [key]) members (← lineEnd? s)
      | _ => none
    | '[' :: s => do
      let (path, key, s) ← path? s
      match s with
      | ']' :: s => do
        let (_, members) ← Members.alter? false (Members.openTable? key) path .header members
        lineByLine? fuel (path ++ [key]) members (← lineEnd? s)
      | _ => none
    | s =>
      if s.head? = some '#' ∨ (newline? s).isSome then do
        lineByLine? fuel current members (← lineEnd? s)
      else do
        let (path, key, s) ← path? s
        match s with
        | '=' :: s => do
          let (value, s) ← value? (2 * s.length + 2) 0 (dropGaps s)
          let (_, members) ←
            Members.alter? false (Members.addDotted? path key value) current .header members
          lineByLine? fuel current members (← lineEnd? s)
        | _ => none

/-- Reads a document; a byte order mark may stand before it. -/
def read? (s : String) : Option Members :=
  let s := if s.toList.head? = some '\ufeff' then s.toList.tail else s.toList
  lineByLine? (s.length + 1) [] [] s

end ControlPlane.Toml
