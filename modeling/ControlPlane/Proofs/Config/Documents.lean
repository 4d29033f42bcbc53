import ControlPlane.Config.Document
import ControlPlane.Json.Basic

/-!
# Plain documents are read back

A document of sections, each a header and a row of texts under names of its own, is read as those
sections if the names are bare, no name stands twice and no text needs escapes. A text may be quoted
as it is in JSON.
-/

namespace ControlPlane.Toml
variable {key name text : String} {s rest : List Char} {members : Members}

/-- The name needs no quotes. -/
def Bare (name : String) : Prop := name.toList ≠ [] ∧ name.toList.all isBareKey = true

instance (name : String) : Decidable (Bare name) :=
  inferInstanceAs (Decidable (name.toList ≠ [] ∧ name.toList.all isBareKey = true))

/-- The text needs no escapes. -/
def Plain (text : String) : Prop :=
  ∀ c ∈ text.toList, 32 ≤ c.toNat ∧ c.toNat ≠ 127 ∧ c ≠ '"' ∧ c ≠ '\\'

abbrev Entries := List (String × String)

def entryText (entry : String × String) : List Char :=
  entry.1.toList ++ ([' ', '=', ' '] ++ (Json.quote entry.2 ++ ['\n']))

def sectionText (part : String × Entries) : List Char :=
  '[' :: (part.1.toList ++ ([']', '\n'] ++ part.2.flatMap entryText))

def document (sections : List (String × Entries)) : String :=
  String.ofList (sections.flatMap sectionText)

/-! ### Names -/

theorem isBareKey_cases {c : Char} (bare : isBareKey c = true) :
    isGap c = false ∧ c ≠ '"' ∧ c ≠ '\'' ∧ c ≠ '[' ∧ c ≠ '#' ∧
      c ≠ '\n' ∧ c ≠ '\r' := by
  refine ⟨?_, ?_, ?_, ?_, ?_, ?_, ?_⟩
  · rw [Bool.eq_false_iff]
    intro gap
    simp only [isGap, Bool.or_eq_true, beq_iff_eq] at gap
    rcases gap with rfl | rfl <;> cases bare
  all_goals
    rintro rfl
    cases bare

theorem dropGaps_cons {c : Char} (solid : isGap c = false) : dropGaps (c :: s) = c :: s := by
  rw [dropGaps, List.dropWhile_cons_of_neg (by rw [solid]; decide)]

theorem Bare.exists_cons (bare : Bare name) :
    ∃ c cs, name.toList = c :: cs ∧ isBareKey c = true := by
  obtain ⟨c, cs, all⟩ := List.exists_cons_of_ne_nil bare.1
  exact ⟨c, cs, all, List.all_eq_true.1 bare.2 c (by rw [all]; exact List.mem_cons_self)⟩

theorem Bare.dropGaps (bare : Bare name) : dropGaps (name.toList ++ s) = name.toList ++ s := by
  obtain ⟨c, cs, all, first⟩ := bare.exists_cons
  rw [all]
  exact dropGaps_cons (isBareKey_cases first).1

theorem Bare.keyPart? (bare : Bare name) (ends : ∀ c ∈ rest.head?, isBareKey c = false) :
    keyPart? (name.toList ++ rest) = some (name, rest) := by
  have behind : rest.takeWhile isBareKey = [] := by
    cases rest with
    | nil => rfl
    | cons c rest => rw [List.takeWhile_cons_of_neg (by rw [ends c rfl]; decide)]
  have taken : (name.toList ++ rest).takeWhile isBareKey = name.toList := by
    rw [List.takeWhile_append_of_pos (List.all_eq_true.1 bare.2), behind, List.append_nil]
  have unquoted : ¬((name.toList ++ rest).head? = some '"' ∨
    (name.toList ++ rest).head? = some '\'') := by
    obtain ⟨c, cs, all, first⟩ := bare.exists_cons
    obtain ⟨-, noQuote, noQuote', -⟩ := isBareKey_cases first
    simpa [all] using ⟨noQuote, noQuote'⟩
  rw [Toml.keyPart?, if_neg unquoted, taken]
  simp [bare.1]

theorem Bare.path? (bare : Bare name) {c : Char} (ends : ∀ c ∈ rest.head?, isBareKey c = false)
    (gap : Toml.dropGaps rest = c :: s) (noDot : c ≠ '.') :
    path? (name.toList ++ rest) = some ([], name, c :: s) := by
  have read : key? (78 + 1) (name.toList ++ rest) = some ([name], c :: s) := by
    rw [key?, bare.dropGaps, bare.keyPart? ends]
    simp only [Option.bind_eq_bind, Option.bind_some, gap]
    split
    next h =>
      cases h
      exact (noDot rfl).elim
    · rfl
  rw [Toml.path?, show nestingLimit - 1 = 78 + 1 from rfl, read]
  rfl

/-! ### Texts -/

theorem escape_eq {c : Char} (visible : 32 ≤ c.toNat) (noQuote : c ≠ '"')
    (noBackslash : c ≠ '\\') :
    Json.escape c = [c] := by
  have not_control {d : Char} (low : d.toNat < 32) : c ≠ d := by
    rintro rfl
    omega
  simp only [Json.escape, if_neg noQuote, if_neg noBackslash,
    if_neg (not_control (d := '\n') (by decide)),
    if_neg (not_control (d := '\r') (by decide)), if_neg (not_control (d := '\t') (by decide)),
    if_neg (not_control (d := '\x08') (by decide)), if_neg (not_control (d := '\x0c') (by decide)),
    if_neg (Nat.not_lt.2 visible)]

theorem Plain.quote (plain : Plain text) : Json.quote text = '"' :: (text.toList ++ ['"']) := by
  have kept {chars : List Char} (sub : ∀ c ∈ chars, c ∈ text.toList) :
    chars.flatMap Json.escape = chars := by
    induction chars with
    | nil => rfl
    | cons c chars ih =>
      obtain ⟨visible, -, noQuote, noBackslash⟩ := plain c (sub c List.mem_cons_self)
      rw [List.flatMap_cons, escape_eq visible noQuote noBackslash,
        ih fun c mem => sub c (List.mem_cons_of_mem _ mem), List.singleton_append]
  rw [Json.quote, kept fun _ mem => mem]
  rfl

theorem line?_plain {chars : List Char}
    (plain : ∀ c ∈ chars, isPlain c = true ∧ c ≠ '"' ∧ c ≠ '\\')
    {fuel : Nat} (enough : chars.length < fuel) :
    line? '"' fuel (chars ++ '"' :: rest) = some (chars, rest) := by
  induction chars generalizing fuel with
  | nil =>
    obtain ⟨fuel, rfl⟩ := Nat.exists_eq_succ_of_ne_zero (Nat.ne_zero_of_lt enough)
    rw [List.nil_append, line?, if_pos rfl]
  | cons c chars ih =>
    obtain ⟨fuel, rfl⟩ := Nat.exists_eq_succ_of_ne_zero (Nat.ne_zero_of_lt enough)
    obtain ⟨visible, noQuote, noBackslash⟩ := plain c List.mem_cons_self
    rw [List.cons_append, line?, if_neg noQuote, if_neg fun h => noBackslash h.1, if_pos visible,
      ih (fun c mem => plain c (List.mem_cons_of_mem _ mem)) (Nat.lt_of_succ_lt_succ enough),
      Option.map_some]

theorem Plain.text? (plain : Plain text) :
    text? true (Json.quote text ++ '\n' :: rest) = some (text, '\n' :: rest) := by
  have visible : ∀ c ∈ text.toList, isPlain c = true ∧ c ≠ '"' ∧ c ≠ '\\' := by
    intro c mem
    obtain ⟨visible, noDelete, others⟩ := plain c mem
    exact ⟨by simp [isPlain, visible, noDelete], others⟩
  rw [plain.quote, List.cons_append, List.append_assoc]
  cases all : text.toList with
  | nil =>
    have empty : text = "" := String.toList_eq_nil_iff.1 all
    rw [empty]
    rfl
  | cons c chars =>
    rw [all] at visible
    have noQuote : '"' ≠ c := (visible c List.mem_cons_self).2.1.symm
    have read {fuel : Nat} (enough : (c :: chars).length < fuel) :
        line? '"' fuel (c :: chars ++ '"' :: '\n' :: rest) = _ := line?_plain visible enough
    have more : ∃ d later, chars ++ '"' :: '\n' :: rest = d :: later := by
      cases chars <;> exact ⟨_, _, rfl⟩
    obtain ⟨d, later, tail⟩ := more
    simp only [List.cons_append, List.nil_append] at read ⊢
    rw [tail] at read ⊢
    simp only [Toml.text?, noQuote, false_and, and_false, if_false]
    rw [read, ← all]
    · simp
    · have := congrArg List.length tail
      simp at this ⊢
      omega

theorem Plain.value? (plain : Plain text) (fuel depth : Nat) :
    value? (fuel + 1) depth (Json.quote text ++ '\n' :: rest) =
      some (.text text, '\n' :: rest) := by
  have read : Toml.text? true (Json.quote text ++ '\n' :: rest) = _ := plain.text?
  rw [plain.quote, List.cons_append] at read ⊢
  rw [Toml.value?, read]
  rfl

/-! ### Members -/

section
variable {value value' : Value}

theorem get?_fresh (fresh : ∀ m ∈ members, m.1 ≠ name) : members.get? name = none := by
  rw [Members.get?, List.lookup_eq_none_iff]
  exact fun m mem => by simpa using (fresh m mem).symm

theorem put_fresh (fresh : ∀ m ∈ members, m.1 ≠ name) :
    members.put name value = members ++ [(name, value)] := by
  induction members with
  | nil => rfl
  | cons m members ih =>
    rw [Members.put, if_neg (fresh m List.mem_cons_self),
      ih fun m mem => fresh m (List.mem_cons_of_mem _ mem)]
    rfl

theorem get?_last (fresh : ∀ m ∈ members, m.1 ≠ name) :
    Members.get? (members ++ [(name, value)]) name = some value := by
  have before := get?_fresh fresh
  rw [Members.get?] at before ⊢
  rw [List.lookup_append, before]
  simp

theorem put_last (fresh : ∀ m ∈ members, m.1 ≠ name) :
    Members.put (members ++ [(name, value)]) name value' = members ++ [(name, value')] := by
  induction members with
  | nil => simp [Members.put]
  | cons m members ih =>
    rw [List.cons_append, Members.put, if_neg (fresh m List.mem_cons_self),
      ih fun m mem => fresh m (List.mem_cons_of_mem _ mem)]
    rfl

end

/-! ### Lines -/

theorem lineEnd?_newline : lineEnd? ('\n' :: rest) = some rest := by
  simp [lineEnd?, dropGaps_cons, isGap, newline?]

theorem lineByLine?_header (bare : Bare name) (fresh : ∀ m ∈ members, m.1 ≠ name) (fuel : Nat)
    (current : List String) :
    lineByLine? (fuel + 1) current members ('[' :: (name.toList ++ ([']', '\n'] ++ rest))) =
      lineByLine? fuel [name] (members ++ [(name, .table .header [])]) rest := by
  have ends : ∀ c ∈ (']' :: '\n' :: rest).head?, isBareKey c = false := by
    rintro c ⟨⟩
    decide
  have path := bare.path? ends (dropGaps_cons (by decide)) (by decide)
  have gap : dropGaps ('[' :: (name.toList ++ (']' :: '\n' :: rest))) =
      '[' :: (name.toList ++ (']' :: '\n' :: rest)) := dropGaps_cons (by decide)
  have opened : Members.alter? false (Members.openTable? name) [] .header members =
      some (.header, members ++ [(name, .table .header [])]) := by
    rw [Members.alter?, Members.openTable?, get?_fresh fresh, put_fresh fresh]
  obtain ⟨c, cs, all, first⟩ := bare.exists_cons
  have noBracket : c ≠ '[' := (isBareKey_cases first).2.2.2.1
  simp only [List.cons_append, List.nil_append]
  rw [lineByLine?, gap]
  rw [all] at path ⊢
  split
  next h => cases h
  next h =>
    cases h
    exact (noBracket rfl).elim
  next h =>
    cases h
    simp only [path, Option.bind_eq_bind, Option.bind_some, opened,
      lineEnd?_newline, List.nil_append]
  next notHeader => exact (notHeader _ rfl).elim

theorem lineByLine?_entry (bareKey : Bare key) (plain : Plain text) {entries : Members}
    (fresh : ∀ m ∈ members, m.1 ≠ name)
    (freshKey : ∀ m ∈ entries, m.1 ≠ key) (fuel : Nat) :
    lineByLine? (fuel + 1) [name] (members ++ [(name, .table .header entries)])
        (entryText (key, text) ++ rest) =
      lineByLine? fuel [name] (members ++ [(name, .table .header (entries ++ [(key, .text text)]))])
        rest := by
  let behind := Json.quote text ++ '\n' :: rest
  have line : entryText (key, text) ++ rest = key.toList ++ (' ' :: '=' :: ' ' :: behind) := by
    simp [entryText, behind]
  have ends : ∀ c ∈ (' ' :: '=' :: ' ' :: behind).head?, isBareKey c = false := by
    rintro c ⟨⟩
    decide
  have gap : dropGaps (' ' :: '=' :: ' ' :: behind) = '=' :: ' ' :: behind := rfl
  have path := bareKey.path? ends gap (by decide)
  have quoted : dropGaps (' ' :: behind) = behind := by
    simp only [behind, plain.quote]
    rfl
  have value (fuel depth : Nat) : value? (fuel + 1) depth behind =
    some (.text text, '\n' :: rest) :=
    plain.value? fuel depth
  have added : Members.alter? false (Members.addDotted? [] key (.text text)) [name] .header
      (members ++ [(name, .table .header entries)]) =
      some (.header, members ++ [(name, .table .header (entries ++ [(key, .text text)]))]) := by
    simp [Members.alter?, Members.addDotted?, Members.add?, get?_last fresh, put_last fresh,
      get?_fresh freshKey, put_fresh freshKey]
  rw [line, lineByLine?, bareKey.dropGaps]
  obtain ⟨c, cs, all, first⟩ := bareKey.exists_cons
  obtain ⟨-, -, -, noBracket, noHash, noNewline, noReturn⟩ := isBareKey_cases first
  rw [all] at path ⊢
  simp only [List.cons_append] at path ⊢
  split
  next h => cases h
  next h => exact (noBracket (List.cons.inj h).1).elim
  next h => exact (noBracket (List.cons.inj h).1).elim
  next =>
    have noLine (s : List Char) : newline? (c :: s) = none := by
      unfold newline?
      split
      next h => exact (noNewline (List.cons.inj h).1).elim
      next h => exact (noReturn (List.cons.inj h).1).elim
      · rfl
    simp [noHash, noLine, path, quoted, value, added, lineEnd?_newline]

/-! ### Documents -/

def entryValue (entry : String × String) : String × Value := (entry.1, .text entry.2)

def sectionValue (part : String × Entries) : String × Value :=
  (part.1, .table .header (part.2.map entryValue))

/-- No two rows have the same name. -/
def Distinct {α : Type} (rows : List (String × α)) : Prop := rows.Pairwise fun a b => a.1 ≠ b.1

theorem lineByLine?_entries {entries : Entries} (sound : ∀ e ∈ entries, Bare e.1 ∧ Plain e.2)
    (distinct : Distinct entries) (fresh : ∀ m ∈ members, m.1 ≠ name) {done : Members}
    (apart : ∀ m ∈ done, ∀ e ∈ entries, m.1 ≠ e.1) {fuel : Nat}
    (enough : (entries.flatMap entryText ++ rest).length < fuel) :
    ∃ fuel', rest.length < fuel' ∧
      lineByLine? fuel [name] (members ++ [(name, .table .header done)])
        (entries.flatMap entryText ++ rest) =
          lineByLine? fuel' [name]
            (members ++ [(name, .table .header (done ++ entries.map entryValue))])
          rest := by
  induction entries generalizing done fuel with
  | nil => exact ⟨fuel, enough, by rw [List.map_nil, List.append_nil]; rfl⟩
  | cons e entries ih =>
    obtain ⟨key, text⟩ := e
    obtain ⟨bareKey, plain⟩ := sound (key, text) List.mem_cons_self
    obtain ⟨before, later⟩ := List.pairwise_cons.1 distinct
    obtain ⟨fuel, rfl⟩ := Nat.exists_eq_succ_of_ne_zero (Nat.ne_zero_of_lt enough)
    rw [List.flatMap_cons, List.append_assoc] at enough ⊢
    have freshKey : ∀ m ∈ done, m.1 ≠ key := fun m mem => apart m mem _ List.mem_cons_self
    have shorter : (entries.flatMap entryText ++ rest).length < fuel := by
      simp only [List.length_append, entryText, List.length_cons, List.length_nil] at enough ⊢
      omega
    have apart' : ∀ m ∈ done ++ [entryValue (key, text)], ∀ e ∈ entries, m.1 ≠ e.1 := by
      intro m mem e mem'
      rcases List.mem_append.1 mem with mem | mem
      · exact apart m mem e (List.mem_cons_of_mem _ mem')
      · rw [List.mem_singleton.1 mem]
        exact before e mem'
    have others : ∀ e ∈ entries, Bare e.1 ∧ Plain e.2 :=
      fun e mem => sound e (List.mem_cons_of_mem _ mem)
    obtain ⟨fuel', enough', read⟩ := ih others later apart' shorter
    refine ⟨fuel', enough', ?_⟩
    rw [lineByLine?_entry bareKey plain fresh freshKey, List.map_cons]
    rw [List.append_assoc] at read
    exact read

theorem lineByLine?_sections {sections : List (String × Entries)}
    (sound : ∀ part ∈ sections, Bare part.1 ∧ (∀ e ∈ part.2, Bare e.1 ∧ Plain e.2) ∧
      Distinct part.2)
    (distinct : Distinct sections)
    (apart : ∀ m ∈ members, ∀ part ∈ sections, m.1 ≠ part.1)
    (current : List String) {fuel : Nat} (enough : (sections.flatMap sectionText).length < fuel) :
    lineByLine? fuel current members (sections.flatMap sectionText) =
      some (members ++ sections.map sectionValue) := by
  induction sections generalizing current members fuel with
  | nil =>
    obtain ⟨fuel, rfl⟩ := Nat.exists_eq_succ_of_ne_zero (Nat.ne_zero_of_lt enough)
    rw [List.flatMap_nil, lineByLine?, List.map_nil, List.append_nil]
    rfl
  | cons part sections ih =>
    obtain ⟨name, entries⟩ := part
    obtain ⟨bare, soundEntries, distinctEntries⟩ := sound (name, entries) List.mem_cons_self
    obtain ⟨before, later⟩ := List.pairwise_cons.1 distinct
    obtain ⟨fuel, rfl⟩ := Nat.exists_eq_succ_of_ne_zero (Nat.ne_zero_of_lt enough)
    have fresh : ∀ m ∈ members, m.1 ≠ name := fun m mem => apart m mem _ List.mem_cons_self
    have line : ((name, entries) :: sections).flatMap sectionText = '[' ::
      (name.toList ++ ([']', '\n'] ++
        (entries.flatMap entryText ++ sections.flatMap sectionText))) := by
      simp [sectionText]
    rw [line] at enough ⊢
    rw [lineByLine?_header bare fresh]
    have left : (entries.flatMap entryText ++ sections.flatMap sectionText).length < fuel := by
      simp only [List.length_append, List.length_cons] at enough ⊢
      omega
    obtain ⟨fuel', enough', read⟩ := lineByLine?_entries soundEntries distinctEntries fresh
      (List.forall_mem_nil _) left
    rw [read]
    have apart' : ∀ m ∈ members ++ [sectionValue (name, entries)], ∀ part ∈ sections,
      m.1 ≠ part.1 := by
      intro m mem part mem'
      rcases List.mem_append.1 mem with mem | mem
      · exact apart m mem part (List.mem_cons_of_mem _ mem')
      · rw [List.mem_singleton.1 mem]
        exact before part mem'
    have rest := ih (fun part mem => sound part (List.mem_cons_of_mem _ mem)) later
      apart' [name] enough'
    rw [List.append_assoc] at rest
    exact rest

theorem read?_document {sections : List (String × Entries)}
    (sound : ∀ part ∈ sections, Bare part.1 ∧ (∀ e ∈ part.2, Bare e.1 ∧ Plain e.2) ∧
      Distinct part.2)
    (distinct : Distinct sections) :
    read? (document sections) = some (sections.map sectionValue) := by
  have unmarked : (sections.flatMap sectionText).head? ≠ some '\ufeff' := by
    cases sections with
    | nil => simp
    | cons part sections => simp [sectionText]
  have read := lineByLine?_sections sound distinct (List.forall_mem_nil _) [] (Nat.lt_succ_self _)
  simp only [read?, document, String.toList_ofList, if_neg unmarked]
  exact read

end ControlPlane.Toml
