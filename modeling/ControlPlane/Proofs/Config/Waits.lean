import ControlPlane.Json.Config
import ControlPlane.Proofs.Config.Documents
import ControlPlane.Proofs.Text.Durations

/-!
# Waits survive a printed configuration

The text that a printed configuration shows for one of its waits is a phrase without escapes. A
document that gives any of the waits by these texts is read, and each wait that it gives is the wait
that was printed.
-/

namespace ControlPlane

/-! ### Printed members -/

namespace Json
variable {key name : String} {value first j : Json} {members : List (String × Json)}

def member? (key : String) : Json → Option Json
  | obj members => members.lookup key
  | _ => none

/-- A member as it is printed at a level of nesting. -/
def line (level : Nat) (key : String) (value : Json) : List Char :=
  quote key ++ ([':', ' '] ++ write level value)

theorem writeMembers_cons (level : Nat) :
    writeMembers level ((name, first) :: members) =
      ',' :: newline level ++ (line level name first ++ writeMembers level members) := by
  simp [writeMembers, line]

theorem write_obj (level : Nat) :
    write level (obj ((name, first) :: members)) = '{' :: newline (level + 1) ++
      (line (level + 1) name first ++ writeMembers (level + 1) members ++
        (newline level ++ ['}'])) := by
  simp [write, line]

theorem line_infix_writeMembers (level : Nat) (found : members.lookup key = some value) :
    line level key value <:+: writeMembers level members := by
  induction members with
  | nil => cases found
  | cons m members ih =>
    obtain ⟨name, first⟩ := m
    rw [writeMembers_cons]
    refine List.IsInfix.trans ?_ (List.suffix_append _ _).isInfix
    by_cases same : key = name
    · subst same
      rw [List.lookup_cons_self] at found
      cases found
      exact (List.prefix_append _ _).isInfix
    · rw [List.lookup_cons, beq_false_of_ne same] at found
      exact (ih found).trans (List.suffix_append _ _).isInfix

theorem line_infix_write (level : Nat) (found : j.member? key = some value) :
    line (level + 1) key value <:+: write level j := by
  cases j with
  | obj members =>
    cases members with
    | nil => cases found
    | cons m members =>
      obtain ⟨name, first⟩ := m
      rw [write_obj]
      refine List.IsInfix.trans ?_ (List.suffix_append _ _).isInfix
      refine List.IsInfix.trans ?_ (List.prefix_append _ _).isInfix
      by_cases same : key = name
      · subst same
        rw [member?, List.lookup_cons_self] at found
        cases found
        exact (List.prefix_append _ _).isInfix
      · rw [member?, List.lookup_cons, beq_false_of_ne same] at found
        exact (line_infix_writeMembers _ found).trans (List.suffix_append _ _).isInfix
  | null | bool | num | str | arr => cases found

theorem write_infix_line (level : Nat) : write level value <:+: line level key value :=
  ((List.suffix_append _ _).trans (List.suffix_append _ _)).isInfix

end Json

/-! ### Phrases without escapes -/

namespace Toml
variable {s t : String}

theorem Plain.append (hs : Plain s) (ht : Plain t) : Plain (s ++ t) := by
  intro c mem
  rw [String.toList_append] at mem
  exact (List.mem_append.1 mem).elim (hs c) (ht c)

theorem plain_of_isAlphanum (letters : s.toList.all Char.isAlphanum = true) : Plain s := by
  intro c mem
  have range : (65 ≤ c.toNat ∧ c.toNat ≤ 90) ∨ (97 ≤ c.toNat ∧ c.toNat ≤ 122) ∨
      (48 ≤ c.toNat ∧ c.toNat ≤ 57) := by
    rcases (Bool.or_eq_true _ _).mp (List.all_eq_true.1 letters c mem) with letter | digit
    · exact (Span.Phrase.letter_range letter).imp_right .inl
    · simp only [Char.isDigit, Bool.and_eq_true, decide_eq_true_eq] at digit
      exact .inr (.inr digit)
  refine ⟨by omega, by omega, ?_, ?_⟩
  all_goals
    rintro rfl
    simp at range

theorem plain_toString (n : Nat) : Plain (toString n) := by
  refine plain_of_isAlphanum (List.all_eq_true.2 fun c mem => ?_)
  rw [Nat.toString_eq_ofList_toDigits, String.toList_ofList] at mem
  rw [Char.isAlphanum, (Digits.spells_ofNat n).digits c mem, Bool.or_true]

end Toml

namespace Span.Phrase
open Toml (Plain)

theorem plain_phrase {parts : List (Nat × String)}
    (letters : ∀ p ∈ parts, p.2.toList.all Char.isAlpha = true) : Plain (phrase parts) := by
  induction parts with
  | nil => exact fun c mem => by simp [phrase] at mem
  | cons p parts ih =>
    have first : Plain (toString p.1 ++ p.2) :=
      (Toml.plain_toString _).append (Toml.plain_of_isAlphanum (List.all_eq_true.2 fun c mem => by
        rw [Char.isAlphanum, List.all_eq_true.1 (letters p List.mem_cons_self) c mem,
          Bool.true_or]))
    have later := ih fun q mem => letters q (List.mem_cons_of_mem _ mem)
    cases parts with
    | nil => simpa [phrase] using first
    | cons q parts =>
      have blank : Plain " " := by
        simp [Plain]
      simpa [phrase, String.intercalate_cons_cons] using (first.append blank).append later

theorem plain_write (s : Span) : Plain (write s) := by
  by_cases none_left : s = zero
  · rw [none_left]
    exact Toml.plain_of_isAlphanum (by decide)
  · have written : write s = phrase ((parts s).filter (·.1 ≠ 0)) := if_neg none_left
    rw [written]
    refine plain_phrase fun p mem => ?_
    obtain ⟨u, counts⟩ := counts_parts s p (List.mem_filter.1 mem).1
    exact counts.letters

end Span.Phrase

/-! ### Waits -/

/-- The fields of a configuration that hold a span. -/
inductive Wait where
  | command | probe | migrate | storageMigrate | start | stop | scale | lock | scan
deriving DecidableEq, Repr

namespace Wait

def heading : Wait → String
  | command | probe => "agent"
  | migrate | storageMigrate | start | stop | scale => "orchestrator"
  | lock => "work"
  | scan => "recovery"

def key : Wait → String
  | command => "command_wait"
  | probe => "probe_wait"
  | migrate => "migrate_wait"
  | storageMigrate => "storage_migrate_wait"
  | start => "start_wait"
  | stop => "stop_wait"
  | scale => "scale_wait"
  | lock => "lock_wait"
  | scan => "scan_interval"

def of (c : Config) : Wait → Span
  | command => c.agent.commandWait
  | probe => c.agent.probeWait
  | migrate => c.orchestrator.migrateWait
  | storageMigrate => c.orchestrator.storageMigrateWait
  | start => c.orchestrator.startWait
  | stop => c.orchestrator.stopWait
  | scale => c.orchestrator.scaleWait
  | lock => c.work.lockWait
  | scan => c.recovery.scanInterval

def sections : List (String × List Wait) :=
  [("agent", [command, probe]), ("orchestrator", [migrate, storageMigrate, start, stop, scale]),
   ("work", [lock]), ("recovery", [scan])]

theorem key_injective {v w : Wait} (same : v.key = w.key) : v = w := by
  cases v <;> cases w <;> first | rfl | exact absurd same (by decide)

def rows (chosen : Wait → Bool) (text : Wait → String) : List (String × Toml.Entries) :=
  sections.map fun (name, waits) => (name, (waits.filter chosen).map fun w => (w.key, text w))

end Wait

def Config.withWaits (c : Config) (wait : Wait → Span) : Config :=
  { c with
    agent := { c.agent with commandWait := wait .command, probeWait := wait .probe }
    orchestrator :=
      { c.orchestrator with
        migrateWait := wait .migrate
        storageMigrateWait := wait .storageMigrate
        startWait := wait .start
        stopWait := wait .stop
        scaleWait := wait .scale }
    work := { lockWait := wait .lock }
    recovery := { c.recovery with scanInterval := wait .scan } }

@[simp] theorem Wait.of_withWaits (c : Config) (wait : Wait → Span) (w : Wait) :
    w.of (c.withWaits wait) = wait w := by
  cases w <;> rfl

namespace Wait

/-- The text that a printed configuration shows for a wait. -/
def text (c : Config) (w : Wait) : String := Span.Phrase.write (w.of c)

theorem member?_text (c : Config) (w : Wait) :
    (c.toJson.member? w.heading).bind (Json.member? w.key) = some (.str (w.text c)) := by
  cases w <;> rfl

theorem text_printed (c : Config) (w : Wait) :
    Json.quote w.key ++ ([':', ' '] ++ Json.quote (w.text c)) <:+: c.toJson.pretty.toList := by
  obtain ⟨part, outer, inner⟩ := Option.bind_eq_some_iff.1 (member?_text c w)
  have within := Json.line_infix_write 1 inner
  have around := Json.line_infix_write 0 outer
  rw [Json.pretty, String.toList_ofList]
  exact within.trans ((Json.write_infix_line _).trans around)

/-! ### Reading waits -/

open Toml (Value Members)
variable {chosen : Wait → Bool} {c : Config}

/-- What a document that gives the chosen waits of a configuration holds in a section. -/
def entries (chosen : Wait → Bool) (c : Config) (waits : List Wait) : Members :=
  ((waits.filter chosen).map fun w => (w.key, w.text c)).map Toml.entryValue

theorem get?_entries (waits : List Wait) (w : Wait) :
    (entries chosen c waits).get? w.key = if w ∈ waits ∧ chosen w then some (.text (w.text c))
      else none := by
  induction waits with
  | nil => rfl
  | cons v waits ih =>
    rw [Members.get?, entries] at ih ⊢
    by_cases same : w = v
    · subst same
      by_cases given : chosen w
      · rw [List.filter_cons_of_pos given, List.map_cons, List.map_cons, Toml.entryValue,
          List.lookup_cons_self, if_pos ⟨List.mem_cons_self, given⟩]
      · rw [List.filter_cons_of_neg given, ih, if_neg fun h => given h.2,
          if_neg fun h => given h.2]
    · have other : w ∈ v :: waits ↔ w ∈ waits := by rw [List.mem_cons, or_iff_right same]
      have apart : (w.key == v.key) = false := beq_false_of_ne fun h => same (key_injective h)
      simp only [other]
      rw [← ih]
      by_cases given : chosen v
      · rw [List.filter_cons_of_pos given, List.map_cons, List.map_cons,
          Toml.entryValue, List.lookup_cons, apart]
      · rw [List.filter_cons_of_neg given]

theorem get?_entries_of_ne {waits : List Wait} {name : String}
    (other : ∀ w ∈ waits, w.key ≠ name) :
    (entries chosen c waits).get? name = none := by
  refine Toml.get?_fresh fun m mem => ?_
  rw [entries, List.map_map] at mem
  obtain ⟨w, listed, rfl⟩ := List.mem_map.1 mem
  exact other w (List.mem_filter.1 listed).1

theorem span?_text (w : Wait) : (Value.text (w.text c)).span? = some (w.of c) :=
  Span.Phrase.read?_write _

section
variable (chosen : Wait → Bool) (c : Config) {waits : List Wait}

theorem override_wait (w : Wait) (listed : w ∈ waits) (current : Span) :
    Config.override Value.span? current ((entries chosen c waits).get? w.key) =
      some (if chosen w then w.of c else current) := by
  rw [get?_entries]
  by_cases given : chosen w
  · rw [if_pos ⟨listed, given⟩, if_pos given]
    exact span?_text w
  · rw [if_neg fun h => given h.2, if_neg given]
    rfl

theorem override_other {α : Type} {name : String} (other : ∀ w ∈ waits, w.key ≠ name)
    (read? : Value → Option α) (current : α) :
    Config.override read? current ((entries chosen c waits).get? name) = some current := by
  rw [get?_entries_of_ne other]
  rfl

end

end Wait

namespace Config
open Wait Toml

/-- The chosen waits of one configuration, and the others of another one. -/
def merge (chosen : Wait → Bool) (c base : Config) : Config :=
  base.withWaits fun w => if chosen w then w.of c else w.of base

section
variable (chosen : Wait → Bool) (c base : Config)

theorem Agent.ofValue?_entries :
    base.agent.ofValue? (.table .header (entries chosen c [.command, .probe])) =
      some (merge chosen c base).agent := by
  have given (w : Wait) (listed : w ∈ [Wait.command, .probe]) := override_wait chosen c w listed
  have command := given .command (by decide) base.agent.commandWait
  have probe := given .probe (by decide) base.agent.probeWait
  have depth : Config.override Value.word64? base.agent.channelDepth
      ((entries chosen c [.command, .probe]).get? "channel_depth") = _ :=
    override_other chosen c (by decide) _ _
  simp only [key] at command probe
  simp only [Agent.ofValue?, Value.fields?, List.map_cons, List.map_nil, Option.bind_eq_bind,
    Option.bind_some, command, probe, depth]
  rfl

theorem Orchestrator.ofValue?_entries :
    base.orchestrator.ofValue?
        (.table .header (entries chosen c [.migrate, .storageMigrate, .start, .stop, .scale])) =
      some (merge chosen c base).orchestrator := by
  have given (w : Wait) (listed : w ∈ [Wait.migrate, .storageMigrate, .start, .stop, .scale]) :=
    override_wait chosen c w listed
  have migrate := given .migrate (by decide) base.orchestrator.migrateWait
  have storageMigrate := given .storageMigrate (by decide) base.orchestrator.storageMigrateWait
  have start := given .start (by decide) base.orchestrator.startWait
  have stop := given .stop (by decide) base.orchestrator.stopWait
  have scale := given .scale (by decide) base.orchestrator.scaleWait
  have retries : Config.override Value.word32? base.orchestrator.startRetries
      ((entries chosen c [.migrate, .storageMigrate, .start, .stop, .scale]).get?
        "start_retries") = _ :=
    override_other chosen c (by decide) _ _
  simp only [key] at migrate storageMigrate start stop scale
  simp only [Orchestrator.ofValue?, Value.fields?, List.map_cons, List.map_nil, Option.bind_eq_bind,
    Option.bind_some, migrate, storageMigrate, start, stop, scale, retries]
  rfl

theorem Work.ofValue?_entries :
    base.work.ofValue? (.table .header (entries chosen c [.lock])) =
      some (merge chosen c base).work := by
  have lock := override_wait chosen c .lock (List.mem_singleton_self _) base.work.lockWait
  simp only [key] at lock
  simp only [Work.ofValue?, Value.fields?, List.map_cons, List.map_nil, Option.bind_eq_bind,
    Option.bind_some, lock]
  rfl

theorem Recovery.ofValue?_entries :
    base.recovery.ofValue? (.table .header (entries chosen c [.scan])) =
      some (merge chosen c base).recovery := by
  have scan := override_wait chosen c .scan (List.mem_singleton_self _) base.recovery.scanInterval
  have enabled : Config.override Value.flag? base.recovery.enabled
      ((entries chosen c [.scan]).get? "enabled") = _ :=
    override_other chosen c (by decide) _ _
  simp only [key] at scan
  simp only [Recovery.ofValue?, Value.fields?, List.map_cons, List.map_nil, Option.bind_eq_bind,
    Option.bind_some, scan, enabled]
  rfl

theorem ofMembers?_rows :
    base.ofMembers? ((rows chosen fun w => w.text c).map sectionValue) =
      some (merge chosen c base) := by
  let field := Members.get? ((rows chosen fun w => w.text c).map sectionValue)
  have nodeId : override Value.word64? base.nodeId (field "node_id") = some base.nodeId := rfl
  have storage : override base.storage.ofValue? base.storage (field "storage") =
    some base.storage := rfl
  have agent : override base.agent.ofValue? base.agent (field "agent") = _ :=
    Agent.ofValue?_entries chosen c base
  have orchestrator : override base.orchestrator.ofValue? base.orchestrator (field
    "orchestrator") = _ :=
    Orchestrator.ofValue?_entries chosen c base
  have work : override base.work.ofValue? base.work (field "work") = _ :=
    Work.ofValue?_entries chosen c base
  have placement : override base.placement.ofValue? base.placement (field "placement") =
      some base.placement := rfl
  have recovery : override base.recovery.ofValue? base.recovery (field "recovery") = _ :=
    Recovery.ofValue?_entries chosen c base
  simp only [ofMembers?, nodeId, storage, agent, orchestrator, work, placement, recovery,
    Option.bind_eq_bind, Option.bind_some, field]
  rfl

end

/-! ### Documents of waits -/

theorem bare_key (w : Wait) : Bare w.key := by
  cases w <;> decide

theorem rows_sound (chosen : Wait → Bool) (c : Config) :
    ∀ part ∈ rows chosen fun w => w.text c,
      Bare part.1 ∧ (∀ e ∈ part.2, Bare e.1 ∧ Plain e.2) ∧ Distinct part.2 := by
  intro part mem
  obtain ⟨⟨name, waits⟩, listed, rfl⟩ := List.mem_map.1 mem
  have sound : Bare name ∧ waits.Nodup := by
    simp only [sections, List.mem_cons, List.not_mem_nil, or_false] at listed
    rcases listed with h | h | h | h <;> cases h <;> decide
  refine ⟨sound.1, ?_, ?_⟩
  · intro e mem
    obtain ⟨w, -, rfl⟩ := List.mem_map.1 mem
    exact ⟨bare_key w, Span.Phrase.plain_write _⟩
  · have apart : (waits.filter chosen).Nodup := sound.2.filter _
    exact List.pairwise_map.2 (apart.imp fun differ same => differ (key_injective same))

theorem rows_distinct (chosen : Wait → Bool) (text : Wait → String) :
    Distinct (rows chosen text) := by
  have names : sections.Pairwise fun a b => a.1 ≠ b.1 := by decide
  exact List.pairwise_map.2 names

/-- The text that a printed configuration shows for a wait is accepted for that wait and gives it
back: a document that gives any of the waits by their texts sets these, and nothing else. Sums are
checked against 64 bits on the way, so none of them exceeds that. -/
theorem printed_waits_are_read (c : Config) :
    ∃ text : Wait → String,
      (∀ w : Wait, (c.toJson.member? w.heading).bind (Json.member? w.key) =
        some (.str (text w)) ∧
        Json.quote w.key ++ ([':', ' '] ++ Json.quote (text w)) <:+: c.toJson.pretty.toList) ∧
      ∀ (base : Config) (chosen : Wait → Bool), ∃ c' : Config,
        (Toml.read? (Toml.document (rows chosen text))).bind (base.ofMembers? ·) = some c' ∧
        (∀ w : Wait, w.of c' = if chosen w then w.of c else w.of base) ∧
        c' = base.withWaits fun w => w.of c' := by
  refine ⟨fun w => w.text c, fun w => ⟨member?_text c w, text_printed c w⟩,
    fun base chosen => ?_⟩
  refine ⟨merge chosen c base, ?_, fun w => of_withWaits base _ w, rfl⟩
  rw [Toml.read?_document (rows_sound chosen c) (rows_distinct chosen _), Option.bind_some]
  exact ofMembers?_rows chosen c base

end Config
end ControlPlane
