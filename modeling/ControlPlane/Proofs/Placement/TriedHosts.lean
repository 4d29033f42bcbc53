import ControlPlane.Proofs.Operation.PlannedMoves
import ControlPlane.Proofs.Placement.RevertedCharges
import Mathlib.Data.List.Induction
import Mathlib.Data.List.Nodup

/-!
# Hosts are tried one by one

The loop bars a host when it has no room or when an attempt on it has failed, and for no other
reason. What it tells the planner is just that; so a planner that keeps to it is never sent to the
same host again.
-/

namespace ControlPlane

/-- Whatever its requests are answered with, each of them fits what has been asked before, and so
does the end of the program. -/
def Program.Follows {I : Interface} {α : Type}
    (fit : List (Σ r : I.Request, I.Reply r) → I.Request → Prop)
    (ends : List (Σ r : I.Request, I.Reply r) → α → Prop) :
    List (Σ r : I.Request, I.Reply r) → Program I α → Prop
  | past, .done a => ends past a
  | past, .ask r rest =>
    fit past r ∧ ∀ reply, Follows fit ends (past ++ [⟨r, reply⟩]) (rest reply)

namespace Program
variable {I : Interface} {α β : Type} {past log : List (Σ r : I.Request, I.Reply r)}
  {fit : List (Σ r : I.Request, I.Reply r) → I.Request → Prop}
  {ends : List (Σ r : I.Request, I.Reply r) → α → Prop}
  {ends' : List (Σ r : I.Request, I.Reply r) → β → Prop} {p : Program I α}

theorem Follows.bind {f : α → Program I β} (h : Follows fit ends past p)
    (next : ∀ past a, ends past a → Follows fit ends' past (f a)) :
    Follows fit ends' past (p >>= f) := by
  induction p generalizing past with
  | done a => exact next past a h
  | ask r rest ih => exact ⟨h.1, fun reply => ih reply (h.2 reply)⟩

theorem Follows.comes {a : α} (h : Follows fit ends past p) (comes : p.Comes log a) :
    ends (past ++ log) a ∧
      ∀ before r reply after, log = before ++ ⟨r, reply⟩ :: after →
        fit (past ++ before) r := by
  induction comes generalizing past with
  | done a =>
    refine ⟨by rwa [List.append_nil], fun before r reply after same => ?_⟩
    exact absurd same.symm (List.append_ne_nil_of_right_ne_nil before nofun)
  | @ask r rest reply log a _ ih =>
    obtain ⟨ended, fits⟩ := ih (h.2 reply)
    rw [List.append_assoc] at ended
    refine ⟨ended, fun before r' reply' after same => ?_⟩
    cases before with
    | nil =>
      cases same
      rw [List.append_nil]
      exact h.1
    | cons first before =>
      obtain ⟨rfl, rfl⟩ := List.cons.inj same
      have fits := fits before r' reply' after rfl
      rwa [List.append_assoc] at fits

end Program

namespace Placement
variable {α : Type} {growth : Growth} {limit remaining : Nat} {excluded : Exclusions}
  {host : HostId} {target : Target}

abbrev Diary (α : Type) := List (Σ call : Call, (calls α).Reply call)

variable {log past before round : Diary α}

def Call.charges : Call → Bool
  | .increment => true
  | _ => false

def Call.target? : Call → Option Target
  | .attempt target => some target
  | _ => none

/-- The host that is struck off: it has no room, or the operation has failed on it. -/
def Call.strikes : (call : Call) → (calls α).Reply call → Option HostId
  | .hasRoom host, .ok false => some host
  | .attempt target, .error _ => some target.host
  | _, _ => none

/-- A planner that is asked does not name a host that is ruled out. -/
def Call.heeds : (call : Call) → (calls α).Reply call → Bool
  | .selectHost excluded, .ok (some host) => !excluded.rulesOut host
  | _, _ => true

/-- How often the account has been charged. There is one charge to every attempt. -/
def charges (log : Diary α) : Nat := log.countP (·.1.charges)

/-- The targets of the operation, in turn. -/
def aims (log : Diary α) : List Target := log.filterMap (·.1.target?)

def Struck (log : Diary α) (host : HostId) : Prop := ∃ e ∈ log, e.1.strikes e.2 = some host

/-- The planner has never named a host that was ruled out. -/
def Heeded (log : Diary α) : Prop := ∀ e ∈ log, e.1.heeds e.2 = true

/-- In every attempt another host has been struck off. -/
def Grows (log : Diary α) : Prop :=
  Heeded log → ∀ before reply, before ++ [⟨.increment, reply⟩] <+: log →
    ∃ host, Struck log host ∧ ¬ Struck before host

/-- How the calls of the loop fit what has been asked before. -/
def Orderly (growth : Growth) (limit : Nat) (past : Diary α) : Call → Prop
  | .increment => charges past < limit ∧ Grows past
  | .selectHost excluded =>
    (∀ host, excluded.rulesOut host = true ↔ Struck past host) ∧
      Barred growth.current excluded
  | .attempt target =>
    (∃ before reply round, past = before ++ ⟨.increment, reply⟩ :: round ∧
      aims round = []) ∧
      (aims past).length < charges past ∧
      (∀ host, target = .inPlace host → growth.current = some host ∧ charges past = 1) ∧
      (Heeded past → ∀ earlier ∈ aims past, earlier.host ≠ target.host)
  | _ => True

@[simp] theorem charges_append : charges (past ++ log) = charges past + charges log :=
  List.countP_append ..

@[simp] theorem aims_append : aims (past ++ log) = aims past ++ aims log :=
  List.filterMap_append ..

theorem struck_append : Struck (past ++ log) host ↔ Struck past host ∨ Struck log host := by
  simp only [Struck, List.mem_append, or_and_right, exists_or]

theorem struck_singleton {e : Σ call : Call, (calls α).Reply call} :
    Struck [e] host ↔ e.1.strikes e.2 = some host := by
  simp only [Struck, List.mem_singleton, exists_eq_left]

theorem Heeded.left (h : Heeded (past ++ log)) : Heeded past :=
  fun e asked => h e (List.mem_append_left _ asked)

theorem Struck.append (h : Struck past host) : Struck (past ++ log) host := struck_append.2 (.inl h)

def Bars (excluded : Exclusions) (past : Diary α) : Prop :=
  ∀ host, excluded.rulesOut host = true ↔ Struck past host

/-- Where the loop stands between two attempts. -/
structure Poised (growth : Growth) (past : Diary α) (excluded : Exclusions) : Prop where
  bars : Bars excluded past
  current : past ≠ [] → Barred growth.current excluded
  failed : ∀ target ∈ aims past, Struck past target.host
  few : (aims past).length ≤ charges past
  grows : Grows past

structure Amid (growth : Growth) (before past : Diary α) (excluded : Exclusions) : Prop where
  begun : ∃ round, past = before ++ ⟨.increment, .ok ()⟩ :: round ∧ aims round = []
  charged : charges past = charges before + 1
  bars : Bars excluded past
  current : before ≠ [] → Barred growth.current excluded
  failed : ∀ target ∈ aims before, Struck before target.host
  few : (aims before).length ≤ charges before
  grows : Heeded past → ∀ start reply, start ++ [⟨.increment, reply⟩] <+: past →
    start = before ∨ ∃ host, Struck past host ∧ ¬ Struck start host

def Settles (growth : Growth) (before past : Diary α) : Attempt α × Exclusions → Prop
  | (.succeeded target _, excluded) =>
    Bars excluded past ∧ charges past = charges before + 1 ∧
      (Heeded past → excluded.rulesOut target.host = false)
  | (.noRoom host, excluded) | (.failed host _, excluded) =>
    Poised growth past (excluded.insert host) ∧ charges past = charges before + 1
  | (.noCandidate, _) => True

variable {e : Σ call : Call, (calls α).Reply call}

structure Calm (e : Σ call : Call, (calls α).Reply call) : Prop where
  free : e.1.charges = false
  idle : e.1.target? = none
  spares : e.1.strikes e.2 = none

theorem Bars.insert (h : Bars excluded past) (strikes : e.1.strikes e.2 = some host) :
    Bars (excluded.insert host) (past ++ [e]) := by
  intro other
  rw [rulesOut_insert, struck_append, struck_singleton, strikes, Option.some_inj, h other, or_comm]

theorem Bars.calm (h : Bars excluded past) (spares : e.1.strikes e.2 = none) :
    Bars excluded (past ++ [e]) := by
  intro other
  rw [struck_append, struck_singleton, spares, h other, or_iff_left nofun]

theorem charges_concat (free : e.1.charges = false) : charges (past ++ [e]) = charges past := by
  simp [charges, free]

theorem aims_concat (idle : e.1.target? = none) : aims (past ++ [e]) = aims past := by
  simp [aims, idle]

theorem prefix_of_uncharged {start : Diary α} {reply : (calls α).Reply .increment}
    (free : e.1.charges = false) (h : start ++ [⟨.increment, reply⟩] <+: past ++ [e]) :
    start ++ [⟨.increment, reply⟩] <+: past := by
  rcases List.prefix_concat_iff.1 h with same | within
  · obtain ⟨-, same⟩ := List.append_inj' same rfl
    cases same
    cases free
  · exact within

theorem Poised.calm (h : Poised growth past excluded) (begun : past ≠ []) (calm : Calm e) :
    Poised growth (past ++ [e]) excluded where
  bars := h.bars.calm calm.spares
  current _ := h.current begun
  failed target hit := by
    rw [aims_concat calm.idle] at hit
    exact (h.failed target hit).append
  few := by
    rw [aims_concat calm.idle, charges_concat calm.free]
    exact h.few
  grows heeded start reply within := by
    obtain ⟨host, struck, before⟩ :=
      h.grows heeded.left start reply (prefix_of_uncharged calm.free within)
    exact ⟨host, struck.append, before⟩

theorem Poised.begin (h : Poised growth past excluded) :
    Amid growth past (past ++ [⟨.increment, .ok ()⟩]) excluded where
  begun := ⟨[], rfl, rfl⟩
  charged := charges_append
  bars := h.bars.calm rfl
  current := h.current
  failed := h.failed
  few := h.few
  grows heeded start reply within := by
    rcases List.prefix_concat_iff.1 within with same | within
    · exact .inl (List.append_inj' same rfl).1
    · obtain ⟨host, struck, before⟩ := h.grows heeded.left start reply within
      exact .inr ⟨host, struck.append, before⟩

namespace Amid

theorem charged_concat (h : Amid growth before past excluded) (free : e.1.charges = false) :
    charges (past ++ [e]) = charges before + 1 := (charges_concat free).trans h.charged

/-- An attempt goes on, and may strike hosts off as it does. -/
theorem extend {excluded' : Exclusions} (h : Amid growth before past excluded)
    (free : e.1.charges = false) (idle : e.1.target? = none) (bars : Bars excluded' (past ++ [e]))
    (current : Barred growth.current excluded → Barred growth.current excluded') :
    Amid growth before (past ++ [e]) excluded' where
  begun := by
    obtain ⟨round, rfl, quiet⟩ := h.begun
    refine ⟨round ++ [e], List.append_assoc .., ?_⟩
    rw [aims_append, quiet]
    simp [aims, idle]
  charged := h.charged_concat free
  bars := bars
  current begun := current (h.current begun)
  failed := h.failed
  few := h.few
  grows heeded start reply within :=
    (h.grows heeded.left start reply (prefix_of_uncharged free within)).imp_right
      fun ⟨host, struck, before⟩ => ⟨host, struck.append, before⟩

theorem calm (h : Amid growth before past excluded) (calm : Calm e) :
    Amid growth before (past ++ [e]) excluded :=
  h.extend calm.free calm.idle (h.bars.calm calm.spares) id

theorem refuse (h : Amid growth before past excluded) (host : HostId) :
    Amid growth before (past ++ [⟨.hasRoom host, .ok false⟩]) (excluded.insert host) :=
  h.extend rfl rfl (h.bars.insert rfl) fun barred => barred.insert host

theorem aims_eq (h : Amid growth before past excluded) : aims past = aims before := by
  obtain ⟨round, rfl, quiet⟩ := h.begun
  rw [aims_append]
  exact (congrArg _ quiet).trans (List.append_nil _)

/-- The host on which an attempt comes to nothing has not been struck off before. -/
theorem poised (h : Amid growth before past excluded) (free : e.1.charges = false)
    (strikes : e.1.strikes e.2 = some host)
    (hits : ∀ target, e.1.target? = some target → target.host = host)
    (fresh : Heeded past → excluded.rulesOut host = false)
    (barred : Barred growth.current (excluded.insert host)) :
    Poised growth (past ++ [e]) (excluded.insert host) where
  bars := h.bars.insert strikes
  current _ := barred
  failed target hit := by
    rw [aims_append, h.aims_eq] at hit
    rcases List.mem_append.1 hit with earlier | now
    · obtain ⟨round, rfl, -⟩ := h.begun
      exact (h.failed target earlier).append.append
    · have now : e.1.target? = some target := by simpa [aims] using now
      exact hits target now ▸ struck_append.2 (.inr (struck_singleton.2 strikes))
  few := by
    have one : (aims [e]).length ≤ 1 := List.length_filterMap_le ..
    have few := h.few
    rw [aims_append, h.aims_eq, List.length_append, h.charged_concat free]
    omega
  grows heeded start reply within := by
    rcases h.grows heeded.left start reply (prefix_of_uncharged free within) with
      rfl | ⟨other, struck, before⟩
    · refine ⟨host, struck_append.2 (.inr (struck_singleton.2 strikes)), fun was => ?_⟩
      obtain ⟨round, rfl, -⟩ := h.begun
      have out := (h.bars host).2 was.append
      rw [fresh heeded.left] at out
      cases out
    · exact ⟨other, struck.append, before⟩

end Amid

namespace Loop

theorem follows_tryOn (h : Amid growth before past excluded)
    (free : Heeded past → excluded.rulesOut target.host = false)
    (home : ∀ host, target = .inPlace host → growth.current = some host ∧ before = [])
    (barred : Barred growth.current (excluded.insert target.host)) :
    Program.Follows (Orderly growth limit)
      (fun past result => ∀ made, result = .ok made →
        Settles growth before past (made, excluded)) past
      (tryOn (α := α) target).run := by
  refine ⟨⟨?_, ?_, fun host place => ?_, fun heeded earlier hit same => ?_⟩,
    fun reply => ?_⟩
  · obtain ⟨round, began, quiet⟩ := h.begun
    exact ⟨before, _, round, began, quiet⟩
  · have few := h.few
    rw [h.aims_eq, h.charged]
    omega
  · obtain ⟨current, rfl⟩ := home host place
    exact ⟨current, h.charged⟩
  · obtain ⟨round, rfl, -⟩ := id h.begun
    rw [h.aims_eq] at hit
    have out := (h.bars earlier.host).2 (h.failed earlier hit).append
    rw [same, free heeded] at out
    cases out
  · rcases reply with failure | value
    · rintro made ⟨⟩
      exact ⟨h.poised rfl rfl (by rintro _ ⟨⟩; rfl) free barred, h.charged_concat rfl⟩
    · rintro made ⟨⟩
      exact ⟨h.bars.calm rfl, h.charged_concat rfl, fun heeded => free heeded.left⟩

theorem follows_tryElsewhere (h : Amid growth before past excluded)
    (barred : Barred growth.current excluded) :
    Program.Follows (Orderly growth limit)
      (fun past result => ∀ made, result = .ok made →
        Settles growth before past (made, excluded)) past
      (tryElsewhere (α := α) excluded).run := by
  refine ⟨⟨h.bars, barred⟩, fun chosen => ?_⟩
  rcases chosen with failure | _ | host
  · exact nofun
  · rintro made ⟨⟩
    trivial
  have h := h.calm (e := ⟨.selectHost excluded, .ok (some host)⟩) ⟨rfl, rfl, rfl⟩
  have free : Heeded (past ++ [⟨.selectHost excluded, .ok (some host)⟩]) →
    excluded.rulesOut host = false := by
    intro heeded
    have heeds : (!excluded.rulesOut host) = true := heeded _ (List.mem_append_right _ (.head _))
    simpa using heeds
  refine ⟨trivial, fun room => ?_⟩
  rcases room with failure | _ | _
  · exact nofun
  · rintro made ⟨⟩
    exact ⟨h.poised rfl rfl nofun free (barred.insert host), h.charged_concat rfl⟩
  · exact follows_tryOn (h.calm ⟨rfl, rfl, rfl⟩) (fun heeded => free heeded.left) nofun
      (barred.insert host)

theorem follows_attempt (h : Amid growth before past excluded) :
    Program.Follows (Orderly growth limit)
      (fun past result => ∀ pair, result = .ok pair → Settles growth before past pair) past
      (attempt (α := α) growth excluded).run := by
  have paired : ∀ {past excluded} {p : Loop α (Attempt α)},
      Program.Follows (Orderly growth limit)
        (fun past result => ∀ made, result = .ok made →
          Settles growth before past (made, excluded)) past p.run →
      Program.Follows (Orderly growth limit)
        (fun past result => ∀ pair, result = .ok pair → Settles growth before past pair) past
        (do return (← p, excluded) : Loop α (Attempt α × Exclusions)).run := by
    intro past excluded p h
    refine Program.Follows.bind h fun past result settles => ?_
    rcases result with failure | made
    · exact nofun
    · rintro _ ⟨⟩
      exact settles made rfl
  unfold attempt
  split
  next host here =>
    obtain ⟨current, free⟩ := Option.filter_eq_some_iff.1 here
    have barred : Barred growth.current (excluded.insert host) := barred_of_insert current
    have free : excluded.rulesOut host = false := by simpa using free
    have first : before = [] := by
      by_contra begun
      have out := h.current begun host current
      rw [free] at out
      cases out
    refine ⟨trivial, fun room => ?_⟩
    rcases room with failure | _ | _
    · exact nofun
    · exact paired (follows_tryElsewhere (h.refuse host) barred)
    · refine paired
        (follows_tryOn (h.calm (e := ⟨.hasRoom host, .ok true⟩) ⟨rfl, rfl, rfl⟩)
          (fun _ => free) ?_ barred)
      rintro _ ⟨⟩
      exact ⟨current, first⟩
  next out => exact paired (follows_tryElsewhere h (barred_of_filter out))

theorem follows_reverting (h : Amid growth before past excluded) :
    Program.Follows (Orderly growth limit)
      (fun past result => ∀ pair, result = .ok pair → Settles growth before past pair) past
      (reverting (attempt (α := α) growth excluded)).run := by
  refine Program.Follows.bind (follows_attempt h) fun past result settles => ?_
  rcases result with failure | pair
  · exact ⟨trivial, fun reply => by cases reply <;> exact nofun⟩
  · exact settles

/-- What a loop that succeeds tells of itself. -/
def Tells (past : Diary α) (result : Except Failure (Outcome α)) : Prop :=
  ∀ outcome, result = .ok outcome → Bars outcome.excluded past ∧
    charges past = outcome.attempts ∧
    (Heeded past → outcome.excluded.rulesOut outcome.target.host = false)

theorem follows_attempts (spent : charges past + remaining = limit)
    (h : Poised growth past excluded) :
    Program.Follows (Orderly growth limit) Tells past
      (attempts (α := α) growth limit remaining excluded).run := by
  induction remaining generalizing past excluded with
  | zero => exact nofun
  | succ remaining ih =>
    refine ⟨⟨by omega, h.grows⟩, fun charged => ?_⟩
    rcases charged with failure | _
    · exact nofun
    -- A host on which an attempt has come to nothing is ruled out once the charge is taken back.
    have again : ∀ {past' : Diary α} {excluded : Exclusions},
        Poised growth past' excluded ∧ charges past' = charges past + 1 →
        Program.Follows (Orderly growth limit) Tells (past' ++ [⟨.decrement, .ok ()⟩])
          (attempts (α := α) growth limit remaining excluded).run := by
      intro past' excluded ⟨poised, charged⟩
      have begun : past' ≠ [] := by
        rintro rfl
        cases charged
      have free : charges (past' ++ [⟨.decrement, .ok ()⟩]) = charges past' :=
      charges_concat rfl
      exact ih (by omega) (poised.calm begun ⟨rfl, rfl, rfl⟩)
    refine Program.Follows.bind (p := (reverting (attempt growth excluded)).run)
      (follows_reverting h.begin) fun past' result settles => ?_
    rcases result with failure | ⟨made, excluded⟩
    · exact nofun
    have settled : Settles growth past past' (made, excluded) := settles _ rfl
    cases made with
    | succeeded target value =>
      rintro outcome ⟨⟩
      obtain ⟨bars, charged, free⟩ := settled
      exact ⟨bars, by simp only; omega, free⟩
    | noRoom host =>
      refine ⟨trivial, fun reply => ?_⟩
      rcases reply with failure | _
      · exact nofun
      · exact again settled
    | failed host failure =>
      refine ⟨trivial, fun reply => ?_⟩
      rcases reply with failure | _
      · exact nofun
      · change Program.Follows _ _ _
          (ExceptT.run (if failure.NeedsReconciliation then throw failure
            else attempts growth limit remaining (excluded.insert host)))
        split
        · exact nofun
        · exact again settled
    | noCandidate => exact ⟨trivial, fun reply => by cases reply <;> exact nofun⟩

end Loop

theorem follows_retry (growth : Growth) (limit : Nat) :
    Program.Follows (Orderly growth limit) Loop.Tells [] (retry α growth limit) := by
  refine Loop.follows_attempts (Nat.zero_add limit)
    ⟨fun host => ?_, fun begun => absurd rfl begun, nofun,
      Nat.le_refl 0, ?_⟩
  · exact ⟨nofun, fun ⟨_, struck, _⟩ => nomatch struck⟩
  · intro _ before reply within
    exact absurd (List.prefix_nil.1 within) (List.append_ne_nil_of_right_ne_nil before nofun)

def Abides (growth : Growth) (limit : Nat) (log : Diary α) : Prop :=
  ∀ before call reply after, log = before ++ ⟨call, reply⟩ :: after →
    Orderly growth limit before call

namespace Abides

theorem left (h : Abides growth limit (past ++ log)) : Abides growth limit past := by
  intro before call reply after same
  exact h before call reply (after ++ log) (by rw [same, List.append_assoc, List.cons_append])

theorem charges_le (h : Abides growth limit log) : charges log ≤ limit := by
  induction log using List.reverseRecOn with
  | nil => exact Nat.zero_le limit
  | append_singleton init e ih =>
    obtain ⟨call, reply⟩ := e
    cases call with
    | increment =>
      have more : charges init < limit := (h init .increment reply [] rfl).1
      rw [charges_append]
      exact more
    | _ =>
      rw [charges_concat (e := ⟨_, reply⟩) rfl]
      exact ih h.left

theorem aims_le (h : Abides growth limit log) : (aims log).length ≤ charges log := by
  induction log using List.reverseRecOn with
  | nil => exact Nat.le_refl 0
  | append_singleton init e ih =>
    obtain ⟨call, reply⟩ := e
    cases call with
    | attempt target =>
      have more : (aims init).length < charges init := (h init (.attempt target) reply [] rfl).2.1
      rw [aims_append, List.length_append, charges_concat rfl]
      exact more
    | _ =>
      rw [aims_concat (e := ⟨_, reply⟩) rfl, charges_append]
      exact Nat.le_add_right_of_le (ih h.left)

theorem aims_nodup (h : Abides growth limit log) (heeded : Heeded log) :
    ((aims log).map Target.host).Nodup := by
  induction log using List.reverseRecOn with
  | nil => exact .nil
  | append_singleton init e ih =>
    have nodup := ih h.left heeded.left
    obtain ⟨call, reply⟩ := e
    cases call with
    | attempt target =>
      have fresh := (h init (.attempt target) reply [] rfl).2.2.2 heeded.left
      rw [aims_append, List.map_append, List.nodup_append]
      refine ⟨nodup, List.nodup_singleton _, ?_⟩
      intro _ before _ now
      obtain ⟨earlier, hit, rfl⟩ := List.mem_map.1 before
      obtain rfl := List.mem_singleton.1 now
      exact fresh earlier hit
    | _ =>
      rw [aims_concat (e := ⟨_, reply⟩) rfl]
      exact nodup

/-- Between two calls of the operation the account is charged. -/
theorem aims_le_one (h : Abides growth limit (before ++ round)) (within : charges round = 0) :
    (aims round).length ≤ 1 := by
  induction round using List.reverseRecOn with
  | nil => exact Nat.zero_le 1
  | append_singleton round e ih =>
    rw [← List.append_assoc] at h
    have none : charges round = 0 := by
      rw [charges_append] at within
      omega
    obtain ⟨call, reply⟩ := e
    cases call with
    | attempt target =>
      obtain ⟨earlier, charged, late, same, quiet⟩ := (h _ (.attempt target) reply [] rfl).1
      have idle : aims round = [] := by
        rcases List.append_eq_append_iff.1 same with ⟨_, -, rfl⟩ | ⟨part, -, tail⟩
        · simp [charges, Call.charges] at none
        · rcases List.cons_eq_append_iff.1 tail with ⟨-, rfl⟩ | ⟨part, -, rfl⟩
          · simp [charges, Call.charges] at none
          · rw [aims_append] at quiet
            exact (List.append_eq_nil_iff.1 quiet).2
      rw [aims_append, idle]
      exact Nat.le_refl 1
    | _ =>
      rw [aims_concat (e := ⟨_, reply⟩) rfl]
      exact ih h.left none

end Abides

theorem exists_of_aims {after : Diary α} (hit : target ∈ aims after) :
    ∃ between reply rest, after = between ++ ⟨.attempt target, reply⟩ :: rest := by
  obtain ⟨⟨call, reply⟩, asked, hits⟩ := List.mem_filterMap.1 hit
  obtain ⟨between, rest, same⟩ := List.append_of_mem asked
  cases call with
  | attempt other =>
    cases hits
    exact ⟨between, reply, rest, same⟩
  | _ => cases hits

/-- The machine is tried where it is under the first charge only, so this is done once. -/
theorem Abides.once_at_home {before after : Diary α} {host : HostId} {reply : Except Failure α}
    (abides : Abides growth limit log)
    (same : log = before ++ ⟨.attempt (.inPlace host), reply⟩ :: after) :
    growth.current = some host ∧ charges before = 1 ∧
      ∀ other, .inPlace other ∉ aims after := by
  obtain ⟨-, -, home, -⟩ := abides before (.attempt (.inPlace host)) reply after same
  obtain ⟨current, first⟩ := home host rfl
  refine ⟨current, first, fun other again => ?_⟩
  obtain ⟨between, reply', rest, rfl⟩ := exists_of_aims again
  have same : log = (before ++ ⟨.attempt (.inPlace host), reply⟩ :: between) ++
      ⟨.attempt (.inPlace other), reply'⟩ :: rest := by
    rw [same, List.append_assoc, List.cons_append]
  obtain ⟨-, -, home, -⟩ := abides _ (.attempt (.inPlace other)) reply' rest same
  obtain ⟨-, second⟩ := home other rfl
  -- The two are under the same charge.
  let under : Diary α := ⟨.attempt (.inPlace host), reply⟩ ::
    (between ++ [⟨.attempt (.inPlace other), reply'⟩])
  have within : charges under = 0 := by
    simp only [under, charges, List.countP_append, List.countP_cons] at first second ⊢
    simp_all [Call.charges]
  have whole : Abides growth limit (before ++ under ++ rest) := by
    rw [same] at abides
    simpa only [under, List.append_assoc, List.cons_append, List.nil_append] using abides
  have one := whole.left.aims_le_one within
  simp [under, aims, Call.target?] at one

/-- The operation is called at most once to a charge, and in place only under the first charge, on
the host where the machine is. The planner is told of the hosts that were struck off, and the host
where the machine is has then been. If the planner keeps to what it is told, then every host is
tried at most once, each attempt that is followed by another strikes off a host that was not, and
the one that succeeds is on a host that was not struck off. -/
theorem each_attempt_strikes_off_a_host {result : Except Failure (Outcome α)}
    (comes : (retry α growth limit).Comes log result) :
    charges log ≤ limit ∧ (aims log).length ≤ charges log ∧
    (∀ before round after, log = before ++ round ++ after → charges round = 0 →
      (aims round).length ≤ 1) ∧
    (∀ before host reply after, log = before ++ ⟨.attempt (.inPlace host), reply⟩ :: after →
      growth.current = some host ∧ charges before = 1 ∧
      ∀ other, .inPlace other ∉ aims after) ∧
    (∀ before excluded reply after, log = before ++ ⟨.selectHost excluded, reply⟩ :: after →
      (∀ host, excluded.rulesOut host = true ↔ Struck before host) ∧
      ∀ host, growth.current = some host → excluded.rulesOut host = true) ∧
    (∀ outcome, result = .ok outcome → outcome.attempts = charges log ∧
      ∀ host, outcome.excluded.rulesOut host = true ↔ Struck log host) ∧
    (Heeded log →
      ((aims log).map Target.host).Nodup ∧
      (∀ before reply round reply' after,
        log = before ++ ⟨.increment, reply⟩ :: (round ++ ⟨.increment, reply'⟩ :: after) →
        ∃ host, Struck (before ++ ⟨.increment, reply⟩ :: round) host ∧
          ¬ Struck before host) ∧
      ∀ outcome, result = .ok outcome →
        outcome.excluded.rulesOut outcome.target.host = false) := by
  obtain ⟨tells, abides⟩ := (follows_retry growth limit).comes comes
  have abides : Abides growth limit log := abides
  refine ⟨abides.charges_le, abides.aims_le, ?_, ?_, ?_, ?_,
    fun heeded => ⟨abides.aims_nodup heeded,
      ?_, fun outcome ended => (tells outcome ended).2.2 heeded⟩⟩
  · rintro before round after rfl within
    exact abides.left.aims_le_one within
  · exact fun before host reply after same => abides.once_at_home same
  · intro before excluded reply after same
    exact abides before (.selectHost excluded) reply after same
  · intro outcome ended
    obtain ⟨bars, charged, -⟩ := tells outcome ended
    exact ⟨charged.symm, bars⟩
  · intro before reply round reply' after same
    have same : log = (before ++ ⟨.increment, reply⟩ :: round) ++
      ⟨.increment, reply'⟩ :: after := by
      rw [same, List.append_assoc, List.cons_append]
    have grows : Grows (before ++ ⟨.increment, reply⟩ :: round) :=
      (abides _ .increment reply' after same).2
    rw [same] at heeded
    exact grows heeded.left before reply
      ⟨round, by rw [List.append_assoc, List.singleton_append]⟩

def stretched :
    Growth :=
  ⟨⟨1⟩, ⟨1⟩, some ⟨5⟩, ⟨⟨1⟩, none, none, "kvm", none⟩, ⟨2, 1024⟩⟩

/-- The machine's own host has no room, the operation fails on the next and succeeds on the one
after that. -/
theorem third_host_is_not_struck_off : ∃ (log : Diary Nat) (outcome : Outcome Nat),
    (retry Nat stretched 3).Comes log (.ok outcome) ∧ Heeded log ∧
      aims log = [.migrate ⟨6⟩, .migrate ⟨7⟩] ∧ outcome.attempts = charges log ∧
      charges log = 2 ∧ (∀ host, outcome.excluded.rulesOut host = true ↔ Struck log host) ∧
      outcome.excluded.rulesOut ⟨7⟩ = false := by
  let own : Exclusions := .insert ∅ ⟨5⟩
  let log : Diary Nat :=
    [⟨.increment, .ok ()⟩, ⟨.hasRoom ⟨5⟩, .ok false⟩,
      ⟨.selectHost own, .ok (some ⟨6⟩)⟩,
      ⟨.hasRoom ⟨6⟩, .ok true⟩, ⟨.attempt (.migrate ⟨6⟩),
        .error (.fault (.other "full"))⟩, ⟨.decrement, .ok ()⟩,
      ⟨.increment, .ok ()⟩, ⟨.selectHost (own.insert ⟨6⟩), .ok (some ⟨7⟩)⟩,
      ⟨.hasRoom ⟨7⟩, .ok true⟩, ⟨.attempt (.migrate ⟨7⟩), .ok 0⟩]
  have comes : (retry Nat stretched 3).Comes log
    (.ok ⟨0, .migrate ⟨7⟩, own.insert ⟨6⟩, 2⟩) :=
    .ask (.ask (.ask (.ask (.ask (.ask (.ask (.ask (.ask (.ask (.done _))))))))))
  have heeded : Heeded log := List.all_eq_true.1 (by decide)
  obtain ⟨-, -, -, -, -, tells, heeds⟩ := each_attempt_strikes_off_a_host comes
  obtain ⟨attempts, struck⟩ := tells _ rfl
  exact ⟨log, _, comes, heeded, rfl, attempts, rfl, struck, (heeds heeded).2.2 _ rfl⟩

end Placement
end ControlPlane
