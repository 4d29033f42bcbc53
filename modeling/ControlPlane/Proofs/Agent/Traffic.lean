import ControlPlane.Proofs.Agent.Queues
import Mathlib.Data.List.Perm.Basic

/-!
# Traffic between senders and hosts

A history of a registry of sessions: hosts connect, are cut off and stop taking requests, commands
are sent, senders look whether their sends are over, and hosts read requests, answer them and drop
them, in any order. Nobody gives up a send before it is over. What a history says of a request is
read off the list of its events.
-/

namespace ControlPlane.Agent
namespace Traffic

/-- A send of a command to the session that its host was linked to. -/
structure Call where
  id : Nat
  envelope : Envelope
  session : Nat
  deadline : Nat
deriving DecidableEq

def Call.sending (call : Call) : Sending := .pending call.id call.envelope call.deadline

inductive Event where
  | connected (host : HostId) (session : Nat)
  | cut (host : HostId)
  | closed (session : Nat)
  /-- There is no session for a command. -/
  | refused (envelope : Envelope) (failure : Failure)
  /-- A send begins. Its request may enter the queue at once. -/
  | begun (call : Call) (entered : Bool)
  /-- A sender looks whether its send is over. Its request may enter the queue as it looks. -/
  | looked (call : Call) (time : Nat) (entered : Bool) (result : Option (Except Failure Answer))
  | read (session id : Nat)
  /-- A host answers a request, and is told whether the sender was still waiting. -/
  | responded (id : Nat) (answer : Answer) (heard : Bool) (time : Nat)
  | dropped (id : Nat)

end Traffic

structure Traffic where
  registry : Registry
  clock : Nat := 0
  /-- The sends that are not over for their senders. -/
  calls : List Traffic.Call := []
  /-- The requests that are in the hands of hosts, by their numbers. -/
  hands : List Nat := []

namespace Traffic

open Registry in
/-- One of them does something, now or later. -/
inductive Step (t : Traffic) : Event → Traffic → Prop
  | connect (host : HostId) :
    Step t (.connected host t.registry.fresh) { t with registry := (t.registry.connect host).2 }
  | disconnect (host : HostId) : Step t (.cut host)
      { t with registry := t.registry.disconnect host }
  | close (session : Nat) : Step t (.closed session) { t with registry := t.registry.close session }
  | refuse (envelope : Envelope) {failure : Failure}
    (refused : (t.registry.begin envelope).1 = .error failure) :
    Step t (.refused envelope failure) { t with registry := (t.registry.begin envelope).2 }
  | begin (envelope : Envelope) {id session now : Nat} (later : t.clock ≤ now)
    (begun : (t.registry.begin envelope).1 = .ok id)
    (linked : t.registry.link? envelope.host = some session) :
    Step t
      (.begun ⟨id, envelope, session, now + envelope.wait.millisUp⟩
        (grown t.registry (t.registry.begin envelope).2 session))
      { t with
        registry := (t.registry.begin envelope).2
        clock := now
        calls := t.calls ++ [⟨id, envelope, session, now + envelope.wait.millisUp⟩] }
  | wait {call : Call} (mem : call ∈ t.calls) {now : Nat} (later : t.clock ≤ now)
    (pending : (call.sending.poll t.registry now).1 = call.sending) :
    Step t
      (.looked call now (grown t.registry (call.sending.poll t.registry now).2 call.session) none)
      { t with registry := (call.sending.poll t.registry now).2, clock := now }
  | finish {before after : List Call} {call : Call}
      (split : t.calls = before ++ call :: after) {now : Nat}
    (later : t.clock ≤ now) {result : Except Failure Answer}
    (ended : (call.sending.poll t.registry now).1 = .ended result) :
    Step t
      (.looked call now (grown t.registry (call.sending.poll t.registry now).2 call.session)
        (some result))
      { t with
        registry := (call.sending.poll t.registry now).2
        clock := now
        calls := before ++ after }
  | read (session : Nat) {request : Request}
      (received : (t.registry.receive session).1 = some request) :
    Step t (.read session request.id)
      { t with registry := (t.registry.receive session).2, hands := request.id :: t.hands }
  | respond {before after : List Nat} {id : Nat} (split : t.hands = before ++ id :: after)
    (answer : Answer) {now : Nat} (later : t.clock ≤ now) :
    Step t (.responded id answer (t.registry.respond id answer).1 now)
      { t with
        registry := (t.registry.respond id answer).2
        clock := now
        hands := before ++ after }
  | drop {before after : List Nat} {id : Nat} (split : t.hands = before ++ id :: after) :
    Step t (.dropped id) { t with registry := t.registry.drop id, hands := before ++ after }

/-- What has happened since the registry was made. -/
inductive History (depth : Nat) : List Event → Traffic → Prop
  | start : History depth [] { registry := .ofDepth depth }
  | step {log : List Event} {t t' : Traffic} {e : Event} (past : History depth log t)
      (step : Step t e t') :
    History depth (log ++ [e]) t'

/-! ### What a history says of requests -/

namespace Event

/-- The session whose queue a request has entered, and the number of the request. -/
def entry? : Event → Option (Nat × Nat)
  | begun call true | looked call _ true _ => some (call.session, call.id)
  | _ => none

def reading? : Event → Option (Nat × Nat)
  | read session id => some (session, id)
  | _ => none

def call? : Event → Option Call
  | begun call _ => some call
  | _ => none

/-- What a send has come to for its sender. -/
def result? : Event → Option (Nat × Except Failure Answer)
  | looked call _ _ (some result) => some (call.id, result)
  | _ => none

def hearing? : Event → Option (Nat × Answer)
  | responded id answer true _ => some (id, answer)
  | _ => none

def parting? : Event → Option Nat
  | responded id .. | dropped id => some id
  | _ => none

end Event

def entries (log : List Event) : List (Nat × Nat) := log.filterMap Event.entry?
def readings (log : List Event) : List (Nat × Nat) := log.filterMap Event.reading?
def begun (log : List Event) : List Call := log.filterMap Event.call?
def results (log : List Event) : List (Nat × Except Failure Answer) := log.filterMap Event.result?
def hearings (log : List Event) : List (Nat × Answer) := log.filterMap Event.hearing?
def partings (log : List Event) : List Nat := log.filterMap Event.parting?

def ofSession (session : Nat) (requests : List (Nat × Nat)) : List Nat :=
  (requests.filter (·.1 = session)).map (·.2)

def Overslept (id : Nat) (log : List Event) : Prop :=
  ∃ call time entered result, .looked call time entered result ∈ log ∧ call.id = id ∧
    call.deadline ≤ time

/-- The request is answered while its sender still waits. -/
def Awaited (id : Nat) (answer : Answer) (log : List Event) : Prop :=
  ∃ before after heard time, log = before ++ .responded id answer heard time :: after ∧
    ¬ Overslept id before

/-- The request is answered no later than its deadline. -/
def ByDeadline (id : Nat) (answer : Answer) (log : List Event) : Prop :=
  ∃ call heard time, call ∈ begun log ∧ call.id = id ∧
    .responded id answer heard time ∈ log ∧ time ≤ call.deadline

def Event.time? : Event → Option Nat
  | looked _ time .. | responded _ _ _ time => some time
  | _ => none

/-- The clock is never further than some slack past the deadline of a send that is not over: its
sender has looked by then. -/
inductive Prompt (slack : Nat) : List Event → Prop
  | start : Prompt slack []
  | step {log : List Event} {e : Event} (past : Prompt slack log)
    (bound : ∀ time, e.time? = some time → ∀ call ∈ begun log,
      (∀ result, (call.id, result) ∉ results log) → time ≤ call.deadline + slack) :
    Prompt slack (log ++ [e])

variable {log : List Event} {t t' : Traffic} {e : Event} {id i session : Nat} {answer : Answer}

theorem Event.entry?_eq_some (h : e.entry? = some (session, id)) :
    ∃ call, call.session = session ∧ call.id = id ∧
      (e = .begun call true ∨ ∃ time result, e = .looked call time true result) := by
  unfold Event.entry? at h
  split at h
  next call =>
    cases h
    exact ⟨call, rfl, rfl, .inl rfl⟩
  next call time result =>
    cases h
    exact ⟨call, rfl, rfl, .inr ⟨time, result, rfl⟩⟩
  · cases h

section
variable (log) (e)

@[simp] theorem entries_append : entries (log ++ [e]) = entries log ++ e.entry?.toList := by
  cases h : e.entry? <;> simp [entries, h]

@[simp] theorem readings_append : readings (log ++ [e]) = readings log ++ e.reading?.toList := by
  cases h : e.reading? <;> simp [readings, h]

@[simp] theorem begun_append : begun (log ++ [e]) = begun log ++ e.call?.toList := by
  cases h : e.call? <;> simp [begun, h]

@[simp] theorem results_append : results (log ++ [e]) = results log ++ e.result?.toList := by
  cases h : e.result? <;> simp [results, h]

@[simp] theorem hearings_append : hearings (log ++ [e]) = hearings log ++ e.hearing?.toList := by
  cases h : e.hearing? <;> simp [hearings, h]

@[simp] theorem partings_append : partings (log ++ [e]) = partings log ++ e.parting?.toList := by
  cases h : e.parting? <;> simp [partings, h]

end

theorem mem_begun {call : Call} :
    call ∈ begun log ↔ ∃ entered, .begun call entered ∈ log := by
  simp only [begun, List.mem_filterMap]
  constructor
  · rintro ⟨e, mem, h⟩
    cases e with
    | begun call' entered =>
      cases h
      exact ⟨entered, mem⟩
    | _ => cases h
  · rintro ⟨entered, mem⟩
    exact ⟨_, mem, rfl⟩

theorem mem_readings {session id : Nat} :
    (session, id) ∈ readings log ↔ .read session id ∈ log := by
  simp only [readings, List.mem_filterMap]
  constructor
  · rintro ⟨e, mem, same⟩
    unfold Event.reading? at same
    split at same
    · cases same
      exact mem
    · cases same
  · exact fun mem => ⟨_, mem, rfl⟩

theorem mem_hearings {id : Nat} {answer : Answer} :
    (id, answer) ∈ hearings log ↔ ∃ time, .responded id answer true time ∈ log := by
  simp only [hearings, List.mem_filterMap]
  constructor
  · rintro ⟨e, mem, same⟩
    unfold Event.hearing? at same
    split at same
    · cases same
      exact ⟨_, mem⟩
    · cases same
  · exact fun ⟨time, mem⟩ => ⟨_, mem, rfl⟩

theorem mem_results {id : Nat} {result : Except Failure Answer} : (id, result) ∈ results log ↔
    ∃ call time entered, call.id = id ∧ .looked call time entered (some result) ∈ log := by
  simp only [results, List.mem_filterMap]
  constructor
  · rintro ⟨e, mem, same⟩
    unfold Event.result? at same
    split at same
    · cases same
      exact ⟨_, _, _, rfl, mem⟩
    · cases same
  · rintro ⟨call, time, entered, rfl, mem⟩
    exact ⟨_, mem, rfl⟩

/-! ### Numbers -/

/-- Every send that is under way has one sender, and every send that is over has none. -/
structure Tracked (log : List Event) (t : Traffic) : Prop where
  numbered : t.registry.Numbered
  below : ∀ call ∈ begun log, call.id < t.registry.fresh ∧ call.session < t.registry.fresh
  distinct : ((begun log).map (·.id)).Nodup
  calls : t.calls.Sublist (begun log)
  found : ∀ call ∈ t.calls,
    (t.registry.send? call.id).map Registry.address =
    some (⟨call.id, call.envelope⟩, call.session)
  sender : ∀ id, t.registry.send? id ≠ none → ∃ call ∈ t.calls, call.id = id
  looks : ∀ call time entered result, .looked call time entered result ∈ log →
    call ∈ begun log ∧ time ≤ t.clock
  ended : ∀ id result, (id, result) ∈ results log → (∃ call ∈ begun log, call.id = id) ∧
    ∀ call ∈ t.calls, call.id ≠ id

theorem Tracked.start (depth : Nat) : Tracked [] { registry := .ofDepth depth } where
  numbered :=
    ⟨by simp [Registry.ofDepth], by simp [Registry.ofDepth], by simp [Registry.ofDepth]⟩
  below := by simp [begun]
  distinct := by simp [begun]
  calls := List.Sublist.refl _
  found := by simp
  sender := fun id found => absurd rfl found
  looks := by simp
  ended := by simp [results]

/-- Whatever happens to sends that neither begin nor end. -/
theorem Tracked.still (h : Tracked log t) (numbered : t'.registry.Numbered)
    (fresh : t.registry.fresh ≤ t'.registry.fresh) (clock : t.clock ≤ t'.clock)
    (calls : t'.calls = t.calls)
    (address : ∀ i, (t'.registry.send? i).map Registry.address =
      (t.registry.send? i).map Registry.address)
    (same : e.call? = none) (goesOn : e.result? = none)
    (looks : ∀ call time entered result, e = .looked call time entered result →
      call ∈ begun log ∧ time ≤ t'.clock) : Tracked (log ++ [e]) t' where
  numbered := numbered
  below := by
    rw [begun_append, same, Option.toList_none, List.append_nil]
    exact fun call mem => (h.below call mem).imp (Nat.lt_of_lt_of_le · fresh)
      (Nat.lt_of_lt_of_le · fresh)
  distinct := by
    rw [begun_append, same, Option.toList_none, List.append_nil]
    exact h.distinct
  calls := by
    rw [begun_append, same, Option.toList_none, List.append_nil, calls]
    exact h.calls
  found := by
    rw [calls]
    exact fun call mem => (address call.id).trans (h.found call mem)
  sender := by
    intro id found
    rw [calls]
    refine h.sender id fun missing => found ?_
    have := address id
    rw [missing] at this
    exact Option.map_eq_none_iff.1 this
  looks := by
    intro call time entered result mem
    rw [begun_append, same, Option.toList_none, List.append_nil]
    rcases List.mem_append.1 mem with mem | mem
    · exact (h.looks call time entered result mem).imp_right (Nat.le_trans · clock)
    · exact looks call time entered result (List.mem_singleton.1 mem).symm
  ended := by
    rw [results_append, goesOn, begun_append, same, calls]
    simpa using h.ended

theorem Tracked.begin (h : Tracked log t) {envelope : Envelope} {now deadline : Nat}
    {entered : Bool} {r' : Registry} (later : t.clock ≤ now) (old : session < t.registry.fresh)
    (begins : t.registry.Begins envelope session entered r') :
    Tracked (log ++ [.begun ⟨t.registry.fresh, envelope, session, deadline⟩ entered])
      { t with
        registry := r', clock := now, calls := t.calls ++
          [⟨t.registry.fresh, envelope, session, deadline⟩] } := by
  obtain ⟨p, sends, -⟩ := begins.sends
  have new : ∀ call ∈ begun log, call.id ≠ t.registry.fresh :=
    fun call mem => Nat.ne_of_lt (h.below call mem).1
  have all : begun (log ++ [.begun ⟨t.registry.fresh, envelope, session, deadline⟩ entered]) =
      begun log ++ [⟨t.registry.fresh, envelope, session, deadline⟩] := begun_append ..
  refine ⟨begins.numbered, fun call mem => ?_, ?_, ?_, fun call mem => ?_, fun id found => ?_,
    fun call time entered result mem => ?_, fun id result mem => ?_⟩
  · show call.id < r'.fresh ∧ call.session < r'.fresh
    rw [all] at mem
    rw [begins.fresh]
    rcases List.mem_append.1 mem with mem | mem
    · exact (h.below call mem).imp Nat.lt_succ_of_lt Nat.lt_succ_of_lt
    · rw [List.mem_singleton.1 mem]
      exact ⟨Nat.lt_succ_self _, Nat.lt_succ_of_lt old⟩
  · rw [all, List.map_append]
    refine List.nodup_append.2 ⟨h.distinct, List.nodup_singleton _,
      fun id mem id' mem' same => ?_⟩
    obtain ⟨call, mem'', rfl⟩ := List.mem_map.1 mem
    rw [List.mem_singleton.1 mem'] at same
    exact new call mem'' same
  · rw [all]
    exact h.calls.append (List.Sublist.refl _)
  · show (r'.send? call.id).map Registry.address = _
    rw [sends]
    rcases List.mem_append.1 mem with mem | mem
    · rw [if_neg (new call (h.calls.subset mem))]
      exact h.found call mem
    · rw [List.mem_singleton.1 mem, if_pos rfl]
      rfl
  · change r'.send? id ≠ none at found
    rw [sends] at found
    split at found
    next here => exact ⟨_, List.mem_append_right _ (List.mem_singleton.2 rfl), here.symm⟩
    · obtain ⟨call, mem, named⟩ := h.sender id found
      exact ⟨call, List.mem_append_left _ mem, named⟩
  · rw [all]
    rcases List.mem_append.1 mem with mem | mem
    · obtain ⟨mem, past⟩ := h.looks call time entered result mem
      exact ⟨List.mem_append_left _ mem, Nat.le_trans past later⟩
    · cases List.mem_singleton.1 mem
  · rw [results_append] at mem
    obtain ⟨⟨call, mem, named⟩, settled⟩ :=
      h.ended id result (by simpa [Event.result?] using mem)
    refine ⟨⟨call, all ▸ List.mem_append_left _ mem, named⟩, fun other mem' same => ?_⟩
    rcases List.mem_append.1 mem' with mem' | mem'
    · exact settled other mem' same
    · rw [List.mem_singleton.1 mem'] at same
      exact new call mem (named.trans same.symm)

/-- Nobody but its sender waits for a send. -/
theorem Tracked.sole (h : Tracked log t) {before after : List Call} {call : Call}
    (split : t.calls = before ++ call :: after) :
    ∀ other ∈ before ++ after, other.id ≠ call.id := by
  have distinct : (t.calls.map (·.id)).Nodup := h.distinct.sublist (h.calls.map _)
  rw [split, List.map_append, List.map_cons, List.nodup_append, List.nodup_cons] at distinct
  obtain ⟨-, ⟨notAfter, -⟩, apart⟩ := distinct
  intro other mem same
  rcases List.mem_append.1 mem with mem | mem
  · exact apart _ (List.mem_map_of_mem mem) _ List.mem_cons_self same
  · exact notAfter (same ▸ List.mem_map_of_mem mem)

theorem Tracked.send (h : Tracked log t) {call : Call} (mem : call ∈ t.calls) :
    ∃ x, t.registry.send? call.id = some x ∧ x.request = ⟨call.id, call.envelope⟩ ∧
      x.session = call.session := by
  obtain ⟨x, found, address⟩ := Option.map_eq_some_iff.1 (h.found call mem)
  obtain ⟨request, session⟩ := Prod.mk.inj address
  exact ⟨x, found, request, session⟩

theorem waits {r : Registry} (h : r.Numbered) {call : Call} {x : Send}
    (found : r.send? call.id = some x) {now : Nat}
    (pending : (call.sending.poll r now).1 = call.sending) :
    now < call.deadline ∧ ∃ entered p,
      r.Goes call.id x entered p (call.sending.poll r now).2 ∧
      (∀ answer, p ≠ .answered answer) ∧ ∀ cause, p ≠ .lost cause :=
  Sending.poll_pending h found (Prod.ext pending rfl)

/-- A send that is over for its sender. -/
structure Ends (r : Registry) (call : Call) (now : Nat) (x : Send) (entered : Bool) (p : Progress)
    (result : Except Failure Answer) (r' : Registry) : Prop where
  depth : r'.depth = r.depth
  fresh : r'.fresh = r.fresh
  isOpen : r'.isOpen = r.isOpen
  numbered : r'.Numbered
  bounded : r.Bounded → r'.Bounded
  fills : r.Fills r' x.session x.request entered
  gone : r'.send? call.id = none
  others : ∀ i ≠ call.id, Registry.Promoted (r.send? i) (r'.send? i)
  course : if entered then x.progress = .admitted ∧ r.isOpen x.session = true ∧ p = .queued
    else (p = x.progress ∧ p ≠ .admitted) ∨
      (x.progress = .waiting ∨ x.progress = .admitted) ∧ p = .lost .sessionClosed
  answered : ∀ answer, p = .answered answer ↔ result = .ok answer
  late : p = .queued → call.deadline ≤ now

theorem ends {r : Registry} (h : r.Numbered) {call : Call} {x : Send}
    (found : r.send? call.id = some x) {now : Nat} {result : Except Failure Answer}
    (ended : (call.sending.poll r now).1 = .ended result) :
    ∃ entered p, Ends r call now x entered p result (call.sending.poll r now).2 := by
  have ended : call.sending.poll r now = (.ended result, (call.sending.poll r now).2) :=
    Prod.ext ended rfl
  obtain ⟨entered, p, r₁, goes, made, answered, late⟩ := Sending.poll_ended h found ended
  obtain ⟨depth, fresh, queue, isOpen⟩ := Registry.finish_frame r₁ call.id
  rw [made]
  refine ⟨entered, p, depth.trans goes.depth, fresh.trans goes.fresh, isOpen.trans goes.isOpen,
    goes.numbered.finish _, fun bounded => (goes.bounded bounded).finish goes.numbered _, ?_,
    Registry.send?_finish goes.numbered _, fun i other => ?_, goes.course, answered, late⟩
  · intro i
    rw [queue]
    exact goes.fills i
  · have promoted := Registry.promoted_finish goes.numbered other
    rwa [goes.sends, if_neg other] at promoted

theorem Tracked.finish (h : Tracked log t) {before after : List Call} {call : Call}
    (split : t.calls = before ++ call :: after) {now : Nat} (later : t.clock ≤ now) {x : Send}
    {entered observed : Bool} {p : Progress} {result : Except Failure Answer} {r' : Registry}
    (ends : Ends t.registry call now x entered p result r') :
    Tracked (log ++ [.looked call now observed (some result)])
      { t with registry := r', clock := now, calls := before ++ after } := by
  have same : begun (log ++ [.looked call now observed (some result)]) = begun log := by
    simp [Event.call?]
  have sub : (before ++ after).Sublist t.calls := by
    rw [split]
    exact (List.Sublist.refl before).append (List.sublist_cons_self call after)
  have mem : call ∈ t.calls := by simp [split]
  have sole := h.sole split
  refine ⟨ends.numbered, fun other mem => ?_, same ▸ h.distinct, ?_,
    fun other mem => ?_, fun id found => ?_,
    fun other time entered' result' mem' => ?_, fun id result' mem' => ?_⟩
  · show other.id < r'.fresh ∧ other.session < r'.fresh
    rw [ends.fresh]
    exact h.below other (same ▸ mem)
  · rw [same]
    exact sub.trans h.calls
  · exact (ends.others other.id (sole other mem)).address.trans (h.found other (sub.subset mem))
  · change r'.send? id ≠ none at found
    by_cases here : id = call.id
    · exact absurd (here ▸ ends.gone) found
    · have before' : t.registry.send? id ≠ none := fun missing => found <| by
        have address := (ends.others id here).address
        rw [missing] at address
        exact Option.map_eq_none_iff.1 address
      obtain ⟨other, mem, named⟩ := h.sender id before'
      refine ⟨other, ?_, named⟩
      rw [split] at mem
      rcases List.mem_append.1 mem with mem | mem
      · exact List.mem_append_left _ mem
      · rcases List.mem_cons.1 mem with rfl | mem
        · exact absurd named.symm here
        · exact List.mem_append_right _ mem
  · rw [same]
    rcases List.mem_append.1 mem' with mem' | mem'
    · exact (h.looks other time entered' result' mem').imp_right (Nat.le_trans · later)
    · cases List.mem_singleton.1 mem'
      exact ⟨h.calls.subset mem, Nat.le_refl _⟩
  · rw [same]
    rw [results_append] at mem'
    rcases List.mem_append.1 mem' with mem' | mem'
    · obtain ⟨begun, settled⟩ := h.ended id result' mem'
      exact ⟨begun, fun other mem => settled other (sub.subset mem)⟩
    · cases List.mem_singleton.1 mem'
      exact ⟨⟨call, h.calls.subset mem, rfl⟩, sole⟩

theorem Tracked.step (h : Tracked log t) (step : Step t e t') : Tracked (log ++ [e]) t' := by
  cases step with
  | connect host =>
    have opens := Registry.opens h.numbered host
    refine h.still opens.numbered (opens.fresh ▸ Nat.le_succ _) (Nat.le_refl _)
      rfl (fun i => ?_) rfl rfl nofun
    show ((t.registry.connect host).2.send? i).map _ = _
    rw [opens.sends]
  | disconnect host =>
    exact h.still ⟨h.numbered.sends, h.numbered.sessions, h.numbered.distinct⟩
      (Nat.le_refl _) (Nat.le_refl _) rfl (fun _ => rfl) rfl rfl nofun
  | close session =>
    have closes := Registry.closes h.numbered session
    exact h.still closes.numbered (Nat.le_of_eq closes.fresh.symm) (Nat.le_refl _) rfl
      (fun i => (closes.sends i).address) rfl rfl nofun
  | refuse envelope refused =>
    have same := Registry.begin_refused refused
    refine h.still ?_ ?_ (Nat.le_refl _) rfl (fun i => ?_) rfl rfl nofun <;> simp only [same]
    · exact h.numbered
    · exact Nat.le_refl _
  | @begin envelope id session now later begun linked =>
    obtain ⟨rfl, session', linked', old, begins⟩ :=
      Registry.begins h.numbered (Prod.ext begun rfl)
    cases linked.symm.trans linked'
    exact h.begin later old begins
  | @wait call mem now later pending =>
    obtain ⟨x, found, -⟩ := h.send mem
    obtain ⟨-, entered, p, goes, -⟩ := waits h.numbered found pending
    refine h.still goes.numbered (Nat.le_of_eq goes.fresh.symm) later
      rfl (goes.address found) rfl rfl ?_
    intro call' time entered' result same
    cases same
    exact ⟨h.calls.subset mem, Nat.le_refl _⟩
  | @finish before after call split now later result ended =>
    have mem : call ∈ t.calls := by simp [split]
    obtain ⟨x, found, -⟩ := h.send mem
    obtain ⟨entered, p, ends⟩ := ends h.numbered found ended
    exact h.finish split later ends
  | @read session request received =>
    have reads := Registry.reads h.numbered (Prod.ext received rfl)
    exact h.still reads.numbered (Nat.le_of_eq reads.fresh.symm) (Nat.le_refl _) rfl
      (fun i => (reads.sends i).address) rfl rfl nofun
  | @respond before after id split answer now later =>
    rcases t.registry.respond_cases id answer with same | ⟨x, -, -, same⟩ <;> rw [same]
    · exact h.still h.numbered (Nat.le_refl _) later rfl (fun _ => rfl) rfl rfl nofun
    · exact h.still (h.numbered.setProgress _ _) (Nat.le_refl _) later rfl
        (t.registry.address_setProgress id _) rfl rfl nofun
  | @drop before after id split =>
    rcases t.registry.drop_cases id with same | ⟨x, -, -, same⟩ <;> rw [same]
    · exact h.still h.numbered (Nat.le_refl _) (Nat.le_refl _) rfl (fun _ => rfl) rfl rfl nofun
    · exact h.still (h.numbered.setProgress _ _) (Nat.le_refl _) (Nat.le_refl _) rfl
        (t.registry.address_setProgress id _) rfl rfl nofun

end Traffic
end ControlPlane.Agent
