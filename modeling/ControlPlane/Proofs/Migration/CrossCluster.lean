import ControlPlane.Proofs.Concurrent.IsolatedMachine
import ControlPlane.Proofs.Migration.FailedMigration
import ControlPlane.Proofs.Migration.Outcomes
import ControlPlane.Proofs.Operation.ItemOutcome

/-!
# A migration between clusters keeps to its course

The destination is prepared, the source sends the machine, and then the destination takes over, or
is told to clean up. These commands come in one order, each goes out on the answer to the one
before, and before the destination has taken over nothing is written about any machine or volume.
-/

namespace ControlPlane

namespace Agent
variable {k : Kind} {host : HostId} {answer : Except Failure Answer}

/-- The host says that it has done what it was told to. -/
def Acknowledged (answer : Except Failure Answer) : Prop :=
  ∃ a, answer = .ok a ∧ a.succeeded = true

theorem acknowledged_of_interpret {reply : k.Reply} (h : k.interpret host answer = .ok reply) :
    Acknowledged answer := by
  cases answer with
  | error failure => cases h
  | ok a =>
    simp only [Kind.interpret] at h
    split at h
    · exact ⟨a, rfl, ‹_›⟩
    · cases h

/-- An acknowledgement that says nothing else can always be read. -/
theorem not_acknowledged_of_send {failure : Failure}
    (h : Kind.send.interpret host answer = .error failure) :
    ¬ Acknowledged answer := by
  rintro ⟨a, rfl, succeeded⟩
  simp only [Kind.interpret, if_pos succeeded] at h
  cases h

end Agent

namespace Concurrent
open Work Control Operation Procedure Migration Agent

abbrev Sent := Envelope × Except Failure Answer

def Exchange.commands : Exchange → List Sent
  | ⟨.send e, answer, _⟩ => [(e, answer)].filter (·.1.Commands)
  | ⟨.sendBoth e e', answers, _⟩ => [(e, answers.1), (e', answers.2)].filter (·.1.Commands)
  | _ => []

/-- The commands that were sent, in their order. Questions are left out. -/
def commands (past : List Exchange) : List Sent := past.flatMap Exchange.commands

variable (p : Plan) (token : String) (targets : List VolumeTarget)

/-- The commands of a migration that is given up. The destination was not prepared; or it was, the
source has not acknowledged the sending, and the destination was told to clean up. -/
inductive Dropped : List Sent → Prop
  | unprepared {wait : Span} {a : Except Failure Answer}
      (refused : ∀ r, Kind.receive.interpret p.destination a ≠ .ok r) :
      Dropped [(.ofBody p.destination .receive ⟨token, targets⟩ wait, a)]
  | cleaned {wait wait' wait'' : Span} {a b c : Except Failure Answer} {r : Rendezvous}
      (prepared : Kind.receive.interpret p.destination a = .ok r) (unsent : ¬ Acknowledged b) :
      Dropped [(.ofBody p.destination .receive ⟨token, targets⟩ wait, a),
        (.ofBody p.source .send ⟨token, p.destination, r⟩ wait', b),
        (.ofBody p.destination .cleanup ⟨token, r.ticket⟩ wait'', c)]

/-- The commands of a migration that is not given up. Nobody knows whether the source has sent the
machine; or it has acknowledged that, and the destination was told to take over. -/
inductive Pursued : List Sent → Prop
  | lost {wait wait' : Span} {a b : Except Failure Answer} {r : Rendezvous} {failure : Failure}
      (prepared : Kind.receive.interpret p.destination a = .ok r) (silent : b = .error failure)
      (ambiguous : failure.kind.Ambiguous) :
      Pursued [(.ofBody p.destination .receive ⟨token, targets⟩ wait, a),
        (.ofBody p.source .send ⟨token, p.destination, r⟩ wait', b)]
  | handed {wait wait' wait'' : Span} {a b c : Except Failure Answer} {r : Rendezvous}
      (prepared : Kind.receive.interpret p.destination a = .ok r) (sent : Acknowledged b) :
      Pursued [(.ofBody p.destination .receive ⟨token, targets⟩ wait, a),
        (.ofBody p.source .send ⟨token, p.destination, r⟩ wait', b),
        (.ofBody p.destination .complete ⟨token, targets⟩ wait'', c)]

/-- The destination has answered that it has taken over, in words that can be read. -/
def Taken (l : List Sent) : Prop := ∃ body wait c reported,
  (Envelope.ofBody p.destination .complete body wait, c) ∈ l ∧
    Kind.complete.interpret p.destination c = .ok reported

/-- One item has been opened and these commands have been sent. Nothing has been written about a
machine or volumes, unless the destination has taken over. -/
structure Logged (item : Item) (l : List Sent) (past : List Exchange) : Prop where
  sole : ∀ {other}, Began other past → other = item
  commands : commands past = l
  kept : Taken p l ∨ ∀ e ∈ past, ¬ e.request.Rewrites

structure Unlogged (l : List Sent) (r : Control.Request) : Prop where
  commands : ¬ r.Commands
  opens : ∀ x, r ≠ .transact (.openItem x)
  keeps : Taken p l ∨ ¬ r.Rewrites

def GivenUp (item : Item) (past : List Exchange) : Prop :=
  ∃ token targets l, Dropped p token targets l ∧ Logged p item l past

def FollowedUp (item : Item) (past : List Exchange) : Prop :=
  ∃ token targets l, Pursued p token targets l ∧ Logged p item l past

/-- What a migration between clusters has sent when it ends without success. -/
def Falters (item : Item) (past : List Exchange) : Ending → Prop
  | .rejected _ => Logged p item [] past
  | .failed _ => GivenUp p item past
  | .unresolved _ => FollowedUp p item past

/-- What a part of a migration between clusters has sent when it ends. -/
def Coursed {α : Type} (item : Item) (goes : List Exchange → Prop) (past : List Exchange) :
    Except Ending α → Prop
  | .ok _ => goes past
  | .error ending => Falters p item past ending

/-- The destination is prepared, and the source has acknowledged that it has sent the machine. -/
def Shipped (p : Plan) (token : String) (targets : List VolumeTarget) (item : Item) (wait : Span)
    (a : Except Failure Answer) (r : Rendezvous) (past : List Exchange) : Prop :=
  ∃ wait' b, Acknowledged b ∧
    Logged p item [(.ofBody p.destination .receive ⟨token, targets⟩ wait, a),
      (.ofBody p.source .send ⟨token, p.destination, r⟩ wait', b)] past

variable {p token targets} {job : Nat} {s : Shared} {past : List Exchange} {e : Exchange}
  {item : Item} {ctx : Context} {vm : Vm} {α : Type} {r : Control.Request} {l : List Sent}
  {answer : Except Failure Answer}

theorem commands_append : commands (past ++ [e]) = commands past ++ e.commands := by
  rw [commands, List.flatMap_append, List.flatMap_singleton]
  rfl

theorem Exchange.commands_of_other (no : ¬ e.request.Commands) : e.commands = [] := by
  obtain ⟨r, reply, before⟩ := e
  cases r with
  | send e => exact List.filter_eq_nil_iff.2 (by simpa [Request.Commands] using no)
  | sendBoth e e' => exact List.filter_eq_nil_iff.2 (by simpa [Request.Commands, not_or] using no)
  | _ => rfl

theorem Taken.mono {l' : List Sent} (h : Taken p l) (sub : l ⊆ l') : Taken p l' := by
  obtain ⟨body, wait, c, reported, mem, read⟩ := h
  exact ⟨body, wait, c, reported, sub mem, read⟩

theorem taken_of_complete {body : CompleteBody} {wait : Span} {reported : List VolumePath}
    (read : Kind.complete.interpret p.destination answer = .ok reported) :
    Taken p (l ++ [(.ofBody p.destination .complete body wait, answer)]) :=
  ⟨body, wait, answer, reported, List.mem_append_right _ (List.mem_singleton_self _), read⟩

theorem Logged.append (h : Logged p item l past) (unlogged : Unlogged p l e.request) :
    Logged p item l (past ++ [e]) where
  sole began := h.sole (began.of_append unlogged.opens)
  commands := by
    rw [commands_append, h.commands, Exchange.commands_of_other unlogged.commands, List.append_nil]
  kept := by
    rcases h.kept, unlogged.keeps with ⟨taken | none, taken' | no⟩
    · exact .inl taken
    · exact .inl taken
    · exact .inl taken'
    · refine .inr fun f mem => ?_
      rcases List.mem_append.1 mem with mem | mem
      · exact none f mem
      · exact List.mem_singleton.1 mem ▸ no

theorem Logged.sent {k : Kind} (h : Logged p item l past) (other : k ≠ .checkState)
    {host : HostId} {body : k.Body} {wait : Span} {before : Store} :
    Logged p item (l ++ [(.ofBody host k body wait, answer)])
      (past ++ [⟨.send (.ofBody host k body wait), answer, before⟩]) where
  sole began := h.sole (began.of_append (by rintro x ⟨⟩))
  commands := by
    rw [commands_append, h.commands]
    refine congrArg (l ++ ·) (List.filter_eq_self.2 fun x mem => ?_)
    rw [List.mem_singleton.1 mem]
    exact decide_eq_true (Envelope.commands_ofBody other host body wait)
  kept := by
    rcases h.kept with taken | none
    · exact .inl (taken.mono (List.subset_append_left ..))
    · refine .inr fun f mem => ?_
      rcases List.mem_append.1 mem with mem | mem
      · exact none f mem
      · exact List.mem_singleton.1 mem ▸ id

theorem unlogged_of_silent (silent : r.Silent) : Unlogged p l r :=
  ⟨fun commands => silent.2 commands.sends, no_openItem_of_quiet silent.1,
    .inr (not_rewrites_of_quiet silent.1)⟩

theorem unlogged_probe {host : HostId} {wait : Span} :
    Unlogged p l (.send (probe host token wait)) :=
  ⟨fun no => no rfl, by rintro x ⟨⟩, .inr id⟩

theorem unlogged_probes {first second : HostId} {wait : Span} :
    Unlogged p l (.sendBoth (probe first token wait) (probe second token wait)) :=
  ⟨fun no => no.elim (· rfl) (· rfl), by rintro x ⟨⟩, .inr id⟩

theorem unlogged_within {P : α → Prop} {q : Program surroundings α}
    (within : q.Within (Unlogged p l) P) (h : Logged p item l past) :
    Safe (listening job) (fun a past _ => P a ∧ Logged p item l past) q past s :=
  Safe.minds within (fun _ _ => trivial) (fun unlogged h => h.append unlogged) h

theorem logged_dispatch {k : Kind} (other : k ≠ .checkState) {host : HostId} {body : k.Body}
    {wait : Span} (h : Logged p item l past) :
    Safe (listening job) (fun result past _ => ∃ answer, result = k.interpret host answer ∧
      Logged p item (l ++ [(.ofBody host k body wait, answer)]) past)
      (dispatch host k body wait).run past s := by
  refine Safe.observe (P := fun past _ => Logged p item l past) trivial stable_minding h
    (fun _ _ _ => trivial) fun s answer h _ _ => ?_
  exact ⟨answer, rfl, h.sent other⟩

theorem logged_pass {point : Point} (h : Logged p item l past) :
    Safe (listening job) (Ends (fun _ past _ => Logged p item l past) fun _ _ => False)
      (Procedure.pass point).run past s := by
  refine Safe.observe (P := fun past _ => Logged p item l past) trivial stable_minding h
    (fun _ _ _ => trivial) ?_
  rintro s _ h - ⟨rfl, -⟩
  exact h.append (unlogged_of_silent (r := .pass point) ⟨trivial, id⟩)

theorem logged_cleanup {ticket : String} (h : Logged p item l past) :
    Safe (listening job) (fun _ past _ => ∃ wait c,
      Logged p item (l ++ [(.ofBody p.destination .cleanup ⟨vm.token, ticket⟩ wait, c)]) past)
      (cleanup ctx vm p ticket) past s :=
  Safe.then (logged_dispatch (k := .cleanup) (by decide) h) fun _ _ _ ⟨c, _, h⟩ => ⟨_, c, h⟩

section
variable {wait : Span} {a : Except Failure Answer} {rendezvous : Rendezvous}
  (prepared : Kind.receive.interpret p.destination a = .ok rendezvous)
include prepared

theorem logged_send
    (h : Logged p item [(.ofBody p.destination .receive ⟨vm.token, targets⟩ wait, a)] past) :
    Safe (listening job)
      (fun result past _ =>
        Coursed p item (Shipped p vm.token targets item wait a rendezvous) past result)
      (send ctx vm p rendezvous).run past s := by
  refine Safe.ofProgram (logged_dispatch (k := .send) (by decide) h) ?_
  rintro result past s ⟨b, interpreted, h⟩
  have cleans : ∀ {failure : Failure} {past s}, ¬ Acknowledged b →
      Logged p item [(.ofBody p.destination .receive ⟨vm.token, targets⟩ wait, a),
        (.ofBody p.source .send ⟨vm.token, p.destination, rendezvous⟩
          ctx.waits.storageMigrateWait, b)] past →
      Safe (listening job)
      (fun result past _ => Coursed p item
        (Shipped p vm.token targets item wait a rendezvous) past result)
        (do cleanup ctx vm p rendezvous.ticket; throw (.failed failure) : Body Unit).run
        past s := by
    intro failure past s unsent h
    refine Safe.ofProgram (logged_cleanup h) ?_
    rintro _ past s ⟨wait'', c, h⟩
    exact ⟨_, _, _, .cleaned prepared unsent, h⟩
  rcases result with failure | _
  · have unsent := not_acknowledged_of_send interpreted.symm
    by_cases ambiguous : failure.kind.Ambiguous
    · simp only [if_pos ambiguous]
      have lost := lost_of_interpret interpreted.symm ambiguous
      refine Safe.ofProgram (unlogged_within (powerState_asks unlogged_probe) h)
        fun power past s h => ?_
      rcases power with _ | _ | _ | _
      case ok.on => exact cleans unsent h.2
      all_goals exact ⟨_, _, _, .lost prepared lost ambiguous, h.2⟩
    · simp only [if_neg ambiguous]
      exact cleans unsent h
  · exact ⟨_, b, acknowledged_of_interpret interpreted.symm, h⟩

end

/-- A move is recorded when the destination has taken over. -/
theorem logged_record {moves : List VolumeMove} (taken : Taken p l) (h : Logged p item l past) :
    Safe (listening job) (fun _ past _ => Logged p item l past) (record vm p moves).run past s :=
  (unlogged_within (record_asks (fun _ => unlogged_of_silent)
    ⟨id, by rintro _ ⟨⟩, .inl taken⟩
    fun _ => ⟨id, by rintro _ ⟨⟩, .inl taken⟩) h).mono fun _ _ _ h => h.2

theorem coursed_acrossClusters (h : Logged p item [] past) :
    Safe (listening job) (fun result past _ => Coursed p item (FollowedUp p item) past result)
      (acrossClusters ctx vm p targets).run past s := by
  refine Safe.adapted (logged_dispatch (k := .receive) (by decide) h) ?_ ?_
  · rintro rendezvous past s ⟨a, interpreted, h⟩
    refine Safe.andThen (logged_send interpreted.symm h) ?_ fun _ _ _ h => h
    rintro _ past s ⟨wait', b, sent, h⟩
    refine Safe.adapted (logged_pass h) (fun _ past s h => ?_) fun _ _ _ => False.elim
    refine Safe.ofProgram (logged_dispatch (k := .complete) (by decide) h) ?_
    rintro result past s ⟨c, interpreted', h⟩
    cases result with
    | ok reported =>
      refine Safe.adapt ((logged_record (taken_of_complete interpreted'.symm) h).mono ?_)
      intro result past s h
      cases result <;> exact ⟨_, _, _, .handed interpreted.symm sent, h⟩
    | error failure =>
      refine Safe.ofProgram (unlogged_within (split_asks unlogged_probes) h) fun _ past s h => ?_
      exact ⟨_, _, _, .handed interpreted.symm sent, h.2⟩
  · rintro failure past s ⟨a, interpreted, h⟩
    refine ⟨_, _, _, .unprepared fun r same => ?_, h⟩
    rw [← interpreted] at same
    cases same

theorem lasting_logged :
    Lasting (listening job) Request.Silent fun past _ => Logged p item l past where
  stable := stable_minding
  fit _ _ _ := trivial
  keeps silent h := h.append (unlogged_of_silent silent)

theorem coursed_migrateBody (moves : p.MovesStorage) (across : p.crossCluster = true)
    (h : Logged p item [] past) :
    Safe (listening job) (fun result past _ => Coursed p item (FollowedUp p item) past result)
      (migrateBody ctx p).run past s := by
  refine Safe.adapted (Q := fun _ past _ => Logged p item [] past) ?_ ?_ fun _ _ _ h => h
  · refine (safe_check (T := fun _ _ _ => True) lasting_logged (fun _ => ?_) h
      fun _ _ _ => trivial).mono
      fun _ _ _ h => h.1
    exact ⟨fun _ _ _ _ _ _ => trivial, fun _ _ _ => trivial, fun _ _ => trivial⟩
  · rintro ⟨vm, targets⟩ past s h
    simp only [if_neg (not_not_intro moves), if_pos across]
    exact coursed_acrossClusters h

theorem finish_unlogged {step : Work.Step} :
    (Work.finish ctx.node item step).run.Within (Unlogged p l) fun _ => True := by
  have unlocks : Unlogged p l (.unlock (lockName ctx.node item.vm) .tidy) :=
    ⟨id, by rintro _ ⟨⟩, .inr id⟩
  have closes : ∀ now, Unlogged p l (.transact (.closeItem item step now)) :=
    fun now => ⟨id, by rintro _ ⟨⟩, .inr id⟩
  refine .andThen (.ask (unlogged_of_silent ⟨trivial, id⟩)) (fun now _ => ?_) fun _ _ => trivial
  exact .andThen (.ask (closes now)) (fun _ _ => .ask unlocks) fun _ _ => trivial

theorem settle_unlogged {result : Except Ending Vm} :
    (settle ctx item result).run.Within (Unlogged p l) fun _ => True := by
  rcases result with (failure | failure | failure) | w
  · exact .andThen finish_unlogged (fun _ _ => trivial) fun _ _ => trivial
  · exact .andThen finish_unlogged (fun _ _ => trivial) fun _ _ => trivial
  · exact .andThen (.ask ⟨id, by rintro _ ⟨⟩, .inr id⟩)
      (fun _ _ => trivial) fun _ _ => trivial
  · exact .andThen finish_unlogged (fun _ _ => trivial) fun _ _ => trivial

/-- What a migration between clusters has sent when its call is over. If it has sent nothing, then
its checks have refused it, and its item is cancelled. -/
def Concluded (p : Plan) (item : Item) : Assertion := fun past s =>
  Logged p item [] past ∧ (∃ x, s.store.item? item.id = some x ∧ x.step = .cancelled) ∨
    GivenUp p item past ∨ FollowedUp p item past

variable {first : View} {request : Migration.Request} {result : Except Ending Vm}

theorem Concluded.sole {other : Item} (h : Concluded p item past s) (began : Began other past) :
    other = item := by
  obtain ⟨h, -⟩ | ⟨_, _, _, -, h⟩ | ⟨_, _, _, -, h⟩ := h <;> exact h.sole began

theorem concluded_settle (h : Concludes (.migrate request) first item result past s)
    (coursed : Coursed p item (FollowedUp p item) past result) :
    Safe (alone request.vm job) (fun _ => Concluded p item)
      (settle ctx item result).run past s := by
  have keeps : ∀ {l}, Logged p item l past →
      (∀ {past s}, Logged p item l past → Concluded p item past s) →
      Safe (alone request.vm job) (fun _ => Concluded p item)
        (settle ctx item result).run past s := by
    intro l h' concludes
    refine ((alone_settle h).recall
      ((unlogged_within settle_unlogged h').mono fun _ _ _ h => h.2)).mono ?_
    exact fun _ _ _ h => concludes h.2
  rcases result with (failure | failure | failure) | w
  · refine Safe.andThen ((alone_finish spared_unsent h).recall
      ((unlogged_within finish_unlogged coursed).mono fun _ _ _ h => h.2)) ?_ ?_
    · rintro _ past s ⟨⟨-, held, -⟩, logged⟩
      obtain ⟨x, stored, -, cancelled⟩ := held.filed
      exact .inl ⟨logged, x, stored, cancelled⟩
    · rintro _ _ _ ⟨⟨⟨⟩, -⟩, -⟩
  · obtain ⟨token, targets, l, dropped, h'⟩ := coursed
    exact keeps h' fun h => .inr (.inl ⟨token, targets, l, dropped, h⟩)
  · obtain ⟨token, targets, l, pursued, h'⟩ := coursed
    exact keeps h' fun h => .inr (.inr ⟨token, targets, l, pursued, h⟩)
  · obtain ⟨token, targets, l, pursued, h'⟩ := coursed
    exact keeps h' fun h => .inr (.inr ⟨token, targets, l, pursued, h⟩)

structure Pristine (past : List Exchange) : Prop where
  unsent : Unsent past
  unwritten : Unwritten past

theorem pristine_nil : Pristine [] :=
  ⟨fun _ mem => absurd mem List.not_mem_nil, fun _ mem => absurd mem List.not_mem_nil⟩

theorem Pristine.append (h : Pristine past) (sends : ¬ e.request.Sends)
    (rewrites : ¬ e.request.Rewrites) :
    Pristine (past ++ [e]) :=
  ⟨spared_unsent sends h.unsent, h.unwritten.append rewrites⟩

theorem pristine_plan (h : Pristine past) :
    Safe (listening job) (fun _ past _ => Pristine past) (Migration.plan request).run past s := by
  have lasting : Lasting (listening job) Request.Silent fun past _ => Pristine past :=
    ⟨stable_minding, fun _ _ _ => trivial,
      fun silent h => h.append silent.2 (not_rewrites_of_quiet silent.1)⟩
  exact (safe_plan lasting h).mono fun _ _ _ h => h.1

/-- Until work has begun nothing is sent and nothing is written about a machine or volumes. -/
theorem pristine_start {node : Node} {v : VmId} {operation : Work.Operation} {plan : Option Plan}
    (h : Pristine past) :
    Safe (listening job)
      (fun result past _ => (∀ item, result = .ok item → item.plan = plan) ∧ Pristine past)
      (Work.start node v operation plan).run past s := by
  refine Safe.minds (start_within ..) (fun _ _ => trivial) (fun {past e} clerical h => ?_) h
  obtain ⟨r, reply, before⟩ := e
  cases r with
  | transact t => cases t <;> first | exact h.append id id | exact clerical.elim
  | _ => first | exact h.append id id | exact clerical.elim

theorem logged_of_pristine (sole : ∀ {other}, Began other past → other = item)
    (h : Pristine past) :
    Logged p item [] past where
  sole := sole
  commands := List.flatMap_eq_nil_iff.2 fun e mem =>
    Exchange.commands_of_other fun commands => h.unsent e mem commands.sends
  kept := .inr h.unwritten

theorem concluded_migrate (h : Waits request.vm first past s) (pristine : Pristine past) :
    Safe (alone request.vm job)
      (fun _ past s => ∀ item p, Began item past → item.plan = some p →
        p.MovesStorage → p.crossCluster = true → Concluded p item past s)
          (migrate ctx request).run past s := by
  have none : ∀ {past s}, Waits request.vm first past s → ∀ item p, Began item past →
    item.plan = some p → p.MovesStorage → p.crossCluster = true → Concluded p item past s :=
    fun h item _ began => absurd began (h.began item)
  refine Safe.andThen ((safe_plan lasting_waits h).recall (pristine_plan pristine)) ?_
    fun _ _ _ h => none h.1.1
  rintro p past s ⟨⟨h, planned⟩, pristine⟩
  obtain ⟨subject, source, destination⟩ := planned p rfl
  refine Safe.andThen ((heralded_waits.start h).recall (pristine_start pristine)) ?_
    fun _ _ _ h => none h.1
  rintro item past s ⟨h, planned, pristine⟩
  have planned := planned item rfl
  have ends : Safe (alone request.vm job) (Concludes (.migrate request) first item)
    (migrateBody ctx p).run past s := alone_migrateBody subject source destination h
  by_cases crossing : p.MovesStorage ∧ p.crossCluster = true
  · have logged := logged_of_pristine (p := p) h.1.began pristine
    refine Safe.ofProgram (ends.recall (coursed_migrateBody crossing.1 crossing.2 logged)) ?_
    rintro ending past s ⟨h, coursed⟩
    refine (concluded_settle h coursed).mono
      fun _ past s concluded other p' began planned' _ _ => ?_
    obtain rfl := concluded.sole began
    cases planned.symm.trans planned'
    exact concluded
  · refine Safe.ofProgram ends fun ending past s h => ?_
    refine (alone_settle h).mono ?_
    rintro _ past s ⟨last, step, -, held, -⟩ other p' began planned' moves across
    obtain rfl := held.began began
    cases planned.symm.trans planned'
    exact absurd ⟨moves, across⟩ crossing

/-- A migration of a machine with volumes between clusters sends, apart from questions, just the
commands of its course, in their order, unless its checks refuse it. It writes nothing about any
machine or volume unless the destination has answered that it has taken over: the machine is then as
it was. -/
theorem crossing_keeps_course {result : Except Failure Vm} {s' : Shared}
    (run : Run (Undisturbed request.vm) job (migrate ctx request).run [] s result past s')
    (began : Began item past) (planned : item.plan = some p) (moves : p.MovesStorage)
    (across : p.crossCluster = true) :
    (commands past = [] ∧ (∃ x, s'.store.item? item.id = some x ∧ x.step = .cancelled) ∨
      ∃ token targets, Dropped p token targets (commands past) ∨
        Pursued p token targets (commands past)) ∧
    (Taken p (commands past) ∨
      (∀ e ∈ past, ¬ e.request.Rewrites) ∧
      s'.store.view request.vm = s.store.view request.vm) := by
  have concluded := (concluded_migrate waits_first pristine_nil).run_sound run item p
    began planned moves across
  have untouched : Untouched request.vm (s.store.view request.vm) past s'.store :=
    (Safe.untouched (C := alone request.vm job) (fun rely => rely.view) trivial (fun _ => trivial)
      fun _ => rfl).run_sound run
  have kept : ∀ {l}, Logged p item l past → Taken p (commands past) ∨
      (∀ e ∈ past, ¬ e.request.Rewrites) ∧
      s'.store.view request.vm = s.store.view request.vm := by
    intro l h
    rw [h.commands]
    exact h.kept.imp_right fun unwritten => ⟨unwritten, untouched unwritten⟩
  obtain ⟨h, cancelled⟩ | ⟨token, targets, l, dropped, h⟩
    | ⟨token, targets, l, pursued, h⟩ := concluded
  · exact ⟨.inl ⟨h.commands, cancelled⟩, kept h⟩
  · exact ⟨.inr ⟨token, targets, .inl (h.commands.symm ▸ dropped)⟩, kept h⟩
  · exact ⟨.inr ⟨token, targets, .inr (h.commands.symm ▸ pursued)⟩, kept h⟩

/-- A machine with a volume, two hosts in clusters of their own, and a pool in each of the
clusters. -/
def twoSites : Store := { oneCluster with
  hosts := .ofList [Simulation.Sample.host ⟨5⟩ ⟨1⟩, Simulation.Sample.host ⟨6⟩ ⟨2⟩]
  pools := .ofList [Simulation.Sample.pool ⟨200⟩ ⟨1⟩ false,
    Simulation.Sample.pool ⟨201⟩ ⟨2⟩ false] }

def crossing : Migration.Request :=
  ⟨⟨1⟩, ⟨5⟩, ⟨6⟩, .ofList [⟨⟨100⟩, ⟨201⟩⟩]⟩

def traversed : Plan := ⟨⟨1⟩, ⟨5⟩, ⟨6⟩, .ofList [⟨⟨100⟩, ⟨201⟩⟩], true⟩

def unwilling : Oracle := .smooth ⟨0, 1⟩ default fun e =>
  if e.host = ⟨6⟩ then .ok (.ofReply .receive ⟨"ticket", [], []⟩) else .ok (.refusal "")

/-- The destination was prepared, the source would not send, and the destination was told to clean
up. -/
theorem unsent_machine_keeps_course :
    ∃ result past s' item, Run (Undisturbed ⟨1⟩) 0 (migrate trial crossing).run
      [] ⟨twoSites, {}, []⟩ result past s' ∧ Began item past ∧
      item.plan = some traversed ∧ (commands past).length = 3 ∧
      (commands past = [] ∧ (∃ x, s'.store.item? item.id = some x ∧ x.step = .cancelled) ∨
        ∃ token targets, Dropped traversed token targets (commands past) ∨
          Pursued traversed token targets (commands past)) ∧
      (Taken traversed (commands past) ∨
        (∀ e ∈ past, ¬ e.request.Rewrites) ∧
        s'.store.view ⟨1⟩ = twoSites.view ⟨1⟩) := by
  have ends : ((solo? 0 unwilling (migrate trial crossing).run [] ⟨twoSites, {}, []⟩).any
      fun ended => (commands ended.2.1).length = 3 &&
        ended.2.1.any fun f => (opened? f).any fun item => item.plan = some traversed) = true := by
    decide +kernel
  obtain ⟨⟨result, past, s'⟩, migrates, ends⟩ := (Option.any_eq_true ..).1 ends
  simp only [Bool.and_eq_true, List.any_eq_true, decide_eq_true_eq] at ends
  obtain ⟨three, f, mem, opens⟩ := ends
  obtain ⟨item, opens, planned⟩ := (Option.any_eq_true ..).1 opens
  simp only [decide_eq_true_eq] at planned
  have began := began_of_opened? mem opens
  have run : Run (Undisturbed crossing.vm) 0 (migrate trial crossing).run []
    ⟨twoSites, {}, []⟩ result past s' := run_of_solo? (.refl _) migrates
  exact ⟨result, past, s', item, run, began, planned, three,
    crossing_keeps_course run began planned (by decide) rfl⟩

end Concurrent
end ControlPlane
