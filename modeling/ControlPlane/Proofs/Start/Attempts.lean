import ControlPlane.Proofs.Concurrent.CrashSafety
import ControlPlane.Proofs.Concurrent.RecordedAnswers
import ControlPlane.Proofs.Operation.CommandLetters
import ControlPlane.Proofs.Operation.PlannedMoves
import ControlPlane.Proofs.Start.Outcomes

/-!
# How often a start is tried

Each host that the planner names is sent one command to start the machine, and the record goes
through two versions for it. The last version is missing only where nobody can tell what has become
of the machine: then it stays recorded as starting, on the last of the hosts.
-/

namespace ControlPlane
open Control

def Control.Request.Picks : Control.Request → Prop
  | .selectHost .. => True
  | _ => False

namespace Concurrent
open Work Operation Procedure Agent

def Exchange.pick? : Exchange → Option HostId
  | ⟨.selectHost _ _, .ok (some host), _⟩ => some host
  | _ => none

/-- A planner that is asked does not name a host that is ruled out. -/
def Exchange.respects : Exchange → Bool
  | ⟨.selectHost _ excluded, .ok (some host), _⟩ => !excluded.rulesOut host
  | _ => true

/-- The hosts that the planner has named, in turn. There is one for each attempt. -/
def picks (past : List Exchange) : List HostId := past.filterMap Exchange.pick?

def Respects (past : List Exchange) : Prop := ∀ e ∈ past, e.respects = true

def started (l : List Sent) : List HostId :=
  l.filterMap fun c => if c.1.kind = Enumeration.name Kind.start then some c.1.host else none

/-- The answer to the last start was lost, and the host that was asked has not said whether it has
the machine. -/
def Undecided (l : List Sent) : Prop :=
  match l.reverse with
  | (asked, told) :: (command, .error lost) :: _ =>
    command.kind = Enumeration.name Kind.start ∧ lost.kind.Ambiguous ∧
      asked.kind = Enumeration.name Kind.checkState ∧ asked.host = command.host ∧
      powerOf asked.host told ≠ .ok .on ∧ powerOf asked.host told ≠ .ok .off
  | _ => False

variable {v id : VmId} {job : Nat} {s : Shared} {past : List Exchange} {item : Item}
  {first view : View} {α : Type} {ctx : Context} {vm starting : Vm} {host : HostId}
  {tries : List HostId} {l m : List Sent} {e : Exchange} {asked command : Envelope}
  {told : Except Failure Answer} {lost : Failure}

theorem started_append : started (l ++ m) = started l ++ started m := List.filterMap_append ..

theorem not_undecided_nil : ¬ Undecided [] := id

theorem undecided_append : Undecided (l ++ [(command, .error lost), (asked, told)]) ↔
    command.kind = Enumeration.name Kind.start ∧ lost.kind.Ambiguous ∧
      asked.kind = Enumeration.name Kind.checkState ∧ asked.host = command.host ∧
      powerOf asked.host told ≠ .ok .on ∧ powerOf asked.host told ≠ .ok .off := by
  simp [Undecided]

/-- If the last that was sent is a command, all that can be known is known. -/
theorem not_undecided_of_command (commands : command.Commands) :
    ¬ Undecided (l ++ [(command, told)]) := by
  unfold Undecided
  rw [List.reverse_append, List.reverse_singleton, List.singleton_append]
  split
  next heads =>
    obtain ⟨same, -⟩ := List.cons.inj heads
    cases same
    exact fun h => commands h.2.2.1
  next => exact id

def Chooses (tries : List HostId) (past : List Exchange) : Prop :=
  picks past = tries ∧ (Respects past → tries.Nodup)

theorem Respects.left {after : List Exchange} (h : Respects (past ++ after)) : Respects past :=
  fun e mem => h e (List.mem_append_left _ mem)

theorem chooses_nil : Chooses [] [] := ⟨rfl, fun _ => .nil⟩

theorem Chooses.append (h : Chooses tries past) (plain : e.pick? = none) :
    Chooses tries (past ++ [e]) := by
  refine ⟨?_, fun respects => h.2 respects.left⟩
  rw [picks, List.filterMap_append, List.filterMap_cons_none plain,
    List.filterMap_nil, List.append_nil]
  exact h.1

theorem pick?_of_not_picks (plain : ¬ e.request.Picks) : e.pick? = none := by
  obtain ⟨r, reply, before⟩ := e
  cases r with
  | selectHost => exact absurd trivial plain
  | _ => rfl

/-- A part of an operation that asks for no host adds nothing to what the planner has named. -/
theorem Safe.unpicked {C : Contract} {Q : α → Assertion} {p : Program surroundings α}
    (h : Safe C Q p past s) {P : α → Prop} (within : p.Within (¬ ·.Picks) P)
    (chooses : Chooses tries past) :
    Safe C (fun a past s => Q a past s ∧ Chooses tries past) p past s := by
  refine Safe.recall h ((Safe.minds within (fun _ _ => trivial) ?_ chooses).mono fun _ _ _ h => h.2)
  intro past e plain chooses
  exact chooses.append (pick?_of_not_picks plain)

/-- What was sent for one attempt, and what its sender makes of the answers. -/
def Resolves (host : HostId) (l m : List Sent) (resolution : Resolution) : Prop :=
  started m = [host] ∧ match resolution with
    | .succeeded => True
    | .failed _ => ¬ Undecided (l ++ m)
    | .unknown _ => Undecided (l ++ m)

theorem alone_tells {k : Kind} {body : k.Body} {wait : Span} (h : Writes v item view l past s) :
    Safe (alone v job) (fun result past s => ∃ answer, result = k.interpret host answer ∧
      Writes v item view (l ++ [(.ofBody host k body wait, answer)]) past s)
      (dispatch host k body wait).run past s :=
  Safe.then (alone_send h) fun answer _ _ h => ⟨answer, rfl, h⟩

theorem alone_sendsStart {token : String} {body : Kind.start.Body} {wait : Span}
    (h : Writes v item view l past s) :
    Safe (alone v job) (fun resolution past s => ∃ m, Resolves host l m resolution ∧
      Writes v item view (l ++ m) past s)
        (sendResolved ctx host token .on .start body wait) past s := by
  have one : ∀ answer, started [(.ofBody host .start body wait, answer)] = [host] := fun _ => rfl
  refine Safe.then (alone_tells h) ?_
  intro result past s h
  obtain ⟨answer, rfl, h⟩ := h
  cases read : Kind.start.interpret host answer with
  | ok reply => exact ⟨_, ⟨one answer, trivial⟩, h⟩
  | error failure =>
    simp only
    split
    next ambiguous =>
      obtain rfl := lost_of_interpret read ambiguous
      refine Safe.then (alone_powerState h) fun power past s h => ?_
      obtain ⟨told, rfl, h⟩ := h
      rw [List.append_assoc] at h
      refine ⟨_, ⟨rfl, ?_⟩, h⟩
      rw [List.singleton_append, undecided_append]
      cases power : powerOf host told with
      | error silent =>
        exact ⟨rfl, ambiguous, rfl, rfl, fun no => (nomatch power.symm.trans no),
          fun no => (nomatch power.symm.trans no)⟩
      | ok state =>
        cases state with
        | on => trivial
        | off => exact fun h => h.2.2.2.2.2 power
        | unknown =>
          exact ⟨rfl, ambiguous, rfl, rfl, fun no => (nomatch power.symm.trans no),
          fun no => (nomatch power.symm.trans no)⟩
    next definite =>
      exact ⟨_,
        ⟨one answer, not_undecided_of_command
          (Envelope.commands_ofBody (by decide) host body wait)⟩, h⟩

/-- How an attempt ends on a host: the machine runs there, or it is known not to run, or nobody
knows. -/
def TriedOn (v : VmId) (item : Item) (starting : Vm) (host : HostId)
    (volumes : List Volume) (l : List Sent) :
    Except Ending StartAttempt → Assertion
  | .ok (.running _), past, s => ∃ m vm, started m = [host] ∧ Risen starting host vm ∧
      Writes v item ⟨some vm, volumes⟩ (l ++ m) past s
  | .ok (.refused _), past, s => ∃ m, started m = [host] ∧ ¬ Undecided (l ++ m) ∧
      Writes v item ⟨some starting, volumes⟩ (l ++ m) past s
  | .error _, past, s => ∃ m, started m = [host] ∧ Undecided (l ++ m) ∧
      Writes v item ⟨some starting, volumes⟩ (l ++ m) past s

theorem alone_forcesStop (h : Writes v item view l past s) :
    Safe (alone v job) (fun _ past s => ∃ e answer, e.Commands ∧ started [(e, answer)] = [] ∧
      Writes v item view (l ++ [(e, answer)]) past s) (forceStop ctx vm host) past s := by
  refine Safe.then (alone_tells h) ?_
  intro _ past s h
  obtain ⟨answer, -, h⟩ := h
  exact ⟨_, answer, Envelope.commands_ofBody (by decide) _ _ _, rfl, h⟩

theorem alone_attempts {volumes : List Volume} (state : starting.state = .starting)
    (there : starting.host = some host) (h : Writes v item ⟨some starting, volumes⟩ l past s) :
    Safe (alone v job) (TriedOn v item starting host volumes l)
      (startOn ctx vm starting host).run past s := by
  refine Safe.ofProgram (alone_sendsStart h) ?_
  intro resolution past s h
  obtain ⟨m, ⟨one, settled⟩, h⟩ := h
  cases resolution with
  | unknown failure => exact ⟨m, one, settled, h⟩
  | failed failure => exact ⟨m, one, settled, h⟩
  | succeeded =>
    refine Safe.query (K := Request.Silent) (Program.Within.call ⟨trivial, fun no => no⟩)
      (fun _ silent => silent.1) (lasting_silent (spared_letters (T := (· = l ++ m)))) h ?_
    intro finalized past s _ h
    cases finalized with
    | ok _ =>
      refine Safe.adapted (alone_finishStart (spared_letters (T := (· = l ++ m)))
        rfl state there h) ?_ ?_
      · intro running past s h
        obtain ⟨_, ⟨⟩, risen, h⟩ := h
        exact ⟨m, running, one, risen, h⟩
      · intro _ past s h
        obtain ⟨_, ⟨⟩, -⟩ := h
    | error failure =>
      refine Safe.ofProgram (alone_forcesStop h) ?_
      intro _ past s h
      obtain ⟨e, answer, commands, none, h⟩ := h
      rw [List.append_assoc] at h
      refine ⟨m ++ [(e, answer)], ?_, ?_, h⟩
      · rw [started_append, one, none, List.append_nil]
      · rw [← List.append_assoc]
        exact not_undecided_of_command commands

section
variable {t : Transition}

theorem run_unpicked : t.run.run.Within (¬ ·.Picks) fun _ => True :=
  t.run_asks id id fun _ _ _ => id

theorem finishStart_unpicked : (finishStart starting).run.Within (¬ ·.Picks) fun _ => True := by
  refine .andThen run_unpicked (fun running _ => ?_) fun _ _ => trivial
  have loads : (loadVm running.id).run.Within (¬ ·.Picks) fun _ => True := loadVm_within _ id
  cases starting.credentialsPending with
  | false => exact loads
  | true => exact .andThen (.demand id) (fun _ _ => loads) fun _ _ => trivial

theorem startOn_unpicked :
    (startOn ctx vm starting host).run.Within (¬ ·.Picks) fun _ => True := by
  refine .ofProgram (sendResolved_asks id id) fun resolution _ => ?_
  cases resolution with
  | unknown failure => trivial
  | failed failure => trivial
  | succeeded =>
    refine .ofProgram (Program.Within.call (r := .finalizeStart starting host) id)
      fun finalized _ => ?_
    cases finalized with
    | ok _ => exact .adapted finishStart_unpicked fun _ => trivial
    | error failure =>
      have stops : (forceStop ctx starting host).Within (¬ ·.Picks) fun _ => True :=
        (dispatch_asks id).then fun _ _ => trivial
      exact .ofProgram stops fun _ _ => trivial

end

/-- A machine is stopped after some hosts were tried. Each of them has cost it two versions. -/
structure Back (vm₀ : Vm) (tries : List HostId) (vm : Vm) : Prop where
  state : vm.state = .stopped
  version : vm.version.toNat = vm₀.version.toNat + 2 * tries.length
  lastHost : vm.lastHost = tries.getLast?.or vm₀.lastHost
  host : vm₀.Placed ∨ tries ≠ [] → vm.host = none
  same : tries = [] → vm = vm₀

/-- A machine is recorded on the host that was tried last, with so many versions to come as were not
written. -/
structure Placed (vm₀ : Vm) (tries : List HostId) (state : State) (due : Nat)
    (vm : Vm) : Prop where
  state : vm.state = state
  version : vm.version.toNat + due = vm₀.version.toNat + 2 * tries.length
  host : ∃ host, tries.getLast? = some host ∧ vm.host = some host

/-- Where a start leaves a machine, by the hosts that were tried and what was sent to them. -/
def Ended {ε : Type} (vm₀ : Vm) (tries : List HostId) (l : List Sent) (vm : Vm) :
    Except ε Vm → Prop
  | .ok _ => Placed vm₀ tries .running 0 vm
  | .error _ =>
    Undecided l ∧ Placed vm₀ tries .starting 1 vm ∨ ¬ Undecided l ∧ Back vm₀ tries vm

structure Between (id : VmId) (item : Item) (vm₀ : Vm) (limit : Nat) (tries : List HostId)
    (l : List Sent) (vm : Vm) (volumes : List Volume) (past : List Exchange)
    (s : Shared) : Prop where
  writes : Writes id item ⟨some vm, volumes⟩ l past s
  chooses : Chooses tries past
  sent : started l = tries
  few : tries.length ≤ limit

def Rounds (id : VmId) (item : Item) (vm₀ : Vm) (limit : Nat) (result : Except Ending Vm) :
    Assertion :=
  fun past s => ∃ tries l vm volumes, Ended vm₀ tries l vm result ∧
    Between id item vm₀ limit tries l vm volumes past s

variable {vm₀ current : Vm} {limit : Nat} {volumes : List Volume} {failure : Failure}

theorem Back.departs (back : Back vm₀ tries current) (state : starting.state = .starting)
    (there : starting.host = some host)
    (version : starting.version.toNat = current.version.toNat + 1) :
    Placed vm₀ (tries ++ [host]) .starting 1 starting where
  state := state
  version := by
    have before := back.version
    rw [List.length_append, List.length_singleton]
    omega
  host := ⟨host, List.getLast?_concat .., there⟩

theorem Placed.rises (placed : Placed vm₀ tries .starting 1 starting)
    (there : starting.host = some host) (risen : Risen starting host vm) :
    Placed vm₀ tries .running 0 vm where
  state := risen.state
  version := by
    have before := placed.version
    have counts := risen.version
    omega
  host := by
    obtain ⟨other, last, here⟩ := placed.host
    cases there.symm.trans here
    exact ⟨host, last, risen.host⟩

theorem Placed.falls (placed : Placed vm₀ tries .starting 1 starting)
    (stopped : vm.state = .stopped) (left : vm.host = none)
    (leaves : vm.lastHost = starting.host.or starting.lastHost)
    (version : vm.version.toNat = starting.version.toNat + 1) : Back vm₀ tries vm where
  state := stopped
  version := by
    have before := placed.version
    omega
  lastHost := by
    obtain ⟨host, last, here⟩ := placed.host
    rw [leaves, here, last]
    rfl
  host _ := left
  same none := by
    obtain ⟨host, last, -⟩ := placed.host
    rw [none] at last
    cases last

/-- The planner is asked for a host. -/
theorem alone_picks {wanted : Placement.Wanted} {excluded : Placement.Exclusions}
    (h : Between id item vm₀ limit tries l vm volumes past s)
    (bars : ∀ other, excluded.rulesOut other = true ↔ other ∈ tries) :
    Safe (alone id job) (fun result past s => Writes id item ⟨some vm, volumes⟩ l past s ∧
      match result with
        | .ok (some host) => Chooses (tries ++ [host]) past
        | _ => Chooses tries past)
      (demand (.selectHost wanted excluded) rfl : Procedure (Option HostId)).run past s := by
  refine Safe.call (P := fun past s => Writes id item ⟨some vm, volumes⟩ l past s ∧
    Chooses tries past)
    (fun _ _ _ rely inv h => ⟨stable_lies rely inv h.1, h.2⟩) (fun _ => rfl)
    ⟨h.writes, h.chooses⟩ ?_
  intro s h _
  refine ⟨trivial, ?_⟩
  rintro reply _ rfl
  refine ⟨trivial, Lies.silent (spared_letters (T := (· = l)))
    ⟨trivial, fun no => no⟩ h.1, ?_⟩
  rcases reply with failure | _ | host
  · exact h.2.append rfl
  · exact h.2.append rfl
  · refine ⟨?_, fun respects => ?_⟩
    · rw [picks, List.filterMap_append]
      exact congrArg (· ++ [host]) h.2.1
    · have free : (!excluded.rulesOut host) = true :=
        respects _ (List.mem_append_right _ (.head _))
      rw [Bool.not_eq_true', Bool.eq_false_iff, ne_eq, bars] at free
      refine List.nodup_append.2 ⟨h.2.2 respects.left, List.pairwise_singleton _ host, ?_⟩
      intro a mem b only same
      rw [List.mem_singleton.1 only] at same
      exact free (same ▸ mem)

/-- A transition that is in order is carried out, and writes the next version. -/
theorem alone_shifts {t : Transition} {next : State} {host lastHost : Option HostId}
    (subject : t.vm = v) (stored : view.vm = some vm) (expected : vm.state = t.expected)
    (pinned : t.version.getD vm.version = vm.version) (legal : t.expected.next? t.event = some next)
    (hosted : Transition.hosts vm next t.host = .ok (host, lastHost))
    (h : Writes v item view l past s) (chooses : Chooses tries past) :
    Safe (alone v job) (fun result past s => ∃ written, result = .ok written ∧
      written = t.written vm next host lastHost ∧ written.version.toNat = vm.version.toNat + 1 ∧
      Writes v item ⟨some written, view.volumes⟩ l past s ∧ Chooses tries past)
        t.run.run past s := by
  refine Safe.mono
    (Safe.unpicked (alone_advances (spared_letters (T := (· = l))) subject stored expected
      pinned legal hosted h) run_unpicked chooses) ?_
  intro result past s h
  obtain ⟨⟨written, ended, same, counts, writes⟩, chooses⟩ := h
  exact ⟨written, ended, same, counts, writes, chooses⟩

/-- A stopped machine is recorded on the next host. -/
theorem alone_takes (back : Back vm₀ tries current)
    (h : Writes id item ⟨some current, volumes⟩ l past s)
    (chooses : Chooses (tries ++ [host]) past) :
    Safe (alone id job)
      (fun result past s => ∃ starting, result = .ok starting ∧ starting.host = some host ∧
        Placed vm₀ (tries ++ [host]) .starting 1 starting ∧
        Writes id item ⟨some starting, volumes⟩ l past s ∧ Chooses (tries ++ [host]) past)
      ({ vm := id, expected := .stopped, event := .startRequested, host := some host,
         version := some current.version } : Transition).run.run past s := by
  obtain ⟨lastHost, hosted⟩ := Transition.hosts_taken current host
    (by decide : State.HoldsHost .starting)
  refine Safe.mono (alone_shifts rfl rfl back.state rfl rfl hosted h chooses) ?_
  intro result past s h
  obtain ⟨starting, ended, starts, counts, writes, chooses⟩ := h
  have there : starting.host = some host := congrArg Vm.host starts
  exact ⟨starting, ended, there, back.departs (congrArg Vm.state starts) there counts,
    writes, chooses⟩

/-- A machine that a host has not started is recorded as stopped again. -/
theorem alone_drops (placed : Placed vm₀ tries .starting 1 starting)
    (h : Writes id item ⟨some starting, volumes⟩ l past s) (chooses : Chooses tries past) :
    Safe (alone id job)
      (fun result past s => ∃ stopped, result = .ok stopped ∧ Back vm₀ tries stopped ∧
        Writes id item ⟨some stopped, volumes⟩ l past s ∧ Chooses tries past)
      ({ vm := id, expected := .starting, event := .operationFailed } : Transition).run.run
      past s := by
  refine Safe.mono
    (alone_shifts rfl rfl placed.state rfl rfl (Transition.hosts_left none (by decide)) h chooses)
    ?_
  intro result past s h
  obtain ⟨stopped, ended, stops, counts, writes, chooses⟩ := h
  exact ⟨stopped, ended, placed.falls (congrArg Vm.state stops) (congrArg Vm.host stops)
    (congrArg Vm.lastHost stops) counts, writes, chooses⟩

theorem alone_rounds (named : vm.id = id) (remaining : Nat) (excluded : Placement.Exclusions)
    (last : Option Failure) (fits : tries.length + remaining ≤ limit)
    (bars : ∀ other, excluded.rulesOut other = true ↔ other ∈ tries)
    (back : Back vm₀ tries current) (sure : ¬ Undecided l)
    (h : Between id item vm₀ limit tries l current volumes past s) :
    Safe (alone id job) (Rounds id item vm₀ limit)
      (tryStart ctx vm remaining excluded last).run past s := by
  -- What an attempt costs is counted in versions, and its host goes with the hosts that were tried.
  induction remaining generalizing excluded last tries l current past s with
  | zero => exact ⟨tries, l, current, volumes, .inr ⟨sure, back⟩, h⟩
  | succ remaining ih =>
    have rests : ∀ {past s} (ending : Ending),
      Between id item vm₀ limit tries l current volumes past s →
        Rounds id item vm₀ limit (.error ending) past s :=
      fun _ h => ⟨tries, l, current, volumes, .inr ⟨sure, back⟩, h⟩
    refine Safe.adapted (alone_picks h bars) ?_ fun failure past s picked =>
      rests _ ⟨picked.1, picked.2, h.sent, h.few⟩
    intro chosen past s picked
    obtain ⟨writes, chooses⟩ := picked
    cases chosen with
    | none => exact rests _ ⟨writes, chooses, h.sent, h.few⟩
    | some host =>
      have one : ∀ {m}, started m = [host] → started (l ++ m) = tries ++ [host] :=
        fun sent => started_append.trans (congrArg₂ (· ++ ·) h.sent sent)
      have few : (tries ++ [host]).length + remaining ≤ limit := by
        rw [List.length_append, List.length_singleton]
        omega
      simp only [named, refusing]
      refine Safe.adapted ((alone_loadVm (spared_letters (T := (· = l))) writes).unpicked
        (loadVm_within _ (fun no => no)) chooses) ?_ ?_
      · intro loaded past s h
        obtain ⟨⟨found, writes⟩, chooses⟩ := h
        cases (found loaded).1 rfl
        refine Safe.adapted (alone_takes back writes chooses) ?_ ?_
        · intro starting past s h
          obtain ⟨_, ⟨⟩, there, placed, writes, chooses⟩ := h
          refine Safe.andThen ((alone_attempts placed.state there writes).unpicked
            startOn_unpicked chooses) ?_ ?_
          · intro attempt past s h
            obtain ⟨tried, chooses⟩ := h
            cases attempt with
            | running vm =>
              obtain ⟨m, vm, sent, risen, writes⟩ := tried
              exact ⟨_, _, vm, volumes, placed.rises there risen, writes, chooses,
                one sent, by omega⟩
            | refused failure =>
              obtain ⟨m, sent, sure, writes⟩ := tried
              refine Safe.adapted (alone_drops placed writes chooses) ?_ ?_
              · intro stopped past s h
                obtain ⟨_, ⟨⟩, back, writes, chooses⟩ := h
                refine ih _ _ few ?_ back sure ⟨writes, chooses, one sent, by omega⟩
                intro other
                rw [Placement.rulesOut_insert, bars, List.mem_append,
                  List.mem_singleton, or_comm, eq_comm]
              · intro _ past s h
                obtain ⟨_, ⟨⟩, -⟩ := h
          · intro ending past s h
            obtain ⟨⟨m, sent, lost, writes⟩, chooses⟩ := h
            exact ⟨_, _, starting, volumes, .inl ⟨lost, placed⟩, writes, chooses,
              one sent, by omega⟩
        · intro _ past s h
          obtain ⟨_, ⟨⟩, -⟩ := h
      · intro _ past s h
        exact nomatch (h.1.1 current).2 rfl

theorem back_first (stopped : vm₀.state = .stopped) : Back vm₀ [] vm₀ where
  state := stopped
  version := rfl
  lastHost := rfl
  host placed := by
    have placed : vm₀.Placed := placed.resolve_right fun some => some rfl
    exact Option.not_isSome_iff_eq_none.1 fun here => absurd (stopped ▸ placed.1 here) (by decide)
  same _ := rfl

theorem requireGuru_unpicked {role : Role} :
    (requireGuru role).run.Within (¬ ·.Picks) fun _ => True := by
  refine (Program.Within.ask id).andThen (fun found _ => ?_) fun _ _ => trivial
  cases found <;> trivial

theorem alone_startBody (stored : first.vm = some vm₀) (stopped : vm₀.state = .stopped)
    (h : Writes id item first [] past s) (chooses : Chooses [] past) :
    Safe (alone id job) (Rounds id item vm₀ ctx.waits.startRetries.toNat)
      (startBody ctx id).run past s := by
  have same : first = ⟨some vm₀, first.volumes⟩ := View.ext stored rfl
  have between : ∀ {past s}, Writes id item first [] past s → Chooses [] past →
      Between id item vm₀ ctx.waits.startRetries.toNat [] [] vm₀ first.volumes past s :=
    fun writes chooses => ⟨same ▸ writes, chooses, rfl, Nat.zero_le _⟩
  have waits : ∀ {failure past s}, Writes id item first [] past s → Chooses [] past →
      Rounds id item vm₀ ctx.waits.startRetries.toNat (.error (.rejected failure)) past s :=
    fun writes chooses => ⟨[], [], vm₀, first.volumes,
      .inr ⟨not_undecided_nil, back_first stopped⟩, between writes chooses⟩
  have spared : Spared fun past => letters past = [] := spared_letters (T := (· = []))
  refine Safe.adapted ((alone_loadVm spared h).unpicked (loadVm_within _ (fun no => no)) chooses)
    ?_ ?_
  · intro vm past s h
    obtain ⟨⟨found, h⟩, chooses⟩ := h
    cases stored.symm.trans ((found vm).1 rfl)
    refine Safe.ofAdapted (fun _ _ => ?_) fun _ _ => waits h chooses
    refine Safe.adapted ((Safe.within (requireGuru_within vm₀.role) (fun _ silent => silent.1)
      (lasting_silent spared) h).unpicked requireGuru_unpicked chooses) ?_ ?_
    · intro _ past s h
      obtain ⟨⟨-, h⟩, chooses⟩ := h
      exact alone_rounds (h.1.named stored) _ ∅ none (Nat.zero_add _ ▸ Nat.le_refl _)
        (fun _ => iff_of_false Bool.false_ne_true List.not_mem_nil)
        (back_first stopped) not_undecided_nil (between h chooses)
    · intro _ past s h
      exact waits h.1.2 h.2
  · intro _ past s h
    exact waits h.1.2 h.2

def Perseveres (id : VmId) (vm₀ : Vm) (limit : Nat) (result : Except Failure Vm) : Assertion :=
  fun past s =>
  started (letters past) = picks past ∧ (picks past).length ≤ limit ∧
    (Respects past → (picks past).Nodup) ∧
    ∃ vm, s.store.vm? id = some vm ∧ Ended vm₀ (picks past) (letters past) vm result

theorem alone_tries (stored : first.vm = some vm₀) (stopped : vm₀.state = .stopped)
    (h : Waits id first past s) (chooses : Chooses [] past) :
    Safe (alone id job) (Perseveres id vm₀ ctx.waits.startRetries.toNat)
      (start ctx id).run past s := by
  have unpicked : ∀ r : Control.Request, r.Clerical → ¬ r.Picks := by
    intro r clerical picks
    cases r with
    | selectHost => exact clerical
    | _ => exact picks
  have begins : (Work.start ctx.node id .start none).run.Within (¬ ·.Picks) fun _ => True :=
    (start_within ..).mono unpicked fun _ _ => trivial
  refine Safe.andThen ((alone_begin h).unpicked begins chooses) ?_ ?_
  · intro item past s h
    obtain ⟨h, chooses⟩ := h
    have h : Writes id item first [] past s := ⟨h.1, letters_of_unsent h.2⟩
    refine Safe.ofProgram (alone_startBody stored stopped h chooses) fun ending past s rounds => ?_
    obtain ⟨tries, l, vm, volumes, ended, h⟩ := rounds
    have settles : (settle ctx item ending).run.Within (¬ ·.Picks) fun _ => True :=
      (settle_asks unpicked fun _ _ no => no).mono (fun _ no => no) fun _ _ => trivial
    refine ((alone_closes (spared_letters (T := (· = l))) h.writes).unpicked
      settles h.chooses).mono ?_
    intro result past s closed
    obtain ⟨⟨rfl, held, rfl⟩, named, distinct⟩ := closed
    obtain rfl := named
    refine ⟨h.sent, h.few, distinct, vm, congrArg View.vm held.view, ?_⟩
    cases ending <;> exact ended
  · intro failure past s h
    obtain ⟨h, chooses⟩ := h
    have h : Waits id first past s := h
    have none := letters_of_unsent h.unsent
    refine ⟨?_, ?_, ?_, vm₀, (congrArg View.vm h.view).trans stored, ?_⟩
    · rw [none, chooses.1]
      rfl
    · rw [chooses.1]
      exact Nat.zero_le _
    · rw [chooses.1]
      exact fun _ => .nil
    · rw [none, chooses.1]
      exact .inr ⟨not_undecided_nil, back_first stopped⟩

variable {s' : Shared} {result : Except Failure Vm}

/-- Whatever the planner, the guru and the hosts do, a start sends one command for each host that
the planner has named, and to that host. It leaves the machine running on the last of them, or
starting on it when nobody can tell whether it runs there, or else stopped and on no host. -/
theorem start_tries_each_host_once (stored : s.store.vm? id = some vm₀)
    (stopped : vm₀.state = .stopped)
    (run : Run (Undisturbed id) job (start ctx id).run [] s result past s') :
    started (letters past) = picks past ∧ (picks past).length ≤ ctx.waits.startRetries.toNat ∧
      (Respects past → (picks past).Nodup) ∧
      ∃ vm, s'.store.vm? id = some vm ∧ Ended vm₀ (picks past) (letters past) vm result :=
  (alone_tries stored stopped waits_first chooses_nil).run_sound run

/-- The first host that the planner names refuses the start. What comes of the second one is for
others to say. -/
def choosy (second : Except Failure Answer) : Oracle
  | .selectHost _ excluded => .ok (some (if excluded.rulesOut ⟨5⟩ then ⟨6⟩ else ⟨5⟩))
  | r =>
    Oracle.smooth ⟨0, 1⟩ ⟨5⟩
      (fun e => if e.host = ⟨5⟩ then .ok (.refusal "busy") else second) r

/-- The second host starts the machine, or nothing more is heard of it. -/
theorem second_host_is_tried_once :
    (∃ result past s' vm, Run (Undisturbed ⟨1⟩) 0 (start trial ⟨1⟩).run []
      ⟨oneAsleep, {}, []⟩ result past s' ∧ started (letters past) = [⟨5⟩, ⟨6⟩] ∧
      s'.store.vm? ⟨1⟩ = some vm ∧ vm.state = .running ∧ vm.host = some ⟨6⟩ ∧
      vm.version.toNat = 4) ∧
    ∃ result past s' vm, Run (Undisturbed ⟨1⟩) 0 (start trial ⟨1⟩).run
      [] ⟨oneAsleep, {}, []⟩ result past s' ∧ started (letters past) = [⟨5⟩, ⟨6⟩] ∧
      s'.store.vm? ⟨1⟩ = some vm ∧ vm.state = .starting ∧ vm.host = some ⟨6⟩ ∧
      vm.version.toNat = 3 ∧ Undecided (letters past) := by
  have plays : ∀ second state,
    ((solo? 0 (choosy second) (start trial ⟨1⟩).run [] ⟨oneAsleep, {}, []⟩).any
      fun ended => picks ended.2.1 = [⟨5⟩, ⟨6⟩] ∧
      (ended.2.2.store.vm? ⟨1⟩).any (·.state = state)) = true →
      ∃ result past s' vm, Run (Undisturbed ⟨1⟩) 0 (start trial ⟨1⟩).run []
        ⟨oneAsleep, {}, []⟩ result past s' ∧
        picks past = [⟨5⟩, ⟨6⟩] ∧ s'.store.vm? ⟨1⟩ = some vm ∧
        vm.state = state := by
    intro second state plays
    obtain ⟨⟨result, past, s'⟩, starts, plays⟩ := (Option.any_eq_true ..).1 plays
    obtain ⟨named, there⟩ := of_decide_eq_true plays
    obtain ⟨vm, stored, there⟩ := (Option.any_eq_true ..).1 there
    exact ⟨result, past, s', vm, run_of_solo? (Undisturbed.refl _) starts, named, stored,
      of_decide_eq_true there⟩
  have asleep : oneAsleep.vm? ⟨1⟩ =
    some (.register ⟨1⟩ "i-1" "asleep" ⟨1⟩ ⟨1⟩) := rfl
  constructor
  · obtain ⟨result, past, s', vm, run, named, found, runs⟩ :=
      plays (.ok (.success [])) .running (by decide +kernel)
    obtain ⟨sent, -, -, w, stored, ended⟩ :=
      start_tries_each_host_once (s := ⟨oneAsleep, {}, []⟩) asleep rfl run
    cases found.symm.trans stored
    rw [named] at sent ended
    cases result with
    | ok _ =>
      obtain ⟨host, last, here⟩ := ended.host
      cases last
      exact ⟨_, past, s', vm, run, sent, stored, runs, here, ended.version⟩
    | error failure =>
      rcases ended with ⟨-, placed⟩ | ⟨-, back⟩
      · exact nomatch runs.symm.trans placed.state
      · exact nomatch runs.symm.trans back.state
  · obtain ⟨result, past, s', vm, run, named, found, starting⟩ :=
      plays (.error (.agentUnavailable ⟨6⟩ (.noSession "start"))) .starting (by decide +kernel)
    obtain ⟨sent, -, -, w, stored, ended⟩ :=
      start_tries_each_host_once (s := ⟨oneAsleep, {}, []⟩) asleep rfl run
    cases found.symm.trans stored
    rw [named] at sent ended
    cases result with
    | ok _ => exact nomatch starting.symm.trans ended.state
    | error failure =>
      rcases ended with ⟨lost, placed⟩ | ⟨-, back⟩
      · obtain ⟨host, last, here⟩ := placed.host
        cases last
        exact ⟨_, past, s', vm, run, sent, stored, starting, here,
          Nat.succ.inj placed.version, lost⟩
      · exact nomatch starting.symm.trans back.state

end Concurrent
end ControlPlane
