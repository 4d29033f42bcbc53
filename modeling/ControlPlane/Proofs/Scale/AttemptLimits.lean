import ControlPlane.Proofs.Operation.CommandLetters
import ControlPlane.Proofs.Scale.Charges

/-!
# How far a scale-up comes

Every attempt starts from the host to which earlier attempts have carried the machine. Whatever they
come to, the machine stays recorded where it is known to be, with what it had, until a host has
acknowledged that it has given the machine more.
-/

namespace ControlPlane.Concurrent
open Work Control Operation Procedure Placement Agent

structure Seated (vm₀ : Vm) (moved : Bool) (l : List Sent) (vm : Vm) : Prop where
  state : vm.state = .running
  keeps : vm.resources = vm₀.resources
  token : vm.token = vm₀.token
  host : vm.host = vm₀.host ∨ moved = true ∧ ∃ host, vm.host = some host ∧
    Carried vm₀.token host l

/-- The machine runs with what it was to have, and the last that was sent is the command to its host
to give it that, which the host has acknowledged. -/
structure Raised (resources : Resources) (l : List Sent) (vm : Vm) : Prop where
  state : vm.state = .running
  has : vm.resources = resources
  told : ∃ host before wait answer, vm.host = some host ∧ Acknowledged answer ∧
    l = before ++ [(.ofBody host .scale ⟨vm.token, resources⟩ wait, answer)]
  placed : ¬ Unplaced l

def Sits (vm₀ : Vm) : Phase → List Sent → Vm → Prop
  | .roams moved, l, vm => Seated vm₀ moved l vm ∧ ¬ Unplaced l
  | .lost failure, l, vm => Seated vm₀ true l vm ∧ failure.NeedsReconciliation

def Rides (v : VmId) (item : Item) (K : List Sent → Vm → Prop) : Assertion := fun past s =>
  ∃ vm volumes l, K l vm ∧ Writes v item ⟨some vm, volumes⟩ l past s

variable {v id : VmId} {job : Nat} {s s' : Shared} {past past' : List Exchange} {item : Item}
  {first view : View} {α : Type} {ctx : Context} {resources : Resources} {vm₀ vm : Vm}
  {l m : List Sent} {K L : List Sent → Vm → Prop} {moved : Bool} {volumes : List Volume}
  {target : Target} {failure : Failure}

theorem Seated.append (h : Seated vm₀ moved l vm) : Seated vm₀ moved (l ++ m) vm where
  state := h.state
  keeps := h.keeps
  token := h.token
  host := h.host.imp_right fun ⟨away, host, here, carried⟩ =>
    ⟨away, host, here, carried.append⟩

theorem Seated.loosen (h : Seated vm₀ moved l vm) : Seated vm₀ true l vm where
  state := h.state
  keeps := h.keeps
  token := h.token
  host := h.host.imp_right fun ⟨_, away⟩ => ⟨rfl, away⟩

theorem Rides.mono (h : Rides v item K past s) (le : ∀ l vm, K l vm → L l vm) :
    Rides v item L past s := by
  obtain ⟨vm, volumes, l, known, h⟩ := h
  exact ⟨vm, volumes, l, le l vm known, h⟩

theorem lasting_rides : Lasting (alone v job) Request.Silent (Rides v item K) where
  stable := by
    intro past s s' rely inv h
    obtain ⟨vm, volumes, l, known, h⟩ := h
    exact ⟨vm, volumes, l, known, stable_lies rely inv h⟩
  fit _ _ _ := trivial
  keeps := by
    intro r reply past s silent h
    obtain ⟨vm, volumes, l, known, h⟩ := h
    exact ⟨vm, volumes, l, known, Lies.silent (spared_letters (T := (· = l))) silent h⟩

theorem Rides.within {P : α → Prop} {q : Program surroundings α}
    (within : q.Within Request.Silent P) (h : Rides v item K past s) :
    Safe (alone v job) (fun _ => Rides v item K) q past s :=
  (Safe.within within (fun _ silent => silent.1) lasting_rides h).mono fun _ _ _ h => h.2

theorem Rides.account {t : Transaction} (names : t.names? = none) (closes : t.closes? = none)
    (same : ∀ store : Store, (t.apply store).2.view v = store.view v)
    (h : Rides v item K past s) :
    Safe (alone v job)
      (fun result past s => (∃ reply, result = .ok reply) ∧ Rides v item K past s)
      (Procedure.transact t).run past s := by
  obtain ⟨vm, volumes, l, known, h⟩ := h
  refine Safe.then (alone_write (Q := fun _ view' => view' = ⟨some vm, volumes⟩)
    (spared_letters (T := (· = l))) names closes (fun store here => (same store).trans here) h) ?_
  intro reply past s h
  obtain ⟨_, rfl, h⟩ := h
  exact ⟨⟨reply, rfl⟩, vm, volumes, l, known, h⟩

/-- Where a failed attempt leaves the machine, if it is known how the attempt has ended. -/
theorem Rides.after
    (h : Rides v item (Sits vm₀ (.roams (moved || (Call.attempt target).moves))) past s) :
    Rides v item (Sits vm₀ (.after moved target failure)) past s := by
  unfold Phase.after
  split
  next unknown => exact h.mono fun _ _ known => ⟨known.1.loosen, unknown⟩
  next => exact h

theorem Rides.lose (unknown : failure.NeedsReconciliation)
    (h : Rides v item (fun l vm => Seated vm₀ true l vm) past s) :
    Rides v item (Sits vm₀ (.after moved target failure)) past s := by
  rw [Phase.after, if_pos unknown]
  exact h.mono fun _ _ known => ⟨known, unknown⟩

def Lands (v : VmId) (item : Item) (vm₀ : Vm) (moved : Bool) (host : HostId) (asked : Vm) :
    Assertion :=
  Rides v item fun l vm => Sits vm₀ (.roams moved) l vm ∧ vm.host = some host ∧
    asked.token = vm₀.token

theorem alone_transfer {p : Plan} (movable : Movable p vm)
    (h : Writes v item ⟨some vm, volumes⟩ l past s) :
    Safe (alone v job) (fun result past s => ∃ m, match result with
        | .ok w => w.state = .running ∧ w.host = some p.destination ∧
            w.resources = vm.resources ∧ w.token = vm.token ∧
            Carried vm.token p.destination m ∧ ¬ Unplaced m ∧
            ∃ volumes, Writes v item ⟨some w, volumes⟩ (l ++ m) past s
        | .error (.rejected _) => False
        | .error (.failed _) => ¬ Unplaced m ∧
        Writes v item ⟨some vm, volumes⟩ (l ++ m) past s
        | .error (.unresolved _) => Writes v item ⟨some vm, volumes⟩ (l ++ m) past s)
      (Migration.compute ctx vm p).run past s := by
  refine Safe.ofProgram (alone_sendAway h) fun landing past s h => ?_
  obtain ⟨m, traced, h⟩ := h
  cases landing with
  | moved =>
    refine Safe.adapt ((alone_record movable (spared_letters (T := (· = l ++ m))) rfl h).mono ?_)
    intro result past s ends
    cases result with
    | ok w =>
      obtain ⟨running, there, keeps, marked, volumes, h⟩ := ends
      exact ⟨m, running, there, keeps, marked, traced.carried, traced.placed nofun, volumes, h⟩
    | error failure => exact ⟨m, ends⟩
  | notMoved failure => exact ⟨m, traced.placed nofun, h⟩
  | unknown failure => exact ⟨m, h⟩

theorem alone_ride {destination : HostId} (known : Sits vm₀ (.roams moved) l vm)
    (h : Writes v item ⟨some vm, volumes⟩ l past s) :
    Safe (alone v job) (fun result past s => match result with
        | .ok asked => Lands v item vm₀ true destination asked past s
        | .error failure => Rides v item
          (Sits vm₀ (.after moved (.migrate destination) failure)) past s)
      (moveForScale ctx item vm destination).run past s := by
  have named := h.1.named rfl
  obtain ⟨seated, placed⟩ := known
  have stays : ∀ {m failure past s}, ¬ Unplaced m →
    Writes v item ⟨some vm, volumes⟩ (l ++ m) past s →
      Rides v item (Sits vm₀ (.after moved (.migrate destination) failure)) past s := by
    intro m failure past s known h
    refine Rides.after ⟨vm, volumes, l ++ m,
      ⟨?_, fun lost => lost.of_append.elim placed known⟩, h⟩
    exact (Bool.or_true moved).symm ▸ seated.append.loosen
  have waits : ∀ {failure past s}, Writes v item ⟨some vm, volumes⟩ l past s →
      Rides v item (Sits vm₀ (.after moved (.migrate destination) failure)) past s :=
    fun h => stays (m := []) id ((List.append_nil l).symm ▸ h)
  refine Safe.ofExcept (fun source _ => ?_) fun _ _ => waits h
  refine Safe.andThen (safe_plan (lasting_silent (spared_letters (T := (· = l)))) h) ?_
    fun _ _ _ h => waits h.1
  intro p past s h
  obtain ⟨h, planned⟩ := h
  obtain ⟨subject, -, rfl⟩ := planned p rfl
  refine Safe.andThen (alone_check (subject.trans named) (spared_letters (T := (· = l))) h) ?_
    fun _ _ _ h => waits h.1
  intro checked past s h
  obtain ⟨moving, targets⟩ := checked
  obtain ⟨h, checked⟩ := h
  obtain ⟨⟨⟩, movable⟩ := checked _ rfl
  refine Safe.andThen (alone_recordPlan (spared_letters (T := (· = l))) h) ?_ ?_
  · intro _ past s h
    refine Safe.ofProgram (alone_transfer movable h.2) ?_
    intro result past s ends
    obtain ⟨m, ends⟩ := ends
    rcases result with (failure | failure | failure) | w
    · exact ends.elim
    · exact stays ends.1 ends.2
    -- Nobody knows where the machine is, but it is recorded where it was.
    · exact Rides.lose trivial ⟨_, volumes, l ++ m, seated.append.loosen, ends⟩
    · obtain ⟨running, there, keeps, marked, carried, known, volumes, h⟩ := ends
      refine ⟨w, volumes, l ++ m, ⟨⟨?_, fun lost => lost.of_append.elim placed known⟩,
        there, seated.token⟩, h⟩
      exact {
        state := running
        keeps := keeps.trans seated.keeps
        token := marked.trans seated.token
        host := .inr ⟨rfl, _, there, seated.token ▸ carried.prepend⟩ }
  · intro _ past s h
    obtain ⟨⟨⟩, -⟩ := h

theorem alone_raise (resources : Resources)
    (home : ∀ host, target = .inPlace host → moved = false ∧ vm₀.host = some host)
    (h : Rides id item (Sits vm₀ (.roams moved)) past s) :
    Safe (alone id job)
      (Attempted (fun phase _ => Rides id item (Sits vm₀ phase))
        (Rides id item (Raised resources)) moved target)
      (scaleOn ctx item id resources target).run past s := by
  obtain ⟨vm, volumes, l, known, h⟩ := h
  refine Safe.andThen (alone_loadVm (spared_letters (T := (· = l))) h) ?_
    fun _ _ _ h => nomatch (h.1 vm).2 rfl
  intro loaded past s h
  obtain ⟨found, h⟩ := h
  have same : some vm = some loaded := (found loaded).1 rfl
  cases same
  refine Safe.andThen (Q := fun result past s => match result with
    | .ok asked => Lands id item vm₀ (moved || (Call.attempt target).moves)
      target.host asked past s
    | .error failure => Rides id item (Sits vm₀ (.after moved target failure)) past s) ?_ ?_
    fun _ _ _ h => h
  · cases target with
    | inPlace host =>
      obtain ⟨rfl, there⟩ := home host rfl
      -- Nothing is attempted in place after a move, so the machine is where it was at first.
      have stays : vm.host = vm₀.host := known.1.host.resolve_right fun away => nomatch away.1
      exact ⟨vm, volumes, l, ⟨known, stays.trans there, known.1.token⟩, h⟩
    | migrate destination =>
      rw [show (moved || (Call.attempt (.migrate destination)).moves) =
        true from Bool.or_true moved]
      exact alone_ride known h
  intro asked past s h
  obtain ⟨vm, volumes, l, ⟨⟨seated, placed⟩, there, marked⟩, h⟩ := h
  have token : asked.token = vm.token := marked.trans seated.token.symm
  refine Safe.andThen (Q := fun result past s => ∃ answer,
    result = Kind.scale.interpret target.host answer ∧
    Writes id item ⟨some vm, volumes⟩
      (l ++ [(.ofBody target.host .scale ⟨asked.token, resources⟩
        ctx.waits.scaleWait, answer)]) past s)
    (Safe.then (alone_send h) fun answer _ _ h => ⟨answer, rfl, h⟩) ?_ ?_
  · intro _ past s h
    obtain ⟨answer, read, h⟩ := h
    refine (alone_enlarge resources (spared_letters (T := (· = _))) h).mono
      fun result past s h => ?_
    obtain ⟨rfl, h⟩ := h
    refine ⟨{ vm with resources := resources }, volumes, _, ?_, h⟩
    exact {
      state := seated.state
      has := rfl
      told := ⟨_, l, _, answer, there, acknowledged_of_interpret read.symm, by rw [token]⟩
      placed := fun lost => lost.of_append.elim placed (not_unplaced_of_other (by decide)) }
  · intro failure past s h
    obtain ⟨answer, -, h⟩ := h
    refine Rides.after ⟨vm, volumes, _, ⟨seated.append, ?_⟩, h⟩
    exact fun lost => lost.of_append.elim placed (not_unplaced_of_other (by decide))

theorem alone_serves {growth : Growth} (subject : growth.vm = id)
    (current : growth.current = vm₀.host) :
    Serves (alone id job) (answerCall ctx item resources growth) growth.current
      (fun phase _ => Rides id item (Sits vm₀ phase)) (Rides id item (Raised resources)) := by
  subst subject
  have written : ∀ {result : Except Failure Unit}, (∃ reply, result = .ok reply) →
    result = .ok () :=
    fun ⟨_, e⟩ => e
  constructor
  · intro phase past s h
    exact (h.account rfl rfl fun _ => rfl).mono fun _ _ _ h => ⟨written h.1, h.2⟩
  · intro phase past s h
    exact (h.account rfl rfl fun _ => rfl).mono fun _ _ _ h => ⟨written h.1, h.2⟩
  · intro host phase past s h
    exact h.within (.call (r := .hasRoom host growth.delta) ⟨trivial, fun no => no⟩)
  · intro excluded phase past s h
    exact h.within (.call (r := .selectHost growth.wanted excluded) ⟨trivial, fun no => no⟩)
  · intro target moved past s home h
    exact alone_raise resources (current ▸ home) h

def Remains (first : View) (l : List Sent) (view : View) : Prop :=
  ∀ vm₀, first.vm = some vm₀ → vm₀.state = .running → ∃ vm, view.vm = some vm ∧
    Seated vm₀ true l vm

/-- What the body of a scale-up comes to. If a migration has gone astray, the item is left open. -/
def Yields (first : View) (resources : Resources) (l : List Sent) (view : View) :
    Except Ending Vm → Prop
  | .ok _ => ∃ vm, view.vm = some vm ∧ Raised resources l vm
  | .error ending => Remains first l view ∧
      (Unplaced l → lastStep (.error ending : Except Ending Vm) = .started ∧
        ending.failure.NeedsReconciliation)

theorem remains_first : Remains first [] first := by
  intro vm₀ stored running
  exact ⟨vm₀, stored, running, rfl, rfl, .inl rfl⟩

theorem yields_of_sits {phase : Phase} (stored : first.vm = some vm₀)
    (admits : phase.Admits failure) (h : Sits vm₀ phase l vm) :
    Yields first resources l ⟨some vm, volumes⟩ (.error (ofPlacement failure)) := by
  have seated : Seated vm₀ true l vm := by
    cases phase with
    | roams moved => exact h.1.loosen
    | lost failure => exact h.1
  refine ⟨?_, fun lost => ?_⟩
  · intro vm₁ stored' _
    rw [stored] at stored'
    cases stored'
    exact ⟨vm, rfl, seated⟩
  · have unknown : failure.NeedsReconciliation := by
      cases phase with
      | roams moved => exact absurd lost h.2
      | lost unclear => exact admits ▸ h.2
    rw [ofPlacement, if_pos unknown]
    exact ⟨rfl, unknown⟩

theorem alone_grow (h : Stands id item first Unsent past s) :
    Safe (alone id job) (fun ending past s => ∃ view l, Yields first resources l view ending ∧
      Writes id item view l past s) (scaleBody ctx id resources item).run past s := by
  have h : Writes id item first [] past s := ⟨h.1, letters_of_unsent h.2⟩
  have waits : ∀ {failure past s}, Writes id item first [] past s → ∃ view l,
      Yields first resources l view (.error (.rejected failure)) ∧ Writes id item view l past s :=
    fun h => ⟨first, [], ⟨remains_first, fun lost => lost.elim⟩, h⟩
  refine alone_load (spared_letters (T := (· = []))) h ?_ fun _ _ _ h => waits h
  intro vm₀ past s stored h
  refine Safe.ofAdapted (fun _ stated => ?_) fun _ _ => waits h
  have running : vm₀.state = .running := List.mem_singleton.1 (mem_of_requireState stated)
  refine Safe.ofAdapted (fun growth grows => ?_) fun _ _ => waits h
  have same : first = ⟨some vm₀, first.volumes⟩ := View.ext stored rfl
  have sits : Rides id item (Sits vm₀ (.roams false)) past s :=
    ⟨vm₀, first.volumes, [], ⟨⟨running, rfl, rfl, .inl rfl⟩, fun lost => lost.elim⟩,
      same ▸ h⟩
  have serves : Serves (alone id job) (answerCall ctx item resources growth) growth.current _ _ :=
    alone_serves ((vm_of_growthOf grows).trans (h.1.named stored)) (current_of_growthOf grows)
  refine Safe.ofProgram (Safe.retry serves ctx.maxRetries.toNat sits) fun result past s ends => ?_
  cases result with
  | ok outcome =>
    obtain ⟨vm, volumes, l, raised, h⟩ := ends
    exact ⟨_, l, ⟨vm, rfl, raised⟩, h⟩
  | error failure =>
    obtain ⟨phase, admits, vm, volumes, l, sits, h⟩ := ends
    exact ⟨_, l, yields_of_sits stored admits sits, h⟩

def Comes (id : VmId) (first : View) (resources : Resources) : Except Failure Vm → Assertion
  | .ok _ => fun past s => ∃ vm, s.store.vm? id = some vm ∧ Raised resources (letters past) vm
  | .error failure => fun past s => Remains first (letters past) (s.store.view id) ∧
      (Unplaced (letters past) → failure.NeedsReconciliation ∧
        ∀ item, Began item past → Started item.id s.store)

theorem alone_comes (h : Waits id first past s) :
    Safe (alone id job) (Comes id first resources) (scale ctx id resources).run past s := by
  refine Safe.andThen (alone_begin h) ?_ ?_
  · intro item past s h
    refine Safe.ofProgram (alone_grow h) fun ending past s ends => ?_
    obtain ⟨view, l, yields, h⟩ := ends
    refine (alone_closes (spared_letters (T := (· = l))) h).mono fun result past s h => ?_
    obtain ⟨rfl, held, rfl⟩ := h
    have seen : s.store.view id = view := held.view
    cases ending with
    | ok _ =>
      obtain ⟨vm, stored, raised⟩ := yields
      exact ⟨vm, (congrArg View.vm seen).trans stored, raised⟩
    | error ending =>
      refine ⟨seen.symm ▸ yields.1, fun lost => ?_⟩
      obtain ⟨left, unknown⟩ := yields.2 lost
      refine ⟨unknown, fun other began => ?_⟩
      obtain rfl := held.began began
      obtain ⟨x, filed, -, step⟩ := held.filed
      exact ⟨x, filed, step.trans left⟩
  · intro failure past s h
    have h : Waits id first past s := h
    have none := letters_of_unsent h.unsent
    exact ⟨none.symm ▸ h.view.symm ▸ remains_first, fun lost => (none ▸ lost).elim⟩

abbrev Log (α : Type) := List (Σ call : Placement.Call, (calls α).Reply call)

/-- When nobody knows how an attempt has ended, the loop ends as soon as the charge has been taken
back: with that failure, or with the one for which the charge cannot be taken back. While accounts
can be written, a scale-up of which a migration has gone astray leaves its item to the recovery
scan. -/
theorem unclear_attempt_is_the_last (α : Type) (growth : Growth) (limit : Nat) (ctx : Context)
    (id : VmId) (resources : Resources) :
    (∀ (log : Log α) (result : Except Failure (Outcome α)) (target : Target)
      (failure : Failure), (retry α growth limit).Comes log result →
      ⟨.attempt target, .error failure⟩ ∈ log → failure.NeedsReconciliation →
        ∃ (before : Log α) (reply : Except Failure Unit), log = before ++
          [⟨.attempt target, .error failure⟩, ⟨.decrement, reply⟩] ∧
          result = reply.bind fun _ => .error failure) ∧
    ∀ (job : Nat) (s s' : Shared) (result : Except Failure Vm) (past : List Exchange),
      Run (Undisturbed id) job (scale ctx id resources).run [] s result past s' →
      Unplaced (letters past) → ∃ failure, result = .error failure ∧
        failure.NeedsReconciliation ∧ ∀ item, Began item past → Started item.id s'.store := by
  constructor
  · intro log result target failure comes attempted unknown
    exact reverted_of_comes (strands_retry growth limit) comes attempted unknown
  · intro job s s' result past run lost
    have comes : Comes id _ resources _ _ _ := (alone_comes waits_first).run_sound run
    cases result with
    | ok w =>
      obtain ⟨vm, -, raised⟩ := comes
      exact absurd lost raised.placed
    | error failure => exact ⟨failure, rfl, comes.2 lost⟩

def housed : Store := { tenant ⟨4, 4096⟩ with hosts := onFirst.hosts }

/-- There is room on the second host only, and the planner names it. -/
def cramped (answer : Envelope → Except Failure Answer) : Oracle
  | .hasRoom host _ => .ok (host = ⟨6⟩)
  | r => Oracle.smooth ⟨0, 1⟩ ⟨6⟩ answer r

def stretch :
    Growth :=
  ⟨⟨1⟩, ⟨1⟩, some ⟨5⟩, ⟨⟨1⟩, none, none, "kvm", none⟩, ⟨2, 1024⟩⟩

/-- The end of the one attempt is unclear, and the charge for it cannot be taken back; and when no
host answers, nobody knows where the machine is. -/
theorem lost_attempts_are_the_last :
    (∃ (log : Log Vm) (refused lost : Failure),
      (retry Vm stretch 2).Comes log (.error refused) ∧ refused ≠ lost ∧
        lost.NeedsReconciliation ∧ ∃ (before : Log Vm) (reply : Except Failure Unit),
        log = before ++
          [⟨.attempt (.inPlace ⟨5⟩), .error lost⟩, ⟨.decrement, reply⟩] ∧
          (.error refused : Except Failure (Outcome Vm)) = reply.bind fun _ => .error lost) ∧
    ∃ result past s', Run (Undisturbed ⟨1⟩) 0 (scale trial ⟨1⟩ ⟨4, 3072⟩).run
      [] ⟨housed, {}, []⟩ result past s' ∧ ∃ failure, result = .error failure ∧
        failure.NeedsReconciliation ∧ ∀ item, Began item past → Started item.id s'.store := by
  obtain ⟨reverts, leaves⟩ := unclear_attempt_is_the_last Vm stretch 2 trial
    ⟨1⟩ ⟨4, 3072⟩
  constructor
  · let lost : Failure := .unreconciled ⟨1⟩ "outcome unknown"
    let refused : Failure := .fault (.other "refused")
    have comes : (retry Vm stretch 2).Comes
      [⟨.increment, .ok ()⟩, ⟨.hasRoom ⟨5⟩, .ok true⟩,
        ⟨.attempt (.inPlace ⟨5⟩), .error lost⟩, ⟨.decrement, .error refused⟩]
        (.error refused) :=
      .ask (.ask (.ask (.ask (.done _))))
    exact ⟨_, refused, lost, comes, nofun, trivial,
      reverts _ _ _ lost comes (.tail _ (.tail _ (.head _))) trivial⟩
  · have ends : ((solo? 0 (cramped fun e => .error (.agentUnavailable e.host (.noSession e.kind)))
        (scale trial ⟨1⟩ ⟨4, 3072⟩).run [] ⟨housed, {}, []⟩).any fun ended =>
          decide (Unplaced (letters ended.2.1))) = true := by
      decide +kernel
    obtain ⟨⟨result, past, s'⟩, scales, lost⟩ := (Option.any_eq_true ..).1 ends
    have run := run_of_solo? (Undisturbed.refl ⟨1⟩) scales
    exact ⟨result, past, s', run, leaves _ _ _ _ _ run (of_decide_eq_true lost)⟩

def Untroubled (v : VmId) (account : AccountId) (s s' : Shared) : Prop :=
  Undisturbed v s s' ∧ s'.store.usageOf account = s.store.usageOf account

theorem Untroubled.unbilled {account : AccountId} (h : Untroubled v account s s') :
    Unbilled v account s s' := by
  refine ⟨?_, h.2⟩
  have same : s'.store.vm? v = s.store.vm? v := congrArg View.vm h.1.view
  simp only [Store.holding, same]

/-- A scale-up either gives the machine what was asked for, as its host has acknowledged at last,
and charges the account for it; or the machine keeps what it had, where it was or where it was
carried to, and so does the account. -/
theorem scale_is_all_or_nothing {result : Except Failure Vm} (stored : s.store.vm? id = some vm₀)
    (running : vm₀.state = .running)
    (room : ∀ part, (s.store.usageOf vm₀.account).amount part +
      (resources.sub vm₀.resources).amount part < part.limit)
    (run : Run (Untroubled id vm₀.account) job (scale ctx id resources).run [] s result past s') :
    ∃ vm, s'.store.vm? id = some vm ∧ vm.state = .running ∧
      if result.isOk then
        vm.resources = resources ∧
        (∀ part, (s'.store.usageOf vm₀.account).amount part + vm₀.resources.amount part =
          (s.store.usageOf vm₀.account).amount part + resources.amount part) ∧
        ∃ host wait answer, vm.host = some host ∧ Acknowledged answer ∧
          (commands past).getLast? =
            some (.ofBody host .scale ⟨vm.token, resources⟩ wait, answer)
      else
        vm.resources = vm₀.resources ∧
        s'.store.usageOf vm₀.account = s.store.usageOf vm₀.account ∧
        (vm.host = vm₀.host ∨ ∃ host, vm.host = some host ∧
          Carried vm₀.token host (letters past)) := by
  have comes : Comes id _ resources _ _ _ :=
    (alone_comes waits_first).run_sound (run.mono fun _ _ rely => rely.1)
  cases Store.id_of_vm? stored
  obtain ⟨stands, larger⟩ := (Bill.bills_scale (Bill.at_first stored)).sound (fun _ => trivial)
    (run.mono fun _ _ rely => rely.unbilled)
  have used := Owes.exact room stands.usage
  cases result with
  | ok w =>
    obtain ⟨vm, found, raised⟩ := comes
    obtain ⟨host, before, wait, answer, here, done, told⟩ := raised.told
    refine ⟨vm, found, raised.state, raised.has, fun part => ?_, host, wait,
      answer, here, done, ?_⟩
    · have larger : vm₀.resources.amount part ≤ resources.amount part := larger rfl part
      have used : s'.store.usageOf vm₀.account =
          (s.store.usageOf vm₀.account).add (resources.sub vm₀.resources) := used
      rw [used, Resources.amount_add (room part), Resources.amount_sub]
      omega
    · rw [commands_eq, told, List.filter_append]
      exact List.getLast?_concat ..
  | error failure =>
    obtain ⟨vm, found, seated⟩ := comes.1 vm₀ stored running
    exact ⟨vm, found, seated.state, seated.keeps, used, seated.host.imp_right And.right⟩

def grudging : Oracle := cramped fun e =>
  if e.kind = Enumeration.name Kind.scale then .ok (.refusal "") else .ok (.success [])

/-- The machine is carried to the second host, which gives it more, or refuses to. -/
theorem carried_scale_is_all_or_nothing :
    (∃ result past s' vm,
      Run (Untroubled ⟨1⟩ ⟨1⟩) 0 (scale trial ⟨1⟩ ⟨4, 3072⟩).run []
        ⟨housed, {}, []⟩ result past s' ∧
      s'.store.vm? ⟨1⟩ = some vm ∧ vm.host = some ⟨6⟩ ∧ vm.resources = ⟨4, 3072⟩ ∧
      ∃ wait answer, Acknowledged answer ∧
        (commands past).getLast? =
          some (.ofBody ⟨6⟩ .scale ⟨vm.token, ⟨4, 3072⟩⟩ wait, answer)) ∧
    ∃ result past s' vm,
      Run (Untroubled ⟨1⟩ ⟨1⟩) 0 (scale trial ⟨1⟩ ⟨4, 3072⟩).run
        [] ⟨housed, {}, []⟩ result past s' ∧
      s'.store.vm? ⟨1⟩ = some vm ∧ vm.host = some ⟨6⟩ ∧ vm.resources = ⟨2, 2048⟩ ∧
      s'.store.usageOf ⟨1⟩ = ⟨4, 4096⟩ ∧ Carried "i-1" ⟨6⟩ (letters past) := by
  have runs : housed.vm? ⟨1⟩ = some scalable := rfl
  have room : ∀ part, (housed.usageOf ⟨1⟩).amount part +
      ((⟨4, 3072⟩ : Resources).sub scalable.resources).amount part < part.limit := by
    intro part
    cases part <;> decide
  have same : ∀ s : Shared, Untroubled ⟨1⟩ ⟨1⟩ s s := fun s => ⟨.refl _ s, rfl⟩
  have ends : ∀ oracle isOk,
    ((solo? 0 oracle (scale trial ⟨1⟩ ⟨4, 3072⟩).run [] ⟨housed, {}, []⟩).any
      fun ended => ended.1.isOk == isOk && (ended.2.2.store.vm? ⟨1⟩).any
        (·.host = some ⟨6⟩)) = true →
      ∃ result past s' vm,
        Run (Untroubled ⟨1⟩ ⟨1⟩) 0 (scale trial ⟨1⟩ ⟨4, 3072⟩).run []
          ⟨housed, {}, []⟩ result past s' ∧
        result.isOk = isOk ∧ s'.store.vm? ⟨1⟩ = some vm ∧ vm.host = some ⟨6⟩ := by
    intro oracle isOk ends
    obtain ⟨⟨result, past, s'⟩, scales, ends⟩ := (Option.any_eq_true ..).1 ends
    obtain ⟨ended, there⟩ := Bool.and_eq_true_iff.1 ends
    obtain ⟨vm, stored, there⟩ := (Option.any_eq_true ..).1 there
    exact ⟨result, past, s', vm, run_of_solo? same scales, beq_iff_eq.1 ended, stored,
      of_decide_eq_true there⟩
  constructor
  · obtain ⟨result, past, s', vm, run, ended, stored, there⟩ :=
      ends (cramped fun _ => .ok (.success [])) true (by decide +kernel)
    obtain ⟨w, found, -, tells⟩ :=
      scale_is_all_or_nothing (s := ⟨housed, {}, []⟩) runs rfl room run
    cases stored.symm.trans found
    rw [if_pos ended] at tells
    obtain ⟨has, -, host, wait, answer, here, done, last⟩ := tells
    cases there.symm.trans here
    exact ⟨result, past, s', vm, run, stored, there, has, wait, answer, done, last⟩
  · obtain ⟨result, past, s', vm, run, ended, stored, there⟩ :=
      ends grudging false (by decide +kernel)
    obtain ⟨w, found, -, tells⟩ :=
      scale_is_all_or_nothing (s := ⟨housed, {}, []⟩) runs rfl room run
    cases stored.symm.trans found
    rw [if_neg (ended ▸ Bool.false_ne_true)] at tells
    obtain ⟨has, used, host⟩ := tells
    refine ⟨result, past, s', vm, run, stored, there, has, used, ?_⟩
    rcases host with stays | ⟨host, here, carried⟩
    · exact absurd (there.symm.trans stays) (by decide)
    · cases there.symm.trans here
      exact carried

end ControlPlane.Concurrent
