import ControlPlane.Proofs.Concurrent.IsolatedMachine
import ControlPlane.Proofs.Recovery.Settlement
import ControlPlane.Proofs.Work.LockHandover

/-!
# One recovery scan among others

Recovery scans of one node may run side by side. Each of them works on a machine only under its
lock, and leaves it settled and its item closed. So a scan finds a machine as it was at first, or
settled.
-/

namespace ControlPlane.Concurrent
open Work Control Procedure Recovery Operation

/-- What the scans of a node find: the store as it is at first, and which hosts have a machine
on. -/
structure Scene where
  store : Store
  node : NodeId
  on : HostId → String → Bool
  /-- There is only one scan. -/
  alone : Prop

namespace Scene
variable (F : Scene)

structure Left (x : Item) : Prop where
  filed : F.store.item? x.id = some x
  owner : x.owner = F.node
  isOpen : x.Open

def result (x : Item) (vm : Vm) : Vm := restored (F.on · vm.token) x vm

def step (x : Item) : Work.Step := if (F.store.vm? x.vm).isSome then .done else .error

def Closed (x : Item) (s : Store) : Prop :=
  ∃ now, s.item? x.id = some { x with step := F.step x, updated := now }

/-- What is true of the store before any scan: an open item is the one that the index names, hosts
are recorded while they are occupied, no version is the last one, and plans are of pools and volumes
that are there. No machine migrates and is recorded where it goes; and no machine starts or stops
apart from the hosts of its plan, if there is more than one scan. -/
structure Ready : Prop where
  indexed : ∀ v, Indexed v F.store
  placed : ∀ {v vm}, F.store.vm? v = some vm → vm.Placed
  bounded : ∀ {v vm}, F.store.vm? v = some vm → vm.version.toNat + 1 < UInt64.size
  backed : ∀ {x plan}, F.Left x → x.plan = some plan → ∀ r ∈ plan.volumes.rows,
    (F.store.pool? r.pool).isSome ∧ (F.store.volume? r.volume).isSome
  behind : ∀ {x vm}, F.Left x → F.store.vm? x.vm = some vm → Behind (F.on · vm.token) x vm
  homed : ∀ {x vm}, ¬ F.alone → F.Left x → F.store.vm? x.vm = some vm →
    Homed (F.on · vm.token) x vm

/-- What scans may have made of the store. -/
structure Brings (s : Store) : Prop where
  pools : s.pools = F.store.pools
  volumes : ∀ id, (s.volume? id).isSome = (F.store.volume? id).isSome
  vms : ∀ v, s.vm? v = F.store.vm? v ∨ ∃ x vm, F.Left x ∧ x.vm = v ∧
    F.store.vm? v = some vm ∧ s.vm? v = some (F.result x vm)
  items : ∀ id, s.item? id = F.store.item? id ∨ ∃ x, F.Left x ∧
    x.id = id ∧ F.Closed x s ∧
    ∀ vm, F.store.vm? x.vm = some vm → s.vm? x.vm = some (F.result x vm)

/-- What other scans do. -/
structure Leaves (job : Nat) (s s' : Shared) : Prop where
  wants : s'.locks.wants job = s.locks.wants job
  holds : ∀ {name}, s.Holds job name → s'.Holds job name
  vms : ∀ {v}, s.Holds job ⟨F.node, v⟩ → s'.store.vm? v = s.store.vm? v
  closed : ∀ {x}, F.Left x → F.Closed x s.store → F.Closed x s'.store
  alone : F.alone → s'.store = s.store

def Warrants (job : Nat) (s : Shared) : Control.Request → Prop
  | .transact (.swap u) =>
    ∃ x vm, F.Left x ∧ s.Holds job ⟨F.node, x.vm⟩ ∧ F.store.vm? x.vm = some vm ∧
      s.store.vm? x.vm = some vm ∧ u.vm = x.vm ∧ u.Matches vm ∧ u.apply vm = F.result x vm
  | .transact (.moveVolumes _) => True
  | .transact (.recoverItem id step _) => ∃ x, F.Left x ∧ x.id = id ∧ step = F.step x ∧
      ∀ vm, F.store.vm? x.vm = some vm → s.store.vm? x.vm = some (F.result x vm)
  | .transact t => t.Reads
  | .lock name => s.locks.wants job = [name]
  | .unlock name _ => s.locks.wants job = [name] ∧ s.Holds job name ∧
      ∀ x, F.Left x → ⟨F.node, x.vm⟩ = name → F.Closed x s.store
  | .freshId => False
  | _ => True

def Replies (envelope : Agent.Envelope) (answer : Except Failure Agent.Answer) : Prop :=
  ∀ host token wait, envelope = Agent.probe host token wait →
    known? (Agent.powerOf host answer) = some (bif F.on host token then .on else .off)

/-- Hosts answer as they have machines on. -/
def Agrees : Exchange → Prop
  | ⟨.send envelope, answer, _⟩ => F.Replies envelope answer
  | ⟨.sendBoth first second, answers, _⟩ =>
    F.Replies first answers.1 ∧ F.Replies second answers.2
  | _ => True

def surveying (job : Nat) : Contract where
  job := job
  invariant s := F.Brings s.store
  rely := F.Leaves job
  allow _ _ := True
  fit past s r := (∀ e ∈ past, F.Agrees e) → F.Warrants job s r
  rely_refl _ := ⟨rfl, id, fun _ => rfl, fun _ closed => closed, fun _ => rfl⟩
  rely_trans h h' := ⟨h'.wants.trans h.wants, fun holds => h'.holds (h.holds holds),
    fun holds => (h'.vms (h.holds holds)).trans (h.vms holds),
    fun left closed => h'.closed left (h.closed left closed),
    fun alone => (h'.alone alone).trans (h.alone alone)⟩
  allow_refl _ := trivial

def Sought (name : LockName) (past : List Exchange) : Prop := ∃ e ∈ past, e.request = .lock name

/-- Items that are yet to be visited. All other items are closed, or the scan has seen to their
locks. -/
structure Tours (rest : List Item) (past : List Exchange) (s : Shared) : Prop where
  left : ∀ x ∈ rest, F.Left x
  distinct : rest.Pairwise (·.vm ≠ ·.vm)
  heeds : ∀ x, F.Left x → x ∈ rest ∨ F.Closed x s.store ∨ Sought ⟨F.node, x.vm⟩ past
  alone : F.alone → ∀ x ∈ rest, s.store.vm? x.vm = F.store.vm? x.vm

structure Roves (job : Nat) (rest : List Item) (past : List Exchange) (s : Shared) : Prop where
  tours : F.Tours rest past s
  wants : s.locks.wants job = []

/-- The scan has the lock of a machine, and knows its record. -/
structure Works (job : Nat) (x : Item) (rest : List Item) (record : Option Vm)
    (past : List Exchange) (s : Shared) : Prop where
  tours : F.Tours rest past s
  left : F.Left x
  apart : ∀ y ∈ rest, y.vm ≠ x.vm
  wants : s.locks.wants job = [⟨F.node, x.vm⟩]
  holds : s.Holds job ⟨F.node, x.vm⟩
  vm : s.store.vm? x.vm = record

variable {F} {job : Nat} {s s' : Shared} {x y : Item} {rest : List Item} {record : Option Vm}
  {past : List Exchange} {e : Exchange} {vm : Vm} {ctx : Context} {α : Type}

theorem lenient_surveying : Lenient (F.surveying job) F.Agrees :=
  ⟨fun _ _ => trivial, fun no all => absurd all no⟩

theorem warrants_of_quiet {r : Control.Request} (quiet : r.Quiet) : F.Warrants job s r := by
  cases r with
  | transact t => cases t <;> first | exact quiet | exact quiet.elim
  | freshId | lock | unlock => exact quiet.elim
  | _ => trivial

theorem Left.eq_of_vm (ready : F.Ready) (h : F.Left x) (h' : F.Left y)
    (same : x.vm = y.vm) : x = y := by
  have slot := ready.indexed _ _ _ h.filed same h.isOpen
  rw [ready.indexed _ _ _ h'.filed rfl h'.isOpen] at slot
  have filed := h.filed
  rw [← Option.some.inj slot, h'.filed] at filed
  exact (Option.some.inj filed).symm

theorem result_token (x : Item) (vm : Vm) : (F.result x vm).token = vm.token := by
  unfold result restored
  split
  · rfl
  · split <;> rfl

theorem calls_result (homed : Homed (F.on · vm.token) x vm) :
    calls? (F.on · (F.result x vm).token) x (F.result x vm) = none := by
  rw [result_token]
  exact restored_once homed

theorem Brings.known (ready : F.Ready) (h : F.Brings s.store) (left : F.Left x) :
    s.store.vm? x.vm = F.store.vm? x.vm ∨
      ∃ vm, F.store.vm? x.vm = some vm ∧ s.store.vm? x.vm = some (F.result x vm) := by
  rcases h.vms x.vm with same | ⟨y, vm, left', about, stored, moved⟩
  · exact .inl same
  · rw [left'.eq_of_vm ready left about] at moved
    exact .inr ⟨vm, stored, moved⟩

theorem step_ends (x : Item) : F.step x ≠ .started := by
  unfold step
  split <;> decide

theorem Left.not_closed {store : Store} (left : F.Left x) (stored : store.item? x.id = some x) :
    ¬ F.Closed x store := by
  rintro ⟨now, closed⟩
  rw [stored] at closed
  have ended : x.step = F.step x := congrArg Item.step (Option.some.inj closed)
  exact step_ends x (ended.symm.trans left.isOpen)

theorem Closed.apply {t : Transaction} {store : Store} (h : F.Closed x store)
    (names : t.names? = none) :
    F.Closed x (t.apply store).2 := by
  obtain ⟨now, closed⟩ := h
  refine ⟨now, (Transaction.item?_apply closed ?_).trans (congrArg some ?_)⟩
  · rintro _ rfl
    cases names
  · cases t with
    | openItem | closeItem | planItem => cases names
    | recoverItem id step' now' => exact if_neg fun ⟨_, isOpen⟩ => step_ends x isOpen
    | _ => rfl

theorem Brings.item (h : F.Brings s.store) (left : F.Left x) :
    s.store.item? x.id = some x ∨ F.Closed x s.store := by
  rcases h.items x.id with same | ⟨y, left', same, closed, -⟩
  · exact .inl (same.trans left.filed)
  · have filed := left'.filed
    rw [same, left.filed] at filed
    obtain rfl := Option.some.inj filed
    exact .inr closed

theorem Brings.closes (h : F.Brings s.store) (left : F.Left x) (now : Timestamp) :
    F.Closed x ((Transaction.recoverItem x.id (F.step x) now).apply s.store).2 := by
  rcases h.item left with stored | closed
  · refine ⟨now, (Transaction.item?_apply stored (by rintro _ ⟨⟩)).trans ?_⟩
    exact congrArg some (if_pos ⟨rfl, left.isOpen⟩)
  · exact closed.apply rfl

/-- An item that is open is one of those that were open at first. -/
theorem Brings.left (h : F.Brings s.store) (mem : x ∈ s.store.openItems F.node) : F.Left x := by
  obtain ⟨stored, owner, isOpen⟩ := Store.mem_openItems mem
  rcases h.items x.id with same | ⟨y, left, same, ⟨now, closed⟩, -⟩
  · exact ⟨same.symm.trans stored, owner, isOpen⟩
  · rw [same, stored] at closed
    have ended : x.step = F.step y := congrArg Item.step (Option.some.inj closed)
    exact absurd (ended.symm.trans isOpen) (step_ends y)

theorem Tours.append (h : F.Tours rest past s) : F.Tours rest (past ++ [e]) s := by
  refine ⟨h.left, h.distinct, fun x left => ?_, h.alone⟩
  rcases h.heeds x left with ahead | closed | ⟨f, mem, sought⟩
  · exact .inl ahead
  · exact .inr (.inl closed)
  · exact .inr (.inr ⟨f, List.mem_append_left _ mem, sought⟩)

theorem Tours.leaves (h : F.Tours rest past s) (leaves : F.Leaves job s s') :
    F.Tours rest past s' := by
  refine ⟨h.left, h.distinct, fun x left => ?_, fun alone x mem => ?_⟩
  · rcases h.heeds x left with ahead | closed | sought
    · exact .inl ahead
    · exact .inr (.inl (leaves.closed left closed))
    · exact .inr (.inr sought)
  · rw [leaves.alone alone]
    exact h.alone alone x mem

theorem stable_roves : Stable (F.surveying job) (F.Roves job rest) :=
  fun _ _ _ rely _ h => ⟨h.tours.leaves rely, rely.wants.trans h.wants⟩

theorem Works.append (h : F.Works job x rest record past s) :
    F.Works job x rest record (past ++ [e]) s :=
  ⟨h.tours.append, h.left, h.apart, h.wants, h.holds, h.vm⟩

theorem lasting_works : Lasting (F.surveying job) Request.Quiet (F.Works job x rest record) where
  stable _ _ _ rely _ h := ⟨h.tours.leaves rely, h.left, h.apart, rely.wants.trans h.wants,
    rely.holds h.holds, (rely.vms h.holds).trans h.vm⟩
  fit quiet _ _ _ := warrants_of_quiet quiet
  keeps _ h := h.append

/-- A write under the lock of a machine that leaves items alone. -/
theorem Works.write {t : Transaction} {record' : Option Vm} (h : F.Works job x rest record past s)
    (names : t.names? = none)
    (others : ∀ v, v ≠ x.vm → (t.apply s.store).2.vm? v = s.store.vm? v)
    (here : (t.apply s.store).2.vm? x.vm = record') :
    F.Works job x rest record' past { s with store := (t.apply s.store).2 } := by
  have kept : F.Tours rest past { s with store := (t.apply s.store).2 } := by
    refine ⟨h.tours.left, h.tours.distinct, fun y left => ?_, fun alone y mem => ?_⟩
    · rcases h.tours.heeds y left with ahead | closed | sought
      · exact .inl ahead
      · exact .inr (.inl (closed.apply names))
      · exact .inr (.inr sought)
    · exact (others _ (h.apart y mem)).trans (h.tours.alone alone y mem)
  exact ⟨kept, h.left, h.apart, h.wants, h.holds, here⟩

theorem works_report {event : ControlPlane.Event} {host : Option HostId}
    (stored : F.store.vm? x.vm = some vm)
    (call : calls? (F.on · vm.token) x vm = some (event, host))
    (h : F.Works job x rest (some vm) past s) :
    Safe (F.surveying job) (fun result past s => result = .ok .resolved ∧
        F.Works job x rest (some (F.result x vm)) past s)
      (do report vm event host; return .resolved : Procedure Decision).run past s := by
  obtain ⟨u, checked, settles, -⟩ := restored_of_calls call
  have written : u.apply vm = F.result x vm := settles.symm
  have subject : vm.id = x.vm := Store.id_of_vm? stored
  obtain ⟨next, -, -, expected, -, e⟩ := Transition.check_ok checked
  have about : u.vm = x.vm := by rw [e]; exact subject
  have fits : u.Matches vm := by
    rw [e]
    exact ⟨expected, rfl⟩
  have known : ∀ {past s}, F.Works job x rest (some vm) past s →
      s.store.vm? (asked vm event host).vm = some vm := by
    intro past s h
    rw [show (asked vm event host).vm = x.vm from subject]
    exact h.vm
  have moves : Safe (F.surveying job) (fun result past s => result = .ok (u.apply vm) ∧
      F.Works job x rest (some (F.result x vm)) past s) (asked vm event host).run.run past s := by
    refine Safe.transition lasting_works known checked ?_ ?_ h
    · exact fun h _ _ => ⟨x, vm, h.left, h.holds, stored, h.vm, about, fits, written⟩
    · refine fun {past s} h _ => ⟨trivial, (h.write rfl (fun v other => ?_) ?_).append⟩
      · simp only [Transaction.apply, Store.swap_matching (about ▸ h.vm) fits]
        refine (Store.vm?_insert ..).trans (if_neg fun here => other (here.symm.trans subject))
      · simp only [Transaction.apply, Store.swap_matching (about ▸ h.vm) fits]
        exact (Store.vm?_insert ..).trans ((if_pos subject).trans (congrArg some written))
  refine Safe.andThen (Q := fun result past s => result = .ok () ∧
    F.Works job x rest (some (F.result x vm)) past s)
    (Safe.andThen moves (fun _ _ _ h => ⟨rfl, h.2⟩) ?_) (fun _ _ _ h => ⟨rfl, h.2⟩) ?_
  · rintro _ _ _ ⟨⟨⟩, -⟩
  · rintro _ _ _ ⟨⟨⟩, -⟩

theorem works_moveVolumes {plan : Plan} (ready : F.Ready) (planned : x.plan = some plan)
    (h : F.Works job x rest record past s) :
    Safe (F.surveying job)
      (fun result past s => result = .ok () ∧ F.Works job x rest record past s)
      (demand (α := Unit) (.transact (.moveVolumes (movesOf plan))) rfl).run past s := by
  refine Safe.carry (f := .done) lasting_works.stable h (fun _ _ _ _ => trivial) fun s h inv _ =>
    ⟨trivial, ?_⟩
  have known : ∀ move ∈ movesOf plan,
      (s.store.pool? move.pool).isSome ∧ (s.store.volume? move.volume).isSome := by
    intro move mem
    obtain ⟨r, named, rfl⟩ := List.mem_map.1 mem
    obtain ⟨pool, volume⟩ := ready.backed h.left planned r named
    have inv : F.Brings s.store := inv
    refine ⟨?_, (inv.volumes _).trans volume⟩
    rw [Store.pool?, inv.pools]
    exact pool
  obtain ⟨store, carried⟩ := Store.moveEach_isOk known
  have frame := (Store.moveEach_frame carried).1
  have e : s.store.moveVolumes (movesOf plan) = (.ok (), store) := by
    simp only [Store.moveVolumes, carried]
  have same : ∀ v, ((Transaction.moveVolumes (movesOf plan)).apply s.store).2.vm? v =
    s.store.vm? v := by
    intro v
    simp only [Transaction.apply, e, Store.vm?, frame]
  refine ⟨?_, (h.write rfl (fun v _ => same v) ((same _).trans h.vm)).append⟩
  simp only [Transaction.apply, e]

/-- The record of a machine is as it was at first, or the machine is not called to anything. -/
def Awaited (F : Scene) (x : Item) (vm : Vm) : Prop :=
  ∀ event host, calls? (F.on · vm.token) x vm = some (event, host) → F.store.vm? x.vm = some vm

abbrev Settled (F : Scene) (job : Nat) (x : Item) (rest : List Item) (vm : Vm) :
    Except Failure Decision → Assertion := fun result past s =>
  result = .ok .resolved ∧ F.Works job x rest (some (F.result x vm)) past s

section
variable (awaited : F.Awaited x vm) (h : F.Works job x rest (some vm) past s)
include awaited h

theorem works_called {event : ControlPlane.Event} {host : Option HostId}
    (call : calls? (F.on · vm.token) x vm = some (event, host)) :
    Safe (F.surveying job) (F.Settled job x rest vm)
      (do report vm event host; return .resolved : Procedure Decision).run past s :=
  works_report (awaited event host call) call h

omit awaited in
theorem works_uncalled (none : calls? (F.on · vm.token) x vm = none) :
    F.Settled job x rest vm (.ok .resolved) past s := by
  refine ⟨rfl, ?_⟩
  rw [result, restored_of_none none]
  exact h

theorem works_settleTransient
    (calls : calls? (F.on · vm.token) x vm = stirs? (F.on · vm.token) vm)
    (hosted : vm.host.isSome) :
    Safe (F.surveying job) (fun result => Given F.Agrees (F.Settled job x rest vm result))
      (settleTransient ctx vm).run past s := by
  obtain ⟨host, here⟩ := Option.isSome_iff_exists.1 hosted
  unfold settleTransient
  rw [here]
  have call : calls? (F.on · vm.token) x vm = some
      (if F.on host vm.token then .agentReportsRunning else .agentReportsStopped, none) := by
    rw [calls, stirs?, here]
    rfl
  refine Safe.ofProgram (Q := fun (answer : Except Failure PowerState) =>
    Given F.Agrees fun past s =>
    known? answer = some (bif F.on host vm.token then .on else .off) ∧
      F.Works job x rest (some vm) past s) ?_ ?_
  · refine Safe.then (Q := fun answer => Given F.Agrees fun past s =>
      known? (Agent.powerOf host answer) = some (bif F.on host vm.token then .on else .off) ∧
        F.Works job x rest (some vm) past s) (Safe.call lasting_works.stable (fun _ => rfl) h ?_)
      fun _ _ _ h => h
    refine fun s h inv => ⟨fun _ => trivial, fun reply s' same => ⟨trivial, fun all => ?_⟩⟩
    cases same
    have replies := all _ (List.mem_append_right _ (List.mem_singleton_self _))
    exact ⟨replies host vm.token ctx.probeWait rfl, h.append⟩
  · intro answer past s h
    refine Safe.given lenient_surveying h fun heard => ?_
    obtain ⟨power, h⟩ := heard
    rw [power]
    cases power : F.on host vm.token with
    | true =>
      rw [power] at call
      exact (works_called awaited h call).mono fun _ _ _ ends _ => ends
    | false =>
      rw [power] at call
      exact (works_called awaited h call).mono fun _ _ _ ends _ => ends

theorem works_settleMigration {plan : Plan} (ready : F.Ready) (planned : x.plan = some plan)
    (calls : calls? (F.on · vm.token) x vm = lands? (F.on · vm.token) plan vm) :
    Safe (F.surveying job) (fun result => Given F.Agrees (F.Settled job x rest vm result))
      (settleMigration ctx vm plan).run past s := by
  refine Safe.ofProgram
    (Q := fun (answers : Except Failure PowerState × Except Failure PowerState) =>
      Given F.Agrees fun past s =>
        (known? answers.1 = some (bif F.on plan.source vm.token then .on else .off) ∧
          known? answers.2 = some (bif F.on plan.destination vm.token then .on else .off)) ∧
        F.Works job x rest (some vm) past s) ?_ ?_
  · refine Safe.call lasting_works.stable (fun _ => rfl) h fun s h inv =>
      ⟨fun _ => trivial, ?_⟩
    rintro reply _ rfl
    refine ⟨trivial, fun all => ⟨?_, h.append⟩⟩
    obtain ⟨first, second⟩ := all _ (List.mem_append_right _ (List.mem_singleton_self _))
    exact ⟨first plan.source vm.token ctx.probeWait rfl,
      second plan.destination vm.token ctx.probeWait rfl⟩
  · rintro ⟨first, second⟩ past s h
    refine Safe.given lenient_surveying h fun heard => ?_
    obtain ⟨⟨source, destination⟩, h⟩ := heard
    refine Safe.mono (Q := F.Settled job x rest vm) ?_ fun _ _ _ ends _ => ends
    dsimp only at source destination ⊢
    rw [source, destination]
    unfold lands? at calls
    cases there : F.on plan.source vm.token with
    | true =>
      simp only [there, if_true] at calls
      by_cases here : vm.state = .running ∧ vm.host = some plan.source
      · simp only [cond_true, if_pos here] at calls ⊢
        exact works_uncalled h calls
      · simp only [cond_true, if_neg here] at calls ⊢
        exact works_called awaited h calls
    | false =>
      cases away : F.on plan.destination vm.token with
      | false =>
        simp only [there, away, Bool.false_eq_true, if_false] at calls
        exact works_called awaited h calls
      | true =>
        simp only [there, away, Bool.false_eq_true, if_false, if_true] at calls
        by_cases here : vm.host = some plan.destination
        · simp only [cond_true, cond_false, if_pos here] at calls ⊢
          exact works_uncalled h calls
        · simp only [cond_true, cond_false, if_neg here] at calls ⊢
          by_cases moves : plan.MovesStorage
          · rw [if_pos moves]
            refine Safe.andThen (works_moveVolumes ready planned h)
              (fun _ _ _ h => works_called awaited h.2 calls) ?_
            rintro _ _ _ ⟨⟨⟩, -⟩
          · rw [if_neg moves]
            exact works_called awaited h calls

theorem works_settle (ready : F.Ready) (hosted : vm.state.InMotion → vm.host.isSome) :
    Safe (F.surveying job) (fun result => Given F.Agrees (F.Settled job x rest vm result))
      (Recovery.settle ctx x vm).run past s := by
  unfold Recovery.settle
  split
  next plan planned state =>
    exact works_settleMigration awaited h ready planned (by simp only [calls?, planned, state])
  next plan planned state =>
    exact works_settleMigration awaited h ready planned (by simp only [calls?, planned, state])
  next state =>
    refine works_settleTransient awaited h ?_ (hosted (.inl state))
    cases planned : x.plan <;> simp only [calls?, planned, state]
  next state =>
    refine works_settleTransient awaited h ?_ (hosted (.inr (.inl state)))
    cases planned : x.plan <;> simp only [calls?, planned, state]
  next state bare =>
    refine works_settleTransient awaited h ?_ (hosted (.inr (.inr state)))
    cases planned : x.plan with
    | none => simp only [calls?, planned, state]
    | some plan => exact absurd planned (bare plan)
  next starting stopping migrating _ running =>
    refine fun _ => works_uncalled h ?_
    unfold calls?
    split
    next state => exact absurd state migrating
    next planned state => exact absurd state (running _ planned)
    next state => exact absurd state starting
    next state => exact absurd state stopping
    next state _ => exact absurd state migrating
    · rfl

end

structure Parts (F : Scene) (job : Nat) (x : Item) (rest : List Item) (past : List Exchange)
    (s : Shared) : Prop where
  tours : F.Tours rest past s
  wants : s.locks.wants job = [⟨F.node, x.vm⟩]
  holds : s.Holds job ⟨F.node, x.vm⟩
  left : F.Left x
  closed : F.Closed x s.store

theorem stable_parts : Stable (F.surveying job) (F.Parts job x rest) := fun _ _ _ rely _ h =>
  ⟨h.tours.leaves rely, rely.wants.trans h.wants, rely.holds h.holds, h.left,
    rely.closed h.left h.closed⟩

/-- A scan closes the item of a machine that is settled, unless that has been done. -/
theorem works_closeRecovered {step : Work.Step} (settled : ∀ vm, F.store.vm? x.vm = some vm →
      record = some (F.result x vm)) (right : step = F.step x)
        (h : F.Works job x rest record past s) :
    Safe (F.surveying job) (Ends (fun _ => F.Parts job x rest) fun _ _ => False)
      (closeRecovered x step).run past s := by
  refine Safe.andThen (Q := Ends (fun _ => F.Works job x rest record) fun _ _ => False)
    (Safe.ask lasting_works.stable (fun _ => rfl) h fun s h _ => ⟨fun _ => trivial, ?_⟩)
    (fun now past s h => ?_) fun _ _ _ => False.elim
  · rintro _ _ rfl
    exact ⟨trivial, h.append⟩
  refine Safe.transact lasting_works.stable h fun s h inv =>
    ⟨fun _ => ?_, fun _ => ⟨trivial, ?_⟩⟩
  · exact ⟨x, h.left, rfl, right, fun vm stored => h.vm.trans (settled vm stored)⟩
  have inv : F.Brings s.store := inv
  have frame : ∀ v, ((Transaction.recoverItem x.id step now).apply s.store).2.vm? v =
    s.store.vm? v :=
    fun v => (Transaction.vm?_apply ..).trans Option.map_id'
  have works := h.write (t := .recoverItem x.id step now) rfl (fun v _ => frame v) (frame _)
  subst right
  exact ⟨works.tours.append, works.wants, works.holds, works.left, inv.closes works.left now⟩

/-- A part of a scan ends with an assertion, and does not fail, if hosts answer as they have
machines on. -/
abbrev Attains (F : Scene) (A : Assertion) : Except Failure α → Assertion :=
  fun result => Given F.Agrees (Ends (fun _ => A) (fun _ _ => False) result)

theorem works_closes {step : Work.Step} {note : Report}
    (settled : ∀ vm, F.store.vm? x.vm = some vm →
      record = some (F.result x vm)) (right : step = F.step x)
        (h : F.Works job x rest record past s) :
    Safe (F.surveying job) (F.Attains (F.Parts job x rest))
      (do if ← closeRecovered x step then return note else return {} : Procedure Report).run
      past s := by
  refine Safe.andThen (works_closeRecovered settled right h) (fun closed _ _ h => ?_) fun _ _ _ =>
    False.elim
  cases closed <;> exact fun _ => h

/-- A machine of which the record is known is settled, and its item closed. -/
theorem works_found (ready : F.Ready) (h : F.Works job x rest (some vm) past s)
    (known : F.store.vm? x.vm = some vm ∨
      ¬ F.alone ∧ ∃ first, F.store.vm? x.vm = some first ∧ vm = F.result x first) :
    Safe (F.surveying job) (F.Attains (F.Parts job x rest))
      (do
        match ← ExceptT.lift (Recovery.settle ctx x vm).run with
        | .ok .resolved =>
          if ← closeRecovered x .done then return { resolved := [x.id] } else return {}
        | .ok .deferred | .error _ => return { deferred := [x.id] } : Procedure Report).run
          past s := by
  have there : (F.store.vm? x.vm).isSome := by
    rcases known with stored | ⟨-, first, stored, -⟩ <;> rw [stored] <;> rfl
  have right : Work.Step.done = F.step x := (if_pos there).symm
  have finishes : (F.Awaited x vm ∧ (vm.state.InMotion → vm.host.isSome) ∧
      ∀ first, F.store.vm? x.vm = some first →
      some (F.result x vm) = some (F.result x first)) := by
    rcases known with stored | ⟨many, first, stored, rfl⟩
    · refine ⟨fun _ _ _ => stored, fun moves => (ready.placed stored).2 ?_,
        fun first stored' => ?_⟩
      · rcases moves with state | state | state <;> rw [state] <;> decide
      · rw [stored] at stored'
        rw [Option.some.inj stored']
    · have none := calls_result (ready.homed many h.left stored)
      refine ⟨fun event host call => ?_, fun moves => ?_, fun first' stored' => ?_⟩
      · rw [none] at call
        cases call
      · exact absurd moves (restored_rests (ready.placed stored) (ready.behind h.left stored))
      · rw [stored] at stored'
        rw [← Option.some.inj stored', result, restored_of_none none]
  obtain ⟨awaited, hosted, settled⟩ := finishes
  refine Safe.ofProgram (works_settle awaited h ready hosted) fun result past s h => ?_
  refine Safe.given lenient_surveying h fun ends => ?_
  obtain ⟨rfl, works⟩ := ends
  exact works_closes settled right works

/-- A scan that holds the lock of a machine settles the machine and closes its item. -/
theorem works_resolve (ready : F.Ready) (first : F.alone → record = F.store.vm? x.vm)
    (h : F.Works job x rest record past s) :
    Safe (F.surveying job) (F.Attains (F.Parts job x rest)) (resolve ctx x).run past s := by
  refine Safe.andThen (Q := fun result past s => result = .ok record ∧
    F.Works job x rest record past s ∧ (record = F.store.vm? x.vm ∨
      ∃ vm, F.store.vm? x.vm = some vm ∧ record = some (F.result x vm)))
    (Safe.ask lasting_works.stable (fun _ => rfl) h fun s h inv => ⟨fun _ => trivial, ?_⟩) ?_ ?_
  · rintro _ _ ⟨-, rfl, rfl⟩
    have inv : F.Brings s.store := inv
    refine ⟨trivial, congrArg Except.ok h.vm, h.append, ?_⟩
    rw [← h.vm]
    exact inv.known ready h.left
  · rintro _ past s ⟨⟨⟩, h, known⟩
    cases record with
    | none =>
      have missing : F.store.vm? x.vm = none := by
        rcases known with same | ⟨vm, -, ⟨⟩⟩
        exact same.symm
      refine works_closes (fun vm stored => ?_) ?_ h
      · rw [missing] at stored
        cases stored
      · rw [step, missing]
        rfl
    | some vm =>
      refine works_found ready h ?_
      by_cases alone : F.alone
      · exact .inl (first alone).symm
      · rcases known with same | ⟨vm', stored, moved⟩
        · exact .inl same.symm
        · exact .inr ⟨alone, vm', stored, Option.some.inj moved⟩
  · rintro _ _ _ ⟨⟨⟩, -⟩

theorem parts_unlock (ready : F.Ready) (node : ctx.node.id = F.node)
    (h : F.Parts job x rest past s) :
    Safe (F.surveying job) (Ends (fun _ => F.Roves job rest) fun _ _ => False)
      (Procedure.ask (.unlock (lockName ctx.node x.vm) .plain)).run past s := by
  have named : lockName ctx.node x.vm = ⟨F.node, x.vm⟩ := by rw [lockName, node]
  rw [named]
  refine Safe.ask stable_parts (fun _ => rfl) h fun s h _ =>
    ⟨fun _ => ⟨h.wants, h.holds, ?_⟩, ?_⟩
  · intro y left same
    rw [left.eq_of_vm ready h.left (congrArg LockName.vm same)]
    exact h.closed
  · rintro _ _ rfl
    exact ⟨trivial, ⟨h.tours.left, h.tours.distinct, h.tours.append.heeds, h.tours.alone⟩,
      Locks.wants_release_own h.wants h.holds⟩

/-- Once the lock of an item has been asked for, the item need not be visited any more. -/
theorem Tours.sought (h : F.Tours (x :: rest) past s)
    (asks : e.request = .lock ⟨F.node, x.vm⟩) :
    F.Tours rest (past ++ [e]) s := by
  refine ⟨fun y mem => h.left y (List.mem_cons_of_mem x mem), (List.pairwise_cons.1 h.distinct).2,
    fun y left => ?_, fun alone y mem => h.alone alone y (List.mem_cons_of_mem x mem)⟩
  rcases h.append.heeds y left with ahead | done
  · rcases List.mem_cons.1 ahead with rfl | ahead
    · exact .inr (.inr ⟨e, List.mem_append_right _ (List.mem_singleton_self _), asks⟩)
    · exact .inl ahead
  · exact .inr done

/-- A scan takes the lock of a machine, unless another scan is busy with the machine for too
long. -/
theorem roves_lock (node : ctx.node.id = F.node) (h : F.Roves job (x :: rest) past s) :
    Safe (F.surveying job) (fun result past s => match result with
      | .ok () => ∃ record, (F.alone → record = F.store.vm? x.vm) ∧
        F.Works job x rest record past s
      | .error _ => F.Roves job rest past s) (Work.lock ctx.node x.vm).run past s := by
  have named : lockName ctx.node x.vm = ⟨F.node, x.vm⟩ := by rw [lockName, node]
  have apart : ∀ y ∈ rest, y.vm ≠ x.vm :=
    fun y mem => ((List.pairwise_cons.1 h.tours.distinct).1 y mem).symm
  intro s₁ rely₁ inv₁
  refine ⟨trivial, fun s₂ rely₂ _ => ?_⟩
  rw [named] at rely₂ ⊢
  have h₁ := stable_roves rely₁ inv₁ h
  have wants : s₂.locks.wants job = [⟨F.node, x.vm⟩] := by
    refine rely₂.wants.trans (Locks.wants_claim.trans ?_)
    rw [if_pos (show (F.surveying job).job = job from rfl), h₁.wants, List.nil_append]
  have entered : F.Tours (x :: rest) past (s₁.enter job (.lock ⟨F.node, x.vm⟩)) :=
    ⟨h₁.tours.left, h₁.tours.distinct, h₁.tours.heeds, h₁.tours.alone⟩
  have tours := entered.leaves rely₂
  refine ⟨fun _ => wants, fun reply s₃ answers => ⟨trivial, ?_⟩⟩
  cases reply with
  | true =>
    obtain ⟨holds, rfl⟩ := answers
    exact ⟨_, fun alone => tours.alone alone x List.mem_cons_self, tours.sought rfl,
      tours.left x List.mem_cons_self, apart, wants, holds, rfl⟩
  | false =>
    obtain ⟨lacks, rfl⟩ := answers
    have kept := tours.sought (e := ⟨.lock ⟨F.node, x.vm⟩, false, s₂.store⟩) rfl
    exact ⟨⟨kept.left, kept.distinct, kept.heeds, kept.alone⟩,
      Locks.wants_giveUp_own wants lacks⟩

section
variable (ready : F.Ready) (node : ctx.node.id = F.node)
include ready node

theorem roves_visit (h : F.Roves job (x :: rest) past s) :
    Safe (F.surveying job) (F.Attains (F.Roves job rest)) (visit ctx x).run past s := by
  refine Safe.ofProgram (roves_lock node h) fun result past s h => ?_
  rcases result with failure | _
  · exact fun _ => h
  obtain ⟨record, first, h⟩ := h
  refine Safe.andThen (Q := F.Attains (F.Parts job x rest)) ?_ (fun report past s h => ?_)
    fun _ _ _ h => h
  · refine Safe.tryCatch (works_resolve ready first h) (fun _ _ _ h => h)
      fun failure past s h => ?_
    exact Safe.given lenient_surveying h fun no => no.elim
  · refine Safe.given lenient_surveying h fun h => ?_
    exact Safe.andThen (parts_unlock ready node h) (fun _ _ _ h _ => h) fun _ _ _ h _ => h

theorem roves_visitAll (items : List Item) (h : F.Roves job items past s) :
    Safe (F.surveying job) (F.Attains (F.Roves job [])) (visitAll ctx items).run past s := by
  induction items generalizing past s with
  | nil => exact fun _ => h
  | cons x items ih =>
    refine Safe.andThen (roves_visit ready node h) (fun report past s h => ?_) fun _ _ _ h => h
    refine Safe.given lenient_surveying h fun h => ?_
    exact Safe.andThen (ih h) (fun _ _ _ h => h) fun _ _ _ h => h

/-- A scan that has come to its end holds no lock, and every item is closed, or the scan has asked
for the lock of its machine. -/
theorem roves_scan (wants : s.locks.wants job = []) (first : F.alone → s.store = F.store) :
    Safe (F.surveying job) (F.Attains (F.Roves job [])) (scan ctx).run past s := by
  refine Safe.andThen (Q := fun result past s => ∃ items, result = .ok items ∧
    F.Roves job items past s)
    (Safe.ask (P := fun _ s => s.locks.wants job = [] ∧ (F.alone → s.store = F.store)) ?_
      (fun _ => rfl) ⟨wants, first⟩ fun s h inv => ⟨fun _ => trivial, ?_⟩) ?_ ?_
  · exact fun _ _ _ rely _ h =>
      ⟨rely.wants.trans h.1, fun alone => (rely.alone alone).trans (h.2 alone)⟩
  · rintro _ _ ⟨-, rfl, rfl⟩
    have inv : F.Brings s.store := inv
    have left : ∀ x ∈ s.store.openItems ctx.node.id, F.Left x :=
      fun x mem => inv.left (node ▸ mem)
    refine ⟨trivial, _, rfl, ⟨left, ?_, fun x own => ?_, fun alone x _ => ?_⟩, h.1⟩
    · refine (Store.openItems_distinct ..).imp_of_mem fun mem mem' ne same => ne ?_
      exact congrArg Item.id ((left _ mem).eq_of_vm ready (left _ mem') same)
    · rcases inv.item own with stored | closed
      · exact .inl (Store.openItems_of_open stored (own.owner.trans node.symm) own.isOpen)
      · exact .inr (.inl closed)
    · exact congrArg (Store.vm? · x.vm) (h.2 alone)
  · rintro items past s ⟨_, ⟨⟩, h⟩
    exact roves_visitAll ready node items h
  · rintro _ _ _ ⟨_, ⟨⟩, -⟩

end

end Scene
end ControlPlane.Concurrent
