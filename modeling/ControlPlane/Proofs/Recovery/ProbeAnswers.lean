import ControlPlane.Proofs.Concurrent.ControlPlaneJobs
import ControlPlane.Proofs.Concurrent.FurtherContract
import ControlPlane.Proofs.Recovery.StaleItems

/-!
# What a scan has heard

A scan takes a machine for stopped when it hears so. Where the machine was starting or stopping, it
is the recorded host that says it. Where a migration broke off, it is the two hosts of the plan, and
the plan need not be about the recorded host: it is written down before it is checked.
-/

namespace ControlPlane

theorem Transaction.onVm_token (t : Transaction) (vm : Vm) : (t.onVm vm).token = vm.token := by
  cases t with
  | swap u => simp only [onVm]; split <;> rfl
  | setResources id resources => simp only [onVm]; split <;> rfl
  | setCredentialsPending id pending => simp only [onVm]; split <;> rfl
  | _ => rfl

def Control.Request.addresses (host : HostId) : Control.Request → Bool
  | .send e => e.host = host
  | .sendBoth e e' => e.host = host ∨ e'.host = host
  | _ => false

namespace Concurrent
open Work Control Recovery Procedure

/-- The host was asked for the power of the machine, and has denied it, or refused to answer. -/
def Denies (host : HostId) (token : String) : Exchange → Prop
  | ⟨.send e, answer, _⟩ =>
    (∃ wait, e = Agent.probe host token wait) ∧ Agent.powerOf host answer = .ok .off
  | ⟨.sendBoth e e', answers, _⟩ =>
    (∃ wait, e = Agent.probe host token wait) ∧ Agent.powerOf host answers.1 = .ok .off ∨
      (∃ wait, e' = Agent.probe host token wait) ∧ Agent.powerOf host answers.2 = .ok .off
  | _ => False

/-- The host has denied the machine at some time. -/
def Denied (host : HostId) (vm : Vm) (past : List Exchange) : Prop :=
  ∃ e ∈ past, Denies host vm.token e

/-- What has to be heard before a machine is taken for stopped. -/
def Grounds (node : NodeId) (vm : Vm) (past : List Exchange) : Prop :=
  (∃ host, vm.host = some host ∧ Denied host vm past) ∨
    (vm.state = .running ∨ vm.state = .migrating) ∧ ∃ item plan, Listed node item past ∧
      item.vm = vm.id ∧ item.plan = some plan ∧ Denied plan.source vm past ∧
      Denied plan.destination vm past

def Grounded (node : NodeId) (past : List Exchange) (s : Shared) (r : Control.Request) : Prop :=
  ∀ u vm, r = .transact (.swap u) → u.state = .stopped →
    s.store.vm? u.vm = some vm → u.Matches vm → Grounds node vm past

/-- Machines keep the names by which hosts know them. -/
def Named (a b : Shared) : Prop :=
  ∀ v vm', b.store.vm? v = some vm' → ∃ vm, a.store.vm? v = some vm ∧ vm'.token = vm.token

abbrev hearing (node : NodeId) (job : Nat) : Contract := reviewed Named (Grounded node) node job

structure Recalled (vm : Vm) (s : Shared) : Prop where
  seen : Seen vm.id vm s
  named : ∀ vm', s.store.vm? vm.id = some vm' → vm'.token = vm.token

variable {node : NodeId} {job : Nat} {s : Shared} {past : List Exchange} {e : Exchange} {vm : Vm}
  {host : HostId} {item : Item} {items : List Item} {R : List Exchange → Prop} {wait : Span}
  {ctx : Operation.Context} {fit : List Exchange → Shared → Control.Request → Prop}

theorem Denied.append (h : Denied host vm past) : Denied host vm (past ++ [e]) := by
  obtain ⟨f, mem, denies⟩ := h
  exact ⟨f, List.mem_append_left _ mem, denies⟩

theorem Grounds.append (h : Grounds node vm past) : Grounds node vm (past ++ [e]) := by
  rcases h with ⟨host, here, denied⟩ | ⟨state, item, plan, listed, about, planned,
    source, destination⟩
  · exact .inl ⟨host, here, denied.append⟩
  · exact .inr ⟨state, item, plan, listed.append, about, planned, source.append,
      destination.append⟩

theorem Denies.addresses {token : String} (h : Denies host token e) :
    e.request.addresses host = true := by
  obtain ⟨r, reply, before⟩ := e
  cases r with
  | send envelope =>
    obtain ⟨⟨wait, rfl⟩, -⟩ := h
    exact decide_eq_true rfl
  | sendBoth first second =>
    rcases h with ⟨⟨wait, rfl⟩, -⟩ | ⟨⟨wait, rfl⟩, -⟩
    · exact decide_eq_true (.inl rfl)
    · exact decide_eq_true (.inr rfl)
  | _ => cases h

theorem grounded_of_noSwap {r : Control.Request} (noSwap : ∀ u, r ≠ .transact (.swap u)) :
    Grounded node past s r := fun u _ e => absurd e (noSwap u)

theorem noSwap_of_quiet {r : Control.Request} (quiet : r.Quiet) (u : StateUpdate) :
    r ≠ .transact (.swap u) := by
  rintro rfl
  exact quiet

theorem eq_of_known? {power : Except Failure PowerState} {told : PowerState}
    (h : known? power = some told) :
    power = .ok told := by
  rcases power with failure | _ | _ | _ <;> cases h <;> rfl

theorem recalled_of_vm? (stored : s.store.vm? vm.id = some vm) : Recalled vm s := by
  refine ⟨seen_of_vm? stored, fun vm' stored' => ?_⟩
  rw [stored] at stored'
  cases stored'
  rfl

theorem running_of_report {state next : State} (h : state.next? .agentReportsRunning = some next) :
    next = .running := by
  cases state <;> cases h <;> rfl

def Knows (vm : Vm) (R : List Exchange → Prop) : Assertion :=
  fun past s => Recalled vm s ∧ R past

/-- A record that is still the one that was read names the same host. -/
theorem Recalled.grounds {vm' : Vm} (h : Recalled vm s)
    (stored : s.store.vm? vm.id = some vm') (version : vm'.version = vm.version)
    (state : vm'.state = vm.state) (grounds : Grounds node vm past) : Grounds node vm' past := by
  have host := (h.seen vm' stored).2 version
  have token := h.named vm' stored
  have named := Store.id_of_vm? stored
  unfold Grounds Denied at grounds ⊢
  rwa [host, token, named, state]

structure Notes (vm : Vm) (event : ControlPlane.Event) (destination : Option HostId)
    (u : StateUpdate) : Prop where
  subject : u.vm = vm.id
  expected : u.expectedState = vm.state
  version : u.expectedVersion = vm.version
  legal : vm.state.next? event = some u.state
  hosts : ∃ found : Vm, found.host = vm.host ∧
    Transition.hosts found u.state destination = .ok (u.host, u.lastHost)

def Lax (fit : List Exchange → Shared → Control.Request → Prop) : Prop :=
  ∀ {past s r}, (∀ u, r ≠ .transact (.swap u)) → fit past s r

/-- A machine that the scan has read is settled by requests that fit, and nothing is forgotten of
the items that the scan has listed. -/
def Disposes (fit : List Exchange → Shared → Control.Request → Prop) (node : NodeId)
    (job : Nat) (ctx : Operation.Context) : Prop :=
  ∀ {R : List Exchange → Prop} {item vm past s}, (∀ {past e}, R past → R (past ++ [e])) →
    item.vm = vm.id → (∀ {past}, R past → Listed node item past) → Knows vm R past s →
      Safe (reviewed Named fit node job) (fun _ past _ => R past) (settle ctx item vm).run past s

section
variable (lax : Lax fit) (grows : ∀ {past e}, R past → R (past ++ [e]))
include lax grows

theorem lasting_knows : Lasting (reviewed Named fit node job) Request.Quiet (Knows vm R) where
  stable := stable_reviewed fun _ others named h =>
    ⟨⟨h.1.seen.others others, fun vm' stored => by
      obtain ⟨vm₀, stored₀, token⟩ := named _ _ stored
      exact token.trans (h.1.named vm₀ stored₀)⟩, h.2⟩
  fit quiet _ _ := lax (noSwap_of_quiet quiet)
  keeps _ h := ⟨h.1, grows h.2⟩

/-- What hosts say is written down for the version that was read, or not at all. -/
theorem heard_noting {event : ControlPlane.Event} {destination : Option HostId}
    (writes : ∀ {past s u}, Knows vm R past s → Notes vm event destination u →
      fit past s (.transact (.swap u))) (h : Knows vm R past s) :
    Safe (reviewed Named fit node job) (fun _ past _ => R past)
      (do report vm event destination; return .resolved : Procedure Decision).run past s := by
  have lasting : Lasting (reviewed Named fit node job) Request.Quiet (Knows vm R) :=
    lasting_knows lax grows
  suffices written : Safe (reviewed Named fit node job) (fun _ past _ => R past) (Transition.run
      { vm := vm.id, expected := vm.state, event := event, host := destination
        version := some vm.version }).run past s from
    Safe.andThen (Q := fun _ past _ => R past)
      (Safe.andThen written (fun _ _ _ h => h) fun _ _ _ h => h) (fun _ _ _ h => h) fun _ _ _ h => h
  refine Safe.attempt lasting trivial trivial
    (fun {past s found u} h stored checked past' s' h' => ?_) (fun _ _ _ h => h.2) h
  obtain ⟨next, legal, version, state, hosted, e⟩ := Transition.check_ok checked
  have goes : u.state = next := congrArg StateUpdate.state e
  have notes : Notes vm event destination u := by
    refine ⟨congrArg StateUpdate.vm e, congrArg StateUpdate.expectedState e,
      (congrArg StateUpdate.expectedVersion e).trans version.symm, goes ▸ legal, found,
      ?_, goes ▸ hosted⟩
    exact (h.1.seen found stored).2 version.symm
  refine Safe.carry lasting.stable h' (fun s h _ => writes h notes) fun s h _ _ => ⟨trivial, ?_⟩
  generalize (Transaction.apply s.store (.swap u)).1 = reply
  rcases reply with failure | _ | written <;> exact grows h.2

/-- What a host says of the power of a machine is not forgotten. -/
theorem heard_powerState (h : Knows vm R past s) :
    Safe (reviewed Named fit node job) (fun power past s => Knows vm R past s ∧ ∃ answer before,
      (⟨.send (Agent.probe host vm.token wait), answer, before⟩ : Exchange) ∈ past ∧
        power = Agent.powerOf host answer) (Agent.powerState host vm.token wait) past s := by
  have lasting : Lasting (reviewed Named fit node job) Request.Quiet (Knows vm R) :=
    lasting_knows lax grows
  refine Safe.observe trivial lasting.stable h (fun _ h inv => lasting.fit trivial h inv)
    fun s answer h _ _ => ⟨⟨h.1, grows h.2⟩, answer, s.store, ?_, rfl⟩
  exact List.mem_append_right _ (List.mem_singleton_self _)

theorem heard_within {α : Type} {P : α → Prop} {p : Program surroundings α}
    (within : p.Within (fun r => ∀ u, r ≠ .transact (.swap u)) P) (h : R past) :
    Safe (reviewed Named fit node job) (fun _ past _ => R past) p past s :=
  (Safe.learned within (fun noSwap _ => lax noSwap) grows h).mono fun _ _ _ h => h.2

theorem heard_closeRecovered {step : Work.Step} {f : Bool → Procedure Report}
    (pure : ∀ closed, ∃ report, f closed = return report) (h : R past) :
    Safe (reviewed Named fit node job) (fun _ past _ => R past)
      (closeRecovered item step >>= f).run past s := by
  have closes : (closeRecovered item step).run.Within (fun r => ∀ u, r ≠ .transact (.swap u))
      fun _ => True :=
    .andThen (.ask (by rintro _ ⟨⟩))
      (fun now _ => .ask (r := .transact (.recoverItem item.id step now)) (by rintro _ ⟨⟩))
      fun _ _ => trivial
  refine Safe.andThen (Q := fun _ past _ => R past)
    (heard_within lax grows closes h) ?_ fun _ _ _ h => h
  intro closed past s h
  obtain ⟨report, e⟩ := pure closed
  rw [e]
  exact h

variable (settles : Disposes fit node job ctx)
include settles

theorem heard_resolve (listed : ∀ {past}, R past → Listed node item past) (h : R past) :
    Safe (reviewed Named fit node job) (fun _ past _ => R past) (resolve ctx item).run past s := by
  refine Safe.andThen (Q := fun result past s => R past ∧ ∀ vm, result = .ok (some vm) →
      item.vm = vm.id ∧ Recalled vm s) ?_ ?_ fun _ _ _ h => h.1
  · refine Safe.ask (P := fun past _ => R past) (fun _ _ _ _ _ h => h) (fun _ => rfl) h
      fun s h _ => ⟨lax (by rintro _ ⟨⟩), ?_⟩
    rintro _ _ ⟨-, rfl, rfl⟩
    refine ⟨trivial, grows h, fun vm stored => ?_⟩
    have stored : s.store.vm? item.vm = some vm := Except.ok.inj stored
    have named := Store.id_of_vm? stored
    exact ⟨named.symm, recalled_of_vm? (named ▸ stored)⟩
  intro found past s h
  obtain ⟨h, known⟩ := h
  cases found with
  | none =>
    exact heard_closeRecovered lax grows (fun closed => by cases closed <;> exact ⟨_, rfl⟩) h
  | some vm =>
    obtain ⟨about, recalled⟩ := known vm rfl
    refine Safe.ofProgram (settles grows about listed ⟨recalled, h⟩) fun result past s h => ?_
    rcases result with failure | _ | _
    · exact h
    · exact heard_closeRecovered lax grows (fun closed => by cases closed <;> exact ⟨_, rfl⟩) h
    · exact h

theorem heard_visit (listed : ∀ {past}, R past → Listed node item past) (h : R past) :
    Safe (reviewed Named fit node job) (fun _ past _ => R past) (visit ctx item).run past s := by
  have unlocked : ∀ {past s}, R past →
    Safe (reviewed Named fit node job) (fun _ past _ => R past)
      (ask (.unlock (lockName ctx.node item.vm) .plain)).run past s :=
    fun h => heard_within lax grows (.ask (by rintro _ ⟨⟩)) h
  have locked : (lock ctx.node item.vm).run.Within (fun r => ∀ u, r ≠ .transact (.swap u))
      fun _ => True :=
    .andThen (.ask (by rintro _ ⟨⟩))
      (fun granted _ => by cases granted <;> trivial) fun _ _ => trivial
  refine Safe.ofProgram (heard_within lax grows locked h) fun result past s h => ?_
  rcases result with failure | _
  · exact h
  refine Safe.andThen (Q := fun _ past _ => R past) ?_ ?_ fun _ _ _ h => h
  · refine Safe.tryCatch (heard_resolve lax grows settles listed h) (fun _ _ _ h => h)
      fun failure past s h => ?_
    exact Safe.andThen (unlocked h) (fun _ _ _ h => h) fun _ _ _ h => h
  · exact fun report past s h => Safe.andThen (unlocked h) (fun _ _ _ h => h) fun _ _ _ h => h

end

section
variable (lax : Lax fit)
include lax

theorem heard_visitAll (settles : Disposes fit node job ctx) (items : List Item)
    (h : ∀ d ∈ items, Listed node d past) :
    Safe (reviewed Named fit node job) Anyhow (visitAll ctx items).run past s := by
  induction items generalizing past s with
  | nil => trivial
  | cons item items ih =>
    have rest : ∀ {past}, (∀ d ∈ item :: items, Listed node d past) → ∀ d ∈ items,
      Listed node d past :=
      fun h d mem => h d (List.mem_cons_of_mem item mem)
    have visited : Safe (reviewed Named fit node job)
      (fun _ past _ => ∀ d ∈ item :: items, Listed node d past) (visit ctx item).run past s :=
      heard_visit lax (fun h d mem => (h d mem).append) settles
        (fun h => h item List.mem_cons_self) h
    refine Safe.andThen visited (fun report past s h => ?_) fun _ _ _ _ => trivial
    exact Safe.andThen (ih (rest h)) (fun _ _ _ _ => trivial) fun _ _ _ _ => trivial

/-- A scan keeps to what fits if it does so whenever it settles a machine. -/
theorem heard_scan (settles : Disposes fit ctx.node.id job ctx) :
    Safe (reviewed Named fit ctx.node.id job) Anyhow (scan ctx).run past s := by
  refine Safe.andThen (Q := fun result past _ => ∀ items, result = .ok items →
      ∀ d ∈ items, Listed ctx.node.id d past) ?_
    (fun items past s h => heard_visitAll lax settles items (h items rfl)) fun _ _ _ _ => trivial
  refine Safe.ask (P := Anyhow ()) (stable_anyhow ()) (fun _ => rfl) trivial
    fun s _ _ => ⟨lax (by rintro _ ⟨⟩), ?_⟩
  rintro _ _ ⟨-, rfl, rfl⟩
  refine ⟨trivial, ?_⟩
  rintro _ ⟨⟩ d mem
  exact ⟨_, List.mem_append_right _ (List.mem_singleton_self _), rfl, mem⟩

end

section
variable (grows : ∀ {past e}, R past → R (past ++ [e]))
include grows

theorem heard_powerStates {first second : HostId} (h : Knows vm R past s) :
    Safe (hearing node job) (fun powers past s => Knows vm R past s ∧
      (known? powers.1 = some .off → Denied first vm past) ∧
      (known? powers.2 = some .off → Denied second vm past))
      (Agent.powerStates first second vm.token wait) past s := by
  refine Safe.observe trivial (lasting_knows grounded_of_noSwap grows).stable h
    (fun _ h inv => (lasting_knows grounded_of_noSwap grows).fit trivial h inv)
    fun s answers h _ _ => ?_
  refine ⟨⟨h.1, grows h.2⟩, fun off => ?_, fun off => ?_⟩
  · exact ⟨_, List.mem_append_right _ (List.mem_singleton_self _),
      .inl ⟨⟨wait, rfl⟩, eq_of_known? off⟩⟩
  · exact ⟨_, List.mem_append_right _ (List.mem_singleton_self _),
      .inr ⟨⟨wait, rfl⟩, eq_of_known? off⟩⟩

theorem heard_report {event : ControlPlane.Event} {destination : Option HostId}
    (grounds : vm.state.next? event = some .stopped → Grounds node vm past)
    (h : Knows vm R past s) :
    Safe (hearing node job) (fun _ past _ => R past)
      (do report vm event destination; return .resolved : Procedure Decision).run past s := by
  refine Safe.mono (heard_noting (R := fun past => R past ∧
      (vm.state.next? event = some .stopped → Grounds node vm past)) grounded_of_noSwap
    (fun h => ⟨grows h.1, fun stops => (h.2 stops).append⟩) ?_ ⟨h.1, h.2, grounds⟩)
    fun _ _ _ h => h.1
  rintro past s u h notes _ vm' ⟨⟩ stops stored fits
  exact h.1.grounds (notes.subject ▸ stored) (fits.2.trans notes.version)
    (fits.1.trans notes.expected) (h.2.2 (stops ▸ notes.legal))

theorem heard_moveVolumes {moves : List VolumeMove} (h : Knows vm R past s) :
    Safe (hearing node job) (fun _ => Knows vm R)
      (Program.call (I := surroundings) (.transact (.moveVolumes moves))) past s := by
  refine Safe.carry (f := .done) (lasting_knows grounded_of_noSwap grows).stable h
    (fun _ _ _ => grounded_of_noSwap (by rintro _ ⟨⟩)) fun s h _ _ =>
    ⟨trivial, ?_, grows h.2⟩
  have same : ((Transaction.moveVolumes moves).apply s.store).2.vm? vm.id = s.store.vm? vm.id := by
    rw [Transaction.vm?_apply]
    exact Option.map_id'
  exact ⟨fun vm' stored => h.1.seen vm' (same ▸ stored),
    fun vm' stored => h.1.named vm' (same ▸ stored)⟩

theorem heard_settleTransient (h : Knows vm R past s) :
    Safe (hearing node job) (fun _ past _ => R past) (settleTransient ctx vm).run past s := by
  unfold settleTransient
  cases here : vm.host with
  | none => exact h.2
  | some host =>
    refine Safe.ofProgram (heard_powerState grounded_of_noSwap grows h) fun power past s h => ?_
    obtain ⟨h, answer, before, asked, rfl⟩ := h
    split
    · exact heard_report grows (fun stops => nomatch running_of_report stops) h
    next off =>
      have denied : Denied host vm past := ⟨_, asked, ⟨_, rfl⟩, eq_of_known? off⟩
      exact heard_report grows (fun _ => .inl ⟨host, here, denied⟩) h
    · exact h.2

theorem heard_settleMigration {plan : Plan} (from_ : vm.state = .migrating ∨ vm.state = .running)
    (origin : ∀ {past}, R past → ∃ item, Listed node item past ∧ item.vm = vm.id ∧
      item.plan = some plan)
    (h : Knows vm R past s) :
    Safe (hearing node job) (fun _ past _ => R past) (settleMigration ctx vm plan).run past s := by
  refine Safe.ofProgram (heard_powerStates grows h) fun powers past s h => ?_
  obtain ⟨h, source, destination⟩ := h
  have arrived : Safe (hearing node job) (fun _ past _ => R past) (do
      if vm.host = some plan.destination then return .resolved
      if plan.MovesStorage then demand (.transact (.moveVolumes (movesOf plan))) rfl
      report vm .agentReportsRunning (some plan.destination)
      return .resolved : Procedure Decision).run past s := by
    have reported : ∀ past s, Knows vm R past s →
    Safe (hearing node job) (fun _ past _ => R past) (do
        report vm .agentReportsRunning (some plan.destination)
        return .resolved : Procedure Decision).run past s :=
      fun _ _ h => heard_report grows (fun stops => nomatch running_of_report stops) h
    by_cases there : vm.host = some plan.destination
    · simp only [if_pos there]
      exact h.2
    simp only [if_neg there]
    by_cases moves : plan.MovesStorage
    · simp only [if_pos moves]
      exact Safe.andThen (heard_moveVolumes grows h) (fun _ => reported) fun _ _ _ h => h.2
    · simp only [if_neg moves]
      exact reported past s h
  simp only
  split
  · exact arrived
  · exact arrived
  · split
    · exact h.2
    · exact heard_report grows (fun stops => nomatch running_of_report stops) h
  next off off' =>
    obtain ⟨item, listed, about, planned⟩ := origin h.2
    exact heard_report grows (fun _ => .inr ⟨from_.symm, item, plan, listed, about, planned,
      source off, destination off'⟩) h
  · exact h.2

theorem heard_settle (about : item.vm = vm.id)
    (listed : ∀ {past}, R past → Listed node item past) (h : Knows vm R past s) :
    Safe (hearing node job) (fun _ past _ => R past) (settle ctx item vm).run past s := by
  have origin : ∀ {plan past}, item.plan = some plan → R past →
      ∃ item, Listed node item past ∧ item.vm = vm.id ∧ item.plan = some plan :=
    fun planned h => ⟨item, listed h, about, planned⟩
  unfold settle
  split
  next planned state => exact heard_settleMigration grows (.inl state) (origin planned) h
  next planned state => exact heard_settleMigration grows (.inr state) (origin planned) h
  · exact heard_settleTransient grows h
  · exact heard_settleTransient grows h
  · exact heard_settleTransient grows h
  · exact h.2

end

variable {sys sys' : System Duty (Except Failure Unit)} {j : Job Duty (Except Failure Unit)}

theorem Named.refl (s : Shared) : Named s s := fun _ vm stored => ⟨vm, stored, rfl⟩

theorem Named.trans {a b c : Shared} (h : Named a b) (h' : Named b c) : Named a c := by
  intro v vm'' stored''
  obtain ⟨vm', stored', token'⟩ := h' v vm'' stored''
  obtain ⟨vm, stored, token⟩ := h v vm' stored'
  exact ⟨vm, stored, token'.trans token⟩

theorem named_of_move (move : Move duties sys sys') : Named sys.shared sys'.shared := by
  cases move with
  | crash node => exact .refl sys.shared
  | step step =>
    rcases step.advances with ⟨task, rfl⟩ | ⟨_, _, advance⟩
    · exact .refl sys.shared
    · intro v vm' stored
      rcases advance.store with same | ⟨t, -, -, -, same⟩
      · exact ⟨vm', same ▸ stored, rfl⟩
      · rw [same, Transaction.vm?_apply] at stored
        obtain ⟨vm, here, rfl⟩ := Option.map_eq_some_iff.1 stored
        exact ⟨vm, here, t.onVm_token vm⟩

theorem named_of_reaches (reached : Reaches duties sys sys') : Named sys.shared sys'.shared := by
  induction reached with
  | refl => exact .refl sys.shared
  | tail _ move ih => exact ih.trans (named_of_move move)

theorem scans_hear {store : Store} (orderly : Orderly store)
    (reached : Reaches duties (.start store) sys) (mem : j ∈ sys.jobs)
    (scans : j.task = .scan ctx) :
    Adheres (hearing ctx.node.id j.number) Anyhow j sys.shared := by
  induction reached generalizing j with
  | refl => cases mem
  | @tail sys sys' reached move ih =>
    have kept := (Kept.start orderly).reaches reached
    have kept' := kept.move move
    rcases move.adheres mem with ⟨task, rfl, rfl⟩ | ⟨j₀, mem₀, number, task, adheres⟩
    · cases scans
      refine ⟨fun _ => ?_, nofun⟩
      exact Safe.andThen (heard_scan grounded_of_noSwap fun grows => heard_settle grows)
        (fun _ _ _ _ => trivial) fun _ _ _ _ => trivial
    · rw [← number]
      refine adheres number stable_anyhow kept.coherent kept'.coherent (fun mem₁ => ?_)
        (ih mem₀ (task.trans scans))
      have passes := kept.passes move mem₁ mem
      rw [← number, scans] at passes
      exact .single ⟨passes, named_of_move move⟩

/-- Whenever a scan is about to record that a machine has stopped, the recorded host has denied the
machine in that scan; or the machine was running or migrating, and both hosts in the plan of an item
of the machine that the scan has listed have denied it. -/
theorem stops_on_denial {store : Store} (orderly : Orderly store)
    (reached : Reaches duties (.start store) sys) (mem : j ∈ sys.jobs)
    (scans : j.task = .scan ctx) (waits : j.waits = true) {u : StateUpdate}
    {rest : (Transaction.swap u).Reply → Program surroundings (Except Failure Unit)}
    (asks : j.program = .ask (.transact (.swap u)) rest) (stops : u.state = .stopped)
    (stored : sys.shared.store.vm? u.vm = some vm) (fits : u.Matches vm) :
    Grounds ctx.node.id vm j.past := by
  have kept := (Kept.start orderly).reaches reached
  have fit := (scans_hear orderly reached mem scans).fit kept.coherent waits asks
  exact fit u vm rfl stops stored fits

/-- A migration that is to take the machine from a host on which it does not run. Its process ends
before the plan is checked. -/
def misplanned : List (Turn Duty) :=
  .launch (.operate trial (.migrate ⟨⟨1⟩, ⟨6⟩, ⟨7⟩, ∅⟩)) :: advance 0 7
    (obedient ⟨0, 1⟩)

def surveyed : List (Turn Duty) := .launch (.scan trial) :: advance 1 6 vacant ++ [.make 1]

/-- The machine runs on the first host. The scan is about to record that it has stopped, and has
never asked that host. -/
theorem unasked_host_is_overruled :
    ∃ sys job u rest vm, Reaches duties (.start onFirst) sys ∧ job ∈ sys.jobs ∧
      job.program = .ask (.transact (.swap u)) rest ∧ u.state = .stopped ∧
      sys.shared.store.vm? u.vm = some vm ∧ u.Matches vm ∧ vm.state = .running ∧
      vm.host = some ⟨5⟩ ∧ ¬ Denied ⟨5⟩ vm job.past ∧ Grounds ⟨1⟩ vm job.past := by
  have orderly : Orderly onFirst := orderly_of_rest fun _ _ stored =>
    (by decide : ∀ vm ∈ onFirst.vms.rows, ¬ vm.state.InMotion) _ (Table.mem_of_get? stored)
  have leads : ((play? duties (.start onFirst) misplanned).any fun sys =>
      (play? duties (sys.crash duties ⟨1⟩) surveyed).any fun sys =>
        sys.jobs.any fun job => (stops? job).any fun u => (sys.shared.store.vm? u.vm).any fun vm =>
          u.Matches vm ∧ vm.state = .running ∧ vm.host = some ⟨5⟩ ∧
            job.past.all fun e => ¬ e.request.addresses ⟨5⟩) = true := by decide +kernel
  obtain ⟨before, played, leads⟩ := (Option.any_eq_true ..).1 leads
  obtain ⟨sys, played', leads⟩ := (Option.any_eq_true ..).1 leads
  obtain ⟨job, mem, leads⟩ := List.any_eq_true.1 leads
  obtain ⟨u, stops, leads⟩ := (Option.any_eq_true ..).1 leads
  obtain ⟨vm, stored, leads⟩ := (Option.any_eq_true ..).1 leads
  simp only [List.all_eq_true, decide_eq_true_eq] at leads
  obtain ⟨fits, runs, here, unasked⟩ := leads
  obtain ⟨scans, waits, stopped, rest, asks⟩ := program_of_stops? stops
  have reached : Reaches duties (.start onFirst) sys :=
    ((runs_of_play? played).reaches.tail (.crash ⟨1⟩)).trans (runs_of_play? played').reaches
  refine ⟨sys, job, u, rest, vm, reached, mem, asks, stopped, stored, fits, runs, here, ?_,
    stops_on_denial orderly reached mem scans waits asks stopped stored fits⟩
  rintro ⟨e, past, denies⟩
  exact unasked e past denies.addresses

end Concurrent
end ControlPlane
