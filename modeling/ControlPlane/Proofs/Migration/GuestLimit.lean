import ControlPlane.Proofs.Concurrent.ControlPlaneJobs
import ControlPlane.Proofs.Concurrent.RecordedAnswers
import ControlPlane.Proofs.Concurrent.Schedule
import ControlPlane.Proofs.Concurrent.StaleReads
import ControlPlane.Proofs.Operation.OutwardRequests
import ControlPlane.Proofs.Transition.MachineHistory
import ControlPlane.Simulation.Sample
import Mathlib.Data.List.Perm.Subperm

/-!
# How many machines a host takes

A migration counts the guests of its destination before it begins, and brings its machine there at
its end. Nothing is reserved in between. So a host can take more machines than it should, but only
as many as have come there while another one was on its way.
-/

namespace ControlPlane

namespace Store
variable {s s' : Store} {v : VmId} {h : HostId}

def guests (s : Store) (h : HostId) : List VmId := (s.vms.rows.filter (·.On h)).map (·.id)

theorem length_guests (s : Store) (h : HostId) : (s.guests h).length = s.guestsOn h :=
  List.length_map _

theorem nodup_guests (s : Store) (h : HostId) : (s.guests h).Nodup := by
  have distinct : s.vms.rows.Pairwise (·.id ≠ ·.id) :=
    s.vms.ascending.imp fun less e => Nat.ne_of_lt less (congrArg Id.key e)
  exact List.pairwise_map.2 (distinct.filter _)

theorem mem_guests : v ∈ s.guests h ↔ ∃ vm, s.vm? v = some vm ∧ vm.On h := by
  constructor
  · intro mem
    obtain ⟨vm, here, rfl⟩ := List.mem_map.1 mem
    obtain ⟨stored, on⟩ := List.mem_filter.1 here
    exact ⟨vm, Table.get?_of_mem stored, of_decide_eq_true on⟩
  · rintro ⟨vm, stored, on⟩
    rw [← id_of_vm? stored]
    exact List.mem_map_of_mem (List.mem_filter.2 ⟨Table.mem_of_get? stored, decide_eq_true on⟩)

theorem guestsOn_le {l : List VmId} (among : s.guests h ⊆ l) : s.guestsOn h ≤ l.length :=
  s.length_guests h ▸ ((s.nodup_guests h).subperm among).length_le

end Store

/-- The machines that have come to a host between two times, other than a given one. -/
def newcomers (v : VmId) (h : HostId) (counted arrived : Store) : List VmId :=
  (arrived.guests h).filter fun w => w != v && !(counted.guests h).contains w

namespace Concurrent
open Control Operation Procedure Migration

def migrations : Workload (Context × Migration.Request) (Except Failure Vm) where
  program task := (migrate task.1 task.2).run
  node task := task.1.node.id

def Roomy (hosts : Table Host) (h : HostId) (past : List Exchange) : Prop :=
  ∃ e ∈ past, e.request = .transact (.guestsOn h) ∧
    ∃ host, hosts.get? h.key = some host ∧ e.before.guestsOn h < host.maxGuests.toNat

/-- Why a record is swapped: the machine stays where it was seen, or it comes to a host that had
room. -/
inductive Founded (hosts : Table Host) (past : List Exchange) (u : StateUpdate) : Prop
  | stays (e : Exchange) (mem : e ∈ past) (w : Vm) (read : e.before.vm? u.vm = some w)
      (version : w.version = u.expectedVersion) (host : u.host = w.host)
      (holds : u.expectedState.HoldsHost)
  | comes (h : HostId) (host : u.host = some h) (roomy : Roomy hosts h past)

abbrev lodging (hosts : Table Host) (job : Nat) : Contract :=
  minding (fun s => s.store.hosts = hosts)
    (fun past r => ∀ u, r = .transact (.swap u) → Founded hosts past u) job

def Sedentary (r : Control.Request) : Prop := ∀ u, r ≠ .transact (.swap u)

variable {hosts : Table Host} {h : HostId} {job : Nat} {past : List Exchange} {s : Shared}
  {p : Plan} {ctx : Context} {vm : Vm} {targets : List Agent.VolumeTarget} {α : Type}

theorem Roomy.append (roomy : Roomy hosts h past) (e : Exchange) : Roomy hosts h (past ++ [e]) := by
  obtain ⟨counted, mem, rest⟩ := roomy
  exact ⟨counted, List.mem_append_left _ mem, rest⟩

theorem sedentary_of_silent {r : Control.Request} (silent : r.Silent) : Sedentary r := by
  rintro u rfl
  exact silent.1

theorem sedentary_of_clerical {r : Control.Request} (clerical : r.Clerical) : Sedentary r := by
  rintro u rfl
  exact clerical

theorem sedentary_send {e : Agent.Envelope} : Sedentary (.send e) := by rintro _ ⟨⟩

theorem sedentary_sendBoth {first second : Agent.Envelope} :
    Sedentary (.sendBoth first second) := by
  rintro _ ⟨⟩

theorem lodged_within {P : α → Prop} {q : Program surroundings α}
    (within : q.Within Sedentary P) :
    Safe (lodging hosts job) (fun a _ _ => P a) q past s :=
  (Safe.minds (R := fun _ => True) within (fun kind _ u same => absurd same (kind u))
    (fun _ _ => trivial) trivial).mono fun _ _ _ h => h.1

theorem roomy_within {P : α → Prop} {q : Program surroundings α} (within : q.Within Sedentary P)
    (roomy : Roomy hosts h past) :
    Safe (lodging hosts job) (fun a past _ => P a ∧ Roomy hosts h past) q past s :=
  Safe.minds within (fun kind _ u same => absurd same (kind u))
    (fun _ roomy => roomy.append _) roomy

theorem roomy_run {t : Transition} (roomy : Roomy hosts h past)
    (founded : ∀ {past e w u}, Roomy hosts h past → e ∈ past →
      e.before.vm? t.vm = some w → t.check w = .ok u → Founded hosts past u) :
    Safe (lodging hosts job) (fun _ past _ => Roomy hosts h past) t.run.run past s := by
  rw [Transition.run_eq]
  refine Safe.observe (P := fun past _ => Roomy hosts h past) trivial stable_minding roomy
    (fun _ _ _ _ e => by cases e) fun s found roomy _ answers => ?_
  replace roomy := roomy.append ⟨.transact (.vm t.vm), found, s.store⟩
  cases found with
  | none => exact roomy
  | some w =>
    have read : s.store.vm? t.vm = some w := answers.2.1.symm
    simp only [Transition.afterRead]
    cases checked : t.check w with
    | error failure => exact roomy
    | ok u =>
      refine Safe.observe (P := fun past _ => Roomy hosts h past ∧
          (⟨.transact (.vm t.vm), some w, s.store⟩ : Exchange) ∈ past) trivial stable_minding
        ⟨roomy, List.mem_append_right _ (List.mem_singleton.2 rfl)⟩
        (fun _ _ _ _ e => by cases e) fun s' passed known _ _ => ?_
      obtain ⟨roomy, mem⟩ := known
      replace roomy := roomy.append ⟨.pass .beforeSwap, passed, s'.store⟩
      cases passed with
      | error failure => exact roomy
      | ok _ =>
        refine Safe.carry (P := fun past _ => Roomy hosts h past ∧
            (⟨.transact (.vm t.vm), some w, s.store⟩ : Exchange) ∈ past) stable_minding
          ⟨roomy, List.mem_append_left _ mem⟩ ?_ fun s'' known _ _ => ⟨trivial, ?_⟩
        · rintro _ ⟨roomy, mem⟩ _ _ ⟨⟩
          exact founded roomy mem read checked
        · have roomy := fun reply => known.1.append ⟨.transact (.swap u), reply, s''.store⟩
          simp only [Transaction.apply]
          rcases (s''.store.swap u).1 with failure | _ | written <;> exact roomy _

theorem founded_of_leaving {t : Transition} {e : Exchange} {w : Vm} {u : StateUpdate}
    (mem : e ∈ past) (read : e.before.vm? t.vm = some w) (checked : t.check w = .ok u)
    (running : t.expected = .running) (leaving : t.event = .migrationRequested)
    (host : t.host = none) : Founded hosts past u := by
  obtain ⟨next, legal, -, -, hosted, same⟩ := Transition.check_ok checked
  rw [running, leaving] at legal
  cases legal
  have kept := (Transition.hosts_ok hosted).1
  rw [host, if_pos (by decide), Option.none_or] at kept
  have holds : State.running.HoldsHost := by decide
  rw [same]
  exact .stays e mem w read rfl kept (running ▸ holds)

theorem founded_of_arriving {t : Transition} {w : Vm} {u : StateUpdate} (roomy : Roomy hosts h past)
    (checked : t.check w = .ok u) (migrating : t.expected = .migrating)
    (arriving : t.event = .operationSucceeded) (host : t.host = some h) : Founded hosts past u := by
  obtain ⟨next, legal, -, -, hosted, -⟩ := Transition.check_ok checked
  rw [migrating, arriving] at legal
  cases legal
  have taken := (Transition.hosts_ok hosted).1
  rw [host, if_pos (by decide), Option.some_or] at taken
  exact .comes h taken roomy

/-- The machine leaves with the host that it was read on, and arrives where there was room. -/
theorem lodged_record {moves : List VolumeMove} (roomy : Roomy hosts p.destination past) :
    Safe (lodging hosts job) Anyhow (record vm p moves).run past s := by
  have leave : ∀ {past s}, Roomy hosts p.destination past →
      Safe (lodging hosts job) (fun _ past _ => Roomy hosts p.destination past)
        (Transition.run { vm := vm.id, expected := .running, event := .migrationRequested
                          version := some vm.version }).run past s :=
    fun roomy => roomy_run roomy fun _ mem read checked =>
    founded_of_leaving mem read checked rfl rfl rfl
  have arrive : ∀ {past s}, Roomy hosts p.destination past →
      Safe (lodging hosts job) Anyhow
        (Transition.run { vm := vm.id, expected := .migrating, event := .operationSucceeded
                          host := some p.destination }).run past s := fun roomy =>
    (roomy_run roomy fun roomy _ _ checked => founded_of_arriving roomy checked rfl rfl rfl).mono
      fun _ _ _ _ => trivial
  have both : ∀ {past s}, Roomy hosts p.destination past → Safe (lodging hosts job) Anyhow
      (record vm p []).run past s := fun roomy =>
    Safe.andThen (leave roomy) (fun _ _ _ roomy => arrive roomy) fun _ _ _ _ => trivial
  cases moves with
  | nil => exact both roomy
  | cons move moves =>
    have moving : Sedentary (.transact (.moveVolumes (move :: moves))) := by rintro _ ⟨⟩
    refine Safe.andThen (roomy_within (.demand moving) roomy) (fun _ past s roomy => ?_)
      fun _ _ _ _ => trivial
    exact both roomy.2

theorem roomy_check : Safe (lodging hosts job)
    (fun result past _ => ∀ pair, result = .ok pair → Roomy hosts p.destination past)
    (check p).run past s := by
  have quiet : ∀ r : Control.Request, r.Silent → Sedentary r := fun _ => sedentary_of_silent
  refine Safe.andThen
    (lodged_within ((loadVm_within p.vm ⟨trivial, id⟩).mono quiet fun _ h => h)) ?_
    fun _ _ _ _ => by rintro _ ⟨⟩
  intro vm past s _
  refine Safe.ofExcept (fun _ _ => ?_) fun _ _ => by rintro _ ⟨⟩
  refine Safe.ofExcept (fun _ _ => ?_) fun _ _ => by rintro _ ⟨⟩
  refine Safe.andThen (lodged_within (.demand (quiet _ ⟨trivial, id⟩))) ?_ fun _ _ _ _ => by
    rintro _ ⟨⟩
  intro pending past s _
  cases pending
  case true => rintro _ ⟨⟩
  refine Safe.andThen (Q := fun result _ _ => ∀ destination, result = .ok destination →
    hosts.get? p.destination.key = some destination) ?_ ?_ fun _ _ _ _ => by rintro _ ⟨⟩
  · refine Safe.andThen (Q := fun result _ _ => ∀ found, result = .ok found →
      hosts.get? p.destination.key = found)
        (Safe.ask (P := fun _ _ => True) stable_minding (fun _ => rfl)
          trivial fun s _ same => ⟨fun _ e => (by cases e), ?_⟩) ?_
            fun _ _ _ _ => by rintro _ ⟨⟩
    · rintro _ _ ⟨-, rfl, rfl⟩
      refine ⟨trivial, ?_⟩
      rintro _ ⟨⟩
      exact congrArg (Table.get? · p.destination.key) same.symm
    · intro found past s known
      cases found with
      | none => rintro _ ⟨⟩
      | some destination =>
        rintro _ ⟨⟩
        exact known _ rfl
  intro destination past s known
  have known := known destination rfl
  have named : destination.id = p.destination := Id.key_injective (Table.key_of_get? known)
  refine Safe.andThen (lodged_within (.ask (quiet _ ⟨trivial, id⟩)))
    (fun volumes past s _ => ?_) fun _ _ _ _ => by rintro _ ⟨⟩
  refine Safe.andThen
    (lodged_within ((targets_within p destination volumes).mono quiet fun _ h => h))
    (fun targets past s _ => ?_) fun _ _ _ _ => by rintro _ ⟨⟩
  split
  · rintro _ ⟨⟩
  refine Safe.andThen (lodged_within (.ask (quiet _ ⟨trivial, id⟩)))
    (fun connected past s _ => ?_) fun _ _ _ _ => by rintro _ ⟨⟩
  refine Safe.andThen (Q := fun result past _ => ∀ n, result = .ok n →
    ∃ e ∈ past, e.request = .transact (.guestsOn destination.id) ∧
    e.before.guestsOn destination.id = n)
    (Safe.ask (P := fun _ _ => True) stable_minding (fun _ => rfl) trivial fun s _ _ =>
      ⟨fun _ e => (by cases e), ?_⟩) ?_
    fun _ _ _ _ => by rintro _ ⟨⟩
  · rintro _ _ ⟨-, rfl, rfl⟩
    refine ⟨trivial, ?_⟩
    rintro _ ⟨⟩
    exact ⟨_, List.mem_append_right _ (List.mem_singleton.2 rfl), rfl, rfl⟩
  intro guests past s counted
  obtain ⟨e, mem, asked, counted⟩ := counted guests rfl
  refine Safe.ofExcept (fun _ passed => ?_) fun _ _ => by rintro _ ⟨⟩
  rintro _ ⟨⟩
  have room : guests < destination.maxGuests.toNat := by
    simp only [checkDestination] at passed
    split at passed
    · cases passed
    split at passed
    · cases passed
    split at passed
    · cases passed
    split at passed
    · cases passed
    next room => exact Nat.lt_of_not_le room
  rw [named] at asked counted
  exact ⟨e, mem, asked, destination, known, counted ▸ room⟩

theorem lodged_compute (roomy : Roomy hosts p.destination past) :
    Safe (lodging hosts job) Anyhow (compute ctx vm p).run past s := by
  have asks : (sendAway ctx vm p).Within Sedentary fun _ => True := 
    sendAway_asks sedentary_send fun _ => sedentary_send
  refine Safe.ofProgram (roomy_within asks roomy) fun landing past s roomy => ?_
  cases landing with
  | moved => exact Safe.adapt ((lodged_record roomy.2).mono fun _ _ _ _ => trivial)
  | notMoved failure => trivial
  | unknown failure => trivial

theorem lodged_withinCluster (roomy : Roomy hosts p.destination past) :
    Safe (lodging hosts job) Anyhow (withinCluster ctx vm p targets).run past s := by
  have records : ∀ {past s moves}, Roomy hosts p.destination past →
      Safe (lodging hosts job) Anyhow (resolving (record vm p moves)).run past s :=
    fun roomy => Safe.adapt ((lodged_record roomy).mono fun _ _ _ _ => trivial)
  refine Safe.ofProgram (roomy_within (Agent.dispatch_asks sedentary_send) roomy)
    fun reported past s roomy => ?_
  cases reported with
  | ok reported => exact records roomy.2
  | error failure =>
    simp only
    split
    · refine Safe.ofProgram (roomy_within (Agent.powerStates_asks sedentary_sendBoth) roomy.2)
        fun powers past s roomy => ?_
      split
      · exact records roomy.2
      · trivial
      · trivial
    · trivial

theorem lodged_acrossClusters (roomy : Roomy hosts p.destination past) :
    Safe (lodging hosts job) Anyhow (acrossClusters ctx vm p targets).run past s := by
  refine Safe.adapted (roomy_within (Agent.dispatch_asks sedentary_send) roomy)
    (fun rendezvous past s roomy => ?_) fun _ _ _ _ => trivial
  refine Safe.andThen
    (roomy_within (send_asks sedentary_send sedentary_send sedentary_send) roomy.2)
    (fun _ past s roomy => ?_) fun _ _ _ _ => trivial
  refine Safe.adapted (roomy_within (.demand (sedentary_of_silent ⟨trivial, id⟩)) roomy.2)
    (fun _ past s roomy => ?_) fun _ _ _ _ => trivial
  refine Safe.ofProgram (roomy_within (Agent.dispatch_asks sedentary_send) roomy.2)
    fun reported past s roomy => ?_
  cases reported with
  | ok reported => exact Safe.adapt ((lodged_record roomy.2).mono fun _ _ _ _ => trivial)
  | error failure =>
    exact Safe.ofProgram (lodged_within (split_asks sedentary_sendBoth)) fun _ _ _ _ => trivial

theorem lodged_migrate {request : Migration.Request} :
    Safe (lodging hosts job) Anyhow (migrate ctx request).run past s := by
  have clerical : ∀ r : Control.Request, r.Clerical → Sedentary r :=
    fun _ => sedentary_of_clerical
  refine Safe.andThen
    (lodged_within ((plan_within request).mono (fun _ => sedentary_of_silent) fun _ h => h))
    (fun p past s _ => ?_) fun _ _ _ _ => trivial
  refine Safe.andThen (lodged_within ((start_within ..).mono clerical fun _ h => h))
    (fun item past s _ => ?_) fun _ _ _ _ => trivial
  refine Safe.ofProgram (Q := Anyhow) ?_ fun ending past s _ =>
    (lodged_within (settle_asks clerical fun _ _ => by rintro _ ⟨⟩)).mono fun _ _ _ _ => trivial
  refine Safe.adapted roomy_check (fun pair past s roomy => ?_) fun _ _ _ _ => trivial
  obtain ⟨vm, targets⟩ := pair
  replace roomy := roomy _ rfl
  simp only
  split
  · exact lodged_compute roomy
  · split
    · exact lodged_acrossClusters roomy
    · exact lodged_withinCluster roomy

/-- A machine was brought to a host that had room when its guests were counted, and others have come
there in between. -/
def Brought (limit : Nat) (h : HostId) (past : List Exchange) (others : List VmId) : Prop :=
  ∃ before counted middle u written arrived after,
    past = before ++ counted ::
    (middle ++ ⟨.transact (.swap u), .ok (some written), arrived⟩ :: after) ∧
      counted.request = .transact (.guestsOn h) ∧ counted.before.guestsOn h < limit ∧
      u.host = some h ∧ others = newcomers u.vm h counted.before arrived

theorem Brought.append {limit : Nat} {others : List VmId} (brought : Brought limit h past others)
    (e : Exchange) : Brought limit h (past ++ [e]) others := by
  obtain ⟨before, counted, middle, u, written, arrived, after, rfl, rest⟩ := brought
  exact ⟨before, counted, middle, u, written, arrived, after ++ [e], by simp, rest⟩

section
variable {a : Store} {t : Transaction} {u : StateUpdate} {v : VmId}

/-- A machine that is new on a host was brought there by an update. -/
theorem guests_apply (mem : v ∈ (t.apply a).2.guests h) : v ∈ a.guests h ∨
    ∃ u vm, t = .swap u ∧ u.vm = v ∧ a.vm? v = some vm ∧ u.Matches vm ∧
      u.host = some h := by
  obtain ⟨vm', stored', on⟩ := Store.mem_guests.1 mem
  rw [Transaction.vm?_apply] at stored'
  obtain ⟨vm, stored, rfl⟩ := Option.map_eq_some_iff.1 stored'
  rcases t.onVm_course vm with same | ⟨u, rfl, subject, fits, written⟩
  · have state : (t.onVm vm).state = vm.state := congrArg Course.state same
    have host : (t.onVm vm).host = vm.host := congrArg Course.host same
    exact .inl (Store.mem_guests.2 ⟨vm, stored, state ▸ on.1, host ▸ on.2⟩)
  · rw [written] at on
    exact .inr ⟨u, vm, rfl, subject.trans (Store.id_of_vm? stored), stored, fits, on.2⟩

theorem guestsOn_swap_le (counted : Store) : ((Transaction.swap u).apply a).2.guestsOn h ≤
    counted.guestsOn h + (newcomers u.vm h counted a).length + 1 := by
  have among : ((Transaction.swap u).apply a).2.guests h ⊆
      u.vm :: (counted.guests h ++ newcomers u.vm h counted a) := by
    intro w mem
    by_cases own : w = u.vm
    · exact List.mem_cons.2 (.inl own)
    · refine List.mem_cons_of_mem _ (List.mem_append.2 ?_)
      rcases guests_apply mem with there | ⟨u', vm, e, subject, -⟩
      · by_cases already : w ∈ counted.guests h
        · exact .inl already
        · have new : (w != u.vm && !(counted.guests h).contains w) = true := by simp [own, already]
          exact .inr (List.mem_filter.2 ⟨there, new⟩)
      · cases e
        exact absurd subject.symm own
  have bound := Store.guestsOn_le among
  rwa [List.length_cons, List.length_append, Store.length_guests] at bound

/-- A machine that is about to come to a host was read elsewhere, so the host had room. -/
theorem roomy_of_founded (founded : Founded hosts past u) (since : ∀ e ∈ past, e.before.Since a)
    (stored : a.vm? u.vm = some vm) (fits : u.Matches vm) (goal : u.host = some h)
    (new : u.vm ∉ a.guests h) : Roomy hosts h past := by
  cases founded with
  | comes h' host roomy =>
    rw [goal] at host
    cases host
    exact roomy
  | stays e mem w read version host holds =>
    obtain ⟨vm', stored', since⟩ := since e mem u.vm w read
    rw [stored] at stored'
    cases stored'
    have same : vm.course = w.course := since.course_eq (fits.2.trans version.symm)
    have here : vm.host = some h := (congrArg Course.host same).trans (host.symm.trans goal)
    exact absurd (Store.mem_guests.2 ⟨vm, stored, fits.1 ▸ holds, here⟩) new

end

/-- No host has more guests than it should, but for those that came while another one was on its
way. -/
def Bearable (hosts : Table Host)
    (sys : System (Context × Migration.Request) (Except Failure Vm)) : Prop :=
  ∀ h host, hosts.get? h.key = some host →
    sys.shared.store.guestsOn h ≤ host.maxGuests.toNat ∨
      ∃ job ∈ sys.jobs, ∃ others, Brought host.maxGuests.toNat h job.past others ∧
        sys.shared.store.guestsOn h ≤ host.maxGuests.toNat + others.length

variable {store : Store} {sys sys' : System (Context × Migration.Request) (Except Failure Vm)}

theorem fit_of_reaches (reached : Reaches migrations (.start store) sys)
    {job : Job (Context × Migration.Request) (Except Failure Vm)} (mem : job ∈ sys.jobs)
    (waits : job.waits = true) {r : Control.Request}
    {rest : r.Reply → Program surroundings (Except Failure Vm)}
    (asks : job.program = .ask r rest) :
    ∀ u, r = .transact (.swap u) → Founded store.hosts job.past u := by
  have inv : ∀ {sys}, Reaches migrations (.start store) sys →
    sys.shared.store.hosts = store.hosts :=
    fun reached => hosts_of_reaches reached
  have adheres := minds_of_reaches inv (fun _ _ => lodged_migrate) reached mem
  exact adheres.fit (inv reached) waits asks

theorem Bearable.step (bearable : Bearable store.hosts sys)
    (reached : Reaches migrations (.start store) sys) (step : Step migrations sys sys') :
    Bearable store.hosts sys' := by
  cases step with
  | launch _ task =>
    intro h host known
    rcases bearable h host known with within | ⟨job, mem, brought⟩
    · exact .inl within
    · exact .inr ⟨job, List.mem_cons_of_mem _ mem, brought⟩
  | make s before after k mover asks idle =>
    intro h host known
    rw [store_enter]
    rcases bearable h host known with within | ⟨job, mem, brought⟩
    · exact .inl within
    · right
      by_cases here : job = mover
      · exact ⟨_, List.mem_append_right _ List.mem_cons_self, here ▸ brought⟩
      · exact ⟨job, mem_replaced_of_ne mem here, brought⟩
  | @answer s s' before after k mover r rest reply asks waits answers =>
    intro h host known
    have there : mover ∈ before ++ mover :: after := List.mem_append_right _ List.mem_cons_self
    by_cases among : s'.store.guests h ⊆ s.store.guests h
    · -- Nobody has come, and what jobs remember only grows.
      have fewer : s'.store.guestsOn h ≤ s.store.guestsOn h := by
        rw [← s.store.length_guests]
        exact Store.guestsOn_le among
      rcases bearable h host known with within | ⟨job, mem, others, brought, bound⟩
      · exact .inl (Nat.le_trans fewer within)
      · right
        by_cases here : job = mover
        · exact ⟨_, List.mem_append_right _ List.mem_cons_self, others,
            (here ▸ brought).append _, Nat.le_trans fewer bound⟩
        · exact ⟨job, mem_replaced_of_ne mem here, others, brought, Nat.le_trans fewer bound⟩
    · right
      obtain ⟨v, come, new⟩ : ∃ v ∈ s'.store.guests h, v ∉ s.store.guests h := by
        simpa only [List.subset_def, not_forall, exists_prop] using among
      rcases Shared.store_of_answers answers with same | ⟨t, rfl, same⟩
      · exact absurd (same ▸ come) new
      rw [same] at come
      obtain ⟨u, vm, rfl, rfl, stored, fits, goal⟩ := (guests_apply come).resolve_left new
      have founded := fit_of_reaches reached there waits asks u rfl
      obtain ⟨counted, mem, asked, host', known', room⟩ :=
        roomy_of_founded founded (past_since reached mover there) stored fits goal new
      rw [known] at known'
      cases known'
      obtain ⟨earlier, middle, split⟩ := List.append_of_mem mem
      have written : reply = .ok (some (u.apply vm)) := by
        rw [answers.2.1]
        simp only [Transaction.apply, Store.swap_matching stored fits]
      refine ⟨_, List.mem_append_right _ List.mem_cons_self,
        newcomers u.vm h counted.before s.store,
        ⟨earlier, counted, middle, u, u.apply vm, s.store, [], ?_, asked,
          room, goal, rfl⟩, ?_⟩
      · simp only [Job.resume, split, written, List.append_assoc, List.cons_append]
      · rw [same]
        have bound := guestsOn_swap_le (a := s.store) (u := u) (h := h) counted.before
        omega

/-- However migrations overlap, a host that has more guests than it should has them because of a
migration that counted its guests and was overtaken: since then, and before its own machine arrived,
at least as many others have come. -/
theorem excess_guests_have_overtaken
    (within : ∀ h host, store.host? h = some host → store.guestsOn h ≤ host.maxGuests.toNat)
    (run : Runs migrations (.start store) sys) {h : HostId} {host : Host}
    (known : sys.shared.store.host? h = some host) :
    sys.shared.store.guestsOn h ≤ host.maxGuests.toNat ∨
      ∃ job ∈ sys.jobs, ∃ others, Brought host.maxGuests.toNat h job.past others ∧
        sys.shared.store.guestsOn h ≤ host.maxGuests.toNat + others.length := by
  have bearable : Bearable store.hosts sys := by
    clear known
    induction run with
    | refl => exact fun h host known => .inl (within h host known)
    | tail run step ih => exact ih.step (Runs.reaches run) step
  refine bearable h host ?_
  rw [← hosts_of_reaches run.reaches]
  exact known

def onePlace : Store where
  vms := .ofList
    [{ Vm.register ⟨1⟩ "i-1" "first" ⟨1⟩ ⟨1⟩ with
      state := .running, host := some ⟨5⟩ },
     { Vm.register ⟨2⟩ "i-2" "second" ⟨1⟩ ⟨1⟩ with
       state := .running, host := some ⟨6⟩ }]
  hosts := .ofList [Simulation.Sample.host ⟨5⟩ ⟨1⟩, Simulation.Sample.host ⟨6⟩ ⟨1⟩,
    { Simulation.Sample.host ⟨7⟩ ⟨1⟩ with maxGuests := 1 }]

theorem onePlace_within (h : HostId) (host : Host) (known : onePlace.host? h = some host) :
    onePlace.guestsOn h ≤ host.maxGuests.toNat := by
  have all : ∀ host ∈ onePlace.hosts.rows, onePlace.guestsOn host.id ≤
    host.maxGuests.toNat := by decide
  have named : host.id = h := Id.key_injective (Table.key_of_get? known)
  exact named ▸ all host (Table.mem_of_get? known)

/-- Both machines are sent to the third host, and both migrations count before either machine
arrives. -/
def twoArrivals : List (Turn (Context × Migration.Request)) :=
  [.launch (trial, ⟨⟨1⟩, ⟨5⟩, ⟨7⟩, ∅⟩),
    .launch (trial, ⟨⟨2⟩, ⟨6⟩, ⟨7⟩, ∅⟩)] ++
    advance 0 13 (.smooth ⟨0, 1⟩ default fun _ => .ok (.success [])) ++
    advance 1 23 (.smooth ⟨0, 2⟩ default fun _ => .ok (.success [])) ++
    advance 0 10 (.smooth ⟨0, 1⟩ default fun _ => .ok (.success []))

def Delivered (h : HostId) (job : Job (Context × Migration.Request) (Except Failure Vm)) : Prop :=
  ∃ vm, job.program = .done (.ok vm) ∧ vm.host = some h

instance (h : HostId) (job : Job (Context × Migration.Request) (Except Failure Vm)) :
    Decidable (Delivered h job) :=
  match e : job.program with
  | .done (.ok vm) =>
    decidable_of_iff (vm.host = some h)
      ⟨fun here => ⟨vm, e, here⟩, fun ⟨_, e', here⟩ => by
        cases e.symm.trans e'; exact here⟩
  | .done (.error _) | .ask _ _ => isFalse fun ⟨_, e', _⟩ => by cases e.symm.trans e'

theorem two_arrive : ∃ sys host, Runs migrations (.start onePlace) sys ∧
    sys.jobs.Pairwise (·.task.2.vm ≠ ·.task.2.vm) ∧
    (∃ job ∈ sys.jobs, Delivered ⟨7⟩ job) ∧ sys.shared.store.host? ⟨7⟩ = some host ∧
    host.maxGuests = 1 ∧ sys.shared.store.guestsOn ⟨7⟩ = 2 := by
  have ends : ((play? migrations (.start onePlace) twoArrivals).any fun sys =>
      sys.jobs.Pairwise (·.task.2.vm ≠ ·.task.2.vm) ∧
      (∃ job ∈ sys.jobs, Delivered ⟨7⟩ job) ∧
        (∃ host ∈ sys.shared.store.host? ⟨7⟩, host.maxGuests = 1) ∧
        sys.shared.store.guestsOn ⟨7⟩ = 2) = true := by decide +kernel
  obtain ⟨sys, played, ends⟩ := (Option.any_eq_true ..).1 ends
  obtain ⟨apart, arrived, ⟨host, known, one⟩, two⟩ := of_decide_eq_true ends
  exact ⟨sys, host, runs_of_play? played, apart, arrived, known, one, two⟩

/-- Migrations of different machines that overlap can bring more guests to a host than it should
have. -/
theorem guest_limit_is_exceeded : ¬ ∀ (store : Store)
    (sys : System (Context × Migration.Request) (Except Failure Vm)) (h : HostId) (host : Host),
    (∀ h host, store.host? h = some host → store.guestsOn h ≤ host.maxGuests.toNat) →
    Runs migrations (.start store) sys → sys.jobs.Pairwise (·.task.2.vm ≠ ·.task.2.vm) →
    (∃ job ∈ sys.jobs, Delivered h job) → sys.shared.store.host? h = some host →
    sys.shared.store.guestsOn h ≤ host.maxGuests.toNat := by
  intro limited
  obtain ⟨sys, host, run, apart, arrived, known, one, two⟩ := two_arrive
  have bound := limited onePlace sys ⟨7⟩ host onePlace_within run apart arrived known
  rw [one, two] at bound
  exact absurd bound (by decide)

theorem excess_guest_has_overtaken :
    ∃ sys host, Runs migrations (.start onePlace) sys ∧
      sys.shared.store.host? ⟨7⟩ = some host ∧ host.maxGuests.toNat = 1 ∧
      sys.shared.store.guestsOn ⟨7⟩ = 2 ∧ ∃ job ∈ sys.jobs, ∃ others,
        Brought 1 ⟨7⟩ job.past others ∧ 2 ≤ 1 + others.length := by
  obtain ⟨sys, host, run, -, -, known, one, two⟩ := two_arrive
  have limit : host.maxGuests.toNat = 1 := congrArg UInt32.toNat one
  refine ⟨sys, host, run, known, limit, two, ?_⟩
  have overtaken := excess_guests_have_overtaken onePlace_within run known
  rw [limit, two] at overtaken
  exact overtaken.resolve_left (by decide)

end Concurrent
end ControlPlane
