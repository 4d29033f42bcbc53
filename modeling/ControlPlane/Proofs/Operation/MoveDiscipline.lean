import ControlPlane.Operation.Scale
import ControlPlane.Proofs.Operation.OperationDiscipline

/-!
# How a migration is recorded

A migration is recorded after it has been made. The record goes through the state of a machine that
migrates only if it still is the one that was checked; so it names the host that the item tells.
-/

namespace ControlPlane.Concurrent
open Work Control Operation Procedure Migration

variable {job : Nat} {s s' : Shared} {c : Item} {plan : Option Plan} {P : State → UInt64 → Prop}
  {past : List Exchange} {α : Type} {ctx : Context} {v : VmId} {vm : Vm} {p : Plan}

/-- The record has moved on since it was read, or it is still on the same host. -/
def Seen (v : VmId) (vm : Vm) (s : Shared) : Prop :=
  ∀ vm', s.store.vm? v = some vm' →
    vm.version.toNat ≤ vm'.version.toNat ∧ (vm'.version = vm.version → vm'.host = vm.host)

theorem Seen.acts {k : Nat} (h : Seen v vm s) (acts : Acts k s s') : Seen v vm s' := by
  intro vm'' stored'
  cases stored : s.store.vm? v with
  | none =>
    rw [acts.missing stored] at stored'
    cases stored'
  | some vm' =>
    obtain ⟨le, same⟩ := h vm' stored
    obtain ⟨x, stored'', moved⟩ := acts.vm stored
    rw [stored'] at stored''
    cases stored''
    rcases moved with ⟨-, host, version⟩ | ⟨version, -⟩
    · rw [host, version]
      exact ⟨le, same⟩
    · refine ⟨by omega, fun e => ?_⟩
      have := congrArg UInt64.toNat e
      omega

theorem Seen.others {node : NodeId} (h : Seen v vm s) (others : Others job node s s') :
    Seen v vm s' := by
  cases others with
  | acts _ acts => exact h.acts acts
  | crash _ e =>
    subst e
    exact h

theorem seen_of_vm? (stored : s.store.vm? v = some vm) : Seen v vm s := by
  intro vm' stored'
  rw [stored] at stored'
  cases stored'
  exact ⟨Nat.le_refl _, fun _ => rfl⟩

structure Bearing (job : Nat) (c : Item) (plan : Option Plan) (vm : Vm) (s : Shared) : Prop
    extends Working job c plan s where
  seen : Seen c.vm vm s

theorem upheld_bearing (vm : Vm) :
    Upheld (operating c.owner job) c fun _ s => Bearing job c plan vm s where
  holding h := h.toHolding
  stable := stable_discipline fun coherent others h =>
    ⟨h.toWorking.others coherent others, h.seen.others others⟩
  fit kind h _ := h.owns kind
  quiet _ h := h
  write names closes acts h := ⟨h.toWorking.framed names closes, h.seen.acts acts⟩

def Boarding (job : Nat) (c : Item) (plan : Option Plan) (vm : Vm) : Assertion :=
  fun _ s => Bearing job c plan vm s ∧ Bound c Never s

theorem lasting_boarding (vm : Vm) :
    Lasting (operating c.owner job) Request.Quiet (Boarding job c plan vm) :=
  (upheld_bearing vm).lasting_bound

theorem Boarding.at (h : Boarding job c plan vm past s) : At job c plan Never past s :=
  ⟨h.1.toWorking, h.2⟩

/-- A machine that was checked and not changed since leaves the host that the plan tells. -/
theorem Bearing.leads {t : Transition} {u : StateUpdate} {found : Vm} (movable : Movable p vm)
    (h : Bearing job c plan vm s) (stored : s.store.vm? c.vm = some found)
    (legal : t.expected.next? t.event = some .migrating) (pinned : t.version = some vm.version)
    (free : t.host = none) (checked : t.check found = .ok u) : u.host = some p.source := by
  obtain ⟨next, legal', same, -, hosted, -⟩ := Transition.check_ok checked
  rw [legal] at legal'
  cases legal'
  rw [pinned] at same
  have host : found.host = some p.source :=
    ((h.seen found stored).2 same.symm).trans movable.host
  rw [free] at hosted
  simp only [Transition.hosts, Option.none_or, host] at hosted
  rw [if_pos (by decide)] at hosted
  exact (congrArg Prod.fst (Except.ok.inj hosted)).symm

theorem safe_record {moves : List VolumeMove} (movable : Movable p vm) (subject : vm.id = c.vm)
    (h : Boarding job c (some p) vm past s) :
    Safe (operating c.owner job) (fun _ => At job c (some p) Never)
      (record vm p moves).run past s := by
  have moved : ∀ past s, Boarding job c (some p) vm past s →
      Safe (operating c.owner job) (fun _ => At job c (some p) Never) (do
        let _ ← Transition.run
          { vm := vm.id, expected := .running, event := .migrationRequested,
            version := some vm.version }
        Transition.run
          { vm := vm.id, expected := .migrating, event := .operationSucceeded
            host := some p.destination } : Procedure Vm).run past s := by
    intro past s h
    refine Safe.andThen (safe_stir (upheld_bearing vm) (fun h => h.toWorking) subject rfl
      (fun _ {past s found u} h stored checked =>
        ⟨p, rfl, h.leads movable stored rfl rfl rfl checked, movable.away⟩) h.1 h.2) ?_ ?_
    · intro _ past s h
      obtain ⟨-, h, bound⟩ := h
      refine (safe_calm (upheld_bearing vm) subject (by rintro _ ⟨⟩; decide) h bound).mono ?_
      intro result past s ends
      rcases result with failure | vm
      · exact ⟨ends.1.toWorking, ends.2.mono fun _ _ p => p.2 rfl rfl rfl p.1⟩
      · exact ⟨ends.1.toWorking, ends.2⟩
    · exact fun _ _ _ h => ⟨h.1.toWorking, h.2⟩
  unfold record
  cases moves with
  | nil => exact moved past s h
  | cons move moves =>
    exact Safe.andThen (Q := fun _ => Boarding job c (some p) vm)
      ((upheld_bearing vm).safe_write rfl rfl (by rintro _ ⟨⟩) (fun _ => trivial)
        (fun _ _ => owns_of_noSwap (by rintro _ ⟨⟩)) h.1 h.2)
      (fun _ => moved) fun _ _ _ h => h.at

section
variable {targets : List Agent.VolumeTarget} (movable : Movable p vm) (subject : vm.id = c.vm)
include movable subject

theorem safe_recorded {moves : List VolumeMove} {wrap : Failure → Ending}
    (h : Boarding job c (some p) vm past s) :
    Safe (operating c.owner job) (fun _ => At job c (some p) Never)
      ((record vm p moves).adapt wrap : Body Vm).run past s :=
  Safe.adapt (safe_record movable subject h)

theorem safe_compute (h : Boarding job c (some p) vm past s) :
    Safe (operating c.owner job) (fun _ => At job c (some p) Never)
      (compute ctx vm p).run past s := by
  refine Safe.query (sendAway_within ctx vm p) (fun _ quiet => quiet) (lasting_boarding vm) h
    fun landing past s _ h => ?_
  cases landing with
  | moved => exact safe_recorded movable subject h
  | notMoved failure => exact h.at
  | unknown failure => exact h.at

theorem safe_locateWithStorage {lost : Failure} (h : Boarding job c (some p) vm past s) :
    Safe (operating c.owner job) (fun _ => At job c (some p) Never)
      (locateWithStorage ctx vm p targets lost).run past s := by
  refine Safe.query (Agent.powerStates_within ..) (fun _ quiet => quiet) (lasting_boarding vm) h
    fun found past s _ h => ?_
  split
  · exact safe_recorded movable subject h
  · exact h.at
  · exact h.at

theorem safe_withinCluster (h : Boarding job c (some p) vm past s) :
    Safe (operating c.owner job) (fun _ => At job c (some p) Never)
      (withinCluster ctx vm p targets).run past s := by
  refine Safe.query (Agent.dispatch_within ..) (fun _ quiet => quiet) (lasting_boarding vm) h
    fun reported past s _ h => ?_
  cases reported with
  | ok reported => exact safe_recorded movable subject h
  | error failure =>
    simp only
    split
    · exact safe_locateWithStorage movable subject h
    · exact h.at

theorem safe_acrossClusters (h : Boarding job c (some p) vm past s) :
    Safe (operating c.owner job) (fun _ => At job c (some p) Never)
      (acrossClusters ctx vm p targets).run past s := by
  refine Safe.look (Agent.dispatch_within ..) (fun _ quiet => quiet) (lasting_boarding vm) h
    (fun rendezvous past s _ h => ?_) fun _ _ _ h => h.at
  refine Safe.andThen (Q := fun _ => Boarding job c (some p) vm)
    ((Safe.within (send_within ..) (fun _ quiet => quiet) (lasting_boarding vm) h).mono
      fun _ _ _ h => h.2) (fun _ past s h => ?_) fun _ _ _ h => h.at
  refine Safe.look (Program.Within.call trivial) (fun _ quiet => quiet) (lasting_boarding vm) h
    (fun _ past s _ h => ?_) fun _ _ _ h => h.at
  refine Safe.query (Agent.dispatch_within ..) (fun _ quiet => quiet) (lasting_boarding vm) h
    fun reported past s _ h => ?_
  cases reported with
  | ok reported => exact safe_recorded movable subject h
  | error failure =>
    exact Safe.query (split_within ..) (fun _ quiet => quiet) (lasting_boarding vm) h
      fun _ _ _ _ h => h.at

end

theorem owns_of_quiet {r : Control.Request} (quiet : r.Quiet) : Owns job s r :=
  owns_of_noSwap (by rintro u rfl; exact quiet)

theorem lasting_idle {node : Node} :
    Lasting (operating node.id job) Request.Silent fun _ s => Idle job s :=
  ⟨stable_idle, fun silent _ _ => owns_of_quiet silent.1, fun _ h => h⟩

theorem safe_checked (subject : p.vm = c.vm) (h : At job c plan Never past s) :
    Safe (operating c.owner job) (fun result past s => At job c plan Never past s ∧
      ∀ pair, result = .ok pair → (Seen c.vm pair.1 s ∧ pair.1.id = c.vm) ∧
        Movable p pair.1)
      (check p).run past s := by
  refine safe_check (T := fun vm _ s => Seen c.vm vm s ∧ vm.id = c.vm)
    ⟨stable_at, fun silent _ _ => owns_of_quiet silent.1, fun _ h => h⟩ (fun vm => ?_) h
    fun _ stored _ => ?_
  · exact ⟨stable_discipline fun _ others h => ⟨h.1.others others, h.2⟩,
      fun silent _ _ => owns_of_quiet silent.1, fun _ h => h⟩
  · exact ⟨seen_of_vm? (subject ▸ stored), (Store.id_of_vm? stored).trans subject⟩

theorem safe_migrateBody (subject : p.vm = c.vm) (h : At job c (some p) Never past s) :
    Safe (operating c.owner job) (Rests job c) (migrateBody ctx p).run past s := by
  refine Safe.adapted (safe_checked subject h) ?_ fun _ _ _ h => .of_never _ h.1
  rintro ⟨vm, targets⟩ past s ⟨h, checked⟩
  obtain ⟨⟨seen, named⟩, movable⟩ := checked _ rfl
  have boarding : Boarding job c (some p) vm past s := ⟨⟨h.1, seen⟩, h.2⟩
  simp only
  split
  · exact (safe_compute movable named boarding).mono fun result _ _ h => .of_never result h
  · split
    · exact (safe_acrossClusters movable named boarding).mono
        fun result _ _ h => .of_never result h
    · exact (safe_withinCluster movable named boarding).mono fun result _ _ h => .of_never result h

theorem safe_migrate {request : Migration.Request} (idle : Idle job s) :
    Safe (operating ctx.node.id job) (fun _ _ _ => True) (migrate ctx request).run past s := by
  refine Safe.andThen (Safe.within (Migration.plan_within request) (fun _ silent => silent.1)
    lasting_idle idle) ?_ fun _ _ _ _ => trivial
  intro plan past s h
  obtain ⟨named, idle⟩ := h
  exact safe_underWork idle fun subject h =>
    safe_migrateBody ((named plan rfl).trans subject.symm) h

theorem Boarding.due {now : Timestamp} (h : Boarding job c plan vm past s) :
    Due job s (.planItem c p now) := by
  obtain ⟨x, stored, here, owner⟩ := h.1.known
  refine ⟨h.1.drew, x, stored, ?_, fun covers => ?_⟩
  · rw [owner, here]
    exact h.1.holds
  · rw [here]
    exact (h.2 x covers (Store.id_of_item? stored)).mono fun _ _ => False.elim

theorem Boarding.planned {now : Timestamp} (h : Boarding job c plan vm past s)
    (carries : Carries s.store (.planItem c p now)) :
    Boarding job c (some p) vm past { s with store := s.store.planItem c p now } := by
  have due : Due job s (.planItem c p now) := h.due
  have acts := due.acts carries
  obtain ⟨x, covers, same, here, -⟩ := h.1.covered
  obtain ⟨covers', here', -⟩ := due.covers covers nofun
  have planned : (Transaction.onItem (.planItem c p now) x).plan = some p := by
    rw [Transaction.onItem, if_pos same.symm]
  refine ⟨⟨⟨⟨h.1.holds, h.1.known.acts acts⟩, h.1.drew, h.1.sole, _, covers',
    (Transaction.onItem_id _ _).trans same, here'.trans here, planned⟩,
    h.1.seen.acts acts⟩, ?_⟩
  exact fun _ _ _ => h.2 x covers same

theorem safe_recordPlan (h : Boarding job c plan vm past s) :
    Safe (operating c.owner job) (Ends (fun _ => Boarding job c (some p) vm) fun _ _ => False)
      (Work.recordPlan c p).run past s := by
  refine Safe.andThen (Q := Ends (fun _ => Boarding job c plan vm) fun _ _ => False)
    (Safe.ask (lasting_boarding vm).stable (fun _ => rfl) h fun s h inv =>
      ⟨owns_of_noSwap (by rintro _ ⟨⟩), ?_⟩) ?_ fun _ _ _ h => h
  · rintro _ _ rfl
    exact ⟨⟨.refl job _, inv⟩, h⟩
  intro now past s h
  refine Safe.transact (lasting_boarding vm).stable h fun s h inv =>
    ⟨owns_of_noSwap (by rintro _ ⟨⟩), fun carries => ?_⟩
  have due : Due job s (.planItem c p now) := h.due
  exact ⟨⟨due.acts carries, due.coherent inv⟩, h.planned carries⟩

def Resting (job : Nat) (c : Item) : Assertion := fun past s => ∃ plan, At job c plan Never past s

theorem lasting_resting : Lasting (operating c.owner job) Request.Quiet (Resting job c) where
  stable _ _ _ rely inv := fun ⟨plan, h⟩ => ⟨plan, stable_at rely inv h⟩
  fit quiet _ _ := owns_of_quiet quiet
  keeps _ := fun ⟨plan, h⟩ => ⟨plan, h⟩

theorem Resting.within {P : α → Prop} {p : Program surroundings α}
    (within : p.Within Request.Quiet P) (h : Resting job c past s) :
    Safe (operating c.owner job) (fun _ => Resting job c) p past s :=
  (Safe.within within (fun _ quiet => quiet) lasting_resting h).mono fun _ _ _ h => h.2

theorem Resting.write {t : Transaction} (names : t.names? = none) (closes : t.closes? = none)
    (noSwap : ∀ u, t ≠ .swap u) (due : ∀ s, Due job s t) (h : Resting job c past s) :
    Safe (operating c.owner job) (fun _ => Resting job c)
      (Program.call (I := surroundings) (.transact t)) past s := by
  obtain ⟨plan, h⟩ := h
  exact (safe_write names closes noSwap due h).mono fun _ _ _ h => ⟨plan, h⟩

/-- A machine that needs a larger host is moved there, under a plan that its item gets first. -/
theorem safe_moveForScale {destination : HostId} (subject : vm.id = c.vm)
    (h : At job c plan Never past s) :
    Safe (operating c.owner job) (fun _ => Resting job c)
      (moveForScale ctx c vm destination).run past s := by
  have rests : ∀ {past s}, At job c plan Never past s → Resting job c past s :=
    fun h => ⟨plan, h⟩
  refine Safe.ofExcept (fun source _ => ?_) fun _ _ => rests h
  refine Safe.andThen
    (safe_quiet (Migration.plan_within ⟨vm.id, source, destination, ∅⟩).quiet h)
    ?_ fun _ _ _ h => rests h.2
  intro p past s h
  obtain ⟨named, h⟩ := h
  refine Safe.andThen (safe_checked ((named p rfl).trans subject) h) ?_ fun _ _ _ h => rests h.1
  rintro ⟨moving, targets⟩ past s ⟨h, checked⟩
  obtain ⟨⟨seen, same⟩, movable⟩ := checked _ rfl
  have boarding : Boarding job c plan moving past s := ⟨⟨h.1, seen⟩, h.2⟩
  refine Safe.andThen (safe_recordPlan boarding) ?_ fun _ _ _ => False.elim
  intro _ past s h
  refine Safe.ofProgram (safe_compute movable same h) fun result past s h => ?_
  rcases result with (failure | failure | failure) | moved <;> exact ⟨some p, h⟩

theorem safe_scaleOn {id : VmId} {resources : Resources} {target : Placement.Target}
    (subject : c.vm = id) (h : Resting job c past s) :
    Safe (operating c.owner job) (fun _ => Resting job c)
      (scaleOn ctx c id resources target).run past s := by
  refine Safe.andThen (safe_loadVm (K := Request.Quiet) (T := fun vm _ _ => vm.id = id) trivial
    lasting_resting h fun _ stored _ => Store.id_of_vm? stored) ?_ fun _ _ _ h => h.1
  intro vm past s h
  obtain ⟨⟨plan, h⟩, named⟩ := h
  refine Safe.andThen (Q := fun _ => Resting job c) ?_ ?_ fun _ _ _ h => h
  · cases target with
    | inPlace host => exact ⟨plan, h⟩
    | migrate destination => exact safe_moveForScale ((named vm rfl).trans subject.symm) h
  intro vm past s h
  refine Safe.andThen (h.within (Agent.dispatch_within ..)) ?_ fun _ _ _ h => h
  intro _ past s h
  refine Safe.andThen (h.write rfl rfl (by rintro _ ⟨⟩) fun _ => trivial) ?_ fun _ _ _ h => h
  exact fun _ _ _ h => h.within (loadVm_within id trivial)

theorem safe_answerCall {resources : Resources} {growth : Placement.Growth}
    (subject : c.vm = growth.vm) (call : Placement.Call) (h : Resting job c past s) :
    Safe (operating c.owner job) (fun _ => Resting job c)
      (answerCall ctx c resources growth call) past s := by
  cases call with
  | increment | decrement =>
    exact Safe.then (h.write rfl rfl (by rintro _ ⟨⟩) fun _ => trivial) fun _ _ _ h => h
  | hasRoom host => exact h.within (.call trivial)
  | selectHost excluded => exact h.within (.call trivial)
  | attempt target => exact safe_scaleOn subject h

theorem vm_of_growthOf {resources : Resources} {growth : Placement.Growth}
    (h : growthOf vm resources = .ok growth) : growth.vm = vm.id := by
  simp only [growthOf] at h
  split at h
  · cases h
  · split at h <;> cases h
    rfl

theorem safe_scaleBody {id : VmId} {resources : Resources} (subject : c.vm = id)
    (h : At job c plan Never past s) :
    Safe (operating c.owner job) (Rests job c) (scaleBody ctx id resources c).run past s := by
  refine safe_load h fun vm past s named h => ?_
  refine safe_require h fun _ _ => ?_
  refine safe_require h fun growth grows => ?_
  have grown := vm_of_growthOf grows
  refine Safe.ofProgram (Safe.run (fun call _ _ => safe_answerCall
    (subject.trans (named.symm.trans grown.symm)) call) _ ⟨plan, h⟩) fun result past s h => ?_
  obtain ⟨plan, h⟩ := h
  cases result with
  | ok outcome => exact .of_never _ h
  | error failure => exact .of_never _ h

theorem safe_scale {id : VmId} {resources : Resources} (idle : Idle job s) :
    Safe (operating ctx.node.id job) (fun _ _ _ => True) (scale ctx id resources).run past s :=
  safe_underWork idle fun subject h => safe_scaleBody subject h

end ControlPlane.Concurrent
