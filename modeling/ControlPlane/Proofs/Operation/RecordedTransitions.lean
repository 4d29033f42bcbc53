import ControlPlane.Proofs.Operation.Calls
import ControlPlane.Proofs.Operation.OutwardRequests

/-!
# What operations record

Whatever hosts and collaborators answer, and whatever others do meanwhile, an operation takes the
record of its machine through a few moves of the lifecycle and no others.
-/

namespace ControlPlane

theorem Program.Within.run {J : Interface} {K : Control.Request → Prop} {α : Type}
    {answer : (r : J.Request) → Program Control.surroundings (J.Reply r)}
    (each : ∀ r, (answer r).Within K fun _ => True) (p : Program J α) :
    (p.run answer).Within K fun _ => True := by
  induction p with
  | done a => trivial
  | ask r rest ih => exact (each r).then fun reply _ => ih reply

namespace Operation
open Control Procedure

/-- The moves of the lifecycle by which a change of host is recorded. -/
def relocating : List (State × Event) :=
  [(.running, .migrationRequested), (.migrating, .operationSucceeded)]

/-- The moves of the lifecycle that a call may record: the state in which the machine is found, and
what happens to it. -/
def Call.legs : Call → List (State × Event)
  | .start _ =>
    [(.stopped, .startRequested), (.starting, .operationSucceeded), (.starting, .operationFailed)]
  | .stop .. =>
    [(.running, .stopRequested), (.stopping, .operationSucceeded), (.stopping, .operationFailed)]
  | .migrate _ | .scale .. => relocating
  | .destroy _ => [(.stopped, .destroyRequested), (.error, .destroyRequested)]
  | .recover _ => [(.destroyed, .recoveryRequested)]
  | .expunge _ => [(.destroyed, .expungeRequested), (.stopped, .expungeRequested)]

def Records (legs : List (State × Event)) (r : Control.Request) : Prop :=
  ∀ u, r = .transact (.swap u) →
    ∃ leg ∈ legs, leg.1 = u.expectedState ∧ leg.1.next? leg.2 = some u.state

variable {legs : List (State × Event)} {ctx : Context} {α : Type} {vm starting : Vm} {v : VmId}
  {host : HostId} {plan : Plan} {r : Control.Request} {resources : Resources} {item : Work.Item}

theorem records_of_noSwap (noSwap : ∀ u, r ≠ .transact (.swap u)) : Records legs r :=
  fun u e => absurd e (noSwap u)

theorem records_of_quiet (quiet : r.Quiet) : Records legs r := by
  rintro u rfl
  exact quiet.elim

theorem records_of_clerical (clerical : r.Clerical) : Records legs r := by
  rintro u rfl
  exact clerical.elim

/-- What has been checked against a record makes the move of the transition. -/
theorem records_of_check {t : Transition} {u : StateUpdate} (mem : (t.expected, t.event) ∈ legs)
    (checked : t.check vm = .ok u) : Records legs (.transact (.swap u)) := by
  obtain ⟨next, legal, -, -, -, e⟩ := Transition.check_ok checked
  have goes : u.state = next := congrArg StateUpdate.state e
  rintro _ ⟨⟩
  exact ⟨_, mem, (congrArg StateUpdate.expectedState e).symm,
    legal.trans (congrArg some goes.symm)⟩

theorem run_records (t : Transition) (mem : (t.expected, t.event) ∈ legs) :
    t.run.run.Within (Records legs) fun _ => True :=
  t.run_checks (records_of_quiet trivial) (records_of_quiet trivial) fun _ _ checked =>
    records_of_check mem checked

theorem query_records {p : Program surroundings α}
    (within : p.Within Request.Quiet fun _ => True) :
    p.Within (Records legs) fun _ => True := within.mono (fun _ => records_of_quiet) fun _ h => h

theorem loadVm_records (id : VmId) : (loadVm id).run.Within (Records legs) fun _ => True :=
  loadVm_within id (records_of_quiet trivial)

theorem write_records {t : Transaction} {e : (Request.transact t).Reply = Except Failure α}
    (noSwap : ∀ u, t ≠ .swap u) :
    (demand (.transact t) e).run.Within (Records legs) fun _ => True :=
  .demand (records_of_noSwap fun u same => noSwap u (Request.transact.inj same))

theorem underWork_records {operation : Work.Operation} {plan : Option Plan}
    {body : Work.Item → Body α}
    (each : ∀ item, (body item).run.Within (Records legs) fun _ => True) :
    (underWork ctx v operation plan body).run.Within (Records legs) fun _ => True := by
  have begins : (Work.start ctx.node v operation plan).run.Within (Records legs) fun _ => True :=
    (start_within ..).mono (fun _ => records_of_clerical) fun _ _ => trivial
  refine .andThen begins (fun item _ => ?_) fun _ _ => trivial
  refine .ofProgram (each item) fun ending _ => ?_
  exact (settle_asks (fun _ => records_of_clerical) fun _ _ =>
    records_of_noSwap (by rintro _ ⟨⟩)).mono
    (fun _ h => h) fun _ _ => trivial

/-- After a machine has been recorded as running, no other state is recorded. -/
theorem markCredentials_records {running : Vm} :
    (do
      if starting.credentialsPending then
        demand (.transact (.setCredentialsPending starting.id false)) rfl
      loadVm running.id : Procedure Vm).run.Within (Records legs) fun _ => True := by
  have loaded : (loadVm running.id).run.Within (Records legs) fun _ => True :=
    loadVm_records running.id
  cases starting.credentialsPending with
  | false => exact loaded
  | true =>
    exact .andThen (write_records (by rintro _ ⟨⟩)) (fun _ _ => loaded) fun _ _ => trivial

section
variable (id : VmId)

theorem finishStart_records :
    (finishStart starting).run.Within (Records (Call.start id).legs) fun _ => True :=
  .andThen (run_records _ (by simp [Call.legs]))
    (fun _ _ => markCredentials_records) fun _ _ => trivial

theorem startOn_records :
    (startOn ctx vm starting host).run.Within (Records (Call.start id).legs) fun _ => True := by
  refine .ofProgram (query_records (sendResolved_within ..)) fun resolution _ => ?_
  cases resolution with
  | unknown failure => trivial
  | failed failure => trivial
  | succeeded =>
    refine .ofProgram (query_records (.call trivial)) fun finalized _ => ?_
    rcases finalized with failure | _
    · exact .ofProgram (query_records (forceStop_within ..)) fun _ _ => trivial
    · exact .adapted (finishStart_records id) fun _ => trivial

theorem tryStart_records (remaining : Nat) (excluded : Placement.Exclusions)
    (last : Option Failure) :
    (tryStart ctx vm remaining excluded last).run.Within
      (Records (Call.start id).legs) fun _ => True := by
  induction remaining generalizing excluded last with
  | zero => trivial
  | succ remaining ih =>
    refine .adapted (query_records (.demand trivial)) fun chosen => ?_
    cases chosen with
    | none => trivial
    | some host =>
      refine .adapted (loadVm_records _) fun current => ?_
      cases last <;>
        refine .adapted (run_records _ (by simp [Call.legs])) fun starting => ?_
      all_goals
        refine .andThen (startOn_records id) (fun attempt _ => ?_) fun _ _ => trivial
        cases attempt with
        | running vm => trivial
        | refused failure => exact .adapted (run_records _ (by simp [Call.legs])) fun _ => ih _ _

end

theorem require_records {e : Except Failure α} :
    (liftM e : Procedure α).run.Within (Records legs) fun _ => True := by
  cases e <;> trivial

theorem stopBody_records {id : VmId} {force : Bool} :
    (stopBody ctx id force).run.Within (Records (Call.stop id force).legs) fun _ => True := by
  refine .adapted (loadVm_records id) fun vm => ?_
  refine .adapted require_records fun _ => ?_
  refine .adapted require_records fun host => ?_
  refine .adapted (query_records (requireGuru_within vm.role).quiet) fun _ => ?_
  refine .adapted (query_records (.demand trivial)) fun _ => ?_
  refine .adapted (run_records _ (by simp [Call.legs])) fun _ => ?_
  refine .ofProgram (query_records (sendResolved_within ..)) fun resolution _ => ?_
  cases resolution with
  | succeeded =>
    refine .adapted (run_records _ (by simp [Call.legs])) fun stopped => ?_
    exact .ofProgram (query_records (.call trivial)) fun _ _ => trivial
  | failed failure => exact .adapted (run_records _ (by simp [Call.legs])) fun _ => trivial
  | unknown failure => trivial

section
variable {targets : List Agent.VolumeTarget}

theorem record_records {moves : List VolumeMove} :
    (Migration.record vm plan moves).run.Within (Records relocating) fun _ => True := by
  have moved : (do
      let _ ← Transition.run
        { vm := vm.id, expected := .running, event := .migrationRequested,
          version := some vm.version }
      Transition.run
        { vm := vm.id, expected := .migrating, event := .operationSucceeded
          host := some plan.destination } : Procedure Vm).run.Within
        (Records relocating) fun _ => True :=
    .andThen (run_records _ (by simp [relocating]))
      (fun _ _ => run_records _ (by simp [relocating])) fun _ _ => trivial
  unfold Migration.record
  cases moves with
  | nil => exact moved
  | cons move moves =>
    exact .andThen (write_records (by rintro _ ⟨⟩)) (fun _ _ => moved) fun _ _ => trivial

theorem resolving_records {moves : List VolumeMove} :
    (resolving (Migration.record vm plan moves)).run.Within (Records relocating) fun _ => True :=
  record_records.then fun _ _ => trivial

theorem compute_records :
    (Migration.compute ctx vm plan).run.Within (Records relocating) fun _ => True := by
  refine .ofProgram (query_records (Migration.sendAway_within ..)) fun landing _ => ?_
  cases landing with
  | moved => exact resolving_records
  | notMoved failure => trivial
  | unknown failure => trivial

theorem withinCluster_records :
    (Migration.withinCluster ctx vm plan targets).run.Within
      (Records relocating) fun _ => True := by
  refine .ofProgram (query_records (Agent.dispatch_within ..)) fun reported _ => ?_
  cases reported with
  | ok reported => exact resolving_records
  | error failure =>
    simp only
    split
    · refine .ofProgram (query_records (Agent.powerStates_within ..)) fun found _ => ?_
      split
      · exact resolving_records
      · trivial
      · trivial
    · trivial

theorem acrossClusters_records :
    (Migration.acrossClusters ctx vm plan targets).run.Within
      (Records relocating) fun _ => True := by
  refine .adapted (query_records (Agent.dispatch_within ..)) fun rendezvous => ?_
  have sends := (Migration.send_within ctx vm plan rendezvous).mono
    (fun _ quiet => quiet) fun _ _ => trivial
  refine .andThen (query_records sends) (fun _ _ => ?_) fun _ _ => trivial
  refine .adapted (query_records (.call trivial)) fun _ => ?_
  refine .ofProgram (query_records (Agent.dispatch_within ..)) fun reported _ => ?_
  cases reported with
  | ok reported => exact resolving_records
  | error failure =>
    exact .ofProgram (query_records (Migration.split_within ..)) fun _ _ => trivial

theorem migrateBody_records :
    (migrateBody ctx plan).run.Within (Records relocating) fun _ => True := by
  refine .adapted (query_records (Migration.check_within plan).quiet) fun checked => ?_
  obtain ⟨vm, targets⟩ := checked
  simp only
  split
  · exact compute_records
  · split
    · exact acrossClusters_records
    · exact withinCluster_records

end

theorem moveForScale_records {destination : HostId} :
    (moveForScale ctx item vm destination).run.Within (Records relocating) fun _ => True := by
  have plans {request : Migration.Request} :
      (Migration.plan request).run.Within (Records relocating) fun _ => True :=
    query_records ((Migration.plan_within request).mono
      (fun _ silent => silent.1) fun _ _ => trivial)
  have notes : ∀ plan, (Work.recordPlan item plan).run.Within (Records relocating) fun _ =>
    True := fun plan =>
    .andThen (.ask (records_of_noSwap (by rintro _ ⟨⟩)))
      (fun now _ => .ask (r := .transact (.planItem item plan now))
        (records_of_noSwap (by rintro _ ⟨⟩)))
      fun _ _ => trivial
  refine .andThen require_records (fun source _ => ?_) fun _ _ => trivial
  refine .andThen plans (fun plan _ => ?_) fun _ _ => trivial
  refine .andThen (query_records (Migration.check_within plan).quiet)
    (fun checked _ => ?_) fun _ _ => trivial
  refine .andThen (notes plan) (fun _ _ => ?_) fun _ _ => trivial
  refine .ofProgram compute_records fun result _ => ?_
  rcases result with (failure | failure | failure) | moved <;> trivial

theorem scaleOn_records {id : VmId} {target : Placement.Target} :
    (scaleOn ctx item id resources target).run.Within (Records relocating) fun _ => True := by
  refine .andThen (loadVm_records id) (fun vm _ => ?_) fun _ _ => trivial
  refine .andThen (P := fun _ => True) ?_ (fun vm _ => ?_) fun _ _ => trivial
  · cases target with
    | inPlace host => trivial
    | migrate destination => exact moveForScale_records
  refine .andThen (query_records (Agent.dispatch_within ..)) (fun _ _ => ?_) fun _ _ => trivial
  exact .andThen (write_records (by rintro _ ⟨⟩))
    (fun _ _ => loadVm_records id) fun _ _ => trivial

theorem answerCall_records {growth : Placement.Growth} (call : Placement.Call) :
    (answerCall ctx item resources growth call).Within (Records relocating) fun _ => True := by
  cases call with
  | increment | decrement => exact .ask (records_of_noSwap (by rintro _ ⟨⟩))
  | hasRoom host => exact .call (records_of_quiet trivial)
  | selectHost excluded => exact .call (records_of_quiet trivial)
  | attempt target => exact scaleOn_records

theorem scaleBody_records {id : VmId} :
    (scaleBody ctx id resources item).run.Within (Records relocating) fun _ => True := by
  refine .adapted (loadVm_records id) fun vm => ?_
  refine .adapted require_records fun _ => ?_
  refine .adapted require_records fun growth => ?_
  refine .ofProgram (.run answerCall_records _) fun result _ => ?_
  rcases result with failure | outcome <;> trivial

theorem locally_records {operation : Work.Operation} {allowed : List State} {event : Event}
    (legal : ∀ state ∈ allowed, (state, event) ∈ legs) :
    (locally ctx v operation allowed event).run.Within (Records legs) fun _ => True := by
  refine underWork_records fun item => ?_
  refine .then (P := fun _ => True) ?_ fun _ _ => trivial
  refine .andThen (loadVm_records v) (fun vm _ => ?_) fun _ _ => trivial
  refine .ofExcept (fun _ stated => ?_) fun _ _ => trivial
  exact .andThen (run_records _ (legal _ (mem_of_requireState stated)))
    (fun _ _ => trivial) fun _ _ => trivial

theorem startBody_records {id : VmId} :
    (startBody ctx id).run.Within (Records (Call.start id).legs) fun _ => True := by
  refine .adapted (loadVm_records id) fun vm => ?_
  refine .adapted require_records fun _ => ?_
  exact .adapted (query_records (requireGuru_within vm.role).quiet) fun _ => tryStart_records id ..

/-- Of the states of machines, a call records no others than its moves lead to. -/
theorem perform_records (call : Call) :
    (call.perform ctx).run.Within (Records call.legs) fun _ => True := by
  have discard : ∀ {α : Type} {action : Procedure α},
    action.run.Within (Records call.legs) (fun _ => True) →
      (do let _ ← action : Procedure Unit).run.Within (Records call.legs) fun _ => True :=
    fun h => .andThen h (fun _ _ => trivial) fun _ _ => trivial
  cases call with
  | start vm => exact discard (underWork_records fun _ => startBody_records)
  | stop vm force => exact discard (underWork_records fun _ => stopBody_records)
  | migrate request =>
    refine discard (.andThen (P := fun _ => True) ?_ (fun plan _ => ?_) fun _ _ => trivial)
    · exact query_records ((Migration.plan_within request).mono
        (fun _ silent => silent.1) fun _ _ => trivial)
    · exact underWork_records fun _ => migrateBody_records
  | scale vm resources => exact discard (underWork_records fun _ => scaleBody_records)
  | destroy vm => exact discard (locally_records (by simp [Call.legs]))
  | recover vm => exact discard (locally_records (by simp [Call.legs]))
  | expunge vm => exact discard (locally_records (by simp [Call.legs]))

end Operation
end ControlPlane
