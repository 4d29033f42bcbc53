import ControlPlane.Operation.Migrate
import ControlPlane.Operation.Stop
import ControlPlane.Proofs.Concurrent.QuietRequests
import ControlPlane.Proofs.Transition.Requests
import ControlPlane.Recovery

/-!
# Requests to hosts and collaborators

What operations ask hosts and collaborators, and what they look up before they send anything. None
of it changes what jobs share.
-/

namespace ControlPlane
open Control Procedure Control.Request

theorem Program.Within.quiet {α : Type} {P : α → Prop} {p : Program surroundings α}
    (h : p.Within Silent P) : p.Within Quiet P := h.mono (fun _ silent => silent.1) fun _ p => p

theorem Program.Within.demand {α : Type} {K : Request → Prop} {r : Request}
    {e : r.Reply = Except Failure α} (h : K r) :
    (Procedure.demand r e).run.Within K fun _ => True := by
  suffices within : ∀ (β : Type) (e : r.Reply = β), Program.Within K (fun _ => True)
      (e ▸ Program.call (I := surroundings) r : Program surroundings β) from within _ e
  rintro _ rfl
  exact .call h

variable {K : Control.Request → Prop}

/-- A transition only writes what it has checked against a record. -/
theorem Transition.run_checks (t : Transition) (reads : K (.transact (.vm t.vm)))
    (passes : K (.pass .beforeSwap))
    (swaps : ∀ vm u, t.check vm = .ok u → K (.transact (.swap u))) :
    t.run.run.Within K fun _ => True := by
  rw [run_eq]
  refine ⟨reads, fun found => ?_⟩
  cases found with
  | none => trivial
  | some vm =>
    simp only [afterRead]
    cases checked : t.check vm with
    | error failure => trivial
    | ok u =>
      refine ⟨passes, fun passed => ?_⟩
      cases passed with
      | error failure => trivial
      | ok _ =>
        exact ⟨swaps vm u checked, fun reply => by rcases reply with _ | _ | _ <;> trivial⟩

/-- A transition reads its machine and writes to no other one. What it writes is the state to which
the event leads. -/
theorem Transition.run_asks (t : Transition) (reads : K (.transact (.vm t.vm)))
    (passes : K (.pass .beforeSwap)) (swaps : ∀ u : StateUpdate, u.vm = t.vm →
      t.expected.next? t.event = some u.state → K (.transact (.swap u))) :
    t.run.run.Within K fun _ => True := by
  refine t.run_checks reads passes fun vm u checked => ?_
  obtain ⟨next, legal, -, -, -, written⟩ := check_ok checked
  have leads : u.state = next := congrArg StateUpdate.state written
  exact swaps u (congrArg StateUpdate.vm written) (leads ▸ legal)

namespace Agent
variable {host first second : HostId} {token : String} {wait : Span}

theorem dispatch_asks {k : Kind} {body : k.Body} (asks : K (.send (.ofBody host k body wait))) :
    (dispatch host k body wait).run.Within K fun _ => True :=
  ⟨asks, fun _ => trivial⟩

theorem powerState_asks (asks : K (.send (probe host token wait))) :
    (powerState host token wait).Within K fun _ => True :=
  ⟨asks, fun _ => trivial⟩

theorem powerStates_asks (asks : K (.sendBoth (probe first token wait) (probe second token wait))) :
    (powerStates first second token wait).Within K fun _ => True :=
  ⟨asks, fun _ => trivial⟩

theorem dispatch_within (host : HostId) (k : Kind) (body : k.Body) (wait : Span) :
    (dispatch host k body wait).run.Within Quiet fun _ => True := dispatch_asks trivial

theorem powerState_within (host : HostId) (token : String) (wait : Span) :
    (powerState host token wait).Within Quiet fun _ => True := powerState_asks trivial

theorem powerStates_within (first second : HostId) (token : String) (wait : Span) :
    (powerStates first second token wait).Within Quiet fun _ => True := powerStates_asks trivial

end Agent

namespace Operation
open Agent

theorem sendResolved_asks {ctx : Context} {host : HostId} {token : String} {wanted : PowerState}
    {k : Kind} {body : k.Body} {wait : Span} (asks : K (.send (.ofBody host k body wait)))
    (probes : K (.send (probe host token ctx.probeWait))) :
    (sendResolved ctx host token wanted k body wait).Within K fun _ => True := by
  refine (dispatch_asks asks).then fun result _ => ?_
  rcases result with failure | reply
  · simp only
    split
    · exact (powerState_asks probes).then fun _ _ => trivial
    · trivial
  · trivial

theorem sendResolved_within (ctx : Context) (host : HostId) (token : String) (wanted : PowerState)
    (k : Kind) (body : k.Body) (wait : Span) :
    (sendResolved ctx host token wanted k body wait).Within Quiet fun _ => True :=
  sendResolved_asks trivial trivial

theorem requireGuru_within (role : Role) : (requireGuru role).run.Within Silent fun _ => True := by
  refine (Program.Within.ask ⟨trivial, id⟩).andThen (fun found _ => ?_) fun _ _ => trivial
  cases found <;> trivial

theorem mem_of_requireState {vm : Vm} {operation : String} {expected : List State} {u : Unit}
    (h : requireState vm operation expected = .ok u) : vm.state ∈ expected := by
  unfold requireState at h
  split at h
  · assumption
  · cases h

theorem host_of_requireHost {vm : Vm} {host : HostId} (h : requireHost vm = .ok host) :
    vm.host = some host := by
  unfold requireHost at h
  split at h
  · cases h
    assumption
  · cases h

theorem forceStop_within (ctx : Context) (vm : Vm) (host : HostId) :
    (forceStop ctx vm host).Within Quiet fun _ => True :=
  (dispatch_within ..).then fun _ _ => trivial

theorem start_within (node : Node) (vm : VmId) (operation : Work.Operation) (plan : Option Plan) :
    (Work.start node vm operation plan).run.Within Clerical
      fun result => ∀ item, result = .ok item → item.plan = plan := by
  have locks : (Work.lock node vm).run.Within Clerical fun _ => True :=
    .andThen (.ask trivial) (fun granted _ => by cases granted <;> trivial) fun _ _ => trivial
  refine .andThen locks (fun _ _ => ?_) fun _ _ _ e => nomatch e
  refine .andThen (.ask trivial) (fun now _ => ?_) fun _ _ _ e => nomatch e
  refine .andThen (.ask trivial) (fun id _ => ?_) fun _ _ _ e => nomatch e
  refine .andThen (P := fun _ => True) (.then (P := fun _ => True) ?_ fun result _ => ?_)
    (fun _ _ => ?_) fun _ _ _ e => nomatch e
  · exact .andThen (.demand trivial) (fun _ _ => .demand trivial) fun _ _ => trivial
  · cases result with
    | ok _ => trivial
    | error failure => exact .andThen (.ask trivial) (fun _ _ => trivial) fun _ _ => trivial
  · rintro _ ⟨⟩
    rfl

section
variable {node : Node} {item : Work.Item} (reads : K .now)
  (unlocks : ∀ name how, K (.unlock name how))
include reads unlocks

theorem finish_writes {step : Work.Step}
    (closes : ∀ now, K (.transact (.closeItem item step now))) :
    (Work.finish node item step).run.Within K fun result => ∃ u, result = .ok u := by
  refine .andThen (.asked reads) (fun now _ => ?_) fun _ ⟨_, e⟩ => nomatch e
  refine .andThen (.asked (closes now)) (fun _ _ => ?_) fun _ ⟨_, e⟩ => nomatch e
  exact .asked (unlocks ..)

/-- How an operation ends is written to its item alone. -/
theorem settle_writes {α : Type} {ctx : Context} {result : Except Ending α}
    (closes : ∀ step now, K (.transact (.closeItem item step now))) :
    (settle ctx item result).run.Within K (· = result.mapError Ending.failure) := by
  have finishes : ∀ step (last : Except Failure α),
    (do Work.finish ctx.node item step; liftM last :
      Procedure α).run.Within K (· = last) := by
    intro step last
    refine .andThen (finish_writes reads unlocks (closes _)) (fun _ _ => ?_)
      fun _ ⟨_, e⟩ => nomatch e
    cases last <;> rfl
  rcases result with (failure | failure | failure) | a
  · exact finishes _ (.error failure)
  · exact finishes _ (.error failure)
  · exact .andThen (.asked (unlocks ..)) (fun _ _ => rfl) fun _ ⟨_, e⟩ => nomatch e
  · exact finishes _ (.ok a)

end

section
variable {node : Node} {item : Work.Item} (clerical : ∀ r, Clerical r → K r)
include clerical

theorem finish_asks {step : Work.Step}
    (closes : ∀ now, K (.transact (.closeItem item step now))) :
    (Work.finish node item step).run.Within K fun result => ∃ u, result = .ok u :=
  finish_writes (clerical _ trivial) (fun _ _ => clerical _ trivial) closes

theorem settle_asks {α : Type} {ctx : Context} {result : Except Ending α}
    (closes : ∀ step now, K (.transact (.closeItem item step now))) :
    (settle ctx item result).run.Within K (· = result.mapError Ending.failure) :=
  settle_writes (clerical _ trivial) (fun _ _ => clerical _ trivial) closes

end

end Operation

namespace Migration
open Agent Operation

theorem targetOf_within (plan : Plan) (destination : Host) (volume : Volume) :
    (targetOf plan destination volume).run.Within Silent fun _ => True := by
  unfold targetOf
  cases plan.volumes.get? volume.id.key with
  | some relocation =>
    refine (loadPool_within _ ⟨trivial, id⟩).andThen (fun pool _ => ?_) fun _ _ => trivial
    exact Program.Within.ofExcept (fun _ _ => trivial) fun _ _ => trivial
  | none =>
    refine (loadPool_within _ ⟨trivial, id⟩).andThen (fun pool _ => ?_) fun _ _ => trivial
    cases pool.isLocal <;> trivial

theorem targets_within (plan : Plan) (destination : Host) (volumes : List Volume) :
    (targets plan destination volumes).run.Within Silent fun _ => True := by
  induction volumes with
  | nil => trivial
  | cons volume volumes ih =>
    refine (targetOf_within plan destination volume).andThen (fun target _ => ?_) fun _ _ => trivial
    exact ih.andThen (fun _ _ => trivial) fun _ _ => trivial

section
variable {ctx : Context} {vm : Vm} {plan : Plan}

theorem locate_asks {lost : Failure}
    (probes : ∀ host, K (.send (probe host vm.token ctx.probeWait))) :
    (locate ctx vm plan lost).Within K fun _ => True := by
  refine (powerState_asks (probes _)).then fun power _ => ?_
  rcases power with _ | _ | _ | _
  case ok.on => trivial
  all_goals
    exact (powerState_asks (probes _)).then fun power _ => by
      rcases power with _ | _ | _ | _ <;> trivial

theorem sendAway_asks (asks : K (.send (.ofBody plan.source .migrate
      (⟨vm.token, plan.destination⟩ : MigrateBody) ctx.waits.migrateWait)))
    (probes : ∀ host, K (.send (probe host vm.token ctx.probeWait))) :
    (sendAway ctx vm plan).Within K fun _ => True := by
  refine (dispatch_asks asks).then fun result _ => ?_
  rcases result with failure | reply
  · simp only
    split
    · exact locate_asks probes
    · trivial
  · trivial

theorem cleanup_asks {ticket : String} (asks : K (.send (.ofBody plan.destination .cleanup
      (⟨vm.token, ticket⟩ : CleanupBody) ctx.commandWait))) :
    (cleanup ctx vm plan ticket).Within K fun _ => True :=
  (dispatch_asks asks).then fun _ _ => trivial

/-- A move is recorded for the machine that was read, and for no other. -/
theorem record_writes {moves : List VolumeMove} (silent : ∀ r, Silent r → K r)
    (moving : K (.transact (.moveVolumes moves)))
    (swaps : ∀ u, u.vm = vm.id → K (.transact (.swap u))) :
    (record vm plan moves).run.Within K fun _ => True := by
  have run : ∀ t : Transition, t.vm = vm.id → t.run.run.Within K fun _ => True :=
    fun t subject =>
    t.run_asks (silent _ ⟨trivial, id⟩) (silent _ ⟨trivial, id⟩) fun u about _ =>
      swaps u (about.trans subject)
  unfold record
  cases moves with
  | nil => exact .andThen (run _ rfl) (fun _ _ => run _ rfl) fun _ _ => trivial
  | cons move moves =>
    exact .andThen (.demand moving)
      (fun _ _ => .andThen (run _ rfl) (fun _ _ => run _ rfl) fun _ _ => trivial) fun _ _ => trivial

theorem record_asks {moves : List VolumeMove} (silent : ∀ r, Silent r → K r)
    (moving : K (.transact (.moveVolumes moves))) (swaps : ∀ u, K (.transact (.swap u))) :
    (record vm plan moves).run.Within K fun _ => True :=
  record_writes silent moving fun u _ => swaps u

theorem compute_writes (silent : ∀ r, Silent r → K r)
    (asks : K (.send (.ofBody plan.source .migrate
      (⟨vm.token, plan.destination⟩ : MigrateBody) ctx.waits.migrateWait)))
    (probes : ∀ host, K (.send (probe host vm.token ctx.probeWait)))
    (moving : K (.transact (.moveVolumes [])))
    (swaps : ∀ u, u.vm = vm.id → K (.transact (.swap u))) :
    (compute ctx vm plan).run.Within K fun _ => True := by
  refine .ofProgram (sendAway_asks asks probes) fun landing _ => ?_
  cases landing with
  | moved => exact (record_writes silent moving swaps).then fun _ _ => trivial
  | notMoved failure => trivial
  | unknown failure => trivial

theorem compute_asks (silent : ∀ r, Silent r → K r)
    (asks : K (.send (.ofBody plan.source .migrate
      (⟨vm.token, plan.destination⟩ : MigrateBody) ctx.waits.migrateWait)))
    (probes : ∀ host, K (.send (probe host vm.token ctx.probeWait)))
    (moving : K (.transact (.moveVolumes []))) (swaps : ∀ u, K (.transact (.swap u))) :
    (compute ctx vm plan).run.Within K fun _ => True :=
  compute_writes silent asks probes moving fun u _ => swaps u

/-- A machine that could not be sent may still have been sent to: that is no rejection. -/
theorem send_asks {rendezvous : Agent.Rendezvous}
    (asks : K (.send (.ofBody plan.source .send
      (⟨vm.token, plan.destination, rendezvous⟩ : SendBody) ctx.waits.storageMigrateWait)))
    (probes : K (.send (probe plan.source vm.token ctx.probeWait)))
    (cleans : K (.send (.ofBody plan.destination .cleanup
      (⟨vm.token, rendezvous.ticket⟩ : CleanupBody) ctx.commandWait))) :
    (send ctx vm plan rendezvous).run.Within K
      fun result => ∀ failure, result ≠ .error (.rejected failure) := by
  refine .ofProgram (dispatch_asks asks) fun result _ => ?_
  rcases result with failure | reply
  · simp only
    split
    · refine .ofProgram (powerState_asks probes) fun power _ => ?_
      rcases power with _ | _ | _ | _
      case ok.on => exact .ofProgram (cleanup_asks cleans) fun _ _ _ e => by cases e
      all_goals exact fun _ e => by cases e
    · exact .ofProgram (cleanup_asks cleans) fun _ _ _ e => by cases e
  · exact fun _ e => by cases e

theorem split_asks {cause : Failure} (asks : K (.sendBoth (probe plan.source vm.token ctx.probeWait)
      (probe plan.destination vm.token ctx.probeWait))) :
    (split ctx vm plan cause).Within K fun _ => True :=
  (powerStates_asks asks).then fun _ _ => trivial

end

theorem check_within (plan : Plan) : (check plan).run.Within Silent fun _ => True := by
  refine (loadVm_within _ ⟨trivial, id⟩).andThen (fun vm _ => ?_) fun _ _ => trivial
  refine Program.Within.ofExcept (fun _ _ => ?_) fun _ _ => trivial
  refine Program.Within.ofExcept (fun _ _ => ?_) fun _ _ => trivial
  refine (Program.Within.demand ⟨trivial, id⟩).andThen (fun pending _ => ?_) fun _ _ => trivial
  cases pending
  case true => trivial
  refine (loadHost_within _ ⟨trivial, id⟩).andThen (fun destination _ => ?_) fun _ _ => trivial
  refine (Program.Within.ask ⟨trivial, id⟩).andThen (fun volumes _ => ?_) fun _ _ => trivial
  refine (targets_within plan destination volumes).andThen (fun found _ => ?_) fun _ _ => trivial
  split
  · trivial
  refine (Program.Within.ask ⟨trivial, id⟩).andThen (fun connected _ => ?_) fun _ _ => trivial
  refine (Program.Within.ask ⟨trivial, id⟩).andThen (fun guests _ => ?_) fun _ _ => trivial
  exact Program.Within.ofExcept (fun _ _ => trivial) fun _ _ => trivial

theorem locate_within (ctx : Context) (vm : Vm) (plan : Plan) (lost : Failure) :
    (locate ctx vm plan lost).Within Quiet fun _ => True := locate_asks fun _ => trivial

theorem sendAway_within (ctx : Context) (vm : Vm) (plan : Plan) :
    (sendAway ctx vm plan).Within Quiet fun _ => True := sendAway_asks trivial fun _ => trivial

theorem send_within (ctx : Context) (vm : Vm) (plan : Plan) (rendezvous : Agent.Rendezvous) :
    (send ctx vm plan rendezvous).run.Within Quiet
      fun result => ∀ failure, result ≠ .error (.rejected failure) :=
  send_asks trivial trivial trivial

theorem split_within (ctx : Context) (vm : Vm) (plan : Plan) (cause : Failure) :
    (split ctx vm plan cause).Within Quiet fun _ => True := split_asks trivial

end Migration

namespace Recovery

/-- The update writes down what hosts say of a machine. -/
structure Reports (vm : Vm) (u : StateUpdate) : Prop where
  subject : u.vm = vm.id
  expected : u.expectedState = vm.state
  state : u.state = .running ∨ u.state = .stopped

/-- What hosts say of a machine leads to one of two states. -/
theorem leads_of_report {event : ControlPlane.Event} {state next : State}
    (reported : event = .agentReportsRunning ∨ event = .agentReportsStopped)
    (legal : state.next? event = some next) : next = .running ∨ next = .stopped := by
  rcases reported with rfl | rfl <;> cases state <;> cases legal <;> decide

section
variable {ctx : Operation.Context} {vm : Vm} {item : Work.Item} (quiet : ∀ r, Quiet r → K r)
  (swaps : ∀ u, Reports vm u → K (.transact (.swap u)))
include quiet swaps

theorem report_asks {event : ControlPlane.Event} {host : Option HostId}
    (reported : event = .agentReportsRunning ∨ event = .agentReportsStopped) :
    (report vm event host).run.Within K fun _ => True := by
  refine .andThen (Transition.run_checks _ (quiet _ trivial) (quiet _ trivial)
    fun found u checked => ?_)
    (fun _ _ => trivial) fun _ _ => trivial
  obtain ⟨next, legal, -, -, -, e⟩ := Transition.check_ok checked
  rw [e]
  exact swaps _ ⟨rfl, rfl, leads_of_report reported legal⟩

theorem settleTransient_asks : (settleTransient ctx vm).run.Within K fun _ => True := by
  unfold settleTransient
  split
  · trivial
  · refine .ofProgram (Agent.powerState_asks (quiet _ trivial)) fun answer _ => ?_
    split
    · exact .andThen (report_asks quiet swaps (.inl rfl)) (fun _ _ => trivial) fun _ _ => trivial
    · exact .andThen (report_asks quiet swaps (.inr rfl)) (fun _ _ => trivial) fun _ _ => trivial
    · trivial

theorem settleMigration_asks {plan : Plan} (moves : K (.transact (.moveVolumes (movesOf plan)))) :
    (settleMigration ctx vm plan).run.Within K fun _ => True := by
  have reports : ∀ {event host}, event = .agentReportsRunning ∨ event = .agentReportsStopped →
      (do report vm event host; return .resolved : Procedure Decision).run.Within K fun _ => True :=
    fun reported => .andThen (report_asks quiet swaps reported)
      (fun _ _ => trivial) fun _ _ => trivial
  refine .ofProgram (Agent.powerStates_asks (quiet _ trivial)) fun answers _ => ?_
  have lands : (do
      if vm.host = some plan.destination then return .resolved
      if plan.MovesStorage then demand (.transact (.moveVolumes (movesOf plan))) rfl
      report vm .agentReportsRunning (some plan.destination)
      return .resolved : Procedure Decision).run.Within K fun _ => True := by
    split
    · trivial
    · split
      · exact .andThen (.demand moves) (fun _ _ => reports (.inl rfl)) fun _ _ => trivial
      · exact reports (.inl rfl)
  dsimp only
  split
  · exact lands
  · exact lands
  · split
    · trivial
    · exact reports (.inl rfl)
  · exact reports (.inr rfl)
  · trivial

/-- A machine is settled by writes to it alone, and to the volumes that the plan of the item
names. -/
theorem settle_asks
    (moves : ∀ plan, item.plan = some plan → K (.transact (.moveVolumes (movesOf plan)))) :
    (settle ctx item vm).run.Within K fun _ => True := by
  unfold settle
  split
  · exact settleMigration_asks quiet swaps (moves _ ‹_›)
  · exact settleMigration_asks quiet swaps (moves _ ‹_›)
  · exact settleTransient_asks quiet swaps
  · exact settleTransient_asks quiet swaps
  · exact settleTransient_asks quiet swaps
  · trivial

end

section
variable {ctx : Operation.Context} (quiet : ∀ r, Quiet r → K r)
  (swaps : ∀ u, K (.transact (.swap u))) (moves : ∀ moves, K (.transact (.moveVolumes moves)))
  (closes : ∀ id step now, K (.transact (.recoverItem id step now)))
include quiet swaps moves closes

theorem resolve_asks (item : Work.Item) : (resolve ctx item).run.Within K fun _ => True := by
  have shuts : ∀ {step : Work.Step} {note : Report}, (do
      if ← Work.closeRecovered item step then return note
        else return {} : Procedure Report).run.Within
        K fun _ => True := by
    intro step note
    have shut : (Work.closeRecovered item step).run.Within K fun _ => True :=
      .andThen (.ask (quiet _ trivial)) (fun _ _ => .ask (closes ..)) fun _ _ => trivial
    exact .andThen shut (fun closed _ => by cases closed <;> trivial) fun _ _ => trivial
  refine .andThen (.ask (quiet _ trivial)) (fun found _ => ?_) fun _ _ => trivial
  cases found with
  | none => exact shuts
  | some vm =>
    refine .ofProgram (settle_asks quiet (fun u _ => swaps u) fun plan _ => moves _)
      fun result _ => ?_
    rcases result with failure | _ | _
    · trivial
    · exact shuts
    · trivial

variable (clerical : ∀ r, Clerical r → K r)
include clerical

theorem visit_asks (item : Work.Item) : (visit ctx item).run.Within K fun _ => True := by
  have locks : (Work.lock ctx.node item.vm).run.Within K fun _ => True :=
    .andThen (.ask (clerical _ trivial))
      (fun granted _ => by cases granted <;> trivial) fun _ _ => trivial
  refine .ofProgram locks fun result _ => ?_
  cases result with
  | error failure => trivial
  | ok _ =>
    have unlocks : ∀ {how},
      (ask (.unlock (Work.lockName ctx.node item.vm) how)).run.Within K fun _ => True :=
      .ask (clerical _ trivial)
    have resolves : (Work.orUnlock ctx.node item.vm (resolve ctx item)).run.Within
      K fun _ => True := by
      refine .then (resolve_asks quiet swaps moves closes item) fun result _ => ?_
      cases result with
      | ok report => trivial
      | error failure => exact .andThen unlocks (fun _ _ => trivial) fun _ _ => trivial
    exact .andThen resolves (fun _ _ => .andThen unlocks (fun _ _ => trivial) fun _ _ => trivial)
      fun _ _ => trivial

theorem scan_asks : (scan ctx).run.Within K fun _ => True := by
  have visits : ∀ items, (visitAll ctx items).run.Within K fun _ => True := by
    intro items
    induction items with
    | nil => trivial
    | cons item items ih =>
      refine .andThen (visit_asks quiet swaps moves closes clerical item)
        (fun _ _ => ?_) fun _ _ => trivial
      exact .andThen ih (fun _ _ => trivial) fun _ _ => trivial
  exact .andThen (.ask (quiet _ trivial)) (fun items _ => visits items) fun _ _ => trivial

end

end Recovery

namespace Concurrent
open Operation Migration

variable {C : Contract} {R : Assertion} {T : Vm → Assertion} {past : List Exchange} {s : Shared}

theorem Lasting.and {K : Control.Request → Prop} {P Q : Assertion} (hP : Lasting C K P)
    (hQ : Lasting C K Q) :
    Lasting C K fun past s => P past s ∧ Q past s where
  stable _ _ _ rely inv h := ⟨hP.stable rely inv h.1, hQ.stable rely inv h.2⟩
  fit kind h inv := hP.fit kind h.1 inv
  keeps kind h := ⟨hP.keeps kind h.1, hQ.keeps kind h.2⟩

theorem safe_loadVm {id : VmId} {K : Control.Request → Prop} (kind : K (.transact (.vm id)))
    (lasting : Lasting C K R) (h : R past s)
    (loaded : ∀ {vm s}, C.invariant s → s.store.vm? id = some vm → R past s →
      T vm (past ++ [⟨.transact (.vm id), some vm, s.store⟩]) s) :
    Safe C (fun result past s => R past s ∧ ∀ vm, result = .ok vm → T vm past s)
      (loadVm id).run past s := by
  refine Safe.andThen (Q := fun result past s => R past s ∧
    ∀ vm, result = .ok (some vm) → T vm past s)
    (Safe.ask lasting.stable (fun _ => rfl) h fun s h inv => ⟨lasting.fit kind h inv, ?_⟩) ?_
    fun _ _ _ h => ⟨h.1, by rintro _ ⟨⟩⟩
  · rintro _ _ ⟨-, rfl, rfl⟩
    refine ⟨C.allow_refl inv, lasting.keeps kind h, fun vm stored => ?_⟩
    simp only [Transaction.apply, Except.ok.injEq] at stored ⊢
    rw [stored]
    exact loaded inv stored h
  · intro found past s h
    cases found with
    | none => exact ⟨h.1, by rintro _ ⟨⟩⟩
    | some vm =>
      refine ⟨h.1, ?_⟩
      rintro _ ⟨⟩
      exact h.2 vm rfl

/-- The reply is what the store says when it comes, and the job remembers it. -/
theorem safe_reads {t : Transaction} (reads : t.Reads)
    (lasting : Lasting C Silent R) (h : R past s) :
    Safe C (fun result past s => R past s ∧ ∃ before, result = .ok (t.apply before).1 ∧
      (⟨.transact t, (t.apply before).1, before⟩ : Exchange) ∈ past)
      (ask (.transact t)).run past s := by
  refine Safe.ask lasting.stable (fun _ => rfl) h fun s h inv => ?_
  have silent : Silent (.transact t) := ⟨reads, fun no => no⟩
  refine ⟨lasting.fit silent h inv, ?_⟩
  intro reply s' answers
  obtain rfl := eq_of_answers silent.1 answers
  obtain ⟨-, rfl, -⟩ := answers
  exact ⟨C.allow_refl inv, lasting.keeps silent h, _, rfl, List.mem_append_right _ (.head _)⟩

theorem safe_loadHost {id : HostId} (lasting : Lasting C Silent R) (h : R past s) :
    Safe C (fun result past s => R past s ∧ ∀ host, result = .ok host → host.id = id)
      (loadHost id).run past s := by
  refine Safe.andThen (safe_reads (t := .host id) trivial lasting h) ?_ fun _ _ _ h =>
    ⟨h.1, by rintro _ ⟨⟩⟩
  intro found past s h
  obtain ⟨h, before, told, -⟩ := h
  cases told
  simp only [Transaction.apply]
  cases stored : before.host? id with
  | none => exact ⟨h, by rintro _ ⟨⟩⟩
  | some host =>
    refine ⟨h, ?_⟩
    rintro _ ⟨⟩
    exact Id.key_injective (Table.key_of_get? stored)

theorem safe_plan {request : Migration.Request} (lasting : Lasting C Silent R) (h : R past s) :
    Safe C (fun result past s => R past s ∧ ∀ p, result = .ok p →
      p.vm = request.vm ∧ p.source = request.source ∧ p.destination = request.destination)
      (Migration.plan request).run past s := by
  refine Safe.andThen (safe_loadHost lasting h) ?_ fun _ _ _ h => ⟨h.1, fun _ e => by cases e⟩
  intro source past s h
  obtain ⟨h, from_source⟩ := h
  refine Safe.andThen (safe_loadHost lasting h) ?_ fun _ _ _ h => ⟨h.1, fun _ e => by cases e⟩
  intro destination past s h
  obtain ⟨h, to_destination⟩ := h
  refine ⟨h, ?_⟩
  rintro _ ⟨⟩
  exact ⟨rfl, from_source source rfl, to_destination destination rfl⟩

structure Movable (plan : Plan) (vm : Vm) : Prop where
  running : vm.state = .running
  host : vm.host = some plan.source
  away : plan.source ≠ plan.destination

theorem movable_of_checks {plan : Plan} {vm : Vm} {operation : String} {u u' : Unit}
    (stated : requireState vm operation [.running] = .ok u) (placed : checkHosts plan vm = .ok u') :
    Movable plan vm := by
  have running := List.mem_singleton.1 (mem_of_requireState stated)
  unfold checkHosts at placed
  split at placed
  · cases placed
  next host =>
    split at placed
    · cases placed
    next away => exact ⟨running, Decidable.not_not.1 host, away⟩

theorem safe_check {plan : Plan} (lasting : Lasting C Silent R)
    (lasting' : ∀ vm, Lasting C Silent (T vm)) (h : R past s)
    (loaded : ∀ {vm s}, C.invariant s → s.store.vm? plan.vm = some vm → R past s →
      T vm (past ++ [⟨.transact (.vm plan.vm), some vm, s.store⟩]) s) :
    Safe C (fun result past s => R past s ∧ ∀ pair, result = .ok pair →
      T pair.1 past s ∧ Movable plan pair.1) (check plan).run past s := by
  refine Safe.andThen (safe_loadVm ⟨trivial, id⟩ lasting h loaded) ?_
    fun _ _ _ h => ⟨h.1, fun _ e => nomatch e⟩
  intro vm past s ⟨h, noted⟩
  have noted := noted vm rfl
  refine Safe.ofExcept (fun _ stated => ?_) fun _ _ => ⟨h, fun _ e => nomatch e⟩
  refine Safe.ofExcept (fun _ placed => ?_) fun _ _ => ⟨h, fun _ e => nomatch e⟩
  have movable : Movable plan vm := movable_of_checks stated placed
  refine (Safe.within (R := fun past s => R past s ∧ T vm past s)
    (P := fun result => ∀ pair, result = .ok pair → pair.1 = vm) ?_ (fun _ silent => silent.1)
    (lasting.and (lasting' vm)) ⟨h, noted⟩).mono ?_
  · refine (Program.Within.demand ⟨trivial, id⟩).andThen (fun pending _ => ?_)
      fun _ _ _ e => nomatch e
    cases pending
    case true => exact fun _ e => nomatch e
    refine (loadHost_within _ ⟨trivial, id⟩).andThen (fun destination _ => ?_)
      fun _ _ _ e => nomatch e
    refine (Program.Within.ask ⟨trivial, id⟩).andThen (fun volumes _ => ?_)
      fun _ _ _ e => nomatch e
    refine (targets_within plan destination volumes).andThen (fun found _ => ?_)
      fun _ _ _ e => nomatch e
    split
    · exact fun _ e => nomatch e
    refine (Program.Within.ask ⟨trivial, id⟩).andThen (fun connected _ => ?_)
      fun _ _ _ e => nomatch e
    refine (Program.Within.ask ⟨trivial, id⟩).andThen (fun guests _ => ?_)
      fun _ _ _ e => nomatch e
    refine Program.Within.ofExcept (fun _ _ => ?_) fun _ _ _ e => nomatch e
    rintro _ ⟨⟩
    rfl
  · intro result past s h
    obtain ⟨same, h, noted⟩ := h
    refine ⟨h, ?_⟩
    rintro pair rfl
    rw [same pair rfl]
    exact ⟨noted, movable⟩

end Concurrent
end ControlPlane
