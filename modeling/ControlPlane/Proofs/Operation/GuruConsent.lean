import ControlPlane.Proofs.Operation.MoveDiscipline
import ControlPlane.Proofs.Operation.RecordedTransitions
import ControlPlane.Proofs.Recovery.ProbeAnswers

/-!
# Agreement before a machine runs or stops

A machine that was starting is recorded as running by its start, once the guru has agreed; or by a
recovery scan, which knows no guru and takes the word of the host. A machine that runs is sent to
its stop by a stop alone, once the guru has prepared for it.
-/

namespace ControlPlane.Concurrent
open Work Control Operation Procedure Recovery

/-- The guru has agreed that the machine runs on the host, as it was recorded in a version. -/
def Agreed (v : VmId) (version : UInt64) (host : HostId) (past : List Exchange) : Prop :=
  ∃ asked before, (⟨.finalizeStart asked host, .ok (), before⟩ : Exchange) ∈ past ∧
    asked.id = v ∧ asked.version = version

/-- The guru has prepared for the stop of the machine, as it was recorded in a version. -/
def Readied (v : VmId) (version : UInt64) (past : List Exchange) : Prop :=
  ∃ asked before, (⟨.prepareStop asked, .ok (), before⟩ : Exchange) ∈ past ∧
    asked.id = v ∧ asked.version = version

/-- The host was asked for the power of the machine, and has said that it runs there. -/
def Confirmed (host : HostId) (token : String) (past : List Exchange) : Prop :=
  ∃ wait answer before, (⟨.send (Agent.probe host token wait), answer, before⟩ : Exchange) ∈
    past ∧ Agent.powerOf host answer = .ok .on

/-- On whose word a job may record that a machine runs which was starting on the host. -/
inductive Vouches (vm : Vm) (host : HostId) (past : List Exchange) : Duty → Prop
  | start (ctx : Context) (agreed : Agreed vm.id vm.version host past) :
    Vouches vm host past (.operate ctx (.start vm.id))
  | scan (ctx : Context) (confirmed : Confirmed host vm.token past) :
      Vouches vm host past (.scan ctx)

/-- On whose word a job may send a machine that runs to its stop. -/
inductive Permits (vm : Vm) (past : List Exchange) : Duty → Prop
  | stop (ctx : Context) (force : Bool) (readied : Readied vm.id vm.version past) :
    Permits vm past (.operate ctx (.stop vm.id force))

structure Licensed (task : Duty) (past : List Exchange) (vm : Vm) (u : StateUpdate) : Prop where
  starts : vm.state = .starting → u.state = .running →
    ∃ host, vm.host = some host ∧ u.host = some host ∧ Vouches vm host past task
  stops : vm.state = .running → u.state = .stopping → Permits vm past task

def Licit (task : Duty) (past : List Exchange) (s : Shared) (r : Control.Request) : Prop :=
  ∀ u vm, r = .transact (.swap u) → s.store.vm? u.vm = some vm → u.Matches vm →
    Licensed task past vm u

abbrev consenting (task : Duty) (node : NodeId) (job : Nat) : Contract :=
  reviewed Named (Licit task) node job

/-- None of the moves needs anybody's word. -/
def Ordinary (legs : List (State × ControlPlane.Event)) : Prop :=
  ∀ leg ∈ legs, (leg.1 = .starting → leg.1.next? leg.2 ≠ some .running) ∧
    (leg.1 = .running → leg.1.next? leg.2 ≠ some .stopping)

instance (legs : List (State × ControlPlane.Event)) : Decidable (Ordinary legs) := by
  unfold Ordinary
  infer_instance

variable {task : Duty} {node : NodeId} {job : Nat} {s : Shared} {past : List Exchange} {α : Type}
  {r : Control.Request} {legs : List (State × ControlPlane.Event)} {ctx : Context} {v : VmId}
  {c : Item} {plan : Option Plan} {vm starting : Vm} {host : HostId}
  {e : Exchange} {version : UInt64}

theorem Readied.append (h : Readied v version past) : Readied v version (past ++ [e]) := by
  obtain ⟨asked, before, mem, rest⟩ := h
  exact ⟨asked, before, List.mem_append_left _ mem, rest⟩

theorem Agreed.append (h : Agreed v version host past) : Agreed v version host (past ++ [e]) := by
  obtain ⟨asked, before, mem, rest⟩ := h
  exact ⟨asked, before, List.mem_append_left _ mem, rest⟩

theorem Confirmed.append {token : String} (h : Confirmed host token past) :
    Confirmed host token (past ++ [e]) := by
  obtain ⟨wait, answer, before, mem, on⟩ := h
  exact ⟨wait, answer, before, List.mem_append_left _ mem, on⟩

theorem licit_of_noSwap (noSwap : ∀ u, r ≠ .transact (.swap u)) : Licit task past s r :=
  fun u _ e => absurd e (noSwap u)

theorem licit_of_records (ordinary : Ordinary legs) (records : Records legs r) :
    Licit task past s r := by
  intro u vm e _ fits
  obtain ⟨leg, mem, from_, goes⟩ := records u e
  have same : leg.1 = vm.state := from_.trans fits.1.symm
  refine ⟨fun starts runs => ?_, fun runs stops => ?_⟩
  · exact absurd (runs ▸ goes) ((ordinary leg mem).1 (same.trans starts))
  · exact absurd (stops ▸ goes) ((ordinary leg mem).2 (same.trans runs))

/-- Whatever hosts say of a machine that is not starting may be written down. -/
theorem licit_of_reports (other : vm.state ≠ .starting)
    (reports : ∀ u, r = .transact (.swap u) → Reports vm u) : Licit task past s r := by
  intro u vm' e _ fits
  have same : vm'.state = vm.state := fits.1.trans (reports u e).expected
  refine ⟨fun starts => absurd (same.symm.trans starts) other, fun _ stops => ?_⟩
  rcases (reports u e).state with runs | rests
  · cases runs.symm.trans stops
  · cases rests.symm.trans stops

theorem consents_within {p : Program surroundings α} (ordinary : Ordinary legs)
    (within : p.Within (Records legs) fun _ => True) :
    Safe (consenting task node job) Anyhow p past s :=
  (Safe.learned (R := fun _ => True) within (fun records _ => licit_of_records ordinary records)
    (fun _ => trivial) trivial).mono fun _ _ _ _ => trivial

theorem lasting_consenting {P : Assertion} (stable : Stable (consenting task node job) P)
    (keeps : ∀ {past s e}, P past s → P (past ++ [e]) s) :
    Lasting (consenting task node job) Request.Quiet P :=
  ⟨stable, fun quiet _ _ => licit_of_noSwap (noSwap_of_quiet quiet), fun _ h => keeps h⟩

/-- A job makes an update that it may make as long as something is known. -/
theorem consents_swap {t : Transition} {u : StateUpdate} {P : Assertion}
    (stable : Stable (consenting task node job) P)
    (licit : ∀ {past s}, P past s → Licit task past s (.transact (.swap u))) (h : P past s) :
    Safe (consenting task node job) Anyhow (.ask (.transact (.swap u)) t.afterSwap) past s := by
  refine Safe.carry stable h (fun _ h _ => licit h) fun s _ _ _ => ⟨trivial, ?_⟩
  generalize (Transaction.apply s.store (.swap u)).1 = reply
  rcases reply with failure | _ | written <;> trivial

/-- The machine was sent on its way with a record, and while it is on its way its record is that
one. -/
def Launched (job : Nat) (c : Item) (plan : Option Plan) (starting : Vm) : Assertion :=
  fun _ s => Bearing job c plan starting s ∧
    Bound c (fun _ version => version = starting.version) s

theorem lasting_launched :
    Lasting (consenting task c.owner job) Request.Quiet (Launched job c plan starting) :=
  lasting_consenting (upheld_bearing starting).stable_bound.again fun h => h

theorem lasting_at_work :
    Lasting (consenting task c.owner job) Request.Quiet fun _ s => Working job c plan s :=
  lasting_consenting (upheld_working job c plan).stable.again fun h => h

theorem Launched.same (h : Launched job c plan starting past s)
    (stored : s.store.vm? c.vm = some vm) (moves : vm.state.InMotion) :
    vm.version = starting.version ∧ vm.host = starting.host := by
  obtain ⟨x, covers, same, -⟩ := h.1.covered
  have version := h.2 x covers same vm stored moves
  exact ⟨version, (h.1.seen vm stored).2 version⟩

/-- The update by which a start to which the guru has agreed comes to its end. -/
theorem Launched.licit {u : StateUpdate} (h : Launched job c plan starting past s)
    (agreed : Agreed c.vm starting.version host past) (here : starting.host = some host)
    (about : u.vm = c.vm) (expected : u.expectedState = .starting) (stays : u.host = some host) :
    Licit (.operate ctx (.start c.vm)) past s (.transact (.swap u)) := by
  rintro _ vm ⟨⟩ stored fits
  have starts : vm.state = .starting := fits.1.trans expected
  have named : vm.id = c.vm := (Store.id_of_vm? stored).trans about
  obtain ⟨version, placed⟩ := h.same (about ▸ stored) (.inl starts)
  refine ⟨fun _ _ => ⟨host, placed.trans here, stays, ?_⟩,
    fun runs => (by cases starts.symm.trans runs)⟩
  rw [← named, ← version] at agreed
  rw [← named]
  exact .start ctx agreed

/-- A job that works on a machine makes a transition that needs nobody's word. -/
theorem consents_run {t : Transition} (subject : t.vm = c.vm)
    (ordinary : Ordinary [(t.expected, t.event)]) (h : Working job c plan s) :
    Safe (consenting task c.owner job) (Ends (fun written past s => written.id = c.vm ∧
        (∃ vm u, t.check vm = .ok u ∧ written.host = u.host) ∧
        Launched job c plan written past s)
      fun _ s => Working job c plan s) t.run.run past s := by
  refine Safe.attempt lasting_at_work trivial trivial
    (fun {past s vm u} _ _ checked past' s' working => ?_) (fun _ _ _ h => h) h
  obtain ⟨next, -, -, -, -, e⟩ := Transition.check_ok checked
  have about : u.vm = c.vm := (congrArg StateUpdate.vm e).trans subject
  have records := records_of_check (List.mem_singleton_self (t.expected, t.event)) checked
  refine Safe.carry lasting_at_work.stable working (fun _ _ _ => licit_of_records ordinary records)
    fun s working _ _ => ⟨trivial, ?_⟩
  have working' := working.framed (t := .swap u) rfl rfl
  cases stored : s.store.vm? u.vm with
  | none =>
    have e := Store.swap_missing stored
    simp only [Transaction.apply, e] at working' ⊢
    exact working'
  | some vm' =>
    by_cases fits : u.Matches vm'
    · have e := Store.swap_matching stored fits
      have named : vm'.id = c.vm := (Store.id_of_vm? stored).trans about
      have here : (s.store.swap u).2.vm? c.vm = some (u.apply vm') := by
        rw [e, Store.vm?_insert]
        exact if_pos named
      simp only [Transaction.apply, e] at working' here ⊢
      exact ⟨named, ⟨vm, u, checked, rfl⟩, ⟨working', seen_of_vm? here⟩,
        .of_amid (.of_vm? here fun _ => rfl)⟩
    · have e := Store.swap_stale stored fits
      simp only [Transaction.apply, e] at working' ⊢
      exact working'

section
variable (subject : starting.id = c.vm) (here : starting.host = some host)
include subject here

/-- The guru has agreed, so that the machine may be recorded as running. -/
theorem consents_finishStart (h : Launched job c plan starting past s)
    (agreed : Agreed c.vm starting.version host past) :
    Safe (consenting (.operate ctx (.start c.vm)) c.owner job) Anyhow
      (finishStart starting).run past s := by
  have lasting : Lasting (consenting (.operate ctx (.start c.vm)) c.owner job) Request.Quiet
      fun past s => Launched job c plan starting past s ∧
      Agreed c.vm starting.version host past :=
    lasting_consenting (fun _ _ _ rely inv h => ⟨lasting_launched.stable rely inv h.1, h.2⟩)
      fun h => ⟨h.1, h.2.append⟩
  refine Safe.andThen (Q := Anyhow) ?_ (fun running _ _ _ => ?_) fun _ _ _ _ => trivial
  · refine Safe.attempt lasting trivial trivial
      (fun {past s found u} h stored checked past' s' h' => ?_)
      (fun _ _ _ _ => trivial) ⟨h, agreed⟩
    rw [subject] at stored
    obtain ⟨next, -, -, state, -, e⟩ := Transition.check_ok checked
    obtain ⟨-, hosted⟩ := Transition.hosts_of_check checked rfl
    have stood : found.host = some host := (h.1.same stored (.inl state)).2.trans here
    have stays : u.host = some host := Transition.host_kept hosted (by decide) stood
    have about : u.vm = c.vm := (congrArg StateUpdate.vm e).trans subject
    have expected : u.expectedState = .starting := congrArg StateUpdate.expectedState e
    exact consents_swap lasting.stable (fun h => h.1.licit h.2 here about expected stays) h'
  · exact consents_within (by decide : Ordinary []) markCredentials_records

/-- An attempt to start a machine that is not recorded as running leaves it to the operation. -/
theorem consents_startOn (h : Launched job c plan starting past s) :
    Safe (consenting (.operate ctx (.start c.vm)) c.owner job) (fun result _ s => ∀ failure,
      result = .ok (.refused failure) → Working job c plan s)
        (startOn ctx vm starting host).run past s := by
  refine Safe.query (sendResolved_within ..) (fun _ quiet => quiet) lasting_launched h
    fun resolution past s _ h => ?_
  cases resolution with
  | unknown failure => exact nofun
  | failed failure => exact fun _ _ => h.1.toWorking
  | succeeded =>
    refine Safe.ofProgram (Q := fun result past s => Launched job c plan starting past s ∧
      (result = .ok () → Agreed c.vm starting.version host past)) ?_ fun finalized past s h => ?_
    · refine Safe.observe trivial lasting_launched.stable h
        (fun _ h inv => lasting_launched.fit trivial h inv) fun s reply h _ _ => ⟨h, ?_⟩
      rintro rfl
      exact ⟨starting, s.store, List.mem_append_right _ (List.mem_singleton_self _),
        subject, rfl⟩
    · obtain ⟨h, agreed⟩ := h
      rcases finalized with failure | _
      · exact Safe.query (forceStop_within ..) (fun _ quiet => quiet) lasting_launched h
          fun _ _ _ _ h _ _ => h.1.toWorking
      · exact Safe.adapted (consents_finishStart subject here h (agreed rfl))
          (fun _ _ _ _ => nofun) fun _ _ _ _ => nofun

end

theorem consents_tryStart (subject : vm.id = c.vm) (remaining : Nat)
    (excluded : Placement.Exclusions) (last : Option Failure) (h : Working job c plan s) :
    Safe (consenting (.operate ctx (.start c.vm)) c.owner job) Anyhow
      (tryStart ctx vm remaining excluded last).run past s := by
  induction remaining generalizing excluded last past s with
  | zero => trivial
  | succ remaining ih =>
    refine Safe.look (.demand trivial) (fun _ quiet => quiet) lasting_at_work h
      (fun chosen past s _ h => ?_) fun _ _ _ _ => trivial
    cases chosen with
    | none => trivial
    | some host =>
      refine Safe.look (loadVm_within _ trivial) (fun _ quiet => quiet) lasting_at_work h
        (fun current past s _ h => ?_) fun _ _ _ _ => trivial
      simp only [refusing]
      refine Safe.adapted
        (consents_run subject (by decide : Ordinary [(.stopped, .startRequested)]) h)
        (fun starting past s h => ?_) fun _ _ _ _ => trivial
      obtain ⟨named, ⟨found, u, checked, same⟩, h⟩ := h
      obtain ⟨-, hosted⟩ := Transition.hosts_of_check checked rfl
      have here : starting.host = some host := same.trans (Transition.host_taken hosted (by decide))
      refine Safe.andThen (consents_startOn named here h) (fun attempt past s h => ?_)
        fun _ _ _ _ => trivial
      cases attempt with
      | running vm => trivial
      | refused failure =>
        refine Safe.adapted
          (consents_run subject (by decide : Ordinary [(.starting, .operationFailed)])
            (h failure rfl)) (fun _ past s h => ?_) fun _ _ _ _ => trivial
        exact ih _ _ h.2.2.1.toWorking

theorem consents_startBody {id : VmId} (subject : c.vm = id) (h : Working job c plan s) :
    Safe (consenting (.operate ctx (.start id)) c.owner job) Anyhow
      (startBody ctx id).run past s := by
  subst subject
  refine Safe.adapted (safe_loadVm (T := fun vm _ _ => vm.id = c.vm) trivial lasting_at_work h
    fun _ stored _ => Store.id_of_vm? stored) (fun vm past s h => ?_) fun _ _ _ _ => trivial
  refine Safe.ofAdapted (fun _ _ => ?_) fun _ _ => trivial
  refine Safe.look (requireGuru_within vm.role).quiet (fun _ quiet => quiet) lasting_at_work h.1
    (fun _ past s _ h' => ?_) fun _ _ _ _ => trivial
  exact consents_tryStart (h.2 vm rfl) _ _ _ h'

/-- The update by which a stop for which the guru has prepared begins. -/
theorem licit_of_readied {u : StateUpdate} {force : Bool} (readied : Readied v version past)
    (about : u.vm = v) (expected : u.expectedVersion = version) (stops : u.state = .stopping) :
    Licit (.operate ctx (.stop v force)) past s (.transact (.swap u)) := by
  rintro _ vm ⟨⟩ stored fits
  refine ⟨fun _ runs => (by cases stops.symm.trans runs), fun _ _ => ?_⟩
  have same : vm.id = v := (Store.id_of_vm? stored).trans about
  rw [← fits.2.trans expected, ← same] at readied
  rw [← same]
  exact .stop ctx force readied

theorem consents_stopBody {force : Bool} :
    Safe (consenting (.operate ctx (.stop v force)) node job) Anyhow
      (stopBody ctx v force).run past s := by
  have lasting : Lasting (consenting (.operate ctx (.stop v force)) node job)
    Request.Quiet fun _ _ => True :=
    lasting_consenting (fun _ _ _ _ _ _ => trivial) fun _ => trivial
  refine Safe.adapted (safe_loadVm (T := fun vm _ _ => vm.id = v) trivial lasting trivial
    fun _ stored _ => Store.id_of_vm? stored) (fun vm past s h => ?_) fun _ _ _ _ => trivial
  have named : vm.id = v := h.2 vm rfl
  refine Safe.ofAdapted (fun _ _ => ?_) fun _ _ => trivial
  refine Safe.ofAdapted (fun host _ => ?_) fun _ _ => trivial
  refine Safe.look (requireGuru_within vm.role).quiet (fun _ quiet => quiet) lasting trivial
    (fun _ past s _ _ => ?_) fun _ _ _ _ => trivial
  refine Safe.adapted (Q := fun result past _ => result = .ok () → Readied v vm.version past) ?_
    (fun _ past s readied => ?_) fun _ _ _ _ => trivial
  · refine Safe.observe trivial lasting.stable trivial (fun _ h inv => lasting.fit trivial h inv)
      fun s reply _ _ _ => ?_
    rintro rfl
    exact ⟨vm, s.store, List.mem_append_right _ (List.mem_singleton_self _), named, rfl⟩
  have remembered : Lasting (consenting (.operate ctx (.stop v force)) node job) Request.Quiet
      fun past _ => Readied v vm.version past := lasting_consenting (fun _ _ _ _ _ h => h) .append
  refine Safe.adapted (Q := Anyhow) (Safe.attempt remembered trivial trivial
    (fun _ _ checked past s h => ?_) (fun _ _ _ _ => trivial) (readied rfl)) (fun _ past s _ => ?_)
    fun _ _ _ _ => trivial
  · obtain ⟨next, legal, pinned, -, -, e⟩ := Transition.check_ok checked
    cases legal
    exact consents_swap remembered.stable (fun h => licit_of_readied h (congrArg StateUpdate.vm e)
      ((congrArg StateUpdate.expectedVersion e).trans pinned.symm) (congrArg StateUpdate.state e)) h
  · have ordinary : Ordinary [(.stopping, .operationSucceeded),
      (.stopping, .operationFailed)] := by decide
    refine consents_within ordinary ?_
    refine .ofProgram (query_records (sendResolved_within ..)) fun resolution _ => ?_
    cases resolution with
    | succeeded =>
      refine .adapted (run_records _ (by simp)) fun stopped => ?_
      exact .ofProgram (query_records (.call trivial)) fun _ _ => trivial
    | failed failure => exact .adapted (run_records _ (by simp)) fun _ => trivial
    | unknown failure => trivial

theorem consents_underWork {operation : Operation} {body : Item → Body α} (idle : Idle job s)
    (each : ∀ {item past s}, item.vm = v → Working job item plan s →
      Safe (consenting task item.owner job) Anyhow (body item).run past s) :
    Safe (consenting task ctx.node.id job) Anyhow
      (underWork ctx v operation plan body).run past s :=
  Safe.underWork (fun clerical => licit_of_records (by decide : Ordinary [])
    (records_of_clerical clerical))
    (licit_of_noSwap (by rintro _ ⟨⟩)) idle each

theorem consents_perform (call : Call) (idle : Idle job s) :
    Safe (consenting (.operate ctx call) ctx.node.id job) Anyhow (call.perform ctx).run past s := by
  cases call with
  | start vm =>
    exact Safe.andThen (consents_underWork idle consents_startBody) (fun _ _ _ _ => trivial)
      fun _ _ _ _ => trivial
  | stop vm force =>
    exact Safe.andThen (consents_underWork idle fun _ _ => consents_stopBody)
      (fun _ _ _ _ => trivial) fun _ _ _ _ => trivial
  | migrate request =>
    have ordinary : Ordinary relocating := by decide
    exact consents_within ordinary (perform_records (.migrate request))
  | scale vm resources =>
    have ordinary : Ordinary relocating := by decide
    exact consents_within ordinary (perform_records (.scale vm resources))
  | destroy vm =>
    have ordinary : Ordinary [(.stopped, .destroyRequested), (.error, .destroyRequested)] := by
      decide
    exact consents_within ordinary (perform_records (.destroy vm))
  | recover vm =>
    have ordinary : Ordinary [(.destroyed, .recoveryRequested)] := by decide
    exact consents_within ordinary (perform_records (.recover vm))
  | expunge vm =>
    have ordinary : Ordinary [(.destroyed, .expungeRequested), (.stopped, .expungeRequested)] := by
      decide
    exact consents_within ordinary (perform_records (.expunge vm))

section
variable {R : List Exchange → Prop} (grows : ∀ {past e}, R past → R (past ++ [e]))
include grows

/-- A scan that finds a machine starting takes the word of its host. -/
theorem consents_settleTransient (starts : vm.state = .starting) (h : Knows vm R past s) :
    Safe (consenting (.scan ctx) node job) (fun _ past _ => R past)
      (settleTransient ctx vm).run past s := by
  unfold settleTransient
  cases here : vm.host with
  | none => exact h.2
  | some host =>
    refine Safe.ofProgram (heard_powerState licit_of_noSwap grows h) fun power past s h => ?_
    obtain ⟨h, answer, before, asked, rfl⟩ := h
    split
    next on =>
      have confirmed : Confirmed host vm.token past :=
        ⟨_, answer, before, asked, eq_of_known? on⟩
      refine (heard_noting (R := fun past => R past ∧ Confirmed host vm.token past)
        licit_of_noSwap (fun h => ⟨grows h.1, h.2.append⟩) (fun h notes => ?_)
          ⟨h.1, h.2, confirmed⟩).mono fun _ _ _ h => h.1
      rintro _ vm' ⟨⟩ stored fits
      obtain ⟨found, stood, hosted⟩ := notes.hosts
      have runs := running_of_report notes.legal
      rw [notes.subject] at stored
      have state : vm'.state = .starting := fits.1.trans (notes.expected.trans starts)
      refine ⟨fun _ _ => ⟨host, ?_, ?_, ?_⟩, fun runs' => (by cases state.symm.trans runs')⟩
      · exact ((h.1.seen vm' stored).2 (fits.2.trans notes.version)).trans here
      · exact Transition.host_kept hosted (by rw [runs]; decide) (stood.trans here)
      · have confirmed := h.2.2
        rw [← h.1.named vm' stored] at confirmed
        exact .scan ctx confirmed
    · refine heard_noting licit_of_noSwap grows (fun h notes => ?_) h
      rintro _ vm' ⟨⟩ stored fits
      have state : vm'.state = .starting := fits.1.trans (notes.expected.trans starts)
      have legal := notes.legal
      rw [starts] at legal
      refine ⟨fun _ runs => ?_, fun runs => (by cases state.symm.trans runs)⟩
      rw [runs] at legal
      cases legal
    · exact h.2

theorem consents_settle {item : Item} (h : Knows vm R past s) :
    Safe (consenting (.scan ctx) node job) (fun _ past _ => R past)
      (Recovery.settle ctx item vm).run past s := by
  by_cases starts : vm.state = .starting
  · have settles : Recovery.settle ctx item vm = settleTransient ctx vm := by
      unfold Recovery.settle
      rw [starts]
      cases item.plan <;> rfl
    rw [settles]
    exact consents_settleTransient grows starts h
  · refine (Safe.learned (K := fun r => ∀ u, r = .transact (.swap u) → Reports vm u)
      (Recovery.settle_asks ?_ ?_ ?_)
      (fun reports _ => licit_of_reports starts reports) grows h.2).mono
      fun _ _ _ h => h.2
    · exact fun r quiet u e => absurd e (noSwap_of_quiet quiet u)
    · rintro u reports _ ⟨⟩
      exact reports
    · rintro _ _ _ ⟨⟩

end

variable {sys sys' : System Duty (Except Failure Unit)} {j : Job Duty (Except Failure Unit)}

theorem Duty.consents (idle : Idle job s) :
    Safe (consenting task task.node job) Anyhow task.program past s := by
  cases task with
  | operate ctx call => exact consents_perform call idle
  | scan ctx =>
    exact Safe.andThen (heard_scan licit_of_noSwap fun grows _ _ => consents_settle grows)
      (fun _ _ _ _ => trivial) fun _ _ _ _ => trivial

/-- Each job keeps to writing on somebody's word. -/
theorem jobs_consent {store : Store} (orderly : Orderly store)
    (reached : Reaches duties (.start store) sys) (mem : j ∈ sys.jobs) :
    Adheres (consenting j.task j.task.node j.number) Anyhow j sys.shared := by
  induction reached generalizing j with
  | refl => cases mem
  | @tail sys sys' reached move ih =>
    have kept := (Kept.start orderly).reaches reached
    have kept' := kept.move move
    rcases move.adheres mem with ⟨task, rfl, rfl⟩ | ⟨j₀, mem₀, number, task, adheres⟩
    · exact ⟨fun _ => Duty.consents fun id drew => absurd (kept.stamps drew) (Nat.lt_irrefl _),
        nofun⟩
    · have before := ih mem₀
      rw [number, task] at before
      refine adheres rfl stable_anyhow kept.coherent kept'.coherent (fun mem₁ => ?_) before
      exact .single ⟨kept.passes move mem₁ mem, named_of_move move⟩

end ControlPlane.Concurrent
