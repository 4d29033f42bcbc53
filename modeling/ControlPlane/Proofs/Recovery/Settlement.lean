import ControlPlane.Proofs.Concurrent.MachineInMotion
import ControlPlane.Proofs.Transition.Requests
import ControlPlane.Recovery

/-!
# What a scan makes of a record

Once it is known which hosts have a machine on, it is known what a recovery scan makes of its
record: it moves the record at most once, after that the machine is at rest, and another look at it
finds nothing to do. There are two exceptions. A machine that migrates, but is recorded where it
goes, is left migrating; and a machine that starts or stops apart from the hosts of its plan is
moved a second time.
-/

namespace ControlPlane.Recovery
open Work

/-- How a machine has to move whose migration broke off. -/
def lands? (on : HostId → Bool) (plan : Plan) (vm : Vm) : Option (Event × Option HostId) :=
  if on plan.source then
    if vm.state = .running ∧ vm.host = some plan.source then none
    else some (.agentReportsRunning, some plan.source)
  else if on plan.destination then
    if vm.host = some plan.destination then none
    else some (.agentReportsRunning, some plan.destination)
  else some (.agentReportsStopped, none)

def stirs? (on : HostId → Bool) (vm : Vm) : Option (Event × Option HostId) :=
  vm.host.map fun host => (if on host then .agentReportsRunning else .agentReportsStopped, none)

def calls? (on : HostId → Bool) (item : Item) (vm : Vm) : Option (Event × Option HostId) :=
  match item.plan, vm.state with
  | some plan, .migrating | some plan, .running => lands? on plan vm
  | _, .starting | _, .stopping | _, .migrating => stirs? on vm
  | _, _ => none

/-- The transition by which a scan moves a machine. -/
def asked (vm : Vm) (event : Event) (host : Option HostId) : Transition :=
  ⟨vm.id, vm.state, event, host, some vm.version⟩

/-- What a scan makes of a record. -/
def restored (on : HostId → Bool) (item : Item) (vm : Vm) : Vm :=
  match calls? on item vm with
  | none => vm
  | some (event, host) =>
    match (asked vm event host).check vm with
    | .ok u => u.apply vm
    | .error _ => vm

/-- The machine is not recorded where it goes while it still migrates there. -/
def Behind (on : HostId → Bool) (item : Item) (vm : Vm) : Prop :=
  ∀ plan, item.plan = some plan → vm.state = .migrating → vm.host = some plan.destination →
    on plan.source = false → on plan.destination = false

/-- A host is the source of a plan, or its destination and the source has the machine off. -/
def Hosted (on : HostId → Bool) (plan : Plan) (host : HostId) : Prop :=
  host = plan.source ∨ host = plan.destination ∧ on plan.source = false

/-- A machine that starts or stops does so where its plan finds it. -/
def Homed (on : HostId → Bool) (item : Item) (vm : Vm) : Prop :=
  ∀ plan host, item.plan = some plan → vm.state = .starting ∨ vm.state = .stopping →
    vm.host = some host → on host = true → Hosted on plan host

variable {on : HostId → Bool} {item : Item} {vm : Vm} {plan : Plan} {event : Event}
  {host : Option HostId}

/-- What a machine may be called to: it stops, or it runs where it is on, and that is where its plan
finds it unless it starts or stops elsewhere. -/
inductive Called (on : HostId → Bool) (item : Item) (vm : Vm) : Event → Option HostId → Prop
  | stops {host : Option HostId} : Called on item vm .agentReportsStopped host
  | runs {host : Option HostId} {there : HostId} (here : host.or vm.host = some there)
      (power : on there = true)
      (hosted : Homed on item vm → ∀ plan, item.plan = some plan → Hosted on plan there) :
      Called on item vm .agentReportsRunning host

theorem called_of_lands (planned : item.plan = some plan)
    (h : lands? on plan vm = some (event, host)) :
    Called on item vm event host := by
  have runs : ∀ {there}, on there = true → Hosted on plan there →
      Called on item vm .agentReportsRunning (some there) := by
    intro there power hosted
    refine .runs rfl power fun _ plan' planned' => ?_
    rw [planned] at planned'
    cases planned'
    exact hosted
  unfold lands? at h
  split at h
  next here =>
    split at h
    · cases h
    · cases h
      exact runs here (.inl rfl)
  next away =>
    split at h
    next there =>
      split at h
      · cases h
      · cases h
        exact runs there (.inr ⟨rfl, by simpa using away⟩)
    · cases h
      exact .stops

theorem called_of_stirs (apart : item.plan = none ∨ vm.state = .starting ∨ vm.state = .stopping)
    (h : stirs? on vm = some (event, host)) : Called on item vm event host := by
  obtain ⟨there, here, e⟩ := Option.map_eq_some_iff.1 h
  cases e
  cases power : on there with
  | false => exact .stops
  | true =>
    refine .runs here power fun homed plan planned => ?_
    rcases apart with bare | state
    · rw [bare] at planned
      cases planned
    · exact homed plan there planned state here power

theorem called (h : calls? on item vm = some (event, host)) :
    vm.state.HoldsHost ∧ Called on item vm event host := by
  unfold calls? at h
  split at h
  next planned state => exact ⟨.inr (.inr (.inr state)), called_of_lands planned h⟩
  next planned state => exact ⟨.inr (.inl state), called_of_lands planned h⟩
  next state => exact ⟨.inl state, called_of_stirs (.inr (.inl state)) h⟩
  next state => exact ⟨.inr (.inr (.inl state)), called_of_stirs (.inr (.inr state)) h⟩
  next state bare =>
    refine ⟨.inr (.inr (.inr state)), called_of_stirs (.inl ?_) h⟩
    cases planned : item.plan with
    | none => rfl
    | some plan => exact absurd planned (bare plan)
  · cases h

theorem restored_of_calls (h : calls? on item vm = some (event, host)) :
    ∃ u, (asked vm event host).check vm = .ok u ∧ restored on item vm = u.apply vm ∧
      (u.state = .stopped ∨
        event = .agentReportsRunning ∧ u.state = .running ∧ u.host = host.or vm.host) := by
  obtain ⟨holds, call⟩ := called h
  have settles : ∀ {u}, (asked vm event host).check vm = .ok u →
    restored on item vm = u.apply vm := by
    intro u checked
    simp only [restored, h, checked]
  cases call with
  | stops =>
    have legal : vm.state.next? .agentReportsStopped = some .stopped := by
      rcases holds with state | state | state | state <;> rw [state] <;> rfl
    have checked := Transition.check_eq_ok (t := asked vm .agentReportsStopped host) legal rfl rfl
      (Transition.hosts_left host (by decide))
    exact ⟨_, checked, settles checked, .inl rfl⟩
  | @runs _ there here =>
    have legal : vm.state.next? .agentReportsRunning = some .running := by
      rcases holds with state | state | state | state <;> rw [state] <;> rfl
    have hosted : Transition.hosts vm .running host =
        .ok (some there, if vm.host = some there then vm.lastHost else vm.host.or vm.lastHost) := by
      rw [Transition.hosts, if_pos (by decide), here]
    have checked := Transition.check_eq_ok (t := asked vm .agentReportsRunning host)
      legal rfl rfl hosted
    exact ⟨_, checked, settles checked, .inr ⟨rfl, rfl, here.symm⟩⟩

theorem restored_of_none (h : calls? on item vm = none) : restored on item vm = vm := by
  simp only [restored, h]

theorem calls_of_motion (placed : vm.Placed) (behind : Behind on item vm)
    (moves : vm.state.InMotion) :
    (calls? on item vm).isSome := by
  have hosted : vm.host.isSome := by
    refine placed.2 ?_
    rcases moves with state | state | state <;> rw [state] <;> decide
  have stirs : (stirs? on vm).isSome := by rwa [stirs?, Option.isSome_map]
  rcases moves with state | state | state
  · cases planned : item.plan <;> simpa only [calls?, planned, state] using stirs
  · cases planned : item.plan <;> simpa only [calls?, planned, state] using stirs
  · cases planned : item.plan with
    | none => simpa only [calls?, planned, state] using stirs
    | some plan =>
      simp only [calls?, planned, state, lands?]
      cases source : on plan.source with
      | true => rfl
      | false =>
        cases destination : on plan.destination with
        | false => rfl
        | true =>
          have away : vm.host ≠ some plan.destination := by
            intro there
            rw [behind plan planned state there source] at destination
            cases destination
          simp [away]

theorem restored_rests (placed : vm.Placed) (behind : Behind on item vm) :
    ¬ (restored on item vm).state.InMotion := by
  cases h : calls? on item vm with
  | none =>
    rw [restored_of_none h]
    intro moves
    have called := calls_of_motion placed behind moves
    rw [h] at called
    cases called
  | some call =>
    obtain ⟨u, -, e, state⟩ := restored_of_calls h
    have there : (u.apply vm).state = u.state := rfl
    rw [e, there]
    rcases state with state | ⟨-, state, -⟩ <;> rw [state] <;> decide

/-- A machine that a scan has moved is not called to anything else. -/
theorem restored_once (homed : Homed on item vm) : calls? on item (restored on item vm) = none := by
  cases h : calls? on item vm with
  | none => rw [restored_of_none h, h]
  | some call =>
    obtain ⟨event, host⟩ := call
    obtain ⟨u, checked, e, state⟩ := restored_of_calls h
    have same : (u.apply vm).state = u.state ∧ (u.apply vm).host = u.host := ⟨rfl, rfl⟩
    rw [e]
    generalize u.apply vm = w at same ⊢
    rcases state with state | ⟨rfl, state, there⟩
    · cases planned : item.plan <;> simp only [calls?, planned, same.1, state]
    obtain ⟨-, call⟩ := called h
    obtain @⟨⟩ | ⟨here, power, hosted⟩ := call
    have placed : w.host = some _ := same.2.trans (there.trans here)
    cases planned : item.plan with
    | none => simp only [calls?, planned, same.1, state]
    | some plan =>
      simp only [calls?, planned, same.1, state, lands?]
      rcases hosted homed plan planned with source | ⟨destination, off⟩
      · rw [source] at power placed
        simp [power, placed]
      · rw [destination] at power placed
        simp [off, power, placed]

end ControlPlane.Recovery
