import ControlPlane.Proofs.Store.Transactions
import ControlPlane.Transition

/-!
# A transition, request by request

A transition reads the record, passes a point where it can be made to fail, and swaps. What it
swaps in is told by the record that it has read, and the swap is refused by any other version.
-/

namespace ControlPlane.Transition
open Control

def afterSwap (t : Transition) :
    Except Failure (Option Vm) → Program surroundings (Except Failure Vm)
  | .error failure => .done (.error failure)
  | .ok (some written) => .done (.ok written)
  | .ok none => .done (.error (.conflict t.vm (.changedDuring t.event)))

def afterPass (t : Transition) (u : StateUpdate) :
    Except Failure Unit → Program surroundings (Except Failure Vm)
  | .error failure => .done (.error failure)
  | .ok _ => .ask (.transact (.swap u)) t.afterSwap

def afterRead (t : Transition) : Option Vm → Program surroundings (Except Failure Vm)
  | none => .done (.error (.fault (.vmNotFound t.vm)))
  | some vm =>
    match t.check vm with
    | .error failure => .done (.error failure)
    | .ok u => .ask (.pass .beforeSwap) (t.afterPass u)

theorem run_eq (t : Transition) : t.run.run = .ask (.transact (.vm t.vm)) t.afterRead := by
  unfold run
  refine congrArg (Program.ask (I := surroundings) (.transact (.vm t.vm))) (funext fun reply => ?_)
  cases reply with
  | none => rfl
  | some vm =>
    simp only [afterRead]
    change ((liftM (t.check vm) : Procedure StateUpdate) >>= _).run = _
    cases t.check vm with
    | error failure => rfl
    | ok u =>
      refine congrArg (Program.ask (I := surroundings) (.pass .beforeSwap)) (funext fun reply => ?_)
      cases reply with
      | error failure => rfl
      | ok _ =>
        refine congrArg (Program.ask (I := surroundings) (.transact (.swap u)))
          (funext fun reply => ?_)
        rcases reply with failure | _ | written <;> rfl

theorem check_ok {t : Transition} {vm : Vm} {u : StateUpdate} (h : t.check vm = .ok u) :
    ∃ next, t.expected.next? t.event = some next ∧ t.version.getD vm.version = vm.version ∧
      vm.state = t.expected ∧ hosts vm next t.host = .ok (u.host, u.lastHost) ∧
      u = ⟨t.vm, t.expected, vm.version, next, u.host, u.lastHost⟩ := by
  simp only [check] at h
  split at h
  · cases h
  next next legal =>
  split at h
  · cases h
  next pinned =>
  split at h
  · cases h
  next expected =>
  rw [ne_eq, Decidable.not_not] at pinned expected
  cases hosted : hosts vm next t.host with
  | error failure => simp [hosted, bind, Except.bind] at h
  | ok pair =>
    obtain ⟨host, lastHost⟩ := pair
    simp only [hosted, bind, Except.bind, Except.ok.injEq] at h
    subst h
    exact ⟨next, legal, pinned, expected, hosted, by rw [pinned]⟩

theorem check_eq_ok {t : Transition} {vm : Vm} {next : State} {host lastHost : Option HostId}
    (legal : t.expected.next? t.event = some next) (pinned : t.version.getD vm.version = vm.version)
    (expected : vm.state = t.expected) (hosted : hosts vm next t.host = .ok (host, lastHost)) :
    t.check vm = .ok ⟨t.vm, t.expected, vm.version, next, host, lastHost⟩ := by
  simp only [check, legal, pinned, expected, hosted, ne_eq, not_true_eq_false, if_false]
  rfl

theorem check_moved {t : Transition} {vm : Vm} {next : State}
    (legal : t.expected.next? t.event = some next)
    (moved : t.version.getD vm.version ≠ vm.version) :
    t.check vm =
      .error (.conflict t.vm (.versionMoved (t.version.getD vm.version) vm.version)) := by
  simp only [check, legal, if_pos moved]

theorem hosts_isOk {vm : Vm} {next : State} {requested : Option HostId}
    (h : next.HoldsHost → (requested.or vm.host).isSome) :
    ∃ pair, hosts vm next requested = .ok pair := by
  unfold hosts
  by_cases holds : next.HoldsHost
  · obtain ⟨host, some_host⟩ := Option.isSome_iff_exists.1 (h holds)
    rw [if_pos holds, some_host]
    exact ⟨_, rfl⟩
  · rw [if_neg holds]
    exact ⟨_, rfl⟩

section
variable {vm : Vm} {next : State} {host : HostId}

theorem hosts_kept (holds : next.HoldsHost) (here : vm.host = some host) :
    hosts vm next none = .ok (vm.host, vm.lastHost) := by
  unfold hosts
  rw [if_pos holds, here]
  simp only [Option.none_or, if_true]

theorem hosts_left (requested : Option HostId) (free : ¬ next.HoldsHost) :
    hosts vm next requested = .ok (none, vm.host.or vm.lastHost) := by
  unfold hosts
  rw [if_neg free]

theorem hosts_taken (vm : Vm) (host : HostId) (holds : next.HoldsHost) :
    ∃ lastHost, hosts vm next (some host) = .ok (some host, lastHost) := by
  unfold hosts
  rw [if_pos holds]
  exact ⟨_, rfl⟩

/-- A machine that names no new host keeps the one it has. -/
theorem host_kept {pair : Option HostId × Option HostId} (hosted : hosts vm next none = .ok pair)
    (holds : next.HoldsHost) (here : vm.host = some host) : pair.1 = some host := by
  rw [hosts_kept holds here, here] at hosted
  cases hosted
  rfl

theorem host_taken {pair : Option HostId × Option HostId}
    (hosted : hosts vm next (some host) = .ok pair) (holds : next.HoldsHost) :
    pair.1 = some host := by
  obtain ⟨lastHost, taken⟩ := hosts_taken vm host holds
  rw [taken] at hosted
  cases hosted
  rfl

theorem hosts_of_check {t : Transition} {u : StateUpdate} (checked : t.check vm = .ok u)
    (legal : t.expected.next? t.event = some next) :
    u.state = next ∧ hosts vm next t.host = .ok (u.host, u.lastHost) := by
  obtain ⟨next', legal', -, -, hosted, e⟩ := check_ok checked
  rw [legal] at legal'
  cases legal'
  exact ⟨by rw [e], hosted⟩

end

end ControlPlane.Transition
