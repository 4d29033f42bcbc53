import ControlPlane.Proofs.Concurrent.CrashSafety
import ControlPlane.Proofs.Operation.GuruConsent

/-!
# Records that need an agreement

Whenever the record of a machine says that it runs now, or that it stops, somebody has agreed
before. For a machine that runs it need not be the guru: when the process of a start ends, a
recovery scan settles what the start has left, and it only asks the host.
-/

namespace ControlPlane

def Control.Request.finalizes : Control.Request → Bool
  | .finalizeStart .. => true
  | _ => false

namespace Concurrent
open Control Operation

variable {sys sys' : System Duty (Except Failure Unit)} {v : VmId} {vm : Vm}

structure Rewrites (j : Job Duty (Except Failure Unit)) (vm vm' : Vm) : Prop where
  waits : j.waits = true
  asks : ∃ u rest, j.program = .ask (.transact (.swap u)) rest ∧
    u.vm = vm.id ∧ u.Matches vm ∧ vm' = u.apply vm

/-- A record that goes to another state is taken there by a job. -/
theorem Move.rewrites (move : Move duties sys sys') {vm' : Vm}
    (before : sys.shared.store.vm? v = some vm) (after : sys'.shared.store.vm? v = some vm')
    (changed : vm'.state ≠ vm.state) :
    ∃ j ∈ sys.jobs, Rewrites j vm vm' := by
  have moved : sys'.shared.store ≠ sys.shared.store := by
    intro same
    rw [same, before] at after
    cases after
    exact changed rfl
  cases move with
  | crash node => exact absurd rfl moved
  | step step =>
    rcases step.advances with ⟨task, rfl⟩ | ⟨mover, next, advance⟩
    · exact absurd rfl moved
    rcases advance.store with same | ⟨t, rest, asks, waits, same⟩
    · exact absurd same moved
    rw [same, Transaction.vm?_apply, before, Option.map_some] at after
    cases after
    rcases onVm_cases t vm with ⟨state, -⟩ | ⟨u, rfl, about, fits, written⟩
    · exact absurd state changed
    · exact ⟨mover, advance.mem.1, waits, u, rest, asks, about, fits, written⟩

/-- Whatever operations and scans do, wherever processes end, and whatever hosts and gurus answer: a
machine that was starting is only recorded as running by a start that has the consent of the guru,
for that machine as it is recorded and on the host that is recorded; or by a recovery scan that has
heard from this host that the machine runs. A machine that runs is only sent to its stop by a stop
for which the guru has prepared. -/
theorem records_need_consent {store : Store} (orderly : Orderly store)
    (reached : Reaches duties (.start store) sys) (move : Move duties sys sys') {vm' : Vm}
    (before : sys.shared.store.vm? v = some vm) (after : sys'.shared.store.vm? v = some vm') :
    (vm.state = .starting → vm'.state = .running → ∃ j ∈ sys.jobs, Rewrites j vm vm' ∧
      ∃ host, vm.host = some host ∧ vm'.host = some host ∧ Vouches vm host j.past j.task) ∧
    (vm.state = .running → vm'.state = .stopping → ∃ j ∈ sys.jobs, Rewrites j vm vm' ∧
      Permits vm j.past j.task) := by
  have licensed : vm'.state ≠ vm.state → ∃ j ∈ sys.jobs, Rewrites j vm vm' ∧
      ∃ u, vm' = u.apply vm ∧ Licensed j.task j.past vm u := by
    intro changed
    obtain ⟨j, mem, rewrites⟩ := move.rewrites before after changed
    obtain ⟨waits, u, rest, asks, about, fits, written⟩ := id rewrites
    have kept := (Kept.start orderly).reaches reached
    have licit : Licit j.task j.past sys.shared (.transact (.swap u)) :=
      (jobs_consent orderly reached mem).fit kept.coherent waits asks
    have stored : sys.shared.store.vm? u.vm = some vm := by rwa [about, Store.id_of_vm? before]
    exact ⟨j, mem, rewrites, u, written, licit u vm rfl stored fits⟩
  refine ⟨fun starts runs => ?_, fun runs stops => ?_⟩
  · obtain ⟨j, mem, rewrites, u, rfl, may⟩ := licensed (by rw [starts, runs]; decide)
    exact ⟨j, mem, rewrites, may.starts starts runs⟩
  · obtain ⟨j, mem, rewrites, u, rfl, may⟩ := licensed (by rw [runs, stops]; decide)
    exact ⟨j, mem, rewrites, may.stops runs stops⟩

def shifts (sys : System Duty (Except Failure Unit)) (turn : Turn Duty)
    (first last : State) : Bool :=
  (turn? duties sys turn).any fun sys' =>
    (sys.shared.store.vm? ⟨1⟩).any fun vm => (sys'.shared.store.vm? ⟨1⟩).any fun vm' =>
      vm.state = first ∧ vm'.state = last

theorem move_of_shifts {turn : Turn Duty} {first last : State}
    (h : shifts sys turn first last = true) :
    ∃ sys' vm vm', Move duties sys sys' ∧ sys.shared.store.vm? ⟨1⟩ = some vm ∧
      sys'.shared.store.vm? ⟨1⟩ = some vm' ∧ vm.state = first ∧ vm'.state = last := by
  obtain ⟨sys', taken, h⟩ := (Option.any_eq_true ..).1 h
  obtain ⟨vm, before, h⟩ := (Option.any_eq_true ..).1 h
  obtain ⟨vm', after, h⟩ := (Option.any_eq_true ..).1 h
  exact ⟨sys', vm, vm', .step (step_of_turn? taken), before, after, of_decide_eq_true h⟩

/-- A start to which the guru agrees, up to the record that the machine runs. -/
def agreedStart : List (Turn Duty) :=
  .launch (.operate trial (.start ⟨1⟩)) :: advance 0 16 (obedient ⟨0, 1⟩) ++ [.make 0]

/-- A stop for which the guru has prepared, up to the record that the machine stops. -/
def readiedStop : List (Turn Duty) :=
  .launch (.operate trial (.stop ⟨1⟩ false)) :: advance 0 10 (obedient ⟨0, 1⟩) ++ [.make 0]

/-- A start and a stop to which the guru agrees are recorded on its word. -/
theorem agreed_changes_are_recorded :
    (∃ sys sys' vm vm', Reaches duties (.start oneAsleep) sys ∧ Move duties sys sys' ∧
      sys.shared.store.vm? ⟨1⟩ = some vm ∧ sys'.shared.store.vm? ⟨1⟩ = some vm' ∧
      vm.state = .starting ∧ vm'.state = .running ∧ ∃ j ∈ sys.jobs, Rewrites j vm vm' ∧
        ∃ host, vm.host = some host ∧ vm'.host = some host ∧
          Vouches vm host j.past j.task) ∧
    ∃ sys sys' vm vm', Reaches duties (.start onFirst) sys ∧ Move duties sys sys' ∧
      sys.shared.store.vm? ⟨1⟩ = some vm ∧ sys'.shared.store.vm? ⟨1⟩ = some vm' ∧
      vm.state = .running ∧ vm'.state = .stopping ∧ ∃ j ∈ sys.jobs, Rewrites j vm vm' ∧
        Permits vm j.past j.task := by
  have asleep : Orderly oneAsleep := orderly_of_rest fun _ _ stored =>
    (by decide : ∀ vm ∈ oneAsleep.vms.rows, ¬ vm.state.InMotion) _ (Table.mem_of_get? stored)
  have awake : Orderly onFirst := orderly_of_rest fun _ _ stored =>
    (by decide : ∀ vm ∈ onFirst.vms.rows, ¬ vm.state.InMotion) _ (Table.mem_of_get? stored)
  have starts : ((play? duties (.start oneAsleep) agreedStart).any fun sys =>
      shifts sys (.answer 0 (obedient ⟨0, 1⟩)) .starting .running) = true := by decide +kernel
  have stops : ((play? duties (.start onFirst) readiedStop).any fun sys =>
      shifts sys (.answer 0 (obedient ⟨0, 1⟩)) .running .stopping) = true := by decide +kernel
  constructor
  · obtain ⟨sys, played, shifts⟩ := (Option.any_eq_true ..).1 starts
    obtain ⟨sys', vm, vm', move, before, after, starting, running⟩ := move_of_shifts shifts
    have reached : Reaches duties (.start oneAsleep) sys := (runs_of_play? played).reaches
    exact ⟨sys, sys', vm, vm', reached, move, before, after, starting, running,
      (records_need_consent asleep reached move before after).1 starting running⟩
  · obtain ⟨sys, played, shifts⟩ := (Option.any_eq_true ..).1 stops
    obtain ⟨sys', vm, vm', move, before, after, running, stopping⟩ := move_of_shifts shifts
    have reached : Reaches duties (.start onFirst) sys := (runs_of_play? played).reaches
    exact ⟨sys, sys', vm, vm', reached, move, before, after, running, stopping,
      (records_need_consent awake reached move before after).2 running stopping⟩

def humming : Oracle := .smooth default default fun _ => .ok (.ofReply .checkState .on)

/-- A scan that settles the machine, up to the record of what the host has said. -/
def settledStart : List (Turn Duty) :=
  .launch (.scan trial) :: advance 1 6 humming ++ [.make 1]

/-- The process of a start ends before any host has answered. The scan that follows hears that the
machine runs and writes it down, and nobody has ever asked the guru. -/
theorem unheard_start_is_recorded :
    ∃ begun sys sys' vm vm', Runs duties (.start oneAsleep) begun ∧
      Runs duties (begun.crash duties ⟨1⟩) sys ∧ Move duties sys sys' ∧
      sys.shared.store.vm? ⟨1⟩ = some vm ∧ sys'.shared.store.vm? ⟨1⟩ = some vm' ∧
      vm.state = .starting ∧ vm'.state = .running ∧
      ∀ j ∈ begun.jobs ++ sys.jobs, ∀ e ∈ j.past, e.request.finalizes = false := by
  have leads : ((play? duties (.start oneAsleep) startUnderWay).any fun begun =>
      (play? duties (begun.crash duties ⟨1⟩) settledStart).any fun sys =>
        shifts sys (.answer 1 humming) .starting .running &&
          (begun.jobs ++ sys.jobs).all fun j => j.past.all fun e =>
          !e.request.finalizes) = true := by
    decide +kernel
  obtain ⟨begun, played, leads⟩ := (Option.any_eq_true ..).1 leads
  obtain ⟨sys, played', leads⟩ := (Option.any_eq_true ..).1 leads
  obtain ⟨shifts, unheard⟩ := Bool.and_eq_true_iff.1 leads
  obtain ⟨sys', vm, vm', move, before, after, starting, running⟩ := move_of_shifts shifts
  refine ⟨begun, sys, sys', vm, vm', runs_of_play? played, runs_of_play? played',
    move, before, after, starting, running, fun j mem e past => ?_⟩
  simpa using List.all_eq_true.1 (List.all_eq_true.1 unheard j mem) e past

end Concurrent
end ControlPlane
