import ControlPlane.Proofs.Concurrent.ControlPlaneJobs
import ControlPlane.Proofs.Concurrent.Schedule

/-!
# Machines that a stopped process leaves on their way

Whatever operations and scans have done so far, and wherever processes have ended, every machine
that is recorded as on its way has an open item, and the index names it. So the next scan finds the
machine.
-/

namespace ControlPlane.Concurrent
open Control Operation

/-- A machine that is starting, stopping or migrating is covered by an open item of its own: after
every single write, in every order of the steps, and wherever processes have ended. -/
theorem motion_is_covered {store : Store} {sys : System Duty (Except Failure Unit)}
    (rest : ∀ v vm, store.vm? v = some vm → ¬ vm.state.InMotion)
    (reached : Reaches duties (.start store) sys) {v : VmId} {vm : Vm}
    (stored : sys.shared.store.vm? v = some vm) (moves : vm.state.InMotion) :
    ∃ item, sys.shared.store.item? item.id = some item ∧ item.vm = v ∧ item.Open ∧
      sys.shared.store.openItem? v = some item.id := by
  have kept := (Kept.start (orderly_of_rest rest)).reaches reached
  obtain ⟨item, rfl, covers, -⟩ := kept.coherent.moving stored moves
  exact ⟨item, covers.stored, rfl, covers.isOpen, covers.slot⟩

def oneAsleep : Store := { vms := .ofList [.register ⟨1⟩ "i-1" "asleep" ⟨1⟩ ⟨1⟩] }

/-- A start that has come as far as writing down that the machine starts. -/
def startUnderWay : List (Turn Duty) :=
  .launch (.operate trial (.start ⟨1⟩)) :: advance 0 12 .silent

/-- The process ends right after a machine has been recorded as starting. -/
theorem stranded_start_is_covered :
    ∃ sys vm, Reaches duties (.start oneAsleep) sys ∧ sys.jobs = [] ∧
      sys.shared.store.vm? ⟨1⟩ = some vm ∧ vm.state = .starting ∧
      ∃ item, sys.shared.store.item? item.id = some item ∧ item.vm = ⟨1⟩ ∧ item.Open ∧
        sys.shared.store.openItem? ⟨1⟩ = some item.id := by
  have rest : ∀ v vm, oneAsleep.vm? v = some vm → ¬ vm.state.InMotion := fun _ _ stored =>
    (by decide : ∀ vm ∈ oneAsleep.vms.rows, ¬ vm.state.InMotion) _ (Table.mem_of_get? stored)
  have leads : ((play? duties (.start oneAsleep) startUnderWay).any fun sys =>
      (sys.shared.store.vm? ⟨1⟩).any (·.state = .starting) &&
        (sys.crash duties ⟨1⟩).jobs.isEmpty) = true := by decide
  obtain ⟨sys, played, leads⟩ := (Option.any_eq_true ..).1 leads
  obtain ⟨starts, gone⟩ := Bool.and_eq_true_iff.1 leads
  obtain ⟨vm, stored, starting⟩ := (Option.any_eq_true ..).1 starts
  have reached : Reaches duties (.start oneAsleep) (sys.crash duties ⟨1⟩) :=
    (runs_of_play? played).reaches.tail (.crash _)
  exact ⟨_, vm, reached, List.isEmpty_iff.1 gone, stored, of_decide_eq_true starting,
    motion_is_covered rest reached stored (.inl (of_decide_eq_true starting))⟩

end ControlPlane.Concurrent
