import ControlPlane.Enumeration
import ControlPlane.Migration.Plan
import ControlPlane.Timestamp.Basic
import ControlPlane.Uuid

/-! Work items: the durable record of one operation on a machine. An item is open from the moment
the operation begins until its outcome has been written down. -/

namespace ControlPlane.Work

inductive Step where
  | started | done | cancelled | error
deriving DecidableEq, Repr

instance : Enumeration Step where
  all := [.started, .done, .cancelled, .error]
  name
    | .started => "Started"
    | .done => "Done"
    | .cancelled => "Cancelled"
    | .error => "Error"
  mem_all a := by cases a <;> decide

instance : ToString Step := ⟨Enumeration.name⟩

inductive Operation where
  | start | stop | migrate | migrateWithStorage | scale | destroy | recover | expunge
deriving DecidableEq, Repr

instance : Enumeration Operation where
  all := [.start, .stop, .migrate, .migrateWithStorage, .scale, .destroy, .recover, .expunge]
  name
    | .start => "Start"
    | .stop => "Stop"
    | .migrate => "Migrate"
    | .migrateWithStorage => "MigrateWithStorage"
    | .scale => "Scale"
    | .destroy => "Destroy"
    | .recover => "Recover"
    | .expunge => "Expunge"
  mem_all a := by cases a <;> decide

instance : ToString Operation := ⟨Enumeration.name⟩

@[ext] structure Item where
  id : Uuid
  vm : VmId
  owner : NodeId
  step : Step
  operation : Operation
  /-- The migration under way, if any: both of its hosts may have the machine. -/
  plan : Option Plan
  created : Timestamp
  updated : Timestamp
deriving DecidableEq, Repr

instance : Keyed Item := ⟨fun item => item.id.toNat⟩

/-- The item still waits for its outcome. -/
def Item.Open (item : Item) : Prop := item.step = .started

instance (item : Item) : Decidable item.Open := by unfold Item.Open; infer_instance

/-- The open item of a machine. -/
@[ext] structure Slot where
  vm : VmId
  item : Uuid
deriving DecidableEq, Repr

instance : Keyed Slot := ⟨fun slot => slot.vm.key⟩

end ControlPlane.Work
