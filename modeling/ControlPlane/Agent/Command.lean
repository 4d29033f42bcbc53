import ControlPlane.Id
import ControlPlane.Resources
import ControlPlane.Vm

/-! The commands that hosts carry out, and what they answer. The kind of a command fixes the type of
its body and the type of the answer. -/

namespace ControlPlane.Agent

inductive Kind where
  | start | stop | checkState | migrate | migrateWithStorage | receive | send | complete | cleanup
  | scale
deriving DecidableEq, Repr

instance : Enumeration Kind where
  all := [.start, .stop, .checkState, .migrate, .migrateWithStorage, .receive, .send, .complete,
    .cleanup, .scale]
  name
    | .start => "StartCommand"
    | .stop => "StopCommand"
    | .checkState => "CheckVmStateCommand"
    | .migrate => "MigrateCommand"
    | .migrateWithStorage => "MigrateWithStorageCommand"
    | .receive => "MigrateWithStorageReceiveCommand"
    | .send => "MigrateWithStorageSendCommand"
    | .complete => "MigrateWithStorageCompleteCommand"
    | .cleanup => "MigrateWithStorageCleanupCommand"
    | .scale => "ScaleVmCommand"
  mem_all a := by cases a <;> decide

instance : ToString Kind := ⟨Enumeration.name⟩

/-- Where a volume has come to lie, as a host reports it. -/
@[ext] structure VolumePath where
  volume : VolumeId
  path : String
deriving DecidableEq, Repr

/-- Where a volume is to go. -/
@[ext] structure VolumeTarget where
  volume : VolumeId
  path : String
  pool : PoolId
  poolPath : String
deriving DecidableEq, Repr

@[ext] structure StartBody where
  vm : VmId
  token : String
  resources : Resources
  renewCredentials : Bool
deriving DecidableEq, Repr

@[ext] structure StopBody where
  vm : VmId
  token : String
  force : Bool
deriving DecidableEq, Repr

/-- Asks whether a machine has power on the host. -/
@[ext] structure CheckStateBody where
  token : String
deriving DecidableEq, Repr

/-- Moves a machine away from the host, without its volumes. -/
@[ext] structure MigrateBody where
  token : String
  destination : HostId
deriving DecidableEq, Repr

/-- Fetches a machine and its volumes to the host. -/
@[ext] structure MigrateWithStorageBody where
  token : String
  source : HostId
  volumes : List VolumeTarget
deriving DecidableEq, Repr

/-- Prepares the host for a machine and volumes from another cluster. -/
@[ext] structure ReceiveBody where
  token : String
  volumes : List VolumeTarget
deriving DecidableEq, Repr

/-- What the sending host has to know to reach the receiving one. -/
@[ext] structure Rendezvous where
  ticket : String
  storage : List (VolumeId × String)
  networks : List (String × String)
deriving DecidableEq, Repr

/-- Sends a machine and its volumes to a host that is prepared for them. -/
@[ext] structure SendBody where
  token : String
  destination : HostId
  rendezvous : Rendezvous
deriving DecidableEq, Repr

/-- Takes over a machine that has been sent. -/
@[ext] structure CompleteBody where
  token : String
  volumes : List VolumeTarget
deriving DecidableEq, Repr

/-- Takes back the preparations for a machine that was never sent. -/
@[ext] structure CleanupBody where
  token : String
  ticket : String
deriving DecidableEq, Repr

@[ext] structure ScaleBody where
  token : String
  resources : Resources
deriving DecidableEq, Repr

namespace Kind

abbrev Body : Kind → Type
  | start => StartBody
  | stop => StopBody
  | checkState => CheckStateBody
  | migrate => MigrateBody
  | migrateWithStorage => MigrateWithStorageBody
  | receive => ReceiveBody
  | send => SendBody
  | complete => CompleteBody
  | cleanup => CleanupBody
  | scale => ScaleBody

abbrev Reply : Kind → Type
  | checkState => PowerState
  | migrateWithStorage => List VolumePath
  | receive => Rendezvous
  | complete => List VolumePath
  | start | stop | migrate | send | cleanup | scale => Unit

end Kind
end ControlPlane.Agent
