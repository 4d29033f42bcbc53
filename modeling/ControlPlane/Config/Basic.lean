import ControlPlane.Failure

/-! The configuration of the control plane: its sections with their defaults, and what makes a
configuration valid. -/

namespace ControlPlane

namespace Config

structure Storage where
  databasePath : String := "./data/stratus.redb"
deriving DecidableEq, Repr

/-- How hosts are reached. -/
structure Agent where
  /-- The wait for commands that have no wait of their own. -/
  commandWait : Span := .ofSecs 60
  probeWait : Span := .ofSecs 30
  /-- The commands that may lie waiting in a session. -/
  channelDepth : UInt64 := 64
deriving DecidableEq, Repr

/-- How long operations wait for hosts. -/
structure Orchestrator where
  migrateWait : Span := .ofSecs 3600
  storageMigrateWait : Span := .ofSecs 21600
  startWait : Span := .ofSecs 300
  stopWait : Span := .ofSecs 120
  scaleWait : Span := .ofSecs 120
  /-- The number of hosts that a start tries. -/
  startRetries : UInt32 := 3
deriving DecidableEq, Repr

structure Work where
  /-- The wait for the lock of a machine. -/
  lockWait : Span := .ofMillis 500
deriving DecidableEq, Repr

structure Placement where
  maxRetries : UInt32 := 2
deriving DecidableEq, Repr

structure Recovery where
  enabled : Bool := true
  scanInterval : Span := .ofSecs 60
deriving DecidableEq, Repr

end Config

structure Config where
  /-- The node that stamps its identifier on work. -/
  nodeId : UInt64 := 0
  storage : Config.Storage := {}
  agent : Config.Agent := {}
  orchestrator : Config.Orchestrator := {}
  work : Config.Work := {}
  placement : Config.Placement := {}
  recovery : Config.Recovery := {}
deriving DecidableEq, Repr

namespace Config

def node (c : Config) : NodeId := ⟨c.nodeId⟩

/-- Short waits, for trying things out. -/
def test : Config where
  nodeId := 1
  storage := { databasePath := "/tmp/stratus-test.redb" }
  agent := { commandWait := .ofMillis 500, probeWait := .ofMillis 200 }
  orchestrator :=
    { migrateWait := .ofMillis 500
      storageMigrateWait := .ofMillis 500
      startWait := .ofMillis 500
      stopWait := .ofMillis 500
      scaleWait := .ofMillis 500 }
  work := { lockWait := .ofMillis 100 }
  recovery := { scanInterval := .ofMillis 50 }

/-- What has to hold of a configuration, each rule with its fault, in the order of checking. -/
def rules (c : Config) : List (Bool × ConfigFault) :=
  [(c.nodeId != 0, .nodeIdZero),
   (c.agent.channelDepth != 0, .channelDepthZero),
   (c.agent.probeWait != .zero && c.agent.commandWait != .zero, .agentWaitZero),
   (c.orchestrator.startRetries != 0, .startRetriesZero),
   (c.placement.maxRetries != 0, .maxRetriesZero),
   (c.work.lockWait != .zero, .lockWaitZero),
   (!c.recovery.enabled || c.recovery.scanInterval != .zero, .scanIntervalZero)]

/-- The first rule that a configuration breaks. -/
def fault? (c : Config) : Option ConfigFault :=
  (c.rules.find? fun (kept, _) => !kept).map (·.2)

/-- Lets valid configurations through. -/
def validate (c : Config) : Except Failure Config :=
  match c.fault? with
  | none => .ok c
  | some fault => .error (.config fault)

end Config
end ControlPlane
