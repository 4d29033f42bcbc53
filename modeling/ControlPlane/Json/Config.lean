import ControlPlane.Config.Basic
import ControlPlane.Json.Basic
import ControlPlane.Span.Phrase

/-! Configurations as JSON; spans are written as phrases. -/

namespace ControlPlane

def Span.toJson (s : Span) : Json := .str (Span.Phrase.write s)

namespace Config

def Storage.toJson (c : Storage) : Json := .obj [("database_path", .str c.databasePath)]

def Agent.toJson (c : Agent) : Json :=
  .obj [
    ("command_wait", c.commandWait.toJson),
    ("probe_wait", c.probeWait.toJson),
    ("channel_depth", .num c.channelDepth.toNat)]

def Orchestrator.toJson (c : Orchestrator) : Json :=
  .obj [
    ("migrate_wait", c.migrateWait.toJson),
    ("storage_migrate_wait", c.storageMigrateWait.toJson),
    ("start_wait", c.startWait.toJson),
    ("stop_wait", c.stopWait.toJson),
    ("scale_wait", c.scaleWait.toJson),
    ("start_retries", .num c.startRetries.toNat)]

def Work.toJson (c : Work) : Json := .obj [("lock_wait", c.lockWait.toJson)]

def Placement.toJson (c : Placement) : Json := .obj [("max_retries", .num c.maxRetries.toNat)]

def Recovery.toJson (c : Recovery) : Json :=
  .obj [("enabled", .bool c.enabled), ("scan_interval", c.scanInterval.toJson)]

def toJson (c : Config) : Json :=
  .obj [
    ("node_id", .num c.nodeId.toNat),
    ("storage", c.storage.toJson),
    ("agent", c.agent.toJson),
    ("orchestrator", c.orchestrator.toJson),
    ("work", c.work.toJson),
    ("placement", c.placement.toJson),
    ("recovery", c.recovery.toJson)]

end Config
end ControlPlane
