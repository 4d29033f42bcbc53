import ControlPlane.Config.Basic
import ControlPlane.Text.Digits

/-! Configuration by environment variables. A number or a truth value that cannot be read is an
error; a wait that cannot be read is ignored. -/

namespace ControlPlane

/-- The variables that are set. -/
abbrev Environment := List (String × String)

namespace Environment

def get? (env : Environment) (name : String) : Option String := env.lookup name

/-- The number that a variable holds, if it is a numeral below a bound. -/
def number? (env : Environment) (bound : Nat) (name : String) : Option Nat :=
  (env.get? name).bind fun s => Digits.readBelow? bound s.toList

def seconds? (env : Environment) (name : String) : Option Span :=
  (env.number? UInt64.size name).map fun n => .ofSecs (.ofNat n)

def millis? (env : Environment) (name : String) : Option Span :=
  (env.number? UInt64.size name).map fun n => .ofMillis (.ofNat n)

end Environment

namespace Config

/-- A step of applying an environment: the configuration so far, and the fault that stopped it. -/
abbrev Applied := Config × Option ConfigFault

/-- Sets a field from a variable, where nothing has gone wrong before. -/
def setFrom {α : Type} (env : Environment) (name : String) (read? : String → Option α)
    (set : Config → α → Config) : Applied → Applied
  | (c, some fault) => (c, some fault)
  | (c, none) =>
    match env.get? name with
    | none => (c, none)
    | some s =>
      match read? s with
      | some a => (set c a, none)
      | none => (c, some (.invalidVariable name))

def readFlag? (s : String) : Option Bool :=
  if s = "true" then some true else if s = "false" then some false else none

/-- Sets the waits that are given. -/
def applyWaits (env : Environment) : Applied → Applied
  | (c, some fault) => (c, some fault)
  | (c, none) =>
    ({ c with
        agent := { c.agent with
          commandWait := (env.seconds? "STRATUS_AGENT_COMMAND_WAIT_SECS").getD c.agent.commandWait
          probeWait := (env.seconds? "STRATUS_AGENT_PROBE_WAIT_SECS").getD c.agent.probeWait }
        work :=
          { lockWait := (env.millis? "STRATUS_WORK_LOCK_WAIT_MS").getD c.work.lockWait }
        recovery := { c.recovery with
          scanInterval := (env.seconds? "STRATUS_RECOVERY_SCAN_INTERVAL_SECS").getD
            c.recovery.scanInterval } }, none)

/-- The variables that count. -/
def variableNames : List String :=
  ["STRATUS_NODE_ID", "STRATUS_DATABASE_PATH", "STRATUS_AGENT_COMMAND_WAIT_SECS",
    "STRATUS_AGENT_PROBE_WAIT_SECS", "STRATUS_WORK_LOCK_WAIT_MS",
    "STRATUS_RECOVERY_SCAN_INTERVAL_SECS", "STRATUS_PLACEMENT_MAX_RETRIES",
    "STRATUS_RECOVERY_ENABLED"]

/-- The configuration with what the environment gives. A fault leaves what was set before it. -/
def applyEnvironment (c : Config) (env : Environment) : Applied :=
  (c, none)
    |> setFrom env "STRATUS_NODE_ID" (fun s => Digits.readBelow? UInt64.size s.toList)
        (fun c n => { c with nodeId := .ofNat n })
    |> setFrom env "STRATUS_DATABASE_PATH" some
        (fun c path => { c with storage := { databasePath := path } })
    |> applyWaits env
    |> setFrom env "STRATUS_PLACEMENT_MAX_RETRIES"
        (fun s => Digits.readBelow? UInt32.size s.toList)
        (fun c n => { c with placement := { maxRetries := .ofNat n } })
    |> setFrom env "STRATUS_RECOVERY_ENABLED" readFlag?
        (fun c b => { c with recovery := { c.recovery with enabled := b } })

/-- The defaults with what the environment gives, unchecked. -/
def withEnvironment (env : Environment) : Except Failure Config :=
  match ({} : Config).applyEnvironment env with
  | (c, none) => .ok c
  | (_, some fault) => .error (.config fault)

/-- The defaults with what the environment gives, checked. -/
def ofEnvironment (env : Environment) : Except Failure Config :=
  (withEnvironment env).bind validate

end Config
end ControlPlane
