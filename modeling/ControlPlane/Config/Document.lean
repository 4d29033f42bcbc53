import ControlPlane.Config.Basic
import ControlPlane.Span.Phrase
import ControlPlane.Toml.Reader

/-! Configurations as documents. A section is a table of its fields, or a list of its fields in
order; fields that are not given keep the value they have, and keys that no field has are
ignored. -/

namespace ControlPlane

namespace Toml.Value

/-- The values given for the fields of a section, in the order of their names. -/
def fields? (names : List String) : Value → Option (List (Option Value))
  | table _ members => some (names.map (Toml.Members.get? members))
  | array items => some ((List.range names.length).map (items[·]?))
  | datetime => some (names.map fun _ => none)
  | tables rows => some ((List.range names.length).map fun i => (rows[i]?).map (table .header))
  | text _ | integer _ | float | boolean _ => none

def text? : Value → Option String
  | text s => some s
  | _ => none

def flag? : Value → Option Bool
  | boolean b => some b
  | _ => none

/-- A number below a bound. -/
def natural? (bound : Nat) : Value → Option Nat
  | integer n => if 0 ≤ n ∧ n < bound then some n.toNat else none
  | _ => none

def word32? (v : Value) : Option UInt32 := (v.natural? UInt32.size).map UInt32.ofNat

def word64? (v : Value) : Option UInt64 := (v.natural? UInt64.size).map UInt64.ofNat

def span? (v : Value) : Option Span := v.text?.bind Span.Phrase.read?

end Toml.Value

namespace Config
open Toml (Value)

/-- What a field becomes: it keeps its value where none is given. -/
def override {α : Type} (read? : Value → Option α) (current : α) : Option Value → Option α
  | none => some current
  | some v => read? v

def Storage.ofValue? (c : Storage) (v : Value) : Option Storage := do
  match ← v.fields? ["database_path"] with
  | [path] => some { databasePath := ← override Value.text? c.databasePath path }
  | _ => none

def Agent.ofValue? (c : Agent) (v : Value) : Option Agent := do
  match ← v.fields? ["command_wait", "probe_wait", "channel_depth"] with
  | [commandWait, probeWait, channelDepth] =>
    some {
      commandWait := ← override Value.span? c.commandWait commandWait
      probeWait := ← override Value.span? c.probeWait probeWait
      channelDepth := ← override Value.word64? c.channelDepth channelDepth }
  | _ => none

def Orchestrator.ofValue? (c : Orchestrator) (v : Value) : Option Orchestrator := do
  match ← v.fields? ["migrate_wait", "storage_migrate_wait", "start_wait", "stop_wait",
      "scale_wait", "start_retries"] with
  | [migrateWait, storageMigrateWait, startWait, stopWait, scaleWait, startRetries] =>
    some {
      migrateWait := ← override Value.span? c.migrateWait migrateWait
      storageMigrateWait := ← override Value.span? c.storageMigrateWait storageMigrateWait
      startWait := ← override Value.span? c.startWait startWait
      stopWait := ← override Value.span? c.stopWait stopWait
      scaleWait := ← override Value.span? c.scaleWait scaleWait
      startRetries := ← override Value.word32? c.startRetries startRetries }
  | _ => none

def Work.ofValue? (c : Work) (v : Value) : Option Work := do
  match ← v.fields? ["lock_wait"] with
  | [wait] => some { lockWait := ← override Value.span? c.lockWait wait }
  | _ => none

def Placement.ofValue? (c : Placement) (v : Value) : Option Placement := do
  match ← v.fields? ["max_retries"] with
  | [retries] => some { maxRetries := ← override Value.word32? c.maxRetries retries }
  | _ => none

def Recovery.ofValue? (c : Recovery) (v : Value) : Option Recovery := do
  match ← v.fields? ["enabled", "scan_interval"] with
  | [enabled, scanInterval] =>
    some {
      enabled := ← override Value.flag? c.enabled enabled
      scanInterval := ← override Value.span? c.scanInterval scanInterval }
  | _ => none

/-- The configuration with the fields that a document gives. -/
def ofMembers? (c : Config) (members : Toml.Members) : Option Config := do
  let field := Toml.Members.get? members
  some {
    nodeId := ← override Value.word64? c.nodeId (field "node_id")
    storage := ← override c.storage.ofValue? c.storage (field "storage")
    agent := ← override c.agent.ofValue? c.agent (field "agent")
    orchestrator :=
      ← override c.orchestrator.ofValue? c.orchestrator (field "orchestrator")
    work := ← override c.work.ofValue? c.work (field "work")
    placement := ← override c.placement.ofValue? c.placement (field "placement")
    recovery := ← override c.recovery.ofValue? c.recovery (field "recovery") }

/-- Reads and checks the text of a configuration file. -/
def ofToml (text : String) : Except Failure Config :=
  match (Toml.read? text).bind (({} : Config).ofMembers? ·) with
  | some c => c.validate
  | none => .error (.config .malformed)

/-- Reads and checks the bytes of a configuration file, or fails if there is no such file. -/
def ofFile : Option ByteArray → Except Failure Config
  | none => .error (.storage (.io "no such file"))
  | some bytes =>
    match String.fromUTF8? bytes with
    | some text => ofToml text
    | none => .error (.storage (.io "the file is not valid UTF-8"))

end Config
end ControlPlane
