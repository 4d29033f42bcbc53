import ControlPlane.Agent.Envelope

/-! A fleet of simulated hosts. A host answers as its script says, and where the script says nothing
it carries out every command. -/

namespace ControlPlane.Simulation
open Agent

/-- What a host does with one command. -/
inductive Behaviour where
  | succeed (payload : Bytes)
  | refuse (details : String)
  /-- The command is kept and never answered. -/
  | keepSilent
  | drop
deriving DecidableEq, Repr

/-- What a script says about one command of a kind. -/
structure Cue where
  host : HostId
  kind : String
  behaviour : Behaviour
deriving DecidableEq, Repr

structure Fleet where
  /-- The scripts of all hosts; the cues for one host and kind are used up in order. -/
  cues : List Cue := []
  power : List (HostId × PowerState) := []
  /-- The commands that have reached a host, in order. -/
  log : List (HostId × String) := []
deriving DecidableEq, Repr

namespace Fleet

/-- Where a host puts the volumes that it takes over. -/
def migratedPaths (targets : List VolumeTarget) : List VolumePath :=
  targets.map fun t => ⟨t.volume, s!"{t.poolPath}/{t.volume}-migrated"⟩

/-- What a host says when it carries out a command as it should. -/
def replyTo (fleet : Fleet) (host : HostId) : (k : Kind) → k.Body → k.Reply
  | .checkState, _ => (fleet.power.lookup host).getD .unknown
  | .migrateWithStorage, (b : MigrateWithStorageBody) => migratedPaths b.volumes
  | .complete, (b : CompleteBody) => migratedPaths b.volumes
  | .receive, (b : ReceiveBody) =>
    ⟨s!"token-{b.token}", b.volumes.map fun t => (t.volume, s!"sr-{t.pool}"),
      [("nic-0", "guest-net")]⟩
  | .start, _ | .stop, _ | .migrate, _ | .send, _ | .cleanup, _ | .scale, _ => ()

/-- What a host without a script does. -/
def usual (fleet : Fleet) (host : HostId) (envelope : Envelope) : Behaviour :=
  match (Enumeration.ofName? envelope.kind : Option Kind) with
  | none => .succeed []
  | some k =>
    match (Codec.body k).read? envelope.payload with
    | some body => .succeed ((Codec.reply k).encode (fleet.replyTo host k body))
    | none => .refuse "undecodable command"

/-- Takes the next cue for a host and a kind of command out of a script. -/
def takeCue (host : HostId) (kind : String) : List Cue → Option Behaviour × List Cue
  | [] => (none, [])
  | cue :: cues =>
    if cue.host = host ∧ cue.kind = kind then (some cue.behaviour, cues)
    else
      let (found, rest) := takeCue host kind cues
      (found, cue :: rest)

/-- Has a host deal with a command. -/
def handle (fleet : Fleet) (host : HostId) (envelope : Envelope) : Behaviour × Fleet :=
  let (cued, cues) := takeCue host envelope.kind fleet.cues
  let behaviour := cued.getD (fleet.usual host envelope)
  (behaviour, { fleet with cues := cues, log := fleet.log ++ [(host, envelope.kind)] })

def setPower (fleet : Fleet) (host : HostId) (power : PowerState) : Fleet :=
  { fleet with power := (host, power) :: fleet.power.filter (·.1 ≠ host) }

/-- The commands that have reached a host, without the questions for the power state. -/
def operations (fleet : Fleet) : List (HostId × String) :=
  fleet.log.filter fun (_, kind) => kind ≠ Enumeration.name Kind.checkState

end Fleet
end ControlPlane.Simulation
