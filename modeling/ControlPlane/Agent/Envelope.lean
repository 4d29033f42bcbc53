import ControlPlane.Agent.Command
import ControlPlane.Codec.Record
import ControlPlane.Failure

/-! Envelopes: commands and answers as bytes. Whoever carries an envelope need not know what is in
it. -/

namespace ControlPlane

namespace Codec
open Agent

def volumePath : Codec VolumePath :=
  ((id .volume).pair text).along (fun p => (p.volume, p.path))
    fun (volume, path) => ⟨volume, path⟩

def volumeTarget : Codec VolumeTarget :=
  Codec.along (pair (id .volume) <| pair text <| pair (id .pool) text)
    (fun t => (t.volume, t.path, t.pool, t.poolPath))
    fun (volume, path, pool, poolPath) => ⟨volume, path, pool, poolPath⟩

def rendezvous : Codec Rendezvous :=
  Codec.along (pair text <| pair (list ((id .volume).pair text)) (list (text.pair text)))
    (fun r => (r.ticket, r.storage, r.networks))
    fun (ticket, storage, networks) => ⟨ticket, storage, networks⟩

/-- The body of a command. -/
def body : (k : Kind) → Codec k.Body
  | .start =>
    Codec.along (pair (id .vm) <| pair text <| pair resources bool)
      (fun b : StartBody => (b.vm, b.token, b.resources, b.renewCredentials))
      fun (vm, token, resources, renewCredentials) => ⟨vm, token, resources, renewCredentials⟩
  | .stop =>
    Codec.along (pair (id .vm) <| pair text bool) (fun b : StopBody => (b.vm, b.token, b.force))
      fun (vm, token, force) => ⟨vm, token, force⟩
  | .checkState => text.along CheckStateBody.token CheckStateBody.mk
  | .migrate =>
    Codec.along (text.pair (id .host)) (fun b : MigrateBody => (b.token, b.destination))
      fun (token, destination) => ⟨token, destination⟩
  | .migrateWithStorage =>
    Codec.along (pair text <| pair (id .host) (list volumeTarget))
      (fun b : MigrateWithStorageBody => (b.token, b.source, b.volumes))
      fun (token, source, volumes) => ⟨token, source, volumes⟩
  | .receive =>
    Codec.along (text.pair (list volumeTarget)) (fun b : ReceiveBody => (b.token, b.volumes))
      fun (token, volumes) => ⟨token, volumes⟩
  | .send =>
    Codec.along (pair text <| pair (id .host) rendezvous)
      (fun b : SendBody => (b.token, b.destination, b.rendezvous))
      fun (token, destination, rendezvous) => ⟨token, destination, rendezvous⟩
  | .complete =>
    Codec.along (text.pair (list volumeTarget)) (fun b : CompleteBody => (b.token, b.volumes))
      fun (token, volumes) => ⟨token, volumes⟩
  | .cleanup =>
    Codec.along (text.pair text) (fun b : CleanupBody => (b.token, b.ticket))
      fun (token, ticket) => ⟨token, ticket⟩
  | .scale =>
    Codec.along (text.pair resources) (fun b : ScaleBody => (b.token, b.resources))
      fun (token, resources) => ⟨token, resources⟩

/-- What a host sends back when it has carried out a command. -/
def reply : (k : Kind) → Codec k.Reply
  | .checkState => enumeration PowerState
  | .migrateWithStorage => list volumePath
  | .receive => rendezvous
  | .complete => list volumePath
  | .start => unit
  | .stop => unit
  | .migrate => unit
  | .send => unit
  | .cleanup => unit
  | .scale => unit

end Codec

namespace Agent

/-- A command on its way to a host, with the time for which its sender waits. -/
structure Envelope where
  host : HostId
  kind : String
  payload : Bytes
  wait : Span
deriving DecidableEq, Repr

/-- What a host answers. A loss of the connection is no answer. -/
structure Answer where
  succeeded : Bool
  details : String
  payload : Bytes
deriving DecidableEq, Repr

namespace Answer

def success (payload : Bytes) : Answer := ⟨true, "", payload⟩

/-- The host has not carried out the command, and says why. -/
def refusal (details : String) : Answer := ⟨false, details, []⟩

def ofReply (k : Kind) (reply : k.Reply) : Answer := success ((Codec.reply k).encode reply)

end Answer

namespace Envelope

def ofBody (host : HostId) (k : Kind) (body : k.Body) (wait : Span) : Envelope :=
  ⟨host, Enumeration.name k, (Codec.body k).encode body, wait⟩

end Envelope

/-- What the sender of a command learns from what came back. -/
def Kind.interpret (k : Kind) (host : HostId) : Except Failure Answer → Except Failure k.Reply
  | .error e => .error e
  | .ok answer =>
    if answer.succeeded then
      match (Codec.reply k).read? answer.payload with
      | some reply => .ok reply
      | none => .error (.fault (.undecodable (Enumeration.name k) host))
    else .error (.commandFailed host (Enumeration.name k) answer.details)

end Agent
end ControlPlane
