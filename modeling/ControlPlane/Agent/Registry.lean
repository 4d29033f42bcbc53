import ControlPlane.Agent.Envelope

/-! The registry of host sessions. Every host has at most one session to which commands go; a
session that was replaced or cut off still delivers what lies in its queue. A queue has a fixed
number of places; who finds none waits, and gets the next place that becomes free in turn. A send
ends when its own request is answered, when the request or the session is dropped, or when its
sender stops waiting. -/

namespace ControlPlane.Agent

/-- A command in a queue or in the hands of a host, with the number of its send. -/
structure Request where
  id : Nat
  envelope : Envelope
deriving DecidableEq, Repr

/-- How far a send has come. -/
inductive Progress where
  /-- It waits for a place in the queue. -/
  | waiting
  /-- A place is kept for it. -/
  | admitted
  /-- Its request is in the queue, or has been taken from it. -/
  | queued
  | answered (answer : Answer)
  | lost (cause : Loss)
deriving DecidableEq, Repr

/-- A send that is under way. -/
structure Send where
  request : Request
  session : Nat
  progress : Progress
deriving DecidableEq, Repr

structure Session where
  id : Nat
  host : HostId
  /-- The host still takes requests. -/
  alive : Bool
  queue : List Request
deriving DecidableEq, Repr

/-- The session to which the commands for a host go. -/
structure Link where
  host : HostId
  session : Nat
deriving DecidableEq, Repr

instance : Keyed Link := ⟨fun link => link.host.key⟩

structure Registry where
  /-- The number of places in a queue. -/
  depth : Nat
  links : Table Link := ∅
  sessions : List Session := []
  /-- The sends under way, the oldest first. -/
  sends : List Send := []
  fresh : Nat := 0
deriving DecidableEq, Repr

namespace Registry

/-- A registry of queues with some places, but with one at least. -/
def ofDepth (depth : Nat) : Registry := { depth := max depth 1 }

def session? (r : Registry) (id : Nat) : Option Session := r.sessions.find? (·.id = id)

def send? (r : Registry) (id : Nat) : Option Send := r.sends.find? (·.request.id = id)

def link? (r : Registry) (host : HostId) : Option Nat := (r.links.get? host.key).map (·.session)

def connectedHosts (r : Registry) : List HostId := r.links.rows.map (·.host)

/-- The host of a link takes requests. -/
def isConnected (r : Registry) (host : HostId) : Bool :=
  ((r.link? host).bind r.session?).any (·.alive)

/-- The places of a session that are taken or kept. -/
def placesTaken (r : Registry) (s : Session) : Nat :=
  s.queue.length + (r.sends.filter fun x => x.session = s.id ∧ x.progress = .admitted).length

def updateSession (r : Registry) (id : Nat) (f : Session → Session) : Registry :=
  { r with sessions := r.sessions.map fun s => if s.id = id then f s else s }

def setProgress (r : Registry) (id : Nat) (progress : Progress) : Registry :=
  { r with sends := r.sends.map fun x =>
      if x.request.id = id then { x with progress := progress } else x }

/-- Opens a session of a host, in place of an earlier one. -/
def connect (r : Registry) (host : HostId) : Nat × Registry :=
  (r.fresh,
   { r with
     fresh := r.fresh + 1
     links := r.links.insert ⟨host, r.fresh⟩
     sessions := r.sessions ++ [⟨r.fresh, host, true, []⟩] })

def disconnect (r : Registry) (host : HostId) : Registry :=
  { r with links := r.links.erase host.key }

/-- Puts the request of a send into the queue. -/
def enqueue (r : Registry) (x : Send) : Registry :=
  (r.updateSession x.session fun s => { s with queue := s.queue ++ [x.request] }).setProgress
    x.request.id .queued

/-- Begins to send a command, and gives the number of the send. -/
def begin (r : Registry) (envelope : Envelope) : Except Failure Nat × Registry :=
  match (r.link? envelope.host).bind r.session? with
  | none => (.error (.agentUnavailable envelope.host (.noSession envelope.kind)), r)
  | some s =>
    let x : Send :=
      ⟨⟨r.fresh, envelope⟩, s.id, if s.alive then .waiting else .lost .sessionClosed⟩
    let added := { r with fresh := r.fresh + 1, sends := r.sends ++ [x] }
    (.ok x.request.id,
     if s.alive && decide (r.placesTaken s < r.depth) then added.enqueue x else added)

/-- A send goes on: it uses the place that is kept for it, or finds the session closed. -/
def advance (r : Registry) (id : Nat) : Registry :=
  match r.send? id with
  | none => r
  | some x =>
    let alive := (r.session? x.session).any (·.alive)
    match x.progress with
    | .waiting => if alive then r else r.setProgress id (.lost .sessionClosed)
    | .admitted => if alive then r.enqueue x else r.setProgress id (.lost .sessionClosed)
    | .queued | .answered _ | .lost _ => r

/-- Keeps the place that has become free for the send that has waited longest. -/
def admitNext (r : Registry) (session : Nat) : Registry :=
  match r.sends.find? fun x => x.session = session ∧ x.progress = .waiting with
  | none => r
  | some x => r.setProgress x.request.id .admitted

/-- What a send has come to, as soon as it is over. -/
def result? (r : Registry) (id : Nat) : Option (Except Failure Answer) :=
  (r.send? id).bind fun x =>
    match x.progress with
    | .answered answer => some (.ok answer)
    | .lost cause => some (.error (.agentUnavailable x.request.envelope.host cause))
    | .waiting | .admitted | .queued => none

/-- Ends a send, whether it is over or its sender has stopped waiting. -/
def finish (r : Registry) (id : Nat) : Registry :=
  match r.send? id with
  | none => r
  | some x =>
    let r := { r with sends := r.sends.filter (·.request.id ≠ id) }
    if x.progress = .admitted then r.admitNext x.session else r

/-- The failure of a send whose sender has stopped waiting. -/
def timeout (envelope : Envelope) : Failure :=
  .timedOut envelope.host envelope.kind envelope.wait

/-- Takes the first request from the queue of a session. -/
def receive (r : Registry) (session : Nat) : Option Request × Registry :=
  match r.session? session with
  | none => (none, r)
  | some s =>
    match s.queue with
    | [] => (none, r)
    | request :: rest =>
      (some request, (r.updateSession session fun s => { s with queue := rest }).admitNext session)

/-- No request will ever come to a session again. -/
def isClosed (r : Registry) (session : Nat) : Bool :=
  (r.session? session).all (fun s => s.queue.isEmpty && r.link? s.host != some session) &&
    !r.sends.any (·.session = session)

/-- Answers a request, and tells whether its sender was still waiting. -/
def respond (r : Registry) (id : Nat) (answer : Answer) : Bool × Registry :=
  match r.send? id with
  | some x =>
    if x.progress = .queued then (true, r.setProgress id (.answered answer)) else (false, r)
  | none => (false, r)

/-- Drops a request without an answer. -/
def drop (r : Registry) (id : Nat) : Registry :=
  match r.send? id with
  | some x => if x.progress = .queued then r.setProgress id (.lost .requestDropped) else r
  | none => r

/-- The host stops taking requests, and drops those in the queue. -/
def close (r : Registry) (session : Nat) : Registry :=
  let queued := ((r.session? session).map (·.queue)).getD []
  let r := queued.foldl (fun r request => r.drop request.id) r
  r.updateSession session fun s => { s with alive := false, queue := [] }

end Registry
end ControlPlane.Agent
