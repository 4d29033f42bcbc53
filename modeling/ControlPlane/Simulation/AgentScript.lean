import ControlPlane.Agent.Sending

/-! Scripts that try out the registry of host sessions, on a clock of their own. The script acts
first whenever something has happened; then the senders in the background and the hosts that answer
by themselves go on until nothing more can happen, and only then does time pass. -/

namespace ControlPlane.Simulation.AgentScript
open Agent

/-- How a host answers that serves its session by itself. -/
inductive Manner where
  /-- Success, with the payload of the request. -/
  | echo
  | succeed (payload : Bytes)
  | refuse (details : String)
  | drop
  | hold
deriving DecidableEq, Repr

/-- One line of a script. -/
inductive Line where
  | connect (host : HostId) (name : String)
  | serve (host : HostId) (manner : Manner)
  | disconnect (host : HostId)
  | dropSession (name : String)
  | isConnected (host : HostId)
  | send (envelope : Envelope)
  | spawn (name : String) (envelope : Envelope)
  | join (name : String)
  | finished (name : String)
  | receive (session name : String)
  | respond (name : String) (answer : Answer)
  | dropRequest (name : String)
  | sleep (millis : Nat)

/-- What a line comes to. -/
inductive Reply where
  | nothing
  | host (id : HostId)
  | flag (b : Bool)
  | answer (result : Except Failure Answer)
  | request (envelope : Envelope)
  | empty
  | closed

/-- A sender in the background. -/
inductive Caller where
  | ready (envelope : Envelope)
  | sending (s : Sending)

structure State where
  registry : Registry
  clock : Nat := 0
  sessions : List (String × Nat) := []
  requests : List (String × Request) := []
  /-- The senders in the background, in the order in which they were started. -/
  callers : List (String × Caller) := []
  served : List (Nat × Manner) := []

namespace State

/-- Gives a name a meaning, in place of an earlier one. -/
def bindName {α : Type} (name : String) (a : α) (names : List (String × α)) :
    List (String × α) :=
  names.filter (·.1 ≠ name) ++ [(name, a)]

def forgetName {α : Type} (name : String) (names : List (String × α)) : List (String × α) :=
  names.filter (·.1 ≠ name)

/-- Drops a request that had a name. -/
def dropNamed (s : State) (name : String) : State :=
  match s.requests.lookup name with
  | none => s
  | some request =>
    { s with
      registry := s.registry.drop request.id
      requests := forgetName name s.requests }

/-- Closes a session that had a name. -/
def closeNamed (s : State) (name : String) : State :=
  match s.sessions.lookup name with
  | none => s
  | some id =>
    { s with registry := s.registry.close id, sessions := forgetName name s.sessions }

/-- Lets the senders in the background go on. -/
def runCallers (s : State) : State :=
  let step (state : List (String × Caller) × Registry) (entry : String × Caller) :=
    let (done, registry) := state
    let (name, caller) := entry
    let (sending, registry) := match caller with
      | .ready envelope => Sending.start registry s.clock envelope
      | .sending x => x.poll registry s.clock
    (done ++ [(name, .sending sending)], registry)
  let (callers, registry) := s.callers.foldl step ([], s.registry)
  { s with callers := callers, registry := registry }

/-- Answers a request in some manner. -/
def handle (registry : Registry) (manner : Manner) (request : Request) : Registry :=
  match manner with
  | .echo => (registry.respond request.id (.success request.envelope.payload)).2
  | .succeed payload => (registry.respond request.id (.success payload)).2
  | .refuse details => (registry.respond request.id (.refusal details)).2
  | .drop => registry.drop request.id
  | .hold => registry

/-- Has every host that serves its session take one request. -/
def runServed (s : State) : State :=
  let step (registry : Registry) (entry : Nat × Manner) :=
    match registry.receive entry.1 with
    | (some request, registry) => handle registry entry.2 request
    | (none, registry) => registry
  { s with registry := s.served.foldl step s.registry }

/-- A sender in the background has not begun, so something can happen without time passing. -/
def isStarting (s : State) : Bool :=
  s.callers.any fun (_, caller) => match caller with
    | .ready _ => true
    | .sending _ => false

/-- Lets senders and hosts go on until nothing more can happen, in so many rounds at most. -/
def quiesce : Nat → State → State
  | 0, s => s
  | rounds + 1, s =>
    let next := s.runCallers.runServed
    if next.registry = s.registry && !s.isStarting then next else quiesce rounds next

/-- The rounds after which nothing can happen: each takes a request or moves a send on. -/
def rounds (s : State) : Nat :=
  4 * (s.callers.length + s.registry.sends.length +
    (s.registry.sessions.map (·.queue.length)).foldl (· + ·) 0) + 8

/-- The times at which senders in the background stop waiting. -/
def deadlines (s : State) : List Nat :=
  s.callers.filterMap fun (_, caller) => match caller with
    | .ready _ => none
    | .sending x => x.deadline?

end State

/-- What the script waits for. -/
inductive Wait where
  | until (time : Nat) (reply : Reply)
  | answer (s : Sending)
  | join (name : String)
  | request (session : Nat) (name : String) (deadline : Nat)

namespace Wait

/-- Looks whether the script can go on. -/
def poll (s : State) : Wait → Except Wait Reply × State
  | .until time reply => (if time ≤ s.clock then .ok reply else .error (.until time reply), s)
  | .answer sending =>
    let (sending, registry) := sending.poll s.registry s.clock
    let s := { s with registry := registry }
    match sending with
    | .ended result => (.ok (.answer result), s)
    | pending => (.error (.answer pending), s)
  | .join name =>
    match s.callers.lookup name with
    | some (.sending (.ended result)) =>
      (.ok (.answer result), { s with callers := State.forgetName name s.callers })
    | some _ => (.error (.join name), s)
    | none => (.ok .nothing, s)
  | .request session name deadline =>
    match s.registry.receive session with
    | (some taken, registry) =>
      let s := ({ s with registry := registry } : State).dropNamed name
      (.ok (.request taken.envelope),
        { s with requests := State.bindName name taken s.requests })
    | (none, _) =>
      if s.registry.isClosed session then (.ok .closed, s)
      else if deadline ≤ s.clock then (.ok .empty, s)
      else (.error (.request session name deadline), s)

def deadline? : Wait → Option Nat
  | .until time _ => some time
  | .answer sending => sending.deadline?
  | .join _ => none
  | .request _ _ deadline => some deadline

end Wait

/-- The time for which a script waits for a request. -/
def receiveWait : Nat := 5

/-- Begins a line; the reply may have to be waited for. -/
def begin (s : State) : Line → Wait × State
  | .connect host name =>
    let s := s.closeNamed name
    let (id, registry) := s.registry.connect host
    (.until s.clock (.host host),
      { s with registry := registry, sessions := State.bindName name id s.sessions })
  | .serve host manner =>
    let (id, registry) := s.registry.connect host
    (.until s.clock .nothing, { s with registry := registry, served := s.served ++ [(id, manner)] })
  | .disconnect host =>
    (.until (s.clock + 1) .nothing, { s with registry := s.registry.disconnect host })
  | .dropSession name =>
    (.until s.clock (.flag (s.sessions.lookup name).isSome), s.closeNamed name)
  | .isConnected host => (.until s.clock (.flag (s.registry.isConnected host)), s)
  | .send envelope =>
    let (sending, registry) := Sending.start s.registry s.clock envelope
    (.answer sending, { s with registry := registry })
  | .spawn name envelope =>
    (.until (s.clock + 1) .nothing,
      { s with callers := State.bindName name (.ready envelope) s.callers })
  | .join name => (.join name, s)
  | .finished name =>
    let isOver := match s.callers.lookup name with
      | some (.sending (.ended _)) => true
      | _ => false
    (.until s.clock (.flag isOver), s)
  | .receive session name =>
    match s.sessions.lookup session with
    | some id => (.request id name (s.clock + receiveWait), s)
    | none => (.until s.clock .closed, s)
  | .respond name answer =>
    match s.requests.lookup name with
    | none => (.until (s.clock + 1) (.flag false), s)
    | some request =>
      let (heard, registry) := s.registry.respond request.id answer
      (.until (s.clock + 1) (.flag heard),
        { s with registry := registry, requests := State.forgetName name s.requests })
  | .dropRequest name =>
    (.until (s.clock + 1) (.flag (s.requests.lookup name).isSome), s.dropNamed name)
  | .sleep millis => (.until (s.clock + millis) .nothing, s)

/-- Waits for the reply to a line. While nothing can happen, time passes up to the next time at
which somebody stops waiting; `steps` bounds how often that is. -/
def waitFor : Nat → Wait → State → Reply × State
  | 0, _, s => (.nothing, s)
  | steps + 1, w, s =>
    match w.poll s with
    | (.ok reply, s) => (reply, s)
    | (.error w, s) =>
      let s := s.quiesce s.rounds
      match w.poll s with
      | (.ok reply, s) => (reply, s)
      | (.error w, s) =>
        let s := s.quiesce s.rounds
        match (w.deadline?.toList ++ s.deadlines).min? with
        | some time => waitFor steps w { s with clock := max s.clock time }
        | none => (.nothing, s)

/-- Waiting ends after as many steps as there are senders, and the step of the script itself. -/
def run (s : State) (line : Line) : Reply × State :=
  let (w, s) := begin s line
  waitFor (2 * s.callers.length + 3) w s

/-- Runs a script, and gives for each line the reply and the hosts that are then connected. -/
def runAll (s : State) : List Line → List (Reply × List HostId)
  | [] => []
  | line :: lines =>
    let (reply, s) := run s line
    (reply, s.registry.connectedHosts) :: runAll s lines

def start (depth : Nat) : State := { registry := .ofDepth depth }

end ControlPlane.Simulation.AgentScript
