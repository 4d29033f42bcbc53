import ControlPlane.Agent.Sending
import ControlPlane.Recovery
import ControlPlane.Simulation.Fleet
import ControlPlane.Work.Locks

/-! Simulated surroundings of a control plane: a store, locks, hosts and collaborators, on a clock
of milliseconds that stands still unless everybody waits. -/

namespace ControlPlane.Simulation
open Control

/-- The collaborators whose next call can be made to fail. -/
inductive Callee where
  | planner | capacity | snapshots | finalizeStart | prepareStop | finalizeStop
deriving DecidableEq, Repr

instance : Enumeration Callee where
  all := [.planner, .capacity, .snapshots, .finalizeStart, .prepareStop, .finalizeStop]
  name
    | .planner => "planner"
    | .capacity => "capacity"
    | .snapshots => "snapshots"
    | .finalizeStart => "finalize_start"
    | .prepareStop => "prepare_stop"
    | .finalizeStop => "finalize_stop"
  mem_all a := by cases a <;> decide

/-- What happens at a point of an operation. -/
inductive Hook where
  /-- It fails, but for the first few times. -/
  | fail (skip : Nat)
  /-- Somebody else tries a conditional update. -/
  | rival (update : StateUpdate)
deriving DecidableEq, Repr

/-- A lifecycle event that a guru was told of. -/
inductive GuruEvent where
  | finalizeStart (vm : VmId) (host : HostId)
  | prepareStop (vm : VmId)
  | finalizeStop (vm : VmId)
deriving DecidableEq, Repr

instance : ToString GuruEvent where
  toString
    | .finalizeStart vm host => s!"finalize_start:{vm}:{host}"
    | .prepareStop vm => s!"prepare_stop:{vm}"
    | .finalizeStop vm => s!"finalize_stop:{vm}"

/-- A question to the planner. -/
structure Question where
  wanted : Placement.Wanted
  excluded : List HostId
deriving DecidableEq, Repr

/-- Work that somebody has begun by hand and not finished. -/
structure Handle where
  node : Node
  item : Work.Item
deriving DecidableEq, Repr

/-- Tasks beside the operations: hosts that serve a session, and periodic scanners. -/
inductive BackgroundTask where
  | session (id : Nat)
  | scanner (owner : Nat)
deriving DecidableEq, Repr

/-- What a request waits for, or its reply. -/
inductive Pending : Request → Type where
  | reply {r : Request} (a : r.Reply) : Pending r
  | lock (owner : Nat) (name : LockName) (deadline : Nat) : Pending (.lock name)
  | send {envelope : Agent.Envelope} (s : Agent.Sending) : Pending (.send envelope)
  | both {a b : Agent.Envelope} (first second : Agent.Sending) : Pending (.sendBoth a b)

/-- A program that waits, and how it goes on. -/
structure Blocked (α : Type) where
  request : Request
  pending : Pending request
  next : request.Reply → Program surroundings α

inductive Progress (α : Type) where
  | finished (a : α)
  | blocked (b : Blocked α)

/-- A scanner that looks at the open items again and again. -/
structure Scanner where
  owner : Nat
  interval : Nat
  /-- The time of its first scan, once it has begun. -/
  began : Option Nat := none
  /-- The number of scans that it has begun. -/
  scans : Nat := 0
  scan : Option (Blocked (Except Failure Recovery.Report)) := none

structure World where
  config : Config
  /-- The roles whose machines somebody manages. -/
  gurus : List Role
  store : Store := {}
  clock : Nat := 0
  /-- The number of times and identifiers that were given out. -/
  stamps : Nat := 0
  /-- The number of jobs that were begun. -/
  jobs : Nat := 0
  locks : Work.Locks := {}
  registry : Agent.Registry
  fleet : Fleet := {}
  /-- The tasks that can go on, in the order in which they will. -/
  ready : List BackgroundTask := []
  scanners : List Scanner := []
  candidates : List HostId := []
  questions : List Question := []
  denied : List HostId := []
  probes : List (HostId × Resources) := []
  refuseStart : Bool := false
  guruEvents : List GuruEvent := []
  snapshots : List VmId := []
  faults : List (Callee × Failure) := []
  hooks : List (Point × Hook) := []
  handles : List Handle := []
  guards : List (String × LockName) := []
  /-- The commands that were sent, the last one first. -/
  sent : List Agent.Envelope := []
  accounts : Table AccountId := ∅
  volumes : Table VolumeId := ∅

namespace World

def ofConfig (config : Config) (gurus : List Role) : World where
  config := config
  gurus := gurus
  registry := .ofDepth config.agent.channelDepth.toNat

def context (w : World) : Operation.Context := .ofConfig w.config

/-- A work item by its number. -/
def itemAt? (w : World) (number : Nat) : Option Work.Item :=
  if number = 0 then none else w.store.work.rows[number - 1]?

/-- The number of a work item. -/
def numberOf (w : World) (id : Uuid) : Nat := w.store.work.rows.findIdx (·.id = id) + 1

/-- The work that was begun by hand as the item of a number. -/
def handleAt? (w : World) (number : Nat) : Option Handle := do
  let item ← w.itemAt? number
  w.handles.find? (·.item.id = item.id)

/-- A node with the waits of the configuration; the configured one if none is named. -/
def node (w : World) (id : Option NodeId) : Node :=
  { w.context.node with id := id.getD w.context.node.id }

def noteAccount (w : World) (account : AccountId) : World :=
  { w with accounts := w.accounts.insert account }

/-- Another process on the same store: everything that is not stored is gone. -/
def restart (w : World) : World :=
  { ofConfig w.config w.gurus with
    store := w.store
    clock := w.clock
    stamps := w.stamps
    jobs := w.jobs
    hooks := w.hooks
    sent := w.sent
    accounts := w.accounts
    volumes := w.volumes }

/-- Connects a host, which serves its session from then on. -/
def connect (w : World) (host : HostId) : World :=
  let (id, registry) := w.registry.connect host
  { w with registry := registry, ready := w.ready ++ [.session id] }

/-- Makes a task go on. -/
def wake (w : World) (task : BackgroundTask) : World :=
  if task ∈ w.ready then w else { w with ready := w.ready ++ [task] }

/-- Makes the sessions go on that have something in their queues. -/
def wakeSessions (w : World) : World :=
  (w.registry.sessions.filter (!·.queue.isEmpty)).foldl (fun w s => w.wake (.session s.id)) w

/-- The failure that the next call of a collaborator has been made to end with. -/
def takeFault (w : World) (callee : Callee) : Option Failure × World :=
  match w.faults.lookup callee with
  | none => (none, w)
  | some failure =>
    (some failure, { w with faults := w.faults.eraseIdx (w.faults.findIdx (·.1 = callee)) })

/-- A call of a collaborator. -/
def calling {α : Type} (w : World) (callee : Callee)
    (answer : World → Except Failure α × World) :
    Except Failure α × World :=
  match w.takeFault callee with
  | (some failure, w) => (.error failure, w)
  | (none, w) => answer w

/-- The first candidate that is not ruled out, or the preferred host if it is such a candidate. -/
def choose (w : World) (wanted : Placement.Wanted) (excluded : Placement.Exclusions) :
    Option HostId :=
  let free (host : HostId) := !excluded.rulesOut host
  match wanted.preferred.filter fun host => host ∈ w.candidates && free host with
  | some host => some host
  | none => w.candidates.find? free

/-- What happens at a point of an operation. -/
def pass (w : World) (point : Point) : Except Failure Unit × World :=
  match w.hooks.lookup point with
  | none => (.ok (), w)
  | some (.fail 0) => (.error (.fault (.injected (Enumeration.name point))), w)
  | some (.fail (skip + 1)) =>
    (.ok (), { w with hooks := (point, .fail skip) :: w.hooks.filter (·.1 ≠ point) })
  | some (.rival update) => (.ok (), { w with store := (w.store.swap update).2 })

def note (w : World) (event : GuruEvent) : World :=
  { w with guruEvents := w.guruEvents ++ [event] }

/-- Times are all different, and later ones are greater. -/
def now (w : World) : Timestamp × World :=
  ((Timestamp.ofEpochNanos? (1700000000000000000 + w.stamps)).getD .epoch,
    { w with stamps := w.stamps + 1 })

def startSend (w : World) (envelope : Agent.Envelope) : Agent.Sending × World :=
  let (s, registry) := Agent.Sending.start w.registry w.clock envelope
  let w := { w with registry := registry, sent := envelope :: w.sent }
  (s, w.wakeSessions)

def pollSend (w : World) (s : Agent.Sending) : Agent.Sending × World :=
  let (s, registry) := s.poll w.registry w.clock
  let w := { w with registry := registry }
  (s, w.wakeSessions)

end World

namespace Pending

/-- Looks whether a request can be answered now. -/
def poll (w : World) : {r : Request} → Pending r → Pending r × World
  | _, reply a => (reply a, w)
  | _, lock owner name deadline =>
    if w.locks.isGranted owner name then (reply true, w)
    else if deadline ≤ w.clock then (reply false, { w with locks := w.locks.giveUp owner name })
    else (lock owner name deadline, w)
  | _, send s =>
    match w.pollSend s with
    | (.ended result, w) => (reply result, w)
    | (s, w) => (send s, w)
  | _, both first second =>
    let (first, w) := w.pollSend first
    let (second, w) := w.pollSend second
    match first, second with
    | .ended a, .ended b => (reply (a, b), w)
    | first, second => (both first second, w)

/-- Makes a request on behalf of a job. -/
def make (owner : Nat) (w : World) : (r : Request) → Pending r × World
  | .transact t =>
    let (a, store) := t.apply w.store
    (reply a, { w with store := store })
  | .now =>
    let (time, w) := w.now
    (reply time, w)
  | .freshId => (reply (Uuid.ofNat w.stamps), { w with stamps := w.stamps + 1 })
  | .lock name =>
    (lock owner name (w.clock + w.config.work.lockWait.millisUp)).poll
      { w with locks := w.locks.claim owner name }
  | .unlock name how => (reply (), { w with locks := w.locks.release name how })
  | .pass point =>
    let (result, w) := w.pass point
    (reply result, w)
  | .send envelope =>
    match w.startSend envelope with
    | (.ended result, w) => (reply result, w)
    | (s, w) => (send s, w)
  | .sendBoth a b =>
    let (first, w) := w.startSend a
    let (second, w) := w.startSend b
    match first, second with
    | .ended a, .ended b => (reply (a, b), w)
    | first, second => (both first second, w)
  | .isConnected host => (reply (w.registry.isConnected host), w)
  | .selectHost wanted excluded =>
    let w := { w with questions := w.questions ++ [(⟨wanted, excluded.rows⟩ : Question)] }
    let (result, w) := w.calling .planner fun w => (.ok (w.choose wanted excluded), w)
    (reply result, w)
  | .hasRoom host delta =>
    let w := { w with probes := w.probes ++ [(host, delta)] }
    let (result, w) := w.calling .capacity fun w => (.ok (decide (host ∉ w.denied)), w)
    (reply result, w)
  | .snapshotPending vm =>
    let (result, w) := w.calling .snapshots fun w => (.ok (decide (vm ∈ w.snapshots)), w)
    (reply result, w)
  | .hasGuru role => (reply (decide (role ∈ w.gurus)), w)
  | .finalizeStart vm host =>
    let (result, w) := w.calling .finalizeStart fun w =>
      (if w.refuseStart then .error (.fault (.other "guest did not report in")) else .ok (),
        w.note (.finalizeStart vm.id host))
    (reply result, w)
  | .prepareStop vm =>
    let (result, w) := w.calling .prepareStop fun w => (.ok (), w.note (.prepareStop vm.id))
    (reply result, w)
  | .finalizeStop vm =>
    let (result, w) := w.calling .finalizeStop fun w => (.ok (), w.note (.finalizeStop vm.id))
    (reply result, w)

/-- The time at which the waiting ends in any case. -/
def deadline? {r : Request} : Pending r → Option Nat
  | reply _ => none
  | lock _ _ deadline => some deadline
  | send s => s.deadline?
  | both first second => (first.deadline?.toList ++ second.deadline?.toList).min?

/-- Whether a send has something to do. -/
def sendDue (w : World) : Agent.Sending → Bool
  | .ended _ => true
  | .pending id _ deadline =>
    decide (deadline ≤ w.clock) || (w.registry.result? id).isSome ||
      (w.registry.send? id).any (·.progress = .admitted)

/-- Whether something has happened that the request waits for. -/
def isDue (w : World) : {r : Request} → Pending r → Bool
  | _, reply _ => true
  | _, lock owner name deadline => w.locks.isGranted owner name || decide (deadline ≤ w.clock)
  | _, send s => sendDue w s
  | _, both first second =>
    match first, second with
    | .ended _, second => sendDue w second
    | first, .ended _ => sendDue w first
    | first, second => sendDue w first || sendDue w second

/-- Stops waiting at once. -/
def abort (w : World) : {r : Request} → Pending r → World
  | _, reply _ => w
  | _, lock owner name _ => { w with locks := w.locks.giveUp owner name }
  | _, send s => { w with registry := s.abort w.registry }
  | _, both first second => { w with registry := second.abort (first.abort w.registry) }

end Pending

/-- Runs a program until it is done or has to wait. -/
def advance {α : Type} (owner : Nat) : Program surroundings α → World → Progress α × World
  | .done a, w => (.finished a, w)
  | .ask r next, w =>
    match Pending.make owner w r with
    | (.reply a, w) => advance owner (next a) w
    | (pending, w) => (.blocked ⟨r, pending, next⟩, w)

/-- Lets a program that waits go on, if it can. -/
def Blocked.resume {α : Type} (owner : Nat) (b : Blocked α) (w : World) : Progress α × World :=
  match b.pending.poll w with
  | (.reply a, w) => advance owner (b.next a) w
  | (pending, w) => (.blocked { b with pending := pending }, w)

/-- Ends a program that waits, with all locks that its job holds. -/
def Blocked.abort {α : Type} (owner : Nat) (b : Blocked α) (w : World) : World :=
  let w := b.pending.abort w
  { w with locks := w.locks.dropOwner owner }

end ControlPlane.Simulation
