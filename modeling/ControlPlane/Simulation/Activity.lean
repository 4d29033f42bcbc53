import ControlPlane.Simulation.World

/-! What goes on in a simulated control plane. An activity goes on whenever it is polled, until it
waits for something; activities side by side are polled in order. Between two polls of the
foreground, the hosts and the scanners in the background go on until none of them can; and only when
nobody can go on does time pass. -/

namespace ControlPlane.Simulation
open Control

/-- What an order comes to. -/
inductive Value where
  | nothing
  | flag (b : Bool)
  | count (n : Nat)
  | state (s : State)
  | power (p : PowerState)
  | vm (vm : Vm)
  | host (host : Host)
  | pool (pool : Pool)
  | volume (volume : Volume)
  | item (item : Work.Item)
  | label (id : Uuid)
  | report (report : Recovery.Report)
  | resources (r : Resources)
  | dispatch (host : HostId) (kind : String)
  | list (values : List Value)
  | results (results : List (Except Failure Value))

abbrev Result := Except Failure Value

def Value.ofUnit (_ : Unit) : Value := nothing

def Value.ofOption {α : Type} (f : α → Value) : Option α → Value
  | some a => f a
  | none => nothing

/-- What is kept of a program when it has succeeded, or no longer kept once it is over. -/
inductive Keep where
  | nothing
  /-- The work that it has begun in the ledger of a node. -/
  | handle (node : Option NodeId)
  /-- The work that it has ended is not kept any more. -/
  | noHandle (number : Nat)
  /-- The lock that it has taken in the ledger of a node, under a name. -/
  | guard (name : String) (vm : VmId) (node : Option NodeId)

/-- Something that goes on in the foreground. -/
inductive Activity where
  | ended (result : Result)
  /-- Does something at once. -/
  | act (f : World → Result × World)
  | launch (program : World → Program surroundings Result) (keep : Keep)
  | running (owner : Nat) (b : Blocked Result) (keep : Keep)
  /-- Waits for some milliseconds. -/
  | pause (millis : Nat)
  /-- Has a scanner look at the open items for some milliseconds. -/
  | scanFor (millis interval : Nat)
  /-- Waits for a time, and then ends a scanner. -/
  | waiting (time : Nat) (scanner : Option Nat)
  /-- Goes on with a hook at a point. -/
  | hooked (point : Option Point) (hook : Hook) (activity : Activity)
  /-- The hook is there. -/
  | armed (point : Option Point) (activity : Activity)
  /-- Activities side by side. -/
  | all (activities : List Activity)

namespace World

def arm (w : World) (point : Option Point) (hook : Hook) : World :=
  match point with
  | none => w
  | some point => { w with hooks := (point, hook) :: w.hooks.filter (·.1 ≠ point) }

def disarm (w : World) (point : Option Point) : World :=
  match point with
  | none => w
  | some point => { w with hooks := w.hooks.filter (·.1 ≠ point) }

/-- Gives up the lock that was kept under a name. -/
def dropGuard (w : World) (name : String) : World :=
  match w.guards.lookup name with
  | none => w
  | some lock =>
    { w with
      locks := w.locks.release lock .plain
      guards := w.guards.filter (·.1 ≠ name) }

/-- Keeps what a program has left behind. -/
def keep (w : World) (keep : Keep) (result : Result) : World :=
  match keep, result with
  | .handle node, .ok (.item item) => { w with handles := w.handles ++ [⟨w.node node, item⟩] }
  | .noHandle number, _ =>
    let done := (w.itemAt? number).map (·.id)
    { w with handles := w.handles.filter (some ·.item.id ≠ done) }
  | .guard name vm node, .ok _ =>
    let w := w.dropGuard name
    { w with guards := w.guards ++ [(name, Work.lockName (w.node node) vm)] }
  | _, _ => w

/-- Lets a scanner begin, as the next job. -/
def addScanner (w : World) (interval : Nat) : World :=
  { w with
    jobs := w.jobs + 1
    scanners := w.scanners ++ [{ owner := w.jobs, interval := interval }]
    ready := w.ready ++ [.scanner w.jobs] }

/-- Ends a scanner, wherever it is. -/
def endScanner (w : World) (owner : Nat) : World :=
  let w' := { w with
    scanners := w.scanners.filter (·.owner ≠ owner)
    ready := w.ready.filter (· ≠ .scanner owner) }
  match (w.scanners.find? (·.owner = owner)).bind (·.scan) with
  | some b => b.abort owner w'
  | none => { w' with locks := w'.locks.dropOwner owner }

end World

namespace Activity

def ofProgress (owner : Nat) (keep : Keep) : Progress Result × World → Activity × World
  | (.finished result, w) => (ended result, w.keep keep result)
  | (.blocked b, w) => (running owner b keep, w)

/-- Waits for a time and then ends a scanner. -/
def waitUntil (time : Nat) (scanner : Option Nat) (w : World) : Activity × World :=
  if time ≤ w.clock then
    match scanner with
    | none => (ended (.ok .nothing), w)
    | some owner => (ended (.ok (.flag true)), w.endScanner owner)
  else (waiting time scanner, w)

/-- Takes the hook away when the activity is over. -/
def whileArmed (point : Option Point) : Activity × World → Activity × World
  | (ended result, w) => (ended result, w.disarm point)
  | (activity, w) => (armed point activity, w)

/-- The results of activities that are all over. -/
def results? : List Activity → Option (List Result)
  | [] => some []
  | ended result :: activities => (results? activities).map (result :: ·)
  | _ :: _ => none

def ofAll (activities : List Activity) : Activity :=
  match results? activities with
  | some results => ended (.ok (.results results))
  | none => all activities

mutual

/-- Lets an activity go on until it waits. -/
def poll : Activity → World → Activity × World
  | ended result, w => (ended result, w)
  | act f, w =>
    let (result, w) := f w
    (ended result, w)
  | launch program keep, w =>
    ofProgress w.jobs keep (advance w.jobs (program w) { w with jobs := w.jobs + 1 })
  | running owner b keep, w => ofProgress owner keep (b.resume owner w)
  | pause millis, w => waitUntil (w.clock + millis) none w
  | scanFor millis interval, w =>
    waitUntil (w.clock + millis) (some w.jobs) (w.addScanner interval)
  | waiting time scanner, w => waitUntil time scanner w
  | hooked point hook activity, w => whileArmed point (poll activity (w.arm point hook))
  | armed point activity, w => whileArmed point (poll activity w)
  | all activities, w =>
    let (activities, w) := pollAll activities w
    (ofAll activities, w)

def pollAll : List Activity → World → List Activity × World
  | [], w => ([], w)
  | activity :: activities, w =>
    let (activity, w) := poll activity w
    let (activities, w) := pollAll activities w
    (activity :: activities, w)

end

mutual

/-- The times at which an activity stops waiting in any case. -/
def deadlines : Activity → List Nat
  | running _ b _ => b.pending.deadline?.toList
  | waiting time _ => [time]
  | hooked _ _ activity | armed _ activity => deadlines activity
  | all activities => deadlinesOfAll activities
  | ended _ | act _ | launch .. | pause _ | scanFor .. => []

def deadlinesOfAll : List Activity → List Nat
  | [] => []
  | activity :: activities => deadlines activity ++ deadlinesOfAll activities

end

end Activity

namespace Scanner

/-- The time of the next scan. Scans that are late are made up for. -/
def nextScan? (s : Scanner) : Option Nat := s.began.map (· + s.scans * s.interval)

/-- The scanner can go on. An interval of zero lets it do nothing at all. -/
def isDue (s : Scanner) (w : World) : Bool :=
  match s.scan, s.nextScan? with
  | some b, _ => b.pending.isDue w
  | none, some time => decide (time ≤ w.clock) && s.interval != 0
  | none, none => true

def deadline? (s : Scanner) : Option Nat :=
  match s.scan with
  | some b => b.pending.deadline?
  | none => if s.interval = 0 then none else s.nextScan?

/-- Makes the scans that are due, one after the other. -/
def scanWhileDue (s : Scanner) (w : World) : Nat → Scanner × World
  | 0 => (s, w)
  | times + 1 =>
    if s.interval != 0 && s.nextScan?.any (· ≤ w.clock) then
      let s := { s with scans := s.scans + 1 }
      match advance s.owner (Recovery.scan w.context).run w with
      | (.finished _, w) => scanWhileDue s w times
      | (.blocked b, w) => ({ s with scan := some b }, w)
    else (s, w)

/-- The number of scans that are late. -/
def late (s : Scanner) (w : World) : Nat :=
  (w.clock - s.began.getD 0) / s.interval + 1 - s.scans

/-- Lets a scanner go on until it waits. -/
def run (s : Scanner) (w : World) : Scanner × World :=
  let s := { s with began := some (s.began.getD w.clock) }
  match s.scan with
  | none => s.scanWhileDue w (s.late w)
  | some b =>
    match b.resume s.owner w with
    | (.finished _, w) =>
      let s := { s with scan := none }
      s.scanWhileDue w (s.late w)
    | (.blocked b, w) => ({ s with scan := some b }, w)

end Scanner

namespace World

/-- Has a host deal with some requests of its session. -/
def serve (session : Nat) : Nat → World → World
  | 0, w => w
  | requests + 1, w =>
    match w.registry.session? session, w.registry.receive session with
    | some s, (some request, registry) =>
      let (behaviour, fleet) := w.fleet.handle s.host request.envelope
      let registry := match behaviour with
        | .succeed payload => (registry.respond request.id (.success payload)).2
        | .refuse details => (registry.respond request.id (.refusal details)).2
        | .drop => registry.drop request.id
        | .keepSilent => registry
      serve session requests { w with registry := registry, fleet := fleet }
    | _, _ => w

/-- Lets a task in the background go on. -/
def runTask (w : World) : BackgroundTask → World
  | .session id =>
    w.serve id (((w.registry.session? id).map (·.queue.length)).getD 0)
  | .scanner owner =>
    match w.scanners.find? (·.owner = owner) with
    | none => w
    | some s =>
      let (s, w) := s.run w
      { w with scanners := w.scanners.map fun x => if x.owner = owner then s else x }

/-- Makes the scanners go on that can. -/
def wakeScanners (w : World) : World :=
  (w.scanners.filter (·.isDue w)).foldl (fun w s => w.wake (.scanner s.owner)) w

/-- Lets the tasks in the background go on until none of them can. -/
def runReady : Nat → World → World
  | 0, w => w
  | fuel + 1, w =>
    match w.ready with
    | [] => w
    | task :: ready => runReady fuel ({ w with ready := ready }.runTask task).wakeScanners

/-- Bounds the number of times that somebody goes on. -/
def patience : Nat := 1000000000

/-- Runs an activity to its end. -/
def settle : Nat → Activity → World → Result × World
  | 0, _, w => (.ok .nothing, w)
  | fuel + 1, activity, w =>
    match activity.poll w with
    | (.ended result, w) => (result, w)
    | (activity, w) =>
      let w := w.wakeScanners
      if w.ready.isEmpty then
        match (activity.deadlines ++ w.scanners.filterMap (·.deadline?)).min? with
        | some time => settle fuel activity { w with clock := max w.clock time }
        | none => (.ok .nothing, w)
      else settle fuel activity (w.runReady patience)

end World
end ControlPlane.Simulation
