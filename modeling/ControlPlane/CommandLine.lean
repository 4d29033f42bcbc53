import ControlPlane.Config.Document
import ControlPlane.Config.Environment
import ControlPlane.Json.Config
import ControlPlane.Json.Record
import ControlPlane.Store.Basic

/-! The command line: it lists the machines and the work items of a database and checks
configuration files. -/

namespace ControlPlane.CommandLine

inductive Command where
  | vms
  | work (owner : Option NodeId) (step : Option Work.Step)
  | checkConfig (path : String)
deriving DecidableEq, Repr

structure Request where
  config : Option String
  database : Option String
  json : Bool
  command : Command
deriving DecidableEq, Repr

/-! ### Arguments -/

inductive Subcommand where
  | vms | work | checkConfig
deriving DecidableEq, Repr

def Subcommand.ofName? : String → Option Subcommand
  | "vms" => some vms
  | "work" => some work
  | "check-config" => some checkConfig
  | _ => none

/-- The options that a command understands. Those for any command may also stand before it. -/
def allowed : Option Subcommand → List String
  | some .work => ["--config", "--database", "--json", "--owner", "--step"]
  | _ => ["--config", "--database", "--json"]

/-- Arguments of one level: options with their values, and the other arguments in order. -/
structure Level where
  options : List (String × String) := []
  others : List String := []

namespace Level

def get? (l : Level) (name : String) : Option String := l.options.lookup name

/-- Records an option, which may be given once. -/
def give? (l : Level) (name value : String) : Option Level :=
  if (l.get? name).isSome then none else some { l with options := (name, value) :: l.options }

end Level

/-- An argument that is taken for an option. -/
def looksLikeOption (s : String) : Bool := s.toList.head? == some '-' && s != "-"

/-- Splits `--name=value`. -/
def splitOption (s : String) : String × Option String :=
  let (name, rest) := s.toList.span (· != '=')
  (String.ofList name, if rest.isEmpty then none else some (String.ofList rest.tail))

/-- Reads the arguments of one level. Before a command, the first argument that is no option ends
the level. -/
def readLevel? (command : Option Subcommand) (level : Level) :
    List String → Option (Level × List String)
  | [] => some (level, [])
  | arg :: args =>
    if arg = "--" then
      some ({ level with others := level.others ++ args }, [])
    else if looksLikeOption arg then
      let (name, inlineValue) := splitOption arg
      if name ∉ allowed command then none
      else if name = "--json" then
        if inlineValue.isSome then none
        else (level.give? name "").bind fun level => readLevel? command level args
      else match inlineValue, args with
        | some value, args =>
          (level.give? name value).bind fun level => readLevel? command level args
        | none, value :: args =>
          if looksLikeOption value then none
          else (level.give? name value).bind fun level => readLevel? command level args
        | none, [] => none
    else if command.isNone then some (level, arg :: args)
    else readLevel? command { level with others := level.others ++ [arg] } args

/-- A path is not empty. -/
def path? (s : String) : Option String := if s = "" then none else some s

def step? (s : String) : Option Work.Step :=
  (Enumeration.all : List Work.Step).find? fun step =>
    String.ofList ((toString step).toList.map Char.toLower) = s

/-- Reads an option, where it is given. -/
def optional? {α : Type} (read? : String → Option α) : Option String → Option (Option α)
  | none => some none
  | some s => (read? s).map some

def readCommand? (level : Level) : Subcommand → Option Command
  | .vms => if level.others.isEmpty then some .vms else none
  | .work => do
    let owner ← optional? (fun s => Digits.readBelow? UInt64.size s.toList) (level.get? "--owner")
    let step ← optional? step? (level.get? "--step")
    if level.others.isEmpty then some (.work (owner.map Id.ofNat) step) else none
  | .checkConfig =>
    match level.others with
    | [path] => (path? path).map .checkConfig
    | _ => none

/-- Reads the arguments, or finds that they make no sense. An option counts more behind the command
than before it. -/
def parse? (args : List String) : Option Request := do
  let (before, rest) ← readLevel? none {} args
  match before.others, rest with
  | [], name :: args => do
    let subcommand ← Subcommand.ofName? name
    let (after, _) ← readLevel? (some subcommand) {} args
    let pathOf (level : Level) (name : String) := optional? path? (level.get? name)
    let config := (← pathOf after "--config").or (← pathOf before "--config")
    let database := (← pathOf after "--database").or (← pathOf before "--database")
    let json := (after.get? "--json").isSome || (before.get? "--json").isSome
    some ⟨config, database, json, ← readCommand? after subcommand⟩
  | _, _ => none

/-! ### Output -/

/-- A text filled up with blanks on the right. -/
def left (width : Nat) (s : String) : String :=
  s ++ String.ofList (List.replicate (width - s.length) ' ')

/-- A text filled up with blanks on the left. -/
def right (width : Nat) (s : String) : String :=
  String.ofList (List.replicate (width - s.length) ' ') ++ s

/-- One line of a table. -/
def row (cells : List String) : String := " ".intercalate cells ++ "\n"

def dash (host : Option HostId) : String := (host.map toString).getD "-"

/-- Identifiers of machines, nodes and items are not filled up. -/
def vmRow (vm : Vm) : String :=
  row [toString vm.id, left 24 vm.name, left 10 (toString vm.state), left 6 (dash vm.host),
    left 6 (dash vm.lastHost), right 8 (toString vm.version)]

def vmTable (vms : List Vm) : String :=
  row [left 8 "ID", left 24 "NAME", left 10 "STATE", left 6 "HOST", left 6 "LAST",
    right 8 "VERSION"] ++ String.join (vms.map vmRow)

def itemRow (item : Work.Item) : String :=
  row [toString item.id, toString item.vm, toString item.owner,
    left 20 (toString item.operation), left 10 (toString item.step), item.created.writeOffset]

def itemTable (items : List Work.Item) : String :=
  row [left 36 "ID", left 8 "VM", left 6 "OWNER", left 20 "OPERATION", left 10 "STEP",
    "CREATED"] ++ String.join (items.map itemRow)

/-! ### Running -/

/-- What the command line finds on disk: the contents of files, and the stores in database files. -/
structure Disk where
  file? : String → Option ByteArray
  store? : String → Option Store

/-- The configuration for looking into a database. Only one that comes from a file is checked. -/
def loadConfig (disk : Disk) (env : Environment) (request : Request) : Except Failure Config := do
  let config ← match request.config with
    | some path => Config.ofFile (disk.file? path)
    | none => Config.withEnvironment env
  match request.database with
  | some path => .ok { config with storage := { databasePath := path } }
  | none => .ok config

def openStore (disk : Disk) (env : Environment) (request : Request) : Except Failure Store := do
  let config ← loadConfig disk env request
  match disk.store? config.storage.databasePath with
  | some store => .ok store
  | none => .error (.storage (.operation "open database"))

/-- Carries out a request, and gives the text to print. -/
def perform (disk : Disk) (env : Environment) (request : Request) : Except Failure String :=
  match request.command with
  | .checkConfig path => do
    let config ← Config.ofFile (disk.file? path)
    let verdict := s!"{path} is valid (node {config.nodeId})\n"
    .ok (if request.json then verdict ++ config.toJson.pretty ++ "\n" else verdict)
  | .vms => do
    let store ← openStore disk env request
    let vms := store.vms.rows
    .ok (if request.json then (Json.arr (vms.map Vm.toJson)).pretty ++ "\n" else vmTable vms)
  | .work owner step => do
    let store ← openStore disk env request
    let items := store.items.filter fun item =>
      owner.all (item.owner = ·) && step.all (item.step = ·)
    .ok (if request.json then (Json.arr (items.map Work.Item.toJson)).pretty ++ "\n"
      else itemTable items)

/-- The configuration files that a request has read. -/
def Request.configFiles (request : Request) : List String :=
  match request.command with
  | .checkConfig path => [path]
  | .vms | .work .. => request.config.toList

/-- The database file that a request looks into. -/
def Request.databaseFile? (disk : Disk) (env : Environment) (request : Request) : Option String :=
  match request.command with
  | .checkConfig _ => none
  | .vms | .work .. => (loadConfig disk env request).toOption.map (·.storage.databasePath)

/-- How a run of the command line ends. -/
inductive Outcome where
  /-- The arguments make no sense. -/
  | usage
  | printed (text : String)
  | failed (failure : Failure)
deriving DecidableEq, Repr

def run (disk : Disk) (env : Environment) (args : List String) : Outcome :=
  match parse? args with
  | none => .usage
  | some request =>
    match perform disk env request with
    | .ok text => .printed text
    | .error failure => .failed failure

def Outcome.exitCode : Outcome → Nat
  | usage => 2
  | printed _ => 0
  | failed _ => 1

/-- The line that reports a failure. -/
def errorLine (failure : Failure) : String := s!"Error: {failure.message}"

end ControlPlane.CommandLine
