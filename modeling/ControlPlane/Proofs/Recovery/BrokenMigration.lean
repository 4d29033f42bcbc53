import ControlPlane.Proofs.Migration.Progress
import ControlPlane.Proofs.Operation.ItemOutcome
import ControlPlane.Proofs.Recovery.StaleItems
import ControlPlane.Proofs.Recovery.VisitedMachine

/-!
# A migration that broke off is taken to its end

A process may stop at any point of a migration. A recovery scan that finds the machine at its
destination then leaves what the migration itself would have left.
-/

namespace ControlPlane.Concurrent
open Work Control Operation Procedure Recovery

variable {v : VmId} {job : Nat} {s s' : Shared} {past : List Exchange} {item : Item}
  {items : List Item} {view first : View} {pools : Table Pool} {ctx : Context} {vm : Vm} {p : Plan}
  {α : Type} {F : Exchange → Prop}

/-- Nothing speaks against a machine having been moved: a scan gets hold of its lock, the
destination has it on, and the source says no such thing. -/
def confirms (ctx : Context) (v : VmId) (p : Plan) (token : String) : Exchange → Bool
  | ⟨.lock name, granted, _⟩ => name ≠ lockName ctx.node v || granted
  | ⟨.sendBoth e e', answers, _⟩ =>
    e ≠ Agent.probe p.source token ctx.probeWait || e' ≠
      Agent.probe p.destination token ctx.probeWait ||
      known? (Agent.powerOf p.source answers.1) ≠ some .on &&
        known? (Agent.powerOf p.destination answers.2) = some .on
  | _ => true

/-- A machine as a migration may have left it that broke off: still where it was, or on its way, or
where it was to go together with its volumes. -/
structure Adrift (p : Plan) (pools : Table Pool) (vm : Vm) (volumes : List Volume) : Prop where
  state : vm.state = .running ∨ vm.state = .migrating
  placed : vm.host = some p.source ∨ vm.state = .running ∧ vm.host = some p.destination ∧
    vm.lastHost = some p.source ∧ volumes.map (Volume.under pools (movesOf p)) = volumes
  away : p.source ≠ p.destination
  backed : p.Backed pools volumes

def Resolved (v : VmId) (item : Item) (view : View) (p : Plan) (pools : Table Pool) : Assertion :=
  fun past s => ∃ w last now, Moored p view pools (movesOf p) w last ∧
    Rest v { item with step := .done, updated := now } last pools past s

theorem arrived_of_found {token : String} {finding : Finding}
    (confirmed : ∀ e, F e → confirms ctx v p token e) (found : Found F ctx v p token finding) :
    finding = .arrived := by
  cases found with
  | refused told => simpa [confirms] using confirmed _ told
  | heard told heard =>
    obtain ⟨answers, before⟩ := heard
    have agrees := confirmed _ told
    simp only [confirms, ne_eq, not_true_eq_false, decide_false, Bool.false_or, Bool.and_eq_true,
      decide_eq_true_eq] at agrees
    obtain ⟨off, on⟩ := agrees
    rw [on]
    generalize Agent.powerOf p.source answers.1 = source at off
    rcases source with _ | _ | _ | _
    all_goals first | rfl | exact absurd rfl off

section
variable (adrift : Adrift p pools vm view.volumes)
include adrift

theorem Adrift.stowage : Stowage p pools vm view.volumes (· = view.volumes)
    (· = view.volumes.map (Volume.under pools (movesOf p))) where
  backed := by
    rintro _ rfl
    exact adrift.backed
  before := keeps_eq fun w mem => ⟨w, mem, rfl⟩
  after := keeps_eq fun w mem => by
    obtain ⟨old, here, rfl⟩ := List.mem_map.1 mem
    exact ⟨old, here, (Volume.under_frame ..).1.symm⟩
  arrives := by
    rintro _ rfl
    rfl
  arrived := by
    rintro _ there rfl
    rcases adrift.placed with here | ⟨-, -, -, moved⟩
    · exact absurd (Option.some.inj (here.symm.trans there)) adrift.away
    · exact moved.symm

theorem Adrift.moored {volumes : List Volume}
    (moved : volumes = view.volumes.map (Volume.under pools (movesOf p))) :
    Moored p view pools (movesOf p) (Finding.arrived.settle p vm)
      ⟨some (Finding.arrived.settle p vm), volumes⟩ := by
  simp only [Finding.settle]
  split
  next there =>
    rcases adrift.placed with here | ⟨running, -, lastHost, -⟩
    · exact absurd (Option.some.inj (here.symm.trans there)) adrift.away
    · exact ⟨rfl, running, there, lastHost, moved, moves_movesOf p⟩
  next elsewhere =>
    rcases adrift.placed with here | ⟨-, there, -, -⟩
    · refine ⟨rfl, rfl, rfl, ?_, moved, moves_movesOf p⟩
      rw [Vm.put, if_neg elsewhere, here]
      rfl
    · exact absurd there elsewhere

/-- A scan that comes to a migration that broke off takes it to its end, if the machine is found at
its destination. -/
theorem rest_scan (stored : view.vm = some vm) (planned : item.plan = some p) (isOpen : item.Open)
    (confirmed : ∀ e, F e → confirms ctx v p vm.token e) (owner : item.owner = ctx.node.id)
    (spares : ∀ e, F e → Untouching v ctx.node.id view.volumes e)
    (h : Rest v item view pools past s) :
    Safe (resting v job) (fun _ => Given F (Resolved v item view p pools))
      (scan ctx).run past s := by
  have berthed : Berthed v item (some vm) (· = view.volumes) pools past s :=
    ⟨_, rfl, stored ▸ h⟩
  refine (berthed_scan adrift.stowage planned adrift.state isOpen owner spares berthed).mono
    fun _ past s ends all => ?_
  obtain ⟨finding, now, found, volumes, moved, h⟩ := ends all
  cases arrived_of_found confirmed found
  exact ⟨_, _, now, adrift.moored moved, h⟩

end

theorem path_of_movesOf : ∀ move ∈ movesOf p, move.path = none := by
  intro move mem
  obtain ⟨relocation, -, rfl⟩ := List.mem_map.1 mem
  rfl

theorem Underway.adrift {moves? : Option (List VolumeMove)} (h : Underway first p pools moves? view)
    (cleared : Cleared p first pools vm) :
    ∃ vm', view.vm = some vm' ∧ vm'.token = vm.token ∧ Adrift p pools vm' view.volumes := by
  obtain ⟨stored, ⟨running, here, away⟩, backed⟩ := cleared
  have backed : p.Backed pools view.volumes := h.volumes ▸ backed.under _
  have stays : view.vm = some vm → ∃ vm', view.vm = some vm' ∧ vm'.token = vm.token ∧
      Adrift p pools vm' view.volumes :=
    fun same => ⟨vm, same, rfl, .inl running, .inl here, away, backed⟩
  rcases h.vm with same | ⟨vm₀, vm', same, there, leg⟩
  · exact stays (same.trans stored)
  rw [stored] at same
  cases same
  cases leg with
  | stays => exact stays there
  | leaves token state host => exact ⟨vm', there, token, .inr state, .inl host, away, backed⟩
  | arrives token state host lastHost moved =>
    refine ⟨vm', there, token, .inl state, .inr ⟨state, host, lastHost, ?_⟩, away, backed⟩
    rw [h.volumes, List.map_map]
    refine List.map_congr_left fun volume _ => ?_
    exact Volume.under_again moved (moves_movesOf p) path_of_movesOf

/-- A scan has left what a migration would have left, but that the paths of the volumes are the old
ones if they had not been rewritten. -/
structure Rejoins (rewritten : Bool) (old ended recovered : View) : Prop where
  vm : ∃ w w', ended.vm = some w ∧ recovered.vm = some w' ∧ w'.state = w.state ∧
    w'.host = w.host ∧ w'.lastHost = w.lastHost
  volumes : recovered.volumes.map Volume.bare = ended.volumes.map Volume.bare
  paths : recovered.volumes.map Volume.path =
    (bif rewritten then ended else old).volumes.map Volume.path

/-- Recording the moves of a plan again, or for the first time, brings the volumes to where they are
when the migration has recorded them. -/
theorem Moored.rejoins {w w' : Vm} {ended recovered : View}
    {moves? moved? : Option (List VolumeMove)} (underway : Underway first p pools moves? view)
    (agree : ∀ moves, moves? = some moves → moved? = some moves)
    (ends : Moored p first pools (moved?.getD []) w ended)
    (last : Moored p view pools (movesOf p) w' recovered) :
    Rejoins moves?.isSome first ended recovered := by
  have vm : ∃ w w', ended.vm = some w ∧ recovered.vm = some w' ∧ w'.state = w.state ∧
    w'.host = w.host ∧ w'.lastHost = w.lastHost :=
    ⟨w, w', ends.stored, last.stored, last.state.trans ends.state.symm,
      last.host.trans ends.host.symm, last.lastHost.trans ends.lastHost.symm⟩
  have twice : recovered.volumes = first.volumes.map fun volume =>
      (volume.under pools (moves?.getD [])).under pools (movesOf p) := by
    rw [last.volumes, underway.volumes, List.map_map]
    rfl
  cases moves? with
  | some moves =>
    -- What has been recorded once is what the migration records.
    obtain rfl := agree moves rfl
    have same : recovered.volumes = ended.volumes := by
      rw [twice, ends.volumes]
      exact List.map_congr_left fun volume _ =>
        Volume.under_again ends.moved (moves_movesOf p) path_of_movesOf
    exact ⟨vm, congrArg (List.map Volume.bare) same, congrArg (List.map Volume.path) same⟩
  | none =>
    refine ⟨vm, ?_, ?_⟩
    · rw [twice, ends.volumes, List.map_map, List.map_map]
      exact List.map_congr_left fun volume _ =>
        Volume.bare_under (moves_movesOf p) ends.moved volume
    · rw [twice, List.map_map]
      exact List.map_congr_left fun volume _ => Volume.path_under path_of_movesOf

theorem rewriting_before {before after : List Exchange} {moves : List VolumeMove}
    (h : rewriting before = some moves) : rewriting (before ++ after) = some moves := by
  rw [rewriting, List.findSome?_append, ← rewriting, h]
  rfl

/-- A migration succeeds if nothing stops it. Should the process stop at any point between the
opening of its item and the closing, then a recovery scan that finds the machine at its destination
leaves what the migration would have left. At first the index names the open items of the machine.
Others leave the machine and the pools alone all the while, and the plans of other machines say
nothing of its volumes. -/
theorem broken_migration_resumes {request : Migration.Request} {k : Nat} {s₀ s₁ : Shared}
    {before after past : List Exchange} {e : Exchange} {ctx' : Context} {w : Vm}
    {result : Except Failure Report} (indexed : Indexed request.vm s.store)
    (migrates : Run (Secluded request.vm) job (Operation.migrate ctx request).run [] s (.ok w)
      (before ++ e :: after) s')
    (began : Began item before) (isOpen : Started item.id e.before) (planned : item.plan = some p)
    (stops : e.before.Alike request.vm s₀.store) (node : ctx'.node.id = ctx.node.id)
    (scans : Run (Secluded request.vm) k (scan ctx').run [] s₀ result past s₁)
    (confirmed : ∀ vm, s₀.store.vm? request.vm = some vm →
      ∀ e ∈ past, confirms ctx' request.vm p vm.token e)
    (spares : ∀ e ∈ past,
      Untouching request.vm ctx'.node.id (s₀.store.volumesOf request.vm) e) :
    (∃ x, s₁.store.item? item.id = some x ∧ x.step = .done) ∧
      Rejoins (rewriting before).isSome (s.store.view request.vm) (s'.store.view request.vm)
        (s₁.store.view request.vm) := by
  have dawns : Dawns request.vm (s.store.view request.vm) s.store.pools [] s :=
    ⟨by rintro _ ⟨_, ⟨⟩⟩, rfl, rfl, rfl, indexed⟩
  obtain ⟨completed, charted⟩ := (charted_migrate dawns).chronicle migrates
  obtain ⟨item', p', vm, moves?, planned', cleared, chronicled, moored⟩ := completed
  have whole : Began item (before ++ e :: after) := by
    obtain ⟨store, mem⟩ := began
    exact ⟨store, List.mem_append_left _ mem⟩
  obtain rfl := chronicled.sole whole
  rw [planned] at planned'
  cases planned'
  -- At the point where the process stops it is known how far the migration is.
  obtain ⟨p', view, planned', owner, underway, lodged⟩ :=
    charted before e after rfl (Nat.zero_le _) item began isOpen
  rw [planned] at planned'
  cases planned'
  have isOpen : item.Open := by
    obtain ⟨x, stored, isOpen⟩ := isOpen
    rw [lodged.filed] at stored
    cases stored
    exact isOpen
  have lodged := lodged.alike stops
  obtain ⟨vm', stored, -, adrift⟩ := underway.adrift cleared
  have here : s₀.store.vm? request.vm = some vm' := (congrArg View.vm lodged.view).trans stored
  have there : s₀.store.volumesOf request.vm = view.volumes := congrArg View.volumes lodged.view
  -- From there the scan takes it to its end.
  have resolves := (rest_scan (F := fun e => confirms ctx' request.vm p vm'.token e ∧
      Untouching request.vm ctx'.node.id view.volumes e) adrift stored planned
        isOpen (fun _ f => f.1)
    (owner.trans node.symm) (fun _ f => f.2) ⟨lodged, trivial⟩).chronicle scans
  obtain ⟨w', last, now, moored', h⟩ := resolves.1 fun e mem =>
    ⟨confirmed vm' here e mem, there ▸ spares e mem⟩
  refine ⟨⟨_, h.1.filed, rfl⟩, ?_⟩
  rw [h.1.view]
  refine moored.rejoins underway (fun moves rewritten => ?_) moored'
  exact chronicled.moves.symm.trans (rewriting_before rewritten)

theorem eq_ok_of_isOk {ε : Type} {result : Except ε Unit} (h : result.isOk = true) :
    result = .ok () := by
  cases result with
  | ok => rfl
  | error => cases h

def laden : Store := { onFirst with
  pools := .ofList <| [⟨1⟩, ⟨2⟩].map fun id => ⟨id, "pool", .zone, "/pools", none, none⟩
  volumes := .ofList
    [⟨⟨1⟩, some ⟨1⟩, "root", ⟨1⟩, none, "old", none, none, false⟩] }

/-- A migration of the machine to the second host, and of its volume to the second pool. -/
def removal : Migration.Request := ⟨⟨1⟩, ⟨5⟩, ⟨6⟩, .ofList [⟨⟨1⟩, ⟨2⟩⟩]⟩

def removed : Plan := ⟨⟨1⟩, ⟨5⟩, ⟨6⟩, .ofList [⟨⟨1⟩, ⟨2⟩⟩], false⟩

def fetched : Oracle :=
  .smooth ⟨0, 1⟩ default fun _ => .ok (.ofReply .migrateWithStorage [⟨⟨1⟩, "new"⟩])

def settled : Oracle := .smooth default default fun e =>
  if e.host = ⟨6⟩ then .ok (.ofReply .checkState .on) else .ok (.refusal "")

/-- What came before an exchange, the exchange, and what came after it. -/
def cut? (n : Nat) (past : List Exchange) : Option (List Exchange × Exchange × List Exchange) :=
  (past.drop n).head?.map fun e => (past.take n, e, past.drop (n + 1))

theorem eq_of_cut? {n : Nat} {before after : List Exchange} {e : Exchange}
    (h : cut? n past = some (before, e, after)) : past = before ++ e :: after := by
  obtain ⟨e, here, ⟨⟩⟩ := Option.map_eq_some_iff.1 h
  obtain ⟨rest, here⟩ := List.head?_eq_some_iff.1 here
  have tail : past.drop (n + 1) = rest := by rw [← List.tail_drop, here, List.tail_cons]
  rw [tail, ← here, List.take_append_drop]

/-- The removal, cut at an exchange, and a scan that finds the machine at its destination, from what
the store has become by then. -/
def replays (store : Store) (n : Nat) (since : Store → Store)
    (also : List Exchange → Exchange → Store → List Exchange → Store → Bool) : Bool :=
  store.work.rows = [] &&
  (solo? 0 fetched (Operation.migrate trial removal).run [] ⟨store, {}, []⟩).any
    fun (ended, past, s') => ended.isOk && (cut? n past).any fun (before, e, _) =>
      (before.any fun f => (opened? f).any fun item => item.plan = some removed &&
        (e.before.item? item.id).any (·.Open)) &&
      (solo? 1 settled (scan trial).run [] ⟨since e.before, {}, []⟩).any fun (_, past, s₁) =>
        (((since e.before).vm? ⟨1⟩).all fun vm =>
          past.all (confirms trial ⟨1⟩ removed vm.token)) &&
        also before e s'.store past s₁.store

theorem replay {store : Store} {n : Nat} {since : Store → Store}
    {also : List Exchange → Exchange → Store → List Exchange → Store → Bool}
    (h : replays store n since also = true) :
    ∃ w before e after s' item result past s₁, Indexed removal.vm store ∧
      Run (Secluded removal.vm) 0 (Operation.migrate trial removal).run [] ⟨store, {}, []⟩
        (.ok w) (before ++ e :: after) s' ∧
      Began item before ∧ Started item.id e.before ∧ item.plan = some removed ∧
      Run (Secluded removal.vm) 1 (scan trial).run [] ⟨since e.before, {}, []⟩
        result past s₁ ∧
      (∀ vm, (since e.before).vm? removal.vm = some vm →
        ∀ f ∈ past, confirms trial removal.vm removed vm.token f) ∧
      also before e s'.store past s₁.store = true := by
  simp only [replays, Bool.and_eq_true, decide_eq_true_eq] at h
  obtain ⟨idle, h⟩ := h
  obtain ⟨⟨ended, past, s'⟩, migrates, h⟩ := (Option.any_eq_true ..).1 h
  simp only [Bool.and_eq_true] at h
  obtain ⟨ok, h⟩ := h
  obtain ⟨⟨before, e, after⟩, split, h⟩ := (Option.any_eq_true ..).1 h
  simp only [Bool.and_eq_true, List.any_eq_true] at h
  obtain ⟨⟨f, mem, opens⟩, h⟩ := h
  obtain ⟨item, opens, opened⟩ := (Option.any_eq_true ..).1 opens
  simp only [Bool.and_eq_true, decide_eq_true_eq] at opened
  obtain ⟨planned, opened⟩ := opened
  obtain ⟨x, stored, isOpen⟩ := (Option.any_eq_true ..).1 opened
  obtain ⟨⟨result, past', s₁⟩, scans, seen⟩ := (Option.any_eq_true ..).1 h
  simp only [Bool.and_eq_true] at seen
  obtain rfl := eq_of_cut? split
  cases ended with
  | error failure => cases ok
  | ok w =>
    refine ⟨w, before, e, after, s', item, result, past', s₁, indexed_of_idle idle,
      run_of_solo? (fun _ => .refl _ _) migrates, began_of_opened? mem opens,
      ⟨x, stored, of_decide_eq_true isOpen⟩, planned, run_of_solo? (fun _ => .refl _ _) scans,
      fun vm here f mem => ?_, seen.2⟩
    exact List.all_eq_true.1 ((Option.all_eq_true ..).1 seen.1 vm here) f mem

/-- The process stops when the machine has left, but has not arrived. -/
theorem half_recorded_migration_resumes :
    ∃ w before e after s' item result past s₁,
      Run (Secluded ⟨1⟩) 0 (Operation.migrate trial removal).run [] ⟨laden, {}, []⟩ (.ok w)
        (before ++ e :: after) s' ∧
      Began item before ∧ Started item.id e.before ∧
      (e.before.vm? ⟨1⟩).any (fun vm => vm.state = .migrating) ∧ (rewriting before).isSome ∧
      Run (Secluded ⟨1⟩) 1 (scan trial).run [] ⟨e.before, {}, []⟩ result past s₁ ∧
      (∃ x, s₁.store.item? item.id = some x ∧ x.step = .done) ∧
      Rejoins (rewriting before).isSome (laden.view ⟨1⟩) (s'.store.view ⟨1⟩)
        (s₁.store.view ⟨1⟩) := by
  have replayed : replays laden 19 id (fun before e _ past _ =>
      ((e.before.vm? ⟨1⟩).any fun vm => vm.state = .migrating) && (rewriting before).isSome &&
      past.all fun f => f.before.work.rows.all (·.vm = ⟨1⟩)) = true := by
    decide +kernel
  obtain ⟨w, before, e, after, s', item, result, past, s₁, indexed, migrates,
    began, started, planned, scans, confirmed, also⟩ := replay replayed
  simp only [Bool.and_eq_true, List.all_eq_true, decide_eq_true_eq] at also
  obtain ⟨⟨leaving, rewritten⟩, sole⟩ := also
  refine ⟨w, before, e, after, s', item, result, past, s₁, migrates, began,
    started, leaving, rewritten, scans, ?_⟩
  refine broken_migration_resumes indexed migrates began started planned (.refl _ _)
    rfl scans confirmed ?_
  intro f mem _ x listed other
  exact absurd (sole f mem x (Table.mem_of_get? (Store.mem_openItems listed).1)) other

def paired : Store := { laden with
  vms := laden.vms.insert
    { Vm.register ⟨2⟩ "i-2" "guest" ⟨1⟩ ⟨1⟩ with
      state := .running, host := some ⟨5⟩ }
  pools := laden.pools.insert ⟨⟨3⟩, "pool", .zone, "/pools", none, none⟩ }

/-- A migration of the second machine that has begun its work and done nothing else. Its plan takes
the volume of the first machine to the third pool. -/
def encroaching : Item :=
  ⟨⟨0, 2⟩, ⟨2⟩, trial.node.id, .started, .migrateWithStorage,
    some ⟨⟨2⟩, ⟨5⟩, ⟨6⟩, .ofList [⟨⟨1⟩, ⟨3⟩⟩], false⟩,
    default, default⟩

/-- Where the plan of another machine names a volume, the scan ends with the volume where that plan
takes it. -/
theorem encroaching_plan_diverts_the_volume :
    ∃ w before e after s' item result past s₁, Indexed removal.vm paired ∧
      Run (Secluded removal.vm) 0 (Operation.migrate trial removal).run [] ⟨paired, {}, []⟩
        (.ok w) (before ++ e :: after) s' ∧
      Began item before ∧ Started item.id e.before ∧ item.plan = some removed ∧
      (e.before.openItem encroaching).1 = .ok () ∧
      e.before.Alike removal.vm (e.before.openItem encroaching).2 ∧
      Run (Secluded removal.vm) 1 (scan trial).run
        [] ⟨(e.before.openItem encroaching).2, {}, []⟩ result past s₁ ∧
      (∀ vm, (e.before.openItem encroaching).2.vm? removal.vm = some vm →
        ∀ f ∈ past, confirms trial removal.vm removed vm.token f) ∧
      ¬ Rejoins (rewriting before).isSome (paired.view removal.vm) (s'.store.view removal.vm)
        (s₁.store.view removal.vm) := by
  have replayed : replays paired 19 (fun store => (store.openItem encroaching).2)
      (fun _ e store' _ store₁ => (e.before.openItem encroaching).1.isOk &&
        (e.before.item? encroaching.id).isNone &&
        (store₁.volumesOf ⟨1⟩).map Volume.bare ≠
        (store'.volumesOf ⟨1⟩).map Volume.bare) = true := by
    decide +kernel
  obtain ⟨w, before, e, after, s', item, result, past, s₁, indexed, migrates,
    began, started, planned, scans, confirmed, also⟩ := replay replayed
  simp only [Bool.and_eq_true, decide_eq_true_eq] at also
  obtain ⟨⟨begins, unused⟩, diverted⟩ := also
  exact ⟨w, before, e, after, s', item, result, past, s₁, indexed, migrates,
    began, started, planned,
    eq_ok_of_isOk begins, Store.alike_openItem (by decide) (Option.isNone_iff_eq_none.1 unused),
    scans, confirmed, fun rejoins => diverted rejoins.volumes⟩

end ControlPlane.Concurrent
