import ControlPlane.Proofs.Concurrent.IsolatedMachine
import ControlPlane.Proofs.Recovery.ListedItems

/-!
# A migration on its way

Before a migration writes anything the machine is as it was at first. Then the volumes are recorded
where they have been moved to, then the machine leaves, and at last it arrives. Its item is open all
the while.
-/

namespace ControlPlane

def Agent.VolumeTarget.relocation (target : Agent.VolumeTarget) : Relocation :=
  ⟨target.volume, target.pool⟩

theorem Migration.movesOf_relocation (targets : List Agent.VolumeTarget) :
    (movesOf targets).map VolumeMove.relocation = targets.map Agent.VolumeTarget.relocation := by
  rw [movesOf, List.map_map]
  rfl

theorem Migration.movesWithPaths_relocation (targets : List Agent.VolumeTarget)
    (reported : List Agent.VolumePath) :
    (movesWithPaths targets reported).map VolumeMove.relocation =
      targets.map Agent.VolumeTarget.relocation := by
  rw [movesWithPaths, List.map_map]
  rfl

/-- If as many volumes are sent away as a plan names, then these are the ones that it names. -/
theorem Plan.rows_of_targets {plan : Plan} {pools : Table Pool} {volumes : List Volume}
    {targets : List Agent.VolumeTarget} (ascending : volumes.Pairwise (·.id.key < ·.id.key))
    (named : targets.map Agent.VolumeTarget.relocation =
      volumes.filterMap (plan.volumes.get? ·.id.key))
    (known : ∀ target ∈ targets, (pools.get? target.pool.key).isSome)
    (all : targets.length = plan.volumes.size) :
    targets.map Agent.VolumeTarget.relocation = plan.volumes.rows ∧
      plan.Backed pools volumes := by
  have rows := Plan.relocations_eq ascending (by rw [← named, List.length_map, all])
  refine ⟨named.trans rows, fun r mem => ?_⟩
  obtain ⟨target, own, rfl⟩ := List.mem_map.1 ((named.trans rows).symm ▸ mem)
  rw [← rows] at mem
  obtain ⟨volume, here, moves⟩ := List.mem_filterMap.1 mem
  exact ⟨known target own, volume, here, (Id.key_injective (Table.key_of_get? moves)).symm⟩

/-- The machine, apart from what its transitions write. -/
def Vm.bare (vm : Vm) : Vm :=
  { vm with state := .stopped, host := none, lastHost := none, version := 0 }

theorem Transition.hosts_changed {vm : Vm} {next : State} {host other : HostId}
    (holds : next.HoldsHost) (here : vm.host = some other) (away : other ≠ host) :
    hosts vm next (some host) = .ok (some host, some other) := by
  have ne : ¬ some other = some host := fun e => away (Option.some.inj e)
  unfold hosts
  rw [if_pos holds, here]
  simp only [Option.some_or, if_neg ne]

namespace Concurrent
open Work Control Operation Procedure Migration

def Exchange.rewrites? : Exchange → Option (List VolumeMove)
  | ⟨.transact (.moveVolumes moves), .ok (), _⟩ => some moves
  | _ => none

def rewriting (past : List Exchange) : Option (List VolumeMove) := past.findSome? Exchange.rewrites?

structure Chronicled (item : Item) (moves? : Option (List VolumeMove))
    (past : List Exchange) : Prop where
  sole : ∀ {other}, Began other past → other = item
  moves : rewriting past = moves?

/-- How far the record of a machine is on its way: it is as it was, it has left, or it has
arrived. -/
inductive Leg (p : Plan) (moves : List VolumeMove) (vm : Vm) : Vm → Prop
  | stays : Leg p moves vm vm
  | leaves {vm' : Vm} (token : vm'.token = vm.token) (state : vm'.state = .migrating)
      (host : vm'.host = some p.source) : Leg p moves vm vm'
  | arrives {vm' : Vm} (token : vm'.token = vm.token) (state : vm'.state = .running)
      (host : vm'.host = some p.destination) (lastHost : vm'.lastHost = some p.source)
      (moved : p.Moves moves) : Leg p moves vm vm'

/-- What has been recorded of a migration, apart from its item. -/
structure Underway (first : View) (p : Plan) (pools : Table Pool)
    (moves? : Option (List VolumeMove)) (view : View) : Prop where
  volumes : view.volumes = first.volumes.map (Volume.under pools (moves?.getD []))
  planned : ∀ moves, moves? = some moves → p.Moves moves
  vm : view.vm = first.vm ∨
    ∃ vm vm', first.vm = some vm ∧ view.vm = some vm' ∧ Leg p (moves?.getD []) vm vm'

/-- While its item is open, the store says of a machine how far its migration is. -/
def Charted (v : VmId) (node : NodeId) (first : View) (pools : Table Pool) (past : List Exchange)
    (s : Store) : Prop :=
  ∀ item, Began item past → Started item.id s → ∃ p view, item.plan = some p ∧
    item.owner = node ∧ Underway first p pools (rewriting past) view ∧
    Lodged v item view pools s

variable {v : VmId} {job : Nat} {s s' : Shared} {past : List Exchange} {item : Item}
  {view first : View} {pools : Table Pool} {ctx : Context} {vm : Vm} {p : Plan}
  {moves? : Option (List VolumeMove)} {node : NodeId} {e : Exchange} {T : List Exchange → Prop}

theorem rewriting_append : rewriting (past ++ [e]) = (rewriting past).or e.rewrites? := by
  rw [rewriting, List.findSome?_append, List.findSome?_singleton]
  rfl

theorem Chronicled.append (h : Chronicled item moves? past)
    (no : ∀ x, e.request ≠ .transact (.openItem x)) :
    Chronicled item (moves?.or e.rewrites?) (past ++ [e]) where
  sole began := h.sole (began.of_append no)
  moves := by rw [rewriting_append, h.moves]

theorem rewrites?_of_unmoved (no : ∀ moves, e.request ≠ .transact (.moveVolumes moves)) :
    e.rewrites? = none := by
  unfold Exchange.rewrites?
  split
  next moves before => exact absurd rfl (no moves)
  · rfl

theorem unmoved_chronicled : Unmoved (Chronicled item moves?) := by
  intro past e no none h
  have kept := h.append no
  rwa [rewrites?_of_unmoved none, Option.or_none] at kept

abbrev charting (v : VmId) (job : Nat) (node : NodeId) (first : View)
    (pools : Table Pool) : Contract :=
  secluded v job (Charted v node first pools)

structure Ticket (item : Item) (p : Plan) (node : NodeId) : Prop where
  plan : item.plan = some p
  owner : item.owner = node
  isOpen : item.Open

abbrev Sails (v : VmId) (item : Item) (view : View) (pools : Table Pool)
    (moves? : Option (List VolumeMove)) : Assertion :=
  Lodges v item view pools (Chronicled item moves?)

theorem charted_of_sails (ticket : Ticket item p node)
    (underway : Underway first p pools moves? view) (h : Sails v item view pools moves? past s) :
    Charted v node first pools past s.store := by
  intro other began _
  obtain rfl := h.2.sole began
  exact ⟨p, view, ticket.plan, ticket.owner, h.2.moves.symm ▸ underway, h.1⟩

theorem underway_first : Underway first p pools none first where
  volumes := ((List.map_congr_left fun _ _ => rfl).trans (List.map_id _)).symm
  planned := nofun
  vm := .inl rfl

theorem Underway.on {w : Vm} (h : Underway first p pools moves? view) (stored : first.vm = some vm)
    (leg : Leg p (moves?.getD []) vm w) :
    Underway first p pools moves? ⟨some w, view.volumes⟩ :=
  ⟨h.volumes, h.planned, .inr ⟨vm, w, stored, rfl, leg⟩⟩

def Afloat (v : VmId) (item : Item) (first : View) (p : Plan) (pools : Table Pool) : Assertion :=
  fun past s => ∃ moves? view, Underway first p pools moves? view ∧
    Sails v item view pools moves? past s

theorem afloat_first (h : Sails v item first pools none past s) :
    Afloat v item first p pools past s :=
  ⟨none, first, underway_first, h⟩

/-- The volumes of a machine are the ones that its plan moves, and its record was checked. -/
structure Cleared (p : Plan) (first : View) (pools : Table Pool) (vm : Vm) : Prop where
  stored : first.vm = some vm
  movable : Movable p vm
  backed : p.Backed pools first.volumes

structure Moored (p : Plan) (first : View) (pools : Table Pool) (moves : List VolumeMove) (w : Vm)
    (last : View) : Prop where
  stored : last.vm = some w
  state : w.state = .running
  host : w.host = some p.destination
  lastHost : w.lastHost = some p.source
  volumes : last.volumes = first.volumes.map (Volume.under pools moves)
  moved : p.Moves moves

def Arrived (v : VmId) (item : Item) (first : View) (p : Plan) (pools : Table Pool) (w : Vm) :
    Assertion :=
  fun past s => ∃ vm moves? last, Cleared p first pools vm ∧
    Moored p first pools (moves?.getD []) w last ∧
    Underway first p pools moves? last ∧ Sails v item last pools moves? past s

theorem sails_of_ends {ending : Except Ending Vm}
    (h : Ends (Arrived v item first p pools) (Afloat v item first p pools) ending past s) :
    ∃ moves? last, Sails v item last pools moves? past s := by
  cases ending with
  | error failure =>
    obtain ⟨moves?, view, -, h⟩ := h
    exact ⟨moves?, view, h⟩
  | ok w =>
    obtain ⟨vm, moves?, last, -, -, -, h⟩ := h
    exact ⟨moves?, last, h⟩

section
variable {I : List Exchange → Store → Prop} (notes : ∀ {moves? view past s},
  Underway first p pools moves? view → Sails v item view pools moves? past s → I past s.store)
include notes

theorem lasting_sails (underway : Underway first p pools moves? view) :
    Lasting (secluded v job I) Request.Quiet (Sails v item view pools moves?) :=
  lasting_lodges unmoved_chronicled (notes underway)

theorem charted_transitions (cleared : Cleared p first pools vm)
    (underway : Underway first p pools moves? view) (stored : view.vm = some vm)
    (moved : p.Moves (moves?.getD [])) (h : Sails v item view pools moves? past s) :
    Safe (secluded v job I)
      (fun result past s => ∃ w last, result = .ok w ∧ w.bare = vm.bare ∧
        Moored p first pools (moves?.getD []) w last ∧ Underway first p pools moves? last ∧
        Sails v item last pools moves? past s) (do
          let _ ← Transition.run
            { vm := vm.id, expected := .running, event := .migrationRequested,
              version := some vm.version }
          Transition.run
            { vm := vm.id, expected := .migrating, event := .operationSucceeded
              host := some p.destination } : Procedure Vm).run past s := by
  have here := cleared.movable.host
  have named := h.1.named stored
  have leaving := Transition.check_eq_ok
    (t := ⟨vm.id, .running, .migrationRequested, none, some vm.version⟩)
    rfl rfl cleared.movable.running (Transition.hosts_kept (by decide) here)
  refine Safe.andThen (lodges_transition unmoved_chronicled (notes underway) named
    stored leaving h) ?_ ?_
  · intro left past s h
    obtain ⟨e, h⟩ := h
    have e := Except.ok.inj e
    rw [← e] at h
    have there : left.host = some p.source := (congrArg Vm.host e).trans here
    have leaves : Underway first p pools moves? ⟨some left, view.volumes⟩ :=
      underway.on cleared.stored (.leaves (by rw [e]; rfl) (congrArg Vm.state e) there)
    have arriving := Transition.check_eq_ok
      (t := ⟨vm.id, .migrating, .operationSucceeded, some p.destination, none⟩) rfl rfl
      (congrArg Vm.state e)
      (Transition.hosts_changed (by decide : State.HoldsHost .running) there cleared.movable.away)
    refine (lodges_transition unmoved_chronicled (notes leaves) named rfl arriving h).mono ?_
    intro result past s h
    obtain ⟨rfl, h⟩ := h
    refine ⟨_, ⟨some _, view.volumes⟩, rfl, by rw [e]; rfl,
      ⟨rfl, rfl, rfl, rfl, underway.volumes, moved⟩, ?_, h⟩
    exact underway.on cleared.stored (.arrives (by rw [e]; rfl) rfl rfl rfl moved)
  · rintro _ _ _ ⟨⟨⟩, -⟩

/-- A checked machine is recorded where it has been moved to, after its volumes. -/
theorem charted_record {moves : List VolumeMove} (cleared : Cleared p first pools vm)
    (moved : p.Moves moves) (h : Sails v item first pools none past s) :
    Safe (secluded v job I)
      (fun result past s => ∃ w moves? last, result = .ok w ∧ w.bare = vm.bare ∧
        moves?.getD [] = moves ∧ Moored p first pools moves w last ∧
        Underway first p pools moves? last ∧ Sails v item last pools moves? past s)
      (record vm p moves).run past s := by
  unfold record
  cases moves with
  | nil =>
    refine (charted_transitions notes cleared underway_first cleared.stored moved h).mono ?_
    rintro _ past s ⟨w, last, rfl, same, h⟩
    exact ⟨w, none, last, rfl, same, rfl, h⟩
  | cons move moves =>
    have noted : ∀ {past before}, Chronicled item none past →
      Chronicled item (some (move :: moves))
        (past ++ [⟨.transact (.moveVolumes (move :: moves)), .ok (), before⟩]) :=
      fun {_ before} h => h.append (e := ⟨.transact (.moveVolumes _), .ok (), before⟩)
        (by rintro _ ⟨⟩)
    refine Safe.andThen (lodges_moveVolumes (notes underway_first) moved cleared.backed noted h)
      ?_ ?_
    · rintro _ past s ⟨-, h⟩
      have laden : Underway first p pools (some (move :: moves))
          ⟨first.vm, first.volumes.map (Volume.under pools (move :: moves))⟩ :=
        ⟨rfl, by rintro _ ⟨⟩; exact moved, .inl rfl⟩
      refine (charted_transitions notes cleared laden cleared.stored moved h).mono ?_
      rintro _ past s ⟨w, last, rfl, same, h⟩
      exact ⟨w, _, last, rfl, same, rfl, h⟩
    · rintro _ _ _ ⟨⟨⟩, -⟩

end

section
variable {C : Contract} {R : Assertion} (lasting : Lasting C Request.Silent R)
  (known : ∀ {past s}, R past s → s.store.pools = pools)
include lasting known

theorem safe_loadPool {id : PoolId} (h : R past s) :
    Safe C
      (fun result past s => R past s ∧ ∀ pool, result = .ok pool →
        pools.get? id.key = some pool)
      (loadPool id).run past s := by
  refine Safe.andThen (Q := fun result past s => R past s ∧
    ∀ found, result = .ok found → pools.get? id.key = found)
    (Safe.ask lasting.stable (fun _ => rfl) h fun s h inv =>
      ⟨lasting.fit ⟨trivial, fun no => no⟩ h inv, ?_⟩) ?_
    fun _ _ _ h => ⟨h.1, by rintro _ ⟨⟩⟩
  · rintro _ _ ⟨-, rfl, rfl⟩
    refine ⟨C.allow_refl inv, lasting.keeps (r := .transact (.pool id))
      ⟨trivial, fun no => no⟩ h, ?_⟩
    rintro _ ⟨⟩
    exact congrArg (Table.get? · id.key) (known h).symm
  · intro found past s h
    cases found with
    | none => exact ⟨h.1, by rintro _ ⟨⟩⟩
    | some pool => exact ⟨h.1, fun _ e => Except.ok.inj e ▸ h.2 _ rfl⟩

theorem safe_targetOf {destination : Host} {volume : Volume} (h : R past s) :
    Safe C (fun result past s => R past s ∧ ∀ target?, result = .ok target? →
      target?.map Agent.VolumeTarget.relocation = p.volumes.get? volume.id.key ∧
        ∀ target, target? = some target → (pools.get? target.pool.key).isSome)
      (targetOf p destination volume).run past s := by
  unfold targetOf
  cases named : p.volumes.get? volume.id.key with
  | none =>
    refine Safe.andThen (safe_loadPool lasting known h) (fun pool past s h => ?_)
      fun _ _ _ h => ⟨h.1, by rintro _ ⟨⟩⟩
    cases pool.isLocal with
    | true => exact ⟨h.1, by rintro _ ⟨⟩⟩
    | false => exact ⟨h.1, by rintro _ ⟨⟩; exact ⟨rfl, nofun⟩⟩
  | some relocation =>
    refine Safe.andThen (safe_loadPool lasting known h) (fun pool past s h => ?_)
      fun _ _ _ h => ⟨h.1, by rintro _ ⟨⟩⟩
    obtain ⟨h, found⟩ := h
    have found := found pool rfl
    refine Safe.ofExcept (fun _ _ => ⟨h, ?_⟩) fun _ _ => ⟨h, nofun⟩
    rintro _ ⟨⟩
    have volume : volume.id = relocation.volume := (Id.key_injective (Table.key_of_get? named)).symm
    have pool : pool.id = relocation.pool := Id.key_injective (Table.key_of_get? found)
    refine ⟨congrArg some (Relocation.ext volume pool), ?_⟩
    rintro _ ⟨⟩
    rw [pool, found]
    rfl

theorem safe_targets {destination : Host} {volumes : List Volume} (h : R past s) :
    Safe C (fun result past s => R past s ∧ ∀ targets, result = .ok targets →
      targets.map Agent.VolumeTarget.relocation = volumes.filterMap (p.volumes.get? ·.id.key) ∧
        ∀ target ∈ targets, (pools.get? target.pool.key).isSome)
      (targets p destination volumes).run past s := by
  induction volumes generalizing past s with
  | nil =>
    refine ⟨h, ?_⟩
    rintro _ ⟨⟩
    exact ⟨rfl, nofun⟩
  | cons volume volumes ih =>
    refine Safe.andThen (safe_targetOf lasting known h) (fun target? past s h => ?_)
      fun _ _ _ h => ⟨h.1, by rintro _ ⟨⟩⟩
    obtain ⟨h, first⟩ := h
    obtain ⟨here, reached⟩ := first target? rfl
    refine Safe.andThen (ih h) (fun rest past s h => ?_) fun _ _ _ h =>
      ⟨h.1, by rintro _ ⟨⟩⟩
    obtain ⟨h, others⟩ := h
    obtain ⟨there, known⟩ := others rest rfl
    refine ⟨h, ?_⟩
    rintro _ ⟨⟩
    constructor
    · rw [List.map_append, there, List.filterMap_cons, ← here]
      cases target? <;> rfl
    · intro target mem
      rcases List.mem_append.1 mem with mem | mem
      · exact reached target (Option.mem_toList.1 mem)
      · exact known target mem

/-- A migration that passes its checks moves volumes of its machine to pools that are known. -/
theorem safe_cleared (subject : p.vm = v) (seen : ∀ {past s}, R past s → s.store.view v = first)
    (h : R past s) :
    Safe C
      (fun result past s => R past s ∧ ∀ pair, result = .ok pair →
        Cleared p first pools pair.1 ∧ pair.2.map Agent.VolumeTarget.relocation = p.volumes.rows)
          (check p).run past s := by
  have quiet : ∀ r : Control.Request, r.Silent → r.Quiet := fun _ silent => silent.1
  refine Safe.andThen (safe_loadVm (K := Request.Silent)
    (T := fun vm _ _ => first.vm = some vm ∧ vm.id = v) ⟨trivial, fun no => no⟩ lasting h ?_)
    ?_ fun _ _ _ h => ⟨h.1, by rintro _ ⟨⟩⟩
  · intro vm s _ stored h
    rw [subject] at stored
    exact ⟨(congrArg View.vm (seen h)).symm.trans stored, Store.id_of_vm? stored⟩
  intro vm past s h
  obtain ⟨h, loaded⟩ := h
  obtain ⟨stored, named⟩ := loaded vm rfl
  refine Safe.ofExcept (fun _ stated => ?_) fun _ _ => ⟨h, by rintro _ ⟨⟩⟩
  refine Safe.ofExcept (fun _ placed => ?_) fun _ _ => ⟨h, by rintro _ ⟨⟩⟩
  have movable : Movable p vm := movable_of_checks stated placed
  refine Safe.andThen (Safe.within (Program.Within.demand ⟨trivial, id⟩) quiet lasting h) ?_
    fun _ _ _ h => ⟨h.2, by rintro _ ⟨⟩⟩
  intro pending past s h
  obtain ⟨-, h⟩ := h
  cases pending
  case true => exact ⟨h, by rintro _ ⟨⟩⟩
  refine Safe.andThen (Safe.within (loadHost_within _ ⟨trivial, id⟩) quiet lasting h) ?_
    fun _ _ _ h => ⟨h.2, by rintro _ ⟨⟩⟩
  intro destination past s h
  refine Safe.andThen (Q := fun result past s => R past s ∧ result = .ok first.volumes)
    (Safe.ask lasting.stable (fun _ => rfl) h.2 fun s h inv =>
      ⟨lasting.fit ⟨trivial, fun no => no⟩ h inv, ?_⟩) ?_
    fun _ _ _ h => ⟨h.1, by rintro _ ⟨⟩⟩
  · rintro _ _ ⟨-, rfl, rfl⟩
    refine ⟨C.allow_refl inv, lasting.keeps (r := .transact (.volumesOf vm.id))
      ⟨trivial, fun no => no⟩ h, ?_⟩
    rw [← seen h, named]
    rfl
  intro volumes past s h
  obtain ⟨h, ⟨⟩⟩ := h
  have ascending : first.volumes.Pairwise (·.id.key < ·.id.key) := by
    rw [← seen h]
    exact s.store.volumes.ascending.filter _
  refine Safe.andThen (safe_targets lasting known h) (fun targets past s h => ?_)
    fun _ _ _ h => ⟨h.1, by rintro _ ⟨⟩⟩
  obtain ⟨h, found⟩ := h
  obtain ⟨named, reached⟩ := found targets rfl
  simp only
  split
  · exact ⟨h, by rintro _ ⟨⟩⟩
  next all =>
  obtain ⟨named, backed⟩ := Plan.rows_of_targets ascending named reached
    (Decidable.not_not.1 all)
  refine (Safe.within (P := fun result => ∀ pair, result = .ok pair →
    pair = (vm, targets)) ?_ quiet
    lasting h).mono ?_
  · refine .andThen (.ask ⟨trivial, id⟩) (fun connected _ => ?_) (by rintro _ - _ ⟨⟩)
    refine .andThen (.ask ⟨trivial, id⟩) (fun guests _ => ?_) (by rintro _ - _ ⟨⟩)
    refine .ofExcept (fun _ _ => ?_) (by rintro _ - _ ⟨⟩)
    rintro _ ⟨⟩
    rfl
  · rintro result past s ⟨same, h⟩
    refine ⟨h, ?_⟩
    rintro pair rfl
    rw [same pair rfl]
    exact ⟨⟨stored, movable, backed⟩, named⟩

end

section
variable {targets : List Agent.VolumeTarget} {I : List Exchange → Store → Prop}
  (notes : ∀ {moves? view past s}, Underway first p pools moves? view →
    Sails v item view pools moves? past s → I past s.store)
include notes

theorem lasting_sails_first :
    Lasting (secluded v job I) Request.Quiet (Sails v item first pools none) :=
  lasting_sails notes underway_first

section
variable (cleared : Cleared p first pools vm)
include cleared

theorem charted_recorded {moves : List VolumeMove} (moved : p.Moves moves)
    (h : Sails v item first pools none past s) :
    Safe (secluded v job I)
      (Ends (Arrived v item first p pools) (Afloat v item first p pools))
      ((record vm p moves).adapt .unresolved : Body Vm).run past s := by
  refine Safe.adapt ((charted_record notes cleared moved h).mono ?_)
  rintro _ past s ⟨w, moves?, last, rfl, -, rfl, moored, underway, h⟩
  exact ⟨vm, moves?, last, cleared, moored, underway, h⟩

theorem charted_compute (plain : ¬ p.MovesStorage) (h : Sails v item first pools none past s) :
    Safe (secluded v job I)
      (Ends (Arrived v item first p pools) (Afloat v item first p pools))
      (compute ctx vm p).run past s := by
  refine Safe.query (sendAway_within ctx vm p) (fun _ quiet => quiet) (lasting_sails_first notes) h
    fun landing past s _ h => ?_
  cases landing with
  | moved => exact charted_recorded notes cleared (Decidable.not_not.1 plain).symm h
  | notMoved failure => exact afloat_first h
  | unknown failure => exact afloat_first h

variable (laden : targets.map Agent.VolumeTarget.relocation = p.volumes.rows)
include laden

theorem charted_locateWithStorage {lost : Failure} (h : Sails v item first pools none past s) :
    Safe (secluded v job I)
      (Ends (Arrived v item first p pools) (Afloat v item first p pools))
      (locateWithStorage ctx vm p targets lost).run past s := by
  refine Safe.query (Agent.powerStates_within ..) (fun _ quiet => quiet)
    (lasting_sails_first notes) h fun found past s _ h => ?_
  split
  · exact charted_recorded notes cleared ((movesOf_relocation targets).trans laden) h
  · exact afloat_first h
  · exact afloat_first h

theorem charted_withinCluster (h : Sails v item first pools none past s) :
    Safe (secluded v job I)
      (Ends (Arrived v item first p pools) (Afloat v item first p pools))
      (withinCluster ctx vm p targets).run past s := by
  refine Safe.query (Agent.dispatch_within ..) (fun _ quiet => quiet) (lasting_sails_first notes) h
    fun reported past s _ h => ?_
  cases reported with
  | ok reported =>
    exact charted_recorded notes cleared
      ((movesWithPaths_relocation targets reported).trans laden) h
  | error failure =>
    simp only
    split
    · exact charted_locateWithStorage notes cleared laden h
    · exact afloat_first h

theorem charted_acrossClusters (h : Sails v item first pools none past s) :
    Safe (secluded v job I)
      (Ends (Arrived v item first p pools) (Afloat v item first p pools))
      (acrossClusters ctx vm p targets).run past s := by
  have lasting : Lasting (secluded v job I) Request.Quiet (Sails v item first pools none) :=
    lasting_sails_first notes
  refine Safe.look (Agent.dispatch_within ..) (fun _ quiet => quiet) lasting h
    (fun rendezvous past s _ h => ?_) fun _ _ _ h => afloat_first h
  refine Safe.andThen (Safe.within (send_within ..) (fun _ quiet => quiet) lasting h)
    (fun _ past s h => ?_) fun _ _ _ h => afloat_first h.2
  refine Safe.look (Program.Within.call trivial) (fun _ quiet => quiet) lasting h.2
    (fun _ past s _ h => ?_) fun _ _ _ h => afloat_first h
  refine Safe.query (Agent.dispatch_within ..) (fun _ quiet => quiet) lasting h
    fun reported past s _ h => ?_
  cases reported with
  | ok reported =>
    exact charted_recorded notes cleared
      ((movesWithPaths_relocation targets reported).trans laden) h
  | error failure =>
    exact Safe.query (split_within ..) (fun _ quiet => quiet) lasting h
      fun _ _ _ _ h => afloat_first h

end

theorem charted_migrateBody (subject : p.vm = v) (h : Sails v item first pools none past s) :
    Safe (secluded v job I)
      (Ends (Arrived v item first p pools) (Afloat v item first p pools))
      (migrateBody ctx p).run past s := by
  refine Safe.adapted (safe_cleared (lasting_sails_first notes).silent (fun h => h.1.pools) subject
    (fun h => h.1.view) h) ?_ fun _ _ _ h => afloat_first h.1
  rintro ⟨vm, targets⟩ past s ⟨h, checked⟩
  obtain ⟨cleared, laden⟩ := checked _ rfl
  simp only
  split
  · exact charted_compute notes cleared ‹_› h
  · split
    · exact charted_acrossClusters notes cleared laden h
    · exact charted_withinCluster notes cleared laden h

end

def Completed (v : VmId) (first : View) (pools : Table Pool) (w : Vm) : Assertion := fun past s =>
  ∃ item p vm moves?, item.plan = some p ∧ Cleared p first pools vm ∧
    Chronicled item moves? past ∧ Moored p first pools (moves?.getD []) w (s.store.view v)

theorem Lodged.open_of_started {store : Store} (h : Lodged v item view pools store)
    (started : Started item.id store) : item.Open := by
  obtain ⟨x, stored, isOpen⟩ := started
  rw [h.filed] at stored
  cases stored
  exact isOpen

/-- An item that is closed leaves nothing to chart. -/
theorem charted_of_closed {step : Work.Step} {now : Timestamp} (closes : step ≠ .started)
    (h : Lodges v { item with step := step, updated := now } view pools
      (Chronicled item moves?) past s) :
    Charted v node first pools past s.store := by
  intro other began isOpen
  obtain rfl := h.2.sole began
  exact absurd (h.1.open_of_started isOpen) closes

section
variable (ticket : Ticket item p node)
include ticket

/-- Whether its item is closed or left open, the machine is where the body has left it. -/
theorem charted_leaves {result : Except Ending Vm} (underway : Underway first p pools moves? view)
    (h : Sails v item view pools moves? past s) :
    Safe (charting v job node first pools)
      (fun outcome past s => outcome = result.mapError Ending.failure ∧
        s.store.view v = view ∧ Chronicled item moves? past)
          (settle ctx item result).run past s := by
  refine (lodges_settle unmoved_chronicled.calm (charted_of_sails ticket underway) ?_ h).mono ?_
  · rcases result with (_ | _ | _) | _
    · exact charted_of_closed nofun
    · exact charted_of_closed nofun
    · exact charted_of_sails ticket underway
    · exact charted_of_closed nofun
  · rintro outcome past s ⟨e, now, h⟩
    exact ⟨e, h.1.view, h.2⟩

theorem charted_settle {result : Except Ending Vm}
    (h : Ends (Arrived v item first p pools) (Afloat v item first p pools) result past s) :
    Safe (charting v job node first pools) (Ends (Completed v first pools) fun _ _ => True)
      (settle ctx item result).run past s := by
  cases result with
  | error ending =>
    obtain ⟨moves?, view, underway, h⟩ := h
    refine (charted_leaves ticket underway h).mono ?_
    rintro _ past s ⟨rfl, -⟩
    trivial
  | ok w =>
    obtain ⟨vm, moves?, last, cleared, moored, underway, h⟩ := h
    refine (charted_leaves ticket underway h).mono ?_
    rintro _ past s ⟨rfl, rfl, chronicled⟩
    exact ⟨item, p, vm, moves?, ticket.plan, cleared, chronicled, moored⟩

end

structure Dawns (v : VmId) (first : View) (pools : Table Pool) (past : List Exchange) (s : Shared) :
    Prop where
  began : ∀ item, ¬ Began item past
  unmoved : rewriting past = none
  view : s.store.view v = first
  pools : s.store.pools = pools
  indexed : Indexed v s.store

theorem dawns_nil (indexed : Indexed v s.store) : Dawns v (s.store.view v) s.store.pools [] s :=
  ⟨by rintro _ ⟨_, ⟨⟩⟩, rfl, rfl, rfl, indexed⟩

theorem Dawns.append {r : Control.Request} {reply : r.Reply} {before : Store}
    (no : ∀ x, r ≠ .transact (.openItem x))
    (none : ∀ moves, r ≠ .transact (.moveVolumes moves)) (same : s'.store = s.store)
    (h : Dawns v first pools past s) :
    Dawns v first pools (past ++ [⟨r, reply, before⟩]) s' where
  began x began := h.began x (began.of_append no)
  unmoved := by rw [rewriting_append, h.unmoved, rewrites?_of_unmoved none, Option.or_none]
  view := same ▸ h.view
  pools := same ▸ h.pools
  indexed := same ▸ h.indexed

theorem charted_of_dawns (h : Dawns v first pools past s) :
    Charted v node first pools past s.store :=
  fun item began => absurd began (h.began item)

theorem stable_dawns {I : List Exchange → Store → Prop} :
    Stable (secluded v job I) (Dawns v first pools) :=
  fun _ _ _ rely _ h => ⟨h.began, h.unmoved, rely.view.trans h.view, rely.pools.trans h.pools,
    h.indexed.alike rely⟩

theorem Dawns.opened {store : Store} (h : Dawns v first pools past s) (subject : item.vm = v)
    (opens : s.store.openItem item = (.ok (), store)) :
    Sails v item first pools none (past ++ [⟨.transact (.openItem item), .ok (), s.store⟩])
      { s with store := store } := by
  refine ⟨?_, ?_, ?_⟩
  · rw [← h.view, ← h.pools]
    exact .opened h.indexed subject opens
  · rintro other ⟨before, mem⟩
    rcases List.mem_append.1 mem with mem | mem
    · exact absurd ⟨before, mem⟩ (h.began other)
    · cases List.mem_singleton.1 mem
      rfl
  · rw [rewriting_append, h.unmoved]
    rfl

theorem Dawns.refused {store : Store} {failure : Failure} (h : Dawns v first pools past s)
    (refuses : s.store.openItem item = (.error failure, store)) :
    Dawns v first pools (past ++ [⟨.transact (.openItem item), .error failure, s.store⟩])
      { s with store := store } := by
  unfold Store.openItem at refuses
  split at refuses
  · cases refuses
    refine ⟨?_, ?_, h.view, h.pools, h.indexed⟩
    · rintro other ⟨before, mem⟩
      rcases List.mem_append.1 mem with mem | mem
      · exact h.began other ⟨before, mem⟩
      · cases List.mem_singleton.1 mem
    · rw [rewriting_append, h.unmoved]
      rfl
  · cases refuses

section
variable {I : List Exchange → Store → Prop}
  (dawns : ∀ {past s}, Dawns v first pools past s → I past s.store)
include dawns

theorem lasting_dawns : Lasting (secluded v job I) Request.Silent (Dawns v first pools) where
  stable := stable_dawns
  fit _ h _ := dawns h
  keeps silent h := h.append (no_openItem_of_quiet silent.1) (by rintro _ rfl; exact silent.1) rfl

theorem heralded_dawns {node : Node} :
    Heralded (secluded v job I) node v (some p) (Dawns v first pools)
      fun item past s => Ticket item p node.id ∧ Sails v item first pools none past s where
  stable := stable_dawns
  free := trivial
  fit := dawns
  keeps no _ same h := h.append (fun _ => no _) (fun _ => no _) same
  enters same h := ⟨h.began, h.unmoved, same ▸ h.view, same ▸ h.pools, same ▸ h.indexed⟩
  opens subject owner planned isOpen h opens :=
    ⟨⟨planned, owner, isOpen⟩, h.opened subject opens⟩
  refuses h refuses := h.refused refuses

end

/-- Every point of a migration is charted, and a migration that succeeds has been completed. -/
theorem charted_migrate {request : Migration.Request} (h : Dawns request.vm first pools past s) :
    Safe (charting request.vm job ctx.node.id first pools)
      (Ends (Completed request.vm first pools) fun _ _ => True)
        (migrate ctx request).run past s := by
  refine Safe.andThen (safe_plan (lasting_dawns charted_of_dawns) h) ?_ fun _ _ _ _ => trivial
  intro p past s h
  obtain ⟨h, planned⟩ := h
  obtain ⟨subject, -, -⟩ := planned p rfl
  refine Safe.andThen ((heralded_dawns charted_of_dawns).start h) ?_ fun _ _ _ _ => trivial
  intro item past s h
  obtain ⟨ticket, h⟩ := h
  refine Safe.ofProgram (charted_migrateBody (charted_of_sails ticket) subject h)
    fun ending past s h => ?_
  exact charted_settle ticket h

end Concurrent
end ControlPlane
