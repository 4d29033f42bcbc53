import ControlPlane.Proofs.Migration.Progress
import ControlPlane.Proofs.Operation.ItemOutcome
import ControlPlane.Simulation.Sample

/-!
# Where volumes come to lie

A migration whose plan passes its checks takes each volume that the plan names to a pool that the
destination reaches. A volume that the plan does not name stays where it is, and it is only checked
that it does not lie on a local disk: whether the destination reaches its pool is not asked.
-/

namespace ControlPlane

def Plan.poolOf (plan : Plan) (volume : Volume) : PoolId :=
  match plan.volumes.get? volume.id.key with
  | some r => r.pool
  | none => volume.pool

/-- The pool is right for a volume: if the plan takes it there, hosts of the cluster reach the pool
and it is local or not as the volume wants; if the volume merely stays, the pool is not local. -/
def Pool.Houses (pool : Pool) (cluster : ClusterId) (plan : Plan) (volume : Volume) : Prop :=
  if (plan.volumes.get? volume.id.key).isSome then
    pool.ReachableFrom cluster ∧ pool.isLocal = volume.wantsLocal
  else pool.isLocal = false

def Plan.Houses (plan : Plan) (pools : Table Pool) (cluster : ClusterId) (volume : Volume) : Prop :=
  ∃ pool, pools.get? (plan.poolOf volume).key = some pool ∧ pool.Houses cluster plan volume

section
variable {pools : Table Pool} {moves : List VolumeMove} {volume : Volume} {plan : Plan}
  {pool : Pool} {cluster : ClusterId}

theorem Relocation.get?_eq_find? (t : Table Relocation) (id : VolumeId) :
    t.get? id.key = t.rows.find? (·.volume = id) := by
  have same : ∀ r : Relocation, (Keyed.key r = id.key) = (r.volume = id) :=
    fun r => propext ⟨Id.key_injective, congrArg Id.key⟩
  simp only [Table.get?, same]

theorem Volume.wantsLocal_under (volume : Volume) :
    (volume.under pools moves).wantsLocal = volume.wantsLocal := by
  unfold under
  split
  · rfl
  · split <;> rfl

theorem Volume.pool_under (moved : plan.Moves moves)
    (known : pools.get? (plan.poolOf volume).key = some pool) :
    (volume.under pools moves).pool = plan.poolOf volume := by
  have found := find?_moves moved volume.id
  rw [← Relocation.get?_eq_find?] at found
  unfold Plan.poolOf at known ⊢
  cases named : plan.volumes.get? volume.id.key with
  | none =>
    rw [named] at found
    simp only [under, Option.map_eq_none_iff.1 found]
  | some r =>
    rw [named] at found known
    obtain ⟨move, here, rfl⟩ := Option.map_eq_some_iff.1 found
    have known : pools.get? move.pool.key = some pool := known
    simp only [under, here, known]
    exact Id.key_injective (Table.key_of_get? known)

theorem Pool.Houses.under (h : pool.Houses cluster plan volume) (moves : List VolumeMove) :
    pool.Houses cluster plan (volume.under pools moves) := by
  unfold Houses at h ⊢
  rwa [(Volume.under_frame ..).1, Volume.wantsLocal_under]

theorem Volume.under_of_stays (moved : plan.Moves moves)
    (stays : plan.volumes.get? volume.id.key = none) : volume.under pools moves = volume := by
  refine under_of_unnamed fun move mem same => ?_
  have named : move.relocation ∈ plan.volumes.rows := moved ▸ List.mem_map_of_mem mem
  have found := Table.get?_of_mem named
  rw [show Keyed.key move.relocation = volume.id.key from congrArg Id.key same, stays] at found
  cases found

end

namespace Concurrent
open Control Operation Procedure Migration

structure SameInventory (v : VmId) (a b : Shared) : Prop where
  hosts : b.store.hosts = a.store.hosts
  pools : b.store.pools = a.store.pools
  volumes : b.store.volumesOf v = a.store.volumesOf v

def inspecting (v : VmId) (job : Nat) : Contract where
  job := job
  invariant _ := True
  rely := SameInventory v
  allow _ _ := True
  fit _ _ _ := True
  rely_refl _ := ⟨rfl, rfl, rfl⟩
  rely_trans h h' :=
    ⟨h'.hosts.trans h.hosts, h'.pools.trans h.pools, h'.volumes.trans h.volumes⟩
  allow_refl _ := trivial

variable {v : VmId} {job : Nat} {first s s' : Shared} {past : List Exchange} {p : Plan}

theorem lasting_inventory :
    Lasting (inspecting v job) Request.Quiet fun _ s => SameInventory v first s where
  stable _ _ _ same _ h := (inspecting v job).rely_trans h same
  fit _ _ _ := trivial
  keeps _ h := h

section
variable {C : Contract} {R : Assertion} {pools : Table Pool}
  (lasting : Lasting C Request.Silent R) (known : ∀ {past s}, R past s → s.store.pools = pools)
include lasting known

theorem safe_targetOf_houses {destination : Host} {volume : Volume} (h : R past s) :
    Safe C (fun result past s => R past s ∧ ∀ target?, result = .ok target? →
      p.Houses pools destination.cluster volume) (targetOf p destination volume).run past s := by
  unfold targetOf Plan.Houses Plan.poolOf Pool.Houses
  cases named : p.volumes.get? volume.id.key with
  | none =>
    refine Safe.andThen (safe_loadPool lasting known h) (fun pool past s h => ?_)
      fun _ _ _ h => ⟨h.1, nofun⟩
    obtain ⟨h, found⟩ := h
    cases isLocal : pool.isLocal with
    | true => exact ⟨h, nofun⟩
    | false => exact ⟨h, fun _ _ => ⟨pool, found pool rfl, isLocal⟩⟩
  | some r =>
    refine Safe.andThen (safe_loadPool lasting known h) (fun pool past s h => ?_)
      fun _ _ _ h => ⟨h.1, nofun⟩
    obtain ⟨h, found⟩ := h
    refine Safe.ofExcept (fun _ checked => ⟨h, fun _ _ => ⟨pool, found pool rfl, ?_⟩⟩)
      fun _ _ => ⟨h, nofun⟩
    unfold checkPool at checked
    split at checked
    · cases checked
    next wanted =>
    split at checked
    next reached => exact ⟨reached, (Decidable.not_not.1 wanted).symm⟩
    · cases checked

theorem safe_targets_house {destination : Host} {volumes : List Volume} (h : R past s) :
    Safe C (fun result past s => R past s ∧ ∀ targets, result = .ok targets →
      ∀ volume ∈ volumes, p.Houses pools destination.cluster volume)
      (targets p destination volumes).run past s := by
  induction volumes generalizing past s with
  | nil => exact ⟨h, fun _ _ => nofun⟩
  | cons volume volumes ih =>
    refine Safe.andThen (safe_targetOf_houses lasting known h) (fun target? past s h => ?_)
      fun _ _ _ h => ⟨h.1, nofun⟩
    obtain ⟨h, first⟩ := h
    refine Safe.andThen (ih h) (fun rest past s h => ?_) fun _ _ _ h => ⟨h.1, nofun⟩
    obtain ⟨h, others⟩ := h
    exact ⟨h, fun _ _ => List.forall_mem_cons.2 ⟨first target? rfl, others rest rfl⟩⟩

end

structure Inspected (s : Store) (p : Plan) (destination : Host)
    (targets : List Agent.VolumeTarget) :
    Prop where
  found : s.host? p.destination = some destination
  houses : ∀ volume ∈ s.volumesOf p.vm, p.Houses s.pools destination.cluster volume
  rows : targets.map Agent.VolumeTarget.relocation = p.volumes.rows
  backed : p.Backed s.pools (s.volumesOf p.vm)

theorem safe_readHost {id : HostId} (h : SameInventory v first s) :
    Safe (inspecting v job) (fun result _ s => SameInventory v first s ∧
      ∀ host, result = .ok host → first.store.host? id = some host)
        (loadHost id).run past s := by
  refine Safe.andThen (Q := fun result _ s => SameInventory v first s ∧
      ∀ found, result = .ok found → first.store.host? id = found)
    (Safe.ask lasting_inventory.stable (fun _ => rfl) h fun s h _ => ⟨trivial, ?_⟩) ?_
    fun _ _ _ h => ⟨h.1, nofun⟩
  · rintro _ _ ⟨-, rfl, rfl⟩
    refine ⟨trivial, h, ?_⟩
    rintro _ ⟨⟩
    exact congrArg (Table.get? · id.key) h.hosts.symm
  · intro found past s h
    cases found with
    | none => exact ⟨h.1, nofun⟩
    | some host => exact ⟨h.1, fun _ e => Except.ok.inj e ▸ h.2 _ rfl⟩

/-- A plan that passes its checks has a place for each volume of its machine. -/
theorem safe_inspect (h : SameInventory p.vm first s) :
    Safe (inspecting p.vm job) (fun result _ _ => ∀ pair, result = .ok pair →
      ∃ destination, Inspected first.store p destination pair.2) (check p).run past s := by
  have quiet : ∀ r : Control.Request, r.Quiet → r.Quiet := fun _ quiet => quiet
  refine Safe.andThen (safe_loadVm (K := Request.Quiet) (T := fun vm _ _ => vm.id = p.vm) trivial
    lasting_inventory h fun _ stored _ => Store.id_of_vm? stored) ?_
      fun _ _ _ _ => by rintro _ ⟨⟩
  intro vm past s h
  obtain ⟨h, named⟩ := h
  have named := named vm rfl
  refine Safe.ofExcept (fun _ _ => ?_) fun _ _ => by rintro _ ⟨⟩
  refine Safe.ofExcept (fun _ _ => ?_) fun _ _ => by rintro _ ⟨⟩
  refine Safe.andThen (Safe.within (Program.Within.demand trivial) quiet lasting_inventory h) ?_
    fun _ _ _ _ => by rintro _ ⟨⟩
  intro pending past s h
  cases pending
  case true => rintro _ ⟨⟩
  refine Safe.andThen (safe_readHost h.2) ?_ fun _ _ _ _ => by rintro _ ⟨⟩
  intro destination past s h
  obtain ⟨h, found⟩ := h
  refine Safe.andThen (Q := fun result _ s => SameInventory p.vm first s ∧
      result = .ok (first.store.volumesOf p.vm))
    (Safe.ask lasting_inventory.stable (fun _ => rfl) h fun s h _ => ⟨trivial, ?_⟩) ?_
    fun _ _ _ _ => by rintro _ ⟨⟩
  · rintro _ _ ⟨-, rfl, rfl⟩
    refine ⟨trivial, h, congrArg Except.ok ?_⟩
    rw [← h.volumes, ← named]
    rfl
  intro volumes past s h
  obtain ⟨h, ⟨⟩⟩ := h
  have lasting : Lasting (inspecting p.vm job) Request.Silent fun _ s =>
    SameInventory p.vm first s :=
    lasting_inventory.silent
  refine Safe.andThen ((safe_targets lasting (fun h => h.pools) h).both
    (safe_targets_house lasting (fun h => h.pools) h)) (fun targets past s h => ?_)
    fun _ _ _ _ => by rintro _ ⟨⟩
  obtain ⟨⟨h, found'⟩, -, houses⟩ := h
  obtain ⟨relocations, reached⟩ := found' targets rfl
  simp only
  split
  · rintro _ ⟨⟩
  next all =>
  have ascending : (first.store.volumesOf p.vm).Pairwise (·.id.key < ·.id.key) :=
    first.store.volumes.ascending.filter _
  obtain ⟨rows, backed⟩ :=
    Plan.rows_of_targets ascending relocations reached (Decidable.not_not.1 all)
  have inspected : Inspected first.store p destination targets :=
    ⟨found destination rfl, houses targets rfl, rows, backed⟩
  -- The checks that are left can only refuse the plan.
  refine (Safe.within (P := fun result => ∀ pair, result = .ok pair → pair.2 = targets) ?_ quiet
    lasting_inventory h).mono ?_
  · refine .andThen (.ask trivial) (fun connected _ => ?_) (by rintro _ - _ ⟨⟩)
    refine .andThen (.ask trivial) (fun guests _ => ?_) (by rintro _ - _ ⟨⟩)
    refine .ofExcept (fun _ _ => ?_) (by rintro _ - _ ⟨⟩)
    rintro _ ⟨⟩
    rfl
  · rintro result past s ⟨same, -⟩ pair rfl
    exact ⟨destination, same pair rfl ▸ inspected⟩

/-- The moves of a plan that was checked can be recorded, and they bring each volume of the machine
to a pool that is right for it. -/
theorem Inspected.moved {targets : List Agent.VolumeTarget} {first later : Store}
    {moves : List VolumeMove} {destination : Host} (h : Inspected first p destination targets)
    (pools : later.pools = first.pools) (volumes : later.volumesOf p.vm = first.volumesOf p.vm)
    (planned : p.Moves moves) :
    ∃ moved, later.moveVolumes moves = (.ok (), moved) ∧ ∀ volume ∈ moved.volumesOf p.vm,
      ∃ pool, moved.pool? volume.pool = some pool ∧ pool.Houses destination.cluster p volume ∧
        (p.volumes.get? volume.id.key = none → volume ∈ first.volumesOf p.vm) := by
  have possible : ∀ move ∈ moves, (later.pool? move.pool).isSome ∧
    (later.volume? move.volume).isSome := by
    intro move mem
    have named : move.relocation ∈ p.volumes.rows := planned ▸ List.mem_map_of_mem mem
    obtain ⟨known, volume, own, here⟩ := h.backed _ named
    rw [← volumes] at own
    have stored : later.volume? volume.id = some volume :=
    Table.get?_of_mem (List.mem_filter.1 own).1
    have here : volume.id = move.volume := here
    refine ⟨?_, by rw [← here, stored]; rfl⟩
    rw [← pools] at known
    exact known
  obtain ⟨moved, ok⟩ := Store.moveEach_isOk possible
  refine ⟨moved, by simp only [Store.moveVolumes, ok], fun volume mem => ?_⟩
  rw [Store.volumesOf_moveEach planned.distinct ok, volumes, pools] at mem
  obtain ⟨former, own, rfl⟩ := List.mem_map.1 mem
  obtain ⟨pool, known, houses⟩ := h.houses former own
  refine ⟨pool, ?_, houses.under moves, fun stays => ?_⟩
  · rw [Volume.pool_under planned known, Store.pool?, Store.pools_of_moveEach ok, pools]
    exact known
  · rw [(Volume.under_frame ..).1] at stays
    rwa [Volume.under_of_stays planned stays]

/-- While nobody changes the inventory: if a plan passes its checks, then its moves can be recorded,
whatever paths the hosts report. After that, each volume that the plan names lies on a pool that the
destination reaches, and which is local or not as the volume wants; and each other volume of the
machine is as it was, and not on a local disk. -/
theorem moved_volumes_are_housed {plan : Plan} {vm : Vm} {targets : List Agent.VolumeTarget}
    (run : Run (SameInventory plan.vm) job (check plan).run [] s (.ok (vm, targets)) past s')
    {moves : List VolumeMove} (recorded : moves = movesOf targets ∨
      ∃ reported, moves = movesWithPaths targets reported)
    {later : Shared} (same : SameInventory plan.vm s later) :
    ∃ destination moved, s.store.host? plan.destination = some destination ∧
      later.store.moveVolumes moves = (.ok (), moved) ∧ ∀ volume ∈ moved.volumesOf plan.vm,
        ∃ pool, moved.pool? volume.pool = some pool ∧
          ((plan.volumes.get? volume.id.key).isSome →
            pool.ReachableFrom destination.cluster ∧ pool.isLocal = volume.wantsLocal) ∧
          (plan.volumes.get? volume.id.key = none →
            pool.isLocal = false ∧ volume ∈ s.store.volumesOf plan.vm) := by
  have here : SameInventory plan.vm s s := ⟨rfl, rfl, rfl⟩
  have checked := (safe_inspect here).sound (fun _ => trivial) run
  obtain ⟨destination, inspected⟩ := checked _ rfl
  have planned : plan.Moves moves := by
    rcases recorded with rfl | ⟨reported, rfl⟩
    · exact (movesOf_relocation targets).trans inspected.rows
    · exact (movesWithPaths_relocation targets reported).trans inspected.rows
  obtain ⟨moved, ok, housed⟩ := inspected.moved same.pools same.volumes planned
  refine ⟨destination, moved, inspected.found, ok, fun volume mem => ?_⟩
  obtain ⟨pool, known, houses, stays⟩ := housed volume mem
  refine ⟨pool, known, fun named => ?_, fun unnamed => ?_⟩
  · exact (if_pos named).mp houses
  · have here : ¬ (plan.volumes.get? volume.id.key).isSome := by simp [unnamed]
    exact ⟨(if_neg here).mp houses, stays unnamed⟩

/-- A machine with two volumes on a pool of its cluster, another cluster, and a pool of the zone. -/
def twoClusters : Store where
  vms := .ofList
    [{ Vm.register ⟨1⟩ "i-1" "guest" ⟨1⟩ ⟨1⟩ with
      state := .running, host := some ⟨5⟩ }]
  hosts := .ofList [Simulation.Sample.host ⟨5⟩ ⟨1⟩, Simulation.Sample.host ⟨6⟩ ⟨2⟩]
  pools := .ofList [Simulation.Sample.pool ⟨200⟩ ⟨1⟩ false,
    { Simulation.Sample.pool ⟨201⟩ ⟨1⟩ false with scope := .zone, cluster := none }]
  volumes := .ofList [Simulation.Sample.volume ⟨100⟩ ⟨1⟩ ⟨200⟩ false,
    Simulation.Sample.volume ⟨101⟩ ⟨1⟩ ⟨200⟩ false]

/-- The machine is to go to the other cluster, and one of its volumes to the zone. -/
def halfNamed : Plan := ⟨⟨1⟩, ⟨5⟩, ⟨6⟩, .ofList [⟨⟨101⟩, ⟨201⟩⟩], true⟩

/-- After its moves have been recorded, the machine has a volume that the second cluster does not
reach. -/
def strands : Except Failure (Vm × List Agent.VolumeTarget) → Bool
  | .ok (_, targets) =>
    let moved := (twoClusters.moveVolumes (movesOf targets)).2
    (moved.volumesOf ⟨1⟩).any fun volume =>
      (moved.pool? volume.pool).any fun pool => ¬ pool.ReachableFrom ⟨2⟩
  | .error _ => false

/-- The plan passes its checks. The volume that it does not name stays on a pool of the first
cluster, which the destination does not reach. -/
theorem unnamed_volume_is_left_behind :
    ∃ vm targets past s', Run (SameInventory halfNamed.vm) 0 (check halfNamed).run
      [] ⟨twoClusters, {}, []⟩ (.ok (vm, targets)) past s' ∧
      ∃ destination moved, twoClusters.host? ⟨6⟩ = some destination ∧
        twoClusters.moveVolumes (movesOf targets) = (.ok (), moved) ∧
        (∀ volume ∈ moved.volumesOf ⟨1⟩, ∃ pool, moved.pool? volume.pool = some pool ∧
          ((halfNamed.volumes.get? volume.id.key).isSome →
            pool.ReachableFrom destination.cluster ∧ pool.isLocal = volume.wantsLocal) ∧
          (halfNamed.volumes.get? volume.id.key = none →
            pool.isLocal = false ∧ volume ∈ twoClusters.volumesOf ⟨1⟩)) ∧
        ∃ volume ∈ moved.volumesOf ⟨1⟩, ∃ pool, moved.pool? volume.pool = some pool ∧
          ¬ pool.ReachableFrom destination.cluster := by
  have ends : ((solo? 0 .silent (check halfNamed).run [] ⟨twoClusters, {}, []⟩).any
      fun (result, _, _) => strands result) = true := by decide
  obtain ⟨⟨result, past, s'⟩, carried, ends⟩ := (Option.any_eq_true ..).1 ends
  rcases result with failure | ⟨vm, targets⟩
  · cases ends
  obtain ⟨volume, own, ends⟩ := List.any_eq_true.1 ends
  obtain ⟨pool, known, apart⟩ := (Option.any_eq_true ..).1 ends
  have same : ∀ s, SameInventory halfNamed.vm s s := fun _ => ⟨rfl, rfl, rfl⟩
  have run := run_of_solo? same carried
  obtain ⟨destination, moved, found, ok, housed⟩ :=
    moved_volumes_are_housed run (.inl rfl) (same ⟨twoClusters, {}, []⟩)
  have cluster : destination.cluster = ⟨2⟩ := by
    cases found
    rfl
  have recorded : (twoClusters.moveVolumes (movesOf targets)).2 = moved := congrArg Prod.snd ok
  rw [recorded] at own known
  exact ⟨vm, targets, past, s', run, destination, moved, found, ok, housed,
    volume, own, pool, known, cluster ▸ of_decide_eq_true apart⟩

end Concurrent
end ControlPlane
