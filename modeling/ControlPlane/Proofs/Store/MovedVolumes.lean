import ControlPlane.Proofs.Store.Transactions
import Mathlib.Data.List.Perm.Subperm

/-!
# Volumes that move along

Recording a list of moves takes each volume that it names to its pool and leaves the others alone.
To record the same moves once more changes nothing, and the path that a host has reported stays.
-/

namespace ControlPlane

theorem Table.rows_insert_of_get? {α : Type} [Keyed α] {t : Table α} {a b : α}
    (h : t.get? (Keyed.key a) = some b) :
    (t.insert a).rows = t.rows.map fun c => if Keyed.key c = Keyed.key a then a else c := by
  obtain ⟨rows, ascending⟩ := t
  simp only [get?, insert] at h ⊢
  induction rows with
  | nil => cases h
  | cons c rows ih =>
    rw [List.pairwise_cons] at ascending
    by_cases same : Keyed.key c = Keyed.key a
    · have rest : rows.map (fun c => if Keyed.key c = Keyed.key a then a else c) = rows := by
        refine (List.map_congr_left fun d mem => ?_).trans (List.map_id rows)
        have later := ascending.1 d mem
        exact if_neg (by omega)
      rw [insertRow, if_neg (by omega), if_pos same.symm, List.map_cons, if_pos same, rest]
    · rw [List.find?_cons_of_neg (by simpa using same)] at h
      have later : Keyed.key c < Keyed.key a := by
        have here := List.find?_some h
        simp only [decide_eq_true_eq] at here
        exact here ▸ ascending.1 b (List.mem_of_find?_eq_some h)
      rw [insertRow, if_neg (by omega), if_neg (by omega), List.map_cons,
        if_neg same, ih ascending.2 h]

def VolumeMove.relocation (move : VolumeMove) : Relocation := ⟨move.volume, move.pool⟩

/-- Moves of just the volumes that a plan moves, each to its pool. -/
def Plan.Moves (plan : Plan) (moves : List VolumeMove) : Prop :=
  moves.map VolumeMove.relocation = plan.volumes.rows

/-- The pools of a plan are known, and what it moves is among some volumes. -/
def Plan.Backed (plan : Plan) (pools : Table Pool) (volumes : List Volume) : Prop :=
  ∀ r ∈ plan.volumes.rows, (pools.get? r.pool.key).isSome ∧ ∃ volume ∈ volumes,
    volume.id = r.volume

namespace Volume
variable {pools : Table Pool} {moves moves' : List VolumeMove} {move : VolumeMove} {volume : Volume}
  {plan : Plan}

def bare (volume : Volume) : Volume := { volume with path := "" }

/-- The volume after moves, of which at most one is its own. -/
def under (pools : Table Pool) (moves : List VolumeMove) (volume : Volume) : Volume :=
  match moves.find? (·.volume = volume.id) with
  | none => volume
  | some move =>
    match pools.get? move.pool.key with
    | none => volume
    | some pool => volume.moveTo pool move.path

theorem moveTo_again (volume : Volume) (pool : Pool) (path : Option String) :
    (volume.moveTo pool path).moveTo pool none = volume.moveTo pool path := by
  obtain ⟨id, vm, name, former, lastPool, old, folder, pod, wantsLocal⟩ := volume
  simp only [moveTo, if_true, Option.getD_none, mk.injEq, true_and, and_true]
  cases pool.pod <;> rfl

theorem under_of_unnamed (h : ∀ move ∈ moves, move.volume ≠ volume.id) :
    volume.under pools moves = volume := by
  have unnamed : moves.find? (·.volume = volume.id) = none :=
    List.find?_eq_none.2 fun move mem => by simpa using h move mem
  simp only [under, unnamed]

theorem under_frame (pools : Table Pool) (moves : List VolumeMove) (volume : Volume) :
    (volume.under pools moves).id = volume.id ∧ (volume.under pools moves).vm = volume.vm := by
  unfold under
  split
  · exact ⟨rfl, rfl⟩
  · split <;> exact ⟨rfl, rfl⟩

/-- The moves of a plan name the same volumes and pools, whatever paths they tell. -/
theorem find?_moves (h : plan.Moves moves) (id : VolumeId) :
    (moves.find? (·.volume = id)).map VolumeMove.relocation =
      plan.volumes.rows.find? (·.volume = id) := by
  rw [← h, List.find?_map]
  rfl

theorem bare_under (h : plan.Moves moves) (h' : plan.Moves moves') (volume : Volume) :
    (volume.under pools moves).bare = (volume.under pools moves').bare := by
  have same := (find?_moves h volume.id).trans (find?_moves h' volume.id).symm
  unfold under
  cases found : moves.find? (·.volume = volume.id) with
  | none =>
    rw [found] at same
    rw [Option.map_eq_none_iff.1 same.symm]
  | some move =>
    rw [found] at same
    obtain ⟨move', found', same⟩ := Option.map_eq_some_iff.1 same.symm
    have pool : move'.pool = move.pool := congrArg Relocation.pool same
    simp only [found', pool]
    split <;> rfl

theorem path_under (h : ∀ move ∈ moves, move.path = none) :
    (volume.under pools moves).path = volume.path := by
  unfold under
  split
  · rfl
  next move found =>
    split
    · rfl
    · rw [h move (List.mem_of_find?_eq_some found)]
      rfl

/-- Volumes that are where a plan takes them stay as they are when its moves are recorded again. -/
theorem under_again (h : plan.Moves moves) (h' : plan.Moves moves')
    (plain : ∀ move ∈ moves', move.path = none) :
    (volume.under pools moves).under pools moves' = volume.under pools moves := by
  have same := (find?_moves h volume.id).trans (find?_moves h' volume.id).symm
  have here : (volume.under pools moves).id = volume.id := (under_frame ..).1
  rw [under, here]
  cases found' : moves'.find? (·.volume = volume.id) with
  | none => rfl
  | some move' =>
    rw [found'] at same
    obtain ⟨move, found, same⟩ := Option.map_eq_some_iff.1 same
    have pool : move'.pool = move.pool := (congrArg Relocation.pool same).symm
    simp only [under, found, pool, plain move' (List.mem_of_find?_eq_some found')]
    split
    · rfl
    · exact moveTo_again ..

theorem under_cons (fresh : ∀ other ∈ moves, other.volume ≠ move.volume) (volume : Volume) :
    (volume.under pools [move]).under pools moves = volume.under pools (move :: moves) := by
  have here : (volume.under pools [move]).id = volume.id := (under_frame ..).1
  by_cases own : move.volume = volume.id
  · have rest : (volume.under pools [move]).under pools moves = volume.under pools [move] :=
      under_of_unnamed fun other mem => by rw [here, ← own]; exact fresh other mem
    have first : ∀ others, (move :: others).find? (·.volume = volume.id) = some move :=
      fun _ => List.find?_cons_of_pos (decide_eq_true own)
    rw [rest]
    simp only [under, first]
  · have alone : volume.under pools [move] = volume :=
      under_of_unnamed fun other mem => List.mem_singleton.1 mem ▸ own
    have later : (move :: moves).find? (·.volume = volume.id) =
      moves.find? (·.volume = volume.id) :=
      List.find?_cons_of_neg (by simpa using own)
    rw [alone]
    simp only [under, later]

end Volume

namespace Store
variable {s s' : Store} {moves : List VolumeMove} {move : VolumeMove}

theorem volumes_of_moveVolume (h : s.moveVolume move = .ok s') :
    s'.volumes.rows = s.volumes.rows.map (Volume.under s.pools [move]) ∧ s'.pools = s.pools := by
  unfold moveVolume at h
  split at h
  · cases h
  next pool known =>
  split at h
  · cases h
  next volume found =>
  cases h
  refine ⟨?_, rfl⟩
  have named : volume.id = move.volume := Id.key_injective (Table.key_of_get? found)
  have placed : (s.volumes.insert (volume.moveTo pool move.path)).rows = s.volumes.rows.map fun c =>
      if Keyed.key c = Keyed.key (volume.moveTo pool move.path) then
        volume.moveTo pool move.path else c :=
    Table.rows_insert_of_get? (b := volume) (by rw [← found, ← named]; rfl)
  rw [placed]
  refine List.map_congr_left fun other mem => ?_
  have same : Keyed.key other = Keyed.key (volume.moveTo pool move.path) ↔
    move.volume = other.id := by
    rw [← named]
    exact ⟨fun e => (Id.key_injective e).symm, fun e => congrArg Id.key e.symm⟩
  by_cases own : move.volume = other.id
  · have e : other = volume := by
      have stored := Table.get?_of_mem mem
      rw [show Keyed.key other = move.volume.key from congrArg Id.key own.symm] at stored
      exact Option.some.inj (stored.symm.trans found)
    have known : s.pools.get? move.pool.key = some pool := known
    rw [if_pos (same.2 own), Volume.under, List.find?_cons_of_pos (by simpa using own)]
    simp only [known, e]
  · rw [if_neg fun e => own (same.1 e)]
    exact (Volume.under_of_unnamed fun m only => List.mem_singleton.1 only ▸ own).symm

theorem pools_of_moveEach (h : s.moveEach moves = .ok s') : s'.pools = s.pools :=
  (moveEach_inventory h).2.1

theorem volumes_of_moveEach (distinct : (moves.map (·.volume)).Nodup)
    (h : s.moveEach moves = .ok s') :
    s'.volumes.rows = s.volumes.rows.map (Volume.under s.pools moves) := by
  induction moves generalizing s with
  | nil =>
    cases h
    exact ((List.map_congr_left fun volume _ => rfl).trans (List.map_id _)).symm
  | cons move moves ih =>
    rw [List.map_cons, List.nodup_cons] at distinct
    obtain ⟨fresh, distinct⟩ := distinct
    cases moved : s.moveVolume move with
    | error failure => simp [moveEach, moved, Except.bind] at h
    | ok s₁ =>
      simp only [moveEach, moved, Except.bind] at h
      obtain ⟨rows₁, pools₁⟩ := volumes_of_moveVolume moved
      rw [ih distinct h, rows₁, List.map_map, pools₁]
      refine List.map_congr_left fun volume _ => Volume.under_cons (fun other mem e => ?_) volume
      exact fresh (List.mem_map.2 ⟨other, mem, e⟩)

/-- Moves of volumes that are there to pools that are there can be recorded. -/
theorem moveEach_isOk
    (h : ∀ move ∈ moves, (s.pool? move.pool).isSome ∧ (s.volume? move.volume).isSome) :
    ∃ s', s.moveEach moves = .ok s' := by
  induction moves generalizing s with
  | nil => exact ⟨s, rfl⟩
  | cons move moves ih =>
    obtain ⟨pool, volume⟩ := h move List.mem_cons_self
    obtain ⟨pool, known⟩ := Option.isSome_iff_exists.1 pool
    obtain ⟨volume, found⟩ := Option.isSome_iff_exists.1 volume
    have moved : s.moveVolume move =
        .ok { s with volumes := s.volumes.insert (volume.moveTo pool move.path) } := by
      simp only [moveVolume, known, found]
    obtain ⟨s', rest⟩ :=
      ih (s := { s with volumes := s.volumes.insert (volume.moveTo pool move.path) })
      fun other mem => by
        obtain ⟨pool', volume'⟩ := h other (List.mem_cons_of_mem _ mem)
        refine ⟨pool', ?_⟩
        simp only [volume?, Table.get?_insert] at volume' ⊢
        split
        · rfl
        · exact volume'
    exact ⟨s', by simp only [moveEach, moved, Except.bind, rest]⟩

theorem volumesOf_moveEach {v : VmId} (distinct : (moves.map (·.volume)).Nodup)
    (h : s.moveEach moves = .ok s') :
    s'.volumesOf v = (s.volumesOf v).map (Volume.under s.pools moves) := by
  unfold volumesOf
  rw [volumes_of_moveEach distinct h, List.filter_map]
  refine congrArg _ (List.filter_congr fun volume _ => ?_)
  rw [Function.comp_apply, (Volume.under_frame ..).2]

end Store

theorem Plan.Moves.distinct {plan : Plan} {moves : List VolumeMove} (h : plan.Moves moves) :
    (moves.map (·.volume)).Nodup := by
  have volumes : moves.map (·.volume) = plan.volumes.rows.map (·.volume) := by
    rw [← h, List.map_map]
    rfl
  rw [volumes, List.Nodup, List.pairwise_map]
  exact plan.volumes.ascending.imp fun less e => Nat.ne_of_lt less (congrArg Id.key e)

/-- Volumes that have moved are the ones that they were. -/
theorem Plan.Backed.under {plan : Plan} {pools : Table Pool} {volumes : List Volume}
    (h : plan.Backed pools volumes) (moves : List VolumeMove) :
    plan.Backed pools (volumes.map (Volume.under pools moves)) := by
  intro r mem
  obtain ⟨pool, volume, own, named⟩ := h r mem
  exact ⟨pool, _, List.mem_map_of_mem own, (Volume.under_frame ..).1.trans named⟩

/-- If as many relocations of a plan as it has are those of given volumes, then these are all of
them. -/
theorem Plan.relocations_eq {plan : Plan} {volumes : List Volume}
    (ascending : volumes.Pairwise (·.id.key < ·.id.key))
    (all : (volumes.filterMap (plan.volumes.get? ·.id.key)).length = plan.volumes.size) :
    volumes.filterMap (plan.volumes.get? ·.id.key) = plan.volumes.rows := by
  have ordered : (volumes.filterMap (plan.volumes.get? ·.id.key)).Pairwise
      (Keyed.key · < Keyed.key ·) := by
    refine List.pairwise_filterMap.2 (ascending.imp fun less r found r' found' => ?_)
    rw [Table.key_of_get? found, Table.key_of_get? found']
    exact less
  have distinct : (volumes.filterMap (plan.volumes.get? ·.id.key)).Nodup :=
    ordered.imp fun less e => Nat.ne_of_lt less (congrArg Keyed.key e)
  have known : volumes.filterMap (plan.volumes.get? ·.id.key) ⊆ plan.volumes.rows :=
    fun r mem => by
    obtain ⟨volume, -, found⟩ := List.mem_filterMap.1 mem
    exact Table.mem_of_get? found
  have perm := (List.subperm_of_subset distinct known).perm_of_length_le (Nat.le_of_eq all.symm)
  exact perm.eq_of_pairwise (fun a b _ _ less less' => absurd less (Nat.lt_asymm less')) ordered
    plan.volumes.ascending

end ControlPlane
