import ControlPlane.Proofs.Store.MovedVolumes

/-!
# Volumes that move more than once

A list of moves may take a volume from pool to pool. It ends where the last move takes it, and what
is remembered of its former pools is the one that it left last. To record the whole list once more
changes nothing: the volume then goes round to where it is, and leaves the same pool last.
-/

namespace ControlPlane
variable {first here : PoolId} {pools : List PoolId}

/-- The pool that was left last on the way through some pools. -/
def departed (here : PoolId) : List PoolId → Option PoolId
  | [] => none
  | next :: rest => (departed next rest).or (if here = next then none else some here)

theorem departed_eq_none : departed here pools = none ↔ ∀ pool ∈ pools, pool = here := by
  induction pools generalizing here with
  | nil => exact ⟨nofun, fun _ => rfl⟩
  | cons next rest ih =>
    rw [departed, Option.or_eq_none_iff, ih, List.forall_mem_cons]
    by_cases stays : here = next
    · subst stays
      simp
    · simp [stays, Ne.symm stays]

/-- Where the way begins does not matter, if it ends there. -/
theorem departed_of_last {left : PoolId} (ends : pools.getLast? = some here)
    (h : departed here pools = some left) : departed first pools = some left := by
  cases pools with
  | nil => cases h
  | cons next rest =>
    rw [departed] at h ⊢
    cases later : departed next rest with
    | some pool =>
      rw [later] at h
      exact h
    | none =>
      have stays := departed_eq_none.1 later
      have same : here = next := by
        rw [List.getLast?_cons, Option.some_inj] at ends
        rcases found : rest.getLast? with _ | last
        · rw [found] at ends
          exact ends.symm
        · rw [found] at ends
          exact ends.symm.trans (stays last (List.mem_of_getLast? found))
      rw [later, if_pos same] at h
      cases h

theorem departed_append {before after : List PoolId} {left entered : PoolId}
    (leaves : left ≠ entered) (stays : ∀ pool ∈ after, pool = entered)
    (way : here :: pools = before ++ left :: entered :: after) :
    departed here pools = some left := by
  induction before generalizing here pools with
  | nil =>
    cases way
    rw [departed, departed_eq_none.2 stays, if_neg leaves]
    rfl
  | cons _ before ih =>
    obtain ⟨-, way⟩ := List.cons.inj way
    cases pools with
    | nil => simp at way
    | cons next rest =>
      rw [departed, ih way]
      rfl

theorem getLast?_filterMap_cons {α β : Type} {f : α → Option β} {a : α}
    {l : List α} {b : Option β} :
    ((a :: l).filterMap f).getLast?.or b = (l.filterMap f).getLast?.or ((f a).or b) := by
  rw [List.filterMap_cons]
  cases f a with
  | none => rfl
  | some c =>
    simp only [List.getLast?_cons]
    cases (l.filterMap f).getLast? <;> rfl

namespace Volume
variable {volume : Volume} {stops : List (Pool × Option String)}

/-- The volume after its data have gone from pool to pool. -/
def tour (volume : Volume) (stops : List (Pool × Option String)) : Volume :=
  stops.foldl (fun volume stop => volume.moveTo stop.1 stop.2) volume

theorem tour_cons (stop : Pool × Option String) :
    volume.tour (stop :: stops) = (volume.moveTo stop.1 stop.2).tour stops := rfl

theorem tour_eq (volume : Volume) (stops : List (Pool × Option String)) :
    volume.tour stops = { volume with
      pool := (stops.map (·.1.id)).getLast?.getD volume.pool
      lastPool := (departed volume.pool (stops.map (·.1.id))).or volume.lastPool
      path := (stops.filterMap (·.2)).getLast?.getD volume.path
      folder := (stops.map (·.1.path)).getLast?.or volume.folder
      pod := (stops.filterMap (·.1.pod)).getLast?.or volume.pod } := by
  induction stops generalizing volume with
  | nil => rfl
  | cons stop stops ih =>
    rw [tour_cons, ih]
    refine Volume.ext rfl rfl rfl ?_ ?_ ?_ ?_ getLast?_filterMap_cons.symm rfl
    · simp only [moveTo, List.map_cons, List.getLast?_cons, Option.getD_some]
    · simp only [moveTo, List.map_cons, departed, Option.or_assoc]
      split <;> rfl
    · have last := getLast?_filterMap_cons (f := Prod.snd) (a := stop) (l := stops)
        (b := some volume.path)
      simp only [Option.or_some, Option.some_inj] at last
      exact last.symm
    · simp only [moveTo, List.map_cons, List.getLast?_cons]
      cases (stops.map (·.1.path)).getLast? <;> rfl

/-- To go the same way once more changes nothing. -/
theorem tour_again (volume : Volume) (stops : List (Pool × Option String)) :
    (volume.tour stops).tour stops = volume.tour stops := by
  rw [tour_eq (volume.tour stops), tour_eq volume]
  refine Volume.ext rfl rfl rfl ?_ ?_ ?_ ?_ ?_ rfl
  · cases (stops.map (·.1.id)).getLast? <;> rfl
  · dsimp only
    cases left : departed ((stops.map (·.1.id)).getLast?.getD volume.pool)
      (stops.map (·.1.id)) with
    | none => rfl
    | some pool =>
      cases ends : (stops.map (·.1.id)).getLast? with
      | none =>
        rw [List.getLast?_eq_none_iff.1 ends] at left
        cases left
      | some last =>
        rw [ends] at left
        rw [departed_of_last ends left]
        rfl
  · cases (stops.filterMap (·.2)).getLast? <;> rfl
  · cases (stops.map (·.1.path)).getLast? <;> rfl
  · cases (stops.filterMap (·.1.pod)).getLast? <;> rfl

end Volume
theorem Table.get?_of_rows {α : Type} [Keyed α] {t t' : Table α} {f : α → α}
    (rows : t'.rows = t.rows.map f) (keys : ∀ a, Keyed.key (f a) = Keyed.key a) (k : Nat) :
    t'.get? k = (t.get? k).map f := by
  rw [get?, get?, rows, List.find?_map]
  simp only [Function.comp_def, keys]

def stops (pools : Table Pool) (moves : List VolumeMove) : List (Pool × Option String) :=
  moves.filterMap fun move => (pools.get? move.pool.key).map (·, move.path)

namespace Volume
variable {pools : Table Pool} {volume : Volume} {moves : List VolumeMove} {move : VolumeMove}

/-- The volume after its own among some moves, one after the other. -/
def along (pools : Table Pool) (moves : List VolumeMove) (volume : Volume) : Volume :=
  volume.tour (stops pools (moves.filter (·.volume = volume.id)))

theorem id_along : (volume.along pools moves).id = volume.id := by rw [along, tour_eq]

/-- To record the same moves once more changes nothing. -/
theorem along_again (pools : Table Pool) (moves : List VolumeMove) (volume : Volume) :
    (volume.along pools moves).along pools moves = volume.along pools moves := by
  rw [along, id_along]
  exact tour_again ..

theorem along_cons (pools : Table Pool) (move : VolumeMove)
    (moves : List VolumeMove) (volume : Volume) :
    (volume.under pools [move]).along pools moves = volume.along pools (move :: moves) := by
  have here : (volume.under pools [move]).id = volume.id := (under_frame ..).1
  by_cases own : move.volume = volume.id
  · have gone : volume.under pools [move] = volume.tour (stops pools [move]) := by
      have first : [move].find? (·.volume = volume.id) = some move :=
        List.find?_cons_of_pos (decide_eq_true own)
      simp only [under, first, stops, List.filterMap_cons]
      cases pools.get? move.pool.key <;> rfl
    have named : (move :: moves).filter (·.volume = volume.id) = move ::
      moves.filter (·.volume = volume.id) :=
      List.filter_cons_of_pos (by simpa using own)
    rw [along, along, here, named, gone]
    simp only [stops, List.filterMap_cons]
    cases pools.get? move.pool.key <;> rfl
  · have stays : volume.under pools [move] = volume :=
      under_of_unnamed fun other only => List.mem_singleton.1 only ▸ own
    rw [stays, along, along, List.filter_cons_of_neg (by simpa using own)]

end Volume

namespace Store
variable {s s' : Store} {moves : List VolumeMove} {move : VolumeMove}

theorem along_of_moveEach (h : s.moveEach moves = .ok s') :
    s'.volumes.rows = s.volumes.rows.map (Volume.along s.pools moves) := by
  induction moves generalizing s with
  | nil =>
    cases h
    exact (List.map_id _).symm
  | cons move moves ih =>
    cases moved : s.moveVolume move with
    | error failure => simp [moveEach, moved, Except.bind] at h
    | ok s₁ =>
      simp only [moveEach, moved, Except.bind] at h
      obtain ⟨rows, pools⟩ := volumes_of_moveVolume moved
      rw [ih h, rows, List.map_map, pools]
      exact congrArg (List.map · _) (funext fun volume => Volume.along_cons ..)

theorem volume?_of_moveEach (h : s.moveEach moves = .ok s') (id : VolumeId) :
    s'.volume? id = (s.volume? id).map (Volume.along s.pools moves) :=
  Table.get?_of_rows (along_of_moveEach h) (fun _ => congrArg Id.key Volume.id_along) id.key

/-- Only volumes change. -/
theorem eq_of_moveEach (h : s.moveEach moves = .ok s') : s' = { s with volumes := s'.volumes } := by
  obtain ⟨vms, work, active⟩ := moveEach_frame h
  obtain ⟨hosts, pools, usage⟩ := moveEach_inventory h
  exact Store.ext vms hosts pools rfl work active usage

def Names (s : Store) (moves : List VolumeMove) : Prop :=
  ∀ move ∈ moves, (s.pool? move.pool).isSome ∧ (s.volume? move.volume).isSome

theorem Names.along (named : s.Names moves) (h : s.moveEach moves = .ok s') : s'.Names moves := by
  intro move mem
  obtain ⟨pool, volume⟩ := named move mem
  have pools : s'.pools = s.pools := pools_of_moveEach h
  refine ⟨by rwa [pool?, pools], ?_⟩
  rwa [volume?_of_moveEach h, Option.isSome_map]

theorem names_of_moveEach (h : s.moveEach moves = .ok s') : s.Names moves := by
  induction moves generalizing s with
  | nil => exact nofun
  | cons move moves ih =>
    cases moved : s.moveVolume move with
    | error failure => simp [moveEach, moved, Except.bind] at h
    | ok s₁ =>
      simp only [moveEach, moved, Except.bind] at h
      intro other mem
      rcases List.mem_cons.1 mem with rfl | later
      · unfold moveVolume at moved
        split at moved
        · cases moved
        next pool known =>
        split at moved
        · cases moved
        next volume found => exact ⟨by rw [known]; rfl, by rw [found]; rfl⟩
      · have first : s.moveEach [move] = .ok s₁ := by simp only [moveEach, moved, Except.bind]
        obtain ⟨pool, volume⟩ := ih h other later
        have pools : s₁.pools = s.pools := pools_of_moveEach first
        rw [pool?, pools] at pool
        rw [volume?_of_moveEach first, Option.isSome_map] at volume
        exact ⟨pool, volume⟩

theorem moveEach_again (h : s.moveEach moves = .ok s') : s'.moveEach moves = .ok s' := by
  obtain ⟨s₂, again⟩ := moveEach_isOk ((names_of_moveEach h).along h)
  have pools : s'.pools = s.pools := pools_of_moveEach h
  have same : s₂.volumes = s'.volumes := by
    refine Table.ext ?_
    rw [along_of_moveEach again, pools, along_of_moveEach h, List.map_map]
    exact congrArg (List.map · _) (funext fun volume => Volume.along_again ..)
  rw [again, eq_of_moveEach again, same]

end Store

section
variable {pools : Table Pool} {moves : List VolumeMove}

theorem ids_of_stops (known : ∀ move ∈ moves, (pools.get? move.pool.key).isSome) :
    (stops pools moves).map (·.1.id) = moves.map (·.pool) := by
  induction moves with
  | nil => rfl
  | cons move moves ih =>
    obtain ⟨pool, found⟩ := Option.isSome_iff_exists.1 (known move List.mem_cons_self)
    have named : pool.id = move.pool := Id.key_injective (Table.key_of_get? found)
    have rest := ih fun other mem => known other (List.mem_cons_of_mem _ mem)
    simp only [stops, List.filterMap_cons, found, Option.map_some, List.map_cons, named] at rest ⊢
    rw [rest]

theorem reported_of_stops (known : ∀ move ∈ moves, (pools.get? move.pool.key).isSome) :
    (stops pools moves).filterMap (·.2) = moves.filterMap (·.path) := by
  rw [stops, List.filterMap_filterMap]
  refine List.filterMap_congr fun move mem => ?_
  obtain ⟨pool, found⟩ := Option.isSome_iff_exists.1 (known move mem)
  rw [found]
  rfl

theorem getLast?_of_stops {move : VolumeMove} {pool : Pool} (last : moves.getLast? = some move)
    (found : pools.get? move.pool.key = some pool) :
    (stops pools moves).getLast? = some (pool, move.path) := by
  obtain ⟨before, rfl⟩ := List.getLast?_eq_some_iff.1 last
  simp [stops, List.filterMap_append, found]

end

/-- What becomes of a volume when moves of its own are recorded one after the other. -/
structure Volume.Arrives (s : Store) (own : List VolumeMove) (volume moved : Volume) : Prop where
  id : moved.id = volume.id
  vm : moved.vm = volume.vm
  name : moved.name = volume.name
  wantsLocal : moved.wantsLocal = volume.wantsLocal
  stays : own = [] → moved = volume
  pool : ∀ move, own.getLast? = some move →
    moved.pool = move.pool ∧ ∃ pool, s.pool? move.pool = some pool ∧
    moved.folder = some pool.path
  path : moved.path = (own.filterMap (·.path)).getLast?.getD volume.path
  /-- If the pools end with one that is entered and not left, the last pool is the one before. -/
  left : ∀ before left entered after, volume.pool :: own.map (·.pool) = before ++ left ::
    entered :: after → left ≠ entered → (∀ pool ∈ after, pool = entered) →
    moved.lastPool = some left
  kept : (∀ move ∈ own, move.pool = volume.pool) → moved.lastPool = volume.lastPool

theorem Volume.arrives_along {s : Store} {moves : List VolumeMove}
    (named : s.Names moves) (volume : Volume) :
    volume.Arrives s (moves.filter (·.volume = volume.id)) (volume.along s.pools moves) := by
  have known : ∀ move ∈ moves.filter (·.volume = volume.id),
    (s.pools.get? move.pool.key).isSome :=
    fun move mem => (named move (List.mem_of_mem_filter mem)).1
  have ids := ids_of_stops known
  have gone := tour_eq volume (stops s.pools (moves.filter (·.volume = volume.id)))
  rw [ids, reported_of_stops known] at gone
  constructor
  case id => exact id_along
  case vm => rw [along, gone]
  case name => rw [along, gone]
  case wantsLocal => rw [along, gone]
  case path => rw [along, gone]
  case stays =>
    intro none
    rw [along, none]
    rfl
  case pool =>
    intro move last
    obtain ⟨pool, found⟩ := Option.isSome_iff_exists.1 (known move (List.mem_of_getLast? last))
    have final := getLast?_of_stops last found
    rw [along, gone]
    refine ⟨?_, pool, found, ?_⟩
    · simp only [List.getLast?_map, last, Option.map_some, Option.getD_some]
    · simp only [List.getLast?_map, final, Option.map_some, Option.some_or]
  case left =>
    intro before left entered after way leaves stays
    rw [along, gone]
    simp only [departed_append leaves stays way, Option.some_or]
  case kept =>
    intro stays
    have never : departed volume.pool ((moves.filter (·.volume = volume.id)).map
      (·.pool)) = none :=
      departed_eq_none.2 fun pool mem => by
        obtain ⟨move, own, rfl⟩ := List.mem_map.1 mem
        exact stays move own
    rw [along, gone]
    simp only [never, Option.none_or]

/-- Either something that the moves name is missing, and nothing changes; or nothing changes but the
volumes that they name, which go through the pools of their own moves in turn, and to record the
moves once more changes nothing. -/
theorem moves_are_recorded_once_and_for_all (s : Store) (moves : List VolumeMove) :
    ((∃ move ∈ moves, s.pool? move.pool = none ∨ s.volume? move.volume = none) →
      ∃ failure, s.moveVolumes moves = (.error failure, s)) ∧
    ((∀ move ∈ moves, (s.pool? move.pool).isSome ∧ (s.volume? move.volume).isSome) →
      ∃ s', s.moveVolumes moves = (.ok (), s') ∧ s' = { s with volumes := s'.volumes } ∧
        (∀ id, s.volume? id = none → s'.volume? id = none) ∧
        (∀ id volume, s.volume? id = some volume → ∃ moved, s'.volume? id = some moved ∧
          volume.Arrives s (moves.filter (·.volume = id)) moved) ∧
        s'.moveVolumes moves = (.ok (), s')) := by
  constructor
  · rintro ⟨move, mem, missing⟩
    cases h : s.moveEach moves with
    | error failure => exact ⟨failure, by rw [Store.moveVolumes, h]⟩
    | ok s' =>
      obtain ⟨pool, volume⟩ := Store.names_of_moveEach h move mem
      rcases missing with none | none
      · simp [none] at pool
      · simp [none] at volume
  · intro named
    obtain ⟨s', h⟩ := Store.moveEach_isOk named
    refine ⟨s', by rw [Store.moveVolumes, h], Store.eq_of_moveEach h, ?_, ?_, ?_⟩
    · intro id none
      rw [Store.volume?_of_moveEach h, none]
      rfl
    · intro id volume stored
      have own : volume.id = id := Id.key_injective (Table.key_of_get? stored)
      refine ⟨volume.along s.pools moves, by rw [Store.volume?_of_moveEach h, stored]; rfl, ?_⟩
      exact own ▸ Volume.arrives_along named volume
    · rw [Store.moveVolumes, Store.moveEach_again h]

def threePools : Store where
  pools := .ofList [⟨⟨1⟩, "a", .zone, "/a", none, none⟩,
    ⟨⟨2⟩, "b", .zone, "/b", none, none⟩,
    ⟨⟨3⟩, "c", .zone, "/c", some ⟨4⟩, none⟩]
  volumes := .ofList [⟨⟨7⟩, none, "root", ⟨1⟩, none, "old", none, none, false⟩,
    ⟨⟨8⟩, none, "data", ⟨2⟩, some ⟨1⟩, "kept", none, none, true⟩]

def detour : List VolumeMove :=
  [⟨⟨7⟩, ⟨2⟩, none⟩, ⟨⟨7⟩, ⟨3⟩, some "new"⟩, ⟨⟨7⟩, ⟨3⟩, none⟩]

/-- A volume goes to one pool and on to another, where it is recorded twice; one that is not there
goes nowhere. -/
theorem detour_is_recorded_once_and_for_all :
    (∃ s' moved, threePools.moveVolumes detour = (.ok (), s') ∧
      s'.moveVolumes detour = (.ok (), s') ∧ s'.volume? ⟨7⟩ = some moved ∧
      moved.pool = ⟨3⟩ ∧ moved.lastPool = some ⟨2⟩ ∧ moved.path = "new") ∧
    ∃ failure,
      threePools.moveVolumes [⟨⟨7⟩, ⟨2⟩, none⟩, ⟨⟨9⟩, ⟨2⟩, none⟩] =
        (.error failure, threePools) := by
  constructor
  · obtain ⟨s', done, -, -, arrives, again⟩ :=
      (moves_are_recorded_once_and_for_all threePools detour).2 (by decide)
    obtain ⟨moved, stored, arrives⟩ :=
      arrives ⟨7⟩ ⟨⟨7⟩, none, "root", ⟨1⟩, none, "old", none, none, false⟩ rfl
    exact ⟨s', moved, done, again, stored, (arrives.pool ⟨⟨7⟩, ⟨3⟩, none⟩ rfl).1,
      arrives.left [⟨1⟩] ⟨2⟩ ⟨3⟩ [⟨3⟩] rfl (by decide) (by decide), arrives.path⟩
  · exact (moves_are_recorded_once_and_for_all threePools _).1
      ⟨⟨⟨9⟩, ⟨2⟩, none⟩, .tail _ (.head _), .inr rfl⟩

end ControlPlane
