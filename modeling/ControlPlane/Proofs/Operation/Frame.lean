import ControlPlane.Proofs.Operation.PermittedWrites
import ControlPlane.Proofs.Recovery.BrokenMigration

/-!
# What a call leaves alone

Whatever hosts answer, a call changes neither other machines and their items nor any volume that it
was not asked to move. Others may do what they like meanwhile: what they leave as it is has not
changed in the end.
-/

namespace ControlPlane
open Work Control Operation

namespace Store
variable {s s' : Store} {move : VolumeMove} {moves : List VolumeMove} {w : VmId} {id : Uuid}

def itemOf? (s : Store) (w : VmId) (id : Uuid) : Option Item := (s.item? id).filter (·.vm = w)

theorem itemOf?_eq_none : s.itemOf? w id = none ↔ ∀ x, s.item? id = some x → x.vm ≠ w := by
  simp [itemOf?, Option.filter_eq_none_iff]

/-- Writing an item over one that is not about the machine changes no item about the machine. -/
theorem itemOf?_putItem {item : Item} (other : item.vm ≠ w) (free : s.itemOf? w item.id = none) :
    (s.putItem item).itemOf? w = s.itemOf? w := by
  funext id
  by_cases own : item.id = id
  · subst own
    rw [free, itemOf?, item?_putItem, if_pos rfl]
    exact Option.filter_eq_none_iff.2 fun x same => Option.some.inj same ▸ by simpa using other
  · simp only [itemOf?, item?_putItem, if_neg own]

/-- The item that is there in place of one that is not about the machine is not about the machine
either. -/
theorem vm_of_stored {item : Item} (other : item.vm ≠ w) (free : s.itemOf? w item.id = none) :
    ((s.item? item.id).getD item).vm ≠ w := by
  cases stored : s.item? item.id with
  | none => exact other
  | some x => exact itemOf?_eq_none.1 free x stored

/-- What each move of a list keeps is kept by all of them. -/
theorem moveEach_induct {P : Store → Prop}
    (step : ∀ {s s'}, ∀ move ∈ moves, s.moveVolume move = .ok s' →
      P s → P s') (h : s.moveEach moves = .ok s') (first : P s) : P s' := by
  induction moves generalizing s with
  | nil =>
    cases h
    exact first
  | cons move moves ih =>
    cases moved : s.moveVolume move with
    | error failure => simp [moveEach, moved, Except.bind] at h
    | ok s₁ =>
      simp only [moveEach, moved, Except.bind] at h
      exact ih (fun move mem => step move (.tail _ mem)) h (step move (.head _) moved first)

theorem id_of_volume? {id : VolumeId} {volume : Volume} (h : s.volume? id = some volume) :
    volume.id = id :=
  Id.key_injective (Table.key_of_get? h)

theorem volume?_of_moveVolume (h : s.moveVolume move = .ok s') (id : VolumeId) :
    move.volume ≠ id ∧ s'.volume? id = s.volume? id ∨ move.volume = id ∧ ∃ volume pool,
      s.volume? id = some volume ∧ pool.id = move.pool ∧
      s'.volume? id = some (volume.moveTo pool move.path) := by
  unfold moveVolume at h
  split at h
  · cases h
  next pool known =>
  split at h
  · cases h
  next volume found =>
  cases h
  have named : volume.id = move.volume := id_of_volume? found
  have stored :
    ({ s with volumes := s.volumes.insert (volume.moveTo pool move.path) } : Store).volume? id =
      if move.volume = id then some (volume.moveTo pool move.path) else s.volume? id := by
    simp only [volume?, Table.get?_insert, Keyed.key, Volume.moveTo, Id.key_inj, named]
  by_cases own : move.volume = id
  · refine .inr ⟨own, volume, pool, own ▸ found,
      Id.key_injective (Table.key_of_get? known), ?_⟩
    rw [stored, if_pos own]
  · refine .inl ⟨own, ?_⟩
    rw [stored, if_neg own]

end Store

def Transaction.item? : Transaction → Option Item
  | .openItem item | .closeItem item .. | .planItem item .. => some item
  | _ => none

/-- Only moves of volumes change volumes. -/
theorem Transaction.volumes_frame {s : Store} (t : Transaction)
    (no : ∀ moves, t ≠ .moveVolumes moves) :
    (t.apply s).2.volumes = s.volumes := by
  cases t with
  | moveVolumes moves => exact absurd rfl (no moves)
  | swap u =>
    simp only [apply, Store.swap]
    split
    · rfl
    · split <;> rfl
  | setResources v resources | setCredentialsPending v pending =>
    simp only [apply, Store.setResources, Store.setCredentialsPending, Store.modifyVm]
    split <;> rfl
  | openItem item =>
    simp only [apply, Store.openItem]
    split <;> rfl
  | recoverItem id step now =>
    simp only [apply, Store.recoverItem]
    split
    · split <;> rfl
    · rfl
  | _ => rfl

/-- To write to an item that is not about a machine changes nothing in the ledger that is about the
machine. -/
theorem Transaction.ledger_of_others {s : Store} {t : Transaction} {w : VmId}
    (foreign : ∀ item, t.item? = some item → item.vm ≠ w ∧ s.itemOf? w item.id = none)
    (closes : ∀ id step now, t ≠ .recoverItem id step now) :
    (t.apply s).2.itemOf? w = s.itemOf? w ∧ (t.apply s).2.openItem? w = s.openItem? w := by
  rw [openItem?_apply]
  cases t with
  | openItem item =>
    obtain ⟨other, free⟩ := foreign item rfl
    refine ⟨?_, if_neg fun h => other h.1⟩
    simp only [apply, Store.openItem]
    split
    · rfl
    · exact Store.itemOf?_putItem other free
  | closeItem item step now =>
    obtain ⟨other, free⟩ := foreign item rfl
    have other := Store.vm_of_stored other free
    refine ⟨Store.itemOf?_putItem other ?_, if_neg fun h => other h.1⟩
    rwa [Store.id_of_stored]
  | planItem item plan now =>
    obtain ⟨other, free⟩ := foreign item rfl
    refine ⟨Store.itemOf?_putItem (Store.vm_of_stored other free) ?_, rfl⟩
    rwa [Store.id_of_stored]
  | recoverItem id step now => exact absurd rfl (closes id step now)
  | _ =>
    exact ⟨funext fun id => congrArg (Option.filter _) (item?_frame (by rfl) (by rfl)), rfl⟩

namespace Concurrent

/-- If others leave what is looked at as it is, it is the same in the end. -/
def LeftAlone {β : Type} (rely : Shared → Shared → Prop) (look : Store → β)
    (s s' : Shared) : Prop :=
  (∀ a b, rely a b → look b.store = look a.store) → look s'.store = look s.store

/-- A volume of the machine has been moved as the call asks for. The path is the one it had, or a
host has reported it for this volume. -/
structure Redirected (call : Call) (past : List Exchange) (volume moved : Volume) : Prop where
  attached : volume.vm = some call.vm
  pool : call.pool? volume.id = some moved.pool
  path : moved.path = volume.path ∨ Reported volume.id moved.path past
  same : moved = { volume with
    pool := moved.pool, lastPool := moved.lastPool, folder := moved.folder, pod := moved.pod,
    path := moved.path }

/-- Against what was there at first, the volume is as it was, or has been moved as the call asks
for. What the store has listed among the volumes of the machine was attached to it from the
first. -/
structure Guided (call : Call) (id : VolumeId) (first : Option Volume)
    (past : List Exchange) (store : Store) :
    Prop where
  attached : Attached call.vm id past → ∀ volume, first = some volume →
    volume.vm = some call.vm
  moved : store.volume? id = first ∨
    ∃ volume moved, first = some volume ∧ store.volume? id = some moved ∧
    Redirected call past volume moved

variable {call : Call} {job : Nat} {s s' : Shared} {past past' : List Exchange}
  {r : Control.Request} {rely : Shared → Shared → Prop}
  {fit : List Exchange → Control.Request → Prop} {α β : Type} {Q : α → Assertion}
  {p : Program surroundings α} {a : α} {J : List Exchange → Store → Prop} {ctx : Context}
  {w v : VmId} {e : Exchange} {id : Uuid} {volume moved : Volume}
  {store store' : Store} {t : Transaction}

/-- What others keep, and every request that fits, is kept by a program that makes no other
requests. -/
theorem Run.keeps (run : Run rely job p past s a past' s')
    (safe : Safe (minding (fun _ => True) fit job) Q p past s)
    (others : ∀ {past} {a b : Shared}, rely a b → J past a.store → J past b.store)
    (keeps : ∀ {past r reply} {a b : Shared}, fit past r → a.Answers job r reply b →
      J past a.store → J (past ++ [⟨r, reply, a.store⟩]) b.store) (first : J past s.store) :
      J past' s'.store := by
  induction run with
  | done => exact first
  | @ask r rest past past' s s₁ s₂ s₃ s' reply a enters waits answers goes ih =>
    obtain ⟨-, safe⟩ := safe s₁ trivial trivial
    obtain ⟨fits, safe⟩ := safe s₂ trivial trivial
    have entered : (s₁.enter job r).store = s₁.store := by cases r <;> rfl
    have h : J past (s₁.enter job r).store := entered ▸ others enters first
    exact ih (safe reply s₃ answers).2 (keeps fits answers (others waits h))

theorem Run.keeps_perform {result : Except Failure Unit}
    (run : Run rely job (call.perform ctx).run past s result past' s')
    (others : ∀ {past} {a b : Shared}, rely a b → J past a.store → J past b.store)
    (keeps : ∀ {past r reply} {a b : Shared}, Remit call past r → a.Answers job r reply b →
      J past a.store → J (past ++ [⟨r, reply, a.store⟩]) b.store) (first : J past s.store) :
      J past' s'.store :=
  run.keeps (remit_perform call) others keeps first

theorem onVm_of_remit {vm : Vm} (fits : Remit call past (.transact t)) (other : vm.id ≠ call.vm) :
    t.onVm vm = vm := by
  cases t with
  | swap u => exact if_neg fun here => other (here.1.symm.trans fits)
  | setResources | setCredentialsPending => exact if_neg fun here => other (here.symm.trans fits)
  | _ => rfl

/-- A call writes to no other machine. -/
theorem others_left_alone {result : Except Failure Unit} (other : w ≠ call.vm)
    (run : Run rely job (call.perform ctx).run past s result past' s') :
    LeftAlone rely (·.vm? w) s s' := by
  intro leaves
  refine run.keeps_perform (J := fun _ store => store.vm? w = s.store.vm? w)
    (fun moves h => (leaves _ _ moves).trans h) ?_ rfl
  intro past r reply a b fits answers h
  refine Eq.trans ?_ h
  rcases Shared.store_of_answers answers with same | ⟨t, rfl, same⟩
  · rw [same]
  · rw [same, Transaction.vm?_apply]
    refine (Option.map_congr fun vm stored => ?_).trans Option.map_id'
    exact onVm_of_remit fits ((Store.id_of_vm? stored).symm ▸ other)

/-- A transaction of a call only writes to items with an identifier that the call has been given. -/
theorem item_of_remit {item : Item} (fits : Remit call past (.transact t))
    (writes : t.item? = some item) :
    item.vm = call.vm ∧ Drawn item.id past := by
  cases t with
  | openItem | closeItem | planItem =>
    cases writes
    exact fits
  | _ => cases writes

/-- An identifier is given out while no item has it. -/
theorem drawn_of_append {reply : r.Reply} (answers : s.Answers job r reply s')
    (drawn : Drawn id (past ++ [⟨r, reply, s.store⟩])) :
    Drawn id past ∨ s.store.item? id = none := by
  obtain ⟨before, mem⟩ := drawn
  rcases List.mem_append.1 mem with mem | mem
  · exact .inl ⟨before, mem⟩
  · cases List.mem_singleton.1 mem
    exact .inr answers.1.1

/-- A call writes to no items of other machines, nor to what says which of them is open. -/
theorem other_work_left_alone {result : Except Failure Unit} (other : w ≠ call.vm)
    (run : Run rely job (call.perform ctx).run [] s result past' s') :
    LeftAlone rely (fun store => (store.itemOf? w, store.openItem? w)) s s' := by
  intro leaves
  -- No item about the other machine has an identifier that the call was given, so the call writes
  -- over none.
  have kept := run.keeps_perform (J := fun past store =>
      (store.itemOf? w, store.openItem? w) = (s.store.itemOf? w, s.store.openItem? w) ∧
        ∀ id, Drawn id past → s.store.itemOf? w id = none)
    (fun moves h => ⟨(leaves _ _ moves).trans h.1, h.2⟩) ?_
      ⟨rfl, fun id ⟨_, no⟩ => absurd no List.not_mem_nil⟩
  · exact kept.1
  intro past r reply a b fits answers h
  obtain ⟨same, drawn⟩ := h
  obtain ⟨items, slot⟩ := Prod.mk.inj same
  refine ⟨?_, fun id given => ?_⟩
  · rcases Shared.store_of_answers answers with still | ⟨t, rfl, written⟩
    · rwa [still]
    · have foreign : ∀ item, t.item? = some item → item.vm ≠ w ∧
        a.store.itemOf? w item.id = none := by
        intro item writes
        obtain ⟨own, given⟩ := item_of_remit fits writes
        exact ⟨own ▸ other.symm, items ▸ drawn _ given⟩
      have frame := Transaction.ledger_of_others foreign fun _ _ _ recovers => by
        rw [recovers] at fits
        exact fits
      rw [written, frame.1, frame.2, same]
  · rcases drawn_of_append answers given with given | unused
    · exact drawn id given
    · rw [← items]
      exact congrArg (Option.filter _) unused

section
variable {id : VolumeId} {first : Option Volume} {move : VolumeMove} {moves : List VolumeMove}

theorem Redirected.append (h : Redirected call past volume moved) :
    Redirected call (past ++ [e]) volume moved :=
  { h with path := h.path.imp_right Reported.append }

theorem Redirected.id_eq (h : Redirected call past volume moved) :
    moved.id = volume.id := by rw [h.same]

/-- A volume is redirected by each move that the call asks for, also when it has been moved
before. -/
theorem Directed.redirects {pool : Pool} (directed : Directed call past move)
    (about : move.volume = volume.id) (named : pool.id = move.pool)
    (attached : volume.vm = some call.vm)
    (path : moved.path = volume.path ∨ Reported volume.id moved.path past)
    (same : moved = { volume with
      pool := moved.pool, lastPool := moved.lastPool, folder := moved.folder, pod := moved.pod,
      path := moved.path }) :
    Redirected call past volume (moved.moveTo pool move.path) where
  attached := attached
  pool := by
    rw [← about, directed.pool]
    exact congrArg some named.symm
  path := by
    cases reported : move.path with
    | none => exact path
    | some new => exact .inr (about ▸ directed.path new reported)
  same := by
    rw [same]
    rfl

theorem Directed.guides (directed : Directed call past move)
    (h : store.moveVolume move = .ok store') (guided : Guided call id first past store) :
    Guided call id first past store' where
  attached := guided.attached
  moved := by
    rcases Store.volume?_of_moveVolume h id with
      ⟨-, same⟩ | ⟨about, found, pool, here, named, written⟩
    · rw [same]
      exact guided.moved
    have about : move.volume = found.id := about.trans (Store.id_of_volume? here).symm
    -- It is moved for the first time, or once more.
    rcases guided.moved with same | ⟨volume, moved, known, there, redirected⟩
    · have known := same.symm.trans here
      have attached :=
        guided.attached (Store.id_of_volume? here ▸ about ▸ directed.attached) found known
      exact .inr ⟨found, _, known, written,
        directed.redirects about named attached (.inl rfl) rfl⟩
    · cases here.symm.trans there
      have about : move.volume = volume.id := about.trans redirected.id_eq
      have redirected := directed.redirects about named redirected.attached
        redirected.path redirected.same
      exact .inr ⟨volume, _, known, written, redirected⟩

/-- The store lists no volume among those of a machine that is not attached to it. -/
theorem attached_of_append {reply : r.Reply}
    (listed : Attached v id (past ++ [⟨r, reply, store⟩])) :
    Attached v id past ∨ ∃ volume, store.volume? id = some volume ∧ volume.vm = some v := by
  obtain ⟨before, mem, volume, row, rfl⟩ := listed
  rcases List.mem_append.1 mem with mem | mem
  · exact .inl ⟨before, mem, volume, row, rfl⟩
  · cases List.mem_singleton.1 mem
    obtain ⟨stored, attached⟩ := List.mem_filter.1 row
    exact .inr ⟨volume, Table.get?_of_mem stored, of_decide_eq_true attached⟩

theorem Guided.append {reply : r.Reply} (guided : Guided call id first past store) :
    Guided call id first (past ++ [⟨r, reply, store⟩]) store where
  attached listed := by
    rcases attached_of_append listed with listed | ⟨volume, here, attached⟩
    · exact guided.attached listed
    intro other known
    rcases guided.moved with same | ⟨volume, moved, known', -, redirected⟩
    · cases known.symm.trans (same.symm.trans here)
      exact attached
    · cases known.symm.trans known'
      exact redirected.attached
  moved := by
    rcases guided.moved with same | ⟨volume, moved, known, here, redirected⟩
    · exact .inl same
    · exact .inr ⟨volume, moved, known, here, redirected.append⟩

theorem Guided.apply
    (fits : ∀ moves, t = .moveVolumes moves → ∀ move ∈ moves, Directed call past move)
    (guided : Guided call id first past store) : Guided call id first past (t.apply store).2 := by
  by_cases volumes : ∃ moves, t = .moveVolumes moves
  · obtain ⟨moves, rfl⟩ := volumes
    simp only [Transaction.apply, Store.moveVolumes]
    split
    next moved => exact Store.moveEach_induct (fun move mem =>
      (fits moves rfl move mem).guides) moved guided
    · exact guided
  · have frame := t.volumes_frame (s := store) fun moves same => volumes ⟨moves, same⟩
    refine ⟨guided.attached, ?_⟩
    simp only [Store.volume?, frame]
    exact guided.moved

/-- Whatever it is told, a call moves volumes only as it is asked to. -/
theorem volumes_guided {result : Except Failure Unit}
    (run : Run rely job (call.perform ctx).run [] s result past' s')
    (leaves : ∀ a b, rely a b → b.store.volume? id = a.store.volume? id) :
    Guided call id (s.store.volume? id) past' s'.store := by
  refine run.keeps_perform (J := Guided call id (s.store.volume? id)) ?_ ?_ ?_
  · intro past a b moves guided
    exact ⟨guided.attached, (leaves _ _ moves).symm ▸ guided.moved⟩
  · intro past r reply a b fits answers guided
    rcases Shared.store_of_answers answers with still | ⟨t, rfl, written⟩
    · exact still.symm ▸ guided.append
    rw [written]
    refine Guided.apply ?_ guided.append
    rintro moves rfl
    exact fun move mem => (fits move mem).append
  · exact ⟨fun ⟨_, no, _⟩ => absurd no List.not_mem_nil, .inl rfl⟩

theorem moves_directed {result : Except Failure Unit} {reply : Except Failure Unit}
    (run : Run rely job (call.perform ctx).run [] s result past' s')
    (mem : (⟨.transact (.moveVolumes moves), reply, store⟩ : Exchange) ∈ past')
    (own : move ∈ moves) :
    Directed call past' move := by
  have all := run.keeps_perform (J := fun past _ => ∀ moves reply before,
    (⟨.transact (.moveVolumes moves), reply, before⟩ : Exchange) ∈ past →
    ∀ move ∈ moves, Directed call past move)
    (fun _ h => h) ?_ (fun _ _ _ no => absurd no List.not_mem_nil)
  · exact all _ _ _ mem _ own
  intro past r reply a b fits answers h moves reply' before mem move own
  rcases List.mem_append.1 mem with mem | mem
  · exact (h _ _ _ mem _ own).append
  · cases List.mem_singleton.1 mem
    exact (fits move own).append

end

/-- Whatever hosts answer, a call changes no other machine, none of its items and not its entry in
the index. It changes no volume that was not attached to its machine, and none that the request does
not name. Each volume that it does change gets its pool from the request, and only a path that was
reported for this volume. -/
theorem calls_keep_to_their_own {result : Except Failure Unit}
    (run : Run rely job (call.perform ctx).run [] s result past' s') :
    (∀ w, w ≠ call.vm → LeftAlone rely (·.vm? w) s s' ∧
      LeftAlone rely (fun store => (store.itemOf? w, store.openItem? w)) s s') ∧
    (∀ id : VolumeId, (∀ volume, s.store.volume? id = some volume →
        volume.vm ≠ some call.vm ∨ call.pool? id = none) →
        LeftAlone rely (·.volume? id) s s') ∧
    (∀ id : VolumeId, (∀ a b, rely a b → b.store.volume? id = a.store.volume? id) →
      s'.store.volume? id = s.store.volume? id ∨ ∃ volume moved,
        s.store.volume? id = some volume ∧ s'.store.volume? id = some moved ∧
        Redirected call past' volume moved) ∧
    ∀ moves reply before, (⟨.transact (.moveVolumes moves), reply, before⟩ : Exchange) ∈
      past' → ∀ move ∈ moves, Directed call past' move := by
  refine ⟨fun w other => ⟨others_left_alone other run, other_work_left_alone other run⟩,
    ?_, ?_, ?_⟩
  · intro id spared leaves
    rcases (volumes_guided run leaves).moved with same | ⟨volume, moved, known, -, redirected⟩
    · exact same
    rcases spared volume known with detached | unnamed
    · exact absurd redirected.attached detached
    · rw [← Store.id_of_volume? known, redirected.pool] at unnamed
      cases unnamed
  · exact fun id leaves => (volumes_guided run leaves).moved
  · exact fun moves reply before mem move own => moves_directed run mem own

/-- The machine has a second volume. There is another machine, with a volume of its own and an
operation under way. -/
def crowded : Store := { laden with
  vms := laden.vms.insert { Vm.register ⟨2⟩ "i-2" "other" ⟨1⟩ ⟨1⟩ with
    state := .stopping, host := some ⟨5⟩ }
  volumes := (laden.volumes.insert ⟨⟨2⟩, some ⟨1⟩, "data", ⟨1⟩, none, "data", none,
    none, false⟩).insert
    ⟨⟨3⟩, some ⟨2⟩, "other", ⟨1⟩, none, "other", none, none, false⟩
  work := .ofList
    [⟨⟨0, 9⟩, ⟨2⟩, trial.node.id, .started, .stop, none, default, default⟩]
  active := .ofList [⟨⟨2⟩, ⟨0, 9⟩⟩] }

def talkative : Oracle := .smooth ⟨0, 1⟩ default fun _ =>
  .ok (.ofReply .migrateWithStorage [⟨⟨2⟩, "x"⟩, ⟨⟨3⟩, "y"⟩, ⟨⟨1⟩, "a"⟩,
    ⟨⟨1⟩, "b"⟩])

/-- While nobody else writes to the store, only the volume that the migration names comes to lie
elsewhere. -/
theorem talk_of_other_volumes_is_ignored :
    ∃ past s', Run (fun a b => b.store = a.store) 0 ((Call.migrate removal).perform trial).run []
        ⟨crowded, {}, []⟩ (.ok ()) past s' ∧
      s'.store.vm? ⟨2⟩ = crowded.vm? ⟨2⟩ ∧
      s'.store.openItem? ⟨2⟩ = some ⟨0, 9⟩ ∧
      s'.store.volume? ⟨2⟩ = crowded.volume? ⟨2⟩ ∧
      s'.store.volume? ⟨3⟩ = crowded.volume? ⟨3⟩ ∧
        ∃ moved, s'.store.volume? ⟨1⟩ = some moved ∧ moved.vm = some ⟨1⟩ ∧
          moved.pool = ⟨2⟩ ∧
        Reported ⟨1⟩ moved.path past := by
  have ends :
    ((solo? 0 talkative ((Call.migrate removal).perform trial).run [] ⟨crowded, {}, []⟩).any
      fun ended => ended.1.isOk && (ended.2.2.store.volume? ⟨1⟩).any fun moved =>
      moved.path = "b") = true := by
    decide +kernel
  obtain ⟨⟨result, past, s'⟩, migrates, ends⟩ := (Option.any_eq_true ..).1 ends
  simp only [Bool.and_eq_true] at ends
  obtain ⟨ok, ends⟩ := ends
  obtain ⟨moved, there, ends⟩ := (Option.any_eq_true ..).1 ends
  have run : Run (fun a b => b.store = a.store) 0 ((Call.migrate removal).perform trial).run []
      ⟨crowded, {}, []⟩ result past s' := run_of_solo? (fun _ => rfl) migrates
  obtain ⟨others, spared, guided, -⟩ := calls_keep_to_their_own run
  obtain ⟨record, work⟩ := others ⟨2⟩ (by decide)
  have slot := congrArg Prod.snd (work fun _ _ same => by rw [same])
  refine ⟨past, s', ?_, record fun _ _ same => by rw [same], slot, ?_, ?_, ?_⟩
  · cases result with
    | error failure => cases ok
    | ok _ => exact run
  · refine spared ⟨2⟩ ?_ fun _ _ same => by rw [same]
    exact fun _ _ => .inr (by decide)
  · refine spared ⟨3⟩ ?_ fun _ _ same => by rw [same]
    intro volume known
    cases known
    exact .inl (by decide)
  · have known : crowded.volume? ⟨1⟩ =
      some ⟨⟨1⟩, some ⟨1⟩, "root", ⟨1⟩, none, "old", none, none, false⟩ := rfl
    rcases guided ⟨1⟩ fun _ _ same => by rw [same] with
      same | ⟨volume, moved', first, there', redirected⟩
    · cases there.symm.trans (same.trans known)
      exact absurd ends (by decide)
    cases first.symm.trans known
    cases there.symm.trans there'
    refine ⟨moved, there, ?_, ?_, ?_⟩
    · rw [redirected.same]
    · have named : (Call.migrate removal).pool? ⟨1⟩ = some ⟨2⟩ := by decide
      exact Option.some.inj (redirected.pool.symm.trans named)
    · refine redirected.path.resolve_left ?_
      rw [of_decide_eq_true ends]
      decide

end Concurrent
end ControlPlane
