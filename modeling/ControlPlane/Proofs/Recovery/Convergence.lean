import ControlPlane.Proofs.Codec.Framing
import ControlPlane.Proofs.Concurrent.ContractInSystem
import ControlPlane.Proofs.Recovery.BrokenMigration
import ControlPlane.Proofs.Recovery.ScanAmongScans

/-!
# What scans of one node come to

Any number of recovery scans of one node may run in any order. In the end each item has been closed
once, its machine is at rest and has been moved at most once, and nothing else has changed.
-/

namespace ControlPlane

/-- A probe tells which host it goes to and which machine it is about. -/
theorem Agent.probe_inj {host host' : HostId} {token token' : String} {wait wait' : Span}
    (same : probe host token wait = probe host' token' wait') :
    host = host' ∧ token = token' := by
  refine ⟨congrArg Envelope.host same, ?_⟩
  have payloads : (Codec.word 8).encode _ ++ token.toUTF8.data.toList =
      (Codec.word 8).encode _ ++ token'.toUTF8.data.toList := congrArg Envelope.payload same
  have texts := List.append_inj_right payloads
    (by simp only [Codec.word, Codec.length_littleEndian])
  exact String.toByteArray_inj.1 (ByteArray.ext (Array.toList_inj.1 texts))

theorem Store.volume?_moveEach {s s' : Store} {moves : List VolumeMove}
    (h : s.moveEach moves = .ok s') (id : VolumeId) :
    (s'.volume? id).isSome = (s.volume? id).isSome := by
  induction moves generalizing s with
  | nil =>
    cases h
    rfl
  | cons move moves ih =>
    cases moved : s.moveVolume move with
    | error failure => simp [moveEach, moved, Except.bind] at h
    | ok s₁ =>
      simp only [moveEach, moved, Except.bind] at h
      rw [ih h]
      unfold moveVolume at moved
      split at moved
      · cases moved
      next pool known =>
      split at moved
      · cases moved
      next volume found =>
      cases moved
      have named : volume.id = move.volume := Id.key_injective (Table.key_of_get? found)
      simp only [volume?, Table.get?_insert]
      split
      next here =>
        have same : volume.id = id := Id.key_injective here
        have there := found
        rw [← named, same] at there
        exact (congrArg Option.isSome there).symm
      · rfl

namespace Concurrent
open Work Control Recovery Operation

def surveys : Workload Context (Except Failure Report) :=
  ⟨fun ctx => (scan ctx).run, (·.node.id)⟩

def concludes (id : Uuid) : Exchange → Bool
  | ⟨.transact (.recoverItem id' ..), closed, _⟩ => decide (id' = id) && closed
  | _ => false

def closings (id : Uuid) (jobs : List (Job Context (Except Failure Report))) : Nat :=
  (jobs.flatMap (·.past)).countP (concludes id)

namespace Scene
variable {F : Scene} {job k : Nat} {s s' : Shared} {x y : Item}
  {r : Control.Request} {reply : r.Reply}

section
variable (warrants : F.Warrants job s r) (answered : s.Answers job r reply s')
include warrants answered

/-- A scan changes the store by three kinds of transactions. -/
theorem Warrants.store (P : Store → Prop) (same : P s.store)
    (swap : ∀ u, r = .transact (.swap u) → P (s.store.swap u).2)
    (moves : ∀ moves, r = .transact (.moveVolumes moves) → P (s.store.moveVolumes moves).2)
    (recovers : ∀ id step now, r = .transact (.recoverItem id step now) →
      P (s.store.recoverItem id step now).2) : P s'.store := by
  rcases Shared.store_of_answers answered with e | ⟨t, rfl, e⟩
  · rwa [e]
  · rw [e]
    cases t with
    | swap u => exact swap u rfl
    | moveVolumes m => exact moves m rfl
    | recoverItem id step now => exact recovers id step now rfl
    | vm | host | pool | volumesOf | guestsOn | openItems => exact same
    | _ => exact warrants.elim

theorem Closed.answers (closed : F.Closed x s.store) : F.Closed x s'.store :=
  warrants.store answered (F.Closed x) closed (fun u _ => closed.apply (t := .swap u) rfl)
    (fun moves _ => closed.apply (t := .moveVolumes moves) rfl)
    fun id step now _ => closed.apply (t := .recoverItem id step now) rfl

/-- Only its own machine does a scan write to. -/
theorem Warrants.vms (v : VmId) :
    s'.store.vm? v = s.store.vm? v ∨ ∃ x vm, F.Left x ∧ x.vm = v ∧
    s.Holds job ⟨F.node, v⟩ ∧ F.store.vm? v = some vm ∧
    s'.store.vm? v = some (F.result x vm) := by
  refine warrants.store answered (fun store => store.vm? v = s.store.vm? v ∨
    ∃ x vm, F.Left x ∧ x.vm = v ∧
    s.Holds job ⟨F.node, v⟩ ∧ F.store.vm? v = some vm ∧ store.vm? v = some (F.result x vm))
    (.inl rfl) ?_ (fun moves _ => .inl ?_) fun id step now _ => .inl ?_
  · rintro u rfl
    obtain ⟨x, vm, left, holds, first, stored, about, fits, written⟩ := warrants
    rw [← about] at stored
    rw [Store.swap_matching stored fits, Store.vm?_insert, written]
    split
    next here =>
      have here : x.vm = v := by
        rw [← here, ← written, ← about]
        exact (Store.id_of_vm? stored).symm
      subst here
      exact .inr ⟨x, vm, left, rfl, holds, first, rfl⟩
    · exact .inl rfl
  · exact (Transaction.vm?_apply (.moveVolumes moves) ..).trans Option.map_id'
  · exact (Transaction.vm?_apply (.recoverItem id step now) ..).trans Option.map_id'

/-- Only an item whose machine has been settled does a scan write to. -/
theorem Warrants.item (id : Uuid) : s'.store.item? id = s.store.item? id ∨
    ∃ x now, F.Left x ∧ x.id = id ∧ r = .transact (.recoverItem x.id (F.step x) now) ∧
      ∀ vm, F.store.vm? x.vm = some vm → s.store.vm? x.vm = some (F.result x vm) := by
  refine warrants.store answered (fun store => store.item? id = s.store.item? id ∨ _) (.inl rfl)
    (fun u _ => .inl ?_) (fun moves _ => .inl ?_) ?_
  · exact Transaction.item?_frame (t := .swap u) rfl rfl
  · exact Transaction.item?_frame (t := .moveVolumes moves) rfl rfl
  · rintro id' step now rfl
    obtain ⟨x, left, rfl, rfl, settled⟩ := warrants
    by_cases own : x.id = id
    · exact .inr ⟨x, now, left, own, rfl, settled⟩
    · left
      cases stored : s.store.item? id with
      | none => exact Transaction.item?_apply_none (t := .recoverItem ..) stored (by rintro ⟨⟩)
      | some z =>
        refine (Transaction.item?_apply (t := .recoverItem ..) stored (by rintro _ ⟨⟩)).trans ?_
        refine congrArg some (if_neg fun here => own ?_)
        exact here.1.trans (Store.id_of_item? stored)

theorem Brings.answers (ready : F.Ready) (h : F.Brings s.store) : F.Brings s'.store where
  pools := by
    refine warrants.store answered (fun store => store.pools = F.store.pools) h.pools
      (fun u _ => ?_) (fun moves _ => ?_) fun id step now _ => ?_
    · exact (Transaction.pools_apply (.swap u) _).trans h.pools
    · exact (Transaction.pools_apply (.moveVolumes moves) _).trans h.pools
    · exact (Transaction.pools_apply (.recoverItem id step now) _).trans h.pools
  volumes id := by
    refine warrants.store answered
      (fun store => (store.volume? id).isSome = (F.store.volume? id).isSome)
      (h.volumes id) (fun u _ => ?_) (fun moves _ => ?_) fun id' step now _ => ?_
    · rw [← h.volumes id, Store.swap]
      split
      · rfl
      · split <;> rfl
    · rw [← h.volumes id, Store.moveVolumes]
      split
      next moved => exact Store.volume?_moveEach moved id
      · rfl
    · rw [← h.volumes id, Store.recoverItem]
      split
      · split <;> rfl
      · rfl
  vms v := by
    rcases warrants.vms answered v with same | ⟨x, vm, left, about, -, first, moved⟩
    · rw [same]
      exact h.vms v
    · exact .inr ⟨x, vm, left, about, first, moved⟩
  items id := by
    have stays : ∀ {x vm}, F.Left x → F.store.vm? x.vm = some vm →
        s.store.vm? x.vm = some (F.result x vm) → s'.store.vm? x.vm = some (F.result x vm) := by
      intro x vm left first settled
      rcases warrants.vms answered x.vm with same | ⟨y, vm', left', about, -, first', moved⟩
      · exact same.trans settled
      · obtain rfl := left'.eq_of_vm ready left about
        rw [first] at first'
        cases first'
        exact moved
    rcases warrants.item answered id with same | ⟨x, now, left, here, rfl, settled⟩
    · rcases h.items id with first | ⟨x, left, here, closed, settled⟩
      · exact .inl (same.trans first)
      · exact .inr ⟨x, left, here, closed.answers warrants answered,
          fun vm first => stays left first (settled vm first)⟩
    · refine .inr ⟨x, left, here, ?_, fun vm first => stays left first (settled vm first)⟩
      obtain ⟨-, -, rfl⟩ := answered
      exact h.closes left now

/-- An item that is open stays open, or is closed with the exchange; and it is closed only once. -/
theorem Brings.tally (h : F.Brings s.store) (left : F.Left x) :
    (s.store.item? x.id = some x ∧
      (s'.store.item? x.id = some x ∧ concludes x.id ⟨r, reply, s.store⟩ = false ∨
        F.Closed x s'.store ∧ concludes x.id ⟨r, reply, s.store⟩ = true)) ∨
      F.Closed x s.store ∧ concludes x.id ⟨r, reply, s.store⟩ = false := by
  by_cases recovers : ∃ step now, r = .transact (.recoverItem x.id step now)
  · obtain ⟨step, now, rfl⟩ := recovers
    obtain ⟨y, left', same, rfl, -⟩ := warrants
    have filed := left'.filed
    rw [same, left.filed] at filed
    obtain rfl := Option.some.inj filed
    obtain ⟨-, rfl, rfl⟩ := answered
    rcases h.item left with stored | ⟨now', closed⟩
    · refine .inl ⟨stored, .inr ⟨h.closes left now, ?_⟩⟩
      simp only [concludes, Transaction.apply,
        Store.recoverItem_open stored left.isOpen, decide_true, Bool.and_self]
    · refine .inr ⟨⟨now', closed⟩, ?_⟩
      have idle : s.store.recoverItem x.id (F.step x) now = (false, s.store) := by
        refine Store.recoverItem_idle fun z stored isOpen => ?_
        rw [closed] at stored
        obtain rfl := Option.some.inj stored
        exact step_ends x isOpen
      simp only [concludes, Transaction.apply, idle, Bool.and_false]
  · have none : concludes x.id ⟨r, reply, s.store⟩ = false := by
      unfold concludes
      split
      next id step now done before e =>
        have asks : r = .transact (.recoverItem id step now) := congrArg Exchange.request e
        have other : id ≠ x.id := by
          rintro rfl
          exact recovers ⟨step, now, asks⟩
        simp [other]
      · rfl
    rcases h.item left with stored | closed
    · rcases warrants.item answered x.id with same | ⟨y, now, -, here, asks, -⟩
      · exact .inl ⟨stored, .inl ⟨same.trans stored, none⟩⟩
      · exact absurd ⟨_, now, here ▸ asks⟩ recovers
    · exact .inr ⟨closed, none⟩

omit warrants in
/-- What anybody does with locks leaves the locks in order. -/
theorem locks_answered (sound : s.locks.Sound) (served : s.locks.Served) :
    s'.locks.Sound ∧ s'.locks.Served := by
  rcases Shared.locks_of_answers answered with e | ⟨name, -, e⟩ | ⟨name, how, -, e⟩ <;>
    rw [e]
  · exact ⟨sound, served⟩
  · exact ⟨sound.giveUp job name, served.dropWhere⟩
  · exact ⟨sound.release name how, served.release name how⟩

omit warrants in
theorem holds_answered {name : LockName} (holds : s.Holds k name) :
    s'.Holds k name ∨ ∃ how, r = .unlock name how := by
  unfold Shared.Holds
  rcases Shared.locks_of_answers answered with e | ⟨name', -, e⟩ | ⟨name', how, rfl, e⟩ <;>
    rw [e]
  · exact .inl holds
  · exact .inl (Locks.isGranted_giveUp holds)
  · by_cases same : name = name'
    · exact .inr ⟨how, same ▸ rfl⟩
    · exact .inl (Locks.isGranted_release_of_ne same holds)

theorem Warrants.wants (sound : s.locks.Sound) (other : k ≠ job) :
    s'.locks.wants k = s.locks.wants k := by
  rcases Shared.locks_of_answers answered with e | ⟨name, -, e⟩ | ⟨name, how, rfl, e⟩ <;>
    rw [e]
  · exact Locks.wants_giveUp_other other
  · exact Locks.wants_release_other sound warrants.2.1 other

omit warrants in
/-- Where a scan has asked for a lock, somebody has it. -/
theorem Warrants.sought {name : LockName} (sound : s.locks.Sound) (served : s.locks.Served)
    (warrants : F.Warrants job s r) (asks : r = .lock name) : ∃ i, s'.Holds i name := by
  subst asks
  cases reply with
  | true =>
    obtain ⟨holds, rfl⟩ := answered
    exact ⟨job, holds⟩
  | false =>
    obtain ⟨-, rfl⟩ := answered
    have wanted : name ∈ s.locks.wants job := by
      rw [show s.locks.wants job = [name] from warrants]
      exact List.mem_singleton_self name
    obtain ⟨holder, holds⟩ := served.held sound wanted
    exact ⟨holder, Locks.isGranted_giveUp holds⟩

/-- What a scan does, as another scan sees it. -/
theorem Warrants.leaves (sound : s.locks.Sound) (other : k ≠ job) (many : ¬ F.alone) :
    F.Leaves k s s' where
  wants := warrants.wants answered sound other
  holds holds := by
    refine (holds_answered answered holds).resolve_right ?_
    rintro ⟨how, rfl⟩
    exact other (sound.exclusive holds warrants.2.1)
  vms {v} holds := by
    rcases warrants.vms answered v with same | ⟨x, vm, -, -, mine, -⟩
    · exact same
    · exact absurd (sound.exclusive holds mine) other
  closed _ closed := closed.answers warrants answered
  alone alone := absurd alone many

end

/-- All jobs are scans of the node, and hosts answer them as they have machines on. -/
structure Fair (F : Scene) (sys : System Context (Except Failure Report)) : Prop where
  own : ∀ job ∈ sys.jobs, job.task.node.id = F.node
  agrees : ∀ job ∈ sys.jobs, ∀ e ∈ job.past, F.Agrees e
  alone : F.alone → sys.jobs.length ≤ 1

abbrev Surveys (F : Scene) (job : Job Context (Except Failure Report)) (s : Shared) : Prop :=
  Adheres (F.surveying job.number) (F.Attains (F.Roves job.number [])) job s

/-- How far the scans have come. While an item is open, somebody has the lock of its machine, or
nobody has asked for it yet. -/
structure Meets (F : Scene) (sys : System Context (Except Failure Report)) : Prop where
  brings : F.Brings sys.shared.store
  sound : sys.shared.locks.Sound
  served : sys.shared.locks.Served
  numbered : sys.Numbered
  jobs : ∀ job ∈ sys.jobs, F.Surveys job sys.shared
  manned : ∀ k, sys.shared.locks.wants k ≠ [] → ∃ job ∈ sys.jobs, job.number = k
  fresh : sys.jobs = [] → sys.shared.store = F.store
  cared : ∀ x, F.Left x → F.Closed x sys.shared.store ∨
    (∃ k, sys.shared.Holds k ⟨F.node, x.vm⟩) ∨
    ∀ job ∈ sys.jobs, ¬ Sought ⟨F.node, x.vm⟩ job.past
  once : ∀ x, F.Left x → sys.shared.store.item? x.id = some x ∧ closings x.id sys.jobs = 0 ∨
    F.Closed x sys.shared.store ∧ closings x.id sys.jobs = 1

variable {sys sys' : System Context (Except Failure Report)}
  {before after : List (Job Context (Except Failure Report))}
  {mover moved : Job Context (Except Failure Report)}
  {rest : r.Reply → Program surroundings (Except Failure Report)} {ctx : Context}

theorem Fair.only (fair : F.Fair sys) (alone : F.alone)
    {job other : Job Context (Except Failure Report)} (mem : job ∈ sys.jobs)
    (mem' : other ∈ sys.jobs) : job = other := by
  have short := fair.alone alone
  rcases jobs : sys.jobs with _ | ⟨a, _ | ⟨b, rest⟩⟩ <;> rw [jobs] at mem mem' short
  · cases mem
  · rw [List.mem_singleton.1 mem, List.mem_singleton.1 mem']
  · exact absurd short (by simp)

theorem stable_attains (result : Except Failure Report) :
    Stable (F.surveying job) (F.Attains (F.Roves job []) result) := by
  intro past s s' rely inv h all
  cases result with
  | ok report => exact stable_roves rely inv (h all)
  | error failure => exact h all

theorem Meets.start : F.Meets (.start F.store) where
  brings := ⟨rfl, fun _ => rfl, fun _ => .inl rfl, fun _ => .inl rfl⟩
  sound := Locks.sound_empty
  served := Locks.served_empty
  numbered := .start _
  jobs _ mem := absurd mem List.not_mem_nil
  manned _ wanted := absurd rfl wanted
  fresh _ := rfl
  cared _ _ := .inr (.inr fun _ mem => absurd mem List.not_mem_nil)
  once _ left := .inl ⟨left.filed, rfl⟩

theorem Meets.launch (ready : F.Ready) (h : F.Meets sys) (fair : F.Fair (sys.launch surveys ctx)) :
    F.Meets (sys.launch surveys ctx) where
  brings := h.brings
  sound := h.sound
  served := h.served
  numbered := h.numbered.step (.launch sys ctx)
  jobs job mem := by
    rcases List.mem_cons.1 mem with rfl | mem
    · refine ⟨fun _ => roves_scan ready (fair.own _ List.mem_cons_self) ?_ fun alone =>
        h.fresh ?_, nofun⟩
      · by_contra wanted
        obtain ⟨job, mem, here⟩ := h.manned _ wanted
        exact absurd here (Nat.ne_of_lt (h.numbered.below job mem))
      · exact List.length_eq_zero_iff.1 (Nat.le_zero.1 (Nat.le_of_succ_le_succ (fair.alone alone)))
    · exact h.jobs job mem
  manned k wanted := by
    obtain ⟨job, mem, here⟩ := h.manned k wanted
    exact ⟨job, List.mem_cons_of_mem _ mem, here⟩
  fresh none := absurd none (List.cons_ne_nil _ _)
  cared x left := by
    rcases h.cared x left with closed | held | unasked
    · exact .inl closed
    · exact .inr (.inl held)
    · refine .inr (.inr fun job mem => ?_)
      rcases List.mem_cons.1 mem with rfl | mem
      · rintro ⟨_, ⟨⟩, -⟩
      · exact unasked job mem
  once x left := by
    have same : closings x.id (sys.launch surveys ctx).jobs = closings x.id sys.jobs := by
      simp [closings, System.launch]
    rw [same]
    exact h.once x left

theorem Meets.advance (h : F.Meets sys) (fair : F.Fair sys) (advance : Advance sys sys' mover moved)
    (brings : F.Brings sys'.shared.store)
    (leaves : ∀ k, k ≠ mover.number → ¬ F.alone → F.Leaves k sys.shared sys'.shared) :
    ∀ job ∈ sys'.jobs, F.Surveys job sys'.shared := by
  intro job mem
  rcases advance.kept mem with rfl | mem'
  · have goes := (advance.adheres rfl h.brings (h.jobs mover advance.mem.1)).2
    rwa [← advance.number] at goes
  · have ne := advance.bystander h.numbered mem' mem
    refine (h.jobs job mem').of_rely stable_attains (leaves _ ne fun alone => ne ?_) brings
    exact congrArg Job.number (fair.only alone mem' advance.mem.1)

section
variable (asks : mover.program = .ask r rest)
include asks

theorem Meets.make (h : F.Meets ⟨s, before ++ mover :: after, k⟩)
    (fair : F.Fair ⟨s, before ++ mover :: after, k⟩) (idle : mover.waits = false) :
    F.Meets ⟨s.enter mover.number r, before ++ { mover with waits := true } :: after, k⟩ := by
  have advance : Advance ⟨s, before ++ mover :: after, k⟩ _ mover
    { mover with waits := true } :=
    .made asks idle
  have store : (s.enter mover.number r).store = s.store := by cases r <;> rfl
  have locks : (s.enter mover.number r).locks.Sound ∧ (s.enter mover.number r).locks.Served := by
    cases r with
    | lock name => exact ⟨h.sound.claim _ name, h.served.claim _ name⟩
    | _ => exact ⟨h.sound, h.served⟩
  have holds : ∀ {i name}, s.Holds i name → (s.enter mover.number r).Holds i name := by
    intro i name holds
    cases r with
    | lock name => exact Locks.isGranted_claim holds
    | _ => exact holds
  have wants : ∀ i, i ≠ mover.number →
    (s.enter mover.number r).locks.wants i = s.locks.wants i := by
    intro i other
    cases r with
    | lock name => exact Locks.wants_claim.trans (if_neg other.symm)
    | _ => rfl
  have tasks : ∀ {P : List Exchange → Prop},
    (∀ job ∈ before ++ mover :: after, P job.past) →
      ∀ job ∈ before ++ { mover with waits := true } :: after, P job.past := by
    intro P all job mem
    rcases mem_replaced mem with rfl | mem
    · exact all mover advance.mem.1
    · exact all job mem
  refine ⟨store ▸ h.brings, locks.1, locks.2, advance.numbered h.numbered, ?_, ?_, ?_, ?_, ?_⟩
  · refine h.advance fair advance (store ▸ h.brings) fun i other _ =>
      ⟨wants i other, holds, fun _ => ?_,
        fun _ closed => ?_, fun _ => store⟩
    · exact congrArg (Store.vm? · _) store
    · exact store ▸ closed
  · intro i wanted
    by_cases mine : i = mover.number
    · exact ⟨_, advance.mem.2, mine.symm⟩
    · obtain ⟨job, mem, here⟩ := h.manned i (wants i mine ▸ wanted)
      refine ⟨job, mem_replaced_of_ne mem ?_, here⟩
      rintro rfl
      exact mine here.symm
  · exact fun none => absurd none (by simp)
  · intro x left
    rcases h.cared x left with closed | ⟨i, held⟩ | unasked
    · exact .inl (store ▸ closed)
    · exact .inr (.inl ⟨i, holds held⟩)
    · exact .inr (.inr (tasks (P := fun past => ¬ Sought ⟨F.node, x.vm⟩ past) unasked))
  · intro x left
    have same : closings x.id (before ++ { mover with waits := true } :: after) =
        closings x.id (before ++ mover :: after) := by simp [closings]
    rw [same, store]
    exact h.once x left

theorem Meets.answer (ready : F.Ready) (h : F.Meets ⟨s, before ++ mover :: after, k⟩)
    (fair : F.Fair ⟨s, before ++ mover :: after, k⟩) (waits : mover.waits = true)
    (answered : s.Answers mover.number r reply s') :
    F.Meets ⟨s', before ++ mover.resume r reply s.store (rest reply) :: after, k⟩ := by
  have advance : Advance ⟨s, before ++ mover :: after, k⟩ _ mover
      (mover.resume r reply s.store (rest reply)) := .answered asks waits answered
  have warrants : F.Warrants mover.number s r :=
    (h.jobs mover advance.mem.1).fit h.brings waits asks (fair.agrees mover advance.mem.1)
  have brings := h.brings.answers warrants answered ready
  have locks := locks_answered answered h.sound h.served
  refine ⟨brings, locks.1, locks.2, advance.numbered h.numbered, ?_, ?_, ?_, ?_, ?_⟩
  · exact h.advance fair advance brings fun i other many =>
      warrants.leaves answered h.sound other many
  · intro i wanted
    by_cases mine : i = mover.number
    · exact ⟨_, advance.mem.2, mine.symm⟩
    · obtain ⟨job, mem, here⟩ := h.manned i (warrants.wants answered h.sound mine ▸ wanted)
      refine ⟨job, mem_replaced_of_ne mem ?_, here⟩
      rintro rfl
      exact mine here.symm
  · exact fun none => absurd none (by simp)
  · intro x left
    rcases h.cared x left with closed | ⟨i, held⟩ | unasked
    · exact .inl (closed.answers warrants answered)
    · rcases holds_answered answered held with held | ⟨how, rfl⟩
      · exact .inr (.inl ⟨i, held⟩)
      · exact .inl ((warrants.2.2 x left rfl).answers warrants answered)
    · by_cases asked : r = .lock ⟨F.node, x.vm⟩
      · exact .inr (.inl (warrants.sought answered h.sound h.served asked))
      · refine .inr (.inr fun job mem => ?_)
        rcases mem_replaced mem with rfl | mem
        · rintro ⟨e, mem, seeks⟩
          rcases List.mem_append.1 mem with mem | mem
          · exact unasked mover advance.mem.1 ⟨e, mem, seeks⟩
          · rw [List.mem_singleton.1 mem] at seeks
            exact asked seeks
        · exact unasked job mem
  · intro x left
    have count : closings x.id (before ++ mover.resume r reply s.store (rest reply) :: after) =
        closings x.id (before ++ mover :: after) +
          if concludes x.id ⟨r, reply, s.store⟩ then 1 else 0 := by
      simp only [closings, List.flatMap_append, List.flatMap_cons, Job.resume, List.countP_append,
        List.countP_singleton]
      omega
    rw [count]
    rcases h.brings.tally warrants answered left with ⟨stored, ends⟩ | ⟨closed, none⟩
    · have none := (h.once x left).resolve_right fun done => left.not_closed stored done.1
      rcases ends with ⟨stored, goes⟩ | ⟨closed, ends⟩
      · exact .inl ⟨stored, by rw [none.2, goes]; rfl⟩
      · exact .inr ⟨closed, by rw [none.2, ends]; rfl⟩
    · have one := (h.once x left).resolve_left fun stored => left.not_closed stored.1 closed
      exact .inr ⟨closed.answers warrants answered, by rw [one.2, none]; rfl⟩

end

theorem Fair.replaced (fair : F.Fair ⟨s, before ++ mover :: after, k⟩)
    (task : moved.task = mover.task)
    (past : ∀ e ∈ moved.past, e ∈ mover.past ∨ F.Agrees e) :
    F.Fair ⟨s', before ++ moved :: after, k⟩ where
  own job mem := by
    rcases mem_replaced mem with rfl | mem
    · rw [task]
      exact fair.own mover (by simp)
    · exact fair.own job mem
  agrees job mem := by
    rcases mem_replaced mem with rfl | mem
    · exact fun e mem => (past e mem).elim (fair.agrees mover (by simp) e) id
    · exact fair.agrees job mem
  alone alone := by simpa using fair.alone alone

/-- What is so for all that scans have seen was so before. -/
theorem Fair.of_step (fair : F.Fair sys') (step : Step surveys sys sys') : F.Fair sys := by
  cases step with
  | launch _ ctx =>
    refine ⟨fun job mem => fair.own job (List.mem_cons_of_mem _ mem),
      fun job mem => fair.agrees job (List.mem_cons_of_mem _ mem), fun alone => ?_⟩
    exact Nat.le_of_succ_le (fair.alone alone)
  | make s before after k job asks idle => exact fair.replaced rfl fun _ mem => .inl mem
  | answer s s' before after k job reply asks waits answers =>
    exact fair.replaced rfl fun _ mem => .inl (List.mem_append_left _ mem)

theorem Meets.runs (ready : F.Ready) (run : Runs surveys (.start F.store) sys) (fair : F.Fair sys) :
    F.Meets sys := by
  induction run with
  | refl => exact .start
  | tail _ step ih =>
    have before := fair.of_step step
    have h := ih before
    cases step with
    | launch _ ctx => exact h.launch ready fair
    | make s before' after k job asks idle => exact h.make asks before idle
    | answer s s' before' after k job reply asks waits answers =>
      exact h.answer asks ready before waits answers

/-- A host can answer as it has a machine on. -/
theorem replies_exist (F : Scene) (envelope : Agent.Envelope) :
    ∃ answer, F.Replies envelope answer := by
  by_cases probes : ∃ host token wait, envelope = Agent.probe host token wait
  · obtain ⟨host, token, wait, rfl⟩ := probes
    cases power : F.on host token with
    | true =>
      refine ⟨.ok (.ofReply .checkState .on), fun host' token' wait' same => ?_⟩
      obtain ⟨rfl, rfl⟩ := Agent.probe_inj same
      rw [power]
      rfl
    | false =>
      refine ⟨.ok (.refusal ""), fun host' token' wait' same => ?_⟩
      obtain ⟨rfl, rfl⟩ := Agent.probe_inj same
      rw [power]
      rfl
  · exact ⟨.ok (.refusal ""), fun host token wait same => absurd ⟨host, token,
      wait, same⟩ probes⟩

/-- Every request of a scan can be answered, and hosts can answer as they have machines on. -/
theorem Warrants.answered (ready : F.Ready) (warrants : F.Warrants job s r) :
    ∃ reply s', s.Answers job r reply s' ∧ F.Agrees ⟨r, reply, s.store⟩ := by
  cases r with
  | transact t =>
    refine ⟨_, _, ⟨?_, rfl, rfl⟩, trivial⟩
    cases t with
    | swap u =>
      obtain ⟨x, vm, left, -, first, stored, about, -⟩ := warrants
      intro vm' stored' _
      rw [about, stored] at stored'
      rw [← Option.some.inj stored']
      exact ready.bounded first
    | _ => trivial
  | lock name =>
    by_cases holds : s.Holds job name
    · exact ⟨true, s, ⟨holds, rfl⟩, trivial⟩
    · exact ⟨false, _, ⟨holds, rfl⟩, trivial⟩
  | freshId => exact warrants.elim
  | send envelope =>
    obtain ⟨answer, replies⟩ := F.replies_exist envelope
    exact ⟨answer, s, rfl, replies⟩
  | sendBoth first second =>
    obtain ⟨answer, replies⟩ := F.replies_exist first
    obtain ⟨answer', replies'⟩ := F.replies_exist second
    exact ⟨(answer, answer'), s, rfl, replies, replies'⟩
  | unlock name how => exact ⟨(), _, rfl, trivial⟩
  | pass point => exact ⟨.ok (), s, ⟨rfl, rfl⟩, trivial⟩
  | _ => exact ⟨Oracle.silent _, s, rfl, trivial⟩

theorem lively (ready : F.Ready) : Lively fun sys => F.Meets sys ∧ F.Fair sys where
  make h asks idle := ⟨h.1.make asks h.2 idle, h.2.replaced rfl fun _ mem => .inl mem⟩
  answer := by
    rintro s before after k job r rest ⟨h, fair⟩ asks waits
    have warrants : F.Warrants job.number s r :=
      (h.jobs job (by simp)).fit h.brings waits asks (fair.agrees job (by simp))
    obtain ⟨reply, s', answers, agrees⟩ := warrants.answered ready
    refine ⟨reply, s', answers, h.answer asks ready fair waits answers,
      fair.replaced rfl fun e mem => ?_⟩
    rcases List.mem_append.1 mem with mem | mem
    · exact .inl mem
    · exact .inr (List.mem_singleton.1 mem ▸ agrees)

theorem Meets.ended (h : F.Meets sys) (fair : F.Fair sys) (mem : mover ∈ sys.jobs)
    (done : ∃ result, mover.program = .done result) :
    F.Roves mover.number [] mover.past sys.shared := by
  obtain ⟨result, done⟩ := done
  obtain ⟨goes, awaits⟩ := h.jobs mover mem
  have idle : mover.waits = false := by
    by_contra waits
    have no := awaits (by simpa using waits)
    rw [done] at no
    exact no
  have safe := goes idle
  rw [done] at safe
  cases result with
  | ok report => exact safe (fair.agrees mover mem)
  | error failure => exact (safe (fair.agrees mover mem)).elim

theorem Meets.closed (h : F.Meets sys) (fair : F.Fair sys) (ended : sys.Over)
    (some_job : sys.jobs ≠ []) {x : Item} (left : F.Left x) : F.Closed x sys.shared.store := by
  rcases h.cared x left with closed | ⟨i, held⟩ | unasked
  · exact closed
  · obtain ⟨job, mem, rfl⟩ := h.manned i (List.ne_nil_of_mem (Locks.mem_wants held))
    have roves := h.ended fair mem (ended job mem)
    have wanted := Locks.mem_wants held
    rw [roves.wants] at wanted
    cases wanted
  · obtain ⟨job, mem⟩ := List.exists_mem_of_ne_nil _ some_job
    rcases (h.ended fair mem (ended job mem)).tours.heeds x left with ahead | closed | sought
    · cases ahead
    · exact closed
    · exact absurd sought (unasked job mem)

/-- What the scans have come to, once they are over. -/
structure Converged (F : Scene) (sys : System Context (Except Failure Report)) : Prop where
  /-- Every open item of the node has been closed, and only once. -/
  closed : ∀ x, F.Left x → F.Closed x sys.shared.store ∧ closings x.id sys.jobs = 1
  /-- No machine of such an item is in motion. -/
  rests : ∀ x vm, F.Left x → sys.shared.store.vm? x.vm = some vm → ¬ vm.state.InMotion
  /-- A machine is as it was, or it is one of such an item, and one transition has moved it. -/
  moved : ∀ v, sys.shared.store.vm? v = F.store.vm? v ∨
    ∃ x vm, ∃ t : Transition, ∃ u : StateUpdate, F.Left x ∧ x.vm = v ∧
    F.store.vm? v = some vm ∧ t.check vm = .ok u ∧ sys.shared.store.vm? v = some (u.apply vm)
  /-- All other items are as they were. -/
  others : ∀ id, (∀ x, F.Left x → x.id ≠ id) →
    sys.shared.store.item? id = F.store.item? id
  /-- Scans that follow change nothing. -/
  further : ∀ sys', Runs surveys sys sys' →
    (∀ job ∈ sys'.jobs, job.task.node.id = F.node) → sys'.shared.store = sys.shared.store

/-- A scan that finds no open items is over at once. -/
theorem scans_idle (none : sys.shared.store.openItems F.node = []) (ended : sys.Over)
    (run : Runs surveys sys sys') (own : ∀ job ∈ sys'.jobs, job.task.node.id = F.node) :
    sys'.shared.store = sys.shared.store ∧ ∀ job ∈ sys'.jobs,
      (∃ result, job.program = .done result) ∨ job.program = surveys.program job.task := by
  induction run with
  | refl => exact ⟨rfl, fun job mem => .inl (ended job mem)⟩
  | tail _ step ih =>
    obtain ⟨same, goes⟩ := ih fun job mem => by
      obtain ⟨job', mem', task⟩ := step.keeps mem
      exact task ▸ own job' mem'
    cases step with
    | launch _ ctx =>
      refine ⟨same, fun job mem => ?_⟩
      rcases List.mem_cons.1 mem with rfl | mem
      · exact .inr rfl
      · exact goes job mem
    | make s before after k job asks idle =>
      refine ⟨?_, fun other mem => ?_⟩
      · rw [← same]
        cases ‹Control.Request› <;> rfl
      · rcases mem_replaced mem with rfl | mem
        · exact goes job (by simp)
        · exact goes other mem
    | @answer s s' before after k job r rest reply asks waits answers =>
      have mem : job ∈ before ++ job :: after := by simp
      rcases goes job mem with ⟨result, done⟩ | begins
      · rw [done] at asks
        cases asks
      have node : job.task.node.id = F.node :=
        own (job.resume r reply s.store (rest reply)) (by simp)
      have first : surveys.program job.task = .ask (.transact (.openItems F.node))
          fun items => (visitAll job.task items).run := node ▸ rfl
      rw [begins, first] at asks
      cases asks
      obtain ⟨-, rfl, rfl⟩ := answers
      refine ⟨same, fun other mem' => ?_⟩
      rcases mem_replaced mem' with rfl | mem'
      · have none : ((Transaction.openItems F.node).apply s.store).1 = [] := by
          simp only [Transaction.apply]
          rw [same]
          exact none
        refine .inl ⟨.ok {}, ?_⟩
        simp only [Job.resume, none]
        rfl
      · exact goes other mem'

theorem Meets.converged (ready : F.Ready) (h : F.Meets sys) (fair : F.Fair sys) (ended : sys.Over)
    (some_job : sys.jobs ≠ []) : F.Converged sys where
  closed x left := by
    have closed := h.closed fair ended some_job left
    exact ⟨closed, ((h.once x left).resolve_left fun stored =>
      left.not_closed stored.1 closed).2⟩
  rests x vm left stored := by
    have closed := h.closed fair ended some_job left
    rcases h.brings.items x.id with same | ⟨y, left', same, -, settled⟩
    · exact absurd closed (left.not_closed (same.trans left.filed))
    · have filed := left'.filed
      rw [same, left.filed] at filed
      obtain rfl := Option.some.inj filed
      rcases h.brings.known ready left with kept | ⟨first, there, -⟩
      · have there := kept.symm.trans stored
        have e := (settled vm there).symm.trans stored
        rw [← Option.some.inj e]
        exact restored_rests (ready.placed there) (ready.behind left there)
      · have e := (settled first there).symm.trans stored
        rw [← Option.some.inj e]
        exact restored_rests (ready.placed there) (ready.behind left there)
  moved v := by
    rcases h.brings.vms v with same | ⟨x, vm, left, about, first, moved⟩
    · exact .inl same
    · cases call : calls? (F.on · vm.token) x vm with
      | none =>
        rw [result, restored_of_none call] at moved
        exact .inl (moved.trans first.symm)
      | some event =>
        obtain ⟨u, checked, e, -⟩ := restored_of_calls call
        exact .inr ⟨x, vm, _, u, left, about, first, checked, moved.trans (congrArg some e)⟩
  others id none := by
    rcases h.brings.items id with same | ⟨x, left, here, -⟩
    · exact same
    · exact absurd here (none x left)
  further sys' run own := by
    refine (scans_idle ?_ ended run own).1
    refine List.eq_nil_iff_forall_not_mem.2 fun x mem => ?_
    have left := h.brings.left mem
    exact left.not_closed (Store.mem_openItems mem).1 (h.closed fair ended some_job left)

end Scene

/-- Any number of recovery scans of one node, whose hosts give every scan the same answers, can come
to their ends. Once they have, each item that was open has been closed by one of them, and its
machine is at rest; a machine has been moved at most once; and nothing is left to do for other
scans. -/
theorem scans_converge {F : Scene} {sys : System Context (Except Failure Report)} (ready : F.Ready)
    (run : Runs surveys (.start F.store) sys) (fair : F.Fair sys) :
    (∃ sys', Runs surveys sys sys' ∧ F.Fair sys' ∧
      sys'.jobs.map (·.task) = sys.jobs.map (·.task) ∧ sys'.Over) ∧
      (sys.Over → sys.jobs ≠ [] → F.Converged sys) := by
  have h := Scene.Meets.runs ready run fair
  refine ⟨?_, fun ended some_job => h.converged ready fair ended some_job⟩
  obtain ⟨sys', run', ⟨-, fair'⟩, tasks, ended⟩ :=
    (Scene.lively ready).finish_all ⟨h, fair⟩
  exact ⟨sys', run', fair', tasks, ended⟩

/-- A machine that migrates from the first of two hosts to the second, and an item of a machine that
is not there. -/
def orphaned : Store where
  vms := .ofList
    [{ Vm.register ⟨1⟩ "i-1" "guest" ⟨1⟩ ⟨1⟩ with
      state := .migrating, host := some ⟨5⟩, version := 3 }]
  work := .ofList [
    ⟨⟨0, 1⟩, ⟨1⟩, ⟨1⟩, .started, .migrate,
      some ⟨⟨1⟩, ⟨5⟩, ⟨6⟩, ∅, false⟩, .epoch, .epoch⟩,
    ⟨⟨0, 2⟩, ⟨2⟩, ⟨1⟩, .started, .stop, none, .epoch, .epoch⟩]
  active := .ofList [⟨⟨1⟩, ⟨0, 1⟩⟩, ⟨⟨2⟩, ⟨0, 2⟩⟩]

def crossed : Scene := ⟨orphaned, ⟨1⟩, fun host _ => host = ⟨6⟩, False⟩

/-- Both scans have listed the items when the first one begins with them. The second one waits for
the lock of the machine that migrates. -/
def twoScans : List (Turn Context) :=
  [.launch trial, .launch trial] ++ advance 0 1 settled ++ advance 1 1 settled ++
    [.make 0, .make 1, .answer 0 settled] ++ advance 0 13 settled ++ [.answer 1 settled] ++
    advance 1 10 settled

def confirmed : Exchange → Bool
  | ⟨.send e, answer, _⟩ =>
    known? (Agent.powerOf e.host answer) = some (bif e.host = ⟨6⟩ then .on else .off)
  | ⟨.sendBoth e e', answers, _⟩ =>
    known? (Agent.powerOf e.host answers.1) = some (bif e.host = ⟨6⟩ then .on else .off) &&
      known? (Agent.powerOf e'.host answers.2) = some (bif e'.host = ⟨6⟩ then .on else .off)
  | _ => true

theorem agrees_of_confirmed {e : Exchange} (h : confirmed e = true) : crossed.Agrees e := by
  obtain ⟨r, reply, before⟩ := e
  have replies : ∀ {envelope answer}, known? (Agent.powerOf envelope.host answer) =
      some (bif envelope.host = ⟨6⟩ then .on else .off) →
      crossed.Replies envelope answer := by
    rintro _ answer h host token wait rfl
    exact h
  cases r with
  | send envelope => exact replies (of_decide_eq_true h)
  | sendBoth first second =>
    simp only [confirmed, Bool.and_eq_true, decide_eq_true_eq] at h
    exact ⟨replies h.1, replies h.2⟩
  | _ => trivial

theorem crossed_ready : crossed.Ready where
  indexed := by
    intro v id x stored here _
    rw [← here, ← Store.id_of_item? stored]
    exact (by decide : ∀ x ∈ orphaned.work.rows, orphaned.openItem? x.vm = some x.id) x
      (Table.mem_of_get? stored)
  placed stored :=
    (by unfold Vm.Placed; decide : ∀ vm ∈ orphaned.vms.rows, vm.Placed) _
      (Table.mem_of_get? stored)
  bounded stored :=
    (by decide : ∀ vm ∈ orphaned.vms.rows, vm.version.toNat + 1 < UInt64.size) _
      (Table.mem_of_get? stored)
  backed {x plan} left planned := by
    have none : plan.volumes.rows = [] :=
      (by decide : ∀ x ∈ orphaned.work.rows, ∀ plan ∈ x.plan, plan.volumes.rows = []) x
        (Table.mem_of_get? left.filed) plan planned
    rw [none]
    exact fun _ => nofun
  behind {x vm} left stored plan planned _ there :=
    absurd there
      ((by decide : ∀ vm ∈ orphaned.vms.rows, ∀ x ∈ orphaned.work.rows, ∀ plan ∈ x.plan,
        vm.host ≠ some plan.destination) vm (Table.mem_of_get? stored) x
          (Table.mem_of_get? left.filed) plan planned)
  homed {x vm} _ _ stored plan host _ state := by
    have migrates : vm.state = .migrating :=
      (by decide : ∀ vm ∈ orphaned.vms.rows, vm.state = .migrating) vm
        (Table.mem_of_get? stored)
    rw [migrates] at state
    rcases state with state | state <;> cases state

theorem crossed_scans_converge :
    ∃ sys, play? surveys (.start orphaned) twoScans = some sys ∧ sys.jobs.length = 2 ∧
      crossed.Fair sys ∧ crossed.Converged sys ∧
      (sys.shared.store.vm? ⟨1⟩).any fun vm =>
        vm.state = .running ∧ vm.host = some ⟨6⟩ ∧ vm.version = 4 := by
  have ends : ((play? surveys (.start orphaned) twoScans).any fun sys =>
      sys.jobs.length = 2 ∧ sys.Over ∧ (∀ job ∈ sys.jobs, job.task.node.id = ⟨1⟩) ∧
        (∀ job ∈ sys.jobs, ∀ e ∈ job.past, confirmed e = true) ∧
        ((sys.shared.store.vm? ⟨1⟩).any fun vm =>
          vm.state = .running ∧ vm.host = some ⟨6⟩ ∧ vm.version = 4) = true) = true := by
            decide +kernel
  obtain ⟨sys, played, ends⟩ := (Option.any_eq_true ..).1 ends
  obtain ⟨two, ended, own, confirms, moved⟩ := of_decide_eq_true ends
  have fair : crossed.Fair sys :=
    ⟨own, fun job mem e seen => agrees_of_confirmed (confirms job mem e seen), False.elim⟩
  have converged := (scans_converge crossed_ready (runs_of_play? played) fair).2 ended
    (List.ne_nil_of_length_eq_add_one two)
  exact ⟨sys, played, two, fair, converged, moved⟩

end Concurrent
end ControlPlane
