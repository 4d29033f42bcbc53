import ControlPlane.Proofs.Concurrent.MachineInMotion

/-!
# The discipline of jobs

What every job keeps to, whatever it is about. It takes no lock from others, and it changes an item
only under the lock of its machine. It sends a machine on its way only under an open item of its
own, and it closes an item only if the machine stands still.
-/

namespace ControlPlane.Concurrent
open Work

/-- A record after a step of a job: its lifecycle is as before, or one version on; and the job has
sent the machine on its way only under an item of its own. -/
def Moves (job : Nat) (s : Shared) (vm vm' : Vm) : Prop :=
  vm'.state = vm.state ∧ vm'.host = vm.host ∧ vm'.version = vm.version ∨
    vm'.version.toNat = vm.version.toNat + 1 ∧
      (vm'.state.InMotion → ∃ x, x.vm = vm.id ∧ s.store.Covers x ∧ s.Drew job x.id ∧
        s.Holds job ⟨x.owner, vm.id⟩)

structure Edits (job : Nat) (s : Shared) (x x' : Item) : Prop where
  vm : x'.vm = x.vm
  owner : x'.owner = x.owner
  closed : x'.Open → x.Open
  locked : x' = x ∨ s.Holds job ⟨x.owner, x.vm⟩
  plan : x'.plan = x.plan ∨ s.Drew job x.id

/-- A step of a job, as others see it. -/
structure Acts (job : Nat) (s s' : Shared) : Prop where
  holds : ∀ {k name}, k ≠ job → s.Holds k name → s'.Holds k name
  drew : ∀ {k id}, s.Drew k id → s'.Drew k id
  draws : ∀ {k id}, k ≠ job → s'.Drew k id → s.Drew k id
  vm : ∀ {v vm}, s.store.vm? v = some vm →
    ∃ vm', s'.store.vm? v = some vm' ∧ Moves job s vm vm'
  missing : ∀ {v}, s.store.vm? v = none → s'.store.vm? v = none
  item : ∀ {id x}, s.store.item? id = some x →
    ∃ x', s'.store.item? id = some x' ∧ Edits job s x x'
  unknown : ∀ {id}, s.store.item? id = none → s'.store.item? id = none ∨ s.Drew job id
  slot : ∀ {x}, s.store.Covers x → s'.store.openItem? x.vm = some x.id ∨
    s.Holds job ⟨x.owner, x.vm⟩
  opened : ∀ {v id}, s'.store.openItem? v = some id →
    s.store.openItem? v = some id ∨ s.store.item? id = none
  /-- A job that leaves its item open does not let go of a machine that migrates. -/
  release : ∀ {x}, s'.store.Covers x → s.Drew job x.id → s.Holds job ⟨x.owner, x.vm⟩ →
    s'.Holds job ⟨x.owner, x.vm⟩ ∨ Lingers x.vm s'

def Due (job : Nat) (s : Shared) : Transaction → Prop
  | .swap u => u.state.InMotion → ∃ x, x.vm = u.vm ∧ s.store.Covers x ∧ s.Drew job x.id ∧
      s.Holds job ⟨x.owner, u.vm⟩ ∧ (u.state = .migrating → Leads x u.host)
  | .openItem item => s.Drew job item.id ∧ s.store.item? item.id = none
  | .closeItem item step _ => step ≠ .started ∧ ∃ x, s.store.item? item.id = some x ∧
      s.Holds job ⟨x.owner, x.vm⟩ ∧ (s.store.Covers x → Still x.vm s)
  | .planItem item _ _ => s.Drew job item.id ∧ ∃ x, s.store.item? item.id = some x ∧
      s.Holds job ⟨x.owner, x.vm⟩ ∧ (s.store.Covers x → Lingers x.vm s)
  | .recoverItem id step _ => step ≠ .started ∧ ∀ x, s.store.item? id = some x → x.Open →
      s.Holds job ⟨x.owner, x.vm⟩ ∧ (s.store.Covers x → Still x.vm s)
  | _ => True

variable {job : Nat} {s s' : Shared} {t : Transaction}

theorem Edits.refl (x : Item) : Edits job s x x := ⟨rfl, rfl, id, .inl rfl, .inl rfl⟩

theorem Moves.refl (vm : Vm) : Moves job s vm vm := .inl ⟨rfl, rfl, rfl⟩

theorem onVm_cases (t : Transaction) (vm : Vm) :
    (t.onVm vm).state = vm.state ∧ (t.onVm vm).host = vm.host ∧
      (t.onVm vm).version = vm.version ∨ ∃ u, t = .swap u ∧ u.vm = vm.id ∧ u.Matches vm ∧
        t.onVm vm = u.apply vm := by
  rcases t.onVm_course vm with same | swapped
  · exact .inl ⟨congrArg Course.state same, congrArg Course.host same,
      congrArg Course.version same⟩
  · exact .inr swapped

theorem Due.moves (due : Due job s t) (carries : Carries s.store t) {v : VmId} {vm : Vm}
    (stored : s.store.vm? v = some vm) : Moves job s vm (t.onVm vm) := by
  rcases onVm_cases t vm with same | ⟨u, rfl, subject, fits, written⟩
  · exact .inl same
  · have hid := Store.id_of_vm? stored
    rw [written]
    refine .inr ⟨UInt64.toNat_succ (carries vm (by rw [subject, hid, stored]) fits),
      fun moves => ?_⟩
    obtain ⟨x, here, covers, drew, holds, -⟩ := due moves
    exact ⟨x, here.trans subject, covers, drew, subject ▸ holds⟩

theorem Due.edits (due : Due job s t) {id : Uuid} {x : Item} (stored : s.store.item? id = some x) :
    Edits job s x (t.onItem x) := by
  have hid := Store.id_of_item? stored
  subst hid
  cases t with
  | closeItem item step now =>
    simp only [Transaction.onItem]
    split
    next here =>
      obtain ⟨closes, y, found, holds, -⟩ := due
      rw [here, stored] at found
      cases found
      exact ⟨rfl, rfl, fun isOpen => absurd isOpen closes, .inr holds, .inl rfl⟩
    · exact .refl x
  | planItem item plan now =>
    simp only [Transaction.onItem]
    split
    next here =>
      obtain ⟨drew, y, found, holds, -⟩ := due
      rw [here, stored] at found
      cases found
      exact ⟨rfl, rfl, id, .inr holds, .inr (here ▸ drew)⟩
    · exact .refl x
  | recoverItem id step now =>
    simp only [Transaction.onItem]
    split
    next here =>
      obtain ⟨closes, rest⟩ := due
      have holds := (rest x (here.1 ▸ stored) here.2).1
      exact ⟨rfl, rfl, fun isOpen => absurd isOpen closes, .inr holds, .inl rfl⟩
    · exact .refl x
  | _ => exact .refl x

theorem Due.opens (due : Due job s t) {id : Uuid} {x : Item} (stored : s.store.item? id = some x) :
    ∀ item, t = .openItem item → item.id ≠ id := by
  rintro item rfl rfl
  rw [due.2] at stored
  cases stored

theorem Due.item (due : Due job s t) {id : Uuid} {x : Item} (stored : s.store.item? id = some x) :
    (t.apply s.store).2.item? id = some (t.onItem x) :=
  Transaction.item?_apply stored (due.opens stored)

/-- An item that is closed belongs to a machine that the job holds, and that stands still. -/
theorem Due.closes (due : Due job s t) {x : Item} (covers : s.store.Covers x)
    (closes : t.closes? = some x.id) : s.Holds job ⟨x.owner, x.vm⟩ ∧ Still x.vm s := by
  cases t with
  | closeItem item step now =>
    obtain ⟨-, y, found, holds, still⟩ := due
    rw [Option.some.inj closes, covers.stored] at found
    cases found
    exact ⟨holds, still covers⟩
  | recoverItem id step now =>
    obtain ⟨holds, still⟩ := due.2 x (Option.some.inj closes ▸ covers.stored) covers.isOpen
    exact ⟨holds, still covers⟩
  | _ => cases closes

theorem Due.acts (due : Due job s t) (carries : Carries s.store t) :
    Acts job s { s with store := (t.apply s.store).2 } where
  holds _ h := h
  drew h := h
  draws _ h := h
  vm {v vm} stored := by
    refine ⟨t.onVm vm, ?_, due.moves carries stored⟩
    simp only [Transaction.vm?_apply, stored, Option.map_some]
  missing {v} missing := by simp only [Transaction.vm?_apply, missing, Option.map_none]
  item stored := ⟨_, due.item stored, due.edits stored⟩
  unknown {id} unknown := by
    by_cases names : t.names? = some id
    · right
      cases t with
      | openItem item => exact Option.some.inj names ▸ due.1
      | closeItem item step now =>
        obtain ⟨-, x, found, -⟩ := due
        rw [Option.some.inj names, unknown] at found
        cases found
      | planItem item plan now => exact Option.some.inj names ▸ due.1
      | _ => cases names
    · exact .inl (Transaction.item?_apply_none unknown names)
  slot {x} covers := by
    by_cases closes : t.closes? = some x.id
    · exact .inr (due.closes covers closes).1
    · exact .inl (Transaction.openItem?_apply_kept covers.slot closes)
  opened {v id} slot := by
    rcases Transaction.openItem?_apply_some slot with slot | ⟨item, rfl, -, rfl, -⟩
    · exact .inl slot
    · exact .inr due.2
  release _ _ holds := .inl holds

theorem Due.covers (due : Due job s t) {x : Item} (covers : s.store.Covers x)
    (kept : t.closes? ≠ some x.id) : (t.apply s.store).2.Covers (t.onItem x) ∧
      (t.onItem x).vm = x.vm ∧ ((t.onItem x).plan = x.plan ∨ Lingers x.vm s) := by
  obtain ⟨vm, step, plan⟩ : (t.onItem x).vm = x.vm ∧ (t.onItem x).step = x.step ∧
      ((t.onItem x).plan = x.plan ∨ Lingers x.vm s) := by
    cases t with
    | closeItem item step now =>
      simp only [Transaction.onItem]
      rw [if_neg fun here => kept (congrArg some here)]
      exact ⟨rfl, rfl, .inl rfl⟩
    | recoverItem id step now =>
      simp only [Transaction.onItem]
      rw [if_neg fun here => kept (congrArg some here.1)]
      exact ⟨rfl, rfl, .inl rfl⟩
    | planItem item plan now =>
      obtain ⟨-, y, found, -, lingers⟩ := due
      simp only [Transaction.onItem]
      split
      next here =>
        rw [here, covers.stored] at found
        cases found
        exact ⟨rfl, rfl, .inr (lingers covers)⟩
      · exact ⟨rfl, rfl, .inl rfl⟩
    | _ => exact ⟨rfl, rfl, .inl rfl⟩
  have same := Transaction.onItem_id t x
  refine ⟨⟨?_, step.trans covers.isOpen, ?_⟩, vm, plan⟩
  · rw [same]
    exact due.item covers.stored
  · rw [same, vm]
    exact Transaction.openItem?_apply_kept covers.slot kept

/-- A machine in motion is still covered after a transaction that is due. -/
theorem Due.coherent (due : Due job s t) (h : Coherent s) :
    Coherent { s with store := (t.apply s.store).2 } := by
  refine ⟨h.locks, h.stamps, fun {v vm'} stored' moves => ?_⟩
  rw [Transaction.vm?_apply] at stored'
  obtain ⟨vm, stored, rfl⟩ := Option.map_eq_some_iff.1 stored'
  rcases onVm_cases t vm with ⟨state, host, -⟩ | ⟨u, rfl, subject, fits, written⟩
  · rw [state] at moves ⊢
    rw [host]
    obtain ⟨x, rfl, covers, leads⟩ := h.moving stored moves
    have kept : t.closes? ≠ some x.id :=
      fun closes => (due.closes covers closes).2 vm stored moves
    obtain ⟨covers', same, plan⟩ := due.covers covers kept
    refine ⟨t.onItem x, same, covers', fun migrates => ?_⟩
    obtain ⟨p, planned, rest⟩ := leads migrates
    rcases plan with plan | lingers
    · exact ⟨p, plan.trans planned, rest⟩
    · exact absurd migrates (lingers vm stored moves)
  · rw [written] at moves ⊢
    obtain ⟨x, here, covers, -, -, leads⟩ := due moves
    have covers' := (due.covers covers nofun).1
    exact ⟨x, here.trans (subject.trans (Store.id_of_vm? stored)), covers', leads⟩

theorem Acts.of_store (store : s'.store = s.store)
    (holds : ∀ {k name}, k ≠ job → s.Holds k name → s'.Holds k name)
    (drew : ∀ {k id}, s.Drew k id → s'.Drew k id)
    (draws : ∀ {k id}, k ≠ job → s'.Drew k id → s.Drew k id)
    (release : ∀ {x}, s.store.Covers x → s.Drew job x.id → s.Holds job ⟨x.owner, x.vm⟩ →
      s'.Holds job ⟨x.owner, x.vm⟩ ∨ Lingers x.vm s) : Acts job s s' where
  holds := holds
  drew := drew
  draws := draws
  vm stored := ⟨_, store ▸ stored, .refl _⟩
  missing missing := store ▸ missing
  item stored := ⟨_, store ▸ stored, .refl _⟩
  unknown unknown := .inl (store ▸ unknown)
  slot covers := .inl (store ▸ covers.slot)
  opened slot := .inl (store ▸ slot)
  release {x} covers drew holds := by
    rcases release (store ▸ covers) drew holds with holds | lingers
    · exact .inl holds
    · refine .inr fun vm stored => lingers vm ?_
      rwa [store] at stored

theorem Acts.refl (job : Nat) (s : Shared) : Acts job s s :=
  .of_store rfl (fun _ h => h) (fun h => h) (fun _ h => h) fun _ _ h => .inl h

theorem Acts.enter (job : Nat) (s : Shared) (r : Control.Request) : Acts job s (s.enter job r) := by
  cases r with
  | lock name =>
    have kept : ∀ {k name'}, s.Holds k name' → (s.enter job (.lock name)).Holds k name' :=
      fun h => Locks.isGranted_claim h
    exact .of_store rfl (fun _ h => kept h) (fun h => h) (fun _ h => h) fun _ _ h => .inl (kept h)
  | _ => exact .refl job s

theorem Acts.giveUp (job : Nat) (s : Shared) (name : LockName) :
    Acts job s { s with locks := s.locks.giveUp job name } :=
  .of_store rfl (fun _ h => Locks.isGranted_giveUp h) (fun h => h) (fun _ h => h)
    fun _ _ h => .inl (Locks.isGranted_giveUp h)

theorem Acts.freshId (job : Nat) (s : Shared) (id : Uuid) :
    Acts job s { s with stamps := ⟨id, job⟩ :: s.stamps } :=
  .of_store rfl (fun _ h => h) (fun h => List.mem_cons_of_mem _ h)
    (fun ne h => (List.mem_cons.1 h).resolve_left fun e => ne (congrArg Stamp.job e))
    fun _ _ h => .inl h

theorem Acts.unlock (h : Coherent s) {name : LockName} (holds : s.Holds job name)
    (lingers : ∀ {x}, s.store.Covers x → s.Drew job x.id → ⟨x.owner, x.vm⟩ = name →
      Lingers x.vm s)
    (how : Release) : Acts job s { s with locks := s.locks.release name how } := by
  refine .of_store rfl (fun ne granted => h.locks.isGranted_release holds ne granted) (fun h => h)
    (fun _ h => h) fun {x} covers drew granted => ?_
  by_cases here : ⟨x.owner, x.vm⟩ = name
  · exact .inr (lingers covers drew here)
  · exact .inl (Locks.isGranted_release_of_ne here granted)

theorem Coherent.giveUp (h : Coherent s) (job : Nat) (name : LockName) :
    Coherent { s with locks := s.locks.giveUp job name } :=
  ⟨h.locks.giveUp job name, h.stamps, h.moving⟩

theorem Coherent.release (h : Coherent s) (name : LockName) (how : Release) :
    Coherent { s with locks := s.locks.release name how } :=
  ⟨h.locks.release name how, h.stamps, h.moving⟩

theorem Coherent.freshId (h : Coherent s) {id : Uuid} (fresh : s.Fresh id) (job : Nat) :
    Coherent { s with stamps := ⟨id, job⟩ :: s.stamps } := by
  refine ⟨h.locks, fun {id' i j} mine theirs => ?_, h.moving⟩
  rcases List.mem_cons.1 mine with mine | mine <;>
    rcases List.mem_cons.1 theirs with theirs | theirs
  · cases mine
    cases theirs
    rfl
  · cases mine
    exact absurd rfl (fresh.2 _ theirs)
  · cases theirs
    exact absurd rfl (fresh.2 _ mine)
  · exact h.stamps mine theirs

end ControlPlane.Concurrent
