import ControlPlane.Store.Transaction

/-!
# What a transaction changes

A transaction changes the record of a machine, a work item and the index of open items each in one
way, whatever else is in the store. Most transactions change none of them.
-/

namespace ControlPlane

/-- The part of a record that belongs to its lifecycle. -/
@[ext] structure Course where
  state : State
  host : Option HostId
  lastHost : Option HostId
  version : UInt64
deriving DecidableEq

def Vm.course (vm : Vm) : Course := ⟨vm.state, vm.host, vm.lastHost, vm.version⟩

namespace Table
variable {α : Type} [Keyed α] {t : Table α} {k : Nat}

theorem mem_of_get? {a : α} (h : t.get? k = some a) : a ∈ t.rows := List.mem_of_find?_eq_some h

theorem get?_of_mem {a : α} (h : a ∈ t.rows) : t.get? (Keyed.key a) = some a := by
  obtain ⟨rows, ascending⟩ := t
  simp only [get?] at h ⊢
  induction rows with
  | nil => simp at h
  | cons b rows ih =>
    rw [List.pairwise_cons] at ascending
    rcases List.mem_cons.1 h with rfl | h
    · simp
    · rw [List.find?_cons_of_neg (by simpa using Nat.ne_of_lt (ascending.1 a h))]
      exact ih ascending.2 h

theorem contains_eq (t : Table α) (k : Nat) : t.contains k = (t.get? k).isSome := by
  rw [Bool.eq_iff_iff]
  simp only [contains, get?, List.any_eq_true, List.find?_isSome]

end Table

theorem UInt64.toNat_succ {a : UInt64} (h : a.toNat + 1 < UInt64.size) :
    (a + 1).toNat = a.toNat + 1 := by
  rw [UInt64.toNat_add]
  exact Nat.mod_eq_of_lt h

namespace Store
variable {s : Store} {v : VmId} {vm : Vm} {id : Uuid} {item : Work.Item}
open Work

theorem id_of_vm? (h : s.vm? v = some vm) : vm.id = v := Id.key_injective (Table.key_of_get? h)

theorem id_of_item? (h : s.item? id = some item) : item.id = id :=
  Uuid.toNat_injective (Table.key_of_get? h)

theorem mem_openItems {node : NodeId} (h : item ∈ s.openItems node) :
    s.item? item.id = some item ∧ item.owner = node ∧ item.Open := by
  simp only [openItems, items, List.mem_filter, List.mem_mergeSort, decide_eq_true_eq] at h
  exact ⟨Table.get?_of_mem h.1, h.2⟩

theorem openItems_of_open {node : NodeId} (filed : s.item? item.id = some item)
    (owner : item.owner = node) (isOpen : item.Open) : item ∈ s.openItems node := by
  simp only [openItems, items, List.mem_filter, List.mem_mergeSort, decide_eq_true_eq]
  exact ⟨Table.mem_of_get? filed, owner, isOpen⟩

theorem openItems_distinct (s : Store) (node : NodeId) :
    (s.openItems node).Pairwise (·.id ≠ ·.id) := by
  refine List.Pairwise.filter _ ?_
  have distinct : s.work.rows.Pairwise (·.id ≠ ·.id) :=
    s.work.ascending.imp fun less e => Nat.ne_of_lt less (congrArg Uuid.toNat e)
  exact ((List.mergeSort_perm ..).pairwise_iff fun ne e => ne e.symm).2 distinct

theorem vm?_insert (s : Store) (vm : Vm) (v : VmId) :
    ({ s with vms := s.vms.insert vm }).vm? v = if vm.id = v then some vm else s.vm? v := by
  simp only [vm?, Table.get?_insert, Keyed.key, Id.key_inj]

theorem item?_putItem (s : Store) (item : Item) (id : Uuid) :
    (s.putItem item).item? id = if item.id = id then some item else s.item? id := by
  simp only [item?, putItem, Table.get?_insert, Keyed.key]
  have h : item.id.toNat = id.toNat ↔ item.id = id :=
    ⟨Uuid.toNat_injective, congrArg Uuid.toNat⟩
  simp only [h]

theorem openItem?_insert (s : Store) (slot : Slot) (v : VmId) :
    ({ s with active := s.active.insert slot }).openItem? v =
      if slot.vm = v then some slot.item else s.openItem? v := by
  simp only [openItem?, Table.get?_insert, Keyed.key, Id.key_inj]
  split <;> rfl

theorem openItem?_freeSlot (s : Store) (item : Item) (v : VmId) :
    ({ s with active := s.freeSlot item }).openItem? v =
      if item.vm = v ∧ s.openItem? v = some item.id then none else s.openItem? v := by
  unfold freeSlot
  by_cases taken : s.openItem? item.vm = some item.id
  · rw [if_pos taken]
    simp only [openItem?, Table.get?_erase, Id.key_inj] at taken ⊢
    by_cases hv : item.vm = v
    · subst hv
      simp [taken]
    · simp [hv]
  · rw [if_neg taken, if_neg]
    rintro ⟨rfl, hv⟩
    exact taken hv

theorem moveEach_frame {moves : List VolumeMove} {s s' : Store} (h : s.moveEach moves = .ok s') :
    s'.vms = s.vms ∧ s'.work = s.work ∧ s'.active = s.active := by
  induction moves generalizing s with
  | nil =>
    cases h
    exact ⟨rfl, rfl, rfl⟩
  | cons move moves ih =>
    cases moved : s.moveVolume move with
    | error failure => simp [moveEach, moved, Except.bind] at h
    | ok s₁ =>
      simp only [moveEach, moved, Except.bind] at h
      obtain ⟨vms, work, active⟩ := ih h
      rw [vms, work, active]
      simp only [moveVolume] at moved
      split at moved
      · cases moved
      split at moved <;> cases moved
      exact ⟨rfl, rfl, rfl⟩

theorem moveEach_inventory {moves : List VolumeMove} {s s' : Store}
    (h : s.moveEach moves = .ok s') :
    s'.hosts = s.hosts ∧ s'.pools = s.pools ∧ s'.usage = s.usage := by
  induction moves generalizing s with
  | nil =>
    cases h
    exact ⟨rfl, rfl, rfl⟩
  | cons move moves ih =>
    cases moved : s.moveVolume move with
    | error failure => simp [moveEach, moved, Except.bind] at h
    | ok s₁ =>
      simp only [moveEach, moved, Except.bind] at h
      obtain ⟨hosts, pools, usage⟩ := ih h
      rw [hosts, pools, usage]
      simp only [moveVolume] at moved
      split at moved
      · cases moved
      split at moved <;> cases moved
      exact ⟨rfl, rfl, rfl⟩

theorem moveVolumes_inventory (s : Store) (moves : List VolumeMove) :
    (s.moveVolumes moves).2.hosts = s.hosts ∧ (s.moveVolumes moves).2.pools = s.pools ∧
      (s.moveVolumes moves).2.usage = s.usage := by
  unfold moveVolumes
  cases moved : s.moveEach moves with
  | error failure => exact ⟨rfl, rfl, rfl⟩
  | ok s' => exact moveEach_inventory moved

theorem moveVolumes_frame (s : Store) (moves : List VolumeMove) :
    (s.moveVolumes moves).2.vms = s.vms ∧ (s.moveVolumes moves).2.work = s.work ∧
      (s.moveVolumes moves).2.active = s.active := by
  unfold moveVolumes
  cases moved : s.moveEach moves with
  | error failure => exact ⟨rfl, rfl, rfl⟩
  | ok s' => exact moveEach_frame moved

theorem vm?_modifyVm (s : Store) (id v : VmId) {change : Vm → Vm}
    (same : ∀ vm, (change vm).id = vm.id) :
    (s.modifyVm id change).2.vm? v =
      (s.vm? v).map fun vm => if id = vm.id then change vm else vm := by
  unfold modifyVm
  cases found : s.vm? id with
  | none =>
    cases h : s.vm? v with
    | none => rfl
    | some vm =>
      have ne : id ≠ vm.id := by
        rintro rfl
        rw [id_of_vm? h, h] at found
        cases found
      simp [ne]
  | some vm =>
    have hid := id_of_vm? found
    by_cases hv : id = v
    · subst hv
      simp [vm?_insert, same, hid, found]
    · simp only [vm?_insert, same, hid, hv, if_false]
      cases h : s.vm? v with
      | none => rfl
      | some other => simp [id_of_vm? h, hv]

theorem swap_matching {u : StateUpdate} (h : s.vm? u.vm = some vm) (m : u.Matches vm) :
    s.swap u = (.ok (some (u.apply vm)), { s with vms := s.vms.insert (u.apply vm) }) := by
  simp only [swap, h, m, if_true]

theorem swap_stale {u : StateUpdate} (h : s.vm? u.vm = some vm) (m : ¬ u.Matches vm) :
    s.swap u = (.ok none, s) := by
  simp only [swap, h, m, if_false]

theorem swap_missing {u : StateUpdate} (h : s.vm? u.vm = none) :
    s.swap u = (.error (.notFound (.vm u.vm)), s) := by
  simp only [swap, h]

theorem written_of_swap {u : StateUpdate} {written : Vm} (h : (s.swap u).1 = .ok (some written)) :
    ∃ vm, s.vm? u.vm = some vm ∧ written = u.apply vm := by
  cases stored : s.vm? u.vm with
  | none =>
    rw [swap_missing stored] at h
    cases h
  | some vm =>
    by_cases fits : u.Matches vm
    · rw [swap_matching stored fits] at h
      cases h
      exact ⟨vm, rfl, rfl⟩
    · rw [swap_stale stored fits] at h
      cases h

theorem recoverItem_open {step : Work.Step} {now : Timestamp}
    (h : s.item? id = some item) (o : item.Open) :
    s.recoverItem id step now =
      (true, { s.putItem { item with step := step, updated := now } with
        active := s.freeSlot { item with step := step, updated := now } }) := by
  simp only [recoverItem, h, if_pos o]

theorem recoverItem_idle {step : Work.Step} {now : Timestamp}
    (h : ∀ x, s.item? id = some x → ¬ x.Open) :
    s.recoverItem id step now = (false, s) := by
  unfold recoverItem
  split
  next x stored => rw [if_neg (h x stored)]
  · rfl

theorem id_of_stored (s : Store) (item : Item) : ((s.item? item.id).getD item).id = item.id := by
  cases stored : s.item? item.id with
  | none => rfl
  | some x => exact id_of_item? stored

end Store

namespace Transaction
open Work
variable {s : Store} {t : Transaction}

def onVm : Transaction → Vm → Vm
  | .swap u, record => if u.vm = record.id ∧ u.Matches record then u.apply record else record
  | .setResources id resources, record =>
    if id = record.id then { record with resources := resources } else record
  | .setCredentialsPending id pending, record =>
    if id = record.id then { record with credentialsPending := pending } else record
  | _, record => record

theorem onVm_course (t : Transaction) (vm : Vm) :
    (t.onVm vm).course = vm.course ∨
      ∃ u, t = .swap u ∧ u.vm = vm.id ∧ u.Matches vm ∧ t.onVm vm = u.apply vm := by
  cases t with
  | swap u =>
    by_cases fits : u.vm = vm.id ∧ u.Matches vm
    · exact .inr ⟨u, rfl, fits.1, fits.2, if_pos fits⟩
    · have same : (Transaction.swap u).onVm vm = vm := if_neg fits
      rw [same]
      exact .inl rfl
  | setResources id resources =>
    simp only [onVm]
    split <;> exact .inl rfl
  | setCredentialsPending id pending =>
    simp only [onVm]
    split <;> exact .inl rfl
  | _ => exact .inl rfl

theorem vm?_apply (t : Transaction) (s : Store) (v : VmId) :
    (t.apply s).2.vm? v = (s.vm? v).map t.onVm := by
  cases t with
  | swap u =>
    simp only [apply]
    cases found : s.vm? u.vm with
    | none =>
      rw [Store.swap_missing found]
      cases h : s.vm? v with
      | none => rfl
      | some vm =>
        have ne : u.vm ≠ vm.id := by
          rintro e
          rw [e, Store.id_of_vm? h, h] at found
          cases found
        simp [onVm, ne]
    | some vm =>
      have hid := Store.id_of_vm? found
      by_cases m : u.Matches vm
      · rw [Store.swap_matching found m, Store.vm?_insert]
        by_cases hv : u.vm = v
        · subst hv
          simp [onVm, StateUpdate.apply, hid, found, m]
        · simp only [StateUpdate.apply, hid, hv, if_false]
          cases h : s.vm? v with
          | none => rfl
          | some other => simp [onVm, Store.id_of_vm? h, hv]
      · rw [Store.swap_stale found m]
        cases h : s.vm? v with
        | none => rfl
        | some other =>
          have : ¬ (u.vm = other.id ∧ u.Matches other) := by
            rintro ⟨e, m'⟩
            rw [e, Store.id_of_vm? h, h] at found
            cases found
            exact m m'
          simp [onVm, this]
  | setResources id resources => exact Store.vm?_modifyVm s id v fun _ => rfl
  | setCredentialsPending id pending => exact Store.vm?_modifyVm s id v fun _ => rfl
  | moveVolumes moves =>
    have frame := (Store.moveVolumes_frame s moves).1
    simp only [apply, Store.vm?, frame]
    exact Option.map_id'.symm
  | openItem item =>
    have frame : (s.openItem item).2.vms = s.vms := by
      unfold Store.openItem
      split <;> rfl
    simp only [apply, Store.vm?, frame]
    exact Option.map_id'.symm
  | recoverItem id step now =>
    have frame : (s.recoverItem id step now).2.vms = s.vms := by
      unfold Store.recoverItem
      split
      · split <;> rfl
      · rfl
    simp only [apply, Store.vm?, frame]
    exact Option.map_id'.symm
  | _ => exact Option.map_id'.symm

/-- No transaction touches the hosts or the pools, and only accounting touches what accounts use. -/
theorem inventory_apply (t : Transaction) (s : Store) :
    (t.apply s).2.hosts = s.hosts ∧ (t.apply s).2.pools = s.pools ∧
      ((∀ account delta, t ≠ .charge account delta ∧ t ≠ .credit account delta) →
        (t.apply s).2.usage = s.usage) := by
  cases t with
  | swap u =>
    simp only [apply, Store.swap]
    split
    · exact ⟨rfl, rfl, fun _ => rfl⟩
    · split <;> exact ⟨rfl, rfl, fun _ => rfl⟩
  | setResources v resources | setCredentialsPending v pending =>
    simp only [apply, Store.setResources, Store.setCredentialsPending, Store.modifyVm]
    split <;> exact ⟨rfl, rfl, fun _ => rfl⟩
  | moveVolumes moves =>
    obtain ⟨hosts, pools, usage⟩ := Store.moveVolumes_inventory s moves
    exact ⟨hosts, pools, fun _ => usage⟩
  | openItem item =>
    simp only [apply, Store.openItem]
    split <;> exact ⟨rfl, rfl, fun _ => rfl⟩
  | recoverItem id step now =>
    simp only [apply, Store.recoverItem]
    split
    · split <;> exact ⟨rfl, rfl, fun _ => rfl⟩
    · exact ⟨rfl, rfl, fun _ => rfl⟩
  | charge account delta => exact ⟨rfl, rfl, fun other => absurd rfl (other account delta).1⟩
  | credit account delta => exact ⟨rfl, rfl, fun other => absurd rfl (other account delta).2⟩
  | _ => exact ⟨rfl, rfl, fun _ => rfl⟩

def onItem : Transaction → Item → Item
  | .closeItem item step now, x =>
    if item.id = x.id then { x with step := step, updated := now } else x
  | .planItem item plan now, x =>
    if item.id = x.id then { x with plan := some plan, updated := now } else x
  | .recoverItem id step now, x =>
    if id = x.id ∧ x.Open then { x with step := step, updated := now } else x
  | _, x => x

/-- The item that a transaction writes, whether or not it was there. -/
def names? : Transaction → Option Uuid
  | .openItem item | .closeItem item .. | .planItem item .. => some item.id
  | _ => none

def closes? : Transaction → Option Uuid
  | .closeItem item .. => some item.id
  | .recoverItem id .. => some id
  | _ => none

theorem ledger_frame (t : Transaction) (s : Store) (names : t.names? = none)
    (closes : t.closes? = none) :
    (t.apply s).2.work = s.work ∧ (t.apply s).2.active = s.active := by
  cases t with
  | openItem item => cases names
  | closeItem item step now => cases names
  | planItem item plan now => cases names
  | recoverItem id step now => cases closes
  | moveVolumes moves => exact (Store.moveVolumes_frame s moves).2
  | swap u =>
    simp only [apply, Store.swap]
    split
    · exact ⟨rfl, rfl⟩
    · split <;> exact ⟨rfl, rfl⟩
  | setResources v resources =>
    simp only [apply, Store.setResources, Store.modifyVm]
    split <;> exact ⟨rfl, rfl⟩
  | setCredentialsPending v pending =>
    simp only [apply, Store.setCredentialsPending, Store.modifyVm]
    split <;> exact ⟨rfl, rfl⟩
  | _ => exact ⟨rfl, rfl⟩

theorem item?_frame {id : Uuid} (names : t.names? = none) (closes : t.closes? = none) :
    (t.apply s).2.item? id = s.item? id := by
  simp only [Store.item?, (ledger_frame t s names closes).1]

theorem openItem?_frame {v : VmId} (names : t.names? = none) (closes : t.closes? = none) :
    (t.apply s).2.openItem? v = s.openItem? v := by
  simp only [Store.openItem?, (ledger_frame t s names closes).2]

theorem onItem_id (t : Transaction) (x : Item) : (t.onItem x).id = x.id := by
  cases t <;> simp only [onItem] <;> split <;> rfl

theorem onItem_frame (x : Item) (names : t.names? = none) (closes : t.closes? = none) :
    t.onItem x = x := by
  cases t with
  | closeItem item step now => cases names
  | planItem item plan now => cases names
  | recoverItem id step now => cases closes
  | _ => rfl

theorem item?_apply {id : Uuid} {x : Item} (h : s.item? id = some x)
    (opens : ∀ item, t = .openItem item → item.id ≠ id) :
    (t.apply s).2.item? id = some (t.onItem x) := by
  have hid := Store.id_of_item? h
  cases t with
  | openItem item =>
    have ne := opens item rfl
    simp only [apply, Store.openItem, onItem]
    split
    · exact h
    · exact (Store.item?_putItem s item id).trans (by rw [if_neg ne, h])
  | closeItem item step now =>
    refine (Store.item?_putItem s _ id).trans ?_
    by_cases e : item.id = id
    · simp [onItem, e, h, hid]
    · simp [onItem, e, h, hid, Store.id_of_stored s item]
  | planItem item plan now =>
    refine (Store.item?_putItem s _ id).trans ?_
    by_cases e : item.id = id
    · simp [onItem, e, h, hid]
    · simp [onItem, e, h, hid, Store.id_of_stored s item]
  | recoverItem id' step now =>
    simp only [apply, onItem, hid]
    by_cases o : ∃ y, s.item? id' = some y ∧ y.Open
    · obtain ⟨y, stored, o⟩ := o
      rw [Store.recoverItem_open stored o]
      refine (Store.item?_putItem s _ id).trans ?_
      by_cases e : id' = id
      · subst e
        rw [h] at stored
        cases stored
        simp [hid, o]
      · simp [Store.id_of_item? stored, e, h]
    · rw [Store.recoverItem_idle fun y stored open_ => o ⟨y, stored, open_⟩]
      have ne : ¬ (id' = id ∧ x.Open) := by
        rintro ⟨rfl, open_⟩
        exact o ⟨x, h, open_⟩
      rw [if_neg ne]
      exact h
  | _ => exact (item?_frame (by rfl) (by rfl)).trans h

theorem item?_apply_none {id : Uuid} (h : s.item? id = none) (names : t.names? ≠ some id) :
    (t.apply s).2.item? id = none := by
  cases t with
  | openItem item =>
    have ne : item.id ≠ id := fun e => names (congrArg some e)
    simp only [apply, Store.openItem]
    split
    · exact h
    · exact (Store.item?_putItem s item id).trans (by rw [if_neg ne, h])
  | closeItem item step now =>
    have ne : item.id ≠ id := fun e => names (congrArg some e)
    exact (Store.item?_putItem s _ id).trans (by simp [Store.id_of_stored s item, ne, h])
  | planItem item plan now =>
    have ne : item.id ≠ id := fun e => names (congrArg some e)
    exact (Store.item?_putItem s _ id).trans (by simp [Store.id_of_stored s item, ne, h])
  | recoverItem id' step now =>
    simp only [apply]
    by_cases o : ∃ y, s.item? id' = some y ∧ y.Open
    · obtain ⟨y, stored, o⟩ := o
      rw [Store.recoverItem_open stored o]
      have ne : id' ≠ id := by
        rintro rfl
        rw [h] at stored
        cases stored
      refine (Store.item?_putItem s _ id).trans ?_
      simp [Store.id_of_item? stored, ne, h]
    · rw [Store.recoverItem_idle fun y stored open_ => o ⟨y, stored, open_⟩]
      exact h
  | _ => exact (item?_frame (by rfl) (by rfl)).trans h

/-- What a transaction makes of the entry of a machine in the index of open items. -/
def onSlot (t : Transaction) (s : Store) (v : VmId) : Option Uuid :=
  match t with
  | .openItem item => if item.vm = v ∧ s.openItem? v = none then some item.id else s.openItem? v
  | .closeItem item .. =>
    if ((s.item? item.id).getD item).vm = v ∧ s.openItem? v = some item.id then none
    else s.openItem? v
  | .recoverItem id .. =>
    match s.item? id with
    | some x => if x.Open ∧ x.vm = v ∧ s.openItem? v = some id then none else s.openItem? v
    | none => s.openItem? v
  | _ => s.openItem? v

theorem openItem?_apply (t : Transaction) (s : Store) (v : VmId) :
    (t.apply s).2.openItem? v = t.onSlot s v := by
  cases t with
  | openItem item =>
    simp only [apply, Store.openItem, onSlot]
    by_cases e : item.vm = v
    · subst e
      cases slot : s.openItem? item.vm with
      | none => exact (Store.openItem?_insert (s.putItem item) _ _).trans (by simp)
      | some other => simp [slot]
    · rw [if_neg fun h => e h.1]
      split
      · rfl
      · exact (Store.openItem?_insert (s.putItem item) _ _).trans (by rw [if_neg e]; rfl)
  | closeItem item step now =>
    exact (Store.openItem?_freeSlot s _ v).trans (by simp only [onSlot, Store.id_of_stored])
  | recoverItem id step now =>
    simp only [apply, onSlot]
    cases stored : s.item? id with
    | none =>
      rw [Store.recoverItem_idle fun x h => by rw [stored] at h; cases h]
    | some x =>
      by_cases o : x.Open
      · rw [Store.recoverItem_open stored o]
        refine (Store.openItem?_freeSlot s _ v).trans ?_
        simp only [Store.id_of_item? stored, o, true_and]
      · rw [Store.recoverItem_idle fun y h => by rw [stored] at h; cases h; exact o]
        simp [o]
  | planItem item plan now => rfl
  | _ => exact openItem?_frame (by rfl) (by rfl)

theorem openItem?_apply_kept {v : VmId} {id : Uuid} (h : s.openItem? v = some id)
    (closes : t.closes? ≠ some id) : (t.apply s).2.openItem? v = some id := by
  rw [openItem?_apply]
  cases t with
  | openItem item => simp [onSlot, h]
  | closeItem item step now =>
    have ne : ¬ id = item.id := fun e => closes (congrArg some e.symm)
    simp [onSlot, h, ne]
  | recoverItem id' step now =>
    have ne : ¬ id = id' := fun e => closes (congrArg some e.symm)
    simp only [onSlot, h, Option.some.injEq, ne, and_false, if_false]
    split <;> rfl
  | _ => exact h

theorem openItem?_apply_some {v : VmId} {id : Uuid} (h : (t.apply s).2.openItem? v = some id) :
    s.openItem? v = some id ∨
      ∃ item, t = .openItem item ∧ item.vm = v ∧ item.id = id ∧ s.openItem? v = none := by
  rw [openItem?_apply] at h
  cases t with
  | openItem item =>
    simp only [onSlot] at h
    split at h
    next opened =>
      cases h
      exact .inr ⟨item, rfl, opened.1, rfl, opened.2⟩
    · exact .inl h
  | closeItem item step now =>
    simp only [onSlot] at h
    split at h
    · cases h
    · exact .inl h
  | recoverItem id' step now =>
    simp only [onSlot] at h
    split at h
    · split at h
      · cases h
      · exact .inl h
    · exact .inl h
  | _ => exact .inl h

end Transaction
end ControlPlane
