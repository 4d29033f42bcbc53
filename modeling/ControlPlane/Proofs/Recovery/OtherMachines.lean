import ControlPlane.Proofs.Concurrent.IsolatedMachine
import ControlPlane.Recovery

/-!
# What a scan does for other machines

A recovery scan looks at items one after the other. What it does for one of them leaves another
machine alone, with its item and its volumes.
-/

namespace ControlPlane.Store

variable {store : Store} {v : VmId}

theorem view_swap_other {u : StateUpdate} (other : u.vm ≠ v) :
    (store.swap u).2.view v = store.view v := by
  unfold swap
  split
  · rfl
  next vm found =>
    split
    · refine View.ext ?_ rfl
      exact (vm?_insert store (u.apply vm) v).trans
        (if_neg fun e => other ((id_of_vm? found).symm.trans e))
    · rfl

end ControlPlane.Store

namespace ControlPlane.Concurrent
open Work Control Operation Procedure Recovery

variable {v : VmId} {job : Nat} {s s' : Shared} {past : List Exchange} {item x : Item}
  {items : List Item} {view : View} {pools : Table Pool} {ctx : Context} {vm : Vm} {p : Plan}
  {α : Type} {store : Store}

/-- The request concerns neither an item nor the machine and the volumes that are its own. -/
def Apart (item : Item) (volumes : List Volume) : Control.Request → Prop
  | .transact (.swap u) => u.vm ≠ item.vm
  | .transact (.moveVolumes moves) => (moves.map (·.volume)).Nodup ∧
      ∀ move ∈ moves, ∀ volume ∈ volumes, move.volume ≠ volume.id
  | .transact (.recoverItem id ..) => id ≠ item.id
  | .transact t => t.Reads
  | _ => True

/-- What does not concern a machine moves at most volumes that are not among the given ones. -/
theorem Lodged.aside {t : Transaction} {volumes : List Volume} (h : Lodged v item view pools store)
    (apart : Apart item volumes (.transact t)) :
    ∃ moves :
      List VolumeMove, (∀ move ∈ moves, ∀ volume ∈ volumes, move.volume ≠ volume.id) ∧
      Lodged v item ⟨view.vm, view.volumes.map (Volume.under pools moves)⟩ pools
        (t.apply store).2 := by
  have same : view.volumes.map (Volume.under pools []) = view.volumes :=
    (List.map_congr_left fun _ _ => rfl).trans (List.map_id _)
  have still : Lodged v item view pools (t.apply store).2 →
      ∃ moves : List VolumeMove, (∀ move ∈ moves, ∀ volume ∈ volumes,
        move.volume ≠ volume.id) ∧
        Lodged v item ⟨view.vm, view.volumes.map (Volume.under pools moves)⟩ pools
          (t.apply store).2 :=
    fun kept => ⟨[], nofun, by rwa [same]⟩
  cases t with
  | swap u =>
    have kept := h.write (t := .swap u) rfl rfl
    have same : (store.swap u).2.view v = view :=
      (Store.view_swap_other (h.subject ▸ apart)).trans h.view
    simp only [Transaction.apply] at kept still ⊢
    rw [same] at kept
    exact still kept
  | moveVolumes moves =>
    obtain ⟨distinct, unnamed⟩ := apart
    simp only [Transaction.apply, Store.moveVolumes] at still ⊢
    cases moved : store.moveEach moves with
    | error failure =>
      simp only [moved] at still
      exact still h
    | ok store' => exact ⟨moves, unnamed, h.moved distinct moved⟩
  | recoverItem id step now =>
    refine still ?_
    simp only [Transaction.apply]
    by_cases isOpen : ∃ x, store.item? id = some x ∧ x.Open
    · obtain ⟨x, stored, isOpen⟩ := isOpen
      have other : x.vm ≠ v := fun here => apart (h.sole stored here isOpen)
      rw [Store.recoverItem_open stored isOpen]
      have named : x.id = id := Store.id_of_item? stored
      have found : ∀ id', (store.putItem { x with step := step, updated := now }).item? id' =
          if id = id' then some { x with step := step, updated := now } else store.item? id' :=
        fun id' => named ▸ Store.item?_putItem ..
      refine ⟨h.subject, (found item.id).trans ((if_neg apart).trans h.filed),
        ?_, h.view, h.pools⟩
      intro id' y stored' here isOpen'
      have stored' := (found id').symm.trans stored'
      split at stored'
      · cases stored'
        exact absurd here other
      · exact h.sole stored' here isOpen'
    · rw [Store.recoverItem_idle fun x stored isOpen' => isOpen ⟨x, stored, isOpen'⟩]
      exact h
  | vm | host | pool | volumesOf | guestsOn | openItems => exact still h
  | _ => exact apart.elim

theorem Apart.mono {volumes : List Volume} {item' : Item} {r : Control.Request}
    (h : Apart item volumes r) (id : item'.id = item.id) (vm : item'.vm = item.vm) :
    Apart item' volumes r := by
  cases r with
  | transact t =>
    cases t with
    | swap u => exact fun same => h (same.trans vm)
    | recoverItem id' step now => exact fun same => h (same.trans id)
    | _ => exact h
  | _ => trivial

abbrev resting (v : VmId) (job : Nat) : Contract := secluded v job fun _ _ => True

abbrev Rest (v : VmId) (item : Item) (view : View) (pools : Table Pool) : Assertion :=
  Lodges v item view pools fun _ => True

theorem unmoved_true : Unmoved fun _ => True := fun _ _ _ _ _ => trivial

/-- An assertion about a machine, its item and given volumes: it is kept by those who leave the
machine alone, and by what concerns neither the item nor the volumes. -/
structure Sheltered (v : VmId) (item : Item) (volumes : List Volume) (A : Assertion) : Prop where
  alike : ∀ {past s s'}, Secluded v s s' → A past s → A past s'
  apart : ∀ {e past} {s s' : Shared}, Apart item volumes e.request → s'.store = s.store ∨
    (∃ t, e.request = .transact t ∧ s'.store = (t.apply s.store).2) →
    A past s → A (past ++ [e]) s'

namespace Sheltered
variable {volumes : List Volume} {A : Assertion} {F : Exchange → Prop}

theorem stable (sheltered : Sheltered v item volumes A) : Stable (resting v job) A :=
  fun _ _ _ rely _ h => sheltered.alike rely h

theorem given (sheltered : Sheltered v item volumes A) : Sheltered v item volumes (Given F A) where
  alike rely h all := sheltered.alike rely (h all)
  apart other changes h all :=
    sheltered.apart other changes (h fun e mem => all e (List.mem_append_left _ mem))

theorem any {ι : Sort*} {A : ι → Assertion} (each : ∀ i, Sheltered v item volumes (A i)) :
    Sheltered v item volumes fun past s => ∃ i, A i past s where
  alike rely := fun ⟨i, h⟩ => ⟨i, (each i).alike rely h⟩
  apart other changes := fun ⟨i, h⟩ => ⟨i, (each i).apart other changes h⟩

theorem and_of {Q : Prop} (sheltered : Q → Sheltered v item volumes A) :
    Sheltered v item volumes fun past s => Q ∧ A past s where
  alike rely h := ⟨h.1, (sheltered h.1).alike rely h.2⟩
  apart other changes h := ⟨h.1, (sheltered h.1).apart other changes h.2⟩

end Sheltered

/-- Something is known of volumes, whatever becomes of others than the given ones. -/
def Keeps (pools : Table Pool) (volumes : List Volume) (Ψ : List Volume → Prop) : Prop :=
  ∀ {all} {moves : List VolumeMove},
    (∀ move ∈ moves, ∀ volume ∈ volumes, move.volume ≠ volume.id) →
    Ψ all → Ψ (all.map (Volume.under pools moves))

def Berthed (v : VmId) (item : Item) (vm? : Option Vm) (Ψ : List Volume → Prop)
    (pools : Table Pool) :
    Assertion := fun past s => ∃ all, Ψ all ∧ Rest v item ⟨vm?, all⟩ pools past s

theorem sheltered_berthed {volumes : List Volume} {item' : Item} {vm? : Option Vm}
    {Ψ : List Volume → Prop} (id : item'.id = item.id) (vm : item'.vm = item.vm)
    (keeps : Keeps pools volumes Ψ) :
    Sheltered v item volumes (Berthed v item' vm? Ψ pools) where
  alike rely := fun ⟨all, known, h⟩ => ⟨all, known, h.1.alike rely, trivial⟩
  apart := by
    rintro e past s s' other changes ⟨all, known, h, -⟩
    rcases changes with same | ⟨t, asks, same⟩
    · exact ⟨all, known, same ▸ h, trivial⟩
    · rw [asks] at other
      obtain ⟨moves, unnamed, kept⟩ := h.aside (other.mono id vm)
      exact ⟨_, keeps unnamed known, same ▸ kept, trivial⟩

/-- Volumes are the same as before if all of them are among those that are left alone. -/
theorem keeps_eq {volumes all : List Volume}
    (covers : ∀ w ∈ all, ∃ u ∈ volumes, u.id = w.id) :
    Keeps pools volumes (· = all) := by
  rintro _ moves unnamed rfl
  refine (List.map_congr_left fun w mem => Volume.under_of_unnamed fun move named same => ?_).trans
    (List.map_id _)
  obtain ⟨u, here, e⟩ := covers w mem
  exact unnamed move named u here (same.trans e.symm)

section
variable {volumes : List Volume} {A : Assertion} (sheltered : Sheltered v item volumes A)
include sheltered

theorem Safe.apart {P : α → Prop} {q : Program surroundings α}
    (within : q.Within (Apart item volumes) P) (h : A past s) :
    Safe (resting v job) (fun a past s => P a ∧ A past s) q past s := by
  induction q generalizing past s with
  | done a => exact ⟨within, h⟩
  | ask r rest ih =>
    obtain ⟨apart, within⟩ := within
    intro s₁ rely₁ _
    refine ⟨trivial, fun s₂ rely₂ _ =>
      ⟨trivial, fun reply s₃ answers => ⟨trivial, ?_⟩⟩⟩
    refine ih reply (within reply) (sheltered.apart apart (Shared.store_of_answers answers) ?_)
    have entered : (s₁.enter job r).store = s₁.store := by cases r <;> rfl
    refine sheltered.alike ?_ (sheltered.alike rely₁ h)
    change s₁.store.Alike v s₂.store
    rw [← entered]
    exact rely₂

end

theorem moves_movesOf (p : Plan) : p.Moves (movesOf p) := by
  rw [Plan.Moves, movesOf, List.map_map]
  exact List.map_id _

/-- The item is of another machine, and its plan leaves the volumes alone. -/
structure Foreign (item : Item) (volumes : List Volume) (x : Item) : Prop where
  id : x.id ≠ item.id
  vm : x.vm ≠ item.vm
  spares : ∀ plan, x.plan = some plan → ∀ volume ∈ volumes,
    plan.volumes.get? volume.id.key = none

theorem apart_movesOf {volumes : List Volume}
    (spares : ∀ volume ∈ volumes, p.volumes.get? volume.id.key = none) :
    Apart item volumes (.transact (.moveVolumes (movesOf p))) := by
  refine ⟨(moves_movesOf p).distinct, ?_⟩
  rintro _ mem volume own e
  obtain ⟨relocation, named, rfl⟩ := List.mem_map.1 mem
  have found := Table.get?_of_mem named
  rw [show Keyed.key relocation = volume.id.key from congrArg Id.key e, spares volume own] at found
  cases found

theorem apart_of_quiet {volumes : List Volume} {r : Control.Request} (quiet : r.Quiet) :
    Apart item volumes r := by
  cases r with
  | transact t => cases t <;> trivial
  | _ => trivial

theorem settle_apart {volumes : List Volume} (other : vm.id ≠ item.vm)
    (foreign : Foreign item volumes x) :
    (Recovery.settle ctx x vm).run.Within (Apart item volumes) fun _ => True :=
  Recovery.settle_asks (fun _ => apart_of_quiet)
    (fun _ reports here => other (reports.subject.symm.trans here))
    fun plan planned => apart_movesOf (foreign.spares plan planned)

theorem closeRecovered_apart {volumes : List Volume} {step : Work.Step} (other : x.id ≠ item.id) :
    (closeRecovered x step).run.Within (Apart item volumes) fun result => ∃ done,
      result = .ok done :=
  .andThen (.asked trivial) (fun _ _ => .asked other) fun _ no => by obtain ⟨_, ⟨⟩⟩ := no

abbrev Bypasses (A : Assertion) : Except Failure α → Assertion :=
  Ends (fun _ => A) fun _ _ => False

section
variable {volumes : List Volume} {A : Assertion} (sheltered : Sheltered v item volumes A)
include sheltered

theorem Safe.bypasses {action : Procedure α} (h : A past s)
    (within : action.run.Within (Apart item volumes) fun result => ∃ a, result = .ok a) :
    Safe (resting v job) (Bypasses A) action.run past s := by
  refine (Safe.apart sheltered within h).mono fun result past s ends => ?_
  obtain ⟨⟨a, rfl⟩, h⟩ := ends
  exact h

theorem resolve_apart (foreign : Foreign item volumes x) (h : A past s) :
    Safe (resting v job) (Bypasses A) (resolve ctx x).run past s := by
  have closes : ∀ {step : Work.Step} {note : Report} {past s}, A past s →
      Safe (resting v job) (Bypasses A)
        (do if ← closeRecovered x step then return note else return {} : Procedure Report).run
        past s := by
    intro step note past s h
    refine Safe.andThen (Safe.bypasses sheltered h (closeRecovered_apart foreign.id))
      (fun closed _ _ h => ?_) fun _ _ _ => False.elim
    cases closed <;> exact h
  refine Safe.andThen
    (Q := Ends (fun found past s => A past s ∧ ∀ vm, found = some vm → vm.id = x.vm)
      fun _ _ => False) (Safe.ask sheltered.stable (fun _ => rfl) h ?_) ?_ fun _ _ _ => False.elim
  · intro s h _
    refine ⟨trivial, ?_⟩
    rintro _ _ ⟨-, rfl, rfl⟩
    exact ⟨trivial, sheltered.apart trivial (.inl rfl) h,
      fun vm stored => Store.id_of_vm? stored⟩
  intro found past s h
  obtain ⟨h, named⟩ := h
  rcases found with _ | vm
  · exact closes h
  have other : vm.id ≠ item.vm := (named vm rfl).symm ▸ foreign.vm
  refine Safe.ofProgram (Safe.apart sheltered (settle_apart other foreign) h)
    fun result past s h => ?_
  rcases result with failure | _ | _
  · exact h.2
  · exact closes h.2
  · exact h.2

theorem visit_apart (foreign : Foreign item volumes x) (h : A past s) :
    Safe (resting v job) (Bypasses A) (visit ctx x).run past s := by
  have locks : (Work.lock ctx.node x.vm).run.Within (Apart item volumes) fun _ => True :=
    .andThen (.ask trivial) (fun granted _ => by cases granted <;> trivial) fun _ _ => trivial
  refine Safe.ofProgram (Safe.apart sheltered locks h) fun result past s h => ?_
  rcases result with failure | _
  · exact h.2
  refine Safe.andThen (Q := Bypasses A) ?_ ?_ fun _ _ _ => False.elim
  · exact Safe.tryCatch (resolve_apart sheltered foreign h.2) (fun _ _ _ h => h)
      fun _ _ _ => False.elim
  · intro report past s h
    exact Safe.andThen (Safe.bypasses sheltered h (.asked trivial)) (fun _ _ _ h => h)
      fun _ _ _ => False.elim

theorem visitAll_apart (foreign : ∀ x ∈ items, Foreign item volumes x) (h : A past s) :
    Safe (resting v job) (Bypasses A) (visitAll ctx items).run past s := by
  induction items generalizing past s with
  | nil => exact h
  | cons x items ih =>
    refine Safe.andThen (visit_apart sheltered (foreign x List.mem_cons_self) h)
      (fun report _ _ h => ?_) fun _ _ _ => False.elim
    exact Safe.andThen (ih (fun y mem => foreign y (List.mem_cons_of_mem x mem)) h)
      (fun _ _ _ h => h) fun _ _ _ => False.elim

end

/-- Where a scan lists items of other machines, their plans leave given volumes alone. -/
def Untouching (v : VmId) (node : NodeId) (volumes : List Volume) (e : Exchange) : Prop :=
  e.request = .transact (.openItems node) → ∀ x ∈ e.before.openItems node, x.vm ≠ v →
    ∀ plan, x.plan = some plan → ∀ volume ∈ volumes, plan.volumes.get? volume.id.key = none

theorem untouching_none {node : NodeId} {e : Exchange} : Untouching v node [] e :=
  fun _ _ _ _ _ _ _ mem => absurd mem List.not_mem_nil

end ControlPlane.Concurrent
