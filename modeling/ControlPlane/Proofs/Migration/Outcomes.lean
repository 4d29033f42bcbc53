import ControlPlane.Operation.Migrate
import ControlPlane.Proofs.Operation.Endings

/-!
# How a migration ends

Nothing is written before the machine has been moved. The machine is then recorded where it has been
moved to, and every other way out leaves the record as it was at the last command.
-/

namespace ControlPlane.Concurrent
open Work Control Operation Procedure Migration

variable {v : VmId} {job : Nat} {s : Shared} {past : List Exchange} {item : Item}
  {first view : View} {T : List Exchange → Prop} {α : Type} {ctx : Context} {vm : Vm} {p : Plan}

theorem alone_moveVolumes {moves : List VolumeMove} (spared : Spared T)
    (h : Stands v item view T past s) :
    Safe (alone v job) (Ends
      (fun _ past s => ∃ volumes, Stands v item ⟨view.vm, volumes⟩ T past s)
      (Stands v item view T))
      (demand (α := Unit) (.transact (.moveVolumes moves)) rfl).run past s := by
  refine (alone_write (t := .moveVolumes moves) (Q := fun reply view' => view'.vm = view.vm ∧
    ∀ failure, reply = .error failure → view' = view) spared rfl rfl ?_ h).mono ?_
  · intro store same
    constructor
    · have kept : (store.moveVolumes moves).2.vms = store.vms :=
        (Store.moveVolumes_frame store moves).1
      rw [← same]
      exact congrArg (Table.get? · v.key) kept
    · intro failure refused
      rw [← same]
      simp only [Transaction.apply, Store.moveVolumes] at refused ⊢
      split at refused
      · cases refused
      next => rfl
  · intro result past s h
    obtain ⟨view', ⟨same, kept⟩, h⟩ := h
    rcases result with failure | _
    · rw [kept failure rfl] at h
      exact h
    · refine ⟨view'.volumes, ?_⟩
      rw [← same]
      exact h

/-- The machine is recorded where it has been moved to, with what it had. -/
def Landed (v : VmId) (item : Item) (T : List Exchange → Prop) (p : Plan) (vm moved : Vm) :
    Assertion :=
  fun past s => moved.state = .running ∧ moved.host = some p.destination ∧
    moved.resources = vm.resources ∧ moved.token = vm.token ∧
      ∃ volumes, Stands v item ⟨some moved, volumes⟩ T past s

/-- Without another writer, a move that has been made is recorded, unless its volumes cannot be. -/
theorem alone_record {moves : List VolumeMove} (movable : Movable p vm) (spared : Spared T)
    (stored : view.vm = some vm) (h : Stands v item view T past s) :
    Safe (alone v job) (Ends (Landed v item T p vm) (Stands v item view T))
      (record vm p moves).run past s := by
  have named := h.1.named stored
  have lands : ∀ {volumes past s}, Stands v item ⟨some vm, volumes⟩ T past s →
      Safe (alone v job) (Ends (Landed v item T p vm) (Stands v item view T)) (do
          let _ ← Transition.run
            { vm := vm.id, expected := .running, event := .migrationRequested,
              version := some vm.version }
          Transition.run
            { vm := vm.id, expected := .migrating, event := .operationSucceeded
              host := some p.destination } : Procedure Vm).run past s := by
    intro volumes past s h
    refine Safe.andThen (alone_moves spared named rfl movable.running rfl rfl
      (Transition.hosts_kept (by decide) movable.host) h) ?_ ?_
    · intro leaving past s h
      obtain ⟨written, ⟨⟩, leaves, h⟩ := h
      obtain ⟨lastHost, hosted⟩ := Transition.hosts_taken leaving p.destination
        (by decide : State.HoldsHost .running)
      refine (alone_moves spared named rfl (congrArg Vm.state leaves) rfl rfl hosted h).mono ?_
      intro _ past s h
      obtain ⟨moved, rfl, arrives, h⟩ := h
      refine ⟨congrArg Vm.state arrives, congrArg Vm.host arrives, ?_, ?_, volumes, h⟩
      · rw [arrives, leaves]
        rfl
      · rw [arrives, leaves]
        rfl
    · intro _ past s h
      obtain ⟨_, ⟨⟩, -⟩ := h
  have same : view = ⟨some vm, view.volumes⟩ := View.ext stored rfl
  unfold record
  cases moves with
  | nil => exact lands (same ▸ h)
  | cons move moves =>
    refine Safe.andThen (alone_moveVolumes spared h) ?_ fun _ _ _ h => h
    intro _ past s h
    obtain ⟨volumes, h⟩ := h
    rw [stored] at h
    exact lands h

/-- How a migration that has been begun may end. -/
def Arrives (v : VmId) (item : Item) (first view : View) (p : Plan) (vm : Vm) :
    Except Ending Vm → Assertion
  | .ok moved => Landed v item (fun _ => True) p vm moved
  | .error (.rejected _) => fun _ _ => False
  | .error _ => Stands v item view (Steady v first view)

section
variable {targets : List Agent.VolumeTarget} (movable : Movable p vm) (stored : view.vm = some vm)
include movable stored

theorem alone_recorded {moves : List VolumeMove}
    (h : Stands v item view (Steady v first view) past s) :
    Safe (alone v job) (Arrives v item first view p vm)
      ((record vm p moves).adapt .unresolved : Body Vm).run past s := by
  refine Safe.adapt ((alone_record movable spared_steady stored h).mono ?_)
  intro result past s ends
  cases result with
  | error failure => exact ends
  | ok moved =>
    obtain ⟨running, there, same, marked, volumes, h⟩ := ends
    exact ⟨running, there, same, marked, volumes, h.1, trivial⟩

theorem alone_compute (h : Stands v item view T past s) :
    Safe (alone v job) (Arrives v item first view p vm) (compute ctx vm p).run past s := by
  refine Safe.ofProgram (alone_command first (by decide) p.source _ _ ?_ h) ?_
  · intro result
    cases result with
    | ok reply => trivial
    | error failure =>
      simp only
      split
      · exact locate_within ..
      · trivial
  intro landing past s h
  cases landing with
  | moved => exact alone_recorded movable stored h
  | notMoved failure => exact h
  | unknown failure => exact h

theorem alone_locateWithStorage {lost : Failure}
    (h : Stands v item view (Steady v first view) past s) :
    Safe (alone v job) (Arrives v item first view p vm)
      (locateWithStorage ctx vm p targets lost).run past s := by
  refine alone_query (Agent.powerStates_within ..) h ?_
  intro found past s h
  split
  · exact alone_recorded movable stored h
  · exact h
  · exact h

theorem alone_withinCluster (h : Stands v item view T past s) :
    Safe (alone v job) (Arrives v item first view p vm)
      (withinCluster ctx vm p targets).run past s := by
  refine Safe.ofProgram (alone_dispatch first (by decide) p.destination _ _ h) ?_
  intro reported past s h
  cases reported with
  | ok reported => exact alone_recorded movable stored h
  | error failure =>
    simp only
    split
    · exact alone_locateWithStorage movable stored h
    · exact h

theorem alone_acrossClusters (h : Stands v item view T past s) :
    Safe (alone v job) (Arrives v item first view p vm)
      (acrossClusters ctx vm p targets).run past s := by
  refine Safe.adapted (alone_dispatch first (by decide) p.destination _ _ h) ?_ ?_
  · intro rendezvous past s h
    refine Safe.andThen (Safe.within (send_within ..) (fun _ quiet => quiet) lasting_steady h) ?_ ?_
    · intro _ past s h
      obtain ⟨-, h⟩ := h
      refine alone_look (Program.Within.call ⟨trivial, fun no => no⟩) spared_steady
        h ?_ fun _ _ _ h => h
      intro _ past s h
      refine Safe.ofProgram (alone_dispatch first (by decide) p.destination _ _ h) ?_
      intro reported past s h
      cases reported with
      | ok reported => exact alone_recorded movable stored h
      | error failure =>
        refine alone_query (split_within ..) h ?_
        exact fun _ _ _ h => h
    · intro result past s h
      obtain ⟨no, h⟩ := h
      rcases result with failure | failure | failure
      · exact absurd rfl (no failure)
      · exact h
      · exact h
  · exact fun _ _ _ h => h

end

theorem alone_check (subject : p.vm = v) (spared : Spared T) (h : Stands v item view T past s) :
    Safe (alone v job) (fun result past s => Stands v item view T past s ∧
      ∀ pair, result = .ok pair → view.vm = some pair.1 ∧ Movable p pair.1)
      (Migration.check p).run past s := by
  refine safe_check (T := fun vm _ _ => view.vm = some vm) (lasting_silent spared) ?_ h ?_
  · exact fun vm => ⟨fun _ _ _ _ _ h => h, fun _ _ _ => trivial, fun _ h => h⟩
  · intro vm s _ stored h
    rw [subject] at stored
    exact (congrArg View.vm h.1.view).symm.trans stored

theorem alone_migrateBody {request : Migration.Request} (subject : p.vm = request.vm)
    (source : p.source = request.source) (destination : p.destination = request.destination)
    (h : Stands request.vm item first Unsent past s) :
    Safe (alone request.vm job) (Concludes (.migrate request) first item) (migrateBody ctx p).run
      past s := by
  refine Safe.adapted (alone_check subject spared_unsent h) ?_ fun _ _ _ h => h.1
  rintro ⟨vm, targets⟩ past s ⟨h, checked⟩
  obtain ⟨stored, movable⟩ := checked _ rfl
  -- All three ways to move a machine end alike, so they are read off only once.
  have concludes : ∀ result past s, Arrives request.vm item first first p vm result past s →
      Concludes (.migrate request) first item result past s := by
    rintro ((failure | failure | failure) | moved) past s ends
    · exact ends.elim
    · exact ⟨first, ⟨vm, vm, stored, stored, movable.running, rfl, rfl⟩,
        Stands.forget ends⟩
    · exact ⟨first, ⟨vm, stored, movable.running, source ▸ movable.host⟩, ends⟩
    · obtain ⟨running, there, -, -, volumes, h⟩ := ends
      exact ⟨⟨some moved, volumes⟩, ⟨moved, rfl, running, destination ▸ there⟩, h⟩
  simp only
  split
  · exact (alone_compute movable stored h).mono concludes
  · split
    · exact (alone_acrossClusters movable stored h).mono concludes
    · exact (alone_withinCluster movable stored h).mono concludes

theorem alone_migrate {request : Migration.Request} (h : Waits request.vm first past s) :
    Safe (alone request.vm job) (fun result => Told (.migrate request) first result.isOk)
      (migrate ctx request).run past s := by
  refine Safe.andThen (safe_plan lasting_waits h) ?_ fun _ _ _ h => told_of_waits h.1
  intro p past s h
  obtain ⟨h, planned⟩ := h
  obtain ⟨subject, source, destination⟩ := planned p rfl
  refine alone_underWork (.migrate request) h ?_
  intro item past s h
  exact alone_migrateBody subject source destination h

end ControlPlane.Concurrent
