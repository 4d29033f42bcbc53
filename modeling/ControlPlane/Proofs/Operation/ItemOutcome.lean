import ControlPlane.Proofs.Concurrent.ControlPlaneJobs
import ControlPlane.Proofs.Concurrent.Schedule
import ControlPlane.Proofs.Scale.Outcomes
import ControlPlane.Proofs.Start.Outcomes

/-!
# What an item tells once its operation is over

Whatever planner, collaborators and hosts answer, the step at which an operation leaves its item
tells where the machine is.
-/

namespace ControlPlane.Concurrent
open Control Operation

variable {job : Nat} {s s' : Shared} {past past' : List Exchange} {first : View} {ctx : Context}
  {call : Call}

theorem alone_perform (placed : ∀ vm, first.vm = some vm → vm.Placed)
    (h : Waits call.vm first past s) :
    Safe (alone call.vm job) (fun result => Told call first result.isOk)
      (call.perform ctx).run past s := by
  have forgets : ∀ {α : Type} {p : Procedure α},
      Safe (alone call.vm job) (fun result => Told call first result.isOk) p.run past s →
      Safe (alone call.vm job) (fun result => Told call first result.isOk)
        (do let _ ← p : Procedure Unit).run past s := by
    intro α p h
    exact Safe.andThen h (fun _ _ _ h => h) fun _ _ _ h => h
  cases call with
  | start id => exact forgets (alone_start placed h)
  | stop id force => exact forgets (alone_stop h)
  | migrate request => exact forgets (alone_migrate h)
  | scale id resources => exact forgets (alone_scale h)
  | destroy id => exact forgets (alone_locally (.destroy id) (fun h => h) h)
  | recover id => exact forgets (alone_locally (.recover id) (fun h => h) h)
  | expunge id => exact forgets (alone_locally (.expunge id) (fun h => h) h)

/-- An operation that nobody else interferes with has opened an item, and is over. The item is done
exactly if the operation has succeeded and the machine is where it was to be. If the item is
cancelled, nothing has been sent or written; if it is in error, the machine is at rest as before;
and if it is still open, the machine is recorded as it was when the last command was sent. -/
theorem step_tells_outcome {result : Except Failure Unit} {item : Work.Item}
    (placed : ∀ vm, s.store.vm? call.vm = some vm → vm.Placed)
    (run : Run (Undisturbed call.vm) job (call.perform ctx).run [] s result past s')
    (began : Began item past) :
    ∃ x, s'.store.item? item.id = some x ∧
      Tells call (s.store.view call.vm) (s'.store.view call.vm) past result.isOk x.step := by
  exact (alone_perform placed waits_first).run_sound run item began

/-- Carries a program out with nobody else around. -/
def solo? {α : Type} (job : Nat) (oracle : Oracle) :
    Program surroundings α → List Exchange → Shared → Option (α × List Exchange × Shared)
  | .done a, past, s => some (a, past, s)
  | .ask r rest, past, s =>
    ((s.enter job r).answer? job oracle r).bind fun (reply, s') =>
      solo? job oracle (rest reply) (past ++ [⟨r, reply, (s.enter job r).store⟩]) s'

theorem run_of_solo? {α : Type} {oracle : Oracle} {rely : Shared → Shared → Prop} {a : α}
    {p : Program surroundings α} (refl : ∀ s, rely s s)
    (h : solo? job oracle p past s = some (a, past', s')) : Run rely job p past s a past' s' := by
  induction p generalizing past s with
  | done b =>
    cases h
    exact .done ..
  | ask r rest ih =>
    obtain ⟨⟨reply, s₃⟩, answered, h⟩ := Option.bind_eq_some_iff.1 h
    exact .ask (refl s) (refl _) (Shared.answers_of_answer? answered) (ih reply h)

def opened? : Exchange → Option Work.Item
  | ⟨.transact (.openItem item), .ok (), _⟩ => some item
  | _ => none

theorem began_of_opened? {e : Exchange} {item : Work.Item} (mem : e ∈ past)
    (h : opened? e = some item) : Began item past := by
  unfold opened? at h
  split at h
  · cases h
    exact ⟨_, mem⟩
  · cases h

def oneAwake : Store where
  vms := .ofList
    [{ Vm.register ⟨1⟩ "i-1" "awake" ⟨1⟩ ⟨1⟩ with
      state := .running, host := some ⟨5⟩ }]

/-- A stop that no host answers leaves its item open. -/
theorem unanswered_stop_is_told :
    ∃ result past s' item x, Run (Undisturbed ⟨1⟩) 0
      ((Call.stop ⟨1⟩ false).perform trial).run [] ⟨oneAwake, {}, []⟩ result past s' ∧
      Began item past ∧ s'.store.item? item.id = some x ∧ x.step = .started ∧
      Tells (.stop ⟨1⟩ false) (oneAwake.view ⟨1⟩)
        (s'.store.view ⟨1⟩) past result.isOk x.step := by
  have placed : ∀ vm, oneAwake.vm? ⟨1⟩ = some vm → vm.Placed := fun _ stored =>
    (by unfold Vm.Placed; decide : ∀ vm ∈ oneAwake.vms.rows, vm.Placed) _
      (Table.mem_of_get? stored)
  have ends :
    ((solo? 0 .silent ((Call.stop ⟨1⟩ false).perform trial).run [] ⟨oneAwake, {}, []⟩).any
      fun (_, past, s') => (past.any fun e => (opened? e).isSome) &&
        s'.store.work.rows.all fun x => x.step = .started) = true := by decide
  obtain ⟨⟨result, past, s'⟩, carried, ends⟩ := (Option.any_eq_true ..).1 ends
  simp only [Bool.and_eq_true, List.any_eq_true, List.all_eq_true, decide_eq_true_eq] at ends
  obtain ⟨⟨e, mem, opens⟩, unfinished⟩ := ends
  obtain ⟨item, opens⟩ := Option.isSome_iff_exists.1 opens
  have run : Run (Undisturbed (Call.stop ⟨1⟩ false).vm) 0
    ((Call.stop ⟨1⟩ false).perform trial).run []
    ⟨oneAwake, {}, []⟩ result past s' := run_of_solo? (.refl _) carried
  have began := began_of_opened? mem opens
  obtain ⟨x, stored, tells⟩ := step_tells_outcome placed run began
  exact ⟨result, past, s', item, x, run, began, stored,
    unfinished x (Table.mem_of_get? stored), tells⟩

end ControlPlane.Concurrent
