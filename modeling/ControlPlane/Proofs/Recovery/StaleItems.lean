import ControlPlane.Proofs.Concurrent.ControlPlaneJobs
import ControlPlane.Proofs.Concurrent.Schedule

/-!
# What a scan acts on

A recovery scan lists the open items of its node and then takes one lock after the other. An item
that was closed in between is not looked up again before its machine is settled. What can be relied
on is that the item does not change any more from the moment at which the lock is granted.
-/

namespace ControlPlane.Concurrent
open Control Operation

/-- Whenever a scan writes to a record of a machine or of volumes, it does so on behalf of an item
that was open when the scan has listed it. The item is still open then exactly if it was when the
lock of the machine was granted to the scan. -/
theorem scan_acts_on_started_iff {store : Store} {sys : System Duty (Except Failure Unit)}
    (orderly : Orderly store) (reached : Reaches duties (.start store) sys)
    {job : Job Duty (Except Failure Unit)} (mem : job ∈ sys.jobs) {ctx : Context}
    (scans : job.task = .scan ctx) (waits : job.waits = true) {t : Transaction}
    {rest : t.Reply → Program surroundings (Except Failure Unit)}
    (asks : job.program = .ask (.transact t) rest) (touches : t.Touches) :
    ∃ item granted, Listed ctx.node.id item job.past ∧
      heldSince ⟨ctx.node.id, item.vm⟩ job.past = some granted ∧ Concerns item t ∧
      (Started item.id sys.shared.store ↔ Started item.id granted) := by
  have kept := (Kept.start orderly).reaches reached
  have awaits := (kept.jobs job mem).awaits waits
  rw [scans, asks] at awaits
  obtain ⟨fit, -⟩ := awaits sys.shared .refl kept.coherent
  obtain ⟨item, granted, listed, since, concerns, same⟩ := fit t rfl touches
  refine ⟨item, granted, listed, since, concerns, ?_⟩
  unfold Started
  rw [same]

def onFirst : Store where
  vms := .ofList
    [{ Vm.register ⟨1⟩ "i-1" "guest" ⟨1⟩ ⟨1⟩ with
      state := .running, host := some ⟨5⟩ }]
  hosts := .ofList <| [⟨5⟩, ⟨6⟩, ⟨7⟩].map fun id =>
    ⟨id, "host", ⟨1⟩, ⟨1⟩, ⟨1⟩, .up, true, 10, ["kvm"]⟩

def obedient (id : Uuid) : Oracle := .smooth id default fun _ => .ok (.success [])

def vacant : Oracle := .smooth default default fun _ => .ok (.refusal "")

/-- A scan lists the item of a migration. Before it gets the lock, the migration is over, and so is
another one that moves the machine on to the third host. The first two hosts then say that they do
not run the machine. -/
def overtaken : List (Turn Duty) :=
  .launch (.operate trial (.migrate ⟨⟨1⟩, ⟨5⟩, ⟨6⟩, ∅⟩)) :: advance 0 7
    (obedient ⟨0, 1⟩) ++
    .launch (.scan trial) :: advance 1 1 .silent ++ advance 0 16 (obedient ⟨0, 1⟩) ++
    .launch (.operate trial (.migrate ⟨⟨1⟩, ⟨6⟩, ⟨7⟩, ∅⟩)) :: advance 2 23
      (obedient ⟨0, 2⟩) ++
    advance 1 5 vacant ++ [.make 1]

/-- The update by which a scan is about to record that a machine has stopped. -/
def stops? (job : Job Duty (Except Failure Unit)) : Option StateUpdate :=
  match job.program with
  | .ask (.transact (.swap u)) _ =>
    if job.task = .scan trial ∧ job.waits = true ∧ u.state = .stopped then some u else none
  | _ => none

theorem program_of_stops? {job : Job Duty (Except Failure Unit)} {u : StateUpdate}
    (h : stops? job = some u) :
      job.task = .scan trial ∧ job.waits = true ∧ u.state = .stopped ∧
      ∃ rest, job.program = .ask (.transact (.swap u)) rest := by
  simp only [stops?] at h
  split at h
  next written rest asks =>
    split at h
    next about =>
      cases h
      exact ⟨about.1, about.2.1, about.2.2, rest, asks⟩
    · cases h
  · cases h

/-- The machine runs on the third host, all items are closed, and the scan is about to record that
the machine has stopped. -/
theorem overtaken_scan_acts_on_closed :
    ∃ sys job u rest, Reaches duties (.start onFirst) sys ∧ job ∈ sys.jobs ∧
      job.program = .ask (.transact (.swap u)) rest ∧ u.state = .stopped ∧
      (sys.shared.store.vm? ⟨1⟩).any
        (fun vm => vm.state = .running ∧ vm.host = some ⟨7⟩) ∧
      ∃ item granted, ¬ Started item.id sys.shared.store ∧ Listed ⟨1⟩ item job.past ∧
        heldSince ⟨⟨1⟩, item.vm⟩ job.past = some granted ∧ Concerns item (.swap u) ∧
        (Started item.id sys.shared.store ↔ Started item.id granted) := by
  have orderly : Orderly onFirst := orderly_of_rest fun _ _ stored =>
    (by decide : ∀ vm ∈ onFirst.vms.rows, ¬ vm.state.InMotion) _ (Table.mem_of_get? stored)
  have leads : ((play? duties (.start onFirst) overtaken).any fun sys =>
      (sys.jobs.any fun job => (stops? job).isSome) &&
        ((sys.shared.store.vm? ⟨1⟩).any fun vm => vm.state = .running ∧
          vm.host = some ⟨7⟩) &&
          sys.shared.store.work.rows.all fun item => ¬ item.Open) = true := by decide +kernel
  obtain ⟨sys, played, leads⟩ := (Option.any_eq_true ..).1 leads
  simp only [Bool.and_eq_true, List.any_eq_true, List.all_eq_true, decide_eq_true_eq] at leads
  obtain ⟨⟨⟨job, mem, stops⟩, runs⟩, closed⟩ := leads
  obtain ⟨u, stops⟩ := Option.isSome_iff_exists.1 stops
  obtain ⟨scans, waits, stopped, rest, asks⟩ := program_of_stops? stops
  have reached : Reaches duties (.start onFirst) sys := (runs_of_play? played).reaches
  obtain ⟨item, granted, acts⟩ :=
    scan_acts_on_started_iff orderly reached mem scans waits asks trivial
  refine ⟨sys, job, u, rest, reached, mem, asks, stopped, runs, item, granted, ?_, acts⟩
  rintro ⟨x, stored, isOpen⟩
  exact closed x (Table.mem_of_get? stored) isOpen

end ControlPlane.Concurrent
