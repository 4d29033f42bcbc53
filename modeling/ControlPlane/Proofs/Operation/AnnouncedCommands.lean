import ControlPlane.Proofs.Operation.PlannedMoves
import ControlPlane.Proofs.Recovery.StaleItems

/-!
# Commands are announced

While an operation goes on, the others keep away from the record of its machine, unless a recovery
scan acts on an item that was closed long ago. So whenever a command of the operation is on its way,
the store names the hosts that a recovery scan would have to ask.
-/

namespace ControlPlane.Concurrent
open Work Control Operation Procedure

variable {job : Nat} {s : Shared} {past : List Exchange} {α : Type} {ctx : Context} {v : VmId}

section
variable {node : Node} {item : Item}

theorem idles_of_clerical {r : Control.Request} (clerical : r.Clerical) : Idles r := by
  intro commands
  cases r <;> first | exact commands | exact clerical

theorem idles_start {vm : VmId} {operation : Operation} {plan : Option Plan} :
    (Work.start node vm operation plan).run.Within Idles fun _ => True :=
  (start_within ..).mono (fun _ => idles_of_clerical) fun _ _ => trivial

theorem idles_settle {result : Except Ending α} :
    (settle ctx item result).run.Within Idles fun _ => True :=
  (settle_asks (fun _ => idles_of_clerical) fun _ _ => id).mono (fun _ h => h) fun _ _ => trivial

end

/-- An operation writes before it sends if its body does, from the moment its item is open. -/
theorem foreseen_underWork {operation : Operation} {plan : Option Plan} {body : Item → Body α}
    (idle : Idle job s) (each : ∀ {item past s}, item.vm = v → Working job item plan s →
      Safe (foreseeing item.vm item.owner job) Anyhow (body item).run past s) :
    Safe (foreseeing v ctx.node.id job) Anyhow (underWork ctx v operation plan body).run past s :=
  Safe.underWork (fun clerical => foretold_of_idle (idles_of_clerical clerical))
    (foretold_of_idle id) idle fun subject working => subject ▸ each subject working

theorem idles_locally {operation : Operation} {allowed : List State} {e : ControlPlane.Event} :
    (locally ctx v operation allowed e).run.Within Idles fun _ => True := by
  refine .andThen idles_start (fun item _ => ?_) fun _ _ => trivial
  refine .ofProgram (P := fun _ => True) (.then (P := fun _ => True) ?_ fun _ _ => trivial)
    fun _ _ => idles_settle
  refine .andThen (loadVm_within v fun no => no) (fun vm _ => ?_) fun _ _ => trivial
  refine .ofExcept (fun _ _ => ?_) fun _ _ => trivial
  exact .andThen (idles_run _) (fun _ _ => trivial) fun _ _ => trivial

theorem foreseen_perform (call : Call) (idle : Idle job s) :
    Safe (foreseeing call.vm ctx.node.id job) Anyhow (call.perform ctx).run past s := by
  have discard : ∀ {α : Type} {action : Procedure α},
      Safe (foreseeing call.vm ctx.node.id job) Anyhow action.run past s →
        Safe (foreseeing call.vm ctx.node.id job) Anyhow
          (do let _ ← action : Procedure Unit).run past s :=
    fun h => Safe.andThen h (fun _ _ _ _ => trivial) fun _ _ _ _ => trivial
  cases call with
  | start vm =>
    exact discard (foreseen_underWork idle fun subject h => foreseen_startBody subject h)
  | stop vm force =>
    exact discard (foreseen_underWork idle fun subject h => foreseen_stopBody subject h)
  | migrate request =>
    have plans : Safe (operating ctx.node.id job) _ (Migration.plan request).run past s :=
      Safe.within (Migration.plan_within request) (fun _ silent => silent.1) lasting_idle idle
    refine discard (Safe.andThen (plans.again (Migration.plan_within request)
      fun silent => foretold_of_idle (not_commands_of_silent silent)) (fun p past s h => ?_)
      fun _ _ _ _ => trivial)
    obtain ⟨named, idle⟩ := h
    exact foreseen_underWork idle fun subject working =>
      foreseen_migrateBody ((named p rfl).trans subject.symm) working
  | scale vm resources =>
    exact discard (foreseen_underWork idle fun subject h => foreseen_scaleBody subject h)
  | destroy vm => exact discard (foreseen_within idles_locally)
  | recover vm => exact discard (foreseen_within idles_locally)
  | expunge vm => exact discard (foreseen_within idles_locally)

variable {sys sys' : System Duty (Except Failure Unit)}

def Unscanned (v : VmId) (sys : System Duty (Except Failure Unit)) : Prop :=
  ∀ job ∈ sys.jobs, ∀ ctx u rest, job.task = .scan ctx → job.waits = true →
    job.program = .ask (.transact (.swap u)) rest → u.vm ≠ v

/-- What the jobs can come to while no recovery scan writes to the record of the machine. -/
def Meanwhile (v : VmId) :
    System Duty (Except Failure Unit) → System Duty (Except Failure Unit) → Prop :=
  Relation.ReflTransGen fun a b => Unscanned v a ∧ Move duties a b

/-- While the item of a job covers the machine, whoever else writes to its record is a recovery
scan. -/
theorem Kept.spares (h : Kept sys) (unscanned : Unscanned v sys) (move : Move duties sys sys')
    {job : Job Duty (Except Failure Unit)} (mem : job ∈ sys.jobs) (mem' : job ∈ sys'.jobs) :
    Spares v job.number sys.shared sys'.shared := by
  intro x vm covers here drew stored
  have still : sys'.shared.store = sys.shared.store →
      ∃ vm', sys'.shared.store.vm? v = some vm' ∧ vm'.state = vm.state ∧ vm'.host = vm.host :=
    fun same => ⟨vm, same ▸ stored, rfl, rfl⟩
  cases move with
  | crash node => exact still rfl
  | step step =>
    rcases step.advances with ⟨task, rfl⟩ | ⟨mover, moved, advance⟩
    · exact still rfl
    rcases advance.store with same | ⟨t, rest, asks, waits, store⟩
    · exact still same
    refine ⟨t.onVm vm, by rw [store, Transaction.vm?_apply, stored]; rfl, ?_⟩
    rcases onVm_cases t vm with ⟨state, host, -⟩ | ⟨u, rfl, about, -⟩
    · exact ⟨state, host⟩
    have about : u.vm = v := about.trans (Store.id_of_vm? stored)
    cases duty : mover.task with
    | scan ctx => exact absurd about (unscanned mover advance.mem.1 ctx u rest duty waits asks)
    | operate ctx call =>
      have fit := (h.jobs mover advance.mem.1).fit h.coherent waits asks
      rw [duty] at fit
      obtain ⟨y, yvm, coversY, drewY⟩ := fit u rfl
      have e : y = x := coversY.unique covers (yvm.trans (about.trans here.symm))
      exact absurd (h.coherent.stamps drew (e ▸ drewY)) (advance.bystander h.numbered mem mem')

/-- An operation that was called for keeps to writing before it sends. -/
structure Heralds (call : Call) (ctx : Context) (number : Nat)
    (sys : System Duty (Except Failure Unit)) : Prop where
  kept : Kept sys
  called : number < sys.next
  adheres : ∀ job ∈ sys.jobs, job.number = number → job.task = .operate ctx call ∧
    Adheres (foreseeing call.vm ctx.node.id number) Anyhow job sys.shared

variable {call : Call} {number : Nat}

theorem Heralds.launch (h : Kept sys) :
    Heralds call ctx sys.next (sys.launch duties (.operate ctx call)) where
  kept := h.step (.launch sys _)
  called := Nat.lt_succ_self _
  adheres job mem here := by
    rcases List.mem_cons.1 mem with rfl | mem
    · refine ⟨rfl, fun _ => foreseen_perform call fun id drew => ?_, nofun⟩
      exact absurd (h.stamps drew) (Nat.lt_irrefl _)
    · exact absurd here (Nat.ne_of_lt (h.numbered.below job mem))

theorem Heralds.move (h : Heralds call ctx number sys) (unscanned : Unscanned call.vm sys)
    (move : Move duties sys sys') : Heralds call ctx number sys' := by
  have kept := h.kept.move move
  have grows : sys.next ≤ sys'.next := by
    cases move with
    | crash node => exact Nat.le_refl _
    | step step =>
      rcases step.advances with ⟨task, rfl⟩ | ⟨mover, moved, advance⟩
      · exact Nat.le_succ _
      · exact Nat.le_of_eq advance.next.symm
  refine ⟨kept, Nat.lt_of_lt_of_le h.called grows, fun job mem here => ?_⟩
  rcases move.adheres mem with ⟨task, rfl, rfl⟩ | ⟨job₀, mem₀, same, task, adheres⟩
  · exact absurd here (Nat.ne_of_lt h.called).symm
  · obtain ⟨duty, before⟩ := h.adheres job₀ mem₀ (same.trans here)
    have duty : job.task = .operate ctx call := task.symm.trans duty
    refine ⟨duty, adheres here.symm stable_anyhow h.kept.coherent kept.coherent
      (fun there => ?_) before⟩
    have passes := h.kept.passes move there mem
    have spares := h.kept.spares unscanned move there mem
    rw [here] at passes spares
    rw [duty] at passes
    exact .single ⟨passes, spares⟩

theorem Heralds.meanwhile (h : Heralds call ctx number sys)
    (meanwhile : Meanwhile call.vm sys sys') :
    Heralds call ctx number sys' := by
  induction meanwhile with
  | refl => exact h
  | tail _ moves ih => exact ih.move moves.1 moves.2

/-- Whenever a command of an operation is on its way, the item of the operation is the open item of
its machine, and the store already says to which hosts a recovery scan would have to turn: a start
goes to the host on which the machine is recorded as starting, a stop to the one on which it is
stopping, or on which the guru has just refused its start, a change of its resources to the one on
which it runs, and whatever belongs to a migration to the hosts of the plan that the item has. -/
theorem commands_are_announced {store : Store} (orderly : Orderly store)
    (reached : Reaches duties (.start store) sys)
    (meanwhile : Meanwhile call.vm (sys.launch duties (.operate ctx call)) sys')
    {job : Job Duty (Except Failure Unit)} (mem : job ∈ sys'.jobs)
    (called : job.number = sys.next) (waits : job.waits = true) {r : Control.Request}
    {rest : r.Reply → Program surroundings (Except Failure Unit)}
    (asks : job.program = .ask r rest) (commands : r.Commands) :
    ∃ x host k body wait, r = .send (.ofBody host k body wait) ∧ x.vm = call.vm ∧
      sys'.shared.store.Covers x ∧ sys'.shared.Drew job.number x.id ∧
      Announced job.past sys'.shared.store x host k body := by
  have heralds : Heralds call ctx sys.next sys' :=
    (Heralds.launch ((Kept.start orderly).reaches reached)).meanwhile meanwhile
  have told : Foretold sys.next call.vm job.past sys'.shared r :=
    (heralds.adheres job mem called).2.fit heralds.kept.coherent waits asks
  exact called ▸ told commands

/-- Where no scan has been started, none writes. -/
theorem Runs.meanwhile (runs : Runs duties sys sys')
    (called : ∀ job ∈ sys'.jobs, ∀ ctx, job.task ≠ .scan ctx) : Meanwhile v sys sys' := by
  induction runs with
  | refl => exact .refl
  | tail _ step ih =>
    refine .tail (ih fun job mem ctx scans => ?_) ⟨fun job mem ctx _ _ scans => ?_, .step step⟩
    all_goals
      obtain ⟨job', mem', task⟩ := step.keeps mem
      exact absurd (task.trans scans) (called job' mem' ctx)

/-- The command that a job has sent and for which it waits. -/
def command? (job : Job Duty (Except Failure Unit)) : Option Agent.Envelope :=
  match job.program with
  | .ask (.send e) _ => if job.waits = true ∧ e.Commands then some e else none
  | _ => none

theorem program_of_command? {job : Job Duty (Except Failure Unit)} {e : Agent.Envelope}
    (h : command? job = some e) :
    job.waits = true ∧ e.Commands ∧ ∃ rest, job.program = .ask (.send e) rest := by
  simp only [command?] at h
  split at h
  next e rest asks =>
    split at h
    next waits =>
      cases h
      exact ⟨waits.1, waits.2, rest, asks⟩
    · cases h
  · cases h

def outward : Call := .migrate ⟨⟨1⟩, ⟨5⟩, ⟨6⟩, ∅⟩

def outbound : System Duty (Except Failure Unit) :=
  (System.start onFirst).launch duties (.operate trial outward)

/-- When the command to migrate is on its way, the item tells from where to where. -/
theorem migration_is_announced :
    ∃ sys job e rest, Meanwhile outward.vm outbound sys ∧ job ∈ sys.jobs ∧
      job.waits = true ∧ job.program = .ask (.send e) rest ∧ e.Commands ∧
      ∃ x host k body wait, Control.Request.send e = .send (.ofBody host k body wait) ∧
        x.vm = outward.vm ∧ sys.shared.store.Covers x ∧ sys.shared.Drew job.number x.id ∧
        Announced job.past sys.shared.store x host k body := by
  have orderly : Orderly onFirst := orderly_of_rest fun _ _ stored =>
    (by decide : ∀ vm ∈ onFirst.vms.rows, ¬ vm.state.InMotion) _ (Table.mem_of_get? stored)
  have leads :
    ((play? duties outbound (advance 0 13 (obedient ⟨0, 1⟩) ++ [.make 0])).any fun sys =>
      (sys.jobs.any fun job => job.number = 0 ∧ (command? job).isSome) &&
        sys.jobs.all fun job => job.task = .operate trial outward) = true := by
    decide +kernel
  obtain ⟨sys, played, leads⟩ := (Option.any_eq_true ..).1 leads
  simp only [Bool.and_eq_true, List.any_eq_true, List.all_eq_true, decide_eq_true_eq] at leads
  obtain ⟨⟨job, mem, first, asks⟩, called⟩ := leads
  obtain ⟨e, commands⟩ := Option.isSome_iff_exists.1 asks
  obtain ⟨waits, commands, rest, asks⟩ := program_of_command? commands
  have meanwhile : Meanwhile outward.vm outbound sys :=
    (runs_of_play? played).meanwhile fun job mem ctx scans => by
      rw [called job mem] at scans
      cases scans
  exact ⟨sys, job, e, rest, meanwhile, mem, waits, asks, commands,
    commands_are_announced orderly .refl meanwhile mem first waits asks commands⟩

end ControlPlane.Concurrent
