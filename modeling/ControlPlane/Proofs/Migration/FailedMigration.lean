import ControlPlane.Proofs.Operation.PlannedMoves
import ControlPlane.Proofs.Start.DismissedHosts
import ControlPlane.Simulation.Sample

/-!
# When a migration counts as failed

A migration with volumes inside a cluster is closed as failed when the destination has refused it,
or when its answer was lost and the source still has the machine. There is a third case: the
destination has reported success, but nobody can read where it has put the volumes. Nothing is known
then of the source.
-/

namespace ControlPlane

def Control.Request.Fetches : Control.Request → Prop
  | .send e => e.kind = Enumeration.name Agent.Kind.migrateWithStorage
  | .sendBoth first second => first.kind = Enumeration.name Agent.Kind.migrateWithStorage ∨
      second.kind = Enumeration.name Agent.Kind.migrateWithStorage
  | _ => False

namespace Concurrent
open Work Control Operation Procedure Migration Agent

/-- The host was asked for the power of the machine, and has said that it runs there. -/
def Affirms (host : HostId) (token : String) : Exchange → Prop
  | ⟨.sendBoth e _, answers, _⟩ =>
    (∃ wait, e = Agent.probe host token wait) ∧ Agent.powerOf host answers.1 = .ok .on
  | _ => False

/-- The one time that the destination was told to fetch the machine, what it has answered, and what
has been heard since. -/
structure Fetched (p : Plan) (body : MigrateWithStorageBody) (answer : Except Failure Answer)
    (after past : List Exchange) : Prop where
  told : ∃ before wait seen,
    past = before ++ ⟨.send (.ofBody p.destination .migrateWithStorage body wait), answer,
      seen⟩ :: after ∧
      ∀ e ∈ before, ¬ e.request.Fetches
  once : ∀ e ∈ after, ¬ e.request.Fetches

/-- Why a migration with volumes is taken to have failed: the destination has not done it, and
knows; or its report makes no sense; or no answer has come, and the source has the machine. -/
def Excused (p : Plan) (past : List Exchange) : Prop :=
  ∃ body answer after, Fetched p body answer after past ∧ body.source = p.source ∧
    (Definite answer ∨ Garbled .migrateWithStorage answer ∨
      (∃ failure, answer = .error failure ∧ failure.kind.Ambiguous) ∧
        ∃ e ∈ after, Affirms p.source body.token e)

/-- The item may be closed as failed. -/
def Warranted (item : Item) (past : List Exchange) : Prop :=
  ∀ p, item.plan = some p → p.MovesStorage → p.crossCluster = false → Excused p past

def Unfetched (past : List Exchange) : Prop := ∀ e ∈ past, ¬ e.request.Fetches

structure Even (r : Control.Request) : Prop where
  fetches : ¬ r.Fetches
  closes : ∀ item now, r ≠ .transact (.closeItem item .error now)

abbrev warranting (job : Nat) : Contract :=
  minding (fun _ => True) (fun past r => ∀ item now,
    r = .transact (.closeItem item .error now) → Warranted item past) job

variable {job : Nat} {s : Shared} {past after : List Exchange} {e : Exchange} {p : Plan}
  {item : Item} {body : MigrateWithStorageBody} {answer : Except Failure Answer} {ctx : Context}
  {vm : Vm} {α : Type} {r : Control.Request} {targets : List VolumeTarget}

theorem Fetched.append (h : Fetched p body answer after past) (other : ¬ e.request.Fetches) :
    Fetched p body answer (after ++ [e]) (past ++ [e]) := by
  obtain ⟨⟨before, wait, seen, rfl, unfetched⟩, once⟩ := h
  refine ⟨⟨before, wait, seen, ?_, unfetched⟩, fun f mem => ?_⟩
  · rw [List.append_assoc, List.cons_append]
  · rcases List.mem_append.1 mem with mem | mem
    · exact once f mem
    · exact List.mem_singleton.1 mem ▸ other

theorem Excused.append (h : Excused p past) (other : ¬ e.request.Fetches) :
    Excused p (past ++ [e]) := by
  obtain ⟨body, answer, after, fetched, source,
    definite | garbled | ⟨lost, f, mem, affirms⟩⟩ := h
  · exact ⟨body, answer, _, fetched.append other, source, .inl definite⟩
  · exact ⟨body, answer, _, fetched.append other, source, .inr (.inl garbled)⟩
  · exact ⟨body, answer, _, fetched.append other, source,
      .inr (.inr ⟨lost, f, List.mem_append_left _ mem, affirms⟩)⟩

theorem Warranted.append (h : Warranted item past) (other : ¬ e.request.Fetches) :
    Warranted item (past ++ [e]) :=
  fun p planned moves within => (h p planned moves within).append other

theorem Unfetched.append (h : Unfetched past) (other : ¬ e.request.Fetches) :
    Unfetched (past ++ [e]) := by
  intro f mem
  rcases List.mem_append.1 mem with mem | mem
  · exact h f mem
  · exact List.mem_singleton.1 mem ▸ other

theorem even_of_other (noSend : ¬ r.Sends)
    (closes : ∀ item now, r ≠ .transact (.closeItem item .error now)) :
    Even r := by
  refine ⟨fun fetches => noSend ?_, closes⟩
  cases r with
  | send e => trivial
  | sendBoth e e' => trivial
  | _ => exact fetches.elim

theorem even_of_silent (silent : r.Silent) : Even r := by
  refine even_of_other silent.2 ?_
  rintro item now rfl
  exact silent.1

theorem even_of_clerical (clerical : r.Clerical) : Even r := by
  refine even_of_other (fun sends => ?_) ?_
  · cases r <;> first | exact clerical | exact sends
  · rintro item now rfl
    exact clerical

theorem even_ofBody {k : Kind} (other : k ≠ .migrateWithStorage) (host : HostId)
    (body : k.Body) (wait : Span) :
    Even (.send (.ofBody host k body wait)) :=
  ⟨fun same => other (Kind.name_injective same), by rintro _ _ ⟨⟩⟩

theorem even_probe {host : HostId} {token : String} {wait : Span} :
    Even (.send (probe host token wait)) :=
  even_ofBody (k := .checkState) (by decide) host ⟨token⟩ wait

theorem even_probes {first second : HostId} {token : String} {wait : Span} :
    Even (.sendBoth (probe first token wait) (probe second token wait)) := by
  refine ⟨?_, by rintro _ _ ⟨⟩⟩
  rintro (fetches | fetches)
  · exact even_probe.fetches fetches
  · exact even_probe.fetches fetches

theorem even_within {P : α → Prop} {q : Program surroundings α} (within : q.Within Even P) :
    Safe (warranting job) (fun a _ _ => P a) q past s :=
  (Safe.minds (R := fun _ => True) within
    (fun even _ item now same => absurd same (even.closes item now))
    (fun _ _ => trivial) trivial).mono fun _ _ _ h => h.1

theorem even_record {moves : List VolumeMove} : (record vm p moves).run.Within Even fun _ => True :=
  record_asks (fun _ => even_of_silent) (even_of_other id (by rintro _ _ ⟨⟩))
    fun _ => even_of_other id (by rintro _ _ ⟨⟩)

theorem even_compute : (compute ctx vm p).run.Within Even fun _ => True :=
  compute_asks (fun _ => even_of_silent) (even_ofBody (k := .migrate) (by decide) _ _ _)
    (fun _ => even_probe) (even_of_other id (by rintro _ _ ⟨⟩)) fun _ =>
      even_of_other id (by rintro _ _ ⟨⟩)

theorem even_acrossClusters : (acrossClusters ctx vm p targets).run.Within Even fun _ => True := by
  refine .adapted (dispatch_asks (even_ofBody (k := .receive) (by decide) _ _ _))
    fun rendezvous => ?_
  have sends : (send ctx vm p rendezvous).run.Within Even
      fun result => ∀ failure, result ≠ .error (.rejected failure) :=
    send_asks (even_ofBody (k := .send) (by decide) _ _ _) even_probe
      (even_ofBody (k := .cleanup) (by decide) _ _ _)
  refine .andThen sends (fun _ _ => ?_) fun _ _ => trivial
  refine .adapted (.demand (even_of_silent ⟨trivial, id⟩)) fun _ => ?_
  refine .ofProgram (dispatch_asks (even_ofBody (k := .complete) (by decide) _ _ _))
    fun reported _ => ?_
  cases reported with
  | ok reported => exact even_record.then fun _ _ => trivial
  | error failure => exact .ofProgram (split_asks even_probes) fun _ _ => trivial

theorem lost_of_interpret {k : Kind} {host : HostId} {failure : Failure}
    (h : k.interpret host answer = .error failure) (lost : failure.kind.Ambiguous) :
    answer = .error failure := by
  cases answer with
  | error failure' =>
    cases h
    rfl
  | ok a =>
    -- A failure that is made of an answer is definite.
    have definite : ∀ f, f = failure → f.kind = .fault → False := by
      rintro f rfl fault
      rw [fault] at lost
      exact absurd lost (by decide)
    simp only [Kind.interpret] at h
    split at h
    · split at h
      · cases h
      · exact (definite _ (Except.error.inj h) rfl).elim
    · exact (definite _ (Except.error.inj h) rfl).elim

abbrev Fails (p : Plan) (result : Except Ending α) : Assertion := fun past _ =>
  ∀ failure, result = .error (.failed failure) → Excused p past

/-- A move that has been recorded, or not, does not count as failed. -/
theorem recorded_fails {moves : List VolumeMove} :
    Safe (warranting job) (Fails p) (resolving (record vm p moves)).run past s := by
  refine Safe.adapt ((even_within even_record).mono fun result _ _ _ failure e => ?_)
  cases result <;> cases e

theorem fails_locateWithStorage {lost : Failure}
    (h : Fetched p ⟨vm.token, p.source, targets⟩ (.error lost) [] past)
    (ambiguous : lost.kind.Ambiguous) :
    Safe (warranting job) (Fails p) (locateWithStorage ctx vm p targets lost).run past s := by
  refine Safe.ofProgram (Q := fun powers past _ => powers.1 = .ok .on → Excused p past) ?_ ?_
  · refine Safe.observe (P := fun past _ => Fetched p ⟨vm.token, p.source, targets⟩
      (.error lost) [] past) trivial
      stable_minding h (fun _ _ _ item now same => absurd same (even_probes.closes item now))
      fun s answers h _ _ on => ?_
    refine ⟨_, _, _, h.append even_probes.fetches, rfl,
      .inr (.inr ⟨⟨lost, rfl, ambiguous⟩, _, List.mem_singleton_self _, ?_⟩)⟩
    exact ⟨⟨_, rfl⟩, on⟩
  · intro powers past s excused
    split
    · exact recorded_fails
    · exact fun _ _ => excused rfl
    · rintro _ ⟨⟩

theorem fails_withinCluster (h : Unfetched past) :
    Safe (warranting job) (Fails p) (withinCluster ctx vm p targets).run past s := by
  refine Safe.ofProgram (Q := fun result past _ => ∃ answer,
    result = Kind.migrateWithStorage.interpret p.destination answer ∧
      Fetched p ⟨vm.token, p.source, targets⟩ answer [] past) ?_ ?_
  · refine Safe.observe (P := fun past _ => Unfetched past) trivial stable_minding h
      (fun _ _ _ item now same => nomatch same) fun s answer h _ _ => ?_
    exact ⟨answer, rfl, ⟨past, _, s.store, rfl, h⟩,
      fun _ mem => absurd mem List.not_mem_nil⟩
  rintro result past s ⟨answer, interpreted, fetched⟩
  cases result with
  | ok reported => exact recorded_fails
  | error failure =>
    by_cases ambiguous : failure.kind.Ambiguous
    · simp only [if_pos ambiguous]
      obtain rfl := lost_of_interpret interpreted.symm ambiguous
      exact fails_locateWithStorage fetched ambiguous
    · simp only [if_neg ambiguous]
      refine fun _ _ => ⟨_, answer, [], fetched, rfl, ?_⟩
      rcases definite_or_garbled interpreted.symm ambiguous with definite | garbled
      · exact .inl definite
      · exact .inr (.inl garbled)

theorem lasting_unfetched :
    Lasting (warranting job) Request.Silent fun past _ => Unfetched past where
  stable := stable_minding
  fit silent _ _ item now same := absurd same ((even_of_silent silent).closes item now)
  keeps silent h := h.append (even_of_silent silent).fetches

theorem fails_migrateBody (h : Unfetched past) :
    Safe (warranting job)
      (fun result past s => p.MovesStorage → p.crossCluster = false → Fails p result past s)
      (migrateBody ctx p).run past s := by
  refine Safe.adapted (Q := fun _ past _ => Unfetched past) ?_ ?_ (by rintro _ _ _ _ _ _ _ ⟨⟩)
  · refine (safe_check (T := fun _ _ _ => True) lasting_unfetched (fun _ => ?_) h
      fun _ _ _ => trivial).mono
      fun _ _ _ h => h.1
    exact ⟨fun _ _ _ _ _ _ => trivial, fun silent _ _ item now same =>
      absurd same ((even_of_silent silent).closes item now), fun _ _ => trivial⟩
  rintro ⟨vm, targets⟩ past s h
  simp only
  split
  next still => exact (even_within even_compute).mono fun _ _ _ _ moves => absurd moves still
  · split
    next across =>
      exact (even_within even_acrossClusters).mono fun _ _ _ _ _ within => by
        simp [across] at within
    · exact (fails_withinCluster h).mono fun _ _ _ fails _ _ => fails

theorem warranting_settle {result : Except Ending α}
    (h : ∀ failure, result = .error (.failed failure) → Warranted item past) :
    Safe (warranting job) Anyhow (settle ctx item result).run past s := by
  have finish : ∀ {step past s}, step ≠ .error →
      Safe (warranting job) Anyhow (Work.finish ctx.node item step).run past s := by
    intro step past s other
    refine (even_within (finish_asks (fun _ => even_of_clerical) fun now => ?_)).mono
      fun _ _ _ _ => trivial
    exact even_of_other id (by rintro _ _ ⟨⟩; exact other rfl)
  rcases result with (failure | failure | failure) | a
  · exact Safe.andThen (finish (by decide)) (fun _ _ _ _ => trivial) fun _ _ _ _ => trivial
  · -- The work is failed here and nowhere else, and it is the item of this very job that is
    -- closed.
    refine Safe.andThen (Q := Anyhow) ?_ (fun _ _ _ _ => trivial) fun _ _ _ _ => trivial
    refine (Safe.minds (K := fun r => ¬ r.Fetches ∧ ∀ item' now,
      r = .transact (.closeItem item' .error now) →
      item' = item) (R := Warranted item) (finish_asks (fun _ clerical => ?_) fun now => ?_) ?_ ?_
      (h failure rfl)).mono fun _ _ _ _ => trivial
    · exact ⟨(even_of_clerical clerical).fetches, fun _ _ same =>
        absurd same ((even_of_clerical clerical).closes _ _)⟩
    · exact ⟨id, by rintro _ _ ⟨⟩; rfl⟩
    · rintro past r ⟨-, own⟩ warranted item' now same
      exact own item' now same ▸ warranted
    · exact fun kind warranted => warranted.append kind.1
  · have abandon : (Work.abandon ctx.node item).run.Within Even fun _ => True :=
      .ask (even_of_clerical (r := .unlock ..) trivial)
    exact Safe.andThen (even_within abandon) (fun _ _ _ _ => trivial) fun _ _ _ _ => trivial
  · exact Safe.andThen (finish (by decide)) (fun _ _ _ _ => trivial) fun _ _ _ _ => trivial

theorem warranting_migrate {request : Migration.Request} :
    Safe (warranting job) Anyhow (migrate ctx request).run [] s := by
  have unfetched : Unfetched [] := fun _ mem => absurd mem List.not_mem_nil
  refine Safe.andThen (safe_plan lasting_unfetched unfetched) (fun p past s h => ?_)
    fun _ _ _ _ => trivial
  refine Safe.andThen (Q := fun result past _ =>
    (∀ item, result = .ok item → item.plan = some p) ∧
    Unfetched past) ?_ (fun item past s h => ?_) fun _ _ _ _ => trivial
  · exact Safe.minds (start_within ..) (fun clerical _ item now same =>
      absurd same ((even_of_clerical clerical).closes item now))
      (fun clerical unfetched => unfetched.append (even_of_clerical clerical).fetches) h.1
  · obtain ⟨planned, unfetched⟩ := h
    refine Safe.ofProgram (fails_migrateBody unfetched) fun ending past s fails => ?_
    refine warranting_settle fun failure failed p' planned' moves within => ?_
    cases (planned item rfl).symm.trans planned'
    exact fails moves within failure failed

variable {sys : System Duty (Except Failure Unit)}
  {j : Job Duty (Except Failure Unit)} {store : Store}

/-- Whenever a migration with volumes inside a cluster is about to close its item as failed, it has
told the destination exactly once to fetch the machine, and the destination has answered that it did
not; or it has answered that it did, but what it says of the volumes cannot be read; or no answer
has come, and the source has said since that it has the machine. -/
theorem failed_migration_is_excused (reached : Reaches duties (.start store) sys)
    (mem : j ∈ sys.jobs) {request : Migration.Request}
    (migrates : j.task = .operate ctx (.migrate request)) (waits : j.waits = true)
    {now : Timestamp}
    {rest : (Transaction.closeItem item .error now).Reply →
      Program surroundings (Except Failure Unit)}
    (asks : j.program = .ask (.transact (.closeItem item .error now)) rest)
    (planned : item.plan = some p) (moves : p.MovesStorage) (within : p.crossCluster = false) :
    ∃ body answer after, Fetched p body answer after j.past ∧ body.source = p.source ∧
      (Definite answer ∨ Garbled .migrateWithStorage answer ∨
        (∃ failure, answer = .error failure ∧ failure.kind.Ambiguous) ∧
          ∃ e ∈ after, Affirms p.source body.token e) := by
  have safe : ∀ k s, Safe (warranting k) Anyhow (duties.program j.task) [] s := by
    intro k s
    rw [migrates]
    exact Safe.andThen warranting_migrate (fun _ _ _ _ => trivial) fun _ _ _ _ => trivial
  have fit := (minds_of_reaches (fun _ => trivial) safe reached mem).fit trivial waits asks
  exact fit item now rfl p planned moves within

/-- A machine with a volume, two hosts, and two pools that both of them reach. -/
def oneCluster : Store where
  vms := .ofList
    [{ Vm.register ⟨1⟩ "i-1" "guest" ⟨1⟩ ⟨1⟩ with
      state := .running, host := some ⟨5⟩ }]
  hosts := .ofList [Simulation.Sample.host ⟨5⟩ ⟨1⟩, Simulation.Sample.host ⟨6⟩ ⟨1⟩]
  pools :=
    .ofList [Simulation.Sample.pool ⟨200⟩ ⟨1⟩ false,
      Simulation.Sample.pool ⟨201⟩ ⟨1⟩ false]
  volumes := .ofList [Simulation.Sample.volume ⟨100⟩ ⟨1⟩ ⟨200⟩ false]

def withVolume :
    Call := .migrate ⟨⟨1⟩, ⟨5⟩, ⟨6⟩, .ofList [⟨⟨100⟩, ⟨201⟩⟩]⟩

def mumbling : Oracle := .smooth ⟨0, 1⟩ default fun _ => .ok (.success [255])

/-- The item that a job is about to close as failed, where its plan moves volumes inside a
cluster. -/
def fails? (job : Job Duty (Except Failure Unit)) : Option (Item × Plan × Timestamp) :=
  match job.program with
  | .ask (.transact (.closeItem item .error now)) _ =>
    item.plan.bind fun p =>
      if job.task = .operate trial withVolume ∧ job.waits = true ∧ p.MovesStorage ∧
        p.crossCluster = false then
        some (item, p, now)
      else none
  | _ => none

theorem program_of_fails? {job : Job Duty (Except Failure Unit)} {now : Timestamp}
    (h : fails? job = some (item, p, now)) :
    job.task = .operate trial withVolume ∧ job.waits = true ∧ item.plan = some p ∧
      p.MovesStorage ∧ p.crossCluster = false ∧
      ∃ rest, job.program = .ask (.transact (.closeItem item .error now)) rest := by
  simp only [fails?] at h
  split at h
  next item' now' rest asks =>
    obtain ⟨p', planned, h⟩ := Option.bind_eq_some_iff.1 h
    split at h
    next about =>
      cases h
      exact ⟨about.1, about.2.1, planned, about.2.2.1, about.2.2.2, rest, asks⟩
    · cases h
  · cases h

def Succeeds : Exchange → Bool
  | ⟨.send _, .ok a, _⟩ => a.succeeded
  | ⟨.send _, .error _, _⟩ | ⟨.sendBoth .., _, _⟩ => false
  | _ => true

/-- The destination has reported success, nobody has asked the source, and the migration counts as
failed. -/
theorem success_counts_as_failure :
    ∃ sys j item p now rest, Reaches duties (.start oneCluster) sys ∧ j ∈ sys.jobs ∧
      j.program = .ask (.transact (.closeItem item .error now)) rest ∧
      (∀ e ∈ j.past, Succeeds e = true) ∧ ∃ body answer after,
        Fetched p body answer after j.past ∧ body.source = p.source ∧
        (Definite answer ∨ Garbled .migrateWithStorage answer ∨
          (∃ failure, answer = .error failure ∧ failure.kind.Ambiguous) ∧
            ∃ e ∈ after, Affirms p.source body.token e) := by
  have leads : ((play? duties (.start oneCluster)
      (.launch (.operate trial withVolume) :: advance 0 16 mumbling ++ [.make 0])).any fun sys =>
        sys.jobs.any fun j => (fails? j).isSome && j.past.all Succeeds) = true := by
    decide +kernel
  obtain ⟨sys, played, leads⟩ := (Option.any_eq_true ..).1 leads
  obtain ⟨j, mem, leads⟩ := List.any_eq_true.1 leads
  obtain ⟨closing, succeeds⟩ := Bool.and_eq_true_iff.1 leads
  obtain ⟨⟨item, p, now⟩, closing⟩ := Option.isSome_iff_exists.1 closing
  obtain ⟨task, waits, planned, moves, within, rest, asks⟩ := program_of_fails? closing
  have reached : Reaches duties (.start oneCluster) sys := (runs_of_play? played).reaches
  exact ⟨sys, j, item, p, now, rest, reached, mem, asks, List.all_eq_true.1 succeeds,
    failed_migration_is_excused reached mem task waits asks planned moves within⟩

end Concurrent
end ControlPlane
