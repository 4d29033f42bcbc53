import ControlPlane.Proofs.Concurrent.StaleReads
import ControlPlane.Proofs.Transition.VersionRace
import Mathlib.Data.List.Induction

/-!
# Transitions among other writes

A transition reads a record and later writes what it has worked out from it, if the version is still
the same. Others set the resources of the machine, or the mark for its credentials, and do not look
at the version. All that comes of any number of them, in any order of their steps, is what comes of
the writes that were carried out, one after the other.
-/

namespace ControlPlane

theorem Transition.check_congr (t : Transition) {w vm : Vm} (subject : w.id = vm.id)
    (same : w.course = vm.course) : t.check w = t.check vm := by
  have state : w.state = vm.state := congrArg Course.state same
  have host : w.host = vm.host := congrArg Course.host same
  have lastHost : w.lastHost = vm.lastHost := congrArg Course.lastHost same
  have version : w.version = vm.version := congrArg Course.version same
  simp only [check, hosts, subject, state, host, lastHost, version]

/-- What a transition makes of a record if nothing comes in between. -/
def Transition.alone? (t : Transition) (vm : Vm) : Option Vm :=
  match t.check vm with
  | .ok u => some (u.apply vm)
  | .error _ => none

/-- A transition looks at no other field than those of the lifecycle, and writes no other. -/
theorem Transition.alone?_with (t : Transition) (vm : Vm) (resources : Resources) (pending : Bool) :
    t.alone? { vm with resources := resources, credentialsPending := pending } =
      (t.alone? vm).map fun w =>
      { w with resources := resources, credentialsPending := pending } := by
  have same : t.check { vm with resources := resources, credentialsPending := pending } =
    t.check vm :=
    t.check_congr rfl rfl
  unfold alone?
  rw [same]
  cases t.check vm <;> rfl

def Program.result? {I : Interface} {α : Type} : Program I α → Option α
  | .done a => some a
  | .ask .. => none

namespace Concurrent
open Control

/-- An answer that a job got, and what the job came to if that was its end. -/
structure Entry (τ ρ : Type) where
  task : τ
  exchange : Exchange
  result : Option ρ

section
variable {τ ρ : Type} (W : Workload τ ρ)

/-- A run with all answers in their order. -/
inductive Annals (first : System τ ρ) : List (Entry τ ρ) → System τ ρ → Prop
  | start : Annals first [] first
  | launch {log : List (Entry τ ρ)} {sys : System τ ρ} (h : Annals first log sys) (task : τ) :
      Annals first log (sys.launch W task)
  | make {log : List (Entry τ ρ)} {s : Shared} {before after : List (Job τ ρ)} {k : Nat}
      {job : Job τ ρ} {r : Request} {rest : r.Reply → Program surroundings ρ}
      (h : Annals first log ⟨s, before ++ job :: after, k⟩) (asks : job.program = .ask r rest)
      (idle : job.waits = false) :
      Annals first log ⟨s.enter job.number r, before ++ { job with waits := true } :: after, k⟩
  | answer {log : List (Entry τ ρ)} {s s' : Shared} {before after : List (Job τ ρ)} {k : Nat}
      {job : Job τ ρ} {r : Request} {rest : r.Reply → Program surroundings ρ} {reply : r.Reply}
      (h : Annals first log ⟨s, before ++ job :: after, k⟩) (asks : job.program = .ask r rest)
      (waits : job.waits = true) (answers : s.Answers job.number r reply s') :
      Annals first (log ++ [⟨job.task, ⟨r, reply, s.store⟩, (rest reply).result?⟩])
        ⟨s', before ++ job.resume r reply s.store (rest reply) :: after, k⟩

variable {W} {first sys : System τ ρ} {log : List (Entry τ ρ)}

theorem Annals.runs (h : Annals W first log sys) : Runs W first sys := by
  induction h with
  | start => exact .refl
  | launch _ task ih => exact ih.tail (.launch _ task)
  | make _ asks idle ih => exact ih.tail (.make _ _ _ _ _ asks idle)
  | answer _ asks waits answers ih => exact ih.tail (.answer _ _ _ _ _ _ _ asks waits answers)

theorem annals_of_runs (run : Runs W first sys) : ∃ log, Annals W first log sys := by
  induction run with
  | refl => exact ⟨[], .start⟩
  | tail _ step ih =>
    obtain ⟨log, h⟩ := ih
    cases step with
    | launch _ task => exact ⟨log, h.launch task⟩
    | make s before after k job asks idle => exact ⟨log, h.make asks idle⟩
    | answer s s' before after k job reply asks waits answers =>
      exact ⟨_, h.answer asks waits answers⟩

end

inductive Writing where
  | move (t : Transition)
  | allot (vm : VmId) (resources : Resources)
  | owe (vm : VmId) (pending : Bool)
deriving DecidableEq

namespace Writing

def acknowledge (result : Except Failure Vm) : Program surroundings (Except Failure Unit) :=
  .done (result.map fun _ => ())

def program : Writing → Program surroundings (Except Failure Unit)
  | move t => t.run.run >>= acknowledge
  | allot vm resources => Program.call (I := surroundings) (.transact (.setResources vm resources))
  | owe vm pending =>
    Program.call (I := surroundings) (.transact (.setCredentialsPending vm pending))

def vm : Writing → VmId
  | move t => t.vm
  | allot vm _ | owe vm _ => vm

def onto? : Writing → Vm → Option Vm
  | move t, record => t.alone? record
  | allot _ resources, record => some { record with resources := resources }
  | owe _ pending, record => some { record with credentialsPending := pending }

def transition? : Writing → Option Transition
  | move t => some t
  | _ => none

def resources? : Writing → Option Resources
  | allot _ resources => some resources
  | _ => none

def pending? : Writing → Option Bool
  | owe _ pending => some pending
  | _ => none

/-- Of some writings in a row the transitions decide alone about the state, the hosts and the
version, and of the others the last. -/
theorem apart (writings : List Writing) {vm now : Vm}
    (h : writings.foldlM (fun vm w => w.onto? vm) vm = some now) :
    ∃ alone, (writings.filterMap transition?).foldlM (fun vm t => t.alone? vm) vm = some alone ∧
      now = { alone with
        resources := (writings.filterMap resources?).getLastD vm.resources
        credentialsPending := (writings.filterMap pending?).getLastD vm.credentialsPending } := by
  -- The last writing decides, so the induction takes it off.
  induction writings using List.reverseRecOn generalizing now with
  | nil =>
    cases h
    exact ⟨vm, rfl, rfl⟩
  | append_singleton writings w ih =>
    rw [List.foldlM_append] at h
    obtain ⟨mid, before, last⟩ := Option.bind_eq_some_iff.1 h
    obtain ⟨alone, moves, rfl⟩ := ih before
    simp only [List.foldlM_cons, List.foldlM_nil] at last
    obtain ⟨_, last, e⟩ := Option.bind_eq_some_iff.1 last
    cases e
    simp only [List.filterMap_append, List.foldlM_append, moves]
    cases w with
    | move t =>
      simp only [onto?, Transition.alone?_with] at last
      obtain ⟨moved, taken, rfl⟩ := Option.map_eq_some_iff.1 last
      refine ⟨moved, ?_, by simp [resources?, pending?]⟩
      simp [transition?, taken]
    | allot _ resources =>
      cases last
      exact ⟨alone, rfl, by simp [resources?, pending?]⟩
    | owe _ pending =>
      cases last
      exact ⟨alone, rfl, by simp [resources?, pending?]⟩

/-- How far a writing has come. What a transition will write has been worked out from a record that
its job has read. -/
inductive Stage : Writing → List Exchange → Program surroundings (Except Failure Unit) → Prop
  | begun {t : Transition} {past : List Exchange} : Stage (move t) past
      (.ask (.transact (.vm t.vm)) fun reply => t.afterRead reply >>= acknowledge)
  | checked {t : Transition} {past : List Exchange} {u : StateUpdate} {e : Exchange} {w : Vm}
      (mem : e ∈ past) (read : e.before.vm? t.vm = some w) (checked : t.check w = .ok u) :
      Stage (move t) past (.ask (.pass .beforeSwap) fun reply =>
        t.afterPass u reply >>= acknowledge)
  | ready {t : Transition} {past : List Exchange} {u : StateUpdate} {e : Exchange} {w : Vm}
      (mem : e ∈ past) (read : e.before.vm? t.vm = some w) (checked : t.check w = .ok u) :
      Stage (move t) past (.ask (.transact (.swap u)) fun reply =>
        t.afterSwap reply >>= acknowledge)
  | allots {vm : VmId} {resources : Resources} {past : List Exchange} :
      Stage (allot vm resources) past (.ask (.transact (.setResources vm resources)) .done)
  | owes {vm : VmId} {pending : Bool} {past : List Exchange} :
      Stage (owe vm pending) past (.ask (.transact (.setCredentialsPending vm pending)) .done)
  | over {w : Writing} {past : List Exchange} {result : Except Failure Unit} :
      Stage w past (.done result)

theorem stage_program (w : Writing) (past : List Exchange) : Stage w past w.program := by
  cases w with
  | move t =>
    simp only [program, Transition.run_eq]
    exact .begun
  | allot vm resources => exact .allots
  | owe vm pending => exact .owes

end Writing

def Exchange.Commits : Exchange → Prop
  | ⟨.transact (.swap _), .ok (some _), _⟩ => True
  | ⟨.transact (.setResources ..), .ok _, _⟩ => True
  | ⟨.transact (.setCredentialsPending ..), .ok _, _⟩ => True
  | _ => False

def Entry.Wrote (v : VmId) (e : Entry Writing (Except Failure Unit)) : Prop :=
  e.result = some (.ok ()) ∧ e.task.vm = v

instance (v : VmId) (e : Entry Writing (Except Failure Unit)) : Decidable (e.Wrote v) := by
  unfold Entry.Wrote
  infer_instance

namespace Writing
variable {w : Writing} {past : List Exchange} {r : Request} {reply : r.Reply} {s s' : Shared}
  {job : Nat} {rest : r.Reply → Program surroundings (Except Failure Unit)} {v : VmId} {now : Vm}

theorem Stage.answer (h : Stage w past (.ask r rest)) (answers : s.Answers job r reply s') :
    Stage w (past ++ [⟨r, reply, s.store⟩]) (rest reply) := by
  cases h with
  | @begun t =>
    obtain ⟨-, rfl, -⟩ := answers
    cases stored : s.store.vm? t.vm with
    | none =>
      simp only [Transaction.apply, stored]
      exact .over
    | some vm =>
      simp only [Transaction.apply, stored, Transition.afterRead]
      cases checked : t.check vm with
      | error failure => exact .over
      | ok u => exact .checked (List.mem_append_right _ (List.mem_singleton.2 rfl)) stored checked
  | checked mem read checked =>
    obtain ⟨rfl, -⟩ := answers
    exact .ready (List.mem_append_left _ mem) read checked
  | ready mem read checked => rcases reply with failure | _ | written <;> exact .over
  | allots => exact .over
  | owes => exact .over

/-- A writing comes to a good end by the answer that changes a record, and by no other. -/
theorem Stage.commits (h : Stage w past (.ask r rest)) (answers : s.Answers job r reply s') :
    (rest reply).result? = some (.ok ()) ↔ Exchange.Commits ⟨r, reply, s.store⟩ := by
  cases h with
  | @begun t =>
    refine iff_of_false ?_ id
    rcases reply with _ | vm
    · rintro ⟨⟩
    · simp only [Transition.afterRead]
      cases t.check vm <;> rintro ⟨⟩
  | checked =>
    obtain ⟨rfl, -⟩ := answers
    exact iff_of_false (by rintro ⟨⟩) id
  | ready =>
    rcases reply with failure | _ | written
    · exact iff_of_false (by rintro ⟨⟩) id
    · exact iff_of_false (by rintro ⟨⟩) id
    · exact iff_of_true rfl trivial
  | allots | owes =>
    cases reply with
    | error failure => exact iff_of_false (by rintro ⟨⟩) id
    | ok _ => exact iff_of_true rfl trivial

/-- A record of the version that a transition has read is replaced as if the transition began with
it. -/
theorem alone_of_matches {t : Transition} {u : StateUpdate} {read : Vm}
    (checked : t.check read = .ok u) (subject : now.id = read.id) (since : read.Since now)
    (fits : u.Matches now) :
    t.alone? now = some (u.apply now) := by
  obtain ⟨next, -, -, -, -, e⟩ := Transition.check_ok checked
  have version : now.version = read.version := fits.2.trans (by rw [e])
  have checked' : t.check now = .ok u := by
    rw [t.check_congr subject (since.course_eq version)]
    exact checked
  simp only [Transition.alone?, checked']

/-- What an exchange makes of a record, as a part of a writing. -/
structure Turns (w : Writing) (e : Exchange) (v : VmId) (now now' : Vm) : Prop where
  carried : e.Commits → w.vm = v → w.onto? now = some now'
  kept : ¬ (e.Commits ∧ w.vm = v) → now' = now

theorem turns_of_swap {t : Transition} {u : StateUpdate} {read : Vm} {e : Exchange}
    (mem : e ∈ past) (here : e.before.vm? t.vm = some read) (checked : t.check read = .ok u)
    (since : ∀ e ∈ past, e.before.Since s.store) (stored : s.store.vm? v = some now) :
    Turns (move t) ⟨.transact (.swap u), (s.store.swap u).1, s.store⟩ v now
      ((Transaction.swap u).onVm now) := by
  obtain ⟨next, -, -, -, -, same⟩ := Transition.check_ok checked
  have subject : u.vm = t.vm := by rw [same]
  have named := Store.id_of_vm? stored
  by_cases mine : t.vm = v
  · subst mine
    have found : s.store.vm? u.vm = some now := subject ▸ stored
    by_cases fits : u.Matches now
    · have written : (Transaction.swap u).onVm now = u.apply now :=
        if_pos ⟨subject.trans named.symm, fits⟩
      rw [written]
      simp only [Store.swap_matching found fits]
      obtain ⟨_, stored', since⟩ := since e mem t.vm read here
      rw [stored] at stored'
      cases stored'
      have id : now.id = read.id := named.trans (Store.id_of_vm? here).symm
      exact ⟨fun _ _ => alone_of_matches checked id since fits,
        fun h => absurd ⟨trivial, rfl⟩ h⟩
    · have idle : (Transaction.swap u).onVm now = now := if_neg fun h => fits h.2
      rw [idle]
      simp only [Store.swap_stale found fits]
      exact ⟨False.elim, fun _ => rfl⟩
  · have idle : (Transaction.swap u).onVm now = now :=
      if_neg fun h => mine (subject.symm.trans (h.1.trans named))
    rw [idle]
    exact ⟨fun _ here => absurd here mine, fun _ => rfl⟩

theorem Stage.turns (h : Stage w past (.ask r rest)) (answers : s.Answers job r reply s')
    (since : ∀ e ∈ past, e.before.Since s.store) (stored : s.store.vm? v = some now) :
    ∃ now', s'.store.vm? v = some now' ∧ Turns w ⟨r, reply, s.store⟩ v now now' := by
  have named := Store.id_of_vm? stored
  cases h with
  | begun =>
    obtain ⟨-, rfl, rfl⟩ := answers
    exact ⟨now, stored, False.elim, fun _ => rfl⟩
  | checked =>
    obtain ⟨rfl, rfl⟩ := answers
    exact ⟨now, stored, False.elim, fun _ => rfl⟩
  | @ready t _ u _ _ mem read checked =>
    obtain ⟨-, rfl, rfl⟩ := answers
    refine ⟨_, ?_, turns_of_swap mem read checked since stored⟩
    rw [Transaction.vm?_apply, stored, Option.map_some]
  | @allots subject resources =>
    obtain ⟨-, rfl, rfl⟩ := answers
    refine ⟨(Transaction.setResources subject resources).onVm now, ?_, ?_⟩
    · rw [Transaction.vm?_apply, stored, Option.map_some]
    · constructor
      · rintro - rfl
        exact congrArg some (if_pos named.symm).symm
      · intro other
        refine if_neg fun e => other ⟨?_, e.trans named⟩
        simp only [Transaction.apply, Store.setResources, Store.modifyVm, e.trans named, stored]
        trivial
  | @owes subject pending =>
    obtain ⟨-, rfl, rfl⟩ := answers
    refine ⟨(Transaction.setCredentialsPending subject pending).onVm now, ?_, ?_⟩
    · rw [Transaction.vm?_apply, stored, Option.map_some]
    · constructor
      · rintro - rfl
        exact congrArg some (if_pos named.symm).symm
      · intro other
        refine if_neg fun e => other ⟨?_, e.trans named⟩
        simp only [Transaction.apply, Store.setCredentialsPending, Store.modifyVm,
          e.trans named, stored]
        trivial

/-- The writings that were carried out on a machine, in their order. -/
def carriedOut (v : VmId) (log : List (Entry Writing (Except Failure Unit))) : List Writing :=
  (log.filter fun e => e.Wrote v).map (·.task)

theorem carriedOut_append (log : List (Entry Writing (Except Failure Unit)))
    (e : Entry Writing (Except Failure Unit)) :
    carriedOut v (log ++ [e]) = carriedOut v log ++ if e.Wrote v then [e.task] else [] := by
  by_cases wrote : e.Wrote v <;> simp [carriedOut, wrote]

end Writing

def writings : Workload Writing (Except Failure Unit) := ⟨Writing.program, fun _ => default⟩

/-- How far writings have come together, and what has come of the records. -/
structure Interplay (store : Store) (log : List (Entry Writing (Except Failure Unit)))
    (sys : System Writing (Except Failure Unit)) : Prop where
  stages : ∀ job ∈ sys.jobs, job.task.Stage job.past job.program
  commits : ∀ e ∈ log, e.result = some (.ok ()) ↔ e.exchange.Commits
  records : ∀ {v vm}, store.vm? v = some vm → ∃ now, sys.shared.store.vm? v = some now ∧
    (Writing.carriedOut v log).foldlM (fun vm w => w.onto? vm) vm = some now

variable {store : Store} {log : List (Entry Writing (Except Failure Unit))}
  {sys : System Writing (Except Failure Unit)}

theorem interplay_of_annals (annals : Annals writings (.start store) log sys) :
    Interplay store log sys := by
  induction annals with
  | start =>
    exact ⟨fun _ mem => absurd mem List.not_mem_nil, fun _ mem => absurd mem List.not_mem_nil,
      fun {_ vm} stored => ⟨vm, stored, rfl⟩⟩
  | @launch log sys annals task ih =>
    refine ⟨fun job mem => ?_, ih.commits, ih.records⟩
    rcases List.mem_cons.1 mem with rfl | mem
    · exact task.stage_program []
    · exact ih.stages job mem
  | @make log s before after k job r rest annals asks idle ih =>
    refine ⟨fun other mem => ?_, ih.commits, fun stored => ?_⟩
    · rcases mem_replaced mem with rfl | mem
      · exact ih.stages job (by simp)
      · exact ih.stages other mem
    · rw [store_enter]
      exact ih.records stored
  | @answer log s s' before after k job r rest reply annals asks waits answers ih =>
    have stage : job.task.Stage job.past (.ask r rest) := asks ▸ ih.stages job (by simp)
    have since := past_since annals.runs.reaches job (by simp)
    refine ⟨fun other mem => ?_, fun e mem => ?_, fun {v vm} stored => ?_⟩
    · rcases mem_replaced mem with rfl | mem
      · exact stage.answer answers
      · exact ih.stages other mem
    · rcases List.mem_append.1 mem with mem | mem
      · exact ih.commits e mem
      · cases List.mem_singleton.1 mem
        exact stage.commits answers
    · obtain ⟨now, stored', carried⟩ := ih.records stored
      obtain ⟨now', stored'', turns⟩ := stage.turns answers since stored'
      refine ⟨now', stored'', ?_⟩
      rw [Writing.carriedOut_append, List.foldlM_append, carried]
      have commits := stage.commits answers
      split
      next wrote =>
        have onto := turns.carried (commits.1 wrote.1) wrote.2
        simp only [List.foldlM_cons, List.foldlM_nil, Option.bind_eq_bind, Option.bind_some, onto]
        rfl
      next other =>
        rw [turns.kept fun h => other ⟨commits.2 h.1, h.2⟩]
        rfl

/-- Of any number of transitions and other writings, in any order of their steps, those that come to
a good end are those that have changed a record. The state, the hosts and the version of a machine
are what its transitions among them come to alone, one after the other, each with what it finds; the
resources and the mark are what the last writing has set. -/
theorem no_update_is_lost {v : VmId} {vm : Vm} (stored : store.vm? v = some vm)
    (run : Runs writings (.start store) sys) :
    (∃ log, Annals writings (.start store) log sys) ∧
      ∀ log, Annals writings (.start store) log sys →
        (∀ e ∈ log, e.result = some (.ok ()) ↔ e.exchange.Commits) ∧
        ∃ alone, ((Writing.carriedOut v log).filterMap Writing.transition?).foldlM
            (fun vm t => t.alone? vm) vm = some alone ∧
          sys.shared.store.vm? v = some { alone with
            resources :=
              ((Writing.carriedOut v log).filterMap Writing.resources?).getLastD vm.resources
            credentialsPending :=
              ((Writing.carriedOut v log).filterMap Writing.pending?).getLastD
                vm.credentialsPending } := by
  refine ⟨annals_of_runs run, fun log annals => ?_⟩
  have interplay := interplay_of_annals annals
  obtain ⟨now, stored', carried⟩ := interplay.records stored
  obtain ⟨alone, moves, rfl⟩ := Writing.apart _ carried
  exact ⟨interplay.commits, alone, moves, stored'⟩

/-- Two starts that have both read the record, of which the second writes first, and a third
transition after that, while others set resources and the mark. -/
def crossedWritings : List (Turn Writing) :=
  [.launch (.move ⟨sleeper.id, .stopped, .startRequested, some ⟨5⟩, none⟩),
   .launch (.move ⟨sleeper.id, .stopped, .startRequested, some ⟨6⟩, none⟩),
   .launch (.move ⟨sleeper.id, .starting, .operationSucceeded, none, none⟩),
   .launch (.allot sleeper.id ⟨2, 512⟩), .launch (.owe sleeper.id true)] ++
    advance 0 2 .silent ++ advance 1 3 .silent ++ advance 3 1 .silent ++ advance 0 1 .silent ++
    advance 2 2 .silent ++ advance 4 1 .silent ++ advance 2 1 .silent

theorem no_crossed_update_is_lost :
    ∃ sys log, Annals writings (.start { vms := .ofList [sleeper] }) log sys ∧
      (sys.shared.store.vm? sleeper.id = some { sleeper with
        state := .running, host := some ⟨6⟩, version := 2, resources := ⟨2, 512⟩,
        credentialsPending := true }) ∧
      ∃ alone, ((Writing.carriedOut sleeper.id log).filterMap Writing.transition?).foldlM
          (fun vm t => t.alone? vm) sleeper = some alone ∧
        sys.shared.store.vm? sleeper.id = some { alone with
          resources :=
            ((Writing.carriedOut sleeper.id log).filterMap Writing.resources?).getLastD .zero
          credentialsPending :=
            ((Writing.carriedOut sleeper.id log).filterMap Writing.pending?).getLastD false } := by
  have ends : ((play? writings (.start { vms := .ofList [sleeper] }) crossedWritings).any fun sys =>
      sys.shared.store.vm? sleeper.id = some { sleeper with
        state := .running, host := some ⟨6⟩, version := 2, resources := ⟨2, 512⟩,
        credentialsPending := true }) = true := by decide +kernel
  obtain ⟨sys, played, ends⟩ := (Option.any_eq_true ..).1 ends
  have stored : Store.vm? { vms := .ofList [sleeper] } sleeper.id = some sleeper := by decide
  obtain ⟨⟨log, annals⟩, apart⟩ := no_update_is_lost stored (runs_of_play? played)
  exact ⟨sys, log, annals, of_decide_eq_true ends, (apart log annals).2⟩

end Concurrent
end ControlPlane
