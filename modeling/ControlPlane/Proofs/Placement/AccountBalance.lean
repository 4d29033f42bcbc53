import ControlPlane.Operation.Scale
import ControlPlane.Proofs.Concurrent.ControlPlaneJobs
import ControlPlane.Proofs.Concurrent.StaleReads
import ControlPlane.Proofs.Operation.OutwardRequests
import ControlPlane.Proofs.Transition.VersionRace
import Mathlib.Algebra.Order.BigOperators.Group.List
import Mathlib.Algebra.Order.Ring.Nat

/-!
# What accounts are charged

A retry loop charges the account before each attempt, and takes the charge back unless the attempt
succeeds. Any number of loops may charge one account at a time. Sums and differences are only cut
off where words run over, so as long as everything together fits, each loop takes back what it has
given.
-/

namespace ControlPlane

inductive Resources.Part where
  | cores | memory
deriving DecidableEq

namespace Resources

def amount (r : Resources) : Part → Nat
  | .cores => r.cores.toNat
  | .memory => r.memory.toNat

def Part.limit : Part → Nat
  | .cores => UInt32.size
  | .memory => UInt64.size

variable {a b : Resources} {part : Part}

theorem amount_add_eq_min :
    (a.add b).amount part = min (a.amount part + b.amount part) (part.limit - 1) := by
  cases part with
  | cores => exact UInt32.toNat_ofNat_of_lt' (Nat.lt_of_le_of_lt (Nat.min_le_right ..) (by decide))
  | memory => exact UInt64.toNat_ofNat_of_lt' (Nat.lt_of_le_of_lt (Nat.min_le_right ..) (by decide))

theorem amount_add (room : a.amount part + b.amount part < part.limit) :
    (a.add b).amount part = a.amount part + b.amount part :=
  amount_add_eq_min.trans (Nat.min_eq_left (Nat.le_sub_one_of_lt room))

theorem amount_sub : (a.sub b).amount part = a.amount part - b.amount part := by
  cases part with
  | cores => exact UInt32.toNat_ofNat_of_lt' (Nat.lt_of_le_of_lt (Nat.sub_le ..) a.cores.toNat_lt)
  | memory => exact UInt64.toNat_ofNat_of_lt' (Nat.lt_of_le_of_lt (Nat.sub_le ..) a.memory.toNat_lt)

end Resources

open Control

/-- A tally of who has a charge outstanding: the requests that are fair with and without one, what
they make of it, and the replies on which it can rely. -/
structure Tally (I : Interface) where
  Fair : I.Request → Bool → Prop
  charged : I.Request → Bool → Bool
  Good : (r : I.Request) → I.Reply r → Prop

section
variable {I : Interface} {T : Tally I} {β γ : Type}

/-- As long as it can rely on the replies, the program makes fair requests only, and ends as it
should with or without a charge. -/
def Program.Keeps (T : Tally I) (Q : β → Bool → Prop) : Program I β → Bool → Prop
  | .done b, charged => Q b charged
  | .ask r rest, charged =>
    T.Fair r charged ∧ ∀ reply, T.Good r reply → Keeps T Q (rest reply) (T.charged r charged)

theorem Program.Keeps.bind {Q : β → Bool → Prop} {R : γ → Bool → Prop} {p : Program I β}
    {f : β → Program I γ} {charged : Bool} (h : p.Keeps T Q charged)
    (next : ∀ b charged, Q b charged → (f b).Keeps T R charged) :
    (p >>= f).Keeps T R charged := by
  induction p generalizing charged with
  | done b => exact next b charged h
  | ask r rest ih => exact ⟨h.1, fun reply good => ih reply (h.2 reply good)⟩

end

/-- Whoever has come to an end has a charge outstanding after a success, and only then. -/
abbrev Settled {β : Type} (result : Except Failure β) (charged : Bool) : Prop :=
  charged = Except.isOk result

namespace Placement
variable {α β : Type}

/-- A loop charges the account when it has not, and does nothing else before it has. It relies on
the account to be written. -/
def tally (α : Type) : Tally (calls α) where
  Fair
    | .increment, charged => charged = false
    | _, charged => charged = true
  charged
    | .increment, _ => true
    | .decrement, _ => false
    | _, charged => charged
  Good
    | .increment, reply | .decrement, reply => reply = .ok ()
    | _, _ => True

namespace Loop

abbrev Holds (action : Loop α β) : Prop :=
  action.run.Keeps (tally α) (fun _ charged => charged = true) true

theorem holds_tryOn (target : Target) : Holds (tryOn (α := α) target) := by
  refine ⟨rfl, fun reply _ => ?_⟩
  cases reply <;> rfl

theorem holds_tryElsewhere (excluded : Exclusions) : Holds (tryElsewhere (α := α) excluded) := by
  refine ⟨rfl, ?_⟩
  rintro (failure | _ | host) _
  · rfl
  · rfl
  · refine ⟨rfl, ?_⟩
    rintro (failure | _ | _) _
    · rfl
    · rfl
    · exact holds_tryOn _

theorem holds_attempt (growth : Growth) (excluded : Exclusions) :
    Holds (attempt (α := α) growth excluded) := by
  have paired : ∀ {excluded : Exclusions} {p : Loop α (Attempt α)}, Holds p →
      Holds (do return (← p, excluded) : Loop α (Attempt α × Exclusions)) := by
    intro excluded p h
    refine Program.Keeps.bind h ?_
    rintro (failure | made) charged held
    · exact held
    · exact held
  unfold attempt
  split
  · refine ⟨rfl, ?_⟩
    rintro (failure | _ | _) _
    · rfl
    · exact paired (holds_tryElsewhere _)
    · exact paired (holds_tryOn _)
  · exact paired (holds_tryElsewhere _)

theorem keeps_reverting {action : Loop α β} (h : Holds action) :
    (reverting action).run.Keeps (tally α) Settled true := by
  refine Program.Keeps.bind h ?_
  rintro (failure | b) _ rfl
  · refine ⟨rfl, ?_⟩
    rintro _ rfl
    rfl
  · rfl

/-- A loop ends with one charge outstanding if it has succeeded, and with none otherwise. -/
theorem keeps_attempts (growth : Growth) (limit remaining : Nat) (excluded : Exclusions) :
    (attempts (α := α) growth limit remaining excluded).run.Keeps (tally α) Settled false := by
  -- Between two attempts nothing is charged: that is what the attempts to come begin with.
  induction remaining generalizing excluded with
  | zero => rfl
  | succ remaining ih =>
    refine ⟨rfl, ?_⟩
    rintro _ rfl
    refine Program.Keeps.bind (p := (reverting (attempt growth excluded)).run)
      (keeps_reverting (holds_attempt growth excluded)) ?_
    rintro (failure | ⟨made, excluded⟩) _ rfl
    · rfl
    cases made with
    | succeeded target value => rfl
    | noRoom host =>
      refine ⟨rfl, ?_⟩
      rintro _ rfl
      exact ih _
    | failed host failure =>
      refine ⟨rfl, ?_⟩
      rintro _ rfl
      change (ExceptT.run (if failure.NeedsReconciliation then throw failure
        else attempts growth limit remaining (excluded.insert host))).Keeps _ _ false
      split
      · rfl
      · exact ih _
    | noCandidate =>
      refine ⟨rfl, ?_⟩
      rintro _ rfl
      rfl

end Loop
end Placement

namespace Control.Request

def SparesAccounts : Request → Prop
  | .transact (.charge ..) | .transact (.credit ..) => False
  | _ => True

theorem sparesAccounts_of_quiet {r : Request} (quiet : r.Quiet) : r.SparesAccounts := by
  cases r with
  | transact t => cases t <;> trivial
  | _ => trivial

def Plain (r : Request) : Prop :=
  r.SparesAccounts ∧ ∀ id resources, r ≠ .transact (.setResources id resources)

theorem plain_of_quiet {r : Request} (quiet : r.Quiet) : r.Plain := by
  refine ⟨sparesAccounts_of_quiet quiet, ?_⟩
  rintro id resources rfl
  exact quiet

theorem plain_of_clerical {r : Request} (clerical : r.Clerical) : r.Plain := by
  constructor
  · cases r with
    | transact t => cases t <;> trivial
    | _ => trivial
  · rintro id resources rfl
    exact clerical

theorem account_cases (r : Request) : r.SparesAccounts ∨
    (∃ account delta, r = .transact (.charge account delta)) ∨
      ∃ account delta, r = .transact (.credit account delta) := by
  cases r with
  | transact t =>
    cases t with
    | charge account delta => exact .inr (.inl ⟨account, delta, rfl⟩)
    | credit account delta => exact .inr (.inr ⟨account, delta, rfl⟩)
    | _ => exact .inl trivial
  | _ => exact .inl trivial

def begins : Request → Bool
  | .transact (.charge ..) => true
  | _ => false

def charged : Request → Bool → Bool
  | .transact (.charge ..), _ => true
  | .transact (.credit ..), _ => false
  | _, charged => charged

end Control.Request

namespace Placement
open Operation
variable {α β : Type} {growth : Growth}

/-- The account of a growth is charged what the growth takes, and given back as much. Nothing else
is done without a charge. -/
def Growth.tally (growth : Growth) : Tally surroundings where
  Fair
    | .transact (.charge account delta), charged =>
      account = growth.account ∧ delta = growth.delta ∧ charged = false
    | .transact (.credit account delta), charged =>
      account = growth.account ∧ delta = growth.delta ∧ charged = true
    | _, charged => charged = true
  charged := Request.charged
  Good _ _ := True

theorem Growth.tally_of_spares (growth : Growth) {r : Request} (spares : r.SparesAccounts)
    (charged : Bool) :
    (growth.tally.Fair r charged ↔ charged = true) ∧ r.charged charged = charged := by
  cases r with
  | transact t => cases t <;> first | exact ⟨.rfl, rfl⟩ | exact spares.elim
  | _ => exact ⟨.rfl, rfl⟩

theorem Growth.charged_of_fair {r : Request} {charged : Bool} (fair : growth.tally.Fair r charged) :
    charged = !r.begins := by
  rcases r.account_cases with spares | ⟨_, _, rfl⟩ | ⟨_, _, rfl⟩
  · have apart : r.begins = false := by
      cases r with
      | transact t => cases t <;> first | rfl | exact spares.elim
      | _ => rfl
    rw [apart]
    exact (growth.tally_of_spares spares charged).1.1 fair
  · exact fair.2.2
  · exact fair.2.2

theorem keeps_of_spares {p : Program surroundings β}
    (within : p.Within Request.SparesAccounts fun _ => True) :
    p.Keeps growth.tally (fun _ charged => charged = true) true := by
  induction p with
  | done b => rfl
  | ask r rest ih =>
    obtain ⟨fair, same⟩ := growth.tally_of_spares within.1 true
    refine ⟨fair.2 rfl, fun reply _ => ?_⟩
    change (rest reply).Keeps growth.tally _ (r.charged true)
    rw [same]
    exact ih reply (within.2 reply)

def answering (growth : Growth) (operation : Target → Program surroundings (Except Failure α)) :
    (call : Call) → Program surroundings ((calls α).Reply call)
  | .increment => (Procedure.transact (.charge growth.account growth.delta)).run
  | .decrement => (Procedure.transact (.credit growth.account growth.delta)).run
  | .hasRoom host => Program.call (I := surroundings) (.hasRoom host growth.delta)
  | .selectHost excluded => Program.call (I := surroundings) (.selectHost growth.wanted excluded)
  | .attempt target => operation target

theorem keeps_run {operation : Target → Program surroundings (Except Failure α)}
    (spares : ∀ target, (operation target).Within Request.SparesAccounts fun _ => True)
    {Q : β → Bool → Prop} {p : Program (calls α) β} {charged : Bool}
    (h : p.Keeps (tally α) Q charged) :
    (p.run (answering growth operation)).Keeps growth.tally Q charged := by
  induction p generalizing charged with
  | done b => exact h
  | ask call rest ih =>
    obtain ⟨fair, next⟩ := h
    cases call with
    | increment => exact ⟨⟨rfl, rfl, fair⟩, fun _ _ => ih _ (next _ rfl)⟩
    | decrement => exact ⟨⟨rfl, rfl, fair⟩, fun _ _ => ih _ (next _ rfl)⟩
    | hasRoom host => exact ⟨fair, fun reply _ => ih reply (next reply trivial)⟩
    | selectHost excluded => exact ⟨fair, fun reply _ => ih reply (next reply trivial)⟩
    | attempt target =>
      cases fair
      refine Program.Keeps.bind (keeps_of_spares (spares target)) ?_
      rintro reply _ rfl
      exact ih reply (next reply trivial)

/-- A retry loop with its operation, which may do anything but write to accounts. -/
structure Placing (α : Type) where
  node : NodeId
  growth : Growth
  limit : Nat
  operation : Target → Program surroundings (Except Failure α)
  spares : ∀ target, (operation target).Within Request.SparesAccounts fun _ => True

def Placing.program (p : Placing α) : Program surroundings (Except Failure (Outcome α)) :=
  (retry α p.growth p.limit).run (answering p.growth p.operation)

theorem Placing.keeps (p : Placing α) : p.program.Keeps p.growth.tally Settled false :=
  keeps_run p.spares (Loop.keeps_attempts ..)

section
variable {ctx : Context} {item : Work.Item} {id : VmId} {resources : Resources}

theorem plain_moveForScale {vm : Vm} {destination : HostId} :
    (moveForScale ctx item vm destination).run.Within Request.Plain fun _ => True := by
  have silent : ∀ r : Request, r.Silent → r.Plain :=
    fun _ silent => Request.plain_of_quiet silent.1
  have other : ∀ {r : Request}, r.SparesAccounts →
    (∀ id resources, r ≠ .transact (.setResources id resources)) →
      r.Plain := fun spares other => ⟨spares, other⟩
  refine .ofExcept (fun source _ => ?_) fun _ _ => trivial
  refine .andThen ((Migration.plan_within _).mono silent fun _ h => h) (fun plan _ => ?_)
    fun _ _ => trivial
  refine .andThen ((Migration.check_within plan).mono silent fun _ h => h) (fun checked _ => ?_)
    fun _ _ => trivial
  have notes : (Work.recordPlan item plan).run.Within Request.Plain fun _ => True :=
    .andThen (.ask (other trivial nofun)) (fun _ _ => .ask (other trivial nofun)) fun _ _ => trivial
  refine .andThen notes (fun _ _ => ?_) fun _ _ => trivial
  refine .ofProgram (Migration.compute_asks silent (other trivial nofun)
    (fun _ => other trivial nofun)
    (other trivial nofun) fun _ => other trivial nofun) fun result _ => ?_
  rcases result with (failure | failure | failure) | moved <;> trivial

theorem spares_moveForScale {vm : Vm} {destination : HostId} :
    (moveForScale ctx item vm destination).run.Within Request.SparesAccounts fun _ => True :=
  plain_moveForScale.mono (fun _ plain => plain.1) fun _ _ => trivial

theorem spares_scaleOn {target : Target} :
    (scaleOn ctx item id resources target).run.Within Request.SparesAccounts fun _ => True := by
  have scales : ∀ vm : Vm, (do
      let body : Agent.ScaleBody := ⟨vm.token, resources⟩
      Agent.dispatch target.host .scale body ctx.waits.scaleWait
      Procedure.demand (.transact (.setResources id resources)) rfl
      Procedure.loadVm id : Procedure Vm).run.Within Request.SparesAccounts fun _ => True := by
    intro vm
    refine .andThen (Agent.dispatch_asks trivial) (fun _ _ => ?_) fun _ _ => trivial
    refine .andThen (.demand trivial) (fun _ _ => ?_) fun _ _ => trivial
    exact (Procedure.loadVm_within id trivial).mono (fun _ h => h) fun _ _ => trivial
  refine .andThen (Procedure.loadVm_within id trivial) (fun vm _ => ?_) fun _ _ => trivial
  cases target with
  | inPlace host => exact scales vm
  | migrate destination =>
    exact .andThen spares_moveForScale (fun vm _ => scales vm) fun _ _ => trivial

def Placing.scaling (ctx : Context) (item : Work.Item) (resources : Resources) (growth : Growth) :
    Placing Vm where
  node := ctx.node.id
  growth := growth
  limit := ctx.maxRetries.toNat
  operation target := (scaleOn ctx item growth.vm resources target).run
  spares _ := spares_scaleOn

theorem Placing.program_scaling (growth : Growth) :
    (Placing.scaling ctx item resources growth).program =
      (retry Vm growth ctx.maxRetries.toNat).run (answerCall ctx item resources growth) := by
  have same : answerCall ctx item resources growth =
      answering growth fun target => (scaleOn ctx item growth.vm resources target).run := by
    funext call
    cases call <;> rfl
  rw [same]
  rfl

end
end Placement

namespace Concurrent
open Placement

def charged (past : List Exchange) : Bool :=
  past.foldl (fun charged e => e.request.charged charged) false

theorem charged_snoc (past : List Exchange) (e : Exchange) :
    charged (past ++ [e]) = e.request.charged (charged past) := by
  simp only [charged, List.foldl_append, List.foldl_cons, List.foldl_nil]

/-- What a growth takes of an account, if it counts. -/
def share (growth : Growth) (account : AccountId) (part : Resources.Part) (counts : Bool) : Nat :=
  if growth.account = account ∧ counts then growth.delta.amount part else 0

theorem share_false (growth : Growth) (account : AccountId) (part : Resources.Part) :
    share growth account part false = 0 := if_neg fun yes => by cases yes.2

theorem share_le (growth : Growth) (account : AccountId) (part : Resources.Part) (counts : Bool) :
    share growth account part counts ≤ share growth account part true := by
  cases counts with
  | true => exact Nat.le_refl _
  | false => exact share_false .. ▸ Nat.zero_le _

theorem usageOf_of_spares {s s' : Shared} {number : Nat} {r : Request} {reply : r.Reply}
    (spares : r.SparesAccounts) (answers : s.Answers number r reply s') (account : AccountId) :
    s'.store.usageOf account = s.store.usageOf account := by
  have same : s'.store.usage = s.store.usage := by
    rcases Shared.store_of_answers answers with same | ⟨t, rfl, carried⟩
    · exact congrArg Store.usage same
    · rw [carried]
      refine (t.inventory_apply s.store).2.2 fun account delta => ⟨?_, ?_⟩
      · rintro rfl
        exact spares
      · rintro rfl
        exact spares
  simp only [Store.usageOf, same]

section
variable {s s' : Shared} {number : Nat} {r : Request} {reply : r.Reply} {growth : Growth}
  {account : AccountId} {part : Resources.Part} {outstanding : Bool}

/-- A fair request changes what the account uses by as much as it changes what is outstanding. -/
theorem amount_of_answers (fair : growth.tally.Fair r outstanding)
    (answers : s.Answers number r reply s')
    (held : share growth account part outstanding ≤ (s.store.usageOf account).amount part)
    (room : (s.store.usageOf account).amount part + share growth account part true <
      part.limit + share growth account part outstanding) :
    (s'.store.usageOf account).amount part + share growth account part outstanding =
      (s.store.usageOf account).amount part + share growth account part
        (r.charged outstanding) := by
  rcases r.account_cases with spares | ⟨_, _, rfl⟩ | ⟨_, _, rfl⟩
  · rw [(growth.tally_of_spares spares outstanding).2,
      usageOf_of_spares spares answers]
  · obtain ⟨rfl, rfl, rfl⟩ := fair
    obtain ⟨-, -, rfl⟩ := answers
    by_cases own : growth.account = account
    · simp only [share, own, true_and, if_true, Bool.false_eq_true, if_false, Nat.add_zero] at room
      simp only [Transaction.apply, Store.charge, Store.usageOf_setUsage, share,
        own, true_and, if_true,
        Bool.false_eq_true, if_false, Nat.add_zero, Request.charged, Resources.amount_add room]
    · simp only [Transaction.apply, Store.charge, Store.usageOf_setUsage, share, own, false_and,
        if_false]
  · obtain ⟨rfl, rfl, rfl⟩ := fair
    obtain ⟨-, -, rfl⟩ := answers
    by_cases own : growth.account = account
    · simp only [share, own, true_and, if_true] at held
      simp only [Transaction.apply, Store.credit, Store.usageOf_setUsage, share,
        own, true_and, if_true,
        Bool.false_eq_true, if_false, Nat.add_zero, Request.charged, Resources.amount_sub,
        Nat.sub_add_cancel held]
    · simp only [Transaction.apply, Store.credit, Store.usageOf_setUsage, share, own, false_and,
        if_false]

end

section
variable {α : Type}

abbrev Placer (α : Type) := Job (Placing α) (Except Failure (Outcome α))

def placings (α : Type) : Workload (Placing α) (Except Failure (Outcome α)) :=
  ⟨Placing.program, Placing.node⟩

/-- What loops take of an account, all in all: those that count. -/
def total (jobs : List (Placer α)) (account : AccountId) (part : Resources.Part)
    (counts : Placer α → Bool) : Nat :=
  (jobs.map fun job => share job.task.growth account part (counts job)).sum

theorem total_split (before after : List (Placer α)) (job : Placer α) (account : AccountId)
    (part : Resources.Part) (counts : Placer α → Bool) :
    total (before ++ job :: after) account part counts =
      total before account part counts + share job.task.growth account part (counts job) +
        total after account part counts := by
  simp only [total, List.map_append, List.map_cons, List.sum_append, List.sum_cons, Nat.add_assoc]

theorem total_le (jobs : List (Placer α)) (account : AccountId) (part : Resources.Part)
    (counts : Placer α → Bool) :
    total jobs account part counts ≤ total jobs account part fun _ => true :=
  List.sum_le_sum fun _ _ => share_le ..

/-- As long as there is room, the account uses what it has used at first and what is outstanding. -/
structure Squared (store : Store) (sys : System (Placing α) (Except Failure (Outcome α))) :
    Prop where
  keeps : ∀ job ∈ sys.jobs, job.program.Keeps job.task.growth.tally Settled (charged job.past)
  adds : ∀ account part,
    (store.usageOf account).amount part +
    total sys.jobs account part (fun _ => true) < part.limit →
    (sys.shared.store.usageOf account).amount part =
      (store.usageOf account).amount part + total sys.jobs account part (charged ·.past)

variable {store : Store} {sys sys' : System (Placing α) (Except Failure (Outcome α))}

theorem Squared.start (store : Store) : Squared (α := α) store (.start store) where
  keeps _ mem := by cases mem
  adds _ _ _ := rfl

theorem Squared.replace {s s' : Shared} {before after : List (Placer α)} {k : Nat}
    {job job' : Placer α} (h : Squared store ⟨s, before ++ job :: after, k⟩)
    (same : job'.task = job.task)
    (keeps : job'.program.Keeps job'.task.growth.tally Settled (charged job'.past))
    (adds : ∀ account part,
      share job.task.growth account part (charged job.past) ≤
        (s.store.usageOf account).amount part →
      (s.store.usageOf account).amount part + share job.task.growth account part true <
        part.limit + share job.task.growth account part (charged job.past) →
      (s'.store.usageOf account).amount part + share job.task.growth account part
      (charged job.past) = (s.store.usageOf account).amount part +
          share job.task.growth account part (charged job'.past)) :
    Squared store ⟨s', before ++ job' :: after, k⟩ := by
  constructor
  · intro other mem
    have moved : other = job' ∨ other ∈ before ++ job :: after := mem_replaced mem
    rcases moved with rfl | mem
    · exact keeps
    · exact h.keeps other mem
  · intro account part room
    have used := h.adds account part
    -- What is outstanding of the others is no more than they take, so there is room for this one.
    have less := total_le before account part (charged ·.past)
    have less' := total_le after account part (charged ·.past)
    simp only [total_split, same] at room used ⊢
    have used := used room
    have changed := adds account part (by omega) (by omega)
    omega

theorem Squared.step (h : Squared store sys) (step : Step (placings α) sys sys') :
    Squared store sys' := by
  cases step with
  | launch _ task =>
    have fresh : ∀ {account part counts},
        total (sys.launch (placings α) task).jobs account part counts =
          share task.growth account part (counts ⟨sys.next, task, [], false, task.program⟩) +
            total sys.jobs account part counts := rfl
    constructor
    · intro job mem
      rcases List.mem_cons.1 mem with rfl | mem
      · exact task.keeps
      · exact h.keeps job mem
    · intro account part room
      rw [fresh] at room
      have used := h.adds account part (by omega)
      have none : share task.growth account part (charged []) = 0 := share_false ..
      rw [fresh, none, Nat.zero_add]
      exact used
  | make s before after k job asks idle =>
    exact h.replace rfl (h.keeps job (by simp)) fun _ _ _ _ => by rw [store_enter]
  | answer s s' before after k job reply asks waits answers =>
    have keeps := h.keeps job (by simp)
    rw [asks] at keeps
    obtain ⟨fair, next⟩ := keeps
    refine h.replace rfl ?_ fun account part held room => ?_
    · simp only [Job.resume, charged_snoc]
      exact next reply trivial
    · simp only [Job.resume, charged_snoc]
      exact amount_of_answers fair answers held room

theorem squared_of_runs (run : Runs (placings α) (.start store) sys) : Squared store sys := by
  induction run with
  | refl => exact .start store
  | tail _ step ih => exact ih.step step

def Succeeded (job : Placer α) : Bool :=
  match job.program with
  | .done result => result.isOk
  | .ask .. => false

/-- The loop is inside an attempt: it has not come to an end, and is not about to begin the next
one. -/
def Attempting (job : Placer α) : Bool :=
  match job.program with
  | .done _ => false
  | .ask r _ => !r.begins

theorem Squared.split (h : Squared store sys) (account : AccountId) (part : Resources.Part) :
    total sys.jobs account part (charged ·.past) =
      total sys.jobs account part Succeeded + total sys.jobs account part Attempting := by
  simp only [total]
  rw [← List.sum_map_add]
  refine congrArg List.sum (List.map_congr_left fun job mem => ?_)
  have keeps := h.keeps job mem
  unfold Succeeded Attempting
  cases program : job.program with
  | done result =>
    rw [program] at keeps
    have settled : charged job.past = result.isOk := keeps
    simp only [settled, share_false, Nat.add_zero]
  | ask r rest =>
    rw [program] at keeps
    simp only [Growth.charged_of_fair keeps.1, share_false, Nat.zero_add]

theorem System.Over.not_attempting (ended : sys.Over) (account : AccountId)
    (part : Resources.Part) :
    total sys.jobs account part Attempting = 0 := by
  refine List.sum_eq_zero fun amount listed => ?_
  obtain ⟨job, mem, rfl⟩ := List.mem_map.1 listed
  obtain ⟨result, done⟩ := ended job mem
  simp only [Attempting, done, share_false]

/-- In any order of the steps of any number of loops, an account uses at every moment what it has
used at first, and what those loops take that have succeeded or are inside an attempt. So when all
loops have come to their ends, exactly those that have succeeded count, once each. -/
theorem usage_is_balanced {account : AccountId} {part : Resources.Part}
    (room : (store.usageOf account).amount part + total sys.jobs account part (fun _ => true) <
      part.limit)
    (run : Runs (placings α) (.start store) sys) :
    (sys.shared.store.usageOf account).amount part = (store.usageOf account).amount part +
      total sys.jobs account part Succeeded + total sys.jobs account part Attempting ∧
    (sys.Over → (sys.shared.store.usageOf account).amount part =
      (store.usageOf account).amount part + total sys.jobs account part Succeeded) := by
  have squared := squared_of_runs run
  have used : (sys.shared.store.usageOf account).amount part = (store.usageOf account).amount part +
      total sys.jobs account part Succeeded + total sys.jobs account part Attempting := by
    rw [squared.adds account part room, squared.split, Nat.add_assoc]
  refine ⟨used, fun ended => ?_⟩
  rw [used, ended.not_attempting, Nat.add_zero]

end

def tenants : Store where
  vms := .ofList
    [{ Vm.register ⟨1⟩ "i-1" "first" ⟨1⟩ ⟨1⟩ with
      state := .running, host := some ⟨5⟩ },
     { Vm.register ⟨2⟩ "i-2" "second" ⟨1⟩ ⟨1⟩ with
       state := .running, host := some ⟨6⟩ }]
  usage := .ofList [⟨⟨1⟩, ⟨4, 4096⟩⟩]

def scalesUp (vm : VmId) (host : HostId) (delta : Resources) : Placing Vm :=
  .scaling trial ⟨default, vm, trial.node.id, .started, .scale, none, .epoch, .epoch⟩ delta
    ⟨vm, ⟨1⟩, some host, ⟨⟨1⟩, none, none, "kvm", none⟩, delta⟩

/-- The first machine scales up while the host of the second one does not answer, and the second
tries another host. -/
def oneScales : List (Turn (Placing Vm)) :=
  [.launch (scalesUp ⟨1⟩ ⟨5⟩ ⟨2, 2048⟩),
    .launch (scalesUp ⟨2⟩ ⟨6⟩ ⟨1, 512⟩)] ++
    advance 1 3 .silent ++ advance 0 6 (.smooth default default fun _ => .ok (.success [])) ++
    advance 1 4 .silent

theorem usage_of_tenants_is_balanced :
    ∃ sys sys', Runs (placings Vm) (.start tenants) sys ∧ Runs (placings Vm) sys sys' ∧
      sys'.Over ∧ (sys.shared.store.usageOf ⟨1⟩).amount .cores = 4 + 2 + 1 ∧
      (sys'.shared.store.usageOf ⟨1⟩).amount .cores = 4 + 2 := by
  have ends : ((play? (placings Vm) (.start tenants) oneScales).any fun sys =>
      total sys.jobs ⟨1⟩ .cores (fun _ => true) = 3 ∧
      total sys.jobs ⟨1⟩ .cores Succeeded = 2 ∧
      total sys.jobs ⟨1⟩ .cores Attempting = 1 ∧
        (play? (placings Vm) sys (advance 1 4 .silent)).any fun sys =>
          sys.Over ∧ total sys.jobs ⟨1⟩ .cores (fun _ => true) = 3 ∧
            total sys.jobs ⟨1⟩ .cores Succeeded = 2) = true := by
    decide +kernel
  obtain ⟨sys, played, ends⟩ := (Option.any_eq_true ..).1 ends
  obtain ⟨takes, succeed, attempt, ends⟩ := of_decide_eq_true ends
  obtain ⟨sys', played', ends⟩ := (Option.any_eq_true ..).1 ends
  obtain ⟨ended, takes', succeed'⟩ := of_decide_eq_true ends
  have run := runs_of_play? played
  have run' := runs_of_play? played'
  have fits : (tenants.usageOf ⟨1⟩).amount .cores + 3 < Resources.Part.cores.limit := by decide
  have here := (usage_is_balanced (takes.symm ▸ fits) run).1
  have there := (usage_is_balanced (takes'.symm ▸ fits) (run.trans run')).2 ended
  rw [succeed, attempt] at here
  rw [succeed'] at there
  exact ⟨sys, sys', run, run', ended, here, there⟩

end Concurrent
end ControlPlane
