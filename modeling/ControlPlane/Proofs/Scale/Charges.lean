import ControlPlane.Proofs.Placement.LoopRule
import ControlPlane.Proofs.Recovery.PreparedDestination

/-!
# What a scale-up leaves charged

A machine grows in one transaction and its account is charged in another, and the process may stop
between any two of them. A recovery scan writes neither to accounts nor to the resources of
machines. So what an account uses in the end was decided when the process stopped.
-/

namespace ControlPlane

namespace Resources
variable {a b : Resources}

theorem amount_lt (a : Resources) (part : Part) : a.amount part < part.limit := by
  cases part with
  | cores => exact a.cores.toNat_lt
  | memory => exact a.memory.toNat_lt

theorem eq_of_amount (same : ∀ part, a.amount part = b.amount part) : a = b :=
  Resources.ext (UInt32.toNat_inj.1 (same .cores)) (UInt64.toNat_inj.1 (same .memory))

/-- What is taken back and added again makes no difference, even where the sum runs over. -/
theorem add_sub_add : ((a.add b).sub b).add b = a.add b := by
  refine eq_of_amount fun part => ?_
  have less := b.amount_lt part
  simp only [amount_add_eq_min, amount_sub]
  omega

theorem amount_le_of_growth? {delta : Resources} (h : a.growth? b = some delta) (part : Part) :
    a.amount part ≤ b.amount part := by
  unfold growth? at h
  split at h
  · cases h
  next grows =>
    simp only [not_or, UInt32.not_lt, UInt64.not_lt] at grows
    cases part with
    | cores => exact UInt32.le_iff_toNat_le.1 grows.1
    | memory => exact UInt64.le_iff_toNat_le.1 grows.2.1

theorem add_sub_self (room : ∀ part, a.amount part + b.amount part < part.limit) :
    (a.add b).sub b = a := by
  refine eq_of_amount fun part => ?_
  rw [amount_sub, amount_add (room part), Nat.add_sub_cancel]

end Resources

/-- What an account may use that has used something before, with a charge outstanding or without
one. Where a sum has run over, taking back the charge leaves less than there was. -/
def Owes (used delta : Resources) : Bool → Resources → Prop
  | true, now => now = used.add delta
  | false, now => now = used ∨ now = (used.add delta).sub delta

namespace Owes
variable {used delta now : Resources} {outstanding : Bool}

theorem charge (h : Owes used delta false now) : Owes used delta true (now.add delta) := by
  rcases h with rfl | rfl
  · rfl
  · exact Resources.add_sub_add

theorem credit (h : Owes used delta true now) : Owes used delta false (now.sub delta) :=
  .inr (congrArg (Resources.sub · delta) h)

theorem exact (room : ∀ part, used.amount part + delta.amount part < part.limit)
    (h : Owes used delta outstanding now) : now = if outstanding then used.add delta else used := by
  cases outstanding with
  | true => exact h
  | false => exact h.elim id fun e => e.trans (Resources.add_sub_self room)

end Owes

def Store.holding (s : Store) (v : VmId) : Option (AccountId × Resources) :=
  (s.vm? v).map fun vm => (vm.account, vm.resources)

theorem Transaction.holding_apply {t : Transaction} {v : VmId}
    (other : ∀ resources, t ≠ .setResources v resources) (s : Store) :
    (t.apply s).2.holding v = s.holding v := by
  simp only [Store.holding, vm?_apply]
  cases stored : s.vm? v with
  | none => rfl
  | some vm =>
    have named := Store.id_of_vm? stored
    simp only [Option.map_some, Option.some.injEq]
    cases t with
    | swap u =>
      simp only [onVm]
      split <;> rfl
    | setResources id resources =>
      have apart : id ≠ vm.id := by
        rintro rfl
        exact other resources (named ▸ rfl)
      simp only [onVm, if_neg apart]
    | setCredentialsPending id pending =>
      simp only [onVm]
      split <;> rfl
    | _ => rfl

namespace Concurrent
open Control Operation Placement
open Recovery (scan)

structure Unbilled (v : VmId) (account : AccountId) (a b : Shared) : Prop where
  holding : b.store.holding v = a.store.holding v
  usage : b.store.usageOf account = a.store.usageOf account

section
variable {v : VmId} {account : AccountId} {s s' : Shared} {job : Nat}
  {r : Control.Request} {reply : r.Reply}

theorem unbilled_of_answers (plain : r.Plain) (answers : s.Answers job r reply s') :
    Unbilled v account s s' := by
  refine ⟨?_, usageOf_of_spares plain.1 answers account⟩
  rcases Shared.store_of_answers answers with same | ⟨t, rfl, same⟩
  · rw [same]
  · rw [same]
    exact Transaction.holding_apply (fun resources e => plain.2 v resources (congrArg _ e)) s.store

theorem unbilled_enter : Unbilled v account s (s.enter job r) :=
  ⟨congrArg (Store.holding · v) (store_enter ..),
    congrArg (Store.usageOf · account) (store_enter ..)⟩

theorem Unbilled.trans {s'' : Shared} (h : Unbilled v account s s')
    (h' : Unbilled v account s' s'') :
    Unbilled v account s s'' := ⟨h'.holding.trans h.holding, h'.usage.trans h.usage⟩

end

/-- A growth of a machine, and what its account has used before. -/
structure Bill where
  vm : VmId
  account : AccountId
  held : Resources
  wanted : Resources
  used : Resources

namespace Bill

def delta (b : Bill) : Resources := b.wanted.sub b.held

def owns (b : Bill) (grown : Bool) : Resources := if grown then b.wanted else b.held

/-- What is known of the bill. The machine never grows without a charge. -/
structure Stands (b : Bill) (grown outstanding : Bool) (past : List Exchange)
    (s : Store) : Prop where
  charged : charged past = outstanding
  fair : grown = true → outstanding = true
  holding : s.holding b.vm = some (b.account, b.owns grown)
  usage : Owes b.used b.delta outstanding (s.usageOf b.account)

structure Shows (b : Bill) (grown : Bool) (vm : Vm) : Prop where
  id : vm.id = b.vm
  account : vm.account = b.account
  resources : vm.resources = b.owns grown

def Known (b : Bill) (past : List Exchange) (s : Store) : Prop :=
  ∃ grown outstanding, b.Stands grown outstanding past s

def metering (b : Bill) (job : Nat) : Contract where
  job := job
  invariant _ := True
  rely := Unbilled b.vm b.account
  allow _ _ := True
  fit past s _ := b.Known past s.store
  rely_refl _ := ⟨rfl, rfl⟩
  rely_trans := .trans
  allow_refl _ := trivial

def At (b : Bill) (grown outstanding : Bool) : Assertion :=
  fun past s => b.Stands grown outstanding past s.store

variable {b : Bill} {job : Nat} {α : Type} {s s' : Shared} {past past' : List Exchange}
  {grown outstanding : Bool} {r : Control.Request} {reply : r.Reply}

theorem At.unbilled (rely : Unbilled b.vm b.account s s') (h : b.At grown outstanding past s) :
    b.At grown outstanding past s' where
  charged := h.charged
  fair := h.fair
  holding := rely.holding.trans h.holding
  usage := by
    rw [rely.usage]
    exact h.usage

theorem stable_at : Stable (b.metering job) (b.At grown outstanding) :=
  fun _ _ _ rely _ h => h.unbilled rely

/-- A request that neither writes to accounts nor enlarges machines leaves the bill as it is. -/
theorem At.answers (plain : r.Plain) (answers : s.Answers job r reply s')
    (h : b.At grown outstanding past s) :
    b.At grown outstanding (past ++ [⟨r, reply, s.store⟩]) s' := by
  have kept : b.At grown outstanding past s' := h.unbilled (unbilled_of_answers plain answers)
  refine { kept with charged := ?_ }
  rw [charged_snoc, kept.charged]
  cases r with
  | transact t => cases t <;> first | rfl | exact plain.1.elim
  | _ => rfl

theorem plain {P : α → Prop} {q : Program surroundings α} (within : q.Within Request.Plain P)
    (h : b.At grown outstanding past s) :
    Safe (b.metering job) (fun a past s => P a ∧ b.At grown outstanding past s) q past s := by
  induction q generalizing past s with
  | done a => exact ⟨within, h⟩
  | ask r rest ih =>
    obtain ⟨kind, within⟩ := within
    intro s₁ rely₁ _
    refine ⟨trivial, fun s₂ rely₂ _ => ?_⟩
    have waits : b.At grown outstanding past s₂ :=
      h.unbilled (rely₁.trans (unbilled_enter.trans rely₂))
    refine ⟨⟨_, _, waits⟩, fun reply s₃ answers => ⟨trivial, ?_⟩⟩
    exact ih reply (within reply) (waits.answers kind answers)

theorem Stands.charge {store : Store} {reply : Unit} (h : b.Stands false false past store) :
    b.Stands false true (past ++ [⟨.transact (.charge b.account b.delta), reply, store⟩])
      (store.charge b.account b.delta) where
  charged := charged_snoc ..
  fair no := nomatch no
  holding := h.holding
  usage := by
    rw [Store.charge, Store.usageOf_setUsage, if_pos rfl]
    exact h.usage.charge

theorem Stands.credit {store : Store} {reply : Unit} (h : b.Stands false true past store) :
    b.Stands false false (past ++ [⟨.transact (.credit b.account b.delta), reply, store⟩])
      (store.credit b.account b.delta) where
  charged := charged_snoc ..
  fair no := nomatch no
  holding := h.holding
  usage := by
    rw [Store.credit, Store.usageOf_setUsage, if_pos rfl]
    exact h.usage.credit

theorem Stands.enlarge {store : Store} {reply : Except Failure Unit}
    (h : b.Stands false true past store) :
    (store.setResources b.vm b.wanted).1 = .ok () ∧
      b.Stands true true (past ++ [⟨.transact (.setResources b.vm b.wanted), reply, store⟩])
        (store.setResources b.vm b.wanted).2 := by
  obtain ⟨vm, stored, holds⟩ := Option.map_eq_some_iff.1 h.holding
  have named := Store.id_of_vm? stored
  simp only [Store.setResources, Store.modifyVm, stored]
  refine ⟨trivial, ?_⟩
  exact {
    charged := by
      rw [charged_snoc]
      exact h.charged
    fair := fun _ => rfl
    holding := by
      simp only [Store.holding, Store.vm?_insert, if_pos named, Option.map_some]
      exact congrArg (fun pair : AccountId × Resources => some (pair.1, b.wanted)) holds
    usage := h.usage }

theorem writes {t : Transaction} {Q : t.Reply → Prop} {grown' outstanding' : Bool}
    (next : ∀ store, b.Stands grown outstanding past store → Q (t.apply store).1 ∧
      b.Stands grown' outstanding' (past ++ [⟨.transact t, (t.apply store).1, store⟩])
        (t.apply store).2)
    (h : b.At grown outstanding past s) :
    Safe (b.metering job) (fun reply past s => Q reply ∧ b.At grown' outstanding' past s)
      (Program.call (I := surroundings) (.transact t)) past s := by
  refine Safe.call stable_at (fun _ => rfl) h fun s h _ => ⟨⟨_, _, h⟩, ?_⟩
  rintro _ _ ⟨-, rfl, rfl⟩
  exact ⟨trivial, next s.store h⟩

theorem Stands.found {store : Store} {reply : Option Vm}
    (h : b.Stands grown outstanding past store) :
    (∃ vm, store.vm? b.vm = some vm ∧ b.Shows grown vm) ∧
      b.Stands grown outstanding (past ++ [⟨.transact (.vm b.vm), reply, store⟩]) store := by
  obtain ⟨vm, stored, holds⟩ := Option.map_eq_some_iff.1 h.holding
  refine ⟨⟨vm, stored, Store.id_of_vm? stored, congrArg Prod.fst holds,
    congrArg Prod.snd holds⟩, ?_⟩
  exact { h with charged := (charged_snoc ..).trans h.charged }

theorem loads (h : b.At grown outstanding past s) :
    Safe (b.metering job) (fun result past s => (∃ vm, result = .ok vm ∧ b.Shows grown vm) ∧
      b.At grown outstanding past s) (Procedure.loadVm b.vm).run past s := by
  refine Safe.andThen (Q := fun result past s =>
    (∃ vm, result = .ok (some vm) ∧ b.Shows grown vm) ∧
    b.At grown outstanding past s) ?_ ?_ ?_
  · refine Safe.then
      (writes (t := .vm b.vm) (Q := fun found => ∃ vm, found = some vm ∧ b.Shows grown vm)
        (fun _ h => h.found) h) fun found past s h => ?_
    obtain ⟨⟨vm, rfl, here⟩, h⟩ := h
    exact ⟨⟨vm, rfl, here⟩, h⟩
  · intro found past s h
    obtain ⟨⟨vm, ⟨⟩, here⟩, h⟩ := h
    exact ⟨⟨vm, rfl, here⟩, h⟩
  · intro failure past s h
    obtain ⟨⟨vm, ⟨⟩, -⟩, -⟩ := h

/-- A scale-up on a target grows the machine if it succeeds, and only then. -/
theorem scales {ctx : Context} {item : Work.Item} {target : Target} (h : b.At false true past s) :
    Safe (b.metering job) (fun result => b.At (Except.isOk result) true)
      (scaleOn ctx item b.vm b.wanted target).run past s := by
  refine Safe.andThen (loads h) ?_ fun _ _ _ h => h.2
  intro vm past s h
  obtain ⟨-, h⟩ := h
  refine Safe.andThen (Q := fun _ => b.At false true) ?_ ?_ fun _ _ _ h => h
  · cases target with
    | inPlace host => exact h
    | migrate destination => exact (plain plain_moveForScale h).mono fun _ _ _ h => h.2
  intro asked past s h
  refine Safe.andThen (plain (Agent.dispatch_asks ⟨trivial, nofun⟩) h) ?_ fun _ _ _ h => h.2
  intro _ past s h
  refine Safe.andThen (writes (t := .setResources b.vm b.wanted) (Q := (· = .ok ()))
    (fun _ h => h.enlarge) h.2) ?_ ?_
  · intro _ past s h
    refine (loads h.2).mono fun result past s h => ?_
    obtain ⟨⟨vm, rfl, -⟩, h⟩ := h
    exact h
  · intro failure past s h
    obtain ⟨⟨⟩, -⟩ := h

def growth (b : Bill) (current : Option HostId) (wanted : Wanted) : Growth :=
  ⟨b.vm, b.account, current, wanted, b.delta⟩

theorem eq_of_growthOf {vm : Vm} {growth : Growth} (shows : b.Shows false vm)
    (grows : growthOf vm b.wanted = .ok growth) :
    growth = b.growth growth.current growth.wanted ∧
      ∀ part, b.held.amount part ≤ b.wanted.amount part := by
  have has : vm.resources = b.held := shows.resources
  simp only [growthOf, has] at grows
  split at grows
  · cases grows
  split at grows
  · cases grows
  next delta found =>
    cases grows
    refine ⟨?_, Resources.amount_le_of_growth? found⟩
    unfold Resources.growth? at found
    split at found
    · cases found
    · cases found
      simp only [Bill.growth, Bill.delta, shows.id, shows.account]

section
variable {ctx : Context} {item : Work.Item}

theorem serves (current : Option HostId) (wanted : Wanted) :
    Serves (b.metering job) (answerCall ctx item b.wanted (b.growth current wanted))
      (b.growth current wanted).current (fun _ => b.At false) (b.At true true) := by
  constructor
  · intro phase past s h
    exact Safe.then (writes (Q := fun _ => True) (fun _ h => ⟨trivial, h.charge⟩) h)
      fun _ _ _ h => ⟨rfl, h.2⟩
  · intro phase past s h
    exact Safe.then (writes (Q := fun _ => True) (fun _ h => ⟨trivial, h.credit⟩) h)
      fun _ _ _ h => ⟨rfl, h.2⟩
  · intro host phase past s h
    exact (plain (.call (r := .hasRoom host b.delta) ⟨trivial, nofun⟩) h).mono
      fun _ _ _ h => h.2
  · intro excluded phase past s h
    exact (plain (.call (r := .selectHost wanted excluded) ⟨trivial, nofun⟩) h).mono
      fun _ _ _ h => h.2
  · intro target moved past s _ h
    refine (scales h).mono fun result past s h => ?_
    cases result with
    | ok vm => exact h
    | error failure => exact h

def Settles (b : Bill) {ε : Type} (result : Except ε Vm) : Assertion := fun past s =>
  b.At (Except.isOk result) (Except.isOk result) past s ∧
    (Except.isOk result = true → ∀ part, b.held.amount part ≤ b.wanted.amount part)

theorem bills_scaleBody (h : b.At false false past s) :
    Safe (b.metering job) b.Settles (scaleBody ctx b.vm b.wanted item).run past s := by
  refine Safe.adapted (loads h) ?_ fun _ _ _ h => ⟨h.2, nofun⟩
  intro vm past s h
  obtain ⟨⟨_, ⟨⟩, shows⟩, h⟩ := h
  refine Safe.ofAdapted (fun _ _ => ?_) fun _ _ => ⟨h, nofun⟩
  refine Safe.ofAdapted (fun growth grows => ?_) fun _ _ => ⟨h, nofun⟩
  obtain ⟨same, larger⟩ := eq_of_growthOf shows grows
  rw [same]
  refine Safe.ofProgram (Safe.retry (serves ..) ctx.maxRetries.toNat h) fun result past s h => ?_
  cases result with
  | ok outcome => exact ⟨h, fun _ => larger⟩
  | error failure =>
    obtain ⟨phase, -, h⟩ := h
    exact ⟨h, nofun⟩

/-- What a scale-up leaves outstanding is what it has given the machine. -/
theorem bills_scale (h : b.At false false past s) :
    Safe (b.metering job) b.Settles (scale ctx b.vm b.wanted).run past s := by
  have clerical : ∀ r : Control.Request, r.Clerical → r.Plain :=
    fun _ => Request.plain_of_clerical
  refine Safe.andThen (plain ((start_within ..).mono clerical fun _ h => h) h) ?_
    fun _ _ _ h => ⟨h.2, nofun⟩
  intro item past s h
  refine Safe.ofProgram (bills_scaleBody h.2) fun ending past s h => ?_
  obtain ⟨h, larger⟩ := h
  refine (plain (settle_asks clerical fun _ _ => ⟨trivial, nofun⟩) h).mono
    fun result past s h => ?_
  obtain ⟨rfl, h⟩ := h
  cases ending with
  | ok vm => exact ⟨h, larger⟩
  | error failure => exact ⟨h, nofun⟩

end

end Bill
variable {v id : VmId} {account : AccountId} {job : Nat} {α : Type} {ctx : Context}
  {s s' s₀ s₁ : Shared} {past past' lived : List Exchange} {left : Store}
  {resources : Resources} {vm : Vm} {result : Except Failure Vm}

theorem Run.unbilled {P : α → Prop} {p : Program surroundings α} {a : α}
    (within : p.Within Request.Plain P) (run : Run (Unbilled v account) job p past s a past' s') :
    Unbilled v account s s' := by
  induction run with
  | done => exact ⟨rfl, rfl⟩
  | ask enters waits answers goes ih =>
    exact enters.trans (unbilled_enter.trans (waits.trans
      ((unbilled_of_answers within.1 answers).trans (ih (within.2 _)))))

theorem plain_scan : (scan ctx).run.Within Request.Plain fun _ => True :=
  Recovery.scan_asks (fun _ => Request.plain_of_quiet) (fun _ => ⟨trivial, nofun⟩)
    (fun _ => ⟨trivial, nofun⟩) (fun _ _ _ => ⟨trivial, nofun⟩) fun _ =>
    Request.plain_of_clerical

/-- What may come after a restart: recovery scans, one after the other. -/
inductive Aftermath (v : VmId) (account : AccountId) : Shared → Shared → Prop
  | rest {s s' : Shared} (rests : Unbilled v account s s') : Aftermath v account s s'
  | scan {s s' s'' : Shared} {past : List Exchange} {ctx : Context} {job : Nat}
      {result : Except Failure Recovery.Report}
      (scans : Run (Unbilled v account) job (scan ctx).run [] s result past s')
      (later : Aftermath v account s' s'') : Aftermath v account s s''

theorem Aftermath.unbilled (later : Aftermath v account s s') : Unbilled v account s s' := by
  induction later with
  | rest rests => exact rests
  | scan scans _ ih => exact (scans.unbilled plain_scan).trans ih

def Bill.of (vm : Vm) (resources : Resources) (s : Store) : Bill :=
  ⟨vm.id, vm.account, vm.resources, resources, s.usageOf vm.account⟩

theorem Bill.at_first (stored : s.store.vm? id = some vm) :
    (Bill.of vm resources s.store).At false false [] s where
  charged := rfl
  fair no := nomatch no
  holding := by
    cases Store.id_of_vm? stored
    simp only [Store.holding, Bill.of, stored]
    rfl
  usage := .inl rfl

/-- Wherever a scale-up was cut off, and whatever scans have come after it: the machine has grown
only if its account is charged, and the account is charged just if it was when the process
stopped. -/
theorem stopped_scale_is_billed (stored : s.store.vm? id = some vm)
    (run : Run (Unbilled id vm.account) job (scale ctx id resources).run [] s result past s')
    (stops : Stops past s' lived left) (restarted : s₀.store = left)
    (later : Aftermath id vm.account s₀ s₁) :
    ∃ w, s₁.store.vm? id = some w ∧ w.account = vm.account ∧
      (w.resources = resources ∧ charged lived = true ∨ w.resources = vm.resources) ∧
      Owes (s.store.usageOf vm.account) (resources.sub vm.resources) (charged lived)
        (s₁.store.usageOf vm.account) := by
  cases Store.id_of_vm? stored
  subst restarted
  obtain ⟨ends, points⟩ := (Bill.bills_scale (Bill.at_first stored)).points
    (I := (Bill.of vm resources s.store).Known) (fun _ => trivial) id run
  obtain ⟨grown, outstanding, h⟩ :=
    stops.known ⟨_, _, ends.1⟩ fun _ _ _ split => points _ _ _ split (Nat.zero_le _)
  have kept := later.unbilled
  obtain ⟨w, found, holds⟩ := Option.map_eq_some_iff.1 (kept.holding.trans h.holding)
  refine ⟨w, found, congrArg Prod.fst holds, ?_, ?_⟩
  · have has : w.resources = (Bill.of vm resources s.store).owns grown := congrArg Prod.snd holds
    cases grown with
    | true => exact .inl ⟨has, h.charged.trans (h.fair rfl)⟩
    | false => exact .inr has
  · rw [kept.usage, h.charged]
    exact h.usage

def scalable : Vm := { Vm.register ⟨1⟩ "i-1" "scalable" ⟨1⟩ ⟨1⟩ with
  state := .running, host := some ⟨5⟩, scalable := true, resources := ⟨2, 2048⟩ }

def tenant (used : Resources) : Store where
  vms := .ofList [scalable]
  usage := .ofList [⟨⟨1⟩, used⟩]

/-- The process stops when the account has been charged, and a scan closes the item. -/
theorem cut_off_after_charge : ∃ result before e after s' s₁,
    Run (Unbilled ⟨1⟩ ⟨1⟩) 0 (scale trial ⟨1⟩ ⟨4, 3072⟩).run
      [] ⟨tenant ⟨4, 4096⟩, {}, []⟩ result (before ++ e :: after) s' ∧
    charged before = true ∧ Aftermath ⟨1⟩ ⟨1⟩ ⟨e.before, {}, []⟩ s₁ ∧
    (∀ x ∈ s₁.store.work.rows, ¬ x.Open) ∧ s₁.store.vm? ⟨1⟩ = some scalable ∧
    s₁.store.usageOf ⟨1⟩ = ⟨6, 5120⟩ := by
  have ends :
    ((solo? 0 .silent (scale trial ⟨1⟩ ⟨4, 3072⟩).run []
      ⟨tenant ⟨4, 4096⟩, {}, []⟩).any
      fun ended => (cut? 7 ended.2.1).any fun cut => charged cut.1 &&
        (solo? 1 .silent (scan trial).run [] ⟨cut.2.1.before, {}, []⟩).any fun scanned =>
          scanned.2.2.store.work.rows.all (fun x => ¬ x.Open) &&
          scanned.2.2.store.vm? ⟨1⟩ = some scalable && scanned.2.2.store.usageOf ⟨1⟩ =
          ⟨6, 5120⟩) = true := by
    decide +kernel
  obtain ⟨⟨result, past, s'⟩, scales, ends⟩ := (Option.any_eq_true ..).1 ends
  obtain ⟨⟨before, e, after⟩, split, ends⟩ := (Option.any_eq_true ..).1 ends
  simp only [Bool.and_eq_true] at ends
  obtain ⟨charged, ends⟩ := ends
  obtain ⟨⟨report, told, s₁⟩, scans, ends⟩ := (Option.any_eq_true ..).1 ends
  simp only [Bool.and_eq_true, List.all_eq_true, decide_eq_true_eq] at ends
  obtain ⟨⟨closed, stored⟩, used⟩ := ends
  obtain rfl := eq_of_cut? split
  have refl : ∀ s : Shared, Unbilled ⟨1⟩ ⟨1⟩ s s := fun _ => ⟨rfl, rfl⟩
  exact ⟨result, before, e, after, s', s₁, run_of_solo? refl scales, charged,
    .scan (run_of_solo? refl scans) (.rest (refl _)), closed, stored, used⟩

theorem cut_off_scale_is_billed : ∃ result before e after s' s₁ w,
    Run (Unbilled ⟨1⟩ ⟨1⟩) 0 (scale trial ⟨1⟩ ⟨4, 3072⟩).run
      [] ⟨tenant ⟨4, 4096⟩, {}, []⟩ result (before ++ e :: after) s' ∧
    Aftermath ⟨1⟩ ⟨1⟩ ⟨e.before, {}, []⟩ s₁ ∧ s₁.store.vm? ⟨1⟩ = some w ∧
    w.resources = ⟨2, 2048⟩ ∧
    Owes ⟨4, 4096⟩ ⟨2, 1024⟩ true (s₁.store.usageOf ⟨1⟩) := by
  obtain ⟨result, before, e, after, s', s₁, run, charged, later, -, stored, -⟩ :=
    cut_off_after_charge
  obtain ⟨w, found, -, -, owes⟩ := stopped_scale_is_billed (show _ = some scalable from rfl) run
    (.midway rfl) rfl later
  rw [charged] at owes
  cases stored.symm.trans found
  exact ⟨result, before, e, after, s', s₁, scalable, run, later, stored, rfl, owes⟩

/-- After a scale-up that may have been cut off, and scans that have closed its item, the account
uses more by the growth if the machine has grown, and as much as before otherwise. -/
def Symmetric (store : Store) : Prop :=
  ∀ (ctx : Context) (id : VmId) (resources : Resources) (vm w : Vm) (job : Nat)
    (result : Except Failure Vm)
    (past lived : List Exchange) (s' s₁ : Shared) (left : Store), store.vm? id = some vm →
    Run (Unbilled id vm.account) job (scale ctx id resources).run []
      ⟨store, {}, []⟩ result past s' →
    Stops past s' lived left → Aftermath id vm.account ⟨left, {}, []⟩ s₁ →
    (∀ x ∈ s₁.store.work.rows, ¬ x.Open) → s₁.store.vm? id = some w →
    s₁.store.usageOf vm.account = if w.resources = resources
      then (store.usageOf vm.account).add (resources.sub vm.resources) else store.usageOf vm.account

/-- A charge that was outstanding when the process stopped is never taken back, and one that has
made a counter run over is taken back in full. -/
theorem accounting_is_not_symmetric :
    ¬ Symmetric (tenant ⟨4, 4096⟩) ∧ ¬ Symmetric (tenant ⟨4294967295, 4096⟩) := by
  constructor
  · intro symmetric
    obtain ⟨result, before, e, after, s', s₁, run, -, later, closed, stored, used⟩ :=
      cut_off_after_charge
    have same := symmetric _ _ _ scalable _ _ _ _ _ _ _ _ rfl run (.midway rfl) later closed stored
    rw [show s₁.store.usageOf scalable.account = _ from used] at same
    exact absurd same (by decide)
  · intro symmetric
    have ends : ((solo? 0 .silent (scale trial ⟨1⟩ ⟨4, 3072⟩).run []
        ⟨tenant ⟨4294967295, 4096⟩, {}, []⟩).any fun ended =>
          ended.2.2.store.work.rows.all (fun x => ¬ x.Open) &&
          ended.2.2.store.vm? ⟨1⟩ = some scalable &&
          ended.2.2.store.usageOf ⟨1⟩ = ⟨4294967293, 4096⟩) = true := by
      decide +kernel
    obtain ⟨⟨result, past, s'⟩, scales, ends⟩ := (Option.any_eq_true ..).1 ends
    simp only [Bool.and_eq_true, List.all_eq_true, decide_eq_true_eq] at ends
    obtain ⟨⟨closed, stored⟩, used⟩ := ends
    have run : Run (Unbilled ⟨1⟩ ⟨1⟩) 0
      (scale trial ⟨1⟩ ⟨4, 3072⟩).run [] _ _ _ s' :=
      run_of_solo? (fun _ => ⟨rfl, rfl⟩) scales
    have same := symmetric _ _ _ scalable _ _ _ _ _ _ ⟨s'.store, {}, []⟩ _ rfl run .ended
      (.rest ⟨rfl, rfl⟩) closed stored
    rw [show s'.store.usageOf scalable.account = _ from used] at same
    exact absurd same (by decide)

end Concurrent
end ControlPlane
