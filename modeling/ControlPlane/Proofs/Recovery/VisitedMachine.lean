import ControlPlane.Proofs.Recovery.OtherMachines

/-!
# What a scan does for a machine

A recovery scan comes to the open item of a machine once. If it gets hold of the lock and both hosts
of the plan tell where the machine is, it records the machine there and closes the item. Otherwise
it leaves both as they are.
-/

namespace ControlPlane

/-- The record of a machine after it has been taken to a state and a host. -/
def Vm.put (vm : Vm) (state : State) (host : Option HostId) : Vm :=
  { vm with
    state := state
    host := host
    lastHost := if vm.host = host then vm.lastHost else vm.host.or vm.lastHost
    version := vm.version + 1 }

theorem Transition.hosts_put {vm : Vm} {next : State} {host : Option HostId}
    (fits : next.HoldsHost ↔ host.isSome) :
    hosts vm next host = .ok (host, (vm.put next host).lastHost) := by
  cases host with
  | none =>
    rw [hosts_left none fun holds => nomatch fits.1 holds]
    cases here : vm.host <;>
      simp only [Vm.put, here, if_true, Option.none_or, if_false, reduceCtorEq]
  | some host =>
    unfold hosts
    rw [if_pos (fits.2 rfl)]
    rfl

namespace Concurrent
open Work Control Operation Procedure Recovery

/-- What the hosts of a plan say of a machine: it has arrived, it has stayed, it is off, or they do
not agree. -/
inductive Finding where
  | arrived | stayed | stopped | unclear
deriving DecidableEq, Repr

namespace Finding

def of : Option PowerState → Option PowerState → Finding
  | some .off, some .on | none, some .on => arrived
  | some .on, _ => stayed
  | some .off, some .off => stopped
  | _, _ => unclear

def settle (p : Plan) (vm : Vm) : Finding → Vm
  | arrived => if vm.host = some p.destination then vm else vm.put .running (some p.destination)
  | stayed =>
    if vm.state = .running ∧ vm.host = some p.source then vm else vm.put .running (some p.source)
  | stopped => vm.put .stopped none
  | unclear => vm

def close (item : Item) (now : Timestamp) : Finding → Item
  | unclear => item
  | _ => { item with step := .done, updated := now }

def stows (Ψ Ψ' : List Volume → Prop) : Finding → List Volume → Prop
  | arrived => Ψ'
  | _ => Ψ

def decision : Finding → Decision
  | unclear => .deferred
  | _ => .resolved

theorem close_frame {item : Item} {now : Timestamp} (f : Finding) :
    (f.close item now).id = item.id ∧ (f.close item now).vm = item.vm := by
  cases f <;> exact ⟨rfl, rfl⟩

end Finding

/-- Both hosts of a plan have been asked for a machine, and these are their answers. -/
inductive Heard (ctx : Context) (p : Plan) (token : String) :
    Option PowerState → Option PowerState → Exchange → Prop
  | mk (answers : Except Failure Agent.Answer × Except Failure Agent.Answer) (before : Store) :
    Heard ctx p token (known? (Agent.powerOf p.source answers.1))
      (known? (Agent.powerOf p.destination answers.2))
      ⟨.sendBoth (Agent.probe p.source token ctx.probeWait)
        (Agent.probe p.destination token ctx.probeWait), answers, before⟩

/-- A scan has found out where a machine is, or has not been let at it. -/
inductive Found (F : Exchange → Prop) (ctx : Context) (v : VmId) (p : Plan) (token : String) :
    Finding → Prop
  | refused {before : Store} : F ⟨.lock (lockName ctx.node v), false, before⟩ →
    Found F ctx v p token .unclear
  | heard {source destination : Option PowerState} {e : Exchange} : F e →
    Heard ctx p token source destination e → Found F ctx v p token (.of source destination)

/-- What is known of the volumes of a machine before the moves of its plan have been recorded, and
after. Moves of other volumes than the given ones do not change it. -/
structure Stowage (p : Plan) (pools : Table Pool) (vm : Vm) (volumes : List Volume)
    (Ψ Ψ' : List Volume → Prop) : Prop where
  backed : ∀ {all}, Ψ all → p.Backed pools all
  before : Keeps pools volumes Ψ
  after : Keeps pools volumes Ψ'
  arrives : ∀ {all}, Ψ all → Ψ' (all.map (Volume.under pools (movesOf p)))
  arrived : ∀ {all}, vm.host = some p.destination → Ψ all → Ψ' all

variable {v : VmId} {job : Nat} {s s' : Shared} {past : List Exchange} {item x : Item}
  {items : List Item} {view : View} {pools : Table Pool} {ctx : Context} {vm : Vm} {p : Plan}
  {F : Exchange → Prop} {volumes : List Volume} {Ψ Ψ' : List Volume → Prop}

theorem Berthed.subject {vm? : Option Vm} (h : Berthed v item vm? Ψ pools past s) :
    item.vm = v := by
  obtain ⟨_, -, lodged, -⟩ := h
  exact lodged.subject

theorem lenient_resting : Lenient (resting v job) F := ⟨fun _ _ => trivial, fun _ => trivial⟩

theorem settle_of_plan (planned : item.plan = some p)
    (state : vm.state = .running ∨ vm.state = .migrating) :
    Recovery.settle ctx item vm = settleMigration ctx vm p := by
  unfold Recovery.settle
  rcases state with state | state <;> rw [planned, state]

theorem runs_of_state (state : vm.state = .running ∨ vm.state = .migrating) :
    vm.state.next? .agentReportsRunning = some .running := by
  rcases state with state | state <;> rw [state] <;> rfl

theorem stops_of_state (state : vm.state = .running ∨ vm.state = .migrating) :
    vm.state.next? .agentReportsStopped = some .stopped := by
  rcases state with state | state <;> rw [state] <;> rfl

theorem berthed_report {event : ControlPlane.Event} {next : State} {host : Option HostId}
    (legal : vm.state.next? event = some next) (fits : next.HoldsHost ↔ host.isSome)
    (h : Berthed v item (some vm) Ψ pools past s) :
    Safe (resting v job) (fun result past s => result = .ok .resolved ∧
        Berthed v item (some (vm.put next host)) Ψ pools past s)
      (do report vm event host; return .resolved : Procedure Decision).run past s := by
  obtain ⟨all, known, h⟩ := h
  have checked := Transition.check_eq_ok
    (t := ⟨vm.id, vm.state, event, host, some vm.version⟩) legal rfl rfl
    (Transition.hosts_put fits)
  refine Safe.andThen (Q := fun result past s => result = .ok () ∧
    Berthed v item (some (vm.put next host)) Ψ pools past s) ?_ (fun _ _ _ h => ⟨rfl, h.2⟩) ?_
  · refine Safe.andThen (lodges_transition unmoved_true (fun _ => trivial) (h.1.named rfl)
      rfl checked h) ?_ ?_
    · rintro _ past s ⟨-, h⟩
      exact ⟨rfl, all, known, h⟩
    · rintro _ _ _ ⟨⟨⟩, -⟩
  · rintro _ _ _ ⟨⟨⟩, -⟩

section
variable (stowage : Stowage p pools vm volumes Ψ Ψ')
include stowage

theorem Stowage.plain {all : List Volume} (plain : ¬ p.MovesStorage) (known : Ψ all) :
    Ψ' all := by
  have arrives := stowage.arrives known
  have none : movesOf p = [] := by
    rw [movesOf, Decidable.not_not.1 plain]
    rfl
  rwa [none, (List.map_congr_left fun _ _ => rfl : all.map (Volume.under pools []) = all.map id),
    List.map_id] at arrives

/-- The volumes of a machine that has been moved are recorded where the plan takes them. -/
theorem berthed_moves (h : Berthed v item (some vm) Ψ pools past s) :
    Safe (resting v job)
      (fun result past s => result = .ok () ∧ Berthed v item (some vm) Ψ' pools past s)
      (demand (α := Unit) (.transact (.moveVolumes (movesOf p))) rfl).run past s := by
  obtain ⟨all, known, h⟩ := h
  have moves : Safe (resting v job) (fun result past s => result = .ok () ∧
      Rest v item ⟨some vm, all.map (Volume.under pools (movesOf p))⟩ pools past s)
      (demand (α := Unit) (.transact (.moveVolumes (movesOf p))) rfl).run past s :=
    lodges_moveVolumes (fun _ => trivial) (moves_movesOf p) (stowage.backed known)
      (fun _ => trivial) h
  exact moves.mono fun _ _ _ h => ⟨h.1, _, stowage.arrives known, h.2⟩

theorem berthed_arrives (state : vm.state = .running ∨ vm.state = .migrating)
    (h : Berthed v item (some vm) Ψ pools past s) :
    Safe (resting v job) (fun result past s => result = .ok .resolved ∧
        Berthed v item (some (Finding.arrived.settle p vm)) Ψ' pools past s)
      (do
        if vm.host = some p.destination then return .resolved
        if p.MovesStorage then demand (.transact (.moveVolumes (movesOf p))) rfl
        report vm .agentReportsRunning (some p.destination)
        return .resolved : Procedure Decision).run past s := by
  by_cases there : vm.host = some p.destination
  · obtain ⟨all, known, h⟩ := h
    simp only [if_pos there, Finding.settle]
    exact ⟨rfl, all, stowage.arrived there known, h⟩
  · simp only [if_neg there, Finding.settle]
    have reports : ∀ {past s}, Berthed v item (some vm) Ψ' pools past s →
        Safe (resting v job) (fun result past s => result = .ok .resolved ∧
          Berthed v item (some (vm.put .running (some p.destination))) Ψ' pools past s)
        (do report vm .agentReportsRunning (some p.destination);
            return .resolved : Procedure Decision).run
        past s := berthed_report (runs_of_state state) ⟨fun _ => rfl, fun _ => by decide⟩
    split
    · refine Safe.andThen (berthed_moves stowage h) (fun _ past s h => reports h.2) ?_
      rintro _ _ _ ⟨⟨⟩, -⟩
    next plain =>
      obtain ⟨all, known, h⟩ := h
      exact reports ⟨all, stowage.plain plain known, h⟩

theorem berthed_settle (planned : item.plan = some p)
    (state : vm.state = .running ∨ vm.state = .migrating)
    (h : Berthed v item (some vm) Ψ pools past s) :
    Safe (resting v job)
      (fun result => Given F fun past s => ∃ finding, Found F ctx v p vm.token finding ∧
        result = .ok finding.decision ∧
        Berthed v item (some (finding.settle p vm)) (finding.stows Ψ Ψ') pools past s)
      (Recovery.settle ctx item vm).run past s := by
  rw [settle_of_plan planned state]
  refine Safe.ofProgram
    (Q := fun (answers : Except Failure PowerState × Except Failure PowerState) =>
      Given F fun past s => (∃ e, F e ∧
        Heard ctx p vm.token (known? answers.1) (known? answers.2) e) ∧
        Berthed v item (some vm) Ψ pools past s) ?_ ?_
  · refine Safe.call (sheltered_berthed rfl rfl stowage.before).stable
      (fun _ => rfl) h fun s h _ =>
      ⟨trivial, ?_⟩
    rintro answers _ rfl
    exact ⟨trivial,
      fun all => ⟨⟨_, all _ (List.mem_append_right _ (List.mem_singleton_self _)),
        .mk answers _⟩, h⟩⟩
  · rintro ⟨source, destination⟩ past s h
    refine Safe.given lenient_resting h fun ⟨⟨e, told, heard⟩, h⟩ => ?_
    have found := Found.heard (v := v) told heard
    dsimp only at found ⊢
    generalize known? source = source at found ⊢
    generalize known? destination = destination at found ⊢
    have concludes : ∀ (finding : Finding) {q : Procedure Decision},
      Found F ctx v p vm.token finding →
        Safe (resting v job) (fun result past s => result = .ok finding.decision ∧
          Berthed v item (some (finding.settle p vm)) (finding.stows Ψ Ψ') pools past s)
            q.run past s →
        Safe (resting v job) (fun result => Given F fun past s => ∃ finding,
          Found F ctx v p vm.token finding ∧ result = .ok finding.decision ∧
          Berthed v item (some (finding.settle p vm)) (finding.stows Ψ Ψ') pools past s)
            q.run past s :=
      fun _ _ found h => h.mono fun _ _ _ h _ => ⟨_, found, h⟩
    split
    · exact concludes _ found (berthed_arrives stowage state h)
    · exact concludes _ found (berthed_arrives stowage state h)
    · refine concludes .stayed found ?_
      simp only [Finding.settle]
      split
      · exact ⟨rfl, h⟩
      · exact berthed_report (runs_of_state state) ⟨fun _ => rfl, fun _ => by decide⟩ h
    · exact concludes _ found (berthed_report (stops_of_state state) ⟨by decide, nofun⟩ h)
    · refine concludes .unclear ?_ ⟨rfl, h⟩
      rwa [Finding.of] at found <;> assumption

end

/-- A scan has looked at a machine, and has left it and its item as it has found out. -/
def Reviewed (F : Exchange → Prop) (ctx : Context) (v : VmId) (item : Item) (p : Plan) (vm : Vm)
    (Ψ Ψ' : List Volume → Prop) (pools : Table Pool) : Assertion := fun past s =>
  ∃ finding now, Found F ctx v p vm.token finding ∧
    Berthed v (finding.close item now) (some (finding.settle p vm))
      (finding.stows Ψ Ψ') pools past s

section
variable (stowage : Stowage p pools vm volumes Ψ Ψ')
include stowage

theorem sheltered_reviewed :
    Sheltered v item volumes (Reviewed F ctx v item p vm Ψ Ψ' pools) := by
  refine .any fun finding => .any fun now => .and_of fun _ => ?_
  obtain ⟨id, vm⟩ : (finding.close item now).id = item.id ∧
    (finding.close item now).vm = item.vm :=
    finding.close_frame
  refine sheltered_berthed id vm ?_
  cases finding with
  | arrived => exact stowage.after
  | _ => exact stowage.before

omit stowage in
theorem berthed_lock (h : Berthed v item (some vm) Ψ pools past s) :
    Safe (resting v job) (fun result => Given F fun past s =>
        (result ≠ .ok () → Found F ctx v p vm.token .unclear) ∧
        Berthed v item (some vm) Ψ pools past s)
      (Work.lock ctx.node v).run past s := by
  intro s₁ rely₁ _
  refine ⟨trivial, fun s₂ rely₂ _ =>
    ⟨trivial, fun reply s₃ answers => ⟨trivial, ?_⟩⟩⟩
  obtain ⟨all, known, lodged, -⟩ := h
  have h₂ : Lodged v item ⟨some vm, all⟩ pools s₂.store :=
    (lodged.alike rely₁).alike rely₂
  cases reply with
  | true =>
    obtain ⟨-, rfl⟩ := answers
    exact fun _ => ⟨fun no => absurd rfl no, all, known, h₂, trivial⟩
  | false =>
    obtain ⟨-, rfl⟩ := answers
    refine fun told => ⟨fun _ => ?_, all, known, h₂, trivial⟩
    exact .refused (told _ (List.mem_append_right _ (List.mem_singleton_self _)))

variable (planned : item.plan = some p) (state : vm.state = .running ∨ vm.state = .migrating)
  (isOpen : item.Open)
include planned state isOpen

theorem berthed_resolve (h : Berthed v item (some vm) Ψ pools past s) :
    Safe (resting v job) (fun _ => Given F (Reviewed F ctx v item p vm Ψ Ψ' pools))
      (resolve ctx item).run past s := by
  refine Safe.andThen (Q := fun result past s => result = .ok (some vm) ∧
    Berthed v item (some vm) Ψ pools past s)
    (Safe.ask (sheltered_berthed rfl rfl stowage.before).stable (fun _ => rfl) h fun s h _ =>
      ⟨trivial, ?_⟩) ?_ ?_
  · rintro _ _ ⟨-, rfl, rfl⟩
    refine ⟨trivial, congrArg Except.ok ?_, h⟩
    obtain ⟨_, -, lodged, -⟩ := h
    exact lodged.subject.symm ▸ congrArg View.vm lodged.view
  · rintro _ past s ⟨⟨⟩, h⟩
    refine Safe.ofProgram (berthed_settle stowage planned state h) fun result past s h =>
      Safe.given lenient_resting h fun ⟨finding, found, decided, all, known, kept⟩ => ?_
    subst decided
    have closes : (∀ now, finding.close item now =
      { item with step := .done, updated := now }) →
        Safe (resting v job) (fun _ => Given F (Reviewed F ctx v item p vm Ψ Ψ' pools))
          (do if ← closeRecovered item .done then return { resolved := [item.id] }
              else return {} :
            Procedure Report).run past s := by
      intro closed
      refine Safe.andThen (lodges_closeRecovered unmoved_true.calm
        (fun _ => trivial) isOpen kept) ?_
        fun _ _ _ => False.elim
      rintro _ past s ⟨rfl, now, h⟩ -
      exact ⟨finding, now, found, all, known, (closed now).symm ▸ h⟩
    cases finding with
    | unclear => exact fun _ => ⟨.unclear, item.updated, found, all, known, kept⟩
    | _ => exact closes fun _ => rfl
  · rintro _ _ _ ⟨⟨⟩, -⟩

theorem berthed_visit (h : Berthed v item (some vm) Ψ pools past s) :
    Safe (resting v job) (fun _ => Given F (Reviewed F ctx v item p vm Ψ Ψ' pools))
      (visit ctx item).run past s := by
  have unlocks : ∀ {past s}, Given F (Reviewed F ctx v item p vm Ψ Ψ' pools) past s →
      Safe (resting v job) (Bypasses (Given F (Reviewed F ctx v item p vm Ψ Ψ' pools)))
        (Procedure.ask (.unlock (lockName ctx.node item.vm) .plain)).run past s :=
    fun h => Safe.bypasses (sheltered_reviewed stowage).given h (.asked trivial)
  obtain rfl : item.vm = v := h.subject
  refine Safe.ofProgram (berthed_lock (p := p) h) fun result past s h =>
    Safe.given lenient_resting h fun ⟨refused, kept⟩ => ?_
  cases result with
  | error failure => exact fun _ => ⟨.unclear, item.updated, refused nofun, kept⟩
  | ok _ =>
    refine Safe.andThen (Q := fun _ => Given F (Reviewed F ctx item.vm item p vm Ψ Ψ' pools))
      ?_ ?_ fun _ _ _ h => h
    · refine Safe.tryCatch (berthed_resolve stowage planned state isOpen kept) (fun _ _ _ h => h)
        fun failure past s h => ?_
      exact Safe.andThen (unlocks h) (fun _ _ _ h => h) fun _ _ _ => False.elim
    · exact fun report past s h =>
        Safe.andThen (unlocks h) (fun _ _ _ h => h) fun _ _ _ => False.elim

end

section
variable {A B : Assertion} (sheltered : Sheltered v item volumes A)
  (after : Sheltered v item volumes B)
  (visits : ∀ {past s}, A past s →
    Safe (resting v job) (fun _ => Given F B) (visit ctx item).run past s)
include sheltered after visits

theorem visitAll_visits (mem : item ∈ items) (distinct : items.Pairwise (·.id ≠ ·.id))
    (foreign : ∀ x ∈ items, x.id ≠ item.id → Foreign item volumes x) (h : A past s) :
    Safe (resting v job) (fun _ => Given F B) (visitAll ctx items).run past s := by
  induction items generalizing past s with
  | nil => cases mem
  | cons x items ih =>
    rw [List.pairwise_cons] at distinct
    obtain ⟨apart, distinct⟩ := distinct
    rcases List.mem_cons.1 mem with rfl | mem
    · refine Safe.andThen (visits h) (fun report past s h => ?_) fun _ _ _ h => h
      have others : ∀ y ∈ items, Foreign item volumes y :=
        fun y own => foreign y (List.mem_cons_of_mem _ own) (apart y own).symm
      refine Safe.andThen (Q := fun _ => Given F B) ((visitAll_apart after.given others h).mono
        fun result _ _ ends => ?_) (fun _ _ _ h => h) fun _ _ _ h => h
      cases result with
      | error failure => exact ends.elim
      | ok _ => exact ends
    · have other := foreign x List.mem_cons_self (apart item mem)
      refine Safe.andThen (visit_apart sheltered other h) (fun report past s h => ?_)
        fun _ _ _ => False.elim
      exact Safe.andThen (ih mem distinct (fun y own => foreign y (List.mem_cons_of_mem x own)) h)
        (fun _ _ _ h => h) fun _ _ _ h => h

omit after visits in
/-- What a scan lists is the item of a machine, if it is open on the node, and items of other
machines. -/
theorem scan_lists
    (lodged : ∀ {past s}, A past s → ∃ view pools, Lodged v item view pools s.store)
    (spares : ∀ e, F e → Untouching v ctx.node.id volumes e) (h : A past s) :
    Safe (resting v job) (fun result => Given F fun past s => ∃ items, result = .ok items ∧
        items.Pairwise (·.id ≠ ·.id) ∧
        (item ∈ items ↔ item.owner = ctx.node.id ∧ item.Open) ∧
        (∀ x ∈ items, x.id = item.id → x = item) ∧
        (∀ x ∈ items, x.id ≠ item.id → Foreign item volumes x) ∧ A past s)
      (transact (.openItems ctx.node.id)).run past s := by
  refine Safe.ask sheltered.stable (fun _ => rfl) h fun s h _ => ⟨trivial, ?_⟩
  obtain ⟨view, pools, lodged⟩ := lodged h
  rintro _ _ ⟨-, rfl, rfl⟩
  refine ⟨trivial, fun all => ⟨_, rfl, Store.openItems_distinct ..,
    ⟨fun mem => ?_, ?_⟩, ?_, ?_, sheltered.apart trivial (.inl rfl) h⟩⟩
  · exact (Store.mem_openItems mem).2
  · exact fun ⟨owner, isOpen⟩ => Store.openItems_of_open lodged.filed owner isOpen
  · intro x mem same
    have filed := (Store.mem_openItems mem).1
    rw [same, lodged.filed] at filed
    exact (Option.some.inj filed).symm
  · intro x mem other
    obtain ⟨filed, -, isOpen'⟩ := Store.mem_openItems mem
    have apart : x.vm ≠ v := fun here => other (lodged.sole filed here isOpen')
    refine ⟨other, lodged.subject.symm ▸ apart, ?_⟩
    exact spares _ (all _ (List.mem_append_right _ (List.mem_singleton_self _))) rfl x mem apart

/-- A scan comes to the open item of a machine, and leaves the machine alone before and after. -/
theorem scan_visits
    (lodged : ∀ {past s}, A past s → ∃ view pools, Lodged v item view pools s.store)
    (isOpen : item.Open) (owner : item.owner = ctx.node.id)
    (spares : ∀ e, F e → Untouching v ctx.node.id volumes e) (h : A past s) :
    Safe (resting v job) (fun _ => Given F B) (scan ctx).run past s := by
  refine Safe.andThen (scan_lists sheltered lodged spares h) (fun items past s h => ?_)
    fun _ _ _ h all => by obtain ⟨_, ⟨⟩, -⟩ := h all
  refine Safe.given lenient_resting h fun ⟨_, e, distinct, listed, _, foreign, h⟩ => ?_
  cases e
  exact visitAll_visits sheltered after visits (listed.2 ⟨owner, isOpen⟩) distinct foreign h

omit after visits in
/-- A scan that does not come to the item of a machine leaves the machine alone. -/
theorem scan_apart
    (lodged : ∀ {past s}, A past s → ∃ view pools, Lodged v item view pools s.store)
    (idle : item.owner = ctx.node.id → ¬ item.Open)
    (spares : ∀ e, F e → Untouching v ctx.node.id volumes e) (h : A past s) :
    Safe (resting v job) (fun _ => Given F A) (scan ctx).run past s := by
  refine Safe.andThen (scan_lists sheltered lodged spares h) (fun items past s h => ?_)
    fun _ _ _ h all => by obtain ⟨_, ⟨⟩, -⟩ := h all
  refine Safe.given lenient_resting h fun ⟨_, e, _, listed, same, foreign, h⟩ => ?_
  cases e
  have others : ∀ x ∈ items, Foreign item volumes x :=
    fun x mem => foreign x mem fun named => by
    obtain ⟨owner, isOpen⟩ := listed.1 (same x mem named ▸ mem)
    exact idle owner isOpen
  refine (visitAll_apart sheltered others h).mono fun result past s ends _ => ?_
  cases result with
  | error failure => exact ends.elim
  | ok _ => exact ends

end

/-- A scan of a node looks at the open item of a machine among others. -/
theorem berthed_scan (stowage : Stowage p pools vm volumes Ψ Ψ') (planned : item.plan = some p)
    (state : vm.state = .running ∨ vm.state = .migrating) (isOpen : item.Open)
    (owner : item.owner = ctx.node.id) (spares : ∀ e, F e → Untouching v ctx.node.id volumes e)
    (h : Berthed v item (some vm) Ψ pools past s) :
    Safe (resting v job) (fun _ => Given F (Reviewed F ctx v item p vm Ψ Ψ' pools))
      (scan ctx).run past s := by
  refine scan_visits (sheltered_berthed rfl rfl stowage.before) (sheltered_reviewed stowage)
    (berthed_visit stowage planned state isOpen) ?_ isOpen owner spares h
  rintro past s ⟨all, -, lodged, -⟩
  exact ⟨_, _, lodged⟩

end Concurrent
end ControlPlane
