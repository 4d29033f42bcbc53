import ControlPlane.Proofs.Operation.OutwardRequests
import ControlPlane.Proofs.Operation.OwnItem
import ControlPlane.Proofs.Recovery.ListedItems

/-!
# The recovery scan keeps to the discipline

A scan settles a machine only under its lock, and brings it to rest before it closes the item. What
it writes is on behalf of an item that was listed, and that is as it was when the lock was granted.
-/

namespace ControlPlane.Concurrent
open Work Control Recovery Procedure

def Scans (node : NodeId) (past : List Exchange) (s : Shared) (r : Control.Request) : Prop :=
  ∀ t, r = .transact t → t.Touches → OnBehalf node past s.store t

abbrev scanning (node : NodeId) (job : Nat) : Contract := discipline (Scans node) node job

variable {job : Nat} {s s' : Shared} {c : Item} {items : List Item} {granted : Store}
  {past : List Exchange} {e : Exchange} {node : NodeId} {P : State → UInt64 → Prop} {vm : Vm}
  {ctx : Operation.Context}

theorem scans_of_quiet {r : Control.Request} (quiet : r.Quiet) : Scans node past s r := by
  rintro t rfl touches
  exact absurd touches (Transaction.not_touches quiet)

/-- The scan has drawn no identifier, and knows copies of the items that it has yet to visit. -/
structure Touring (job : Nat) (node : NodeId) (items : List Item)
    (past : List Exchange) (s : Shared) :
    Prop where
  idle : Idle job s
  copies : ∀ d ∈ items, Listed node d past ∧ Copy d s

theorem Touring.append (h : Touring job node items past s) :
    Touring job node items (past ++ [e]) s :=
  ⟨h.idle, fun d mem => ⟨(h.copies d mem).1.append, (h.copies d mem).2⟩⟩

theorem Touring.acts (h : Touring job node items past s) (acts : Acts job s s')
    (stamps : s'.stamps = s.stamps) : Touring job node items past s' := by
  refine ⟨fun id drew => h.idle id ?_,
    fun d mem => ⟨(h.copies d mem).1, (h.copies d mem).2.acts acts⟩⟩
  unfold Shared.Drew at drew ⊢
  rwa [stamps] at drew

theorem Touring.others (h : Touring job node items past s) (others : Others job node s s') :
    Touring job node items past s' := by
  refine ⟨fun id drew => h.idle id (draws_of_others others drew), fun d mem => ?_⟩
  obtain ⟨listed, copy⟩ := h.copies d mem
  obtain rfl := listed.owner
  exact ⟨listed, copy.others others⟩

theorem stable_touring : Stable (scanning node job) (Touring job node items) :=
  stable_discipline fun _ others h => h.others others

structure Visiting (job : Nat) (c : Item) (items : List Item) (granted : Store)
    (past : List Exchange) (s : Shared) : Prop where
  touring : Touring job c.owner items past s
  holds : s.Holds job ⟨c.owner, c.vm⟩
  listed : Listed c.owner c past
  copy : Copy c s
  since : heldSince ⟨c.owner, c.vm⟩ past = some granted
  kept : s.store.item? c.id = granted.item? c.id

theorem Visiting.holding (h : Visiting job c items granted past s) : Holding job c s :=
  ⟨h.holds, h.copy.known⟩

theorem Visiting.onBehalf (h : Visiting job c items granted past s) {t : Transaction}
    (concerns : Concerns c t) : OnBehalf c.owner past s.store t :=
  ⟨c, granted, h.listed, h.since, concerns, h.kept⟩

theorem upheld_visiting :
    Upheld (scanning c.owner job) c (Visiting job c items granted) where
  holding h := h.holding
  stable := stable_discipline fun coherent others h =>
    ⟨h.touring.others others, holds_of_others h.holds others, h.listed,
      h.copy.others others, h.since,
      (item?_of_others h.holds h.copy.known coherent others).trans h.kept⟩
  fit kind h _ := by
    rcases kind with quiet | ⟨u, rfl, subject⟩
    · exact scans_of_quiet quiet
    · rintro _ ⟨⟩ -
      exact h.onBehalf subject
  quiet quiet h :=
    ⟨h.touring.append, h.holds, h.listed.append, h.copy, (heldSince_of_quiet quiet).trans h.since,
      h.kept⟩
  write names closes acts h :=
    ⟨(h.touring.acts acts rfl).append, h.holds, h.listed.append, h.copy.acts acts,
      heldSince_transact.trans h.since, (Transaction.item?_frame names closes).trans h.kept⟩

def AsRead (c : Item) (vm : Vm) (state : State) (_ : UInt64) : Prop :=
  state = vm.state ∧ (state = .migrating → ∀ plan, c.plan = some plan →
    vm.host ≠ some plan.destination)

/-- A machine that migrates under the item is recorded where it leaves, and not where it goes. -/
theorem Visiting.asRead (h : Visiting job c items granted past s) (coherent : Coherent s)
    (stored : s.store.vm? c.vm = some vm) : Bound c (AsRead c vm) s := by
  intro x covers same
  refine .of_vm? stored fun moves => ⟨rfl, fun migrates plan planned there => ?_⟩
  obtain ⟨y, here, coversY, leads⟩ := coherent.moving stored moves
  obtain ⟨z, known, hereZ, -⟩ := h.copy.known
  have storedX := covers.stored
  rw [same, known] at storedX
  cases storedX
  cases coversY.unique covers (here.trans hereZ.symm)
  obtain ⟨p, plannedY, from_source, away⟩ := leads migrates
  rcases h.copy.plan coherent h.holds h.touring.idle covers same with kept | lingers
  · rw [planned, plannedY] at kept
    cases kept
    rw [from_source] at there
    exact away (Option.some.inj there)
  · exact lingers vm stored moves migrates

/-- How the machine of an item is settled: if that is done, the machine stands still. -/
def Settles (job : Nat) (c : Item) (items : List Item) (granted : Store) :
    Except Failure Decision → Assertion := fun result past s =>
  Visiting job c items granted past s ∧ (result = .ok .resolved → Bound c Never s)

theorem Settles.deferred (h : Visiting job c items granted past s) :
    Settles job c items granted (.ok .deferred) past s := ⟨h, nofun⟩

theorem Settles.error (h : Visiting job c items granted past s) (failure : Failure) :
    Settles job c items granted (.error failure) past s := ⟨h, nofun⟩

section
variable (h : Visiting job c items granted past s) (bound : Bound c (AsRead c vm) s)
include h bound

theorem safe_report {event : ControlPlane.Event} {host : Option HostId} (subject : vm.id = c.vm)
    (calm : event = .agentReportsRunning ∨ event = .agentReportsStopped) :
    Safe (scanning c.owner job) (Settles job c items granted)
      (do report vm event host; return .resolved : Procedure Decision).run past s := by
  have calm : ∀ next, vm.state.next? event = some next → ¬ next.InMotion := by
    intro next legal
    rcases calm with rfl | rfl <;> cases hs : vm.state <;> rw [hs] at legal <;>
      cases legal <;> decide
  refine Safe.andThen
    (Q := Ends (fun _ past s => Visiting job c items granted past s ∧ Bound c Never s)
      (Visiting job c items granted)) ?_ (fun _ _ _ h => ⟨h.1, fun _ => h.2⟩)
    fun failure _ _ h => .error h failure
  refine Safe.andThen (safe_calm upheld_visiting subject calm h bound) (fun _ _ _ h => h)
    fun _ _ _ h => h.1

theorem safe_settleTransient (subject : vm.id = c.vm) :
    Safe (scanning c.owner job) (Settles job c items granted)
      (settleTransient ctx vm).run past s := by
  unfold settleTransient
  cases vm.host with
  | none => exact .error h _
  | some host =>
    refine Safe.query (Agent.powerState_within ..) (fun _ quiet => quiet)
      upheld_visiting.lasting_bound ⟨h, bound⟩ ?_
    intro found past s _ h
    obtain ⟨h, bound⟩ := h
    split
    · exact safe_report h bound subject (.inl rfl)
    · exact safe_report h bound subject (.inr rfl)
    · exact .deferred h

theorem safe_settleMigration {plan : Plan} (subject : vm.id = c.vm) (planned : c.plan = some plan)
    (from_ : vm.state = .migrating ∨ vm.state = .running) :
    Safe (scanning c.owner job) (Settles job c items granted) (settleMigration ctx vm plan).run
      past s := by
  refine Safe.query (Agent.powerStates_within ..) (fun _ quiet => quiet)
    upheld_visiting.lasting_bound ⟨h, bound⟩ ?_
  intro found past s _ h
  obtain ⟨h, bound⟩ := h
  have arrived : ∀ past s, Visiting job c items granted past s → Bound c (AsRead c vm) s →
      Safe (scanning c.owner job) (Settles job c items granted) (do
        if vm.host = some plan.destination then return .resolved
        if plan.MovesStorage then demand (.transact (.moveVolumes (movesOf plan))) rfl
        report vm .agentReportsRunning (some plan.destination)
        return .resolved : Procedure Decision).run past s := by
    intro past s h bound
    by_cases there : vm.host = some plan.destination
    · simp only [if_pos there]
      refine ⟨h, fun _ => bound.never ?_⟩
      rintro state _ ⟨rfl, migrating⟩
      rcases from_ with state | state
      · exact absurd there (migrating state plan planned)
      · rw [state]
        decide
    · simp only [if_neg there]
      have reported : ∀ past s, Visiting job c items granted past s ∧
        Bound c (AsRead c vm) s → Safe (scanning c.owner job) (Settles job c items granted) (do
            report vm .agentReportsRunning (some plan.destination)
            return .resolved : Procedure Decision).run past s :=
        fun _ _ h => safe_report h.1 h.2 subject (.inl rfl)
      by_cases moves : plan.MovesStorage
      · simp only [if_pos moves]
        refine Safe.andThen (upheld_visiting.safe_write rfl rfl (fun _ e => by cases e)
          (fun _ => trivial) ?_ h bound)
          (fun _ => reported) fun failure _ _ h => .error h.1 failure
        rintro past s h - _ ⟨⟩ -
        exact h.onBehalf ⟨plan, planned, rfl⟩
      · simp only [if_neg moves]
        exact reported past s ⟨h, bound⟩
  simp only
  split
  · exact arrived past s h bound
  · exact arrived past s h bound
  · split
    next here =>
      refine ⟨h, fun _ => bound.never ?_⟩
      rintro state _ ⟨rfl, -⟩
      rw [here.1]
      decide
    next => exact safe_report h bound subject (.inl rfl)
  · exact safe_report h bound subject (.inr rfl)
  · exact .deferred h

theorem safe_settleMachine (subject : vm.id = c.vm) :
    Safe (scanning c.owner job) (Settles job c items granted) (settle ctx c vm).run past s := by
  unfold settle
  split
  next plan planned state => exact safe_settleMigration h bound subject planned (.inl state)
  next plan planned state => exact safe_settleMigration h bound subject planned (.inr state)
  · exact safe_settleTransient h bound subject
  · exact safe_settleTransient h bound subject
  · exact safe_settleTransient h bound subject
  next starting stopping migrating _ _ =>
    refine ⟨h, fun _ => bound.never ?_⟩
    rintro state _ ⟨rfl, -⟩ (here | here | here)
    · exact starting here
    · exact stopping here
    · exact migrating here

end

structure Parting (job : Nat) (c : Item) (items : List Item) (past : List Exchange) (s : Shared) :
    Prop where
  touring : Touring job c.owner items past s
  holding : Holding job c s

theorem Visiting.parting (h : Visiting job c items granted past s) : Parting job c items past s :=
  ⟨h.touring, h.holding⟩

theorem stable_parting : Stable (scanning c.owner job) (Parting job c items) :=
  stable_discipline fun _ others h => ⟨h.touring.others others, h.holding.others others⟩

theorem Visiting.due {step : Work.Step} {now : Timestamp} (h : Visiting job c items granted past s)
    (still : Bound c Never s) (closes : step ≠ .started) :
    Due job s (.recoverItem c.id step now) := by
  refine ⟨closes, fun x stored _ => ?_⟩
  obtain ⟨y, known, here, owner⟩ := h.copy.known
  rw [known] at stored
  cases stored
  rw [here, owner]
  exact ⟨h.holds, fun covers => still _ covers (Store.id_of_item? known)⟩

theorem safe_closeRecovered {step : Work.Step} (h : Visiting job c items granted past s)
    (still : Bound c Never s) (closes : step ≠ .started) :
    Safe (scanning c.owner job) (fun _ => Parting job c items)
      (closeRecovered c step).run past s := by
  refine Safe.andThen
    (Q := Ends (fun _ past s => Visiting job c items granted past s ∧ Bound c Never s)
      fun _ _ => False) (Safe.ask upheld_visiting.stable_bound (fun _ => rfl) ⟨h, still⟩
        fun s h inv => ⟨scans_of_quiet trivial, ?_⟩) ?_ fun _ _ _ => False.elim
  · rintro _ _ rfl
    exact ⟨⟨.refl job _, inv⟩, upheld_visiting.quiet trivial h.1, h.2⟩
  intro now past s h
  refine Safe.transact upheld_visiting.stable_bound h
    fun s ⟨h, still⟩ inv => ⟨fun _ e touches => ?_, fun carries => ?_⟩
  · cases e
    exact absurd touches id
  have due : Due job s (.recoverItem c.id step now) := h.due still closes
  have acts := due.acts carries
  exact ⟨⟨acts, due.coherent inv⟩, (h.touring.acts acts rfl).append, h.holds,
    h.copy.known.acts acts⟩

theorem safe_resolve (h : Visiting job c items granted past s) :
    Safe (scanning c.owner job) (fun _ => Parting job c items) (resolve ctx c).run past s := by
  refine Safe.andThen (Q := fun result past s => Visiting job c items granted past s ∧
      match result with
      | .ok none => Bound c Never s
      | .ok (some vm) => vm.id = c.vm ∧ Bound c (AsRead c vm) s
      | .error _ => True) ?_ ?_ fun _ _ _ h => h.1.parting
  · refine Safe.ask upheld_visiting.stable (fun _ => rfl) h
      fun s h inv => ⟨scans_of_quiet trivial, ?_⟩
    rintro _ _ ⟨-, rfl, rfl⟩
    refine ⟨⟨.refl job _, inv⟩, upheld_visiting.quiet trivial h, ?_⟩
    simp only [Transaction.apply]
    cases stored : s.store.vm? c.vm with
    | none => exact .of_amid (still_of_missing stored)
    | some vm => exact ⟨Store.id_of_vm? stored, h.asRead inv stored⟩
  intro result past s h
  obtain ⟨h, bound⟩ := h
  rcases result with _ | vm
  · refine Safe.andThen (safe_closeRecovered h bound (by decide))
      (fun closed _ _ h => ?_) fun _ _ _ h => h
    cases closed <;> exact h
  refine Safe.ofProgram (safe_settleMachine h bound.2 bound.1) ?_
  intro result past s h
  obtain ⟨h, still⟩ := h
  rcases result with failure | _ | _
  · exact h.parting
  · refine Safe.andThen (safe_closeRecovered h (still rfl) (by decide)) (fun closed _ _ h => ?_)
      fun _ _ _ h => h
    cases closed <;> exact h
  · exact h.parting

theorem safe_depart {node : Node} (h : Parting job c items past s) (owner : c.owner = node.id) :
    Safe (scanning node.id job) (fun _ => Touring job node.id items)
      (Procedure.ask (.unlock (lockName node c.vm) .plain)).run past s := by
  obtain ⟨nodeId, wait⟩ := node
  subst owner
  refine safe_unlock stable_parting h (fun _ _ e => nomatch e) (fun h => h.holding.holds) ?_ ?_
  · exact fun h _ drew _ => absurd drew (h.touring.idle _)
  · exact fun h _ acts => (h.touring.acts acts rfl).append

theorem safe_arrive {node : Node} (h : Touring job node.id (c :: items) past s) :
    Safe (scanning node.id job) (fun result past s => match result with
      | .ok () => c.owner = node.id ∧ ∃ granted, Visiting job c items granted past s
      | .error _ => Touring job node.id items past s) (lock node c.vm).run past s := by
  have owner : c.owner = node.id := (h.copies c (List.mem_cons_self ..)).1.owner
  obtain ⟨nodeId, wait⟩ := node
  subst owner
  have rest : ∀ {past s}, Touring job c.owner (c :: items) past s →
    Touring job c.owner items past s :=
    fun h => ⟨h.idle, fun d mem => h.copies d (List.mem_cons_of_mem _ mem)⟩
  refine safe_lock stable_touring h (fun _ _ e => nomatch e) ?_ ?_ ?_
  · exact fun h => h.acts (.enter job _ _) rfl
  · intro s h _ holds
    obtain ⟨listed, copy⟩ := h.copies c (List.mem_cons_self ..)
    exact ⟨rfl, s.store, (rest h).append, holds, listed.append, copy, heldSince_lock, rfl⟩
  · exact fun h _ acts => ((rest h).acts acts rfl).append

theorem safe_visit (h : Touring job ctx.node.id (c :: items) past s) :
    Safe (scanning ctx.node.id job) (fun _ => Touring job ctx.node.id items) (visit ctx c).run
      past s := by
  refine Safe.ofProgram (safe_arrive h) fun result past s h => ?_
  rcases result with failure | _
  · exact h
  obtain ⟨owner, granted, h⟩ := h
  refine Safe.andThen (Q := fun result past s => match result with
    | .ok _ => Parting job c items past s
    | .error _ => Touring job ctx.node.id items past s) ?_ ?_ fun _ _ _ h => h
  · refine Safe.tryCatch (owner ▸ safe_resolve h) (fun _ _ _ h => h) fun failure past s h => ?_
    exact Safe.andThen (safe_depart h owner) (fun _ _ _ h => h) fun _ _ _ h => h
  · intro report past s h
    exact Safe.andThen (safe_depart h owner) (fun _ _ _ h => h) fun _ _ _ h => h

theorem safe_visitAll (items : List Item) (h : Touring job ctx.node.id items past s) :
    Safe (scanning ctx.node.id job) (fun _ _ _ => True) (visitAll ctx items).run past s := by
  induction items generalizing past s with
  | nil => trivial
  | cons item items ih =>
    refine Safe.andThen (safe_visit h) (fun report _ _ h => ?_) fun _ _ _ _ => trivial
    exact Safe.andThen (ih h) (fun _ _ _ _ => trivial) fun _ _ _ _ => trivial

theorem safe_scan (idle : Idle job s) :
    Safe (scanning ctx.node.id job) (fun _ _ _ => True) (scan ctx).run past s := by
  have touring : Touring job ctx.node.id [] past s := ⟨idle, fun _ mem => nomatch mem⟩
  refine Safe.andThen (Q := fun result past s => ∀ items, result = .ok items →
      Touring job ctx.node.id items past s)
    (Safe.ask stable_touring (fun _ => rfl) touring fun s h inv =>
      ⟨scans_of_quiet trivial, ?_⟩) ?_
    fun _ _ _ _ => trivial
  · rintro _ _ ⟨-, rfl, rfl⟩
    refine ⟨⟨.refl job _, inv⟩, ?_⟩
    rintro _ ⟨⟩
    exact ⟨h.idle,
      fun d mem => ⟨⟨_, List.mem_append_right _ (List.mem_singleton_self _), rfl, mem⟩,
        copy_of_openItems mem⟩⟩
  · exact fun items _ _ h => safe_visitAll items (h items rfl)

end ControlPlane.Concurrent
