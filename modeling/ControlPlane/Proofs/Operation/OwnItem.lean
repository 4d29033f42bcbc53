import ControlPlane.Operation.Basic
import ControlPlane.Proofs.Transition.LockedTransition

/-!
# An operation and its item

From the moment its item is open, an operation works on a machine that nobody else sends on its way.
It may close the item when the machine stands still, and it may leave the item open when the machine
does not migrate.
-/

namespace ControlPlane.Concurrent
open Work Control Operation

/-- The job changes the record of a machine only under an open item of its own. -/
def Owns (job : Nat) (s : Shared) (r : Control.Request) : Prop :=
  ∀ u, r = .transact (.swap u) → ∃ x, x.vm = u.vm ∧ s.store.Covers x ∧ s.Drew job x.id

abbrev operating (node : NodeId) (job : Nat) : Contract := discipline (fun _ => Owns job) node job

/-- The job works on the machine of its item, and if that is in motion, then as told. -/
def At (job : Nat) (c : Item) (plan : Option Plan) (P : State → UInt64 → Prop) : Assertion :=
  fun _ s => Working job c plan s ∧ Bound c P s

variable {job : Nat} {s s' : Shared} {c : Item} {plan : Option Plan}
  {P Q : State → UInt64 → Prop} {past : List Exchange} {t : Transaction} {α β : Type}

theorem owns_of_noSwap {r : Control.Request} (noSwap : ∀ u, r ≠ .transact (.swap u)) :
    Owns job s r := fun u e => absurd e (noSwap u)

theorem Working.owns (h : Working job c plan s) {r : Control.Request}
    (kind : r.Quiet ∨ ∃ u, r = .transact (.swap u) ∧ u.vm = c.vm) : Owns job s r := by
  rintro u rfl
  rcases kind with quiet | ⟨_, ⟨⟩, subject⟩
  · cases quiet
  · obtain ⟨x, covers, same, here, -⟩ := h.covered
    exact ⟨x, here.trans subject.symm, covers, same ▸ h.drew⟩

theorem Working.framed (h : Working job c plan s) (names : t.names? = none)
    (closes : t.closes? = none) :
    Working job c plan { s with store := (t.apply s.store).2 } where
  holds := h.holds
  known := by
    obtain ⟨x, stored, rest⟩ := h.known
    exact ⟨x, (Transaction.item?_frame names closes).trans stored, rest⟩
  drew := h.drew
  sole := h.sole
  covered := by
    obtain ⟨x, covers, rest⟩ := h.covered
    exact ⟨x, ⟨(Transaction.item?_frame names closes).trans covers.stored, covers.isOpen,
      (Transaction.openItem?_frame names closes).trans covers.slot⟩, rest⟩

theorem upheld_working (job : Nat) (c : Item) (plan : Option Plan) :
    Upheld (operating c.owner job) c fun _ s => Working job c plan s where
  holding h := h.toHolding
  stable := stable_discipline fun coherent others h => h.others coherent others
  fit kind h _ := h.owns kind
  quiet _ h := h
  write names closes _ h := h.framed names closes

theorem stable_at : Stable (operating c.owner job) (At job c plan P) :=
  (upheld_working job c plan).stable_bound

theorem safe_quiet {P' : α → Prop} {p : Program surroundings α}
    (within : p.Within Request.Quiet P') (h : At job c plan P past s) :
    Safe (operating c.owner job) (fun a past s => P' a ∧ At job c plan P past s) p past s :=
  Safe.within within (fun _ quiet => quiet) (upheld_working job c plan).lasting_bound h

theorem safe_write (names : t.names? = none) (closes : t.closes? = none)
    (noSwap : ∀ u, t ≠ .swap u) (due : ∀ s, Due job s t) (h : At job c plan P past s) :
    Safe (operating c.owner job) (fun _ => At job c plan P)
      (Program.call (I := surroundings) (.transact t)) past s :=
  (upheld_working job c plan).safe_write names closes noSwap due
    (fun _ _ u e => absurd (Request.transact.inj e) (noSwap u)) h.1 h.2

def Rests (job : Nat) (c : Item) : Except Ending α → Assertion
  | .error (.unresolved _), past, s =>
    ∃ plan, At job c plan (fun state _ => state ≠ .migrating) past s
  | _, past, s => ∃ plan, At job c plan Never past s

theorem Rests.of_never (result : Except Ending α) (h : At job c plan Never past s) :
    Rests job c result past s := by
  rcases result with (failure | failure | failure) | a
  · exact ⟨plan, h⟩
  · exact ⟨plan, h⟩
  · exact ⟨plan, h.1, h.2.mono fun _ _ => False.elim⟩
  · exact ⟨plan, h⟩

section
variable {wrap : Failure → Ending} {f : α → Body β}

theorem safe_look {action : Procedure α} (within : action.run.Within Request.Quiet fun _ => True)
    (h : At job c plan Never past s)
    (next : ∀ a past s, At job c plan Never past s →
      Safe (operating c.owner job) (Rests job c) (f a).run past s) :
    Safe (operating c.owner job) (Rests job c) (action.adapt wrap >>= f).run past s :=
  Safe.look within (fun _ quiet => quiet) (upheld_working job c plan).lasting_bound h
    (fun a past s _ => next a past s) fun _ _ _ h => .of_never _ h

theorem safe_query {P' : α → Prop} {p : Program surroundings α}
    {T : Except Ending β → Assertion} (within : p.Within Request.Quiet P')
    (h : At job c plan P past s) (next : ∀ a past s, P' a → At job c plan P past s →
      Safe (operating c.owner job) T (f a).run past s) :
    Safe (operating c.owner job) T ((liftM p : Body α) >>= f).run past s :=
  Safe.query within (fun _ quiet => quiet) (upheld_working job c plan).lasting_bound h next

theorem safe_require {e : Except Failure α} (h : At job c plan Never past s)
    (next : ∀ a, e = .ok a → Safe (operating c.owner job) (Rests job c) (f a).run past s) :
    Safe (operating c.owner job) (Rests job c)
      ((liftM e : Procedure α).adapt wrap >>= f).run past s :=
  Safe.ofAdapted next fun _ _ => .of_never _ h

end

def Idle (job : Nat) (s : Shared) : Prop := ∀ id, ¬ s.Drew job id

section
variable {node : Node} {item : Item}

structure Entered (job : Nat) (name : LockName) (s : Shared) : Prop where
  holds : s.Holds job name
  idle : Idle job s

theorem stable_idle : Stable (operating node.id job) fun _ s => Idle job s :=
  stable_discipline fun _ others idle id drew => idle id (draws_of_others others drew)

theorem stable_entered {v : VmId} :
    Stable (operating node.id job) fun _ s => Entered job (lockName node v) s :=
  stable_discipline fun _ others h =>
    ⟨holds_of_others h.holds others, fun id drew => h.idle id (draws_of_others others drew)⟩

/-- An item is about to be opened: the job alone has drawn its identifier. -/
structure Opening (job : Nat) (item : Item) (s : Shared) : Prop where
  holds : s.Holds job ⟨item.owner, item.vm⟩
  drew : s.Drew job item.id
  sole : ∀ {id}, s.Drew job id → id = item.id
  unknown : s.store.item? item.id = none

theorem stable_opening : Stable (operating item.owner job) fun _ s => Opening job item s :=
  stable_discipline fun coherent others h => by
    refine ⟨holds_of_others h.holds others, drew_of_others others h.drew,
      fun drew => h.sole (draws_of_others others drew), ?_⟩
    cases others with
    | crash _ e => exact e ▸ h.unknown
    | acts ne acts =>
      exact (acts.unknown h.unknown).resolve_right fun drew => ne (coherent.stamps drew h.drew)

structure Closed (job : Nat) (item : Item) (s : Shared) : Prop where
  holds : s.Holds job ⟨item.owner, item.vm⟩
  sole : ∀ {id}, s.Drew job id → id = item.id
  closed : ∃ x, s.store.item? item.id = some x ∧ ¬ x.Open

theorem stable_closed : Stable (operating item.owner job) fun _ s => Closed job item s :=
  stable_discipline fun coherent others h => by
    refine ⟨holds_of_others h.holds others,
      fun drew => h.sole (draws_of_others others drew), ?_⟩
    obtain ⟨x, stored, closed⟩ := h.closed
    cases others with
    | crash _ e => exact e ▸ ⟨x, stored, closed⟩
    | acts ne acts =>
      obtain ⟨x', stored', edits⟩ := acts.item stored
      exact ⟨x', stored', fun isOpen => closed (edits.closed isOpen)⟩

/-- An item is opened, and its machine stands still, as nobody else had an open item for it. -/
theorem Opening.opened (h : Opening job item s) (coherent : Coherent s) (isOpen : item.Open)
    (free : s.store.openItem? item.vm = none) :
    Working job item item.plan { s with store := (s.store.openItem item).2 } ∧
      Bound item Never { s with store := (s.store.openItem item).2 } := by
  have store : (s.store.openItem item).2 =
      { s.store.putItem item with active := s.store.active.insert ⟨item.vm, item.id⟩ } := by
    unfold Store.openItem
    rw [free]
  have stored : (s.store.openItem item).2.item? item.id = some item := by
    rw [store]
    exact (Store.item?_putItem s.store item item.id).trans (if_pos rfl)
  have slot : (s.store.openItem item).2.openItem? item.vm = some item.id := by
    rw [store]
    exact (Store.openItem?_insert (s.store.putItem item) _ _).trans (if_pos rfl)
  refine ⟨⟨⟨h.holds, item, stored, rfl, rfl⟩, h.drew, h.sole, item,
    ⟨stored, isOpen, slot⟩, rfl, rfl, rfl⟩,
    .of_amid fun vm here moves => ?_⟩
  have frame : (s.store.openItem item).2.vm? item.vm = s.store.vm? item.vm := by rw [store]; rfl
  exact coherent.still_of_free free vm (frame ▸ here) moves

theorem safe_open (h : Opening job item s) (isOpen : item.Open) :
    Safe (operating item.owner job)
      (Ends (fun _ past s => At job item item.plan Never past s) fun _ s => Opening job item s)
      (do Procedure.pass .beginWork; Procedure.demand (.transact (.openItem item)) rfl :
        Procedure Unit).run past s := by
  refine Safe.andThen (Q := Ends (fun _ _ s => Opening job item s) fun _ _ => False)
    (Safe.call stable_opening (fun _ => rfl) h fun s h inv =>
      ⟨owns_of_noSwap (by rintro _ ⟨⟩), ?_⟩) ?_ fun _ _ _ => False.elim
  · rintro _ _ ⟨rfl, rfl⟩
    exact ⟨⟨.refl job _, inv⟩, h⟩
  · intro _ past s h
    refine Safe.carry (f := .done) stable_opening h
      (fun _ _ _ => owns_of_noSwap (by rintro _ ⟨⟩)) fun s h inv carries => ?_
    have due : Due job s (.openItem item) := ⟨h.drew, h.unknown⟩
    refine ⟨⟨due.acts carries, due.coherent inv⟩, ?_⟩
    cases slot : s.store.openItem? item.vm with
    | none =>
      have opened := h.opened inv isOpen slot
      have ok : (s.store.openItem item).1 = .ok () := by
        unfold Store.openItem
        rw [slot]
      simp only [Safe, Transaction.apply, ok]
      exact opened
    | some other =>
      have e : s.store.openItem item = (.error (.conflict item.vm (.workOpen other)), s.store) := by
        unfold Store.openItem
        rw [slot]
      simp only [Safe, Transaction.apply, e]
      exact h

theorem safe_openOrUnlock (h : Opening job item s) (isOpen : item.Open)
    (owner : item.owner = node.id) :
    Safe (operating node.id job)
      (Ends (fun _ past s => At job item item.plan Never past s) fun _ _ => True)
      (orUnlock node item.vm (do
        Procedure.pass .beginWork
        Procedure.demand (.transact (.openItem item)) rfl)).run past s := by
  obtain ⟨nodeId, wait⟩ := node
  subst owner
  refine Safe.tryCatch (safe_open h isOpen) (fun _ _ _ h => h) fun failure past s h => ?_
  refine Safe.andThen (Q := fun _ _ _ => True) (safe_unlock stable_opening h
    (fun _ => owns_of_noSwap (by rintro _ ⟨⟩)) (fun h => h.holds) ?_ fun _ _ _ => trivial)
    (fun _ _ _ _ => trivial) fun _ _ _ _ => trivial
  intro s x h covers drew _
  have stored := covers.stored
  rw [h.sole drew, h.unknown] at stored
  cases stored

theorem safe_begin {vm : VmId} {operation : Operation} {plan : Option Plan} (idle : Idle job s) :
    Safe (operating node.id job)
      (Ends (fun item past s => item.owner = node.id ∧ item.vm = vm ∧
        At job item plan Never past s)
        fun _ _ => True) (Work.start node vm operation plan).run past s := by
  refine Safe.andThen (Q := Ends (fun _ _ s => Entered job (lockName node vm) s) fun _ _ => True)
    (safe_lock stable_idle idle (fun _ => owns_of_noSwap (by rintro _ ⟨⟩)) (fun h => h)
      (fun idle _ holds => ⟨holds, idle⟩) fun _ _ _ => trivial) ?_ fun _ _ _ h => h
  intro _ past s entered
  refine Safe.andThen (Q := Ends (fun _ _ s => Entered job (lockName node vm) s) fun _ _ => True)
    (Safe.ask stable_entered (fun _ => rfl) entered fun s h inv =>
      ⟨owns_of_noSwap (by rintro _ ⟨⟩), ?_⟩) ?_ fun _ _ _ h => h
  · rintro _ _ rfl
    exact ⟨⟨.refl job _, inv⟩, h⟩
  intro now past s entered
  refine Safe.andThen (Q := Ends (fun id _ s => Opening job
      ⟨id, vm, node.id, .started, operation, plan, now, now⟩ s) fun _ _ => True)
    (Safe.ask stable_entered (fun _ => rfl) entered fun s h inv =>
      ⟨owns_of_noSwap (by rintro _ ⟨⟩), ?_⟩) ?_ fun _ _ _ h => h
  · rintro id _ ⟨fresh, rfl⟩
    refine ⟨⟨.freshId job s id, inv.freshId fresh job⟩, h.holds,
      List.mem_cons_self .., ?_, fresh.1⟩
    intro other drew
    rcases List.mem_cons.1 drew with e | drew
    · exact congrArg Stamp.id e
    · exact absurd drew (h.idle other)
  intro id past s opening
  refine Safe.andThen (Q := Ends (fun _ past s => At job
      ⟨id, vm, node.id, .started, operation, plan, now, now⟩ plan Never past s) fun _ _ => True)
    (safe_openOrUnlock opening rfl rfl) ?_ fun _ _ _ h => h
  exact fun _ _ _ h => ⟨rfl, rfl, h⟩

theorem At.due {step : Work.Step} {now : Timestamp} (h : At job item plan Never past s)
    (closes : step ≠ .started) : Due job s (.closeItem item step now) := by
  obtain ⟨x, stored, here, owner⟩ := h.1.known
  refine ⟨closes, x, stored, ?_, fun covers => ?_⟩
  · rw [owner, here]
    exact h.1.holds
  · rw [here]
    exact h.2 x covers (Store.id_of_item? stored)

theorem At.closed {step : Work.Step} {now : Timestamp} (h : At job item plan Never past s)
    (closes : step ≠ .started) :
    Closed job item { s with store := s.store.closeItem item step now } := by
  obtain ⟨x, stored, -⟩ := h.1.known
  have due : Due job s (.closeItem item step now) := h.due closes
  refine ⟨h.1.holds, h.1.sole, _, due.item stored, fun isOpen => ?_⟩
  have hid := Store.id_of_item? stored
  rw [Transaction.onItem, if_pos hid.symm] at isOpen
  exact closes isOpen

theorem safe_finish {step : Work.Step} (h : At job item plan Never past s)
    (owner : item.owner = node.id) (closes : step ≠ .started) :
    Safe (operating node.id job) (fun _ _ _ => True) (Work.finish node item step).run past s := by
  obtain ⟨nodeId, wait⟩ := node
  subst owner
  refine Safe.andThen (Q := fun _ past s => At job item plan Never past s)
    (Safe.ask stable_at (fun _ => rfl) h fun s h inv =>
      ⟨owns_of_noSwap (by rintro _ ⟨⟩), ?_⟩) ?_ fun _ _ _ _ => trivial
  · rintro _ _ rfl
    exact ⟨⟨.refl job _, inv⟩, h⟩
  intro now past s h
  refine Safe.andThen (Q := fun _ _ s => Closed job item s)
    (Safe.transact stable_at h fun s h inv =>
      ⟨owns_of_noSwap (by rintro _ ⟨⟩), fun carries => ?_⟩) ?_ fun _ _ _ _ => trivial
  · have due : Due job s (.closeItem item step now) := h.due closes
    exact ⟨⟨due.acts carries, due.coherent inv⟩, h.closed closes⟩
  intro _ past s closed
  refine safe_unlock stable_closed closed (fun _ => owns_of_noSwap (by rintro _ ⟨⟩))
    (fun h => h.holds) ?_ fun _ _ _ => trivial
  intro s x h covers drew _
  obtain ⟨y, stored, shut⟩ := h.closed
  have known := covers.stored
  rw [h.sole drew, stored] at known
  cases known
  exact absurd covers.isOpen shut

theorem safe_abandon (h : At job item plan (fun state _ => state ≠ .migrating) past s)
    (owner : item.owner = node.id) :
    Safe (operating node.id job) (fun _ _ _ => True) (Work.abandon node item).run past s := by
  obtain ⟨nodeId, wait⟩ := node
  subst owner
  refine safe_unlock stable_at h (fun _ => owns_of_noSwap (by rintro _ ⟨⟩))
    (fun h => h.1.holds) ?_ fun _ _ _ => trivial
  intro s x h covers drew here
  have : x.vm = item.vm := congrArg LockName.vm here
  rw [this]
  exact h.2 x covers (h.1.sole drew)

theorem safe_settle {ctx : Context} {result : Except Ending α} (h : Rests job item result past s)
    (owner : item.owner = ctx.node.id) :
    Safe (operating ctx.node.id job) (fun _ _ _ => True) (settle ctx item result).run past s := by
  rcases result with (failure | failure | failure) | a
  · obtain ⟨plan, h⟩ := h
    exact Safe.andThen (Q := fun _ _ _ => True) (safe_finish h owner nofun) (fun _ _ _ _ => trivial)
      fun _ _ _ _ => trivial
  · obtain ⟨plan, h⟩ := h
    exact Safe.andThen (Q := fun _ _ _ => True) (safe_finish h owner nofun) (fun _ _ _ _ => trivial)
      fun _ _ _ _ => trivial
  · obtain ⟨plan, h⟩ := h
    exact Safe.andThen (Q := fun _ _ _ => True) (safe_abandon h owner) (fun _ _ _ _ => trivial)
      fun _ _ _ _ => trivial
  · obtain ⟨plan, h⟩ := h
    exact Safe.andThen (Q := fun _ _ _ => True) (safe_finish h owner nofun) (fun _ _ _ _ => trivial)
      fun _ _ _ _ => trivial

/-- An operation whose body leaves the machine as it should keeps to the discipline. -/
theorem safe_underWork {ctx : Context} {vm : VmId} {operation : Operation} {plan : Option Plan}
    {body : Item → Body α} (idle : Idle job s)
    (each : ∀ {item past s}, item.vm = vm → At job item plan Never past s →
      Safe (operating item.owner job) (Rests job item) (body item).run past s) :
    Safe (operating ctx.node.id job) (fun _ _ _ => True)
      (underWork ctx vm operation plan body).run past s := by
  refine Safe.andThen (safe_begin idle) ?_ fun _ _ _ _ => trivial
  intro item past s h
  obtain ⟨owner, subject, h⟩ := h
  refine Safe.andThen (Q := fun result past s => ∃ ending, result = .ok ending ∧
    Rests job item ending past s)
    (Safe.then (owner ▸ each subject h) fun ending _ _ rests => ⟨ending, rfl, rests⟩) ?_
    fun _ _ _ _ => trivial
  intro ending past s h
  obtain ⟨_, ⟨⟩, rests⟩ := h
  exact safe_settle rests owner

end

end ControlPlane.Concurrent
