import ControlPlane.Proofs.Operation.ItemStep
import ControlPlane.Proofs.Store.MovedVolumes

/-!
# A machine that no other job touches

Others leave a machine, its volumes and its items alone, and the pools are the same throughout. Then
it can be said of every point of a run what the store says of the machine there, so that the process
may end at any of them.
-/

namespace ControlPlane

/-- Two stores say the same of a machine, its volumes and its items, and know the same pools. -/
structure Store.Alike (v : VmId) (a b : Store) : Prop where
  view : b.view v = a.view v
  items : ∀ {id x}, x.vm = v → (b.item? id = some x ↔ a.item? id = some x)
  slot : b.openItem? v = a.openItem? v
  pools : b.pools = a.pools

theorem Store.Alike.refl (v : VmId) (a : Store) : a.Alike v a := ⟨rfl, fun _ => .rfl, rfl, rfl⟩

theorem Store.Alike.trans {v : VmId} {a b c : Store} (h : a.Alike v b) (h' : b.Alike v c) :
    a.Alike v c :=
  ⟨h'.view.trans h.view, fun here => (h'.items here).trans (h.items here), h'.slot.trans h.slot,
    h'.pools.trans h.pools⟩

/-- Work on another machine may begin. -/
theorem Store.alike_openItem {v : VmId} {a : Store} {x : Work.Item} (other : x.vm ≠ v)
    (unused : a.item? x.id = none) : a.Alike v (a.openItem x).2 := by
  unfold openItem
  split
  · exact .refl v a
  · refine ⟨rfl, fun {id y} here => ?_, (openItem?_insert ..).trans (if_neg other), rfl⟩
    have found : (a.putItem x).item? id = if x.id = id then some x else a.item? id :=
      item?_putItem ..
    refine (iff_of_eq (congrArg (· = some y) found)).trans ?_
    split
    next own =>
      refine iff_of_false (fun same => other ?_) fun stored => ?_
      · rw [Option.some.inj same, here]
      · rw [← own, unused] at stored
        cases stored
    · exact .rfl

theorem Transaction.pools_apply (t : Transaction) (s : Store) : (t.apply s).2.pools = s.pools :=
  (t.inventory_apply s).2.1

/-- The transaction writes a machine or volumes. -/
def Transaction.Rewrites : Transaction → Prop
  | .swap _ | .setResources .. | .setCredentialsPending .. | .moveVolumes _ => True
  | _ => False

instance : DecidablePred Transaction.Rewrites
  | .swap _ | .setResources .. | .setCredentialsPending .. | .moveVolumes _ => isTrue trivial
  | .vm _ | .host _ | .pool _ | .volumesOf _ | .guestsOn _ | .openItems
      _ | .openItem _ | .closeItem ..
  | .planItem .. | .recoverItem .. | .charge .. | .credit .. => isFalse id

theorem Transaction.view_of_not_rewrites {t : Transaction} {s : Store}
    (h : ¬ t.Rewrites) (v : VmId) :
    (t.apply s).2.view v = s.view v := by
  cases t with
  | swap | setResources | setCredentialsPending | moveVolumes => exact absurd trivial h
  | openItem item =>
    simp only [apply, Store.openItem]
    split <;> rfl
  | recoverItem id step now =>
    simp only [apply, Store.recoverItem]
    split
    · split <;> rfl
    · rfl
  | _ => rfl

def Control.Request.Rewrites : Control.Request → Prop
  | .transact t => t.Rewrites
  | _ => False

instance : DecidablePred Control.Request.Rewrites
  | .transact t => inferInstanceAs (Decidable t.Rewrites)
  | .now | .freshId | .lock _ | .unlock .. | .pass _ | .send _ | .sendBoth .. | .isConnected _
  | .selectHost .. | .hasRoom .. | .snapshotPending _ | .hasGuru
      _ | .finalizeStart .. | .prepareStop _
  | .finalizeStop _ => isFalse id

namespace Concurrent
open Work Control Operation Procedure

variable {v : VmId} {job : Nat} {I : List Exchange → Store → Prop} {α : Type} {s s' : Shared}
  {past past' : List Exchange} {item x : Item} {view : View} {pools : Table Pool}
  {T T' : List Exchange → Prop} {a b : Store} {step : Work.Step} {now : Timestamp}

def leaves (item : Item) (now : Timestamp) : Except Ending α → Item
  | .ok _ => { item with step := .done, updated := now }
  | .error (.rejected _) => { item with step := .cancelled, updated := now }
  | .error (.failed _) => { item with step := .error, updated := now }
  | .error (.unresolved _) => item

theorem leaves_id (now : Timestamp) (result : Except Ending α) :
    (leaves item now result).id = item.id := by
  rcases result with (_ | _ | _) | _ <;> rfl

/-- Others leave the machine alone, and the pools as they are. -/
abbrev Secluded (v : VmId) (s s' : Shared) : Prop := s.store.Alike v s'.store

def secluded (v : VmId) (job : Nat) (I : List Exchange → Store → Prop) : Contract where
  job := job
  invariant _ := True
  rely := Secluded v
  allow _ _ := True
  fit past s _ := I past s.store
  rely_refl s := .refl v s.store
  rely_trans h h' := Store.Alike.trans h h'
  allow_refl _ := trivial

/-- Under a contract whose invariant says nothing, what is to be known at each point of a run is
known there, and the program ends as it should. -/
theorem Safe.points {C : Contract} {Q : α → Assertion} {p : Program surroundings α}
    {result : α} (any : ∀ s, C.invariant s)
    (known : ∀ {past s r}, C.fit past s r → I past s.store) (h : Safe C Q p past s)
    (run : Run C.rely C.job p past s result past' s') :
    Q result past' s' ∧ ∀ before e after, past' = before ++ e :: after →
      past.length ≤ before.length → I before e.before := by
  -- The store at a point is the one before an answer, and that is where the contract speaks of it.
  induction run with
  | done a past s =>
    refine ⟨h, fun before e after split long => ?_⟩
    have : past.length = before.length + (after.length + 1) := by
      rw [split, List.length_append, List.length_cons]
    omega
  | @ask r rest past past' s s₁ s₂ s₃ s' reply a enters waits answers goes ih =>
    obtain ⟨-, h⟩ := h _ enters (any _)
    obtain ⟨here, h⟩ := h _ waits (any _)
    obtain ⟨ends, later⟩ := ih (h _ _ answers).2
    refine ⟨ends, fun before e after split long => ?_⟩
    by_cases more : past.length + 1 ≤ before.length
    · refine later before e after split ?_
      rwa [List.length_append, List.length_singleton]
    · obtain ⟨rest, e'⟩ := goes.extends
      rw [split, List.append_assoc] at e'
      obtain ⟨rfl, tail⟩ := List.append_inj e' (by omega)
      obtain ⟨rfl, -⟩ := List.cons.inj tail
      exact known here

theorem Safe.chronicle {Q : α → Assertion} {p : Program surroundings α} {result : α}
    (h : Safe (secluded v job I) Q p past s) (run : Run (Secluded v) job p past s result past' s') :
    Q result past' s' ∧ ∀ before e after, past' = before ++ e :: after →
      past.length ≤ before.length → I before e.before :=
  h.points (fun _ => trivial) id run

def Indexed (v : VmId) (s : Store) : Prop :=
  ∀ id x, s.item? id = some x → x.vm = v → x.Open → s.openItem? v = some id

theorem indexed_of_idle (idle : a.work.rows = []) : Indexed v a := by
  intro id x stored
  have mem := Table.mem_of_get? stored
  rw [idle] at mem
  cases mem

theorem Indexed.alike (h : Indexed v a) (alike : a.Alike v b) : Indexed v b := by
  intro id x stored here isOpen
  rw [alike.slot]
  exact h id x ((alike.items here).1 stored) here isOpen

/-- An item of a machine, besides which none is open, and what the store says of the machine. -/
structure Lodged (v : VmId) (item : Item) (view : View) (pools : Table Pool)
    (s : Store) : Prop where
  subject : item.vm = v
  filed : s.item? item.id = some item
  sole : ∀ {id x}, s.item? id = some x → x.vm = v → x.Open → id = item.id
  view : s.view v = view
  pools : s.pools = pools

namespace Lodged

theorem alike (h : Lodged v item view pools a) (alike : a.Alike v b) :
    Lodged v item view pools b where
  subject := h.subject
  filed := (alike.items h.subject).2 h.filed
  sole stored here := h.sole ((alike.items here).1 stored) here
  view := alike.view.trans h.view
  pools := alike.pools.trans h.pools

theorem opened (indexed : Indexed v a) (subject : item.vm = v)
    (opens : a.openItem item = (.ok (), b)) :
    Lodged v item (a.view v) a.pools b := by
  unfold Store.openItem at opens
  split at opens
  · cases opens
  next free =>
    cases opens
    refine ⟨subject, (Store.item?_putItem a item item.id).trans (if_pos rfl), ?_, rfl, rfl⟩
    intro id x stored here isOpen
    by_cases own : item.id = id
    · exact own.symm
    · have old : a.item? id = some x := by
        rw [← stored]
        exact ((Store.item?_putItem a item id).trans (if_neg own)).symm
      rw [subject, indexed id x old here isOpen] at free
      cases free

theorem write {t : Transaction} (h : Lodged v item view pools a) (names : t.names? = none)
    (closes : t.closes? = none) : Lodged v item ((t.apply a).2.view v) pools (t.apply a).2 where
  subject := h.subject
  filed := (Transaction.item?_frame names closes).trans h.filed
  sole stored := h.sole ((Transaction.item?_frame names closes).symm.trans stored)
  view := rfl
  pools := (t.pools_apply a).trans h.pools

/-- The item is closed, and nothing else is said of it or of the machine. -/
theorem put (h : Lodged v item view pools a)
    (kept : ∀ x, x = { item with step := step, updated := now } →
      b = { a.putItem x with active := a.freeSlot x }) :
    Lodged v { item with step := step, updated := now } view pools b := by
  obtain rfl := kept _ rfl
  have found : ∀ id, (a.putItem { item with step := step, updated := now }).item? id =
      if item.id = id then some { item with step := step, updated := now } else a.item? id :=
    fun id => Store.item?_putItem ..
  refine ⟨h.subject, (found item.id).trans (if_pos rfl), ?_, h.view, h.pools⟩
  intro id x stored here isOpen
  by_cases own : item.id = id
  · exact own.symm
  · exact h.sole (((found id).trans (if_neg own)).symm.trans stored) here isOpen

theorem closed (h : Lodged v item view pools a) :
    Lodged v { item with step := step, updated := now } view pools (a.closeItem item step now) :=
  h.put fun x e => by rw [e, Store.closeItem, h.filed, Option.getD_some]

theorem recovered (h : Lodged v item view pools a) (isOpen : item.Open) (step : Work.Step)
    (now : Timestamp) :
    (a.recoverItem item.id step now).1 = true ∧
      Lodged v { item with step := step, updated := now } view pools
        (a.recoverItem item.id step now).2 := by
  rw [Store.recoverItem_open h.filed isOpen]
  exact ⟨rfl, h.put fun x e => by rw [e]⟩

theorem named {vm : Vm} (h : Lodged v item view pools a) (stored : view.vm = some vm) :
    vm.id = v := by
  rw [← h.view] at stored
  exact Store.id_of_vm? stored

theorem moved {moves : List VolumeMove} (h : Lodged v item view pools a)
    (distinct : (moves.map (·.volume)).Nodup) (moved : a.moveEach moves = .ok b) :
    Lodged v item ⟨view.vm, view.volumes.map (Volume.under pools moves)⟩ pools b := by
  have applied : b = ((Transaction.moveVolumes moves).apply a).2 := by
    simp only [Transaction.apply, Store.moveVolumes, moved]
  have kept : Lodged v item (b.view v) pools b := by
    rw [applied]
    exact h.write rfl rfl
  suffices same : b.view v =
    ⟨view.vm, view.volumes.map (Volume.under pools moves)⟩ from same ▸ kept
  rw [← h.view, ← h.pools]
  refine View.ext ?_ (Store.volumesOf_moveEach distinct moved)
  exact congrArg (Table.get? · v.key) (Store.moveEach_frame moved).1

end Lodged

def Lodges (v : VmId) (item : Item) (view : View) (pools : Table Pool)
    (T : List Exchange → Prop) :
    Assertion := fun past s => Lodged v item view pools s.store ∧ T past

/-- What is known of what has happened is about items that were opened and volumes that were
moved. -/
def Unmoved (T : List Exchange → Prop) : Prop :=
  ∀ ⦃past e⦄, (∀ x, e.request ≠ .transact (.openItem x)) →
    (∀ moves, e.request ≠ .transact (.moveVolumes moves)) → T past → T (past ++ [e])

/-- What is known of what has happened is about items that were opened, volumes that were moved and
commands that were sent. -/
def Calm (T : List Exchange → Prop) : Prop :=
  ∀ ⦃past e⦄, (∀ x, e.request ≠ .transact (.openItem x)) →
    (∀ moves, e.request ≠ .transact (.moveVolumes moves)) → ¬ e.request.Sends →
    T past → T (past ++ [e])

theorem Unmoved.calm (h : Unmoved T) : Calm T := fun _ _ opens moves _ => h opens moves

theorem stable_lodges : Stable (secluded v job I) (Lodges v item view pools T) :=
  fun _ _ _ rely _ h => ⟨h.1.alike rely, h.2⟩

section
variable (unmoved : Unmoved T)
  (notes : ∀ {past s}, Lodges v item view pools T past s → I past s.store)
include unmoved notes

theorem lasting_lodges :
    Lasting (secluded v job I) Request.Quiet (Lodges v item view pools T) where
  stable := stable_lodges
  fit _ h _ := notes h
  keeps quiet h :=
    ⟨h.1, unmoved (no_openItem_of_quiet quiet) (by rintro _ rfl; exact quiet) h.2⟩

theorem lodges_transition {t : Transition} {vm : Vm} {u : StateUpdate} (subject : t.vm = v)
    (stored : view.vm = some vm) (checked : t.check vm = .ok u)
    (h : Lodges v item view pools T past s) :
    Safe (secluded v job I) (fun result past s => result = .ok (u.apply vm) ∧
      Lodges v item ⟨some (u.apply vm), view.volumes⟩ pools T past s) t.run.run past s := by
  have known : ∀ {past s}, Lodges v item view pools T past s → s.store.vm? t.vm = some vm := by
    intro past s h
    rw [subject]
    exact (congrArg View.vm h.1.view).trans stored
  refine Safe.transition (lasting_lodges unmoved notes) known checked (fun h _ => notes h) ?_ h
  intro past s h _
  obtain ⟨next, -, -, expected, -, e⟩ := Transition.check_ok checked
  have about : u.vm = v := by rw [e]; exact subject
  have fits : u.Matches vm := by
    rw [e]
    exact ⟨expected, rfl⟩
  obtain ⟨-, leaves⟩ := Store.view_swap about fits (h.1.view.trans (View.ext stored rfl))
  have lodged := h.1.write (t := .swap u) rfl rfl
  simp only [Transaction.apply] at lodged ⊢
  rw [leaves] at lodged
  exact ⟨trivial, lodged, unmoved (by rintro _ ⟨⟩) (by rintro _ ⟨⟩) h.2⟩

omit unmoved in
/-- Volumes that are known are recorded in the pools to which they have been moved. -/
theorem lodges_moveVolumes {p : Plan} {moves : List VolumeMove} (named : p.Moves moves)
    (backed : p.Backed pools view.volumes)
    (moved : ∀ {past before}, T past →
      T' (past ++ [⟨.transact (.moveVolumes moves), .ok (), before⟩]))
    (h : Lodges v item view pools T past s) :
    Safe (secluded v job I) (fun result past s => result = .ok () ∧
        Lodges v item ⟨view.vm, view.volumes.map (Volume.under pools moves)⟩ pools T' past s)
      (demand (α := Unit) (.transact (.moveVolumes moves)) rfl).run past s := by
  refine Safe.carry (f := .done) stable_lodges h (fun _ h _ => notes h)
    fun s h _ _ => ⟨trivial, ?_⟩
  have known : ∀ move ∈ moves, (s.store.pool? move.pool).isSome ∧
    (s.store.volume? move.volume).isSome := by
    intro move mem
    obtain ⟨pool, volume, own, here⟩ :=
    backed move.relocation (named ▸ List.mem_map_of_mem mem)
    rw [← h.1.view] at own
    rw [← h.1.pools] at pool
    refine ⟨pool, Option.isSome_iff_exists.2 ⟨volume, ?_⟩⟩
    exact (congrArg s.store.volume? here).symm.trans
      (Table.get?_of_mem (List.mem_of_mem_filter own))
  obtain ⟨store, carried⟩ := Store.moveEach_isOk known
  have e : s.store.moveVolumes moves = (.ok (), store) := by simp only [Store.moveVolumes, carried]
  simp only [Safe, Transaction.apply, e]
  exact ⟨trivial, h.1.moved named.distinct carried, moved h.2⟩

end

section
variable (calm : Calm T)
  (notes : ∀ {past s}, Lodges v item view pools T past s → I past s.store)
include calm notes

theorem lodges_now (h : Lodges v item view pools T past s) :
    Safe (secluded v job I) (Ends (fun _ => Lodges v item view pools T) fun _ _ => False)
      (Procedure.ask .now).run past s := by
  refine Safe.ask stable_lodges (fun _ => rfl) h fun s h _ => ⟨notes h, ?_⟩
  rintro _ _ rfl
  exact ⟨trivial, h.1, calm (by rintro _ ⟨⟩) (by rintro _ ⟨⟩) id h.2⟩

theorem lodges_unlock {name : LockName} {how : Release} (h : Lodges v item view pools T past s) :
    Safe (secluded v job I) (Ends (fun _ => Lodges v item view pools T) fun _ _ => False)
      (Procedure.ask (.unlock name how)).run past s := by
  refine Safe.ask stable_lodges (fun _ => rfl) h fun s h _ => ⟨notes h, ?_⟩
  rintro ⟨⟩ _ rfl
  exact ⟨trivial, h.1, calm (by rintro _ ⟨⟩) (by rintro _ ⟨⟩) id h.2⟩

theorem lodges_finish {node : Node} (ends : ∀ {past s now},
      Lodges v { item with step := step, updated := now } view pools T past s → I past s.store)
    (h : Lodges v item view pools T past s) :
    Safe (secluded v job I) (Ends (fun _ past s =>
      ∃ now, Lodges v { item with step := step, updated := now } view pools T past s)
        fun _ _ => False)
      (Work.finish node item step).run past s := by
  refine Safe.andThen (lodges_now calm notes h) (fun now past s h => ?_) fun _ _ _ => False.elim
  refine Safe.andThen
    (Q := Ends (fun _ => Lodges v { item with step := step, updated := now } view pools T)
      fun _ _ => False) (Safe.transact stable_lodges h fun s h _ =>
      ⟨notes h, fun _ => ⟨trivial, ?_⟩⟩)
    (fun _ past s h => ?_) fun _ _ _ => False.elim
  · exact ⟨h.1.closed, calm (by rintro _ ⟨⟩) (by rintro _ ⟨⟩) id h.2⟩
  · refine (lodges_unlock calm ends h).mono fun result past s h => ?_
    cases result with
    | error failure => exact h
    | ok _ => exact ⟨now, h⟩

theorem lodges_closeRecovered (isOpen : item.Open) (h : Lodges v item view pools T past s) :
    Safe (secluded v job I) (Ends (fun done past s => done = true ∧
      ∃ now, Lodges v { item with step := step, updated := now } view pools T past s)
        fun _ _ => False)
      (Work.closeRecovered item step).run past s := by
  refine Safe.andThen (lodges_now calm notes h) (fun now past s h => ?_) fun _ _ _ => False.elim
  refine Safe.transact stable_lodges h fun s h _ => ⟨notes h, fun _ => ⟨trivial, ?_⟩⟩
  obtain ⟨done, closed⟩ := h.1.recovered isOpen step now
  exact ⟨done, now, closed, calm (by rintro _ ⟨⟩) (by rintro _ ⟨⟩) id h.2⟩

/-- An item tells how the body of its operation has ended. -/
theorem lodges_settle {ctx : Context} {result : Except Ending α} (ends : ∀ {past s now},
      Lodges v (leaves item now result) view pools T past s → I past s.store)
    (h : Lodges v item view pools T past s) :
    Safe (secluded v job I) (fun outcome past s => outcome = result.mapError Ending.failure ∧
      ∃ now, Lodges v (leaves item now result) view pools T past s)
        (settle ctx item result).run past s := by
  rcases result with (failure | failure | failure) | a
  · refine Safe.andThen (lodges_finish calm notes ends h) (fun _ _ _ h => ⟨rfl, h⟩)
      fun _ _ _ => False.elim
  · refine Safe.andThen (lodges_finish calm notes ends h) (fun _ _ _ h => ⟨rfl, h⟩)
      fun _ _ _ => False.elim
  · refine Safe.andThen (lodges_unlock calm notes h) (fun _ _ _ h => ⟨rfl, item.updated, h⟩)
      fun _ _ _ => False.elim
  · refine Safe.andThen (lodges_finish calm notes ends h) (fun _ _ _ h => ⟨rfl, h⟩)
      fun _ _ _ => False.elim

end

def Unwritten (past : List Exchange) : Prop := ∀ e ∈ past, ¬ e.request.Rewrites

theorem not_rewrites_of_quiet {r : Request} (quiet : r.Quiet) : ¬ r.Rewrites := by
  intro rewrites
  cases r with
  | transact t => cases t <;> first | exact rewrites | exact quiet
  | _ => exact rewrites

theorem Unwritten.append {e : Exchange} (h : Unwritten past) (no : ¬ e.request.Rewrites) :
    Unwritten (past ++ [e]) := by
  intro f mem
  rcases List.mem_append.1 mem with mem | mem
  · exact h f mem
  · exact List.mem_singleton.1 mem ▸ no

def Untouched (v : VmId) (first : View) (past : List Exchange) (s : Store) : Prop :=
  Unwritten past → s.view v = first

/-- Whatever a program does while its machine is left alone, it keeps the machine as it was at first
until it writes something. -/
theorem Safe.untouched {C : Contract} {first : View} {p : Program surroundings α}
    (rely : ∀ {s s'}, C.rely s s' → s'.store.view v = s.store.view v)
    (allow : ∀ {s s'}, C.allow s s')
    (fit : ∀ {past s r}, Untouched v first past s.store → C.fit past s r)
    (h : Untouched v first past s.store) :
    Safe C (fun _ past s => Untouched v first past s.store) p past s := by
  induction p generalizing past s with
  | done a => exact h
  | ask r rest ih =>
    intro s₁ rely₁ _
    have entered : (s₁.enter C.job r).store = s₁.store := by cases r <;> rfl
    refine ⟨allow, fun s₂ rely₂ _ => ?_⟩
    have waits : Untouched v first past s₂.store := fun unwritten => by
      rw [rely rely₂, entered, rely rely₁]
      exact h unwritten
    refine ⟨fit waits, fun reply s₃ answers => ⟨allow, ih reply fun unwritten => ?_⟩⟩
    have before := waits fun e mem => unwritten e (List.mem_append_left _ mem)
    rcases Shared.store_of_answers answers with same | ⟨t, rfl, same⟩
    · rw [same]
      exact before
    · have keeps : ¬ t.Rewrites :=
        unwritten ⟨.transact t, reply, s₂.store⟩
          (List.mem_append_right _ (List.mem_singleton_self _))
      rw [same, Transaction.view_of_not_rewrites keeps]
      exact before

end Concurrent
end ControlPlane
