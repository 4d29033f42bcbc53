import ControlPlane.Proofs.Concurrent.Contract
import ControlPlane.Proofs.Concurrent.JobDiscipline
import ControlPlane.Proofs.Concurrent.QuietRequests
import ControlPlane.Proofs.Transition.Requests
import ControlPlane.Work.Ledger
import Mathlib.Logic.Relation

/-!
# Under the lock of a machine

What a job may rely on under the discipline. As long as it holds the lock of a machine, nobody else
changes the items of its node for that machine, nor sends the machine on its way under one of them.
-/

namespace ControlPlane.Concurrent
open Work Control

/-- A step of another job, or the end of another node's process. -/
inductive Others (job : Nat) (node : NodeId) (a b : Shared) : Prop
  | acts {k : Nat} (ne : k ≠ job) (h : Acts k a b)
  | crash {m : NodeId} (ne : m ≠ node) (h : b = a.crash m)

structure Passes (job : Nat) (node : NodeId) (a b : Shared) : Prop where
  before : Coherent a
  after : Coherent b
  others : Others job node a b

def discipline (fit : List Exchange → Shared → Request → Prop) (node : NodeId) (job : Nat) :
    Contract where
  job := job
  invariant := Coherent
  rely := Relation.ReflTransGen (Passes job node)
  allow a b := Acts job a b ∧ Coherent b
  fit := fit
  rely_refl _ := .refl
  rely_trans := .trans
  allow_refl h := ⟨.refl _ _, h⟩

variable {fit : List Exchange → Shared → Request → Prop} {node : NodeId} {job : Nat}
  {a b s s' : Shared} {c x x' : Item} {P Q : State → UInt64 → Prop}

/-- What survives one step of others survives any number of them. -/
theorem stable_discipline {P : Assertion}
    (step : ∀ {past a b}, Coherent a → Others job node a b → P past a → P past b) :
    Stable (discipline fit node job) P := by
  intro past s s' rely inv h
  clear inv
  change Relation.ReflTransGen (Passes job node) s s' at rely
  induction rely with
  | refl => exact h
  | tail _ passes ih => exact step passes.before passes.others ih

theorem Acts.covered_before {k : Nat} (h : Acts k a b) (known : a.store.item? x'.id = some x)
    (covers : b.store.Covers x') : a.store.Covers x ∧ Edits k a x x' := by
  obtain ⟨stored, isOpen, slot⟩ := covers
  obtain ⟨x'', stored', edits⟩ := h.item known
  rw [stored] at stored'
  cases stored'
  have hid := Store.id_of_item? known
  refine ⟨⟨hid ▸ known, edits.closed isOpen, ?_⟩, edits⟩
  rcases h.opened slot with slot | unknown
  · rwa [edits.vm, ← hid] at slot
  · rw [known] at unknown
    cases unknown

def Known (c : Item) (s : Shared) : Prop :=
  ∃ x, s.store.item? c.id = some x ∧ x.vm = c.vm ∧ x.owner = c.owner

theorem Known.acts {k : Nat} (h : Known c a) (acts : Acts k a b) : Known c b := by
  obtain ⟨x, stored, vm, owner⟩ := h
  obtain ⟨x', stored', edits⟩ := acts.item stored
  exact ⟨x', stored', edits.vm.trans vm, edits.owner.trans owner⟩

theorem Known.others (h : Known c a) (others : Others job node a b) : Known c b := by
  cases others with
  | acts _ acts => exact h.acts acts
  | crash _ e => exact e ▸ h

theorem holds_of_others {v : VmId} (h : a.Holds job ⟨node, v⟩) (others : Others job node a b) :
    b.Holds job ⟨node, v⟩ := by
  cases others with
  | acts ne acts => exact acts.holds ne.symm h
  | @crash m ne e =>
    rw [e]
    refine Locks.isGranted_dropWhere h fun d _ _ named _ => ?_
    simp [named, ne.symm]

/-- The job holds the lock of the item's machine. -/
structure Holding (job : Nat) (c : Item) (s : Shared) : Prop where
  holds : s.Holds job ⟨c.owner, c.vm⟩
  known : Known c s

theorem Holding.others (h : Holding job c a) (others : Others job c.owner a b) : Holding job c b :=
  ⟨holds_of_others h.holds others, h.known.others others⟩

/-- If the item covers its machine and that is in motion, its state and version are of a kind. -/
def Bound (c : Item) (P : State → UInt64 → Prop) (s : Shared) : Prop :=
  ∀ x, s.store.Covers x → x.id = c.id → Amid c.vm P s

theorem Bound.mono (h : Bound c P s) (le : ∀ state version, P state version → Q state version) :
    Bound c Q s := fun x covers same => (h x covers same).mono le

theorem Bound.never (h : Bound c P s)
    (calm : ∀ state version, P state version → ¬ state.InMotion) :
    Bound c Never s := fun x covers same vm stored moves =>
  calm _ _ (h x covers same vm stored moves) moves

theorem Bound.of_amid (h : Amid c.vm P s) : Bound c P s := fun _ _ _ => h

/-- Others do not send a machine on its way under an item whose lock the job holds. -/
theorem Bound.others (h : Bound c P a) (holding : Holding job c a) (coherent : Coherent a)
    (others : Others job c.owner a b) : Bound c P b := by
  intro x' covers' same vm' stored' moves
  cases others with
  | crash _ e =>
    subst e
    exact h x' covers' same vm' stored' moves
  | @acts k ne acts =>
    obtain ⟨x, known, here, owner⟩ := holding.known
    rw [← same] at known
    obtain ⟨covers, edits⟩ := acts.covered_before known covers'
    have hid : x.id = c.id := (Store.id_of_item? known).trans same
    cases stored : a.store.vm? c.vm with
    | none =>
      rw [acts.missing stored] at stored'
      cases stored'
    | some vm =>
      obtain ⟨vm'', stored'', moved⟩ := acts.vm stored
      rw [stored'] at stored''
      cases stored''
      rcases moved with ⟨state, -, version⟩ | ⟨-, sent⟩
      · rw [state, version]
        exact h x covers hid vm stored (state ▸ moves)
      · have vid := Store.id_of_vm? stored
        obtain ⟨y, yvm, coversY, -, holdsY⟩ := sent moves
        have e : y = x := coversY.unique covers (yvm.trans (vid.trans here.symm))
        rw [e, owner, vid] at holdsY
        exact absurd (coherent.exclusive holdsY holding.holds) ne

/-- The job works on the machine under an item of its own, which it alone has drawn. -/
structure Working (job : Nat) (c : Item) (plan : Option Plan) (s : Shared) : Prop
    extends Holding job c s where
  drew : s.Drew job c.id
  sole : ∀ {id}, s.Drew job id → id = c.id
  covered : ∃ x, s.store.Covers x ∧ x.id = c.id ∧ x.vm = c.vm ∧ x.plan = plan

theorem drew_of_others {k : Nat} {id : Uuid} (others : Others job node a b) (h : a.Drew k id) :
    b.Drew k id := by
  cases others with
  | acts _ acts => exact acts.drew h
  | crash _ e => exact e ▸ h

theorem draws_of_others {id : Uuid} (others : Others job node a b) (h : b.Drew job id) :
    a.Drew job id := by
  cases others with
  | acts ne acts => exact acts.draws ne.symm h
  | crash _ e =>
    subst e
    exact h

theorem Working.others {plan : Option Plan} (h : Working job c plan a) (coherent : Coherent a)
    (others : Others job c.owner a b) : Working job c plan b where
  toHolding := h.toHolding.others others
  drew := drew_of_others others h.drew
  sole drew := h.sole (draws_of_others others drew)
  covered := by
    obtain ⟨x, covers, same, here, planned⟩ := h.covered
    obtain ⟨y, knownY, -, owner⟩ := h.known
    have e : x = y := by
      have stored := covers.stored
      rw [same, knownY] at stored
      exact (Option.some.inj stored).symm
    cases others with
    | crash _ e => exact e ▸ ⟨x, covers, same, here, planned⟩
    | acts ne acts =>
      have free : ¬ a.Holds _ ⟨x.owner, x.vm⟩ := fun holds => by
        rw [e, owner, ← e, here] at holds
        exact ne (coherent.exclusive holds h.holds)
      obtain ⟨x', stored', edits⟩ := acts.item covers.stored
      have kept := edits.locked.resolve_right free
      rw [kept] at stored'
      exact ⟨x, ⟨stored', covers.isOpen, (acts.slot covers).resolve_right free⟩,
        same, here, planned⟩

/-- What a job keeps up while it holds the lock of an item's machine. -/
structure Upheld (C : Contract) (c : Item) (R : Assertion) : Prop where
  holding : ∀ {past s}, R past s → Holding C.job c s
  stable : Stable C R
  fit : ∀ {r past s}, r.Quiet ∨ (∃ u, r = .transact (.swap u) ∧ u.vm = c.vm) →
    R past s → C.invariant s → C.fit past s r
  quiet : ∀ {r reply past s}, r.Quiet → R past s → R (past ++ [⟨r, reply, s.store⟩]) s
  write : ∀ {t : Transaction} {reply past s}, t.names? = none → t.closes? = none →
    Acts C.job s { s with store := (t.apply s.store).2 } → R past s →
    R (past ++ [⟨.transact t, reply, s.store⟩]) { s with store := (t.apply s.store).2 }

section
variable {R : Assertion} {past : List Exchange}

theorem Upheld.stable_bound (up : Upheld (discipline fit c.owner job) c R) :
    Stable (discipline fit c.owner job) fun past s => R past s ∧ Bound c P s := by
  intro past s s' rely inv ⟨r, bound⟩
  refine ⟨up.stable rely inv r, ?_⟩
  have kept : Stable (discipline fit c.owner job) fun _ s => Holding job c s ∧ Bound c P s :=
    stable_discipline fun coherent others h =>
      ⟨h.1.others others, h.2.others h.1 coherent others⟩
  exact (@kept past s s' rely inv ⟨up.holding r, bound⟩).2

theorem Upheld.lasting_bound (up : Upheld (discipline fit c.owner job) c R) :
    Lasting (discipline fit c.owner job) Request.Quiet fun past s => R past s ∧ Bound c P s where
  stable := up.stable_bound
  fit quiet h inv := up.fit (.inl quiet) h.1 inv
  keeps quiet h := ⟨up.quiet quiet h.1, h.2⟩

end

section
variable {node : Node} {R : Assertion} {past : List Exchange}

theorem safe_lock {v : VmId} {Q : Except Failure Unit → Assertion}
    (stable : Stable (discipline fit node.id job) R) (h : R past s)
    (fits : ∀ {s}, R past s → fit past s (.lock (lockName node v)))
    (enter : ∀ {s}, R past s → R past (s.enter job (.lock (lockName node v))))
    (granted : ∀ {s}, R past s → Coherent s → s.Holds job (lockName node v) →
      Q (.ok ()) (past ++ [⟨.lock (lockName node v), true, s.store⟩]) s)
    (refused : ∀ {s failure}, R past s → Coherent s →
      Acts job s { s with locks := s.locks.giveUp job (lockName node v) } →
      Q (.error failure) (past ++ [⟨.lock (lockName node v), false, s.store⟩])
        { s with locks := s.locks.giveUp job (lockName node v) }) :
    Safe (discipline fit node.id job) Q (Work.lock node v).run past s := by
  intro s₁ rely₁ inv₁
  have entered := Acts.enter job s₁ (.lock (lockName node v))
  refine ⟨⟨entered, inv₁.enter job (.lock (lockName node v))⟩,
    fun s₂ rely₂ inv₂ => ?_⟩
  have h₂ := stable rely₂ inv₂ (enter (stable rely₁ inv₁ h))
  refine ⟨fits h₂, fun reply s₃ answers => ?_⟩
  cases reply with
  | true =>
    obtain ⟨holds, rfl⟩ := answers
    exact ⟨⟨.refl job _, inv₂⟩, granted h₂ inv₂ holds⟩
  | false =>
    obtain ⟨-, rfl⟩ := answers
    exact ⟨⟨.giveUp job s₂ _, inv₂.giveUp job _⟩,
      refused h₂ inv₂ (.giveUp job s₂ _)⟩

theorem safe_unlock {v : VmId} {how : Release} {Q : Except Failure Unit → Assertion}
    (stable : Stable (discipline fit node.id job) R) (h : R past s)
    (fits : ∀ {s}, R past s → fit past s (.unlock (lockName node v) how))
    (holds : ∀ {s}, R past s → s.Holds job (lockName node v))
    (lingers : ∀ {s x}, R past s → s.store.Covers x → s.Drew job x.id →
      ⟨x.owner, x.vm⟩ = lockName node v → Lingers x.vm s)
    (after : ∀ {s}, R past s → Coherent s →
      Acts job s { s with locks := s.locks.release (lockName node v) how } →
      Q (.ok ()) (past ++ [⟨.unlock (lockName node v) how, (), s.store⟩])
        { s with locks := s.locks.release (lockName node v) how }) :
    Safe (discipline fit node.id job) Q
      (Procedure.ask (.unlock (lockName node v) how)).run past s := by
  refine Safe.ask stable (fun _ => rfl) h fun s h inv => ⟨fits h, ?_⟩
  rintro ⟨⟩ _ rfl
  have acts := Acts.unlock inv (holds h) (lingers h) how
  exact ⟨⟨acts, inv.release _ how⟩, after h inv acts⟩

end
end ControlPlane.Concurrent
