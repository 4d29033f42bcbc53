import ControlPlane.Proofs.Store.Transactions

/-!
# Items and their index

The index is a second view of the open items: a machine has an entry there exactly while an item of
its own is open. Transactions that open an item under a new identifier, and otherwise write only to
items that are there, keep the two views in step and lose nothing of an item.
-/

namespace ControlPlane
open Work

/-- What an item keeps for good. An item that is closed stays closed. -/
structure Work.Item.Lasts (x x' : Item) : Prop where
  vm : x'.vm = x.vm
  owner : x'.owner = x.owner
  operation : x'.operation = x.operation
  created : x'.created = x.created
  closed : x'.Open → x.Open

namespace Store

/-- The index names the open items, each under its machine. -/
def InStep (s : Store) : Prop :=
  ∀ v id, s.openItem? v = some id ↔ ∃ x, s.item? id = some x ∧ x.vm = v ∧ x.Open

def Unused (s : Store) (v : VmId) : Prop := ∀ id x, s.item? id = some x → x.vm = v → ¬ x.Open

/-- Every item of one store is still in the other. -/
def Retains (s s' : Store) : Prop :=
  ∀ id x, s.item? id = some x → ∃ x', s'.item? id = some x' ∧ x.Lasts x'

end Store

/-- A transaction that a ledger carries out, as far as its items are concerned. -/
def Transaction.Files (s : Store) : Transaction → Prop
  | .openItem item => s.item? item.id = none ∧ item.Open
  | .closeItem item step _ => (∃ x, s.item? item.id = some x) ∧ step ≠ .started
  | .planItem item .. => ∃ x, s.item? item.id = some x
  | .recoverItem _ step _ => step ≠ .started
  | _ => True

variable {s s' s'' : Store} {t : Transaction} {v : VmId} {id : Uuid} {x x' x'' item : Item}

theorem Work.Item.Lasts.refl (x : Item) : x.Lasts x := ⟨rfl, rfl, rfl, rfl, fun h => h⟩

theorem Work.Item.Lasts.trans (h : x.Lasts x') (h' : x'.Lasts x'') : x.Lasts x'' where
  vm := h'.vm.trans h.vm
  owner := h'.owner.trans h.owner
  operation := h'.operation.trans h.operation
  created := h'.created.trans h.created
  closed isOpen := h.closed (h'.closed isOpen)

namespace Store

theorem Retains.refl (s : Store) : s.Retains s := fun _ x stored => ⟨x, stored, .refl x⟩

theorem Retains.trans (h : s.Retains s') (h' : s'.Retains s'') : s.Retains s'' := by
  intro id x stored
  obtain ⟨x', stored', lasts⟩ := h id x stored
  obtain ⟨x'', stored'', lasts'⟩ := h' id x' stored'
  exact ⟨x'', stored'', lasts.trans lasts'⟩

theorem InStep.empty : InStep {} := by
  intro v id
  constructor
  · intro slot
    cases slot
  · rintro ⟨x, stored, -⟩
    cases stored

theorem InStep.unique (h : s.InStep) {i j : Uuid} {y : Item} (hx : s.item? i = some x)
    (hy : s.item? j = some y) (same : x.vm = y.vm) (openX : x.Open) (openY : y.Open) : x = y := by
  have slot : s.openItem? x.vm = some i := (h _ _).2 ⟨x, hx, rfl, openX⟩
  have slot' : s.openItem? x.vm = some j := (h _ _).2 ⟨y, hy, same.symm, openY⟩
  rw [slot] at slot'
  cases slot'
  rw [hx] at hy
  exact Option.some.inj hy

theorem InStep.unused_iff (h : s.InStep) : s.openItem? v = none ↔ s.Unused v := by
  constructor
  · intro free id x stored here isOpen
    have slot := (h v id).2 ⟨x, stored, here, isOpen⟩
    rw [free] at slot
    cases slot
  · intro unused
    cases slot : s.openItem? v with
    | none => rfl
    | some id =>
      obtain ⟨x, stored, here, isOpen⟩ := (h v id).1 slot
      exact absurd isOpen (unused id x stored here)

/-- An item can be opened exactly if its machine has no open item of anybody. -/
theorem InStep.openItem_ok (h : s.InStep) : (s.openItem item).1 = .ok () ↔ s.Unused item.vm := by
  rw [← h.unused_iff]
  unfold openItem
  cases s.openItem? item.vm <;> simp

theorem InStep.congr (h : s.InStep) (items : ∀ i, s'.item? i = s.item? i)
    (slots : ∀ v, s'.openItem? v = s.openItem? v) : s'.InStep := by
  intro v id
  rw [slots, items]
  exact h v id

theorem InStep.opened (h : s.InStep) (fresh : s.item? item.id = none) (isOpen : item.Open)
    (free : s.openItem? item.vm = none)
    (items : ∀ i, s'.item? i = if item.id = i then some item else s.item? i)
    (slots : ∀ v, s'.openItem? v = if item.vm = v then some item.id else s.openItem? v) :
    s'.InStep := by
  intro v id
  rw [slots, items]
  constructor
  · intro slot
    by_cases here : item.vm = v
    · rw [if_pos here] at slot
      cases slot
      exact ⟨item, if_pos rfl, here, isOpen⟩
    · rw [if_neg here] at slot
      obtain ⟨x, stored, about⟩ := (h v id).1 slot
      have ne : item.id ≠ id := by
        rintro rfl
        rw [fresh] at stored
        cases stored
      exact ⟨x, (if_neg ne).trans stored, about⟩
  · rintro ⟨x, stored, rfl, openX⟩
    by_cases same : item.id = id
    · rw [if_pos same] at stored
      cases stored
      rw [if_pos rfl, same]
    · rw [if_neg same] at stored
      have slot := (h x.vm id).2 ⟨x, stored, rfl, openX⟩
      have ne : item.vm ≠ x.vm := by
        intro here
        rw [here, slot] at free
        cases free
      rw [if_neg ne, slot]

/-- An item is rewritten. If that closes it, its entry goes, unless the entry is no longer its
own. -/
theorem InStep.rewritten (h : s.InStep) (stored : s.item? id = some x) (lasts : x.Lasts x')
    (items : ∀ i, s'.item? i = if id = i then some x' else s.item? i)
    (slots : ∀ v, s'.openItem? v =
      if x.vm = v ∧ s.openItem? v = some id ∧ ¬ x'.Open then none else s.openItem? v) :
    s'.InStep := by
  intro v i
  rw [slots, items]
  constructor
  · intro slot
    split at slot
    · cases slot
    next kept =>
      obtain ⟨y, storedY, here, openY⟩ := (h v i).1 slot
      by_cases same : id = i
      · subst same
        rw [stored] at storedY
        cases storedY
        have openX' : x'.Open := Decidable.not_not.1 fun closed => kept ⟨here, slot, closed⟩
        exact ⟨x', if_pos rfl, lasts.vm.trans here, openX'⟩
      · exact ⟨y, (if_neg same).trans storedY, here, openY⟩
  · rintro ⟨y, storedY, rfl, openY⟩
    by_cases same : id = i
    · subst same
      rw [if_pos rfl] at storedY
      cases storedY
      have slot := (h x'.vm id).2 ⟨x, stored, lasts.vm.symm, lasts.closed openY⟩
      rw [if_neg fun no => no.2.2 openY, slot]
    · rw [if_neg same] at storedY
      have slot := (h y.vm i).2 ⟨y, storedY, rfl, openY⟩
      have other : ¬ (x.vm = y.vm ∧ s.openItem? y.vm = some id ∧ ¬ x'.Open) := by
        rintro ⟨-, mine, -⟩
        rw [slot] at mine
        exact same (Option.some.inj mine).symm
      rw [if_neg other, slot]

end Store

namespace Transaction

theorem onItem_other (names : t.names? ≠ some x.id) (closes : t.closes? ≠ some x.id) :
    t.onItem x = x := by
  cases t with
  | closeItem item step now =>
    rw [onItem, if_neg fun e => names (congrArg some e)]
  | planItem item plan now =>
    rw [onItem, if_neg fun e => names (congrArg some e)]
  | recoverItem id step now =>
    rw [onItem, if_neg fun e => closes (congrArg some e.1)]
  | _ => rfl

theorem Files.lasts (files : t.Files s) : x.Lasts (t.onItem x) := by
  cases t with
  | closeItem item step now =>
    simp only [onItem]
    split
    · exact ⟨rfl, rfl, rfl, rfl, fun isOpen => absurd isOpen files.2⟩
    · exact .refl x
  | planItem item plan now =>
    simp only [onItem]
    split
    · exact ⟨rfl, rfl, rfl, rfl, fun isOpen => isOpen⟩
    · exact .refl x
  | recoverItem id step now =>
    simp only [onItem]
    split
    · exact ⟨rfl, rfl, rfl, rfl, fun isOpen => absurd isOpen files⟩
    · exact .refl x
  | _ => exact .refl x

theorem Files.retains (files : t.Files s) : s.Retains (t.apply s).2 := by
  intro id x stored
  refine ⟨t.onItem x, item?_apply stored ?_, files.lasts⟩
  rintro item rfl rfl
  rw [files.1] at stored
  cases stored

/-- Only the transaction that opens an item adds one. -/
theorem Files.unknown (files : t.Files s) (h : s.item? id = none)
    (opens : ∀ item, t = .openItem item → item.id ≠ id) : (t.apply s).2.item? id = none := by
  refine item?_apply_none h fun names => ?_
  cases t with
  | openItem item => exact opens item rfl (Option.some.inj names)
  | closeItem item step now =>
    obtain ⟨⟨x, stored⟩, -⟩ := files
    rw [Option.some.inj names, h] at stored
    cases stored
  | planItem item plan now =>
    obtain ⟨x, stored⟩ := files
    rw [Option.some.inj names, h] at stored
    cases stored
  | _ => cases names

/-- What is in the store after a transaction that writes to one item that was there. -/
theorem Files.item? (files : t.Files s) (stored : s.item? id = some x)
    (opens : ∀ item, t ≠ .openItem item) (names : ∀ i, t.names? = some i → id = i)
    (closes : ∀ i, t.closes? = some i → id = i) (i : Uuid) :
    (t.apply s).2.item? i = if id = i then some (t.onItem x) else s.item? i := by
  have old : ∀ {i y}, s.item? i = some y → (t.apply s).2.item? i = some (t.onItem y) :=
    fun stored => item?_apply stored fun item e => absurd e (opens item)
  by_cases same : id = i
  · subst same
    rw [old stored, if_pos rfl]
  · rw [if_neg same]
    cases storedY : s.item? i with
    | none => exact files.unknown storedY fun item e => absurd e (opens item)
    | some y =>
      rw [← Store.id_of_item? storedY] at same
      rw [old storedY, onItem_other (fun e => same (names _ e)) fun e => same (closes _ e)]

theorem Files.inStep (files : t.Files s) (h : s.InStep) : (t.apply s).2.InStep := by
  cases t with
  | openItem item =>
    obtain ⟨fresh, isOpen⟩ := files
    cases slot : s.openItem? item.vm with
    | some other =>
      simp only [apply, Store.openItem, slot]
      exact h
    | none =>
      simp only [apply, Store.openItem, slot]
      exact h.opened fresh isOpen slot (Store.item?_putItem s item)
        (Store.openItem?_insert (s.putItem item) _)
  | closeItem item step now =>
    obtain ⟨x, stored⟩ := files.1
    have items := files.item? stored (by rintro _ ⟨⟩) (fun _ => Option.some.inj)
      fun _ => Option.some.inj
    refine h.rewritten stored files.lasts items fun v => ?_
    have closed : ¬ ((closeItem item step now).onItem x).Open := by
      rw [onItem, if_pos (Store.id_of_item? stored).symm]
      exact files.2
    rw [openItem?_apply]
    simp only [onSlot, stored, Option.getD_some, closed, not_false_eq_true, and_true]
  | planItem item plan now =>
    -- A plan does not close the item, so the slot that it holds is not freed.
    obtain ⟨x, stored⟩ := files
    have files : (planItem item plan now).Files s := ⟨x, stored⟩
    have items := files.item? stored (by rintro _ ⟨⟩) (fun _ => Option.some.inj)
      (by rintro _ ⟨⟩)
    refine h.rewritten stored files.lasts items fun v => ?_
    rw [openItem?_apply, if_neg]
    · rfl
    rintro ⟨rfl, slot, closed⟩
    obtain ⟨y, storedY, -, isOpen⟩ := (h _ _).1 slot
    rw [stored] at storedY
    cases storedY
    rw [onItem, if_pos (Store.id_of_item? stored).symm] at closed
    exact closed isOpen
  | recoverItem id step now =>
    by_cases isOpen : ∃ x, s.item? id = some x ∧ x.Open
    · obtain ⟨x, stored, isOpen⟩ := isOpen
      have items := files.item? stored (by rintro _ ⟨⟩) (by rintro _ ⟨⟩)
        fun _ => Option.some.inj
      refine h.rewritten stored files.lasts items fun v => ?_
      have closed : ¬ ((recoverItem id step now).onItem x).Open := by
        rw [onItem, if_pos ⟨(Store.id_of_item? stored).symm, isOpen⟩]
        exact files
      rw [openItem?_apply]
      simp only [onSlot, stored, isOpen, closed, true_and, not_false_eq_true, and_true]
    · have same : (apply s (recoverItem id step now)).2 = s := by
        simp only [apply, Store.recoverItem_idle fun y stored open_ =>
          isOpen ⟨y, stored, open_⟩]
      rw [same]
      exact h
  | _ =>
    exact h.congr (fun _ => item?_frame (by rfl) (by rfl)) fun _ =>
      openItem?_frame (by rfl) (by rfl)

end Transaction
end ControlPlane
