import ControlPlane.Proofs.Transition.LockedTransition
import ControlPlane.Recovery

/-!
# Items that were listed

A recovery scan works with copies of the items that were open when it began. By the time it holds
the lock of a machine, the item may have been closed, or its operation may have given it another
plan. As long as the scan holds the lock, the item stays as it is.
-/

namespace ControlPlane

def Transaction.Touches : Transaction → Prop
  | .swap _ | .setResources .. | .setCredentialsPending .. | .moveVolumes _ => True
  | _ => False

theorem Transaction.not_touches {t : Transaction} (reads : t.Reads) : ¬ t.Touches := by
  cases t <;> first | exact id | cases reads

namespace Concurrent
open Work Control

def Started (id : Uuid) (s : Store) : Prop := ∃ x, s.item? id = some x ∧ x.Open

/-- The item was among those that were open when they were listed. -/
def Listed (node : NodeId) (c : Item) (past : List Exchange) : Prop :=
  ∃ e ∈ past, e.request = .transact (.openItems node) ∧ c ∈ e.before.openItems node

/-- What an exchange does to the note of when a lock was granted. -/
def notes (name : LockName) (since : Option Store) : Exchange → Option Store
  | ⟨.lock other, true, before⟩ => if other = name then some before else since
  | ⟨.unlock other _, _, _⟩ => if other = name then none else since
  | _ => since

/-- The store at the time when the lock was granted that a job has held since. -/
def heldSince (name : LockName) (past : List Exchange) : Option Store :=
  past.foldl (notes name) none

/-- The transaction is one that settles the machine of an item. -/
def Concerns (c : Item) : Transaction → Prop
  | .swap u => u.vm = c.vm
  | .moveVolumes moves => ∃ plan, c.plan = some plan ∧ moves = Recovery.movesOf plan
  | _ => False

/-- The transaction is carried out on behalf of an item that was listed, and which is now as it was
when the lock of its machine was granted. -/
def OnBehalf (node : NodeId) (past : List Exchange) (s : Store) (t : Transaction) : Prop :=
  ∃ c granted, Listed node c past ∧ heldSince ⟨node, c.vm⟩ past = some granted ∧
    Concerns c t ∧ s.item? c.id = granted.item? c.id

variable {name : LockName} {past : List Exchange} {e : Exchange} {node : NodeId} {c x : Item}
  {s s' : Shared} {job : Nat}

theorem heldSince_append : heldSince name (past ++ [e]) = notes name (heldSince name past) e :=
  List.foldl_append ..

theorem heldSince_lock {before : Store} :
    heldSince name (past ++ [⟨.lock name, true, before⟩]) = some before := by
  rw [heldSince_append, notes, if_pos rfl]

theorem heldSince_of_quiet {r : Control.Request} {reply : r.Reply}
    {before : Store} (quiet : r.Quiet) :
    heldSince name (past ++ [⟨r, reply, before⟩]) = heldSince name past := by
  rw [heldSince_append]
  cases r <;> first | rfl | cases quiet

theorem heldSince_transact {t : Transaction} {reply : t.Reply} {before : Store} :
    heldSince name (past ++ [⟨.transact t, reply, before⟩]) = heldSince name past := by
  rw [heldSince_append]
  rfl

theorem Listed.append (h : Listed node c past) : Listed node c (past ++ [e]) := by
  obtain ⟨f, mem, rest⟩ := h
  exact ⟨f, List.mem_append_left _ mem, rest⟩

theorem Listed.owner (h : Listed node c past) : c.owner = node := by
  obtain ⟨f, -, -, mem⟩ := h
  exact (Store.mem_openItems mem).2.1

/-- Somebody who has drawn the identifier of the item holds the lock of its machine. -/
def Tended (c : Item) (s : Shared) : Prop := ∃ k, s.Drew k c.id ∧ s.Holds k ⟨c.owner, c.vm⟩

/-- If the item is still the one of its machine, its plan is the one that is known, or the machine
does not migrate; or else its own operation is still there. -/
def Copied (c : Item) (s : Shared) : Prop :=
  ∀ x, s.store.Covers x → x.id = c.id → x.plan = c.plan ∨ Lingers c.vm s ∨ Tended c s

structure Copy (c : Item) (s : Shared) : Prop where
  known : Known c s
  copied : Copied c s

/-- An operation that gives its item another plan, or sends its machine on its way, holds the lock
before, and it does not let go of a machine that migrates. -/
theorem Copied.acts {k : Nat} (h : Copied c s) (known : Known c s) (acts : Acts k s s') :
    Copied c s' := by
  intro x' covers' same
  obtain ⟨x, stored, here, owner⟩ := known
  rw [← same] at stored
  obtain ⟨covers, edits⟩ := acts.covered_before stored covers'
  have hid : x.id = c.id := (Store.id_of_item? stored).trans same
  have released : s.Drew k c.id → s.Holds k ⟨c.owner, c.vm⟩ →
    Lingers c.vm s' ∨ Tended c s' := by
    intro drew holds
    have named : (⟨x'.owner, x'.vm⟩ : LockName) = ⟨c.owner, c.vm⟩ := by
      rw [edits.owner, owner, edits.vm, here]
    rcases acts.release covers' (same ▸ drew) (named ▸ holds) with holds' | lingers
    · exact .inr ⟨k, acts.drew drew, named ▸ holds'⟩
    · refine .inl ?_
      rwa [edits.vm, here] at lingers
  rcases h x covers hid with plan | lingers | ⟨j, drew, holds⟩
  · rcases edits.plan with kept | drew
    · exact .inl (kept.trans plan)
    rcases edits.locked with rfl | holds
    · exact .inl plan
    · rw [owner, here] at holds
      exact .inr (released (hid ▸ drew) holds)
  · cases found : s.store.vm? c.vm with
    | none =>
      exact .inr (.inl (still_of_missing (acts.missing found)).amid)
    | some vm =>
      obtain ⟨vm', found', moved⟩ := acts.vm found
      rcases moved with ⟨state, -⟩ | ⟨-, sent⟩
      · refine .inr (.inl (.of_vm? found' fun moves => ?_))
        rw [state] at moves ⊢
        exact lingers vm found moves
      · by_cases moves : vm'.state.InMotion
        · obtain ⟨y, yvm, coversY, drew, holds⟩ := sent moves
          have vid := Store.id_of_vm? found
          have e : y = x := coversY.unique covers (yvm.trans (vid.trans here.symm))
          rw [e, owner, vid] at holds
          exact .inr (released (hid ▸ e ▸ drew) holds)
        · exact .inr (.inl (.of_vm? found' fun moves' => absurd moves' moves))
  · by_cases mine : j = k
    · subst mine
      exact .inr (released drew holds)
    · exact .inr (.inr ⟨j, acts.drew drew, acts.holds mine holds⟩)

theorem Copy.acts {k : Nat} (h : Copy c s) (acts : Acts k s s') : Copy c s' :=
  ⟨h.known.acts acts, h.copied.acts h.known acts⟩

theorem Copy.others (h : Copy c s) (others : Others job c.owner s s') : Copy c s' := by
  refine ⟨h.known.others others, ?_⟩
  cases others with
  | acts _ acts => exact h.copied.acts h.known acts
  | @crash m ne e =>
    intro x covers same
    subst e
    rcases h.copied x covers same with plan | lingers | ⟨k, drew, holds⟩
    · exact .inl plan
    · exact .inr (.inl lingers)
    · exact .inr
        (.inr ⟨k, drew, holds_of_others holds (.crash ne rfl : Others k c.owner s (s.crash m))⟩)

theorem copy_of_openItems (mem : c ∈ s.store.openItems node) : Copy c s := by
  have stored : s.store.item? c.id = some c := (Store.mem_openItems mem).1
  refine ⟨⟨c, stored, rfl, rfl⟩, fun x covers same => .inl ?_⟩
  have here := covers.stored
  rw [same, stored] at here
  cases here
  rfl

/-- Whoever holds the lock and has drawn nothing can rely on the copy. -/
theorem Copy.plan (h : Copy c s) (coherent : Coherent s) (holds : s.Holds job ⟨c.owner, c.vm⟩)
    (idle : ∀ id, ¬ s.Drew job id) (covers : s.store.Covers x) (same : x.id = c.id) :
    x.plan = c.plan ∨ Lingers c.vm s := by
  rcases h.copied x covers same with plan | lingers | ⟨k, drew, theirs⟩
  · exact .inl plan
  · exact .inr lingers
  · cases coherent.exclusive theirs holds
    exact absurd drew (idle _)

theorem item?_of_others (holds : s.Holds job ⟨c.owner, c.vm⟩) (known : Known c s)
    (coherent : Coherent s) (others : Others job c.owner s s') :
    s'.store.item? c.id = s.store.item? c.id := by
  cases others with
  | crash _ e => rw [e]; rfl
  | acts ne acts =>
    obtain ⟨x, stored, here, owner⟩ := known
    obtain ⟨x', stored', edits⟩ := acts.item stored
    rcases edits.locked with rfl | theirs
    · rw [stored, stored']
    · rw [here, owner] at theirs
      exact absurd (coherent.exclusive theirs holds) ne

end Concurrent
end ControlPlane
