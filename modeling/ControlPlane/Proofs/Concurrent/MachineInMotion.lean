import ControlPlane.Proofs.Concurrent.SharedState
import ControlPlane.Proofs.Store.Transactions
import ControlPlane.Proofs.Work.LockExclusion

/-!
# Machines in motion

A machine that an operation has sent on its way is covered by an open item of its own, which the
index names. While it migrates, the item says from where and to where, and the record still names
the host that it leaves.
-/

namespace ControlPlane
open Work

def State.InMotion (s : State) : Prop := s = starting ∨ s = stopping ∨ s = migrating

instance (s : State) : Decidable s.InMotion := by unfold State.InMotion; infer_instance

/-- An item of a machine is open, and the index names it. -/
structure Store.Covers (s : Store) (x : Item) : Prop where
  stored : s.item? x.id = some x
  isOpen : x.Open
  slot : s.openItem? x.vm = some x.id

namespace Store
variable {s : Store} {x y : Item}

theorem Covers.unique (hx : s.Covers x) (hy : s.Covers y) (same : x.vm = y.vm) : x = y := by
  have ids : x.id = y.id := by
    have := hx.slot
    rw [same, hy.slot] at this
    exact (Option.some.inj this).symm
  have := hx.stored
  rw [ids, hy.stored] at this
  exact (Option.some.inj this).symm

end Store

namespace Concurrent

/-- The item tells the way of a machine that migrates. -/
def Leads (x : Item) (host : Option HostId) : Prop :=
  ∃ p, x.plan = some p ∧ host = some p.source ∧ p.source ≠ p.destination

def Amid (v : VmId) (P : State → UInt64 → Prop) (s : Shared) : Prop :=
  ∀ vm, s.store.vm? v = some vm → vm.state.InMotion → P vm.state vm.version

abbrev Never (_ : State) (_ : UInt64) : Prop := False

def Still (v : VmId) : Shared → Prop := Amid v Never

def Lingers (v : VmId) : Shared → Prop := Amid v fun state _ => state ≠ .migrating

/-- What holds at all times, whoever is at work. -/
structure Coherent (s : Shared) : Prop where
  locks : s.locks.Sound
  stamps : ∀ {id i j}, s.Drew i id → s.Drew j id → i = j
  moving : ∀ {v vm}, s.store.vm? v = some vm → vm.state.InMotion →
    ∃ x, x.vm = v ∧ s.store.Covers x ∧ (vm.state = .migrating → Leads x vm.host)

variable {s s' : Shared} {v : VmId} {vm : Vm} {P Q : State → UInt64 → Prop}

theorem Amid.mono (h : Amid v P s) (le : ∀ state version, P state version → Q state version) :
    Amid v Q s := fun vm stored moves => le _ _ (h vm stored moves)

theorem Still.amid (h : Still v s) : Amid v P s := Amid.mono h fun _ _ => False.elim

theorem Amid.of_vm? (here : s.store.vm? v = some vm)
    (h : vm.state.InMotion → P vm.state vm.version) :
    Amid v P s := by
  intro other stored moves
  rw [here] at stored
  cases stored
  exact h moves

theorem still_of_missing (missing : s.store.vm? v = none) : Still v s := by
  intro vm stored
  rw [missing] at stored
  cases stored

theorem Coherent.exclusive (h : Coherent s) {i j : Nat} {name : LockName} (mine : s.Holds i name)
    (theirs : s.Holds j name) : i = j := h.locks.exclusive mine theirs

theorem Coherent.still_of_free (h : Coherent s) (free : s.store.openItem? v = none) :
    Still v s := by
  intro vm stored moves
  obtain ⟨x, rfl, covers, -⟩ := h.moving stored moves
  rw [covers.slot] at free
  cases free

theorem Coherent.crash (h : Coherent s) (node : NodeId) : Coherent (s.crash node) :=
  ⟨h.locks.dropWhere _, h.stamps, h.moving⟩

theorem Coherent.enter (h : Coherent s) (job : Nat) (r : Control.Request) :
    Coherent (s.enter job r) := by
  cases r with
  | lock name => exact ⟨h.locks.claim job name, h.stamps, h.moving⟩
  | _ => exact h

end Concurrent
end ControlPlane
