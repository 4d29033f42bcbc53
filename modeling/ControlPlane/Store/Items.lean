import ControlPlane.Failure
import ControlPlane.Store.Basic

/-! Writing work items. The index of open items is written together with the items, so that a
machine has an entry there exactly while an item of its own is open. -/

namespace ControlPlane.Store
open Work

/-- Takes an item out of the index, if it is there. -/
def freeSlot (s : Store) (item : Item) : Table Slot :=
  if s.openItem? item.vm = some item.id then s.active.erase item.vm.key else s.active

/-- Writes an item, over the one with its identifier. -/
def putItem (s : Store) (item : Item) : Store := { s with work := s.work.insert item }

/-- Opens an item, unless the machine has an open one. -/
def openItem (s : Store) (item : Item) : Except Failure Unit × Store :=
  match s.openItem? item.vm with
  | some other => (.error (.conflict item.vm (.workOpen other)), s)
  | none =>
    (.ok (), { s.putItem item with active := s.active.insert ⟨item.vm, item.id⟩ })

/-- Writes down how the operation of an item has ended. -/
def closeItem (s : Store) (item : Item) (step : Step) (now : Timestamp) : Store :=
  let closed := { (s.item? item.id).getD item with step := step, updated := now }
  { s.putItem closed with active := s.freeSlot closed }

/-- Adds a plan to an item. -/
def planItem (s : Store) (item : Item) (plan : Plan) (now : Timestamp) : Store :=
  s.putItem { (s.item? item.id).getD item with plan := some plan, updated := now }

/-- Closes an item on behalf of an operation that is gone, if the item is still open. -/
def recoverItem (s : Store) (id : Uuid) (step : Step) (now : Timestamp) : Bool × Store :=
  match s.item? id with
  | some item =>
    if item.Open then
      let closed := { item with step := step, updated := now }
      (true, { s.putItem closed with active := s.freeSlot closed })
    else (false, s)
  | none => (false, s)

end ControlPlane.Store
