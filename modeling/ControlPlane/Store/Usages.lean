import ControlPlane.Store.Basic

/-! What accounts have in use. A charge is speculative: it can be taken back. -/

namespace ControlPlane.Store

def setUsage (s : Store) (account : AccountId) (resources : Resources) : Store :=
  { s with usage := s.usage.insert ⟨account, resources⟩ }

def charge (s : Store) (account : AccountId) (delta : Resources) : Store :=
  s.setUsage account ((s.usageOf account).add delta)

def credit (s : Store) (account : AccountId) (delta : Resources) : Store :=
  s.setUsage account ((s.usageOf account).sub delta)

theorem usageOf_setUsage (s : Store) (account other : AccountId) (resources : Resources) :
    (s.setUsage account resources).usageOf other =
      if account = other then resources else s.usageOf other := by
  simp only [usageOf, setUsage, Table.get?_insert, Keyed.key, Id.key_inj]
  split <;> rfl

end ControlPlane.Store
