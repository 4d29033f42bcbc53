/-! Processor and memory allotments. Sums and differences stay within the range of the words that
hold them. -/

namespace ControlPlane

/-- An amount of processor cores and of memory in megabytes; also a change of such an amount. -/
@[ext] structure Resources where
  cores : UInt32
  memory : UInt64
deriving DecidableEq, Repr

namespace Resources

def zero : Resources := ⟨0, 0⟩

instance : Inhabited Resources := ⟨zero⟩

instance : ToString Resources :=
  ⟨fun r => s!"ComputeResources \x7b cpu_cores: {r.cores}, memory_mb: {r.memory} \x7d"⟩

/-- The sum, or the largest word where the sum exceeds it. -/
def add (a b : Resources) : Resources :=
  ⟨UInt32.ofNat (min (a.cores.toNat + b.cores.toNat) (UInt32.size - 1)),
   UInt64.ofNat (min (a.memory.toNat + b.memory.toNat) (UInt64.size - 1))⟩

/-- The difference, or zero where it would be negative. -/
def sub (a b : Resources) : Resources :=
  ⟨UInt32.ofNat (a.cores.toNat - b.cores.toNat), UInt64.ofNat (a.memory.toNat - b.memory.toNat)⟩

/-- What has to be added to reach a target, if the target is no smaller in any respect and larger
in one. -/
def growth? (current target : Resources) : Option Resources :=
  if target.cores < current.cores ∨ target.memory < current.memory ∨ target = current then none
  else some (target.sub current)

end Resources
end ControlPlane
