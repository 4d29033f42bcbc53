import ControlPlane.Table

/-! Identifiers. Every kind of thing has identifiers of its own, so that a host is never taken for
a volume, while all of them are 64-bit words. -/

namespace ControlPlane

inductive Entity where
  | vm | host | cluster | pod | zone | pool | volume | account | node
deriving DecidableEq, Repr

/-- An identifier of one kind of thing. -/
@[ext] structure Id (e : Entity) where
  val : UInt64
deriving DecidableEq, Repr

abbrev VmId := Id .vm
abbrev HostId := Id .host
abbrev ClusterId := Id .cluster
abbrev PodId := Id .pod
abbrev ZoneId := Id .zone
abbrev PoolId := Id .pool
abbrev VolumeId := Id .volume
abbrev AccountId := Id .account
/-- A management process; stamped on the work it owns. -/
abbrev NodeId := Id .node

namespace Id
variable {e : Entity}

/-- The identifier as a number, which is also its place in a table. -/
def key (i : Id e) : Nat := i.val.toNat

def ofNat (n : Nat) : Id e := ⟨UInt64.ofNat n⟩

instance : ToString (Id e) := ⟨fun i => toString i.key⟩
instance : Keyed (Id e) := ⟨key⟩
instance : Inhabited (Id e) := ⟨⟨0⟩⟩

theorem key_injective {i j : Id e} (h : i.key = j.key) : i = j :=
  Id.ext (UInt64.toNat_inj.1 h)

@[simp] theorem key_inj {i j : Id e} : i.key = j.key ↔ i = j :=
  ⟨key_injective, congrArg key⟩

end Id
end ControlPlane
