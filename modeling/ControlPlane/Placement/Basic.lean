import ControlPlane.Id
import ControlPlane.Resources

/-! Placement: what a host must satisfy, which hosts are ruled out, and where an attempt goes. -/

namespace ControlPlane.Placement

/-- What a candidate host must satisfy. -/
structure Wanted where
  zone : ZoneId
  pod : Option PodId
  cluster : Option ClusterId
  capability : String
  /-- The host to take if it can be had. -/
  preferred : Option HostId
deriving DecidableEq, Repr

/-- The hosts that are ruled out. -/
abbrev Exclusions := Table HostId

namespace Exclusions

def rulesOut (excluded : Exclusions) (host : HostId) : Bool := excluded.contains host.key

end Exclusions

/-- Where an attempt goes. -/
inductive Target where
  /-- The machine stays where it is. -/
  | inPlace (host : HostId)
  /-- The machine has to move first. -/
  | migrate (destination : HostId)
deriving DecidableEq, Repr

def Target.host : Target → HostId
  | inPlace host => host
  | migrate destination => destination

/-- What an attempt is for: a machine that is to grow, on the account that pays for it. -/
structure Growth where
  vm : VmId
  account : AccountId
  current : Option HostId
  wanted : Wanted
  delta : Resources
deriving DecidableEq, Repr

end ControlPlane.Placement
