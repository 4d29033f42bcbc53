import ControlPlane.Migration.Compute
import ControlPlane.Migration.Storage

/-! Moving a running machine to another host, with volumes where the request names some. -/

namespace ControlPlane.Operation

def migrateBody (ctx : Context) (plan : Plan) : Body Vm := do
  let (vm, targets) ← rejecting (Migration.check plan)
  if ¬ plan.MovesStorage then Migration.compute ctx vm plan
  else if plan.crossCluster then Migration.acrossClusters ctx vm plan targets
  else Migration.withinCluster ctx vm plan targets

def migrate (ctx : Context) (request : Migration.Request) : Procedure Vm := do
  let plan ← Migration.plan request
  let operation := if plan.MovesStorage then .migrateWithStorage else .migrate
  underWork ctx request.vm operation (some plan) fun _ => migrateBody ctx plan

end ControlPlane.Operation
