import ControlPlane.Agent.Command
import ControlPlane.Agent.Dispatch
import ControlPlane.Agent.Envelope
import ControlPlane.Agent.Registry
import ControlPlane.Agent.Sending
import ControlPlane.Codec.Basic
import ControlPlane.Codec.Hex
import ControlPlane.Codec.Record
import ControlPlane.Codec.Store
import ControlPlane.CommandLine
import ControlPlane.Config.Basic
import ControlPlane.Config.Document
import ControlPlane.Config.Environment
import ControlPlane.Control
import ControlPlane.Enumeration
import ControlPlane.Failure
import ControlPlane.Id
import ControlPlane.Inventory
import ControlPlane.Json.Basic
import ControlPlane.Json.Command
import ControlPlane.Json.Config
import ControlPlane.Json.Record
import ControlPlane.Lifecycle
import ControlPlane.Main
import ControlPlane.Migration.Compute
import ControlPlane.Migration.Plan
import ControlPlane.Migration.Precondition
import ControlPlane.Migration.Record
import ControlPlane.Migration.Storage
import ControlPlane.Operation.Basic
import ControlPlane.Operation.Local
import ControlPlane.Operation.Migrate
import ControlPlane.Operation.Scale
import ControlPlane.Operation.Start
import ControlPlane.Operation.Stop
import ControlPlane.Placement.Basic
import ControlPlane.Placement.RetryLoop
import ControlPlane.Program
import ControlPlane.Proofs.Agent.AwaitedAnswers
import ControlPlane.Proofs.Agent.Correlation
import ControlPlane.Proofs.Agent.FormerSessions
import ControlPlane.Proofs.Agent.Links
import ControlPlane.Proofs.Agent.QueueOrder
import ControlPlane.Proofs.Agent.Queues
import ControlPlane.Proofs.Agent.Traffic
import ControlPlane.Proofs.Codec.Framing
import ControlPlane.Proofs.Codec.RoundTrip
import ControlPlane.Proofs.Concurrent.Contract
import ControlPlane.Proofs.Concurrent.ContractInSystem
import ControlPlane.Proofs.Concurrent.ControlPlaneJobs
import ControlPlane.Proofs.Concurrent.CrashSafety
import ControlPlane.Proofs.Concurrent.FurtherContract
import ControlPlane.Proofs.Concurrent.IsolatedMachine
import ControlPlane.Proofs.Concurrent.JobDiscipline
import ControlPlane.Proofs.Concurrent.MachineInMotion
import ControlPlane.Proofs.Concurrent.QuietRequests
import ControlPlane.Proofs.Concurrent.RecordedAnswers
import ControlPlane.Proofs.Concurrent.Schedule
import ControlPlane.Proofs.Concurrent.SharedState
import ControlPlane.Proofs.Concurrent.SingleWriter
import ControlPlane.Proofs.Concurrent.StaleReads
import ControlPlane.Proofs.Concurrent.System
import ControlPlane.Proofs.Config.Documents
import ControlPlane.Proofs.Config.Waits
import ControlPlane.Proofs.Logs
import ControlPlane.Proofs.Migration.CrossCluster
import ControlPlane.Proofs.Migration.FailedMigration
import ControlPlane.Proofs.Migration.GuestLimit
import ControlPlane.Proofs.Migration.Outcomes
import ControlPlane.Proofs.Migration.Progress
import ControlPlane.Proofs.Migration.VolumePools
import ControlPlane.Proofs.Operation.AnnouncedCommands
import ControlPlane.Proofs.Operation.Calls
import ControlPlane.Proofs.Operation.CommandLetters
import ControlPlane.Proofs.Operation.ConsentedRecords
import ControlPlane.Proofs.Operation.Endings
import ControlPlane.Proofs.Operation.Frame
import ControlPlane.Proofs.Operation.GuruConsent
import ControlPlane.Proofs.Operation.ItemOutcome
import ControlPlane.Proofs.Operation.ItemStep
import ControlPlane.Proofs.Operation.MoveDiscipline
import ControlPlane.Proofs.Operation.OperationDiscipline
import ControlPlane.Proofs.Operation.OutwardRequests
import ControlPlane.Proofs.Operation.OwnItem
import ControlPlane.Proofs.Operation.PermittedWrites
import ControlPlane.Proofs.Operation.PlannedMoves
import ControlPlane.Proofs.Operation.RecordedTransitions
import ControlPlane.Proofs.Operation.WriteAhead
import ControlPlane.Proofs.Placement.AccountBalance
import ControlPlane.Proofs.Placement.LoopRule
import ControlPlane.Proofs.Placement.RevertedCharges
import ControlPlane.Proofs.Placement.TriedHosts
import ControlPlane.Proofs.Recovery.BrokenMigration
import ControlPlane.Proofs.Recovery.Convergence
import ControlPlane.Proofs.Recovery.ListedItems
import ControlPlane.Proofs.Recovery.LostAnswer
import ControlPlane.Proofs.Recovery.OtherMachines
import ControlPlane.Proofs.Recovery.PreparedDestination
import ControlPlane.Proofs.Recovery.ProbeAnswers
import ControlPlane.Proofs.Recovery.ScanAmongScans
import ControlPlane.Proofs.Recovery.ScanDiscipline
import ControlPlane.Proofs.Recovery.Settlement
import ControlPlane.Proofs.Recovery.StaleItems
import ControlPlane.Proofs.Recovery.VisitedMachine
import ControlPlane.Proofs.Scale.AttemptLimits
import ControlPlane.Proofs.Scale.Charges
import ControlPlane.Proofs.Scale.Outcomes
import ControlPlane.Proofs.Start.Attempts
import ControlPlane.Proofs.Start.Credentials
import ControlPlane.Proofs.Start.DismissedHosts
import ControlPlane.Proofs.Start.Outcomes
import ControlPlane.Proofs.Store.MovedVolumes
import ControlPlane.Proofs.Store.OpenItemIndex
import ControlPlane.Proofs.Store.Transactions
import ControlPlane.Proofs.Store.VolumeTours
import ControlPlane.Proofs.Text.Durations
import ControlPlane.Proofs.Text.Numerals
import ControlPlane.Proofs.Transition.LockedTransition
import ControlPlane.Proofs.Transition.MachineHistory
import ControlPlane.Proofs.Transition.OtherWrites
import ControlPlane.Proofs.Transition.Requests
import ControlPlane.Proofs.Transition.VersionRace
import ControlPlane.Proofs.Work.IdleLocks
import ControlPlane.Proofs.Work.Ledgers
import ControlPlane.Proofs.Work.LockExclusion
import ControlPlane.Proofs.Work.LockHandover
import ControlPlane.Proofs.Work.LockHolders
import ControlPlane.Proofs.Work.LockedRequests
import ControlPlane.Recovery
import ControlPlane.Resources
import ControlPlane.Simulation.Activity
import ControlPlane.Simulation.AgentScript
import ControlPlane.Simulation.Fleet
import ControlPlane.Simulation.Order
import ControlPlane.Simulation.RetryScript
import ControlPlane.Simulation.Sample
import ControlPlane.Simulation.World
import ControlPlane.Span.Basic
import ControlPlane.Span.Phrase
import ControlPlane.Store.Basic
import ControlPlane.Store.Items
import ControlPlane.Store.Transaction
import ControlPlane.Store.Usages
import ControlPlane.Store.Vms
import ControlPlane.Store.Volumes
import ControlPlane.Table
import ControlPlane.Text.Blank
import ControlPlane.Text.Digits
import ControlPlane.Timestamp.Basic
import ControlPlane.Timestamp.Text
import ControlPlane.Toml.Reader
import ControlPlane.Toml.Token
import ControlPlane.Toml.Value
import ControlPlane.Transition
import ControlPlane.Uuid
import ControlPlane.Vm
import ControlPlane.Work.Item
import ControlPlane.Work.Ledger
import ControlPlane.Work.Locks
