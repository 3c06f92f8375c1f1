import Remrun.Lib.Table
import Remrun.Lib.Dict
import Remrun.Lib.Effect
import Remrun.Lib.Transition
import Remrun.Lib.Interleave
import Remrun.Lib.Commits
import Remrun.Lib.Schema
import Remrun.Lib.Register
import Remrun.Lib.Selection
import Remrun.Lib.JsonText
import Remrun.Lib.Base64
import Remrun.Lib.Quoting
import Remrun.Lib.PosixShell
import Remrun.Lib.Search
import Remrun.Lib.Utf8
import Remrun.Lib.Scan
import Remrun.Runner.Store
import Remrun.Runner.Authority
import Remrun.Runner.Participant
import Remrun.Runner.Effects
import Remrun.Runner.Leases
import Remrun.Runner.Grants
import Remrun.Runner.Acceptance
import Remrun.Runner.Protocol
import Remrun.Runner.Fencing
import Remrun.Runner.Epoch
import Remrun.Runner.Provenance
import Remrun.Runner.Enrollment
import Remrun.Runner.EnrollmentSafety
import Remrun.Runner.Resources
import Remrun.Runner.Exclusivity
import Remrun.Runner.Requests
import Remrun.Runner.Replays
import Remrun.Runner.Retries
import Remrun.Reconcile.Manifest
import Remrun.Reconcile.World
import Remrun.Reconcile.TransferPlan
import Remrun.Reconcile.Preflight
import Remrun.Reconcile.Steps
import Remrun.Reconcile.Refusals
import Remrun.Reconcile.Verification
import Remrun.Reconcile.Quiet
import Remrun.Reconcile.Merge
import Remrun.Reconcile.Pullback
import Remrun.Reconcile.PullbackSteps
import Remrun.Reconcile.Edits
import Remrun.Reconcile.Outputs
import Remrun.Reconcile.Baseline
import Remrun.Reconcile.Sync
import Remrun.Reconcile.Interference
import Remrun.Reconcile.Blessing
import Remrun.Reconcile.RootGuards
import Remrun.Reconcile.PlanSafety
import Remrun.Snapshot.Identity
import Remrun.Snapshot.Walk
import Remrun.Snapshot.Catchup
import Remrun.Snapshot.Readers
import Remrun.Snapshot.Planning
import Remrun.Snapshot.RoundTrip
import Remrun.Snapshot.FastForward
import Remrun.Locks.ProjectLock
import Remrun.Locks.Interference
import Remrun.Locks.Programs
import Remrun.Locks.MutualExclusion
import Remrun.Fleet.Database
import Remrun.Fleet.Transitions
import Remrun.Fleet.Targets
import Remrun.Fleet.Calls
import Remrun.Fleet.Moves
import Remrun.Fleet.Fences
import Remrun.Fleet.Submissions
import Remrun.Fleet.Receipts
import Remrun.Fleet.Migrations
import Remrun.Fleet.MigrationSafety
import Remrun.Fleet.Placement
import Remrun.Fleet.Dispatcher
import Remrun.Fleet.Ticks
import Remrun.Fleet.SoloTick
import Remrun.Fleet.Batching
import Remrun.Fleet.Mixtures
import Remrun.Fleet.Verdicts
import Remrun.Fleet.FirstAsker
import Remrun.Fleet.Results
import Remrun.Fleet.Publication
import Remrun.GitSync.Repository
import Remrun.GitSync.Programs
import Remrun.GitSync.Descent
import Remrun.Bootstrap.Environments
import Remrun.Bootstrap.Helper
import Remrun.Bootstrap.Readiness
import Remrun.Durable.Labels
import Remrun.Durable.Launch
import Remrun.Durable.Agreement
import Remrun.Guard.Launch
import Remrun.Guard.Evidence
import Remrun.Sync.Roots
import Remrun.Presence.Policy
import Remrun.Presence.Schedule
import Remrun.Snapshot.Inclusions
import Remrun.State.Retention
import Remrun.State.Pruning
import Remrun.Frames.Wire
import Remrun.Frames.Delimiting
import Remrun.Frames.TarFrame
import Remrun.Frames.Staging
import Remrun.Frames.TarContract
import Remrun.Fleet.Executor
import Remrun.Fleet.Reservations
import Remrun.Reconcile.Listed
import Remrun.Reconcile.Reclassify
import Remrun.Reconcile.Applied
import Remrun.Reconcile.Repeat
import Remrun.Fleet.Namespaces
import Remrun.Shell.PowerShell
import Remrun.Actions.Invocations
import Remrun.Fleet.Profiles
import Remrun.Durable.Spool
import Remrun.Durable.Finalization
import Remrun.Durable.Capping
import Remrun.Shell.Posix
import Remrun.Resources.Conservative
import Remrun.State.LogCap
import Remrun.Reconcile.Keys
import Remrun.Fleet.Rendering
import Remrun.Transfer.Batched
import Remrun.Fleet.Escapes
import Remrun.Fleet.DeliverySafety
