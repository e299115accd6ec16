import CloudDrive.Foundation.Table
import CloudDrive.Foundation.Forest
import CloudDrive.Foundation.ParentTable
import CloudDrive.Foundation.Levels
import CloudDrive.Foundation.Outcome
import CloudDrive.Foundation.Execution
import CloudDrive.Foundation.Ledger
import CloudDrive.Foundation.Interleaving
import CloudDrive.Foundation.Interruption
import CloudDrive.Foundation.Paths
import CloudDrive.Foundation.Patterns
import CloudDrive.Foundation.Propagation
import CloudDrive.Models
import CloudDrive.Database
import CloudDrive.Names
import CloudDrive.Permission
import CloudDrive.Drive
import CloudDrive.Users
import CloudDrive.Share
import CloudDrive.Trash
import CloudDrive.Upload
import CloudDrive.Upload.Effects
import CloudDrive.Snapshot
import CloudDrive.Snapshot.Retention
import CloudDrive.Snapshot.Pruning
import CloudDrive.Snapshot.Restoring
import CloudDrive.Snapshot.Effects
import CloudDrive.Operation
import CloudDrive.Drive.Tree
import CloudDrive.Drive.Browsing
import CloudDrive.Drive.MoveRequests
import CloudDrive.Drive.ConcurrentMoves
import CloudDrive.Permission.Containment
import CloudDrive.Permission.Resolution
import CloudDrive.Trash.Emptying
import CloudDrive.Storage.References
import CloudDrive.Upload.Authorization
import CloudDrive.Upload.SessionRequests
import CloudDrive.Upload.ConcurrentSession
import CloudDrive.Snapshot.SafetySnapshot
import CloudDrive.Snapshot.Reparenting
import CloudDrive.PublicShare
import CloudDrive.PublicShare.Lifetime
import CloudDrive.PublicShare.Subtree
import CloudDrive.PublicShare.Resolution
import CloudDrive.PublicShare.Throttle
import CloudDrive.Storage.Collection
import CloudDrive.Snapshot.Identity
import CloudDrive.Storage.Commands
import CloudDrive.Trash.Interrupted
import CloudDrive.Upload.Interrupted
import CloudDrive.Snapshot.SiblingNames
import CloudDrive.Snapshot.ParentsFirst
import CloudDrive.Snapshot.Mirroring
import CloudDrive.Assistant.SkillInput
import CloudDrive.Assistant.Values
import CloudDrive.Assistant.Workflow
import CloudDrive.Assistant.Executor
import CloudDrive.Assistant.WorkflowService
import CloudDrive.Assistant.ConfirmationGate
import CloudDrive.Assistant.ConcurrentConfirm
import CloudDrive.Auth
import CloudDrive.Auth.RefreshRequests
import CloudDrive.Auth.SingleUse
import CloudDrive.Auth.TokenClient
import CloudDrive.Storage.Local
import CloudDrive.Upload.Chunks
import CloudDrive.Upload.Assembly
import CloudDrive.Storage.BlobSizes
import CloudDrive.Snapshot.Reclaimable
import CloudDrive.Foundation.Groups
import CloudDrive.Snapshot.SpaceAccounting
import CloudDrive.Upload.ChunkedUpload
import CloudDrive.Upload.RoundTrip
import CloudDrive.Foundation.Totals
import CloudDrive.Upload.Accounting
import CloudDrive.Upload.QuotaCeiling
import CloudDrive.Upload.Reservation
import CloudDrive.Upload.UsedBytes
import CloudDrive.Upload.Recalculation
import CloudDrive.Trash.PermanentDelete
import CloudDrive.Trash.Credits
import CloudDrive.Snapshot.FileBytes
import CloudDrive.Snapshot.Scheduling
import CloudDrive.Snapshot.Periods
import CloudDrive.Snapshot.RestoredRows
import CloudDrive.Snapshot.PartialMirror
import CloudDrive.Snapshot.Reachability
import CloudDrive.Snapshot.Undo
import CloudDrive.Snapshot.Browsing
import CloudDrive.Drive.Listing
import CloudDrive.Drive.Pagination
import CloudDrive.Drive.Confidentiality
import CloudDrive.Download
import CloudDrive.Download.Walk
import CloudDrive.Download.Contents
import CloudDrive.Download.Names
import CloudDrive.Drive.UniqueNames
import CloudDrive.Drive.Numbering
import CloudDrive.Trash.Recovery
import CloudDrive.Drive.CaseVariants
import CloudDrive.Upload.Naming
import CloudDrive.Upload.DeclaredSize
import CloudDrive.Upload.OversizedChunk
import CloudDrive.Drive.Visibility
import CloudDrive.Drive.Collaborators
import CloudDrive.Assistant.Privacy
import CloudDrive.Assistant.ModelRouter
import CloudDrive.Assistant.PlanValidation
import CloudDrive.Assistant.FailureReport
import CloudDrive.Assistant.FailureIsolation
import CloudDrive.Assistant.Selection
import CloudDrive.Assistant.ChatResponses
import CloudDrive.Upload.ServiceRequests
import CloudDrive.Upload.ChunkEffects
import CloudDrive.Upload.ChunkInvariant
import CloudDrive.Upload.ChunkLeaks
import CloudDrive.Assistant.ObservedTargets
import CloudDrive.ExternalModel.Connections
import CloudDrive.Search.Indexing
import CloudDrive.Assistant.Recombination
import CloudDrive.Assistant.SelectionExpansion
import CloudDrive.Assistant.Fanout
import CloudDrive.Assistant.Planner
import CloudDrive.Upload.UploadLoops
import CloudDrive.Upload.FolderUpload
import CloudDrive.Assistant.OrganizeByType
import CloudDrive.Snapshot.DescendantClosure
import CloudDrive.Assistant.ArtifactStripping
import CloudDrive.Upload.UploadQueue
import CloudDrive.Assistant.ContextTrimming
import CloudDrive.Storage.Durability
import CloudDrive.Download.Files
import CloudDrive.Permission.WriteIsolation
import CloudDrive.Foundation.RoseTree
import CloudDrive.Assistant.CodeGuard
import CloudDrive.Assistant.Manifest
import CloudDrive.Assistant.Codegen
import CloudDrive.Assistant.SkillLifecycle
import CloudDrive.Assistant.SkillConsent
import CloudDrive.Search.Semantic
