import OpenTulid.Proofs.Terminal
import OpenTulid.Proofs.Leases
import OpenTulid.Proofs.LeaseCapacity
import OpenTulid.Proofs.SingleAcceptance
import OpenTulid.Proofs.Stranded
import OpenTulid.Proofs.Overlap
import OpenTulid.Proofs.Outcome
import OpenTulid.Proofs.EventLog
import OpenTulid.Proofs.VerificationCopy
import OpenTulid.Proofs.Walk
import OpenTulid.Proofs.Delivery
import OpenTulid.Proofs.Loadable
import OpenTulid.Proofs.DerivedTasks
import OpenTulid.Proofs.RequestBody
import OpenTulid.Proofs.Attempts
import OpenTulid.Proofs.SourceRevisions
import OpenTulid.Proofs.WorkflowSchema
import OpenTulid.Proofs.TerminalStates
import OpenTulid.Proofs.BoardMoves
import OpenTulid.Proofs.WorkflowCache
import OpenTulid.Proofs.FrozenRoundTrip
import OpenTulid.Proofs.Separation
import OpenTulid.Proofs.StandardSound
import OpenTulid.Proofs.Background
import OpenTulid.Proofs.SourceIdentity
import OpenTulid.Proofs.WorkflowDigest
import OpenTulid.Proofs.PromptBudget
import OpenTulid.Proofs.PromptPackets
import OpenTulid.Proofs.Verifier
import OpenTulid.Proofs.Containment
import OpenTulid.Proofs.Promotion
import OpenTulid.Proofs.ReviewEvidence
import OpenTulid.Proofs.Limits
import OpenTulid.Proofs.PreparedWrites
import OpenTulid.Proofs.Boards
import OpenTulid.Proofs.ModelProxy
import OpenTulid.Proofs.JobStore
import OpenTulid.Proofs.Journals
import OpenTulid.Proofs.Repair
import OpenTulid.Adapters.MoveTask
import OpenTulid.Proofs.BoardLines
import OpenTulid.Proofs.ProjectLoading
import OpenTulid.Proofs.MoveTask
import OpenTulid.Proofs.TrimmedText
import OpenTulid.Proofs.AddedProject
import OpenTulid.Proofs.CreatedNote
import OpenTulid.Proofs.CreateTask
import OpenTulid.Proofs.WriteTask
import OpenTulid.Lib.Glob
import OpenTulid.Proofs.Gitignore
import OpenTulid.Proofs.ContainerChecks
import OpenTulid.Proofs.Preview
