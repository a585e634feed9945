import ContentTyping.Profile.Catalog
import ContentTyping.Profile.Declaration
import ContentTyping.Tree.Edit
import ContentTyping.Tree.Path
import ContentTyping.Store.Memory
import ContentTyping.Store.Query
import ContentTyping.Store.Json
import ContentTyping.Engine.Assignment
import ContentTyping.Engine.Retyping
import ContentTyping.Engine.Typing
import ContentTyping.Tree.Json
import ContentTyping.Engine.Json
import ContentTyping.Store.Choice
import ContentTyping.FileSystem.Json
import ContentTyping.Scan.Build
import ContentTyping.Config.Load
import ContentTyping.Main
import ContentTyping.Proofs.Tree.ActiveSubtree
import ContentTyping.Proofs.Plan.Viability
import ContentTyping.Proofs.Plan.FirstChoice
import ContentTyping.Proofs.Plan.Outline
import ContentTyping.Proofs.Tree.Agreement
import ContentTyping.Proofs.Tree.Growth
import ContentTyping.Proofs.Validation.Defects
import ContentTyping.Proofs.Store.Faults
import ContentTyping.Proofs.Engine.Assignment
import ContentTyping.Proofs.Validation.RecordedChoice
import ContentTyping.Proofs.Engine.KnownObjects
import ContentTyping.Proofs.Engine.Closure
import ContentTyping.Proofs.Plan.Recursion
import ContentTyping.Proofs.Plan.LeastTyping
import ContentTyping.Proofs.Engine.Completeness
import ContentTyping.Proofs.Plan.Pcdm
import ContentTyping.Proofs.Engine.PcdmAssignment
import ContentTyping.Proofs.Tree.Edits
import ContentTyping.Proofs.Engine.DeclaredTypes
import ContentTyping.Proofs.Engine.ObjectsInLine
import ContentTyping.Proofs.Engine.SyncingInLine
import ContentTyping.Proofs.Engine.Rewriting
import ContentTyping.Proofs.Engine.Operations
import ContentTyping.Proofs.Engine.EditsInLine
import ContentTyping.Proofs.Engine.Sessions
import ContentTyping.Proofs.Validation.Neighbours
import ContentTyping.Proofs.Engine.Transforms
import ContentTyping.Proofs.Validation.PcdmEdges
import ContentTyping.Proofs.Engine.PcdmTransforms
import ContentTyping.Proofs.Tree.Surroundings
import ContentTyping.Proofs.Validation.Locality
import ContentTyping.Proofs.Engine.Revalidation
import ContentTyping.Proofs.Plan.BestEffort
import ContentTyping.Proofs.Validation.PartialChoice
import ContentTyping.Proofs.Engine.PartialTyping
import ContentTyping.Proofs.Engine.Settled
import ContentTyping.Proofs.Engine.Rollback
import ContentTyping.Proofs.Engine.Repetition
import ContentTyping.Proofs.Engine.IgnoredSubtrees
import ContentTyping.Proofs.Engine.NodeCalls
import ContentTyping.Proofs.Tree.NodeOrigins
import ContentTyping.Proofs.Engine.Histories
import ContentTyping.Proofs.Engine.FileKinds
import ContentTyping.Proofs.Engine.HandleOrigins
import ContentTyping.Proofs.Engine.TypingOnly
import ContentTyping.Proofs.FileSystem.Entries
import ContentTyping.Proofs.Scan.Listing
import ContentTyping.Proofs.Scan.Intake
import ContentTyping.Proofs.Scan.Growth
import ContentTyping.Proofs.Scan.Mirror
import ContentTyping.Proofs.Text.Utf8
import ContentTyping.Proofs.Text.Digits
import ContentTyping.Proofs.Json.Reading
import ContentTyping.Proofs.Time.Calendar
import ContentTyping.Proofs.Time.Written
import ContentTyping.Proofs.Json.Records
import ContentTyping.Proofs.Tree.Written
import ContentTyping.Proofs.Tree.Rereading
import ContentTyping.Proofs.Engine.BlindToObjects
import ContentTyping.Proofs.Store.SameClasses
import ContentTyping.Proofs.Tree.Renaming
import ContentTyping.Proofs.Engine.Lockstep
import ContentTyping.Proofs.Engine.OperationsInStep
import ContentTyping.Proofs.Engine.TwoStores
import ContentTyping.Proofs.Iri.Absolute
import ContentTyping.Proofs.Engine.TransformEffects
import ContentTyping.Proofs.Plan.Diagnosis
import ContentTyping.Proofs.Validation.Culprit
import ContentTyping.Proofs.Engine.FailureReports
import ContentTyping.Proofs.Scan.Names
import ContentTyping.Proofs.CommandLine.Verdicts
import ContentTyping.Proofs.Profile.Closed
import ContentTyping.Proofs.Profile.Declarations
import ContentTyping.Proofs.Engine.InRange
import ContentTyping.Proofs.Engine.Eligibility
import ContentTyping.Proofs.Tree.Preorder
import ContentTyping.Proofs.Tree.ExactCopies
import ContentTyping.Proofs.Tree.ExactMoves
import ContentTyping.Proofs.Tree.Handles
import ContentTyping.Proofs.Tree.ExactRemoval
import ContentTyping.Proofs.Profile.Cardinality
import ContentTyping.Proofs.Tree.Paths
import ContentTyping.Proofs.Scan.NodePaths
import ContentTyping.Proofs.Store.Calls
import ContentTyping.Proofs.Store.Counts
import ContentTyping.Proofs.Store.Classes
import ContentTyping.Proofs.Scan.Rooted
import ContentTyping.Proofs.Engine.RefusedNames
import ContentTyping.Proofs.Engine.LooseIdentifiers
import ContentTyping.Proofs.Config.RoundTrip
import ContentTyping.Proofs.Tree.Walks
import ContentTyping.Proofs.Tree.SlotIndex
import ContentTyping.Proofs.Scan.Checksums
