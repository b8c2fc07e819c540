import Graft.Bench.Description
import Graft.Main
import Graft.Proofs.Checkpoint.Codec
import Graft.Proofs.Checkpoint.Interrupted
import Graft.Proofs.Checkpoint.Saved
import Graft.Proofs.Code.Agreement
import Graft.Proofs.Code.Boundary
import Graft.Proofs.Code.Bounds
import Graft.Proofs.Code.Contents
import Graft.Proofs.Code.Cover
import Graft.Proofs.Code.DirectiveLine
import Graft.Proofs.Code.Headers
import Graft.Proofs.Code.Located
import Graft.Proofs.Code.Lookahead
import Graft.Proofs.Code.Masking
import Graft.Proofs.Code.Naming
import Graft.Proofs.Code.Nesting
import Graft.Proofs.Code.Positions
import Graft.Proofs.Code.Relocation
import Graft.Proofs.Code.Retained
import Graft.Proofs.Code.Wrapping
import Graft.Proofs.Compiler.Cache
import Graft.Proofs.Compiler.Complaints
import Graft.Proofs.Compiler.Diagnostic
import Graft.Proofs.Files.Cut
import Graft.Proofs.Files.Names
import Graft.Proofs.Files.Step
import Graft.Proofs.Files.Tree
import Graft.Proofs.Generation.Reply
import Graft.Proofs.Instant.Calendar
import Graft.Proofs.Instant.Reading
import Graft.Proofs.Json.Reading
import Graft.Proofs.Report.Ending
import Graft.Proofs.Run.Isolation
import Graft.Proofs.Run.Reports
import Graft.Proofs.Run.Written
import Graft.Proofs.Store.Files
import Graft.Proofs.Store.Interrupted
import Graft.Proofs.Store.Listing
import Graft.Proofs.Store.Shelves
import Graft.Proofs.Validation.Shape
import Graft.Proofs.Variant.Merging
import Graft.Proofs.Variant.Name
import Graft.Proofs.Variant.Segments
import Graft.Proofs.Work.Budget
import Graft.Proofs.Work.Exchanges
import Graft.Proofs.Work.Exhausted
import Graft.Proofs.Work.Fresh
import Graft.Proofs.Work.Grounds
import Graft.Proofs.Work.Lineage
import Graft.Proofs.Work.Noted
import Graft.Proofs.Work.Outcome
import Graft.Proofs.Work.Reentry
import Graft.Proofs.Work.Tried
