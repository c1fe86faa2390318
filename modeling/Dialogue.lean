import Dialogue.Main
import Dialogue.Reply.Chance
import Dialogue.Proofs.Order
import Dialogue.Proofs.Numeral
import Dialogue.Proofs.Walk
import Dialogue.Proofs.Owner
import Dialogue.Proofs.Nearest
import Dialogue.Proofs.Choice
import Dialogue.Proofs.Inheritance
import Dialogue.Proofs.Process
import Dialogue.Proofs.Reply
import Dialogue.Proofs.Trial
import Dialogue.Proofs.Depth
import Dialogue.Proofs.Rendering
import Dialogue.Proofs.LoadOrder
import Dialogue.Proofs.Snapshot
import Dialogue.Proofs.OwnText
import Dialogue.Proofs.Trim
import Dialogue.Proofs.Nesting
import Dialogue.Proofs.Source
import Dialogue.Proofs.Life
import Dialogue.Proofs.Checked
import Dialogue.Proofs.HotLoad
import Dialogue.Proofs.Pairs
import Dialogue.Proofs.Live
import Dialogue.Proofs.Brackets
import Dialogue.Proofs.Trigger
import Dialogue.Proofs.Accepted
import Dialogue.Proofs.Users
import Dialogue.Proofs.Usage
import Dialogue.Proofs.Remembered
import Dialogue.Proofs.Frozen
import Dialogue.Proofs.Isolation
import Dialogue.Proofs.Captured
import Dialogue.Proofs.Inert
import Dialogue.Proofs.Passes
import Dialogue.Proofs.Echo
import Dialogue.Proofs.Lines
import Dialogue.Proofs.Comments
import Dialogue.Proofs.Words
import Dialogue.Proofs.Printing
import Dialogue.Proofs.Mirror
import Dialogue.Proofs.LastMatch
import Dialogue.Proofs.Settled
import Dialogue.Proofs.Aside
import Dialogue.Proofs.PassThrough
import Dialogue.Proofs.Redirect
import Dialogue.Proofs.Handlers
import Dialogue.Proofs.ReadBack
import Dialogue.Proofs.Features
import Dialogue.Proofs.Seen
import Dialogue.Proofs.Scan
import Dialogue.Proofs.Trails
import Dialogue.Proofs.Following
import Dialogue.Proofs.Chain
import Dialogue.Proofs.Record
import Dialogue.Proofs.Lowered
import Dialogue.Proofs.Interpolated
import Dialogue.Proofs.Limits
import Dialogue.Proofs.Layers
import Dialogue.Proofs.Commands
import Dialogue.Proofs.Folded
import Dialogue.Proofs.Lots
import Dialogue.Proofs.Annotated
import Dialogue.Proofs.Member
import Dialogue.Proofs.Drafts
import Dialogue.Proofs.Neighbors
import Dialogue.Proofs.Canonical
import Dialogue.Proofs.Courses
import Dialogue.Proofs.Openers
import Dialogue.Proofs.Chunks
import Dialogue.Proofs.Meaning
import Dialogue.Proofs.Stars
import Dialogue.Proofs.Decomposition
import Dialogue.Proofs.Verbatim
import Dialogue.Proofs.Clauses
import Dialogue.Proofs.OptionalWords
import Dialogue.Proofs.Tags
import Dialogue.Proofs.Forest
import Dialogue.Proofs.Defined
import Dialogue.Proofs.Unparked
import Dialogue.Proofs.Assigned
import Dialogue.Proofs.Foreign
import Dialogue.Proofs.Calculation
import Dialogue.Proofs.Guards
import Dialogue.Proofs.Comparisons
import Dialogue.Proofs.Strictness
import Dialogue.Proofs.Quoting
import Dialogue.Proofs.Options
