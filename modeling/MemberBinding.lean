import MemberBinding.Codec.Config
import MemberBinding.Json.Value
import MemberBinding.Main
import MemberBinding.Refusal
import MemberBinding.Proofs.Snapshot.Designation
import MemberBinding.Proofs.Resolution.ReverseLink
import MemberBinding.Proofs.Resolution.Anchors
import MemberBinding.Proofs.Resolution.Linking
import MemberBinding.Proofs.Resolution.Candidates
import MemberBinding.Proofs.Resolution.Run
import MemberBinding.Proofs.Resolution.Placed
import MemberBinding.Proofs.FieldBinding.Exact
import MemberBinding.Proofs.Command.Relations
import MemberBinding.Proofs.Command.Blocks
import MemberBinding.Proofs.Command.Consistent
import MemberBinding.Proofs.Command.Soundness
import MemberBinding.Proofs.Command.Provenance
import MemberBinding.Proofs.Command.Coverage
import MemberBinding.Proofs.Naming.Bodies
import MemberBinding.Proofs.Naming.RoundTrip
import MemberBinding.Proofs.Reports.Links
import MemberBinding.Proofs.Reports.Passes
import MemberBinding.Proofs.FieldBinding.Reports
import MemberBinding.Proofs.Command.Reports
import MemberBinding.Proofs.Reports.Exact
import MemberBinding.Proofs.FieldBinding.Reordering
import MemberBinding.Proofs.Command.Reordering
import MemberBinding.Proofs.Reports.Messages
import MemberBinding.Proofs.Reports.Order
import MemberBinding.Proofs.Resolution.Embedding
import MemberBinding.Proofs.Snapshot.Parts
import MemberBinding.Proofs.Resolution.EmbeddedRun
import MemberBinding.Proofs.Resolution.Parts
import MemberBinding.Proofs.Reports.Independence
import MemberBinding.Proofs.Reports.InvalidNames
import MemberBinding.Proofs.Naming.Grammar
import MemberBinding.Proofs.Naming.Conversion
import MemberBinding.Proofs.Resolution.SameSteps
import MemberBinding.Proofs.Resolution.Agreement
import MemberBinding.Proofs.Resolution.Placement
import MemberBinding.Proofs.Resolution.RenamedTypes
import MemberBinding.Proofs.Resolution.SecondNames
import MemberBinding.Proofs.Resolution.Similar
import MemberBinding.Proofs.Resolution.Ties
import MemberBinding.Proofs.Resolution.Directions
import MemberBinding.Proofs.Snapshot.SameNames
import MemberBinding.Proofs.Snapshot.SameButLinks
import MemberBinding.Proofs.Snapshot.LinkEdits
import MemberBinding.Proofs.FieldBinding.Preference
import MemberBinding.Proofs.Command.Preference
import MemberBinding.Proofs.Command.Sharing
import MemberBinding.Proofs.FieldBinding.WrittenBack
import MemberBinding.Proofs.Snapshot.Pruning
import MemberBinding.Proofs.Resolution.Pruning
import MemberBinding.Proofs.FieldBinding.CommandSide
import MemberBinding.Proofs.Reports.Exclusion
import MemberBinding.Proofs.Command.EitherOrder
import MemberBinding.Proofs.Reports.Selective
import MemberBinding.Proofs.Codec.RoundTrip
import MemberBinding.Proofs.Codec.Rewording
import MemberBinding.Proofs.CommandLine.Resolve
import MemberBinding.Proofs.Lists.FirstOccurrences
import MemberBinding.Proofs.Reports.Calls
import MemberBinding.Proofs.Reports.ReverseLinks
import MemberBinding.Proofs.Resolution.Checked
import MemberBinding.Proofs.Resolution.InBounds
import MemberBinding.Proofs.Snapshot.Buckets
