import LogLift.Main
import LogLift.Command.Run
import LogLift.Diff.Hunk
import LogLift.Batch.Process
import LogLift.Storage.Edit
import LogLift.Storage.Guard
import LogLift.Storage.Snapshot
import LogLift.Config.Targets
import LogLift.Config.Load
import LogLift.Storage.Digest
import LogLift.Config.Decode
import LogLift.Config.Issue
import LogLift.Text.Quoted
import LogLift.Severity
import LogLift.Message.Tag
import LogLift.Message.Literal
import LogLift.Source.Span
import LogLift.Source.Comment
import LogLift.Source.TestRegion
import LogLift.Document.Lift
import LogLift.Proofs.Text.Position
import LogLift.Proofs.Text.Revision
import LogLift.Proofs.Message.Parts
import LogLift.Proofs.Names
import LogLift.Proofs.Source.TestMarker
import LogLift.Proofs.Document.Token
import LogLift.Proofs.Document.Reading
import LogLift.Proofs.Document.Splice
import LogLift.Proofs.Document.Selection
import LogLift.Proofs.Document.TestRegion
import LogLift.Proofs.Document.Carry
import LogLift.Proofs.Document.SecondPass
import LogLift.Proofs.Source.Spans
import LogLift.Proofs.Document.CallImage
import LogLift.Proofs.Document.Failure
import LogLift.Proofs.Document.Concat
import LogLift.Proofs.Document.Conservation
import LogLift.Proofs.Document.Cutoff
import LogLift.Proofs.Storage.Access
import LogLift.Proofs.Batch.Effect
import LogLift.Proofs.Batch.Confinement
import LogLift.Proofs.Command.DryRun
import LogLift.Proofs.Source.Grammar
import LogLift.Proofs.Document.CallLiteral
import LogLift.Proofs.Batch.Order
import LogLift.Proofs.Storage.Links
import LogLift.Proofs.Storage.LostUpdate
import LogLift.Proofs.Source.Comments
import LogLift.Proofs.Storage.Walk
import LogLift.Proofs.Config.Targets
import LogLift.Proofs.Source.Bytes
import LogLift.Proofs.Document.Slicing
import LogLift.Proofs.Document.Lines
import LogLift.Proofs.Severity
import LogLift.Proofs.Document.Tags
import LogLift.Proofs.Config.Validation
