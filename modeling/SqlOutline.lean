import SqlOutline.Main
import SqlOutline.Proofs.Statement.Delimited
import SqlOutline.Proofs.Statement.Delimiter
import SqlOutline.Proofs.Analysis.Diagnostics
import SqlOutline.Proofs.Definition.Spelling
import SqlOutline.Proofs.Definition.Removal
import SqlOutline.Proofs.Dialect.Remarks
import SqlOutline.Proofs.Name.TypeFormat
import SqlOutline.Proofs.Cli.Run
import SqlOutline.Proofs.Cli.LineLimit
import SqlOutline.Proofs.Routine.Parameters
import SqlOutline.Proofs.Trigger.Locality
import SqlOutline.Proofs.Trigger.Isolation
import SqlOutline.Proofs.Trigger.Events
import SqlOutline.Proofs.Reference.Loops
import SqlOutline.Proofs.Reference.PlainFlags
import SqlOutline.Proofs.Body.Chunks
