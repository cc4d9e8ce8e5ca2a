import RamlSchema.Main
import RamlSchema.Proofs.Conversion.Drafts
import RamlSchema.Proofs.Fix.Stability
import RamlSchema.Proofs.Migration.Meaning
import RamlSchema.Proofs.Migration.Absorption
import RamlSchema.Proofs.Conversion.Declaration
import RamlSchema.Proofs.Fix.Places
import RamlSchema.Proofs.Fix.Validity
import RamlSchema.Proofs.Conversion.Texts
import RamlSchema.Proofs.CommandLine.Stages
import RamlSchema.Proofs.Conversion.Calls
import RamlSchema.Proofs.Document.Lines
import RamlSchema.Proofs.Document.Wrapping
import RamlSchema.Proofs.Migration.Frame
import RamlSchema.Proofs.Fix.Copies
import RamlSchema.Proofs.Fix.Collisions
import RamlSchema.Proofs.Fix.Leaves
import RamlSchema.Proofs.Fix.Files
import RamlSchema.Proofs.MetaSchema.Reports
import RamlSchema.Proofs.Schema.Order
import RamlSchema.Proofs.Processor.Output
import RamlSchema.Proofs.Draft
import RamlSchema.Proofs.MetaSchema.Nesting
import RamlSchema.Proofs.Json.Lines
import RamlSchema.Proofs.CommandLine.Reports
