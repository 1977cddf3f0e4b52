import AtomProbe.Main
import AtomProbe.Proofs.Entry.Paths
import AtomProbe.Proofs.Template.Document
import AtomProbe.World
import AtomProbe.Proofs.Source.Overlay
import AtomProbe.Proofs.Batch
import AtomProbe.Proofs.Entry.Writers
import AtomProbe.Proofs.Source.Units
import AtomProbe.Proofs.Metadata.Keys
import AtomProbe.Proofs.Metadata.Traces
import AtomProbe.Proofs.Config.Document
import AtomProbe.Proofs.Batch.Order
import AtomProbe.Proofs.Program
import AtomProbe.Proofs.Calendar.Timestamp
import AtomProbe.Proofs.VariadicPath.Resolution
import AtomProbe.Proofs.VariadicPath.Identifiers
import AtomProbe.Proofs.Mapping.Structured
import AtomProbe.Proofs.Metadata.Conversion
import AtomProbe.Proofs.Source.Numbering
import AtomProbe.Proofs.Source.Relocation
import AtomProbe.Proofs.Config.Validity
import AtomProbe.Proofs.Metadata.Truth
import AtomProbe.Proofs.Template.Listing
