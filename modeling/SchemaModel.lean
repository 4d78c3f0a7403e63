import SchemaModel.Main
import SchemaModel.Model.HashKey
import SchemaModel.Proofs.Command.Ending
import SchemaModel.Proofs.Command.Report
import SchemaModel.Proofs.Command.Request
import SchemaModel.Proofs.Command.Resolve
import SchemaModel.Proofs.Command.Validate
import SchemaModel.Proofs.Console.Escape
import SchemaModel.Proofs.Console.Prints
import SchemaModel.Proofs.Console.Terminal
import SchemaModel.Proofs.Json.Numbers
import SchemaModel.Proofs.Json.Reader
import SchemaModel.Proofs.Json.RoundTrip
import SchemaModel.Proofs.Model.Alike
import SchemaModel.Proofs.Model.Check
import SchemaModel.Proofs.Model.Congruence
import SchemaModel.Proofs.Model.Curtailed
import SchemaModel.Proofs.Model.CurtailedOverlap
import SchemaModel.Proofs.Model.Enumeration
import SchemaModel.Proofs.Model.Equality
import SchemaModel.Proofs.Model.Equivalence
import SchemaModel.Proofs.Model.Failures
import SchemaModel.Proofs.Model.Good
import SchemaModel.Proofs.Model.HashKey
import SchemaModel.Proofs.Model.Height
import SchemaModel.Proofs.Model.IssuePlaces
import SchemaModel.Proofs.Model.Listed
import SchemaModel.Proofs.Model.NormalForm
import SchemaModel.Proofs.Model.Outline
import SchemaModel.Proofs.Model.Overlap
import SchemaModel.Proofs.Model.Parts
import SchemaModel.Proofs.Model.Reduce
import SchemaModel.Proofs.Model.Rules
import SchemaModel.Proofs.Model.Serialization
import SchemaModel.Proofs.Model.Shared
import SchemaModel.Proofs.Model.Sight
import SchemaModel.Proofs.Model.Substitution
import SchemaModel.Proofs.Model.Unambiguous
import SchemaModel.Proofs.Schema.Composition
import SchemaModel.Proofs.Schema.Coupling
import SchemaModel.Proofs.Schema.Curtailed
import SchemaModel.Proofs.Schema.Depth
import SchemaModel.Proofs.Schema.KeyOrder
import SchemaModel.Proofs.Schema.Meaning
import SchemaModel.Proofs.Schema.ModelHeight
import SchemaModel.Proofs.Schema.NormalForm
import SchemaModel.Proofs.Schema.Places
import SchemaModel.Proofs.Schema.Pointer
import SchemaModel.Proofs.Schema.Prune
import SchemaModel.Proofs.Schema.Quiet
import SchemaModel.Proofs.Schema.Reading
import SchemaModel.Proofs.Schema.Resolve
import SchemaModel.Proofs.Schema.Strict
import SchemaModel.Proofs.Settings.Bounds
import SchemaModel.Proofs.Text.Quoted
import SchemaModel.Proofs.Value.Agreement
import SchemaModel.Proofs.Value.Datum
import SchemaModel.Proofs.Value.Entries
import SchemaModel.Proofs.Value.Equality
import SchemaModel.Proofs.Value.HashKey
import SchemaModel.Proofs.Value.Height
import SchemaModel.Proofs.Value.Path
import SchemaModel.Proofs.Value.Reorder
import SchemaModel.Proofs.Value.Writable
