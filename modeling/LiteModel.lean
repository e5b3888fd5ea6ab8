import LiteModel.Command
import LiteModel.CommandLine
import LiteModel.Container.Builder
import LiteModel.Container.Bytes
import LiteModel.Container.Content
import LiteModel.Container.Decoding
import LiteModel.Container.Encoding
import LiteModel.Container.Slot
import LiteModel.Container.Structure
import LiteModel.Container.Summary
import LiteModel.Container.Verification
import LiteModel.ContainerFile
import LiteModel.Decimal.Binary32
import LiteModel.Decimal.Rounding
import LiteModel.ElementType
import LiteModel.Export
import LiteModel.Export.Assembly
import LiteModel.Export.Config
import LiteModel.Export.ConfigFile
import LiteModel.Export.Error
import LiteModel.Export.Index
import LiteModel.Export.Operation
import LiteModel.Files.Fault
import LiteModel.Files.Mode
import LiteModel.Files.Path
import LiteModel.Files.Replacement
import LiteModel.Files.Tree
import LiteModel.Graph
import LiteModel.Graph.Finalized
import LiteModel.Json.Decoding
import LiteModel.Json.Document
import LiteModel.Json.Number
import LiteModel.Json.Text
import LiteModel.Json.Token
import LiteModel.Manifest
import LiteModel.Manifest.Graph
import LiteModel.Manifest.Printer
import LiteModel.Manifest.Reader
import LiteModel.Manifest.Validation
import LiteModel.ModelDirectory
import LiteModel.Numbering
import LiteModel.Operator
import LiteModel.Shape
import LiteModel.Tensor
import LiteModel.Tensor.Session
import LiteModel.Text.Blank
import LiteModel.Text.Bracketed
import LiteModel.Text.Hidden
import LiteModel.Text.Quoted
import LiteModel.Toml.Document
import LiteModel.Toml.Lexical
import LiteModel.Toml.Quoting
import LiteModel.Toml.Scalar
import LiteModel.Toml.Table
import LiteModel.Weights
import LiteModel.Weights.Archive
import LiteModel.Word
import LiteModel.Proofs.Container.Inside
import LiteModel.Proofs.Container.Acceptance
import LiteModel.Proofs.Container.Bytes
import LiteModel.Proofs.Container.Builder
import LiteModel.Proofs.Container.Table
import LiteModel.Proofs.Container.Forms
import LiteModel.Proofs.Container.RoundTrip
import LiteModel.Proofs.Export.Index
import LiteModel.Proofs.Export.Content
import LiteModel.Proofs.Container.Footprint
import LiteModel.Proofs.Container.Length
import LiteModel.Proofs.Export.Verification
import LiteModel.Proofs.Export.Lowering
import LiteModel.Proofs.Export.ReadBack
import LiteModel.Proofs.Export.Outcome
import LiteModel.Proofs.Export.Names
import LiteModel.Proofs.Export.Numbers
import LiteModel.Proofs.Export.Renaming
import LiteModel.Proofs.Shape
import LiteModel.Proofs.Tensor
import LiteModel.Proofs.Export.Data
import LiteModel.Proofs.Export.Sources
import LiteModel.Proofs.Export.Beta
import LiteModel.Proofs.Decimal.Range
import LiteModel.Proofs.Decimal.Literal
import LiteModel.Proofs.Export.Lowerable
import LiteModel.Proofs.Container.Prefix
import LiteModel.Proofs.Container.Budget
import LiteModel.Proofs.ContainerFile
import LiteModel.Proofs.Graph.Blame
import LiteModel.Proofs.Graph.Prefix
import LiteModel.Proofs.Graph.Validity
import LiteModel.Proofs.Manifest.Consistency
import LiteModel.Proofs.Manifest.Obstacles
import LiteModel.Proofs.Manifest.Positions
import LiteModel.Proofs.Weights.Archive
import LiteModel.Proofs.Graph.Buffers
import LiteModel.Proofs.ModelDirectory
import LiteModel.Proofs.Files.Replacement
import LiteModel.Proofs.Command
import LiteModel.Proofs.Files.Atomicity
import LiteModel.Proofs.Tensor.Ancestry
import LiteModel.Proofs.Tensor.Values
import LiteModel.Proofs.Numbering.Table
import LiteModel.Proofs.Json.Token
import LiteModel.Proofs.Json.Decoding
import LiteModel.Proofs.Manifest.RoundTrip
import LiteModel.Proofs.Toml.Quoting
import LiteModel.Proofs.Toml.Document
import LiteModel.Proofs.Export.ConfigFile
