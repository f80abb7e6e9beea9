import Thrift.Cli.Config
import Thrift.Cli.Directory
import Thrift.Cli.Options
import Thrift.Cli.Run
import Thrift.Codec.Compile
import Thrift.Codec.Draft
import Thrift.Codec.Fault
import Thrift.Codec.Json
import Thrift.Codec.Lowering
import Thrift.Codec.Procedure
import Thrift.Codec.Service
import Thrift.Codec.Struct
import Thrift.Fault
import Thrift.Json.Numeral
import Thrift.Json.Printer
import Thrift.Json.Quoted
import Thrift.Json.Reader
import Thrift.Json.Record
import Thrift.Json.Tree
import Thrift.Machine.Decode
import Thrift.Machine.Encode
import Thrift.Main
import Thrift.Number.Double
import Thrift.Number.Shortest
import Thrift.Proofs.Agreement
import Thrift.Proofs.Answers
import Thrift.Proofs.Assembly
import Thrift.Proofs.Bindings
import Thrift.Proofs.Blanks
import Thrift.Proofs.Blocks
import Thrift.Proofs.Clean
import Thrift.Proofs.Closure
import Thrift.Proofs.Conformance
import Thrift.Proofs.Correlation
import Thrift.Proofs.Cycles
import Thrift.Proofs.DecodeRefines
import Thrift.Proofs.Defaults
import Thrift.Proofs.Determined
import Thrift.Proofs.DirectDecode
import Thrift.Proofs.DirectEncode
import Thrift.Proofs.Displacement
import Thrift.Proofs.DocumentJson
import Thrift.Proofs.Drafted
import Thrift.Proofs.EncodeRefines
import Thrift.Proofs.EnumMembers
import Thrift.Proofs.EnumValues
import Thrift.Proofs.Exceptions
import Thrift.Proofs.Exchange
import Thrift.Proofs.Exports
import Thrift.Proofs.Faults
import Thrift.Proofs.FieldNames
import Thrift.Proofs.Forward
import Thrift.Proofs.Framing
import Thrift.Proofs.Grammar
import Thrift.Proofs.Growth
import Thrift.Proofs.Inheritance
import Thrift.Proofs.Landings
import Thrift.Proofs.Limits
import Thrift.Proofs.Lineage
import Thrift.Proofs.Loading
import Thrift.Proofs.LocalTypes
import Thrift.Proofs.Lookup
import Thrift.Proofs.Lowered
import Thrift.Proofs.Message
import Thrift.Proofs.Metered
import Thrift.Proofs.Methods
import Thrift.Proofs.Mirrored
import Thrift.Proofs.Narrowing
import Thrift.Proofs.Nesting
import Thrift.Proofs.Normal
import Thrift.Proofs.Openings
import Thrift.Proofs.Outbox
import Thrift.Proofs.Outputs
import Thrift.Proofs.Payload
import Thrift.Proofs.Pending
import Thrift.Proofs.Places
import Thrift.Proofs.Prefixes
import Thrift.Proofs.Presence
import Thrift.Proofs.Pruning
import Thrift.Proofs.Quotes
import Thrift.Proofs.ReadBack
import Thrift.Proofs.Reading
import Thrift.Proofs.Realized
import Thrift.Proofs.Received
import Thrift.Proofs.Refusals
import Thrift.Proofs.Rendering
import Thrift.Proofs.Reordering
import Thrift.Proofs.Resending
import Thrift.Proofs.Results
import Thrift.Proofs.RoundTrip
import Thrift.Proofs.Rounds
import Thrift.Proofs.Schema
import Thrift.Proofs.Segments
import Thrift.Proofs.Shown
import Thrift.Proofs.Skipping
import Thrift.Proofs.Steps
import Thrift.Proofs.Survey
import Thrift.Proofs.Sweeps
import Thrift.Proofs.Targets
import Thrift.Proofs.Temporaries
import Thrift.Proofs.Transparency
import Thrift.Proofs.Typedefs
import Thrift.Proofs.Typing
import Thrift.Proofs.Voids
import Thrift.Proofs.Widening
import Thrift.Proofs.Writing
import Thrift.Proofs.WrittenTypes
import Thrift.Rpc.Client
import Thrift.Rpc.Outcome
import Thrift.Rpc.Processor
import Thrift.Schema.Document
import Thrift.Schema.Json
import Thrift.Schema.Names
import Thrift.Schema.Namespace
import Thrift.Schema.Path
import Thrift.Schema.Suggestion
import Thrift.Schema.Symbols
import Thrift.Script.Expression
import Thrift.Script.File
import Thrift.Script.Layout
import Thrift.Script.Service
import Thrift.Script.Struct
import Thrift.Text.CaseMap
import Thrift.Text.CaseTable
import Thrift.Text.Distance
import Thrift.Text.HiddenTable
import Thrift.Text.Quoted
import Thrift.Text.Space
import Thrift.Text.Utf8
import Thrift.Toml.Quoted
import Thrift.Toml.Reader
import Thrift.Toml.Scalar
import Thrift.Toml.Table
import Thrift.Toml.Tree
import Thrift.Value.Basic
import Thrift.Value.Json
import Thrift.Wire.BigEndian
import Thrift.Wire.Config
import Thrift.Wire.Fault
import Thrift.Wire.Kind
import Thrift.Wire.Link
import Thrift.Wire.Message
import Thrift.Wire.Reader
import Thrift.Wire.Writer
