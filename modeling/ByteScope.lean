import ByteScope.Main
import ByteScope.Decimal.Reading
import ByteScope.Proofs.Agree
import ByteScope.Proofs.Runtime
import ByteScope.Proofs.Range.Follow
import ByteScope.Proofs.Decode.Tiling
import ByteScope.Proofs.Decode.Safety
import ByteScope.Proofs.Decode.Prefix
import ByteScope.Proofs.Decode.Derivation
import ByteScope.Proofs.Decode.Causes
import ByteScope.Proofs.Decode.Failure
import ByteScope.Proofs.Decode.Nesting
import ByteScope.Proofs.Decode.Shift
import ByteScope.Proofs.Decode.Walker
import ByteScope.Proofs.Decode.Locality
import ByteScope.Proofs.Decode.Contents
import ByteScope.Proofs.Decode.Warnings
import ByteScope.Proofs.Markup.Literals
import ByteScope.Proofs.Markup.Lines
import ByteScope.Proofs.Markup.RoundTrip
import ByteScope.Proofs.Markup.Rules
import ByteScope.Proofs.Markup.Ownership
import ByteScope.Proofs.Markup.Layout
import ByteScope.Proofs.Markup.Items
import ByteScope.Proofs.Markup.Columns
import ByteScope.Proofs.Markup.Termination
import ByteScope.Proofs.Markup.Spelling
import ByteScope.Proofs.Markup.Hashes
import ByteScope.Proofs.Markup.Comments
import ByteScope.Proofs.Markup.Entry
import ByteScope.Proofs.Markup.Faults
import ByteScope.Proofs.Markup.FirstFault
import ByteScope.Proofs.Markup.InlineLists
import ByteScope.Proofs.Markup.Integers
import ByteScope.Proofs.Markup.Numbers
import ByteScope.Proofs.Yaml.InLine
import ByteScope.Proofs.Yaml.Entry
import ByteScope.Proofs.Yaml.Scalars
import ByteScope.Proofs.Yaml.Resolves
import ByteScope.Proofs.TextFile.Pieces
import ByteScope.Proofs.TextFile.Segments
import ByteScope.Proofs.TextFile.Detection
import ByteScope.Proofs.TextFile.ShiftJis
import ByteScope.Proofs.TextFile.Chars
import ByteScope.Proofs.TextFile.CharText
import ByteScope.Proofs.Zip.Records
import ByteScope.Proofs.Range.Search
import ByteScope.Proofs.Range.Scan
import ByteScope.Proofs.Decode.Attribution
import ByteScope.Proofs.Decode.Visit
import ByteScope.Proofs.Decode.Shown
import ByteScope.Proofs.File.Tree
import ByteScope.Proofs.Codec.Utf8
import ByteScope.Proofs.Codec.Sequences
import ByteScope.Proofs.Codec.Tables
import ByteScope.Proofs.Codec.Zeros
import ByteScope.Proofs.Codec.Japanese
import ByteScope.Proofs.Codec.Utf16
import ByteScope.Proofs.Json.RoundTrip
import ByteScope.Proofs.Json.Numbers
import ByteScope.Proofs.Json.Values
import ByteScope.Proofs.Json.Pairs
import ByteScope.Proofs.Store.Calls
import ByteScope.Proofs.Store.TextMap
import ByteScope.Proofs.Store.Schemas
import ByteScope.Proofs.Store.Extensions
import ByteScope.Proofs.Store.Refinement
import ByteScope.Proofs.Store.Homes
import ByteScope.Proofs.Store.Exchange
import ByteScope.Proofs.Store.RoundTrip
import ByteScope.Proofs.Store.Import
import ByteScope.Proofs.Store.Names
import ByteScope.Proofs.Store.References
import ByteScope.Proofs.Store.Mapping
import ByteScope.Proofs.Text.Lowercase
import ByteScope.Proofs.Store.FileNames
import ByteScope.Proofs.Command.Arguments
import ByteScope.Proofs.Command.Mapping
import ByteScope.Proofs.Schema.Steps
import ByteScope.Proofs.Schema.Documented
import ByteScope.Proofs.Schema.Faults
import ByteScope.Proofs.Schema.LoadFaults
import ByteScope.Proofs.Schema.Loaders
import ByteScope.Proofs.Schema.MissingOrder
import ByteScope.Proofs.Value.Reordered
import ByteScope.Proofs.Schema.EntryOrder
import ByteScope.Proofs.Decoder.Extent
import ByteScope.Proofs.Decoder.Selection
import ByteScope.Proofs.View.HexGrid
import ByteScope.Proofs.Bytes.Integers
import ByteScope.Proofs.Bytes.Sized
import ByteScope.Proofs.Bytes.Terminated
