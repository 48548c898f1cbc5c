import SchemaCut.Kind
import SchemaCut.NameSet
import SchemaCut.NameMap
import SchemaCut.EntitySet
import SchemaCut.Text.CodeRanges
import SchemaCut.Text.Blank
import SchemaCut.Text.Invisible
import SchemaCut.Text.LowerCase
import SchemaCut.Text.Quoted
import SchemaCut.Text.Parsed
import SchemaCut.Reference
import SchemaCut.Decimal.Shortest
import SchemaCut.Decimal.Nearest
import SchemaCut.Json.Basic
import SchemaCut.Json.Numeral
import SchemaCut.Json.Fault
import SchemaCut.Json.Printer
import SchemaCut.Json.Space
import SchemaCut.Json.StringReader
import SchemaCut.Json.NumberReader
import SchemaCut.Json.Scalar
import SchemaCut.Json.Skip
import SchemaCut.Json.Reader
import SchemaCut.Json.Record
import SchemaCut.Suggestion
import SchemaCut.Files
import SchemaCut.Failure
import SchemaCut.Schema
import SchemaCut.References
import SchemaCut.Closure
import SchemaCut.Graph
import SchemaCut.Shortening
import SchemaCut.Subset
import SchemaCut.Documents
import SchemaCut.Checksum
import SchemaCut.Toml.Basic
import SchemaCut.Toml.StringReader
import SchemaCut.Toml.NumberReader
import SchemaCut.Toml.Reader
import SchemaCut.Toml.Writer
import SchemaCut.Text.Numeral
import SchemaCut.Settings.Basic
import SchemaCut.Settings.Source
import SchemaCut.Settings.Decode
import SchemaCut.Config
import SchemaCut.CommandLine
import SchemaCut.Main
import SchemaCut.Proofs.Closure
import SchemaCut.Proofs.Worklist
import SchemaCut.Proofs.Graph
import SchemaCut.Proofs.EntityOrder
import SchemaCut.Proofs.EntitySets
import SchemaCut.Proofs.Cycles
import SchemaCut.Proofs.Numbering
import SchemaCut.Proofs.Ancestors
import SchemaCut.Proofs.FullParents
import SchemaCut.Proofs.Cut
import SchemaCut.Proofs.Locality
import SchemaCut.Proofs.Recut
import SchemaCut.Proofs.Suggestions
import SchemaCut.Proofs.Reading.Takes
import SchemaCut.Proofs.Reading.Strings
import SchemaCut.Proofs.Reading.Numbers
import SchemaCut.Proofs.Reading.Tree
import SchemaCut.Proofs.Reading.Values
import SchemaCut.Proofs.Reading.Skipping
import SchemaCut.Proofs.Reading.Records
import SchemaCut.Proofs.Reading.Fields
import SchemaCut.Proofs.Reading.Words
import SchemaCut.Proofs.Reading.Schemas
import SchemaCut.Proofs.Reading.Bounds
import SchemaCut.Proofs.Reading.Written
import SchemaCut.Proofs.RoundTrip
import SchemaCut.Proofs.Unambiguous
import SchemaCut.Proofs.References
import SchemaCut.Proofs.Leaves
import SchemaCut.Proofs.Tokens
import SchemaCut.Proofs.EscapedNames
import SchemaCut.Proofs.Shortening
import SchemaCut.Proofs.ShortenedCut
import SchemaCut.Proofs.SameDocument
import SchemaCut.Proofs.Requests
import SchemaCut.Proofs.Files
import SchemaCut.Proofs.Arguments
import SchemaCut.Proofs.Calls
import SchemaCut.Proofs.Settings.Layering
import SchemaCut.Proofs.Settings.Given
import SchemaCut.Proofs.Settings.Layers
import SchemaCut.Proofs.Settings.Loading
import SchemaCut.Proofs.Settings.Environment
import SchemaCut.Proofs.Toml.Strings
import SchemaCut.Proofs.Toml.Values
import SchemaCut.Proofs.Toml.Lines
import SchemaCut.Proofs.Settings.Saving
import SchemaCut.Proofs.Places
import SchemaCut.Proofs.Rewriting
import SchemaCut.Proofs.BlankMarkers
import SchemaCut.Proofs.LastGiven
import SchemaCut.Proofs.ListedTexts
