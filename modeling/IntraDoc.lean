import IntraDoc.CommandLine.Arguments
import IntraDoc.CommandLine.Run
import IntraDoc.Conversion.Action
import IntraDoc.Conversion.Batch
import IntraDoc.Conversion.Lines
import IntraDoc.Conversion.Report
import IntraDoc.Crate.Discovery
import IntraDoc.Data.Base64
import IntraDoc.Data.Binary64
import IntraDoc.Data.Moment
import IntraDoc.Data.Numeral
import IntraDoc.Data.Toml.Document
import IntraDoc.Data.Toml.Scalar
import IntraDoc.Data.Toml.Table
import IntraDoc.Data.Value
import IntraDoc.Data.Yaml.Document
import IntraDoc.Data.Yaml.Error
import IntraDoc.Data.Yaml.Node
import IntraDoc.Data.Yaml.Scalar
import IntraDoc.Data.Yaml.Schema
import IntraDoc.Data.Yaml.Token
import IntraDoc.File.Glob
import IntraDoc.File.Order
import IntraDoc.File.Path
import IntraDoc.File.Sources
import IntraDoc.File.System
import IntraDoc.Ignore.Basic
import IntraDoc.Ignore.Load
import IntraDoc.Line.Candidate
import IntraDoc.Line.Converted
import IntraDoc.Line.LocalLink
import IntraDoc.Line.LongForm
import IntraDoc.Line.ShortForm
import IntraDoc.Link.Disambiguator
import IntraDoc.Link.DocLink
import IntraDoc.Link.Hosted
import IntraDoc.Link.Identifier
import IntraDoc.Link.Page
import IntraDoc.Link.Path
import IntraDoc.Link.Relative
import IntraDoc.Link.Target
import IntraDoc.Main
import IntraDoc.Options
import IntraDoc.Proofs.CommandLine.Failures
import IntraDoc.Proofs.Conversion.Accounting
import IntraDoc.Proofs.Conversion.Batch
import IntraDoc.Proofs.Conversion.Composition
import IntraDoc.Proofs.Conversion.File
import IntraDoc.Proofs.Conversion.Ignored
import IntraDoc.Proofs.Conversion.LineEnds
import IntraDoc.Proofs.Conversion.Redundant
import IntraDoc.Proofs.Conversion.Report
import IntraDoc.Proofs.Conversion.SecondRun
import IntraDoc.Proofs.Crate.Failures
import IntraDoc.Proofs.Crate.Listing
import IntraDoc.Proofs.File.Failures
import IntraDoc.Proofs.File.Order
import IntraDoc.Proofs.File.Store
import IntraDoc.Proofs.File.Writes
import IntraDoc.Proofs.Ignore.Failures
import IntraDoc.Proofs.Ignore.Key
import IntraDoc.Proofs.Ignore.Load
import IntraDoc.Proofs.Line.Edits
import IntraDoc.Proofs.Line.LineBreaks
import IntraDoc.Proofs.Line.LineEnd
import IntraDoc.Proofs.Line.LocalLink
import IntraDoc.Proofs.Line.LongForm
import IntraDoc.Proofs.Line.LongSplit
import IntraDoc.Proofs.Line.Occurrences
import IntraDoc.Proofs.Line.Pieces
import IntraDoc.Proofs.Line.Substitution
import IntraDoc.Proofs.Line.Unchanged
import IntraDoc.Proofs.Link.AddressedCrate
import IntraDoc.Proofs.Link.Canonical
import IntraDoc.Proofs.Link.CrateRoot
import IntraDoc.Proofs.Link.Destination
import IntraDoc.Proofs.Link.FirstSegment
import IntraDoc.Proofs.Link.Foreign
import IntraDoc.Proofs.Link.Grammar
import IntraDoc.Proofs.Link.Hosted
import IntraDoc.Proofs.Link.IntraDocPath
import IntraDoc.Proofs.Link.ModulePage
import IntraDoc.Proofs.Link.PackageRoot
import IntraDoc.Proofs.Link.Page
import IntraDoc.Proofs.Link.Path
import IntraDoc.Proofs.Link.Reading
import IntraDoc.Proofs.Link.Relative
import IntraDoc.Proofs.Link.Rendering
import IntraDoc.Proofs.Link.Rereading
import IntraDoc.Proofs.Link.StepsBack
import IntraDoc.Proofs.Link.Target
import IntraDoc.Proofs.Scope.Block
import IntraDoc.Proofs.Scope.ImplHeader
import IntraDoc.Proofs.Scope.Intervals
import IntraDoc.Proofs.Text.Basic
import IntraDoc.Proofs.Text.Lines
import IntraDoc.Proofs.Text.Markup
import IntraDoc.Proofs.Text.Utf8
import IntraDoc.Proofs.Text.Words
import IntraDoc.Scope.Block
import IntraDoc.Scope.Tracker
import IntraDoc.Text.Basic
import IntraDoc.Text.Blank
import IntraDoc.Text.Console
import IntraDoc.Text.Digit
import IntraDoc.Text.Lines
import IntraDoc.Text.Markup
import IntraDoc.Text.Numeral
import IntraDoc.Text.Printable
import IntraDoc.Text.Quoted
import IntraDoc.Text.Range
import IntraDoc.Text.Utf8
import IntraDoc.Text.Width
import IntraDoc.Text.Word
