import Schemata.Command.Action
import Schemata.Command.Basic
import Schemata.Command.Word
import Schemata.DataType
import Schemata.Decimal.Binary64
import Schemata.Decimal.Shortest
import Schemata.Diagram.Basic
import Schemata.Diagram.Finding
import Schemata.Diagram.Layout
import Schemata.Diagram.Line
import Schemata.Diagram.Name
import Schemata.Diagram.Reader
import Schemata.Directory
import Schemata.Docs.Document
import Schemata.Docs.Format
import Schemata.Docs.Grid
import Schemata.Docs.Markdown
import Schemata.Docs.Markup
import Schemata.Docs.Page
import Schemata.Extraction.Basic
import Schemata.Extraction.Document
import Schemata.Extraction.Reader
import Schemata.Inference
import Schemata.Json.Basic
import Schemata.Json.Reader
import Schemata.Json.Token
import Schemata.Json.Writer
import Schemata.Loading
import Schemata.Log
import Schemata.Main
import Schemata.Moment
import Schemata.Naming
import Schemata.Normalize.Attribute
import Schemata.Normalize.Basic
import Schemata.Normalize.Diagnostic
import Schemata.Normalize.Entity
import Schemata.Normalize.Kind
import Schemata.Normalize.Relationship
import Schemata.Notice
import Schemata.Path
import Schemata.Proofs.DataType
import Schemata.Proofs.Decimal.Binary64
import Schemata.Proofs.Decimal.Shortest
import Schemata.Proofs.Diagram.Attribute
import Schemata.Proofs.Diagram.Braces
import Schemata.Proofs.Diagram.Comment
import Schemata.Proofs.Diagram.Draw
import Schemata.Proofs.Diagram.Finding
import Schemata.Proofs.Diagram.Format
import Schemata.Proofs.Diagram.Layout
import Schemata.Proofs.Diagram.Line
import Schemata.Proofs.Diagram.Message
import Schemata.Proofs.Diagram.Name
import Schemata.Proofs.Diagram.Opening
import Schemata.Proofs.Diagram.Outline
import Schemata.Proofs.Diagram.Position
import Schemata.Proofs.Diagram.Statement
import Schemata.Proofs.Docs.Format
import Schemata.Proofs.Docs.Grid
import Schemata.Proofs.Docs.Link
import Schemata.Proofs.Docs.Markdown
import Schemata.Proofs.Docs.Markup
import Schemata.Proofs.Docs.Page
import Schemata.Proofs.Docs.Tag
import Schemata.Proofs.Docs.Template
import Schemata.Proofs.Extraction.Coordinate
import Schemata.Proofs.Extraction.Null
import Schemata.Proofs.Identifier
import Schemata.Proofs.Json.Canonical
import Schemata.Proofs.Json.Null
import Schemata.Proofs.Json.Number
import Schemata.Proofs.Json.RoundTrip
import Schemata.Proofs.Json.Scan
import Schemata.Proofs.Loading
import Schemata.Proofs.Moment
import Schemata.Proofs.Naming
import Schemata.Proofs.Normalize.Account
import Schemata.Proofs.Normalize.Anchor
import Schemata.Proofs.Normalize.Attribute
import Schemata.Proofs.Normalize.Basic
import Schemata.Proofs.Normalize.Cascade
import Schemata.Proofs.Normalize.Content
import Schemata.Proofs.Normalize.Contract
import Schemata.Proofs.Normalize.Diagram
import Schemata.Proofs.Normalize.Document
import Schemata.Proofs.Normalize.Endpoint
import Schemata.Proofs.Normalize.Enforceable
import Schemata.Proofs.Normalize.Entity
import Schemata.Proofs.Normalize.Frame
import Schemata.Proofs.Normalize.Identifier
import Schemata.Proofs.Normalize.Junction
import Schemata.Proofs.Normalize.Key
import Schemata.Proofs.Normalize.Label
import Schemata.Proofs.Normalize.Link
import Schemata.Proofs.Normalize.Name
import Schemata.Proofs.Normalize.Note
import Schemata.Proofs.Normalize.Null
import Schemata.Proofs.Normalize.Numbering
import Schemata.Proofs.Normalize.Owner
import Schemata.Proofs.Normalize.Permutation
import Schemata.Proofs.Normalize.Relationship
import Schemata.Proofs.Normalize.Reorder
import Schemata.Proofs.Normalize.Run
import Schemata.Proofs.Normalize.Seed
import Schemata.Proofs.Normalize.SelfReference
import Schemata.Proofs.Normalize.Stage
import Schemata.Proofs.Normalize.Stamp
import Schemata.Proofs.Normalize.Type
import Schemata.Proofs.Normalize.View
import Schemata.Proofs.Reading
import Schemata.Proofs.Result
import Schemata.Proofs.Schema.Check
import Schemata.Proofs.Schema.Content
import Schemata.Proofs.Schema.Document
import Schemata.Proofs.Schema.Enforceable
import Schemata.Proofs.Schema.Expansion
import Schemata.Proofs.Schema.Junction
import Schemata.Proofs.Schema.Key
import Schemata.Proofs.Schema.Order
import Schemata.Proofs.Schema.Origin
import Schemata.Proofs.Schema.Reorder
import Schemata.Proofs.Schema.Retain
import Schemata.Proofs.Schema.Type
import Schemata.Proofs.Schema.Unique
import Schemata.Proofs.Schema.Weak
import Schemata.Proofs.Sql.DefaultValue
import Schemata.Proofs.Sql.Enumeration
import Schemata.Proofs.Sql.ForeignKey
import Schemata.Proofs.Sql.Heading
import Schemata.Proofs.Sql.Label
import Schemata.Proofs.Sql.Name
import Schemata.Proofs.Sql.Numbering
import Schemata.Proofs.Sql.Reorder
import Schemata.Proofs.Sql.Rerun
import Schemata.Proofs.Sql.Scan
import Schemata.Proofs.Sql.Seed
import Schemata.Proofs.Sql.Stamp
import Schemata.Proofs.Sql.Value
import Schemata.Proofs.Sql.View
import Schemata.Proofs.Text.Blank
import Schemata.Proofs.Text.Case
import Schemata.Proofs.Text.Word
import Schemata.Reading.Basic
import Schemata.Reading.Numeral
import Schemata.Reading.Scalar
import Schemata.Schema.Basic
import Schemata.Schema.Check
import Schemata.Schema.Document
import Schemata.Schema.Edit
import Schemata.Schema.Junction
import Schemata.Schema.Key
import Schemata.Schema.Lookup
import Schemata.Schema.Order
import Schemata.Schema.Reader
import Schemata.Settings.Basic
import Schemata.Settings.EnvFile
import Schemata.Sql.ColumnType
import Schemata.Sql.DefaultValue
import Schemata.Sql.Definition
import Schemata.Sql.Dialect
import Schemata.Sql.Layout
import Schemata.Sql.Name
import Schemata.Sql.Script
import Schemata.Sql.Seed
import Schemata.Sql.Statement
import Schemata.Sql.View
import Schemata.Text.Blank
import Schemata.Text.Case
import Schemata.Text.CaseRuns
import Schemata.Text.CasedRanges
import Schemata.Text.CodeRange
import Schemata.Text.Digit
import Schemata.Text.HiddenRanges
import Schemata.Text.Line
import Schemata.Text.Listing
import Schemata.Text.Word
import Schemata.Text.WordRanges
