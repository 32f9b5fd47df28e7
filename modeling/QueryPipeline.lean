import QueryPipeline.Keyed
import QueryPipeline.FieldName
import QueryPipeline.Text.Blank
import QueryPipeline.Text.Digits
import QueryPipeline.Text.Shown
import QueryPipeline.Text.Quoted
import QueryPipeline.Text.Hex
import QueryPipeline.Text.Base64
import QueryPipeline.Double.Shortest
import QueryPipeline.Double.Layout
import QueryPipeline.Double.Read
import QueryPipeline.Json.Piece
import QueryPipeline.Json.Node
import QueryPipeline.Json.Scan
import QueryPipeline.Json.Quantity
import QueryPipeline.Json.Error
import QueryPipeline.Json.Decode
import QueryPipeline.Json.Write
import QueryPipeline.Value.Basic
import QueryPipeline.Value.Decimal128
import QueryPipeline.Value.Moment
import QueryPipeline.Value.Display
import QueryPipeline.Value.Read
import QueryPipeline.Value.Write
import QueryPipeline.CompileError
import QueryPipeline.Options
import QueryPipeline.Resolver
import QueryPipeline.Filter.Operator
import QueryPipeline.Filter.Condition
import QueryPipeline.Filter.Pattern
import QueryPipeline.Filter.Basic
import QueryPipeline.Sort
import QueryPipeline.Group
import QueryPipeline.Projection
import QueryPipeline.Pagination
import QueryPipeline.Pipeline
import QueryPipeline.Request
import QueryPipeline.Compiler
import QueryPipeline.Service.Settings
import QueryPipeline.Service.Target
import QueryPipeline.Service.MediaType
import QueryPipeline.Service.Exchange
import QueryPipeline.Proofs.Outcome
import QueryPipeline.Proofs.Keyed
import QueryPipeline.Proofs.Json.Record
import QueryPipeline.Proofs.Filter.Entry
import QueryPipeline.Proofs.Filter.OuterKeys
import QueryPipeline.Proofs.Assembly
import QueryPipeline.Proofs.Selection
import QueryPipeline.Proofs.Group.Reserved
import QueryPipeline.Proofs.Sort
import QueryPipeline.Proofs.Updates
import QueryPipeline.Proofs.Projection.WireNames
import QueryPipeline.Proofs.Parts
import QueryPipeline.Proofs.Unknown.Names
import QueryPipeline.Proofs.Unknown.Strict
import QueryPipeline.Proofs.Filter.Fault
import QueryPipeline.Proofs.Unknown.Insertion
import QueryPipeline.Proofs.Filter.Pattern
import QueryPipeline.Proofs.Filter.Acceptance
import QueryPipeline.Proofs.Filter.Coercion
import QueryPipeline.Proofs.Json.Grammar
import QueryPipeline.Proofs.Json.Scan
import QueryPipeline.Proofs.Service.Answer
import QueryPipeline.Proofs.Service.Body
import QueryPipeline.Proofs.Pagination
import QueryPipeline.Proofs.Service.Window
import QueryPipeline.Proofs.Group.Document
import QueryPipeline.Proofs.Json.Write
import QueryPipeline.Proofs.Json.Quantity
import QueryPipeline.Proofs.Text.Base64
import QueryPipeline.Proofs.Value.Decimal128
import QueryPipeline.Proofs.Double.Arithmetic
import QueryPipeline.Proofs.Double.Error
import QueryPipeline.Proofs.Double.Reread
import QueryPipeline.Proofs.Service.Legible
import QueryPipeline.Proofs.Service.Response
import QueryPipeline.Proofs.Filter.Rendering
import QueryPipeline.Proofs.Projection.Flags
import QueryPipeline.Proofs.Json.Fields
import QueryPipeline.Proofs.PageNumber
import QueryPipeline.Proofs.Value.Wire
import QueryPipeline.Proofs.Filter.Spelling
import QueryPipeline.Proofs.Options
