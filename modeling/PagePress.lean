import PagePress.Command.Arguments
import PagePress.Command.Basic
import PagePress.Command.Help
import PagePress.Command.Run
import PagePress.Decimal.Binary
import PagePress.Decimal.Layout
import PagePress.Decimal.Round
import PagePress.Decimal.Shortest
import PagePress.Diagnostic.Basic
import PagePress.Diagnostic.Catalog
import PagePress.Diagnostic.Codec
import PagePress.Gate.Check
import PagePress.Gate.Finding
import PagePress.Gate.Verdict
import PagePress.Json.Lexeme
import PagePress.Json.Reader
import PagePress.Json.Value
import PagePress.Json.Writer
import PagePress.Main
import PagePress.Page.Link
import PagePress.Page.Measure
import PagePress.Page.Quality
import PagePress.Particle
import PagePress.Pattern.Builtin
import PagePress.Pattern.Library
import PagePress.Pattern.Load
import PagePress.Proofs.Cleanup.Confluence
import PagePress.Proofs.Cleanup.Leftover
import PagePress.Proofs.Cleanup.Normal
import PagePress.Proofs.Cleanup.Residue
import PagePress.Proofs.Cleanup.Spacing
import PagePress.Proofs.Cleanup.Stretch
import PagePress.Proofs.Command.Activity
import PagePress.Proofs.Command.Generate
import PagePress.Proofs.Diagnostic.Codec
import PagePress.Proofs.Diagnostic.Explained
import PagePress.Proofs.Double.Arithmetic
import PagePress.Proofs.Double.Quotient
import PagePress.Proofs.Gate.Code
import PagePress.Proofs.Gate.Coverage
import PagePress.Proofs.Gate.Forbidden
import PagePress.Proofs.Gate.Repetition
import PagePress.Proofs.Gate.Score
import PagePress.Proofs.Gate.Supply
import PagePress.Proofs.Gate.Verdict
import PagePress.Proofs.Json.Document
import PagePress.Proofs.Json.Escape
import PagePress.Proofs.Json.Fields
import PagePress.Proofs.Json.Prune
import PagePress.Proofs.Json.Quoted
import PagePress.Proofs.Json.Record
import PagePress.Proofs.Page.Address
import PagePress.Proofs.Page.Freshness
import PagePress.Proofs.Page.Line
import PagePress.Proofs.Page.Overlap
import PagePress.Proofs.Page.Ratio
import PagePress.Proofs.Pattern.Selection
import PagePress.Proofs.Structured.Cleanup
import PagePress.Proofs.Structured.Object
import PagePress.Proofs.Structured.Render
import PagePress.Proofs.Template.Argument
import PagePress.Proofs.Template.Balance
import PagePress.Proofs.Template.Classify
import PagePress.Proofs.Template.Comparison
import PagePress.Proofs.Template.Continuation
import PagePress.Proofs.Template.Cover
import PagePress.Proofs.Template.Depth
import PagePress.Proofs.Template.Derivation
import PagePress.Proofs.Template.Enclosed
import PagePress.Proofs.Template.Escaping
import PagePress.Proofs.Template.Evaluation
import PagePress.Proofs.Template.Follow
import PagePress.Proofs.Template.Fragment
import PagePress.Proofs.Template.Level
import PagePress.Proofs.Template.Mention
import PagePress.Proofs.Template.Numbering
import PagePress.Proofs.Template.Particle
import PagePress.Proofs.Template.Place
import PagePress.Proofs.Template.Preorder
import PagePress.Proofs.Template.Recovery
import PagePress.Proofs.Template.Reparse
import PagePress.Proofs.Template.Row
import PagePress.Proofs.Template.Scope
import PagePress.Proofs.Template.Spelling
import PagePress.Proofs.Template.Substitution
import PagePress.Proofs.Template.Tiling
import PagePress.Proofs.Text.Blank
import PagePress.Proofs.Text.Lines
import PagePress.Proofs.Text.Pair
import PagePress.Proofs.Text.Split
import PagePress.Proofs.Time.Calendar
import PagePress.Proofs.Variable.Path
import PagePress.Proofs.Workspace.ReadBack
import PagePress.Rules.Basic
import PagePress.Rules.Check
import PagePress.Rules.Load
import PagePress.Template.Basic
import PagePress.Template.Braces
import PagePress.Template.Cleanup
import PagePress.Template.Evaluate
import PagePress.Template.Level
import PagePress.Template.Node
import PagePress.Template.Render
import PagePress.Template.Tag
import PagePress.Template.Token
import PagePress.Template.Warning
import PagePress.Text.Basic
import PagePress.Text.Blank
import PagePress.Text.Dictionary
import PagePress.Text.Lines
import PagePress.Text.Upper
import PagePress.Text.UpperTable
import PagePress.Text.Word
import PagePress.Text.WordTable
import PagePress.Time.Calendar
import PagePress.Time.Instant
import PagePress.Time.Timestamp
import PagePress.Toml.Document
import PagePress.Toml.Lexeme
import PagePress.Toml.Record
import PagePress.Toml.Scalar
import PagePress.Toml.Table
import PagePress.Toml.Value
import PagePress.Variable.Context
import PagePress.Variable.Path
import PagePress.Variable.Value
import PagePress.Workspace.Basic
import PagePress.Workspace.Path
