import ViewModifiers.Artifact.Diagnostics
import ViewModifiers.Artifact.Expressions
import ViewModifiers.Artifact.Format
import ViewModifiers.Artifact.Live
import ViewModifiers.Artifact.RustSource
import ViewModifiers.Artifact.Signatures
import ViewModifiers.Artifact.Tables
import ViewModifiers.Artifact.Values
import ViewModifiers.CommandLine.Arguments
import ViewModifiers.CommandLine.Commands
import ViewModifiers.CommandLine.Folder
import ViewModifiers.Configuration.Basic
import ViewModifiers.Configuration.Builtin
import ViewModifiers.Configuration.Reading
import ViewModifiers.Decimal.Layout
import ViewModifiers.Decimal.Numeral
import ViewModifiers.Decimal.Shortest
import ViewModifiers.Diagnostic
import ViewModifiers.Dictionary
import ViewModifiers.Element.Basic
import ViewModifiers.Element.Tree
import ViewModifiers.Entries
import ViewModifiers.Expression.Basic
import ViewModifiers.Expression.Grammar
import ViewModifiers.Expression.Printer
import ViewModifiers.Expression.Reading
import ViewModifiers.Failure
import ViewModifiers.Grammar.Rule
import ViewModifiers.Interface.Line
import ViewModifiers.Interface.Scanner
import ViewModifiers.Json.Basic
import ViewModifiers.Json.Reader
import ViewModifiers.Json.Writer
import ViewModifiers.Live.Cell
import ViewModifiers.Live.CellStore
import ViewModifiers.Live.Chain
import ViewModifiers.Live.Channel
import ViewModifiers.Live.Document
import ViewModifiers.Live.Notifier
import ViewModifiers.Live.Outbox
import ViewModifiers.Live.Resolution
import ViewModifiers.Main
import ViewModifiers.Overload.Basic
import ViewModifiers.Platform.Availability
import ViewModifiers.Platform.Basic
import ViewModifiers.Platform.Condition
import ViewModifiers.Platform.Host
import ViewModifiers.Proofs.Artifact.Generated
import ViewModifiers.Proofs.Artifact.Names
import ViewModifiers.Proofs.Configuration.Cycles
import ViewModifiers.Proofs.Dictionary
import ViewModifiers.Proofs.Element.Removal
import ViewModifiers.Proofs.Element.Tree
import ViewModifiers.Proofs.Expression.Acceptance
import ViewModifiers.Proofs.Expression.Errors
import ViewModifiers.Proofs.Expression.RoundTrip
import ViewModifiers.Proofs.Expression.Shift
import ViewModifiers.Proofs.Expression.Spans
import ViewModifiers.Proofs.Expression.Trimming
import ViewModifiers.Proofs.Grammar.Agreement
import ViewModifiers.Proofs.Grammar.Confinement
import ViewModifiers.Proofs.Grammar.Continuation
import ViewModifiers.Proofs.Grammar.Correspondence
import ViewModifiers.Proofs.Grammar.Sequences
import ViewModifiers.Proofs.Interface.Attributes
import ViewModifiers.Proofs.Interface.Branches
import ViewModifiers.Proofs.Interface.Declarations
import ViewModifiers.Proofs.Interface.LineBreaks
import ViewModifiers.Proofs.Interface.Literals
import ViewModifiers.Proofs.Interface.Sites
import ViewModifiers.Proofs.Live.Announcements
import ViewModifiers.Proofs.Live.Calls
import ViewModifiers.Proofs.Live.Confirmations
import ViewModifiers.Proofs.Live.Delivery
import ViewModifiers.Proofs.Live.Dependence
import ViewModifiers.Proofs.Live.Exchange
import ViewModifiers.Proofs.Live.Interruptions
import ViewModifiers.Proofs.Live.Lifetimes
import ViewModifiers.Proofs.Live.Rerun
import ViewModifiers.Proofs.Live.Signals
import ViewModifiers.Proofs.Live.Subscriptions
import ViewModifiers.Proofs.Modifiers.Forms
import ViewModifiers.Proofs.Modifiers.Isolation
import ViewModifiers.Proofs.Modifiers.Locality
import ViewModifiers.Proofs.Modifiers.Rendering
import ViewModifiers.Proofs.Modifiers.Segments
import ViewModifiers.Proofs.Overload.Accounting
import ViewModifiers.Proofs.Overload.Builders
import ViewModifiers.Proofs.Overload.Duplicates
import ViewModifiers.Proofs.Overload.Grouping
import ViewModifiers.Proofs.Platform.Conditions
import ViewModifiers.Proofs.Platform.Items
import ViewModifiers.Proofs.Signature.Layouts
import ViewModifiers.Proofs.Signature.Marks
import ViewModifiers.Proofs.Signature.Parts
import ViewModifiers.Proofs.Signature.PlainText
import ViewModifiers.Proofs.Signature.Relayout
import ViewModifiers.Proofs.Signature.Respacing
import ViewModifiers.Proofs.Signature.RoundTrip
import ViewModifiers.Proofs.Signature.TypeText
import ViewModifiers.Proofs.Table.Blocks
import ViewModifiers.Proofs.Table.Defaults
import ViewModifiers.Proofs.Table.Dispatch
import ViewModifiers.Proofs.Table.EntryPoints
import ViewModifiers.Proofs.Table.Inclusion
import ViewModifiers.Proofs.Table.Liveness
import ViewModifiers.Proofs.Table.Origins
import ViewModifiers.Proofs.Table.Typing
import ViewModifiers.Proofs.Text.Literals
import ViewModifiers.Proofs.Text.Pieces
import ViewModifiers.Proofs.Text.Positions
import ViewModifiers.Proofs.Value.AttributeTexts
import ViewModifiers.Proofs.Value.CanonicalNames
import ViewModifiers.Proofs.Value.Spellings
import ViewModifiers.Signature.Basic
import ViewModifiers.Signature.Declaration
import ViewModifiers.Signature.TypeExpr
import ViewModifiers.Signature.TypeGrammar
import ViewModifiers.Table.Basic
import ViewModifiers.Table.Binding
import ViewModifiers.Table.Compilation
import ViewModifiers.Text.Blank
import ViewModifiers.Text.Casing
import ViewModifiers.Text.Letter
import ViewModifiers.Text.Place
import ViewModifiers.Text.Quoted
import ViewModifiers.Text.Quoting
import ViewModifiers.Text.Split
import ViewModifiers.Text.Visible
import ViewModifiers.Value.Basic
import ViewModifiers.Value.Decoding
import ViewModifiers.Value.Kind
import ViewModifiers.Value.Mapping
import ViewModifiers.Value.Reference
import ViewModifiers.Yaml.Reader
