import LayoutMarkup.Binary64.Basic
import LayoutMarkup.Binary64.Rounding
import LayoutMarkup.Binary64.Shortest
import LayoutMarkup.Binary64.Text
import LayoutMarkup.Call.Basic
import LayoutMarkup.Call.Print
import LayoutMarkup.Call.Read
import LayoutMarkup.Command.Compile
import LayoutMarkup.Command.FilePath
import LayoutMarkup.Command.FileTree
import LayoutMarkup.Command.Request
import LayoutMarkup.Digits
import LayoutMarkup.Fault
import LayoutMarkup.Json.Read
import LayoutMarkup.Json.Value
import LayoutMarkup.Layout.Build
import LayoutMarkup.Layout.ClassNames
import LayoutMarkup.Layout.Component
import LayoutMarkup.Layout.Conversion
import LayoutMarkup.Layout.ProjectFile
import LayoutMarkup.Layout.Refusal
import LayoutMarkup.Layout.Settings
import LayoutMarkup.Layout.Term
import LayoutMarkup.Layout.Token
import LayoutMarkup.Lexeme.Basic
import LayoutMarkup.Lexeme.Move
import LayoutMarkup.Lexeme.Read
import LayoutMarkup.Main
import LayoutMarkup.Note
import LayoutMarkup.Proofs.Binary64.Rounding
import LayoutMarkup.Proofs.Binary64.Shortest
import LayoutMarkup.Proofs.Call.Contents
import LayoutMarkup.Proofs.Call.Demands
import LayoutMarkup.Proofs.Call.Extension
import LayoutMarkup.Proofs.Call.Extent
import LayoutMarkup.Proofs.Call.FaultPlaces
import LayoutMarkup.Proofs.Call.Legible
import LayoutMarkup.Proofs.Call.Nesting
import LayoutMarkup.Proofs.Call.Placement
import LayoutMarkup.Proofs.Call.Plain
import LayoutMarkup.Proofs.Call.Relocation
import LayoutMarkup.Proofs.Call.Reread
import LayoutMarkup.Proofs.Call.Rewriting
import LayoutMarkup.Proofs.Call.Spans
import LayoutMarkup.Proofs.Call.Steps
import LayoutMarkup.Proofs.Call.WhitespaceControl
import LayoutMarkup.Proofs.Command.FailFast
import LayoutMarkup.Proofs.Command.Files
import LayoutMarkup.Proofs.Command.OutDir
import LayoutMarkup.Proofs.Layout.Apart
import LayoutMarkup.Proofs.Layout.Arguments
import LayoutMarkup.Proofs.Layout.Assembly
import LayoutMarkup.Proofs.Layout.AttributeNames
import LayoutMarkup.Proofs.Layout.AttributeOrder
import LayoutMarkup.Proofs.Layout.Blindness
import LayoutMarkup.Proofs.Layout.Changes
import LayoutMarkup.Proofs.Layout.ComponentKeys
import LayoutMarkup.Proofs.Layout.Components
import LayoutMarkup.Proofs.Layout.Consumption
import LayoutMarkup.Proofs.Layout.DistinctNames
import LayoutMarkup.Proofs.Layout.EffectiveTerms
import LayoutMarkup.Proofs.Layout.Entries
import LayoutMarkup.Proofs.Layout.FirstRefusal
import LayoutMarkup.Proofs.Layout.Frame
import LayoutMarkup.Proofs.Layout.Idempotence
import LayoutMarkup.Proofs.Layout.NamingScheme
import LayoutMarkup.Proofs.Layout.Passes
import LayoutMarkup.Proofs.Layout.Pointwise
import LayoutMarkup.Proofs.Layout.ReadBack
import LayoutMarkup.Proofs.Layout.Reference
import LayoutMarkup.Proofs.Layout.SpanOrder
import LayoutMarkup.Proofs.Layout.StringArguments
import LayoutMarkup.Proofs.Layout.TokenGrammar
import LayoutMarkup.Proofs.Lexeme.Boundaries
import LayoutMarkup.Proofs.Lexeme.IntegerText
import LayoutMarkup.Proofs.Lexeme.Moves
import LayoutMarkup.Proofs.Lexeme.NumberText
import LayoutMarkup.Proofs.Lexeme.Numerals
import LayoutMarkup.Proofs.Lexeme.Strings
import LayoutMarkup.Proofs.Lexeme.Words
import LayoutMarkup.Proofs.Source.Cursor
import LayoutMarkup.Proofs.Source.Extension
import LayoutMarkup.Proofs.Source.Order
import LayoutMarkup.Proofs.Source.Passes
import LayoutMarkup.Proofs.Source.Places
import LayoutMarkup.Proofs.Source.Relocation
import LayoutMarkup.Proofs.Source.Slices
import LayoutMarkup.Proofs.Source.Stretch
import LayoutMarkup.Proofs.Template.Acyclic
import LayoutMarkup.Proofs.Template.Alignment
import LayoutMarkup.Proofs.Template.AttributeSpans
import LayoutMarkup.Proofs.Template.AttributeText
import LayoutMarkup.Proofs.Template.Balance
import LayoutMarkup.Proofs.Template.Blindness
import LayoutMarkup.Proofs.Template.Canonical
import LayoutMarkup.Proofs.Template.CanonicalForm
import LayoutMarkup.Proofs.Template.CanonicalReading
import LayoutMarkup.Proofs.Template.Concatenation
import LayoutMarkup.Proofs.Template.Covering
import LayoutMarkup.Proofs.Template.Each
import LayoutMarkup.Proofs.Template.Extension
import LayoutMarkup.Proofs.Template.FaultPlaces
import LayoutMarkup.Proofs.Template.FirstFailure
import LayoutMarkup.Proofs.Template.Fusion
import LayoutMarkup.Proofs.Template.KeepingUp
import LayoutMarkup.Proofs.Template.Kinds
import LayoutMarkup.Proofs.Template.Legible
import LayoutMarkup.Proofs.Template.Literals
import LayoutMarkup.Proofs.Template.Mustaches
import LayoutMarkup.Proofs.Template.Names
import LayoutMarkup.Proofs.Template.OtherHeads
import LayoutMarkup.Proofs.Template.OtherNodes
import LayoutMarkup.Proofs.Template.Parents
import LayoutMarkup.Proofs.Template.Pieces
import LayoutMarkup.Proofs.Template.Placement
import LayoutMarkup.Proofs.Template.RecursiveVisits
import LayoutMarkup.Proofs.Template.Relocation
import LayoutMarkup.Proofs.Template.Reprint
import LayoutMarkup.Proofs.Template.Reread
import LayoutMarkup.Proofs.Template.RereadNodes
import LayoutMarkup.Proofs.Template.Rewriting
import LayoutMarkup.Proofs.Template.RoundTrip
import LayoutMarkup.Proofs.Template.Spans
import LayoutMarkup.Proofs.Template.StartTags
import LayoutMarkup.Proofs.Template.Steps
import LayoutMarkup.Proofs.Template.Storage
import LayoutMarkup.Proofs.Template.Subtrees
import LayoutMarkup.Proofs.Template.TagRewriting
import LayoutMarkup.Proofs.Template.Tiling
import LayoutMarkup.Proofs.Template.Traversal
import LayoutMarkup.Proofs.Template.Values
import LayoutMarkup.Proofs.Template.Walks
import LayoutMarkup.Proofs.Template.WhitespaceControl
import LayoutMarkup.Proofs.Unicode.Blank
import LayoutMarkup.Quoted
import LayoutMarkup.Source.Cursor
import LayoutMarkup.Source.Position
import LayoutMarkup.Template.Basic
import LayoutMarkup.Template.Node
import LayoutMarkup.Template.Print
import LayoutMarkup.Template.Read
import LayoutMarkup.Template.StartTag
import LayoutMarkup.Template.Transform
import LayoutMarkup.Template.Tree
import LayoutMarkup.Template.Walk
import LayoutMarkup.Unicode.Alphabetic
import LayoutMarkup.Unicode.Class
import LayoutMarkup.Unicode.Extending
import LayoutMarkup.Unicode.Invisible
import LayoutMarkup.Unicode.Numeric
import LayoutMarkup.Unicode.Range
import LayoutMarkup.Proofs.Lexeme.Partition
import LayoutMarkup.Proofs.Call.Loops
import LayoutMarkup.Proofs.Template.NodeCount
import LayoutMarkup.Proofs.Template.Progress
import LayoutMarkup.Proofs.Template.PrintedTexts
import LayoutMarkup.Proofs.Template.ReservedWords
import LayoutMarkup.Proofs.Layout.ComponentColumns
import LayoutMarkup.Proofs.Layout.NumberedNames
import LayoutMarkup.Proofs.Layout.OrderedUnion
