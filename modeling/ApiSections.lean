import ApiSections.Command.Options
import ApiSections.Command.Run
import ApiSections.Comment.Basic
import ApiSections.Comment.Read
import ApiSections.Declaration.Basic
import ApiSections.Declaration.Member
import ApiSections.Declaration.Symbol
import ApiSections.Display.Infer
import ApiSections.Display.Returned
import ApiSections.Document.Heading
import ApiSections.Document.Marker
import ApiSections.Document.Splice
import ApiSections.Document.Update
import ApiSections.Failure.Basic
import ApiSections.Failure.Problem
import ApiSections.File.Glob
import ApiSections.File.Path
import ApiSections.File.Replace
import ApiSections.File.Tree
import ApiSections.Fragment.Block
import ApiSections.Fragment.Kind
import ApiSections.Fragment.Render
import ApiSections.Fragment.Resolve
import ApiSections.Link.Linker
import ApiSections.Link.Url
import ApiSections.Log.Record
import ApiSections.Lookup.Alias
import ApiSections.Lookup.Member
import ApiSections.Main
import ApiSections.Module.Basic
import ApiSections.Module.Bind
import ApiSections.Module.Specifier
import ApiSections.Number.Binary64
import ApiSections.Number.Literal
import ApiSections.Proofs.Declaration.Given
import ApiSections.Proofs.Display.Likeness
import ApiSections.Proofs.Display.Parts
import ApiSections.Proofs.Display.Scopes
import ApiSections.Proofs.Document.Atomicity
import ApiSections.Proofs.Document.Completeness
import ApiSections.Proofs.Document.Filling
import ApiSections.Proofs.Document.Fixpoint
import ApiSections.Proofs.Document.Heading
import ApiSections.Proofs.Document.Idempotence
import ApiSections.Proofs.Document.Layout
import ApiSections.Proofs.Document.Reading
import ApiSections.Proofs.Document.Scan
import ApiSections.Proofs.Document.Sharing
import ApiSections.Proofs.Document.Splicing
import ApiSections.Proofs.Document.Stability
import ApiSections.Proofs.File.Replace
import ApiSections.Proofs.Fragment.Faults
import ApiSections.Proofs.Fragment.Likeness
import ApiSections.Proofs.Fragment.Reexport
import ApiSections.Proofs.Fragment.Settled
import ApiSections.Proofs.Fragment.Ended
import ApiSections.Proofs.Lookup.Bound
import ApiSections.Proofs.Lookup.Chain
import ApiSections.Proofs.Lookup.Likeness
import ApiSections.Proofs.Lookup.Placed
import ApiSections.Proofs.Lookup.Values
import ApiSections.Proofs.Module.Tables
import ApiSections.Proofs.Syntax.Grammar
import ApiSections.Proofs.Syntax.Laid
import ApiSections.Proofs.Syntax.Orderly
import ApiSections.Proofs.Syntax.Subnodes
import ApiSections.Proofs.Text.Lines
import ApiSections.Proofs.Text.Utf8
import ApiSections.Proofs.Workspace.Likeness
import ApiSections.Proofs.Workspace.Modules
import ApiSections.Proofs.Workspace.Returns
import ApiSections.Proofs.Workspace.Sound
import ApiSections.Proofs.Workspace.Undisturbed
import ApiSections.Proofs.Workspace.Walk
import ApiSections.Settings
import ApiSections.Syntax.Dialect
import ApiSections.Syntax.Grammar.Basic
import ApiSections.Syntax.Grammar.Element
import ApiSections.Syntax.Grammar.Expression
import ApiSections.Syntax.Grammar.Member
import ApiSections.Syntax.Grammar.Pattern
import ApiSections.Syntax.Grammar.Statement
import ApiSections.Syntax.Grammar.Type
import ApiSections.Syntax.Kind
import ApiSections.Syntax.Node
import ApiSections.Syntax.Rule
import ApiSections.Syntax.Scanner
import ApiSections.Syntax.Source
import ApiSections.Text.Blank
import ApiSections.Text.LetterCase
import ApiSections.Text.Lines
import ApiSections.Text.Printable
import ApiSections.Text.Utf8
import ApiSections.Text.Word
import ApiSections.Tool.Run
import ApiSections.Tool.Shell
import ApiSections.TypeText.Callable
import ApiSections.TypeText.Literal
import ApiSections.TypeText.Print
import ApiSections.Value.Basic
import ApiSections.Value.Display
import ApiSections.Value.Json
import ApiSections.Workspace.Basic
import ApiSections.Workspace.Load
import ApiSections.Workspace.Walk
import ApiSections.Proofs.Document.Framing
import ApiSections.Proofs.Document.MarkerLine
import ApiSections.Proofs.Comment.Layout
import ApiSections.Proofs.Module.Binding
import ApiSections.Proofs.Module.Bound
import ApiSections.Proofs.Fragment.Declared
import ApiSections.Proofs.Document.Boundary
import ApiSections.Proofs.Document.Rows
import ApiSections.Proofs.Document.CodeBlocks
import ApiSections.Proofs.Comment.Code
import ApiSections.Proofs.Lookup.Trail
import ApiSections.Proofs.Lookup.Unfolding
import ApiSections.Proofs.Display.Unfolding
import ApiSections.Proofs.Display.ConstAccess
import ApiSections.Proofs.Display.Composite
import ApiSections.Proofs.TypeText.Arrow
import ApiSections.Proofs.TypeText.Quoting
import ApiSections.Proofs.TypeText.Whitespace
import ApiSections.Proofs.Fragment.Bodies
import ApiSections.Proofs.Fragment.Strings
import ApiSections.Proofs.Display.ShownFunction
import ApiSections.Proofs.Fragment.FunctionValue
import ApiSections.Proofs.Fragment.Remarks
import ApiSections.Proofs.Number.Shortest
import ApiSections.Proofs.Number.Spelling
import ApiSections.Proofs.Number.Numeral
import ApiSections.Proofs.Display.Widening
import ApiSections.Proofs.Number.Canonical
import ApiSections.Proofs.TypeText.Kept
import ApiSections.Proofs.Settings.History
import ApiSections.Proofs.Link.Asked
import ApiSections.Proofs.Comment.Place
import ApiSections.Proofs.Comment.TypeExpression
