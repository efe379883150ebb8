import FluentGen.Assembly.Basic
import FluentGen.Assembly.Files
import FluentGen.Assembly.Includes
import FluentGen.Builder.Basic
import FluentGen.Builder.Expansion
import FluentGen.CommandLine.Arguments
import FluentGen.CommandLine.Run
import FluentGen.Dictionary
import FluentGen.Emit.Basic
import FluentGen.Emit.Channel
import FluentGen.Emit.Writer
import FluentGen.Failure
import FluentGen.KeyMap
import FluentGen.Layout
import FluentGen.Log
import FluentGen.Log.Fill
import FluentGen.Main
import FluentGen.Name.Guard
import FluentGen.Name.Keyword
import FluentGen.Name.Reference
import FluentGen.Name.Style
import FluentGen.Name.TypeName
import FluentGen.Number.Binary
import FluentGen.Number.Decimal
import FluentGen.Number.Integer
import FluentGen.Options.Basic
import FluentGen.Options.Slot
import FluentGen.Options.Text
import FluentGen.Options.Wire
import FluentGen.Pattern.Basic
import FluentGen.Pattern.Match
import FluentGen.Pattern.Reader
import FluentGen.Proofs.Assembly.IncludeLines
import FluentGen.Proofs.Assembly.MessageType
import FluentGen.Proofs.Assembly.Sections
import FluentGen.Proofs.Assembly.Spacing
import FluentGen.Proofs.Builder.Collisions
import FluentGen.Proofs.Builder.Completion
import FluentGen.Proofs.Builder.Declarations
import FluentGen.Proofs.Builder.FieldDepth
import FluentGen.Proofs.Builder.Listing
import FluentGen.Proofs.Builder.Macros
import FluentGen.Proofs.Builder.Methods
import FluentGen.Proofs.Builder.Recorded
import FluentGen.Proofs.Builder.Routes
import FluentGen.Proofs.Builder.Spelled
import FluentGen.Proofs.Builder.TypeRecursion
import FluentGen.Proofs.Builder.Visits
import FluentGen.Proofs.CommandLine.FailedRun
import FluentGen.Proofs.Dictionary.Lineage
import FluentGen.Proofs.Emit.Moved
import FluentGen.Proofs.Emit.Stacked
import FluentGen.Proofs.KeyMap
import FluentGen.Proofs.Name.Scopes
import FluentGen.Proofs.Name.SnakeCase
import FluentGen.Proofs.Name.Style
import FluentGen.Proofs.Name.TypeName
import FluentGen.Proofs.Number.Reading
import FluentGen.Proofs.Number.Rounding
import FluentGen.Proofs.Number.ShortText
import FluentGen.Proofs.Options.Reading
import FluentGen.Proofs.Options.RoundTrip
import FluentGen.Proofs.Schema.Addresses
import FluentGen.Proofs.Schema.Closure
import FluentGen.Proofs.Schema.Declared
import FluentGen.Proofs.Schema.FileOrder
import FluentGen.Proofs.Schema.Groups
import FluentGen.Proofs.Schema.LiteralDefault
import FluentGen.Proofs.Schema.Nesting
import FluentGen.Proofs.Schema.Parts
import FluentGen.Proofs.Schema.PathNames
import FluentGen.Proofs.Schema.Regrouped
import FluentGen.Proofs.Setter.Completion
import FluentGen.Proofs.Setter.Definition
import FluentGen.Proofs.Setter.Diagnosis
import FluentGen.Proofs.Setter.Guard
import FluentGen.Proofs.Setter.Layers
import FluentGen.Proofs.Setter.MapAccess
import FluentGen.Proofs.Setter.Profile
import FluentGen.Proofs.Setter.Scope
import FluentGen.Proofs.Setter.SourceLocation
import FluentGen.Proofs.Setter.Unguarded
import FluentGen.Proofs.Store.Writes
import FluentGen.Proofs.Text.Character
import FluentGen.Proofs.Text.Escape
import FluentGen.Proofs.Text.Lines
import FluentGen.Proofs.Text.Substitution
import FluentGen.Proofs.TextFormat.Grammar
import FluentGen.Proofs.TextFormat.Marked
import FluentGen.Proofs.TextFormat.RoundTrip
import FluentGen.Proofs.TextFormat.SingleLine
import FluentGen.Proofs.TypeMap.Builtin
import FluentGen.Proofs.TypeMap.Duplicates
import FluentGen.Proofs.TypeMap.Entries
import FluentGen.Proofs.TypeMap.Expansions
import FluentGen.Proofs.TypeMap.Extension
import FluentGen.Proofs.TypeMap.Filing
import FluentGen.Proofs.TypeMap.GivenKeys
import FluentGen.Proofs.TypeMap.Refiled
import FluentGen.Proofs.TypeMap.Reload
import FluentGen.Proofs.TypeMap.Sharing
import FluentGen.Proofs.TypeMap.Spelling
import FluentGen.Proofs.TypeMap.Updates
import FluentGen.Schema.Declaration
import FluentGen.Schema.DescriptorSet
import FluentGen.Schema.FieldType
import FluentGen.Schema.Header
import FluentGen.Schema.Kind
import FluentGen.Schema.Load
import FluentGen.Schema.Pool
import FluentGen.Schema.Selection
import FluentGen.Setter.Basic
import FluentGen.Setter.Mode
import FluentGen.Setter.Write
import FluentGen.Settings.Basic
import FluentGen.Settings.Problem
import FluentGen.Settings.Value
import FluentGen.Store.Basic
import FluentGen.Store.Path
import FluentGen.Text.Basic
import FluentGen.Text.Case
import FluentGen.Text.CaseTable
import FluentGen.Text.Character
import FluentGen.Text.CharacterTable
import FluentGen.Text.Escape
import FluentGen.Text.Newline
import FluentGen.Text.Quoted
import FluentGen.Text.Substitution
import FluentGen.Text.Utf8
import FluentGen.TextFormat.Token
import FluentGen.TextFormat.Tree
import FluentGen.TypeMap.Builtin
import FluentGen.TypeMap.Dependency
import FluentGen.TypeMap.Load
import FluentGen.TypeMap.Lookup
import FluentGen.TypeMap.Shared
import FluentGen.TypeMap.Spelling
import FluentGen.TypeMap.Verify
import FluentGen.Wire
import FluentGen.Proofs.Schema.NumericDefault
import FluentGen.Proofs.TypeMap.AutomaticType
import FluentGen.Proofs.Setter.ResolvedType
import FluentGen.Proofs.Options.Pieces
import FluentGen.Proofs.Store.Rewriting
import FluentGen.Proofs.Pattern.Literal
import FluentGen.Proofs.Name.Reference
import FluentGen.Proofs.Settings.Checks
import FluentGen.Proofs.Settings.Settled
import FluentGen.Proofs.Schema.ListedFiles
