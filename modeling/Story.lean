import Story.Command
import Story.Diagnostic
import Story.Emit
import Story.Grammar.Content
import Story.Grammar.Expression
import Story.Grammar.Extension
import Story.Grammar.Line
import Story.Grammar.List
import Story.Grammar.Module
import Story.Grammar.Parser
import Story.Grammar.State
import Story.Grammar.Statement
import Story.Host.Basic
import Story.Host.Memory
import Story.Host.Tree
import Story.Json.Magnitude
import Story.Json.Read
import Story.Json.Write
import Story.Main
import Story.Path
import Story.Pattern.Basic
import Story.Pattern.CharSet
import Story.Pattern.Read
import Story.Project.Compile
import Story.Project.Failure
import Story.Project.Tool
import Story.Proofs.Arrangement
import Story.Proofs.Chains
import Story.Proofs.CommentSigns
import Story.Proofs.Composition
import Story.Proofs.Declarations
import Story.Proofs.Decoding
import Story.Proofs.EnvironmentPaths
import Story.Proofs.Filling
import Story.Proofs.Gives
import Story.Proofs.Imports
import Story.Proofs.Indents
import Story.Proofs.Lens
import Story.Proofs.LineBreaks
import Story.Proofs.LineEndings
import Story.Proofs.Lines
import Story.Proofs.Loops
import Story.Proofs.MappedLines
import Story.Proofs.Mappings
import Story.Proofs.Marks
import Story.Proofs.Matching
import Story.Proofs.Mirrors
import Story.Proofs.Moves
import Story.Proofs.Nesting
import Story.Proofs.Nodes
import Story.Proofs.NormalPaths
import Story.Proofs.Numbers
import Story.Proofs.OpenObjects
import Story.Proofs.Origins
import Story.Proofs.Outcomes
import Story.Proofs.OutputPaths
import Story.Proofs.Placeholders
import Story.Proofs.Places
import Story.Proofs.PlainQuotes
import Story.Proofs.Productions
import Story.Proofs.Progress
import Story.Proofs.Quotes
import Story.Proofs.Ranges
import Story.Proofs.Reads
import Story.Proofs.Recursion
import Story.Proofs.RelativePaths
import Story.Proofs.Reports
import Story.Proofs.Resolution
import Story.Proofs.Rewording
import Story.Proofs.Safety
import Story.Proofs.Scopes
import Story.Proofs.ScriptLiterals
import Story.Proofs.SeenNodes
import Story.Proofs.SharedOutputs
import Story.Proofs.Slices
import Story.Proofs.Statements
import Story.Proofs.Suffixes
import Story.Proofs.Targets
import Story.Proofs.Templates
import Story.Proofs.TextLines
import Story.Proofs.TextParts
import Story.Proofs.Tokenization
import Story.Proofs.TwinExpressions
import Story.Proofs.TwinLines
import Story.Proofs.TwinStatements
import Story.Proofs.Written
import Story.Proofs.WrittenFiles
import Story.Script.Generate
import Story.Script.IndentScope
import Story.Script.Literal
import Story.Script.Piece
import Story.Settings.Basic
import Story.Settings.Read
import Story.Shell.Printing
import Story.Shell.Run
import Story.Shell.Script
import Story.SourceMap.Basic
import Story.SourceMap.Mapping
import Story.SourceMap.Segment
import Story.Syntax.Incomplete
import Story.Syntax.Operator
import Story.Syntax.Outline
import Story.Syntax.Tree
import Story.Text.Blank
import Story.Text.Column
import Story.Text.Digit
import Story.Text.Identifier
import Story.Text.LetterCase
import Story.Text.NameCharacters
import Story.Text.Position
import Story.Text.Utf8
import Story.Token.Basic
import Story.Token.Scan
