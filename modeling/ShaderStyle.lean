import ShaderStyle.Double.Basic
import ShaderStyle.Double.Shortest
import ShaderStyle.Double.Layout
import ShaderStyle.Double.Reading
import ShaderStyle.Text.Blank
import ShaderStyle.Text.Lowercase
import ShaderStyle.Text.Printable
import ShaderStyle.Text.Quoted
import ShaderStyle.OrderedMap
import ShaderStyle.Path
import ShaderStyle.Timestamp
import ShaderStyle.Value.Basic
import ShaderStyle.Value.Key
import ShaderStyle.Value.Printer
import ShaderStyle.Kind
import ShaderStyle.Operator
import ShaderStyle.LogLevel
import ShaderStyle.Color.Basic
import ShaderStyle.Color.Names
import ShaderStyle.Color.Reading
import ShaderStyle.Glsl.Name
import ShaderStyle.Glsl.Term
import ShaderStyle.Shader
import ShaderStyle.Diagnostic
import ShaderStyle.Issue
import ShaderStyle.Expr
import ShaderStyle.Node.Basic
import ShaderStyle.Node.Reading
import ShaderStyle.Node.Typing
import ShaderStyle.Builder
import ShaderStyle.Categories
import ShaderStyle.Registry
import ShaderStyle.Emission
import ShaderStyle.Style
import ShaderStyle.Encoding
import ShaderStyle.Compile
import ShaderStyle.Document.Letter
import ShaderStyle.Document.Source
import ShaderStyle.Document.Scalar
import ShaderStyle.Document.Basic
import ShaderStyle.Document.Token
import ShaderStyle.Document.Lexer
import ShaderStyle.Document.Grammar
import ShaderStyle.Document.Resolution
import ShaderStyle.Document.Decoding
import ShaderStyle.Text.Distance
import ShaderStyle.JsonTree
import ShaderStyle.Report
import ShaderStyle.Command.Files
import ShaderStyle.Command.Arguments
import ShaderStyle.Command.Run
import ShaderStyle.Main
import ShaderStyle.Proofs.OrderedMap
import ShaderStyle.Proofs.Shader
import ShaderStyle.Proofs.Categories
import ShaderStyle.Proofs.Double.Integer
import ShaderStyle.Proofs.Typing.Sets
import ShaderStyle.Proofs.Typing.WellFormed
import ShaderStyle.Proofs.Typing.WellTyped
import ShaderStyle.Proofs.Typing.Soundness
import ShaderStyle.Proofs.Typing.Reports
import ShaderStyle.Proofs.Typing.Principal
import ShaderStyle.Proofs.Typing.Answers
import ShaderStyle.Proofs.Glsl.Lexer
import ShaderStyle.Proofs.Glsl.Parser
import ShaderStyle.Proofs.Glsl.Spelling
import ShaderStyle.Proofs.Glsl.Literal
import ShaderStyle.Proofs.Glsl.Name
import ShaderStyle.Proofs.Glsl.Checking
import ShaderStyle.Proofs.Registry.Steps
import ShaderStyle.Proofs.Registry.Reference
import ShaderStyle.Proofs.Registry.Declarations
import ShaderStyle.Proofs.Emission.Operator
import ShaderStyle.Proofs.Emission.Term
import ShaderStyle.Proofs.Emission.Literals
import ShaderStyle.Proofs.Emission.Tree
import ShaderStyle.Proofs.Emission.Spelling
import ShaderStyle.Proofs.Emission.Context
import ShaderStyle.Proofs.Emission.ReadBack
import ShaderStyle.Proofs.Emission.Checking
import ShaderStyle.Proofs.Emission.TypeCheck
import ShaderStyle.Proofs.Compile.Trace
import ShaderStyle.Proofs.Compile.Events
import ShaderStyle.Proofs.Compile.Result
import ShaderStyle.Proofs.Compile.Agreement
import ShaderStyle.Proofs.Tabulation
import ShaderStyle.Proofs.Registry.Tables
import ShaderStyle.Proofs.Emission.Records
import ShaderStyle.Proofs.Emission.Sequence
import ShaderStyle.Proofs.Emission.Consistency
import ShaderStyle.Proofs.Compile.Complete
import ShaderStyle.Proofs.Compile.Tables
import ShaderStyle.Proofs.Compile.VariableTypes
import ShaderStyle.Proofs.Compile.Widths
import ShaderStyle.Proofs.Emission.Progress
import ShaderStyle.Proofs.Emission.Copies
import ShaderStyle.Proofs.Emission.Passing
import ShaderStyle.Proofs.Emission.Uses
import ShaderStyle.Proofs.Compile.Sections
import ShaderStyle.Proofs.Compile.FragmentCopies
import ShaderStyle.Proofs.Compile.InitialValues
import ShaderStyle.Proofs.Emission.Operations
import ShaderStyle.Proofs.Registry.Calls
import ShaderStyle.Proofs.Compile.References
import ShaderStyle.Proofs.Compile.Capture
import ShaderStyle.Proofs.Compile.Comparisons
import ShaderStyle.Proofs.Typing.Assembly
import ShaderStyle.Proofs.Emission.Parts
import ShaderStyle.Proofs.Typing.Rendering
import ShaderStyle.Proofs.Typing.Blame
import ShaderStyle.Proofs.Emission.Refusals
import ShaderStyle.Proofs.Compile.Defects
import ShaderStyle.Proofs.Glsl.Valuation
import ShaderStyle.Proofs.Emission.Choices
import ShaderStyle.Proofs.Compile.Choices
import ShaderStyle.Proofs.Compile.Strays
import ShaderStyle.Proofs.Double.Rounding
import ShaderStyle.Proofs.Color.Channels
import ShaderStyle.Proofs.Color.Notation
import ShaderStyle.Proofs.Color.Range
import ShaderStyle.Proofs.Color.Packing
import ShaderStyle.Proofs.Glsl.Arithmetic
import ShaderStyle.Proofs.Glsl.Interpolation
import ShaderStyle.Proofs.Glsl.Unpacking
import ShaderStyle.Proofs.Typing.Stops
import ShaderStyle.Proofs.Emission.Values
import ShaderStyle.Proofs.Emission.Interpolation
import ShaderStyle.Proofs.Emission.Colors
import ShaderStyle.Proofs.Typing.Places
import ShaderStyle.Proofs.Typing.Literals
import ShaderStyle.Proofs.Typing.OperandOrder
import ShaderStyle.Proofs.Typing.History
import ShaderStyle.Proofs.Color.Hexadecimal
import ShaderStyle.IndexedMap
import ShaderStyle.Proofs.OrderedMap.History
import ShaderStyle.Proofs.IndexedMap
import ShaderStyle.Proofs.Shader.History
