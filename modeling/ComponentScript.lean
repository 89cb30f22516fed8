import ComponentScript.Component.Basic
import ComponentScript.Component.Convert
import ComponentScript.Component.Json
import ComponentScript.Convert.Call
import ComponentScript.Convert.Catching
import ComponentScript.Convert.CompositeFormat
import ComponentScript.Convert.Converter
import ComponentScript.Convert.Creation
import ComponentScript.Convert.Engine
import ComponentScript.Convert.Expression
import ComponentScript.Convert.Iteration
import ComponentScript.Convert.PatternTest
import ComponentScript.Convert.Rule
import ComponentScript.Convert.Session
import ComponentScript.Convert.Sharing
import ComponentScript.Convert.Statement
import ComponentScript.Convert.SwitchExpr
import ComponentScript.Convert.SwitchStmt
import ComponentScript.Diagnostic
import ComponentScript.Json.Basic
import ComponentScript.Json.Fields
import ComponentScript.Json.Grammar
import ComponentScript.Json.Printer
import ComponentScript.Json.Reading
import ComponentScript.Model.Basic
import ComponentScript.Model.Category
import ComponentScript.Model.Symbol
import ComponentScript.Model.Table
import ComponentScript.Rules.Arithmetic
import ComponentScript.Rules.Builtin
import ComponentScript.Rules.Collection
import ComponentScript.Rules.Lookup
import ComponentScript.Rules.Printing
import ComponentScript.Rules.Promise
import ComponentScript.Rules.Query
import ComponentScript.Rules.Service
import ComponentScript.Rules.Sort
import ComponentScript.Rules.Strings
import ComponentScript.Rules.Structure
import ComponentScript.Script.Layout
import ComponentScript.Script.Name
import ComponentScript.Script.Numeral
import ComponentScript.Script.Operand
import ComponentScript.Script.Quoted
import ComponentScript.Script.Template
import ComponentScript.Settings
import ComponentScript.Settings.File
import ComponentScript.Syntax.Build
import ComponentScript.Syntax.Decode
import ComponentScript.Syntax.Depth
import ComponentScript.Syntax.Encode
import ComponentScript.Syntax.Operator
import ComponentScript.Syntax.Span
import ComponentScript.Syntax.Tree
import ComponentScript.Syntax.TypeRef
import ComponentScript.Syntax.Walk
import ComponentScript.Text.Alphabetic
import ComponentScript.Text.Blank
import ComponentScript.Text.Case
import ComponentScript.Text.Decimal
import ComponentScript.Text.Dotted
import ComponentScript.Text.Lines
import ComponentScript.Text.Numeric
import ComponentScript.Text.Ranges
import ComponentScript.Toml.Basic
import ComponentScript.Toml.Quoted
import ComponentScript.Toml.Reader
import ComponentScript.Toml.Scalar
import ComponentScript.Proofs.Convert.Lockstep
import ComponentScript.Proofs.Convert.Covered
import ComponentScript.Proofs.Rules.Local
import ComponentScript.Proofs.Convert.Restores
import ComponentScript.Proofs.Convert.LexicalScope
import ComponentScript.Proofs.Json.Reads
import ComponentScript.Proofs.Syntax.RoundTrip
import ComponentScript.Proofs.Script.Names
import ComponentScript.Proofs.Convert.Writes
import ComponentScript.Proofs.Convert.ClosedText
import ComponentScript.Proofs.Convert.ClosedStatements
import ComponentScript.Proofs.Rules.ClosedText
import ComponentScript.Proofs.Rules.Legible
import ComponentScript.Proofs.Convert.LexicallyClosed
import ComponentScript.Proofs.Convert.OutVariables
import ComponentScript.Proofs.Syntax.Nodes
import ComponentScript.Proofs.Syntax.Retext
import ComponentScript.Proofs.Convert.Calls
import ComponentScript.Proofs.Convert.Retexted
import ComponentScript.Proofs.Convert.PartCalls
import ComponentScript.Proofs.Convert.StatementCalls
import ComponentScript.Proofs.Rules.Calls
import ComponentScript.Proofs.Convert.NodeCalls
import ComponentScript.Proofs.Convert.Passthrough
import ComponentScript.Proofs.Convert.ReportedOnce
import ComponentScript.Proofs.Draft.Basic
import ComponentScript.Proofs.Draft.Pattern
import ComponentScript.Proofs.Draft.Expression
import ComponentScript.Proofs.Draft.Sharing
import ComponentScript.Proofs.Draft.Rules
import ComponentScript.Proofs.Draft.Query
import ComponentScript.Proofs.Draft.Placed
import ComponentScript.Proofs.Draft.Awaits
import ComponentScript.Proofs.Convert.Resolution
import ComponentScript.Proofs.Convert.Dispatch
import ComponentScript.Proofs.Draft.Mentions
import ComponentScript.Proofs.Rules.Arrangement
import ComponentScript.Proofs.Rules.QueryArrangement
import ComponentScript.Proofs.Rules.Evaluation
import ComponentScript.Proofs.Convert.Dependence
import ComponentScript.Proofs.Convert.FreshNames
import ComponentScript.Proofs.Json.Printed
import ComponentScript.Proofs.Model.Table
import ComponentScript.Proofs.Component.Members
import ComponentScript.Proofs.Convert.ResourceNesting
import ComponentScript.Proofs.Convert.SubjectUses
import ComponentScript.Proofs.Script.Formula
import ComponentScript.Proofs.Script.Operands
import ComponentScript.Proofs.Convert.PatternMeaning
import ComponentScript.Proofs.Convert.Choice
import ComponentScript.Proofs.Convert.SwitchForms
import ComponentScript.Proofs.Convert.CaughtFrame
import ComponentScript.Proofs.Script.Terms
import ComponentScript.Proofs.Script.IfChain
import ComponentScript.Proofs.Convert.Handlers
import ComponentScript.Proofs.Convert.CatchVariables
import ComponentScript.Proofs.Convert.CompositeFormat
import ComponentScript.Proofs.Script.Comparator
import ComponentScript.Proofs.Rules.SortChain
import ComponentScript.Proofs.Convert.Legible
import ComponentScript.Proofs.Convert.LegibleStatements
import ComponentScript.Proofs.Convert.LegibleTrees
import ComponentScript.Proofs.Script.ChainTexts
import ComponentScript.Proofs.Rules.QueryChain
import ComponentScript.Proofs.Script.StringLiteral
import ComponentScript.Proofs.Script.TemplateLiteral
import ComponentScript.Proofs.Convert.InterpolatedStrings
import ComponentScript.Proofs.Convert.MemberNames
import ComponentScript.Proofs.Script.SimpleOperands
import ComponentScript.Proofs.Convert.FlatTemplates
import ComponentScript.Proofs.Convert.HiddenOperators
import ComponentScript.Proofs.Convert.BareOperands
import ComponentScript.Proofs.Convert.CatchDispatch
import ComponentScript.Proofs.Syntax.Precedence
import ComponentScript.Proofs.Convert.UnmixedChains
import ComponentScript.Proofs.Text.Case
import ComponentScript.Proofs.Script.CamelCase
import ComponentScript.Proofs.Script.TemplateText
import ComponentScript.Proofs.Script.NumericLiteral
import ComponentScript.Proofs.Text.NameClasses
import ComponentScript.Proofs.Convert.ObjectKeys
import ComponentScript.Proofs.Convert.SharedOperands
import ComponentScript.Proofs.Script.ArrowCall
import ComponentScript.Proofs.Convert.Composition
