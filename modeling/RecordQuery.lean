import RecordQuery.CompileError
import RecordQuery.Compiler
import RecordQuery.Decimal.Basic
import RecordQuery.Decimal.Rounding
import RecordQuery.Decimal.Truncation
import RecordQuery.Descriptor.Basic
import RecordQuery.Descriptor.Json
import RecordQuery.Diagnostic.Basic
import RecordQuery.Diagnostic.Report
import RecordQuery.Diagnostic.Suggestion
import RecordQuery.Dictionary
import RecordQuery.Filter.Basic
import RecordQuery.Filter.OfIndex
import RecordQuery.IndexCollection
import RecordQuery.Json.Basic
import RecordQuery.Json.Parser
import RecordQuery.Json.Printer
import RecordQuery.ParticleType
import RecordQuery.Program.Basic
import RecordQuery.Program.Fragment
import RecordQuery.Program.Json
import RecordQuery.Program.Ordering
import RecordQuery.Program.Pattern
import RecordQuery.Program.PatternFlags
import RecordQuery.Proofs.Compiler.Assembly
import RecordQuery.Proofs.Compiler.Declaring
import RecordQuery.Proofs.Compiler.Failure
import RecordQuery.Proofs.Compiler.Layout
import RecordQuery.Proofs.Compiler.Locality
import RecordQuery.Proofs.Compiler.Quoting
import RecordQuery.Proofs.Compiler.Refusal
import RecordQuery.Proofs.Decimal.Numeral
import RecordQuery.Proofs.Decimal.Range
import RecordQuery.Proofs.Decimal.Rounding
import RecordQuery.Proofs.Decimal.Truncation
import RecordQuery.Proofs.Descriptor.Json
import RecordQuery.Proofs.Expression.Basic
import RecordQuery.Proofs.Expression.Composition
import RecordQuery.Proofs.Expression.DoubleNot
import RecordQuery.Proofs.Expression.Ordering
import RecordQuery.Proofs.Expression.Parentheses
import RecordQuery.Proofs.Expression.Reading
import RecordQuery.Proofs.Filter.Clause
import RecordQuery.Proofs.Filter.Text
import RecordQuery.Proofs.Grammar.Basic
import RecordQuery.Proofs.Grammar.Index
import RecordQuery.Proofs.Grammar.Statement
import RecordQuery.Proofs.Json.Printing
import RecordQuery.Proofs.Program.Json
import RecordQuery.Proofs.Program.Machine
import RecordQuery.Proofs.Program.Meaning
import RecordQuery.Proofs.Program.Pattern
import RecordQuery.Proofs.Program.PatternFlags
import RecordQuery.Proofs.Program.Units
import RecordQuery.Proofs.Registry
import RecordQuery.Proofs.Schema.Json
import RecordQuery.Proofs.Statement.Agreement
import RecordQuery.Proofs.Statement.Bare
import RecordQuery.Proofs.Statement.Caret
import RecordQuery.Proofs.Statement.ClauseTexts
import RecordQuery.Proofs.Statement.Faults
import RecordQuery.Proofs.Statement.Filing
import RecordQuery.Proofs.Statement.Findings
import RecordQuery.Proofs.Statement.Holding
import RecordQuery.Proofs.Statement.Parsing.Condition
import RecordQuery.Proofs.Statement.Parsing.Index
import RecordQuery.Proofs.Statement.Parsing.Literal
import RecordQuery.Proofs.Statement.Parsing.Statement
import RecordQuery.Proofs.Statement.Piece
import RecordQuery.Proofs.Statement.Placing
import RecordQuery.Proofs.Statement.PlainCondition
import RecordQuery.Proofs.Statement.Printing
import RecordQuery.Proofs.Statement.Proceeding
import RecordQuery.Proofs.Statement.Recovery
import RecordQuery.Proofs.Statement.Reports
import RecordQuery.Proofs.Statement.Rereading
import RecordQuery.Proofs.Statement.Respelling
import RecordQuery.Proofs.Statement.RoundTrip
import RecordQuery.Proofs.Statement.Session
import RecordQuery.Proofs.Statement.Spelling
import RecordQuery.Proofs.Statement.Stopping
import RecordQuery.Proofs.Statement.Taking
import RecordQuery.Proofs.Text.Latin
import RecordQuery.Proofs.Text.Lines
import RecordQuery.Proofs.Text.Uppercase
import RecordQuery.Proofs.Token.Agreement
import RecordQuery.Proofs.Token.Alone
import RecordQuery.Proofs.Token.Coverage
import RecordQuery.Proofs.Token.Joining
import RecordQuery.Proofs.Token.Scanning
import RecordQuery.Proofs.Token.Stream
import RecordQuery.Proofs.Token.Tests
import RecordQuery.Proofs.Token.Weight
import RecordQuery.Proofs.TypeName
import RecordQuery.Registry
import RecordQuery.Schema.Basic
import RecordQuery.Schema.Json
import RecordQuery.Statement.Basic
import RecordQuery.Statement.Parser
import RecordQuery.Statement.Parser.Condition
import RecordQuery.Statement.Parser.Index
import RecordQuery.Statement.Parser.Literal
import RecordQuery.Statement.Printer
import RecordQuery.Statement.Relation
import RecordQuery.Statement.SyntaxError
import RecordQuery.Statement.TokenReader
import RecordQuery.Statement.Visitor
import RecordQuery.Text.Alphabetic
import RecordQuery.Text.Blank
import RecordQuery.Text.Escaped
import RecordQuery.Text.Extender
import RecordQuery.Text.Hexadecimal
import RecordQuery.Text.Lines
import RecordQuery.Text.Lowercase
import RecordQuery.Text.Numeric
import RecordQuery.Text.Position
import RecordQuery.Text.Printable
import RecordQuery.Text.Quoted
import RecordQuery.Text.Ranges
import RecordQuery.Text.Uppercase
import RecordQuery.Token.Basic
import RecordQuery.Token.Lexer
import RecordQuery.Token.Stream
import RecordQuery.UnknownName
import RecordQuery.Word
