import PathQuery.Number.Power
import PathQuery.Number.Binary64
import PathQuery.Number.Numeral
import PathQuery.Number.Shortest
import PathQuery.Number.DecimalSystem
import PathQuery.Number.Decimal
import PathQuery.Text.Ranges
import PathQuery.Text.Alphabetic
import PathQuery.Text.Numeric
import PathQuery.Text.Escaped
import PathQuery.Text.CharClass
import PathQuery.Position
import PathQuery.Token
import PathQuery.Token.Scan
import PathQuery.Number
import PathQuery.Operator
import PathQuery.Expr
import PathQuery.Expr.Canonical
import PathQuery.Expr.Parse
import PathQuery.Fields
import PathQuery.Value
import PathQuery.Value.Equality
import PathQuery.EvalError
import PathQuery.Arithmetic
import PathQuery.Comparison
import PathQuery.Context
import PathQuery.Text.Quoted
import PathQuery.Globals
import PathQuery.Host
import PathQuery.StableSort
import PathQuery.Collection
import PathQuery.Evaluation
import PathQuery.Json
import PathQuery.Json.Read
import PathQuery.Json.Write
import PathQuery.Json.Convert
import PathQuery.QueryCache
import PathQuery.Session
import PathQuery.Report
import PathQuery.Main
import PathQuery.Proofs.Derivation
import PathQuery.Proofs.Derivation.Tokens
import PathQuery.Proofs.Derivation.Regrouping
import PathQuery.Proofs.Parser.Runs
import PathQuery.Proofs.Parser.Productions
import PathQuery.Proofs.Parser.Soundness
import PathQuery.Proofs.Parser.Accepts
import PathQuery.Proofs.Parser.Completeness
import PathQuery.Proofs.Parser.Query
import PathQuery.Proofs.Number.Magnitude
import PathQuery.Proofs.Number.ReadBack
import PathQuery.Proofs.Token.Cursor
import PathQuery.Proofs.Token.Lexes
import PathQuery.Proofs.Token.Numbers
import PathQuery.Proofs.Number.Fits
import PathQuery.Proofs.Token.Lexed
import PathQuery.Proofs.Expr.Nodes
import PathQuery.Proofs.Expr.Tokens
import PathQuery.Proofs.Expr.Derivation
import PathQuery.Proofs.Expr.Parsed
import PathQuery.Proofs.Expr.RoundTrip
import PathQuery.Proofs.Parser.Paths
import PathQuery.Proofs.Evaluation.Runs
import PathQuery.Proofs.Evaluation.Composed
import PathQuery.Proofs.Evaluation.Keeps
import PathQuery.Proofs.Evaluation.Sequences
import PathQuery.Proofs.Host.Log
import PathQuery.Proofs.Host.Journal
import PathQuery.Proofs.Expr.Parts
import PathQuery.Proofs.Expr.Paths
import PathQuery.Proofs.Evaluation.Simulation
import PathQuery.Proofs.Evaluation.Simulation.Step
import PathQuery.Proofs.Evaluation.Simulation.SameHost
import PathQuery.Proofs.Evaluation.Options
import PathQuery.Proofs.Fields
import PathQuery.Proofs.Context
import PathQuery.Proofs.Evaluation.Visibility
import PathQuery.Proofs.Evaluation.Journaled
import PathQuery.Proofs.Evaluation.Names
import PathQuery.Proofs.Session.Store
import PathQuery.Proofs.Session.BareName
import PathQuery.Proofs.Session.FastPath
import PathQuery.Proofs.Session.Requests
import PathQuery.Proofs.Session.History
import PathQuery.Proofs.Number.Integers
import PathQuery.Proofs.Json.Members
import PathQuery.Proofs.Json.RoundTrip
import PathQuery.Proofs.Parser.Calls
import PathQuery.Proofs.Evaluation.Deferred
import PathQuery.Proofs.Token.Places
import PathQuery.Proofs.Token.Spelling
import PathQuery.Proofs.Token.Spacing
import PathQuery.Proofs.Parser.Places
import PathQuery.Proofs.Derivation.Marked
import PathQuery.Proofs.Parser.NullSafe
import PathQuery.Proofs.Derivation.Chain
import PathQuery.Proofs.Evaluation.Limit
import PathQuery.Proofs.Evaluation.ShortCircuit
import PathQuery.Proofs.Fields.Matching
import PathQuery.Proofs.Value.Parts
import PathQuery.Proofs.Number.Comparison
import PathQuery.Proofs.Value.Equality
import PathQuery.Proofs.Value.Ordering
import PathQuery.Proofs.Number.Overflow
import PathQuery.Proofs.Number.Rounding
import PathQuery.Proofs.Number.Order
import PathQuery.Proofs.Collection.Sort
import PathQuery.Proofs.Collection.SortNumbers
import PathQuery.Proofs.Collection.SortByKey
import PathQuery.Proofs.Arithmetic.Integers
import PathQuery.Proofs.Arithmetic.Remainder
import PathQuery.Proofs.Number.Decimal
import PathQuery.Proofs.Number.FromZero
import PathQuery.Proofs.Arithmetic.Negation
import PathQuery.Proofs.Expr.Signs
import PathQuery.Proofs.Evaluation.Signs
import PathQuery.Proofs.Evaluation.UntilLimit
import PathQuery.Proofs.Collection.Selectors
import PathQuery.Proofs.Collection.Extremes
import PathQuery.Proofs.Collection.Sums
import PathQuery.Proofs.Collection.Choosing
import PathQuery.Proofs.Collection.Unique
import PathQuery.Proofs.Expr.Height
import PathQuery.Proofs.Evaluation.Counted
import PathQuery.Proofs.Evaluation.Depth
import PathQuery.Proofs.Token.Delimiters
import PathQuery.Proofs.Parser.Meets
import PathQuery.Proofs.Parser.Delimiters
import PathQuery.Proofs.Token.NumberTexts
import PathQuery.Proofs.Parser.Machine
import PathQuery.Proofs.Parser.Machine.RunsAs
import PathQuery.Proofs.Parser.Machine.Untrapped
