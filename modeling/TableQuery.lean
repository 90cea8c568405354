import TableQuery.Database.Events
import TableQuery.Engine.Events
import TableQuery.Main
import TableQuery.Pattern.Captured
import TableQuery.Proofs.Text.Folding
import TableQuery.Proofs.Text.Runs
import TableQuery.Proofs.Regex.Run
import TableQuery.Proofs.Dialect.Spelling
import TableQuery.Proofs.Pattern.Run
import TableQuery.Proofs.Dialect.Literals
import TableQuery.Proofs.Dialect.Strings
import TableQuery.Proofs.Dialect.Operands
import TableQuery.Proofs.Dialect.Columns
import TableQuery.Proofs.Dialect.Clauses
import TableQuery.Proofs.Dialect.Lexicon
import TableQuery.Proofs.Dialect.Queries
import TableQuery.Proofs.Query.Parse
import TableQuery.Proofs.Pipeline.Meaning
import TableQuery.Proofs.Pipeline.Comparison
import TableQuery.Proofs.Engine.Meaning
import TableQuery.Proofs.Engine.Missing
import TableQuery.Proofs.Engine.Resolution
import TableQuery.Proofs.Binary64.Nearest
import TableQuery.Proofs.Keyed.Repeated
import TableQuery.Proofs.Json.Settled
import TableQuery.Proofs.Json.Strings
import TableQuery.Proofs.Json.Numbers
import TableQuery.Proofs.Json.Grammar
import TableQuery.Proofs.Json.Reading
import TableQuery.Proofs.Json.Printing
import TableQuery.Proofs.Database.Loading
import TableQuery.Proofs.Database.RoundTrip
import TableQuery.Proofs.Engine.Growth
import TableQuery.Proofs.Pattern.Places
import TableQuery.Proofs.Pattern.Repetition
import TableQuery.Proofs.Pattern.Parts
import TableQuery.Proofs.Pattern.Remainders
import TableQuery.Proofs.Dialect.Escapes
import TableQuery.Proofs.Binary64.Decimals
import TableQuery.Proofs.Dialect.Numerals
import TableQuery.Proofs.Dialect.Scanning
import TableQuery.Proofs.Binary64.Order
import TableQuery.Proofs.Text.CodePoints
import TableQuery.Proofs.Value.Order
import TableQuery.Proofs.Pipeline.Ordering
import TableQuery.Proofs.Engine.Placement
import TableQuery.Proofs.Pipeline.Selection
import TableQuery.Proofs.Engine.Reports
import TableQuery.Proofs.Engine.Stages
import TableQuery.Proofs.Binary64.Shortest
import TableQuery.Proofs.Binary64.Scaling
import TableQuery.Proofs.Json.Decimals
import TableQuery.Proofs.Json.Rereading
import TableQuery.Proofs.Json.Injective
import TableQuery.Proofs.Command.Rendering
import TableQuery.Proofs.Query.Rendering
import TableQuery.Proofs.Row.History
import TableQuery.Proofs.Database.History
import TableQuery.Proofs.Command.Listing
import TableQuery.Proofs.Pattern.Anchoring
import TableQuery.Proofs.Dialect.Notation
import TableQuery.Proofs.Dialect.Typing
import TableQuery.Proofs.Binary64.Integer
import TableQuery.Proofs.Binary64.Bits
import TableQuery.Proofs.Json.Integers
