import Parsing.Cursor.Text
import Parsing.Cursor.Tokens
import Parsing.Grammar.Workshop
import Parsing.Operator.Table
import Parsing.Parser.Run
import Parsing.Text.Engine
import Parsing.Text.Pattern
import Parsing.Value.Function
import Parsing.Value.Text
import Parsing.Proofs.Cursor.Progress
import Parsing.Proofs.Cursor.Pairing
import Parsing.Proofs.Cursor.Steps
import Parsing.Proofs.Cursor.Moves
import Parsing.Proofs.Cursor.Stretches
import Parsing.Proofs.Recognizer.Counts
import Parsing.Proofs.Recognizer.Unrolled
import Parsing.Proofs.Recognizer.Simulation
import Parsing.Proofs.Text.Whole
import Parsing.Proofs.Parser.Parts
import Parsing.Proofs.Parser.Simulation
import Parsing.Proofs.Parser.Dialogue
import Parsing.Proofs.Parser.Bounds
import Parsing.Proofs.Parser.Errors
import Parsing.Proofs.Parser.Conditions
import Parsing.Proofs.Parser.Conduct
import Parsing.Proofs.Parser.Refinement
import Parsing.Proofs.Parser.Ahead
import Parsing.Proofs.Parser.Memo
import Parsing.Proofs.Parser.Visits
import Parsing.Proofs.Parser.Accounts
import Parsing.Proofs.Parser.Deferral
import Parsing.Proofs.Parser.Forward
import Parsing.Proofs.Parser.Bookkeeping
import Parsing.Proofs.Parser.Ledger
import Parsing.Proofs.Parser.Grounded
import Parsing.Proofs.Parser.Settled
import Parsing.Proofs.Parser.Names
import Parsing.Proofs.Parser.Unfolding
import Parsing.Proofs.Parser.Lockstep
import Parsing.Proofs.Text.Agreement
import Parsing.Proofs.Text.Suffix
import Parsing.Proofs.Text.Scan
import Parsing.Proofs.Text.CInteger
import Parsing.Proofs.Text.Numeral
import Parsing.Proofs.Text.Radix
import Parsing.Proofs.Text.StringItems
import Parsing.Proofs.Text.Offsets
import Parsing.Proofs.Text.Identifiers
import Parsing.Proofs.Text.Lengths
import Parsing.Proofs.Text.Lexeme
import Parsing.Proofs.Text.Delimiter
import Parsing.Proofs.Text.LengthPrefixed
import Parsing.Proofs.Text.Blanks
import Parsing.Proofs.Text.Quoting
import Parsing.Proofs.Pattern.Nesting
import Parsing.Proofs.Pattern.Anchored
import Parsing.Proofs.Text.Anchoring
import Parsing.Proofs.Recognizer.Runs
import Parsing.Proofs.Recognizer.Choices
import Parsing.Proofs.Recognizer.Loops
import Parsing.Proofs.Recognizer.Rounds
import Parsing.Proofs.Recognizer.Repetition
import Parsing.Proofs.Recognizer.Separated
import Parsing.Proofs.Parser.Readings
import Parsing.Proofs.Json.Grammar
import Parsing.Proofs.Json.RoundTrip
import Parsing.Proofs.Operator.Levels
import Parsing.Proofs.Operator.Grouping
import Parsing.Proofs.Operator.Layers
import Parsing.Proofs.Operator.Stratified
import Parsing.Proofs.Grammar.Building
import Parsing.Proofs.Grammar.LifeCycle
import Parsing.Proofs.Grammar.Alive
import Parsing.Proofs.Grammar.Closed
import Parsing.Proofs.Grammar.Plain
import Parsing.Proofs.Grammar.Packrat
import Parsing.Proofs.Grammar.Invocations
import Parsing.Proofs.Grammar.Recall
import Parsing.Proofs.Grammar.History
import Parsing.Proofs.Grammar.Independence
import Parsing.Proofs.Grammar.OrderedChoice
import Parsing.Proofs.Grammar.Transparency
import Parsing.Proofs.Grammar.Calls
import Parsing.Proofs.Grammar.Consumption
import Parsing.Proofs.Grammar.Spans
import Parsing.Proofs.Grammar.Work
import Parsing.Proofs.Grammar.Interleaving
import Parsing.Proofs.Grammar.Termination
import Parsing.Proofs.Grammar.LeftRecursion
import Parsing.Proofs.Grammar.Completion
import Parsing.Proofs.Grammar.Aborted
