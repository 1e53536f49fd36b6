import LineLang.Command
import LineLang.Main
import LineLang.Proofs.Registry.Growth
import LineLang.Proofs.Registry.Coherence
import LineLang.Proofs.Registry.Encoding
import LineLang.Proofs.Lexeme.Decimal
import LineLang.Proofs.Registry.Numbering
import LineLang.Proofs.Dialect
import LineLang.Proofs.Expression.Tree
import LineLang.Proofs.Expression.Evaluation
import LineLang.Proofs.Expression.Tally
import LineLang.Proofs.Expression.Alternation
import LineLang.Proofs.Session.Run
import LineLang.Proofs.Session.Statement
import LineLang.Proofs.Session.Simulation
import LineLang.Proofs.Session.Locality
import LineLang.Proofs.Session.Codes
import LineLang.Proofs.Effect
import LineLang.Proofs.Session.Chronicle
import LineLang.Proofs.Lexeme.Layout
import LineLang.Proofs.Session.Reading
import LineLang.Proofs.Session.Wording
import LineLang.Proofs.Session.Sequence
import LineLang.Proofs.Session.Rejection
import LineLang.Proofs.Session.Committed
import LineLang.Proofs.Session.Recovery
import LineLang.Proofs.Expression.Closure
import LineLang.Proofs.Expression.Range
import LineLang.Proofs.Session.Store
import LineLang.Proofs.Dump
import LineLang.Proofs.Session.Plain
import LineLang.Proofs.Text.Lines
import LineLang.Proofs.Runner.Run
import LineLang.Proofs.Runner.Encoding
import LineLang.Proofs.Runner.Reformat
import LineLang.Proofs.Runner.Failure
import LineLang.Proofs.Registry.Permanence
import LineLang.Proofs.Registry.Capacity
import LineLang.Proofs.Session.Roles
import LineLang.Proofs.Runner.Listing
import LineLang.Proofs.Runner.Dump
import LineLang.Proofs.Prompt.Replies
import LineLang.Proofs.Prompt.Agreement
import LineLang.Proofs.Command.Ending
import LineLang.Proofs.Registry.Batch
import LineLang.Proofs.Registry.Exhaustion
import LineLang.Proofs.Lexeme.Stop
import LineLang.Proofs.Runner.Count
import LineLang.Proofs.Command.Status
import LineLang.Proofs.Arithmetic
import LineLang.Proofs.Text.Numeral
import LineLang.Proofs.Session.Literals
import LineLang.Proofs.Expression.Typing
import LineLang.Proofs.Session.Typing
import LineLang.Proofs.Expression.Account
import LineLang.Proofs.Session.Accounting
import LineLang.Proofs.Lexeme.Shown
import LineLang.Proofs.Text.Written
import LineLang.Proofs.Journal
import LineLang.Proofs.Session.Path
import LineLang.Proofs.Session.Rendering
import LineLang.Proofs.Expression.Waiting
import LineLang.Proofs.Session.Draft
import LineLang.Proofs.Session.Unfinished
