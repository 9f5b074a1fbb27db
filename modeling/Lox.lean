import Lox.Number.Binary64
import Lox.Number.Decimal
import Lox.Number.Shortest
import Lox.Text.Ranges
import Lox.Text.Printable
import Lox.Text.GraphemeExtend
import Lox.Text.DefaultIgnorable
import Lox.Text.Quoted
import Lox.Source.Lines
import Lox.Source.Cursor
import Lox.Token.Kind
import Lox.Source.Piece
import Lox.Token.Basic
import Lox.Token.Scan
import Lox.Token.Stream
import Lox.Expr.Basic
import Lox.Expr.Bracketed
import Lox.Expr.ReversePolish
import Lox.Expr.Level
import Lox.Expr.Descent
import Lox.Expr.OfTokens
import Lox.Diagnostic
import Lox.Run
import Lox.Command.Arguments
import Lox.Command.Session
import Lox.Main
import Lox.Proofs.Grammar.Derives
import Lox.Proofs.Grammar.Recognition
import Lox.Proofs.Grammar.EarliestError
import Lox.Proofs.Lexis.Cutting
import Lox.Proofs.Lexis.Tokens
import Lox.Proofs.Layout.Spaced
import Lox.Proofs.Unparse.WellShaped
import Lox.Proofs.Unparse.RoundTrip
import Lox.Proofs.Stream.Recovery
import Lox.Proofs.Layout.Relayout
import Lox.Proofs.Lexis.Seam
import Lox.Proofs.Lexis.Sites
import Lox.Proofs.Lexis.Stray
import Lox.Proofs.Lexis.Settled
import Lox.Proofs.Report.Located
import Lox.Proofs.Guarded.Slice
import Lox.Proofs.Guarded.Scanning
import Lox.Proofs.Guarded.Motions
import Lox.Proofs.Guarded.Reading
import Lox.Proofs.Guarded.Run
import Lox.Proofs.Number.ReadBack
import Lox.Proofs.Printing.Bracketed
import Lox.Proofs.Printing.ReversePolish
import Lox.Proofs.Source.Counting
import Lox.Proofs.Stream.Lookahead
import Lox.Proofs.Session.Prompt
import Lox.Proofs.Stream.Boundaries
import Lox.Proofs.Printing.Postorder
import Lox.Proofs.Report.TokenLines
import Lox.Proofs.Report.LineEnds
import Lox.Proofs.Printing.Numbers
import Lox.Proofs.Guarded.Progress
