/-
  Token streams — a place in a token list.

  1. **Stream** — the tokens still to come before the FIRST end of input, that end itself, and how many
     tokens have gone by.  Nothing after the first end is ever seen; a list without one is ended on
     the line of its last token.
  2. **Motion** — a stream only goes forward: `TokenStream.moveTo` leaves a tail of what was pending.
  3. **Recovery** — `TokenStream.synchronize` skips to where a statement is likely to begin: past a
     semicolon, before a keyword that begins a statement, or at the end.
-/
import Lox.Token.Basic

namespace Lox

/-- A place in a token list. -/
structure TokenStream where
  position : Nat
  pending : List Token
  eof : Token
  deriving DecidableEq

namespace TokenStream

/-! ## Streams -/

/-- The end of input that a token list has, or is given on the line of its last token. -/
def eofOf (ts : List Token) : Token :=
  (ts.find? Token.isEof).getD (.endOn ((ts.getLast?).elim 1 Token.line))

/-- The stream at the start of a token list. -/
def ofTokens (ts : List Token) : TokenStream :=
  ⟨0, ts.takeWhile (fun t => !t.isEof), eofOf ts⟩

/-- The first of the given tokens, or the end of input when there are none. -/
def front (s : TokenStream) (ts : List Token) : Token := ts.head?.getD s.eof

/-- The current token. -/
def peek (s : TokenStream) : Token := s.front s.pending

/-- The stream with only the given tokens, a tail of the pending ones, still to come. -/
def moveTo (s : TokenStream) (rest : List Token) : TokenStream :=
  ⟨s.position + (s.pending.length - rest.length), rest, s.eof⟩

/-! ## Recovery -/

/-- The tokens left after skipping at least one of them, and all up to the next likely beginning of a
    statement. -/
def recover : List Token → List Token
  | [] => []
  | t :: ts =>
    if t.kind = .symbol .semicolon || (ts.head?.any fun next => next.kind.startsStatement) then ts
    else recover ts

/-- Skips to the next likely beginning of a statement. -/
def synchronize (s : TokenStream) : TokenStream := s.moveTo (recover s.pending)

end TokenStream

end Lox
