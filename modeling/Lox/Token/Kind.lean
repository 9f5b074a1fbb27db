/-
  Token kinds — the vocabulary of Lox.

  1. **Symbols** — the 21 marks and operators, each with the one spelling it has.
  2. **Keywords** — the 16 reserved words; `Keyword.ofSpelling?` finds the word that a text spells, and
     eight of them can begin a statement.
  3. **Kinds** — a token is a symbol, a keyword, one of the three open classes (identifier, string,
     number), or the end of the input.  `Kind.all` lists the kinds in their standing order.
-/

namespace Lox

/-! ## Symbols -/

/-- The marks and operators. -/
inductive Symbol where
  | leftParen | rightParen | leftBrace | rightBrace | comma | dot | minus | plus | semicolon
  | slash | star | colon | questionMark | bang | bangEqual | equal | equalEqual | greater
  | greaterEqual | less | lessEqual
  deriving DecidableEq

namespace Symbol

/-- All symbols, in their standing order. -/
def all : List Symbol :=
  [leftParen, rightParen, leftBrace, rightBrace, comma, dot, minus, plus, semicolon, slash, star,
   colon, questionMark, bang, bangEqual, equal, equalEqual, greater, greaterEqual, less, lessEqual]

/-- How a symbol is written in a source. -/
def spelling : Symbol → String
  | leftParen => "("
  | rightParen => ")"
  | leftBrace => "\x7b"
  | rightBrace => "\x7d"
  | comma => ","
  | dot => "."
  | minus => "-"
  | plus => "+"
  | semicolon => ";"
  | slash => "/"
  | star => "*"
  | colon => ":"
  | questionMark => "?"
  | bang => "!"
  | bangEqual => "!="
  | equal => "="
  | equalEqual => "=="
  | greater => ">"
  | greaterEqual => ">="
  | less => "<"
  | lessEqual => "<="

/-- What a symbol is called in a token's display form. -/
def name : Symbol → String
  | leftParen => "LEFT_PAREN"
  | rightParen => "RIGHT_PAREN"
  | leftBrace => "LEFT_BRACE"
  | rightBrace => "RIGHT_BRACE"
  | comma => "COMMA"
  | dot => "DOT"
  | minus => "MINUS"
  | plus => "PLUS"
  | semicolon => "SEMICOLON"
  | slash => "SLASH"
  | star => "STAR"
  | colon => "COLON"
  | questionMark => "QUESTION_MARK"
  | bang => "BANG"
  | bangEqual => "BANG_EQUAL"
  | equal => "EQUAL"
  | equalEqual => "EQUAL_EQUAL"
  | greater => "GREATER"
  | greaterEqual => "GREATER_EQUAL"
  | less => "LESS"
  | lessEqual => "LESS_EQUAL"

end Symbol

/-! ## Keywords -/

/-- The reserved words. -/
inductive Keyword where
  | andWord | classWord | elseWord | falseWord | funWord | forWord | ifWord | nilWord | orWord
  | printWord | returnWord | superWord | thisWord | trueWord | varWord | whileWord
  deriving DecidableEq

namespace Keyword

/-- All keywords, in their standing order. -/
def all : List Keyword :=
  [andWord, classWord, elseWord, falseWord, funWord, forWord, ifWord, nilWord, orWord, printWord,
   returnWord, superWord, thisWord, trueWord, varWord, whileWord]

/-- How a keyword is written in a source; case matters. -/
def spelling : Keyword → String
  | andWord => "and"
  | classWord => "class"
  | elseWord => "else"
  | falseWord => "false"
  | funWord => "fun"
  | forWord => "for"
  | ifWord => "if"
  | nilWord => "nil"
  | orWord => "or"
  | printWord => "print"
  | returnWord => "return"
  | superWord => "super"
  | thisWord => "this"
  | trueWord => "true"
  | varWord => "var"
  | whileWord => "while"

/-- What a keyword is called in a token's display form: its spelling in capitals. -/
def name (k : Keyword) : String := k.spelling.toUpper

/-- The keyword that a text spells, if it spells one. -/
def ofSpelling? (text : String) : Option Keyword := all.find? fun k => k.spelling == text

/-- The keywords that begin a declaration or a statement. -/
def startsStatement : Keyword → Bool
  | classWord | funWord | varWord | forWord | ifWord | whileWord | printWord | returnWord => true
  | _ => false

end Keyword

/-! ## Kinds -/

/-- What sort of token a token is. -/
inductive Kind where
  | symbol (symbol : Symbol)
  | identifier
  | string
  | number
  | keyword (keyword : Keyword)
  | eof
  deriving DecidableEq

namespace Kind

/-- All kinds, in their standing order. -/
def all : List Kind :=
  Symbol.all.map symbol ++ [identifier, string, number] ++ Keyword.all.map keyword ++ [eof]

/-- What a kind is called in a token's display form. -/
def name : Kind → String
  | symbol s => s.name
  | identifier => "IDENTIFIER"
  | string => "STRING"
  | number => "NUMBER"
  | keyword k => k.name
  | eof => "EOF"

/-- The kind with the given name, if there is one. -/
def ofName? (text : String) : Option Kind := all.find? fun k => k.name == text

/-- The kind of a word: a keyword if it spells one, else an identifier. -/
def ofWord (text : String) : Kind :=
  match Keyword.ofSpelling? text with
  | some k => keyword k
  | none => identifier

/-- Error recovery may resume at a token of this kind. -/
def startsStatement : Kind → Bool
  | keyword k => k.startsStatement
  | _ => false

end Kind

/-! ## A look at the tables -/

example : Kind.all.length = 41 := by decide
example : (Kind.all.filter Kind.startsStatement).length = 8 := by decide
example : Kind.ofWord "while" = .keyword .whileWord := by decide +kernel
example : Kind.ofWord "orchid" = .identifier := by decide +kernel
example : Kind.ofWord "Class" = .identifier := by decide +kernel

end Lox
