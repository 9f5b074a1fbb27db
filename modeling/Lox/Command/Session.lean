/-
  Sessions — what the program writes, and the status it ends with.

  1. **Script** — the whole file is one source: its result on standard output with status 0, or its
     diagnostics on standard error with status 65.  A file that cannot be read, or is not text, ends
     the program with status 1 and the cause.
  2. **Prompt** — without a script each line of standard input is a source of its own, less the line
     ending.  Errors on one line never carry over to the next; the end of input ends the session
     with status 0, and a line that is not text ends it with status 1.
  3. **Program** — `respond` puts both together with the command line.  It is a function of the
     arguments, the files and standard input.
-/
import Lox.Command.Arguments

namespace Lox

/-! ## Text and lines -/

/-- Bytes as text, if they are UTF-8. -/
def textOf? (bytes : List UInt8) : Option String := String.fromUTF8? ⟨bytes.toArray⟩

/-- The cause shown when bytes are not text. -/
def notTextCause : String := "stream did not contain valid UTF-8"

/-- Input line by line, each with its line feed; a last line without one counts if it has any byte. -/
def inputLines : List UInt8 → List (List UInt8)
  | [] => []
  | b :: bs =>
    if b = 10 then [b] :: inputLines bs
    else
      match inputLines bs with
      | [] => [[b]]
      | l :: ls => (b :: l) :: ls

/-- The character belongs to a line ending. -/
def endsLine (c : Char) : Bool := c == '\n' || c == '\r'

/-- A line without the carriage returns and line feeds at its end. -/
def stripLineEnd (line : String) : String :=
  String.ofList (line.toList.reverse.dropWhile endsLine).reverse

/-! ## What the program leaves behind -/

/-- The exit status and all that was written. -/
structure Response where
  code : Nat
  stdout : String
  stderr : String
  deriving DecidableEq

/-- The response to one source: its result with status 0, or its diagnostics with status 65, and a
    line feed after either. -/
def respondTo (source : String) (output : Output) : Response :=
  match runSource source output with
  | .ok text => ⟨0, text ++ "\n", ""⟩
  | .error ds => ⟨65, "", Diagnostic.report ds ++ "\n"⟩

/-! ## Scripts -/

/-- Why a file cannot be read. -/
inductive ReadFailure where
  | notFound
  | notDirectory
  | isDirectory
  | other (cause : String)
  deriving DecidableEq

/-- The cause shown for a failure. -/
def ReadFailure.cause : ReadFailure → String
  | notFound => "No such file or directory (os error 2)"
  | notDirectory => "Not a directory (os error 20)"
  | isDirectory => "Is a directory (os error 21)"
  | other cause => cause

/-- What is written when a script cannot be read. -/
def unreadable (path cause : String) : Response :=
  ⟨1, "", "Error: Could not read " ++ path ++ "\n\nCaused by:\n    " ++ cause ++ "\n"⟩

/-- Runs a script, given what reading it gave. -/
def runScript (output : Output) (path : String) (content : Except ReadFailure (List UInt8)) :
    Response :=
  match content with
  | .error failure => unreadable path failure.cause
  | .ok bytes =>
    match textOf? bytes with
    | none => unreadable path notTextCause
    | some source => respondTo source output

/-! ## The prompt -/

/-- What stands before each line of input. -/
def promptMark : String := "> "

/-- What is written when a line of input is not text. -/
def promptFailure : String := "Error: " ++ notTextCause ++ "\n"

/-- The response to one line of input; `none` if it is not text. -/
def answerLine (output : Output) (line : List UInt8) : Option Response :=
  (textOf? line).map fun text => respondTo (stripLineEnd text) output

/-- The session on the given lines of input. -/
def promptLines (output : Output) : List (List UInt8) → Response
  | [] => ⟨0, promptMark, ""⟩
  | line :: rest =>
    match answerLine output line with
    | none => ⟨1, promptMark, promptFailure⟩
    | some answer =>
      let later := promptLines output rest
      ⟨later.code, promptMark ++ answer.stdout ++ later.stdout, answer.stderr ++ later.stderr⟩

/-- The session on the given standard input. -/
def runPrompt (output : Output) (stdin : List UInt8) : Response :=
  promptLines output (inputLines stdin)

/-! ## The program -/

/-- What the program does with its arguments, the files there are, and its standard input. -/
def respond (args : List String) (read : String → Except ReadFailure (List UInt8))
    (stdin : List UInt8) : Response :=
  match Invocation.ofArguments? args with
  | none => ⟨64, usageText, ""⟩
  | some .help => ⟨0, helpText, ""⟩
  | some (.run output (some path)) => runScript output path (read path)
  | some (.run output none) => runPrompt output stdin

example : runPrompt .bracketed "1 + 2\n(\n".toUTF8.toList
    = ⟨0, "> (+ 1 2)\n> > ", "[line 1] Error at end: Expected expression.\n"⟩ := by decide +kernel

end Lox
