/-
  Command-line arguments — what the user asks for.

  1. **Arguments** — each argument is classified by its own text alone: the help flag, the output
     option with or without its value, the mark that ends the options, a name, or nothing known.
  2. **Invocation** — arguments are taken from left to right.  The first help flag or the first mistake
     decides: help before any mistake is help, and a mistake before help is a mistake.
  3. **Limits** — one script, whose name is not empty; one output, whose name is known.  A value that
     stands as an argument of its own does not begin with a dash.

  Short options may stand together behind one dash; the output option takes what is left of the
  argument as its value, less one equals sign in front.  A dash alone is a name.
-/
import Lox.Run

namespace Lox

/-! ## Single arguments -/

/-- What one argument is, before the end of the options. -/
inductive Argument where
  | helpFlag
  | outputOption
  | outputWith (value : String)
  | endOfOptions
  | name
  | unknown
  deriving DecidableEq

/-- Classifies an argument. -/
def Argument.ofChars : List Char → Argument
  | ['-'] => name
  | ['-', '-'] => endOfOptions
  | '-' :: '-' :: long =>
    if long = "help".toList then helpFlag
    else if long = "output".toList then outputOption
    else if long.take 7 = "output=".toList then outputWith (String.ofList (long.drop 7))
    else unknown
  | '-' :: 'h' :: _ => helpFlag
  | ['-', 'o'] => outputOption
  | '-' :: 'o' :: '=' :: value => outputWith (String.ofList value)
  | '-' :: 'o' :: value => outputWith (String.ofList value)
  | '-' :: _ => unknown
  | _ => name

/-! ## All arguments -/

/-- What the user asks for. -/
inductive Invocation where
  | help
  | run (output : Output) (script : Option String)
  deriving DecidableEq

/-- What the arguments so far have settled. -/
structure Settled where
  output : Option Output
  script : Option String

namespace Settled

/-- Settles the output by its name. -/
def choose (s : Settled) (value : String) : Option Settled :=
  match s.output, Output.ofName? value with
  | none, some o => some ⟨some o, s.script⟩
  | _, _ => none

/-- Settles the script. -/
def open? (s : Settled) (name : String) : Option Settled :=
  if s.script.isSome || name.isEmpty then none else some ⟨s.output, some name⟩

/-- The invocation when no argument is left. -/
def invocation (s : Settled) : Invocation := .run (s.output.getD .standard) s.script

/-- Takes the arguments after the end of the options: all are names. -/
def takeNames (s : Settled) : List String → Option Invocation
  | [] => some s.invocation
  | arg :: rest =>
    match s.open? arg with
    | some s => s.takeNames rest
    | none => none

/-- Takes the arguments from left to right; `none` at the first mistake. -/
def takeAll (s : Settled) : List String → Option Invocation
  | [] => some s.invocation
  | arg :: rest =>
    match Argument.ofChars arg.toList with
    | .helpFlag => some .help
    | .unknown => none
    | .endOfOptions => s.takeNames rest
    | .name =>
      match s.open? arg with
      | some s => s.takeAll rest
      | none => none
    | .outputWith value =>
      match s.choose value with
      | some s => s.takeAll rest
      | none => none
    | .outputOption =>
      match rest with
      | [] => none
      | value :: rest =>
        if value.toList.head? = some '-' then none
        else
          match s.choose value with
          | some s => s.takeAll rest
          | none => none

end Settled

/-- What a list of arguments asks for; `none` if there is a mistake in it. -/
def Invocation.ofArguments? (args : List String) : Option Invocation :=
  Settled.takeAll ⟨none, none⟩ args

/-! ## Texts -/

/-- What is shown when help is asked for. -/
def helpText : String :=
  "Scans and parses Lox expressions and prints their syntax tree\n\n"
    ++ "Usage: lox [OPTIONS] [FILE]\n\n"
    ++ "Arguments:\n"
    ++ "  [FILE]  Script to read. Starts an interactive prompt when omitted\n\n"
    ++ "Options:\n"
    ++ "  -o, --output <OUTPUT>  How to print each parsed unit: ast, rpn or tokens [default: ast]\n"
    ++ "  -h, --help             Print help\n"

/-- What is shown when the arguments are mistaken. -/
def usageText : String := "Usage: lox [--output <ast|rpn|tokens>] [script]\n"

example : Invocation.ofArguments? ["-orpn", "a.lox"] = some (.run .reversePolish (some "a.lox")) := by
  decide +kernel
example : Invocation.ofArguments? ["--", "--output"] = some (.run .bracketed (some "--output")) := by
  decide +kernel
example : Invocation.ofArguments? ["a.lox", "b.lox", "-h"] = none := by decide +kernel
example : Invocation.ofArguments? ["a.lox", "-hx"] = some .help := by decide +kernel

end Lox
