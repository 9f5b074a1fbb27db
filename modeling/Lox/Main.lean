/-
  The program — arguments, files and the terminal around `Lox.Command`.

  Nothing is decided here: a script is read and handed to `runScript`, and the prompt asks
  `answerLine` about each line as it comes in.
-/
import Lox.Command.Session

namespace Lox

/-- Writes a text at once. -/
def emit (stream : IO.FS.Stream) (text : String) : IO Unit := do
  stream.putStr text
  stream.flush

/-- The cause behind a failed reading. -/
def readFailure : IO.Error → ReadFailure
  | .noFileOrDirectory _ _ _ => .notFound
  | .inappropriateType _ code _ => if code = 21 then .isDirectory else .notDirectory
  | .permissionDenied _ _ _ => .other "Permission denied (os error 13)"
  | e => .other (toString e)

/-- Reads a file. -/
def readScript (path : String) : IO (Except ReadFailure (List UInt8)) := do
  try
    let bytes ← IO.FS.readBinFile path
    return .ok bytes.toList
  catch e => return .error (readFailure e)

/-- Reads on to the next line feed or to the end of input. -/
partial def readLine (stdin : IO.FS.Stream) (line : List UInt8) : IO (List UInt8) := do
  let bytes ← stdin.read 1
  match bytes.toList with
  | [] => return line.reverse
  | b :: _ => if b = 10 then return (b :: line).reverse else readLine stdin (b :: line)

/-- The interactive session. -/
partial def converse (output : Output) : IO UInt32 := do
  let stdout ← IO.getStdout
  let stderr ← IO.getStderr
  emit stdout promptMark
  let line ← readLine (← IO.getStdin) []
  if line.isEmpty then return 0
  match answerLine output line with
  | none =>
    emit stderr promptFailure
    return 1
  | some answer =>
    emit stdout answer.stdout
    emit stderr answer.stderr
    converse output

/-- Writes a response and gives its status. -/
def finish (r : Response) : IO UInt32 := do
  emit (← IO.getStdout) r.stdout
  emit (← IO.getStderr) r.stderr
  return UInt32.ofNat r.code

/-- Runs the program on its arguments. -/
def runProgram (args : List String) : IO UInt32 := do
  match Invocation.ofArguments? args with
  | some (.run output none) => converse output
  | some (.run output (some path)) => finish (runScript output path (← readScript path))
  | _ => finish (respond args (fun _ => .error .notFound) [])

end Lox

def main (args : List String) : IO UInt32 := Lox.runProgram args
