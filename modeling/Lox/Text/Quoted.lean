/-
  Quoted text — how a piece of source is shown to somebody who reads it on a terminal.

  1. **Short forms** — NUL, tab, carriage return, line feed, backslash and double quote are written
     with a backslash; the single quote needs none.
  2. **Code points** — what would not show, or would merge with the character before it, is written
     as its number in hexadecimal.
  3. **All else** stands for itself, so that printable text in any script stays readable.
-/
import Lox.Text.DefaultIgnorable
import Lox.Text.GraphemeExtend
import Lox.Text.Printable

namespace Lox

/-- The code point of a character, in lower-case hexadecimal between braces. -/
def codePointChars (c : Char) : List Char :=
  "\\u\x7b".toList ++ Nat.toDigits 16 c.toNat ++ ['\x7d']

/-- The halfwidth voicing marks of katakana.  They extend the letter before them, but as letters in a
    cell of their own: they do not merge with it. -/
def isHalfwidthVoicingMark (c : Char) : Bool := c = '\uff9e' || c = '\uff9f'

/-- The character can be read where it stands: it shows, and it does not merge with the one before. -/
def standsAlone (c : Char) : Bool :=
  isPrintable c && !isDefaultIgnorable c && (!isGraphemeExtend c || isHalfwidthVoicingMark c)

/-- One character as it stands in quoted text. -/
def quotedChar (c : Char) : List Char :=
  if c = '\x00' then ['\\', '0']
  else if c = '\t' then ['\\', 't']
  else if c = '\r' then ['\\', 'r']
  else if c = '\n' then ['\\', 'n']
  else if c = '\\' || c = '"' then ['\\', c]
  else if standsAlone c then [c]
  else codePointChars c

/-- The text between double quotes, on one line. -/
def quoted (cs : List Char) : String := String.ofList ('"' :: cs.flatMap quotedChar ++ ['"'])

example : quoted "a\n\"é'\x07".toList = "\"a\\n\\\"é'\\u\x7b7\x7d\"" := by decide +kernel
example : ['e', '\u0301', '\u1160', 'ﾊ', '\uff9f'].map standsAlone
    = [true, false, false, true, true] := by decide +kernel

end Lox
