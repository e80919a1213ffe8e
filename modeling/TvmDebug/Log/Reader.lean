import TvmDebug.Log.Basic
import TvmDebug.Text.Blank
import TvmDebug.Text.Digit
import TvmDebug.Text.Search
/-!
# Reading a verbose machine log

A log is read line by line; blanks at the ends of a line and empty lines do not count.

* `LogLine.location?`: reads `code cell hash:`, a hash, `offset:` and a number, whatever follows.
* `LogLine.exception?`: reads `handling exception code`, a number, and nothing or a colon and a
  message to the end of the line.
* `LogLine.ofLine`: the reading of one line; a line of neither form, or with a number that is not
  in ASCII digits or not in range, is an unknown line.
* `LogLine.ofLog`: the reading of a whole log.
-/
set_option autoImplicit false

namespace TvmDebug.LogLine

open Text

/-- At least one blank and all that follow it are left out. -/
def dropBlanks1? : List Char → Option (List Char)
  | [] => none
  | c :: cs => if isBlank c then some (trimLeft cs) else none

def location? (line : List Char) : Option LogLine := do
  let rest ← dropLiteral? "code cell hash:".toList line
  let rest := trimLeft rest
  let hash := rest.takeWhile isHexDigit
  if hash.isEmpty then none
  let rest ← dropBlanks1? (rest.dropWhile isHexDigit)
  let rest ← dropLiteral? "offset:".toList rest
  let number ← natOfDigits? ((trimLeft rest).takeWhile isDecimalDigit)
  let offset ← toUInt32? number
  some (.location (String.ofList hash) offset)

/-- What follows the number of an exception line: nothing, or a colon and a message. -/
def message? : List Char → Option (List Char)
  | [] => some []
  | ':' :: cs => some (trim cs)
  | _ => none

/-- A line splits into a minus sign, if it starts with one, and the rest. -/
def splitSign : List Char → Bool × List Char
  | '-' :: cs => (true, cs)
  | cs => (false, cs)

def exception? (line : List Char) : Option LogLine := do
  let rest ← dropLiteral? "handling exception code".toList line
  let (negative, rest) := splitSign (← dropBlanks1? rest)
  let number ← natOfDigits? (rest.takeWhile isDecimalDigit)
  let message ← message? (rest.dropWhile isDecimalDigit)
  let errno ← toInt32? (if negative then -(number : Int) else number)
  some (.exception errno (String.ofList message))

/-- The reading of a line without blanks at its ends. -/
def ofLine (line : List Char) : LogLine :=
  ((location? line).or (exception? line)).getD (.unknown (String.ofList line))

/-- The lines of a log that are not blank, trimmed. -/
def trimmedLines (log : List Char) : List (List Char) :=
  ((lines log).map trim).filter fun l => !l.isEmpty

def ofLog (log : String) : List LogLine := (trimmedLines log.toList).map ofLine

end TvmDebug.LogLine
