/-!
# Writing TOML

* `quote`: a string in the first of its forms that can hold it without escapes, and in double
  quotes with escapes if none can.
* `writeList`: a list of strings; a list of more than one is written over several lines.
* `line`: a key with its value.
-/
set_option autoImplicit false

namespace TvmDebug.Toml

/-! ## Which form a string takes -/

/-- Control characters that no form can hold without an escape. -/
def mustEscape (c : Char) : Bool :=
  (c.toNat < 0x20 && c != '\t' && c != '\n') || c.toNat == 0x7F

/-- The length of the longest run of a character, after `run` of them. -/
def longestRunFrom (q : Char) : (run : Nat) → List Char → Nat
  | run, [] => run
  | run, c :: cs => if c = q then longestRunFrom q (run + 1) cs else max run (longestRunFrom q 0 cs)

def longestRun (q : Char) (cs : List Char) : Nat := longestRunFrom q 0 cs

/-- The forms of a string. -/
inductive Form where
  | basic
  | literal
  | basicLines
  | literalLines
deriving DecidableEq

/-- The first form that holds a string without escapes, or one with escapes. -/
def formOf (cs : List Char) : Form :=
  let plain := !cs.any mustEscape
  let backslash := cs.contains '\\'
  let lineEnd := cs.contains '\n'
  let double := longestRun '"' cs
  let single := longestRun '\'' cs
  if plain && !backslash && !lineEnd && double == 0 then .basic
  else if plain && !lineEnd && single == 0 then .literal
  else if plain && !backslash && double ≤ 2 then .basicLines
  else if plain && single ≤ 2 then .literalLines
  else if lineEnd then .basicLines
  else .basic

/-! ## The text of a string -/

def hexDigit (n : Nat) : Char := (Nat.digitChar n).toUpper

/-- The escape of a control character or a backslash, if the character needs one. -/
def escaped? (c : Char) : Option (List Char) :=
  if c = '\x08' then some ['\\', 'b']
  else if c = '\t' then some ['\\', 't']
  else if c = '\x0c' then some ['\\', 'f']
  else if c = '\r' then some ['\\', 'r']
  else if c = '\\' then some ['\\', '\\']
  else if c.toNat < 0x20 || c.toNat == 0x7F then
    some ['\\', 'u', '0', '0', hexDigit (c.toNat / 16), hexDigit (c.toNat % 16)]
  else none

def basicText : List Char → List Char
  | [] => []
  | c :: cs =>
    if c = '"' then '\\' :: '"' :: basicText cs
    else (escaped? c).getD [c] ++ basicText cs

/-- Every third quote in a row is escaped; `run` of them stand in front. -/
def basicLinesText : (run : Nat) → List Char → List Char
  | _, [] => []
  | run, c :: cs =>
    if c = '"' then
      if run = 2 then '\\' :: '"' :: basicLinesText 0 cs else '"' :: basicLinesText (run + 1) cs
    else if c = '\n' then '\n' :: basicLinesText 0 cs
    else (escaped? c).getD [c] ++ basicLinesText 0 cs

/-- A line end after the opening quotes keeps the first line of a string of several lines whole. -/
def opening (cs : List Char) : List Char := if cs.contains '\n' then ['\n'] else []

def quoteChars (cs : List Char) : List Char :=
  match formOf cs with
  | .basic => ['"'] ++ basicText cs ++ ['"']
  | .literal => ['\''] ++ cs ++ ['\'']
  | .basicLines => ['"', '"', '"'] ++ opening cs ++ basicLinesText 0 cs ++ ['"', '"', '"']
  | .literalLines => ['\'', '\'', '\''] ++ opening cs ++ cs ++ ['\'', '\'', '\'']

def quote (s : String) : String := String.ofList (quoteChars s.toList)

/-! ## Lists and lines -/

def writeList : List String → String
  | [] => "[]"
  | [s] => "[" ++ quote s ++ "]"
  | ss => "[\n" ++ String.join (ss.map fun s => "    " ++ quote s ++ ",\n") ++ "]"

def line (key value : String) : String := key ++ " = " ++ value ++ "\n"

end TvmDebug.Toml
