import TvmDebug.Text.Digit
/-!
# TOML strings

A string is written in one of four forms: in double quotes with escapes or in single quotes without,
on one line or, in three quotes, over several.

* `readBasic`, `readLiteral`, `readBasicLines`, `readLiteralLines`: the string of each form, after
  its opening quotes, with the rest of the text.
-/
set_option autoImplicit false

namespace TvmDebug.Toml

open Text

/-- Characters that may stand in any string: no control characters except the tab. -/
def isPlain (c : Char) : Bool := c == '\t' || (0x20 ≤ c.toNat && c.toNat != 0x7F)

def isSpace (c : Char) : Bool := c == ' ' || c == '\t'

/-- What follows the line end at the front of a text. -/
def afterLineEnd? : List Char → Option (List Char)
  | '\n' :: cs => some cs
  | '\r' :: '\n' :: cs => some cs
  | _ => none

/-- The character of an escape of one letter. -/
def escapedChar? : Char → Option Char
  | 'b' => some '\x08'
  | 'e' => some '\x1b'
  | 't' => some '\t'
  | 'n' => some '\n'
  | 'f' => some '\x0c'
  | 'r' => some '\r'
  | '"' => some '"'
  | '\\' => some '\\'
  | _ => none

def prepend (c : Char) (r : Option (List Char × List Char)) : Option (List Char × List Char) :=
  r.map fun (s, rest) => (c :: s, rest)

/-- A character given by the number that hexadecimal digits write. -/
def ofHex? (ds : List Char) : Option Char := (hexNumber? ds).bind charOfCode?

/-! ## One line -/

def readBasic : List Char → Option (List Char × List Char)
  | [] => none
  | '"' :: cs => some ([], cs)
  | '\\' :: 'x' :: a :: b :: cs => do
    let x ← ofHex? [a, b]
    prepend x (readBasic cs)
  | '\\' :: 'u' :: a :: b :: c :: d :: cs => do
    let x ← ofHex? [a, b, c, d]
    prepend x (readBasic cs)
  | '\\' :: 'U' :: a :: b :: c :: d :: e :: f :: g :: h :: cs => do
    let x ← ofHex? [a, b, c, d, e, f, g, h]
    prepend x (readBasic cs)
  | '\\' :: c :: cs => do
    let x ← escapedChar? c
    prepend x (readBasic cs)
  | c :: cs => if isPlain c && c != '\\' then prepend c (readBasic cs) else none

def readLiteral : List Char → Option (List Char × List Char)
  | [] => none
  | '\'' :: cs => some ([], cs)
  | c :: cs => if isPlain c then prepend c (readLiteral cs) else none

/-! ## Several lines -/

/-- A line end right after the opening quotes is no part of the string. -/
def dropLineEnd (cs : List Char) : List Char := (afterLineEnd? cs).getD cs

/-- A string over several lines. A backslash at the end of a line leaves out all white space up to
the next character that is none; `skipping` says that this is being done. One or two quotes may
stand right before the closing ones. -/
def readBasicLinesFrom : (skipping : Bool) → List Char → Option (List Char × List Char)
  | _, [] => none
  | true, '\r' :: '\n' :: cs => readBasicLinesFrom true cs
  | true, '\n' :: cs => readBasicLinesFrom true cs
  | true, ' ' :: cs => readBasicLinesFrom true cs
  | true, '\t' :: cs => readBasicLinesFrom true cs
  | _, '"' :: '"' :: '"' :: '"' :: '"' :: cs => some (['"', '"'], cs)
  | _, '"' :: '"' :: '"' :: '"' :: cs => some (['"'], cs)
  | _, '"' :: '"' :: '"' :: cs => some ([], cs)
  | _, '\r' :: '\n' :: cs => prepend '\r' (prepend '\n' (readBasicLinesFrom false cs))
  | _, '\\' :: 'x' :: a :: b :: cs => do
    let x ← ofHex? [a, b]
    prepend x (readBasicLinesFrom false cs)
  | _, '\\' :: 'u' :: a :: b :: c :: d :: cs => do
    let x ← ofHex? [a, b, c, d]
    prepend x (readBasicLinesFrom false cs)
  | _, '\\' :: 'U' :: a :: b :: c :: d :: e :: f :: g :: h :: cs => do
    let x ← ofHex? [a, b, c, d, e, f, g, h]
    prepend x (readBasicLinesFrom false cs)
  | _, '\\' :: c :: cs =>
    match escapedChar? c with
    | some x => prepend x (readBasicLinesFrom false cs)
    | none =>
      if (afterLineEnd? ((c :: cs).dropWhile isSpace)).isSome then readBasicLinesFrom true (c :: cs)
      else none
  | _, c :: cs =>
    if (isPlain c || c == '\n') && c != '\\' then prepend c (readBasicLinesFrom false cs) else none

def readBasicLines (cs : List Char) : Option (List Char × List Char) :=
  readBasicLinesFrom false (dropLineEnd cs)

def readLiteralLinesFrom : List Char → Option (List Char × List Char)
  | [] => none
  | '\'' :: '\'' :: '\'' :: '\'' :: '\'' :: cs => some (['\'', '\''], cs)
  | '\'' :: '\'' :: '\'' :: '\'' :: cs => some (['\''], cs)
  | '\'' :: '\'' :: '\'' :: cs => some ([], cs)
  | '\r' :: '\n' :: cs => prepend '\r' (prepend '\n' (readLiteralLinesFrom cs))
  | c :: cs => if isPlain c || c == '\n' then prepend c (readLiteralLinesFrom cs) else none

def readLiteralLines (cs : List Char) : Option (List Char × List Char) :=
  readLiteralLinesFrom (dropLineEnd cs)

end TvmDebug.Toml
