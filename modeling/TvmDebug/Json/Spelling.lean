import TvmDebug.Json.Basic
import TvmDebug.Text.Digit
/-!
# Spelling of JSON strings

* `isSpace`: the white space that may stand between the parts of a value.
* `escape`: the spelling of a text. Quotes, backslashes and control characters are escaped.
* `unescape?`: the text of a spelling; a surrogate that is not one half of a pair has none.
-/
set_option autoImplicit false

namespace TvmDebug.Json

open Text

def isSpace (c : Char) : Bool := c == ' ' || c == '\n' || c == '\r' || c == '\t'

/-! ## Writing -/

/-- Four hexadecimal digits of a control character. -/
def hexOfControl (c : Char) : List Char :=
  ['0', '0', Nat.digitChar (c.toNat / 16), Nat.digitChar (c.toNat % 16)]

def escapeChar (c : Char) : List Char :=
  if c = '"' then ['\\', '"']
  else if c = '\\' then ['\\', '\\']
  else if c = '\n' then ['\\', 'n']
  else if c = '\r' then ['\\', 'r']
  else if c = '\t' then ['\\', 't']
  else if c = '\x08' then ['\\', 'b']
  else if c = '\x0c' then ['\\', 'f']
  else if c.toNat < 0x20 then '\\' :: 'u' :: hexOfControl c
  else [c]

def escape (cs : List Char) : List Char := cs.flatMap escapeChar

/-! ## Reading -/

/-- The character of an escape of one letter. -/
def escapedChar? : Char → Option Char
  | '"' => some '"'
  | '\\' => some '\\'
  | '/' => some '/'
  | 'b' => some '\x08'
  | 'f' => some '\x0c'
  | 'n' => some '\n'
  | 'r' => some '\r'
  | 't' => some '\t'
  | _ => none

def isHighSurrogate (n : Nat) : Bool := 0xD800 ≤ n && n < 0xDC00

def isLowSurrogate (n : Nat) : Bool := 0xDC00 ≤ n && n < 0xE000

/-- The code point of a pair of surrogates. -/
def pairCode (high low : Nat) : Nat := 0x10000 + (high - 0xD800) * 0x400 + (low - 0xDC00)

/-- The text of a spelling. `pending` is a high surrogate that waits for its other half. -/
def unescapeFrom? : (pending : Option Nat) → List Char → Option (List Char)
  | none, [] => some []
  | none, '\\' :: 'u' :: a :: b :: c :: d :: cs => do
    let n ← hexNumber? [a, b, c, d]
    if isHighSurrogate n then unescapeFrom? (some n) cs
    else
      let x ← charOfCode? n
      let xs ← unescapeFrom? none cs
      some (x :: xs)
  | none, '\\' :: e :: cs => do
    let x ← escapedChar? e
    let xs ← unescapeFrom? none cs
    some (x :: xs)
  | none, c :: cs => do
    let xs ← unescapeFrom? none cs
    some (c :: xs)
  | some high, '\\' :: 'u' :: a :: b :: c :: d :: cs => do
    let n ← hexNumber? [a, b, c, d]
    if isLowSurrogate n then
      let x ← charOfCode? (pairCode high n)
      let xs ← unescapeFrom? none cs
      some (x :: xs)
    else none
  | some _, _ => none

/-- The text of a spelling. -/
def unescape? (cs : List Char) : Option (List Char) := unescapeFrom? none cs

end TvmDebug.Json
