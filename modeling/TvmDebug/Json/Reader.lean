import TvmDebug.Json.Spelling
/-!
# Reading JSON

The readers take what stands at the front of a text and answer it with the rest, or `none` when the
text starts with nothing of the kind.

* `readString`, `readNumber`, `readValue`: strings, numbers and values.
* `Json.ofText?`: the value of a whole text, with white space around it.
-/
set_option autoImplicit false

namespace TvmDebug.Json

open Text

/-! ## White space, strings and numbers -/

def skipSpace (cs : List Char) : List Char := cs.dropWhile isSpace

/-- The spelling of a string, after its opening quote. Control characters must be escaped. -/
def readString : List Char → Option (List Char × List Char)
  | [] => none
  | '"' :: cs => some ([], cs)
  | '\\' :: 'u' :: a :: b :: c :: d :: cs => do
    let _ ← hexNumber? [a, b, c, d]
    let (s, rest) ← readString cs
    some ('\\' :: 'u' :: a :: b :: c :: d :: s, rest)
  | '\\' :: e :: cs => do
    let _ ← escapedChar? e
    let (s, rest) ← readString cs
    some ('\\' :: e :: s, rest)
  | c :: cs =>
    if c.toNat < 0x20 || c == '\\' then none
    else do
      let (s, rest) ← readString cs
      some (c :: s, rest)

def readDigits (cs : List Char) : Option (List Char × List Char) :=
  let ds := cs.takeWhile Char.isDigit
  if ds.isEmpty then none else some (ds, cs.dropWhile Char.isDigit)

/-- A whole part starts with a zero only if that is all of it. -/
def readWhole : List Char → Option (List Char × List Char)
  | '0' :: cs => some (['0'], cs)
  | cs => readDigits cs

def readFraction : List Char → Option (Option (List Char) × List Char)
  | '.' :: cs => (readDigits cs).map fun (ds, rest) => (some ds, rest)
  | cs => some (none, cs)

/-- The digits of an exponent after its letter and its sign. -/
def readExponentDigits : List Char → Option ((Bool × List Char) × List Char)
  | '+' :: cs => (readDigits cs).map fun (ds, rest) => ((false, ds), rest)
  | '-' :: cs => (readDigits cs).map fun (ds, rest) => ((true, ds), rest)
  | cs => (readDigits cs).map fun (ds, rest) => ((false, ds), rest)

def readExponent : List Char → Option (Option (Bool × List Char) × List Char)
  | 'e' :: cs => (readExponentDigits cs).map fun (e, rest) => (some e, rest)
  | 'E' :: cs => (readExponentDigits cs).map fun (e, rest) => (some e, rest)
  | cs => some (none, cs)

def readMagnitude (negative : Bool) (cs : List Char) : Option (Number × List Char) := do
  let (whole, cs) ← readWhole cs
  let (fraction, cs) ← readFraction cs
  let (exponent, cs) ← readExponent cs
  some (⟨negative, whole, fraction, exponent⟩, cs)

def readNumber : List Char → Option (Number × List Char)
  | '-' :: cs => readMagnitude true cs
  | cs => readMagnitude false cs

/-! ## Values -/

mutual

/-- The value at the front of a text. Each call takes one unit of fuel. -/
def readValue : Nat → List Char → Option (Json × List Char)
  | 0, _ => none
  | fuel + 1, cs =>
    match skipSpace cs with
    | 'n' :: 'u' :: 'l' :: 'l' :: rest => some (.null, rest)
    | 't' :: 'r' :: 'u' :: 'e' :: rest => some (.bool true, rest)
    | 'f' :: 'a' :: 'l' :: 's' :: 'e' :: rest => some (.bool false, rest)
    | '"' :: rest => (readString rest).map fun (s, rest) => (.string s, rest)
    | '[' :: rest =>
      match skipSpace rest with
      | ']' :: rest => some (.array [], rest)
      | rest => (readItems fuel rest).map fun (items, rest) => (.array items, rest)
    | '\x7b' :: rest =>
      match skipSpace rest with
      | '\x7d' :: rest => some (.object [], rest)
      | rest => (readMembers fuel rest).map fun (members, rest) => (.object members, rest)
    | rest => (readNumber rest).map fun (n, rest) => (.number n, rest)

/-- The items of an array that has some, up to its closing bracket. -/
def readItems : Nat → List Char → Option (List Json × List Char)
  | 0, _ => none
  | fuel + 1, cs => do
    let (item, rest) ← readValue fuel cs
    match skipSpace rest with
    | ',' :: rest =>
      let (items, rest) ← readItems fuel rest
      some (item :: items, rest)
    | ']' :: rest => some ([item], rest)
    | _ => none

/-- The members of an object that has some, up to its closing brace. -/
def readMembers : Nat → List Char → Option (List (List Char × Json) × List Char)
  | 0, _ => none
  | fuel + 1, cs => do
    let '"' :: rest := skipSpace cs | none
    let (key, rest) ← readString rest
    let ':' :: rest := skipSpace rest | none
    let (value, rest) ← readValue fuel rest
    match skipSpace rest with
    | ',' :: rest =>
      let (members, rest) ← readMembers fuel rest
      some ((key, value) :: members, rest)
    | '\x7d' :: rest => some ([(key, value)], rest)
    | _ => none

end

/-- The value of a text that holds one and nothing else. A text takes less fuel than two units for
each character. -/
def ofText? (text : String) : Option Json := do
  let cs := text.toList
  let (j, rest) ← readValue (2 * cs.length + 2) cs
  if (skipSpace rest).isEmpty then some j else none

end TvmDebug.Json
