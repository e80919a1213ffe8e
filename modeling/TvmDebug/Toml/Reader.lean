import TvmDebug.Toml.Quoted
import TvmDebug.Toml.Scalar
/-!
# Reading TOML

As for JSON, a reader takes what stands at the front of a text and answers it with the rest.

* `readPath`: a key, which may be dotted and has at most `nesting` parts.
* `readValue`: a value; arrays and tables in braces are nested at most `nesting` deep.
* `Document`: the tables read so far and the one that the last header named.
* `Toml.ofText?`: the tables of a whole document.
-/
set_option autoImplicit false

namespace TvmDebug.Toml

/-! ## White space and comments -/

def skipSpace (cs : List Char) : List Char := cs.dropWhile isSpace

def notLineEnd (c : Char) : Bool := c != '\n' && c != '\r'

/-- What follows the comment at the front of a text, if there is one. -/
def afterComment? : List Char → Option (List Char)
  | '#' :: cs =>
    if (cs.takeWhile notLineEnd).all isPlain then some (cs.dropWhile notLineEnd) else none
  | cs => some cs

/-- What follows on the next line when nothing but a comment is left on this one. -/
def nextLine? (cs : List Char) : Option (List Char) :=
  match afterComment? (skipSpace cs) with
  | some [] => some []
  | some cs => afterLineEnd? cs
  | none => none

/-- What follows white space, comments and line ends. Each of them takes one unit of fuel. -/
def skipLines? : Nat → List Char → Option (List Char)
  | 0, _ => none
  | fuel + 1, cs =>
    match skipSpace cs with
    | '#' :: rest => do
      let rest ← afterComment? ('#' :: rest)
      match rest with
      | [] => some []
      | rest => skipLines? fuel (← afterLineEnd? rest)
    | rest =>
      match afterLineEnd? rest with
      | some rest => skipLines? fuel rest
      | none => some rest

/-! ## Keys -/

def isKeyChar (c : Char) : Bool := c.isAlphanum || c == '_' || c == '-'

def readKey : List Char → Option (String × List Char)
  | '"' :: cs => (readBasic cs).map fun (s, rest) => (String.ofList s, rest)
  | '\'' :: cs => (readLiteral cs).map fun (s, rest) => (String.ofList s, rest)
  | cs =>
    let key := cs.takeWhile isKeyChar
    if key.isEmpty then none else some (String.ofList key, cs.dropWhile isKeyChar)

/-- The parts of a key, with dots between them and white space around each. Each part takes one unit
of fuel. -/
def readParts : Nat → List Char → Option (List String × List Char)
  | 0, _ => none
  | fuel + 1, cs => do
    let (k, rest) ← readKey (skipSpace cs)
    match skipSpace rest with
    | '.' :: rest =>
      let (ks, rest) ← readParts fuel rest
      some (k :: ks, rest)
    | rest => some ([k], rest)

/-- How deep arrays and tables may be nested. -/
def nesting : Nat := 80

/-- A key; its parts name tables inside one another. -/
def readPath (cs : List Char) : Option (List String × List Char) := readParts nesting cs

/-! ## Values -/

/-- The characters that the words of a value without quotes may be made of. -/
def isWordChar (c : Char) : Bool := !"=,[]\x7b\x7d \t#\r\n".toList.contains c

def isScalarChar (c : Char) : Bool := isWordChar c || isSpace c

def withoutLastSpace (cs : List Char) : List Char := (cs.reverse.dropWhile isSpace).reverse

/-- Whether no word after a blank begins with a quotation mark. -/
def areBare : List Char → Bool
  | c :: d :: cs => !(isSpace c && (d == '"' || d == '\'')) && areBare (d :: cs)
  | _ => true

/-- A value without quotes: one word, or several with white space between them, such as a date and a
time. -/
def readScalar (cs : List Char) : Option (Toml × List Char) :=
  let words := withoutLastSpace (cs.takeWhile isScalarChar)
  if areBare words then (ofScalar? words).map (·, cs.dropWhile isScalarChar) else none

def stringOf (r : Option (List Char × List Char)) : Option (Toml × List Char) :=
  r.map fun (s, rest) => (.string (String.ofList s), rest)

mutual

/-- The value at the front of a text. Each call takes one unit of fuel; `room` is how many arrays
and tables may still be nested. -/
def readValue : (fuel room : Nat) → List Char → Option (Toml × List Char)
  | 0, _, _ => none
  | fuel + 1, room, cs =>
    match cs with
    | '"' :: '"' :: '"' :: rest => stringOf (readBasicLines rest)
    | '"' :: rest => stringOf (readBasic rest)
    | '\'' :: '\'' :: '\'' :: rest => stringOf (readLiteralLines rest)
    | '\'' :: rest => stringOf (readLiteral rest)
    | '[' :: rest =>
      if room = 0 then none
      else (readItems fuel (room - 1) rest).map fun (items, rest) => (.array items, rest)
    | '\x7b' :: rest =>
      if room = 0 then none
      else (readMembers fuel (room - 1) [] rest).map fun (es, rest) => (.table .braced es, rest)
    | cs => readScalar cs

/-- The items of an array up to its closing bracket. -/
def readItems : (fuel room : Nat) → List Char → Option (List Toml × List Char)
  | 0, _, _ => none
  | fuel + 1, room, cs => do
    match ← skipLines? (fuel + 1) cs with
    | ']' :: rest => some ([], rest)
    | rest =>
      let (item, rest) ← readValue fuel room rest
      match ← skipLines? (fuel + 1) rest with
      | ',' :: rest =>
        let (items, rest) ← readItems fuel room rest
        some (item :: items, rest)
      | ']' :: rest => some ([item], rest)
      | _ => none

/-- The members of a table in braces up to its closing brace, added to those before. -/
def readMembers : (fuel room : Nat) → Entries → List Char → Option (Entries × List Char)
  | 0, _, _, _ => none
  | fuel + 1, room, es, cs => do
    match ← skipLines? (fuel + 1) cs with
    | '\x7d' :: rest => some (es, rest)
    | rest =>
      let (path, rest) ← readPath rest
      let '=' :: rest ← skipLines? (fuel + 1) rest | none
      let (v, rest) ← readValue fuel room (← skipLines? (fuel + 1) rest)
      let es ← es.putDotted v path
      match ← skipLines? (fuel + 1) rest with
      | ',' :: rest => readMembers fuel room es rest
      | '\x7d' :: rest => some (es, rest)
      | _ => none

end

/-! ## Documents -/

/-- The tables read so far, and the keys of the last header. -/
structure Document where
  root : Entries
  here : List String

namespace Document

/-- Stores a value under a key of the table that the last header named. -/
def put (d : Document) (path : List String) (v : Toml) : Option Document :=
  (Entries.within (Entries.putDotted v path) d.here d.root).map fun root => { d with root := root }

def openTable (d : Document) (path : List String) : Option Document := do
  let root ← Entries.openTable path.dropLast (← path.getLast?) d.root
  some ⟨root, path⟩

/-- Goes on with a new element of an array of tables. -/
def pushTable (d : Document) (path : List String) : Option Document := do
  let root ← Entries.pushTable path.dropLast (← path.getLast?) d.root
  some ⟨root, path⟩

/-- Reads one header or one key with its value; `fuel` is for the value. -/
def readEntry (fuel : Nat) (d : Document) : List Char → Option (Document × List Char)
  | '[' :: '[' :: cs => do
    let (path, rest) ← readPath cs
    let ']' :: ']' :: rest := rest | none
    some (← d.pushTable path, rest)
  | '[' :: cs => do
    let (path, rest) ← readPath cs
    let ']' :: rest := rest | none
    some (← d.openTable path, rest)
  | cs => do
    let (path, rest) ← readPath cs
    let '=' :: rest := rest | none
    let (v, rest) ← readValue fuel nesting (skipSpace rest)
    some (← d.put path v, rest)

/-- Reads a document to its end; each line takes one unit of `lines`. -/
def readLines (fuel : Nat) : (lines : Nat) → Document → List Char → Option Document
  | 0, _, _ => none
  | lines + 1, d, cs =>
    match skipSpace cs with
    | [] => some d
    | c :: rest =>
      match nextLine? (c :: rest) with
      | some rest => readLines fuel lines d rest
      | none => do
        let (d, rest) ← readEntry fuel d (c :: rest)
        readLines fuel lines d (← nextLine? rest)

end Document

/-- A byte order mark in front of a text is no part of it. -/
def dropMark : List Char → List Char
  | '\uFEFF' :: cs => cs
  | cs => cs

/-- The tables of a document. A text has no more lines than characters and one, and its values take
less fuel than two units for each character. -/
def ofText? (text : String) : Option Entries := do
  let cs := dropMark text.toList
  let d ← Document.readLines (2 * cs.length + 2) (cs.length + 1) ⟨[], []⟩ cs
  some d.root

end TvmDebug.Toml
