import Mathlib.Data.Nat.Digits.Defs
import Mathlib.Data.Rat.Defs
import Mathlib.Algebra.Order.Field.Rat
import TvmDebug.Toml.Basic
/-! # The grammar of TOML documents

Which texts are documents, and what they say (`IsDocument`). Nothing here is about how a text is
read.

A value is a string in one of four forms (`StringText`), a word (`ScalarText`), a list or a table in
braces (`ValueText`). A document has a header, or a key with its value, on each line (`Written`),
and each of these defines something on the way through the tables to it (`Definition`). No key and
no table is defined twice when each of them is made in one of the ways of `DefinesValue`.

This is TOML 1.1, so that escapes by `\e` and `\x`, times without seconds, and line ends, comments
and a last comma between braces come on top of TOML 1.0. Lists and tables are nested at most 80
deep, and a key has at most 80 parts. Integers beyond 128 bits and floats beyond 64-bit ones stand
in a document without being known. -/
set_option autoImplicit false

namespace TvmDebug.Toml

/-! ## Characters -/

def IsBlank (c : Char) : Prop := c = ' ' ∨ c = '\t'

instance (c : Char) : Decidable (IsBlank c) := inferInstanceAs (Decidable (_ ∨ _))

/-- No control character but the tab. -/
def IsPrintable (c : Char) : Prop := c = '\t' ∨ 0x20 ≤ c.toNat ∧ c.toNat ≠ 0x7F

instance (c : Char) : Decidable (IsPrintable c) := inferInstanceAs (Decidable (_ ∨ _))

def IsKeyChar (c : Char) : Prop := c.isAlphanum = true ∨ c = '_' ∨ c = '-'

instance (c : Char) : Decidable (IsKeyChar c) := inferInstanceAs (Decidable (_ ∨ _))

/-- The character is the digit of value `d`; letters may be small or large. -/
def IsDigit (base : Nat) (c : Char) (d : Nat) : Prop :=
  d < base ∧ (c = Nat.digitChar d ∨ c = (Nat.digitChar d).toUpper)

instance (base : Nat) (c : Char) (d : Nat) : Decidable (IsDigit base c d) :=
  inferInstanceAs (Decidable (_ ∧ _))

/-- The number of the digits, the first of which counts most. -/
def number (base : Nat) (ds : List Nat) : Nat := Nat.ofDigits base ds.reverse

/-! ## Between the parts of a document -/

def Spaces (sp : List Char) : Prop := ∀ c ∈ sp, IsBlank c

instance (sp : List Char) : Decidable (Spaces sp) := List.decidableBAll IsBlank sp

inductive LineEnd : List Char → Prop
  | newline : LineEnd ['\n']
  | returnNewline : LineEnd ['\r', '\n']

/-- White space and line ends. -/
inductive Blanks : List Char → Prop
  | nil : Blanks []
  | space {c : Char} {text : List Char} (hc : IsBlank c) (h : Blanks text) : Blanks (c :: text)
  | lineEnd {e text : List Char} (he : LineEnd e) (h : Blanks text) : Blanks (e ++ text)

/-- White space, line ends and comments. -/
inductive Gap : List Char → Prop
  | nil : Gap []
  | space {c : Char} {gap : List Char} (hc : IsBlank c) (h : Gap gap) : Gap (c :: gap)
  | lineEnd {e gap : List Char} (he : LineEnd e) (h : Gap gap) : Gap (e ++ gap)
  | comment {cs e gap : List Char} (hcs : ∀ c ∈ cs, IsPrintable c) (he : LineEnd e) (h : Gap gap) :
      Gap ('#' :: (cs ++ (e ++ gap)))

/-! ## Strings -/

/-- A letter after a backslash, and the character for which they stand. -/
inductive Escape : Char → Char → Prop
  | backspace : Escape 'b' '\x08'
  | escape : Escape 'e' '\x1b'
  | tab : Escape 't' '\t'
  | newline : Escape 'n' '\n'
  | formFeed : Escape 'f' '\x0c'
  | return : Escape 'r' '\r'
  | quote : Escape '"' '"'
  | backslash : Escape '\\' '\\'

/-- How a character is written between double quotes: by itself, by a letter, or by its code in two,
four or eight hexadecimal digits. -/
inductive CharText (c : Char) : List Char → Prop
  | itself (hc : IsPrintable c) (hquote : c ≠ '"') (hslash : c ≠ '\\') : CharText c [c]
  | letter {e : Char} (he : Escape e c) : CharText c ['\\', e]
  | code {mark : Char} {text : List Char} {ds : List Nat}
      (hmark : (mark, text.length) ∈ [('x', 2), ('u', 4), ('U', 8)])
      (hds : List.Forall₂ (IsDigit 16) text ds) (hc : number 16 ds = c.toNat) :
      CharText c ('\\' :: mark :: text)

/-- A string as it is written between double quotes on a line. -/
inductive BasicText : List Char → List Char → Prop
  | nil : BasicText [] []
  | cons {c : Char} {cs s text : List Char} (hc : CharText c s) (h : BasicText cs text) :
      BasicText (c :: cs) (s ++ text)

/-- A string that may stand as it is between single quotes on a line. -/
def LiteralText (cs : List Char) : Prop := ∀ c ∈ cs, IsPrintable c ∧ c ≠ '\''

/-- No line end stands at the front of the text. -/
def NoLineEnd (text : List Char) : Prop := ∀ e, LineEnd e → ∀ rest, text ≠ e ++ rest

/-- A string as it is written between three double quotes, after so many quotes that belong to it.
No three of them stand in a row. A backslash at the end of a line joins it with what comes after all
white space and line ends. -/
inductive BasicLinesText : (quotes : Nat) → List Char → List Char → Prop
  | nil (quotes : Nat) : BasicLinesText quotes [] []
  | char {quotes : Nat} {c : Char} {cs s text : List Char} (hc : CharText c s)
      (h : BasicLinesText 0 cs text) : BasicLinesText quotes (c :: cs) (s ++ text)
  | lineEnd {quotes : Nat} {e cs text : List Char} (he : LineEnd e)
      (h : BasicLinesText 0 cs text) : BasicLinesText quotes (e ++ cs) (e ++ text)
  | quote {quotes : Nat} {cs text : List Char} (hquotes : quotes < 2)
      (h : BasicLinesText (quotes + 1) cs text) :
      BasicLinesText quotes ('"' :: cs) ('"' :: text)
  | join {quotes : Nat} {sp e blanks cs text : List Char} (hsp : Spaces sp) (he : LineEnd e)
      (hblanks : Blanks blanks) (hspace : ∀ c, text.head? = some c → ¬ IsBlank c)
      (hline : NoLineEnd text) (h : BasicLinesText 0 cs text) :
      BasicLinesText quotes cs ('\\' :: (sp ++ (e ++ (blanks ++ text))))

/-- A string that may stand as it is between three single quotes, after so many of them that belong
to it. -/
inductive LiteralLinesText : (quotes : Nat) → List Char → Prop
  | nil (quotes : Nat) : LiteralLinesText quotes []
  | char {quotes : Nat} {c : Char} {cs : List Char} (hc : IsPrintable c) (hquote : c ≠ '\'')
      (h : LiteralLinesText 0 cs) : LiteralLinesText quotes (c :: cs)
  | lineEnd {quotes : Nat} {e cs : List Char} (he : LineEnd e) (h : LiteralLinesText 0 cs) :
      LiteralLinesText quotes (e ++ cs)
  | quote {quotes : Nat} {cs : List Char} (hquotes : quotes < 2)
      (h : LiteralLinesText (quotes + 1) cs) : LiteralLinesText quotes ('\'' :: cs)

/-- A line end right after three opening quotes is no part of the string. -/
inductive Opened : List Char → List Char → Prop
  | lineEnd {e : List Char} (he : LineEnd e) (text : List Char) : Opened (e ++ text) text
  | none {text : List Char} (h : NoLineEnd text) : Opened text text

/-- A string with its quotes. -/
inductive StringText : List Char → List Char → Prop
  | basic {cs text : List Char} (h : BasicText cs text) : StringText cs ('"' :: (text ++ ['"']))
  | literal {cs : List Char} (h : LiteralText cs) : StringText cs ('\'' :: (cs ++ ['\'']))
  | basicLines {cs text text' : List Char} (hopened : Opened text text')
      (h : BasicLinesText 0 cs text') :
      StringText cs ('"' :: '"' :: '"' :: (text ++ ['"', '"', '"']))
  | literalLines {cs text : List Char} (hopened : Opened text cs) (h : LiteralLinesText 0 cs) :
      StringText cs ('\'' :: '\'' :: '\'' :: (text ++ ['\'', '\'', '\'']))

/-! ## Keys -/

/-- A key without quotes or in quotes of either kind. -/
inductive KeyText : String → List Char → Prop
  | bare {cs : List Char} (hne : cs ≠ []) (h : ∀ c ∈ cs, IsKeyChar c) :
      KeyText (String.ofList cs) cs
  | basic {cs text : List Char} (h : BasicText cs text) :
      KeyText (String.ofList cs) ('"' :: (text ++ ['"']))
  | literal {cs : List Char} (h : LiteralText cs) :
      KeyText (String.ofList cs) ('\'' :: (cs ++ ['\'']))

/-- Keys with dots between them. -/
inductive PathText : List String → List Char → Prop
  | one {key : String} {text sp : List Char} (h : KeyText key text) (hsp : Spaces sp) :
      PathText [key] (text ++ sp)
  | cons {key : String} {keys : List String} {text sp sp' texts : List Char} (h : KeyText key text)
      (hsp : Spaces sp) (hsp' : Spaces sp') (hkeys : PathText keys texts) :
      PathText (key :: keys) (text ++ (sp ++ '.' :: (sp' ++ texts)))

/-! ## Numbers -/

/-- A sign or none, and whether it makes a number negative. -/
inductive Sign : List Char → Bool → Prop
  | none : Sign [] false
  | plus : Sign ['+'] false
  | minus : Sign ['-'] true

def signed (negative : Bool) (n : Nat) : Int := if negative then -n else n

/-- Digits, of which there is at least one, with an underscore here and there between two. -/
inductive Digits (base : Nat) : List Char → List Nat → Prop
  | one {c : Char} {d : Nat} (hc : IsDigit base c d) : Digits base [c] [d]
  | cons {c : Char} {d : Nat} {text : List Char} {ds : List Nat} (hc : IsDigit base c d)
      (h : Digits base text ds) : Digits base (c :: text) (d :: ds)
  | underscore {c : Char} {d : Nat} {text : List Char} {ds : List Nat} (hc : IsDigit base c d)
      (h : Digits base text ds) : Digits base (c :: '_' :: text) (d :: ds)

/-- A zero stands in front only if it stands alone. -/
def NoZero (ds : List Nat) : Prop := ds.head? = some 0 → ds = [0]

inductive IntegerText : List Char → Int → Prop
  | decimal {sign text : List Char} {negative : Bool} {ds : List Nat} (hsign : Sign sign negative)
      (h : Digits 10 text ds) (hzero : NoZero ds) :
      IntegerText (sign ++ text) (signed negative (number 10 ds))
  | based {mark : Char} {base : Nat} {text : List Char} {ds : List Nat}
      (hmark : (mark, base) ∈ [('x', 16), ('o', 8), ('b', 2)]) (h : Digits base text ds) :
      IntegerText ('0' :: mark :: text) (number base ds)

/-- Integers of 128 bits, with a sign or without, are known. -/
def known? (n : Int) : Option Int := if -2 ^ 127 ≤ n ∧ n < 2 ^ 128 then some n else none

/-- The decimal places, or none. -/
inductive PlacesText : List Char → List Nat → Prop
  | none : PlacesText [] []
  | places {text : List Char} {ds : List Nat} (h : Digits 10 text ds) : PlacesText ('.' :: text) ds

/-- The power of ten, or none. -/
inductive PowerText : List Char → Int → Prop
  | none : PowerText [] 0
  | power {mark : Char} {sign text : List Char} {negative : Bool} {ds : List Nat}
      (hmark : mark = 'e' ∨ mark = 'E') (hsign : Sign sign negative) (h : Digits 10 text ds) :
      PowerText (mark :: (sign ++ text)) (signed negative (number 10 ds))

/-- The number rounds to a finite one of 64 bits: it is less than half a unit above the greatest of
them. -/
def IsFinite (n : Nat) (power : Int) : Prop := (n : ℚ) * 10 ^ power < 2 ^ 1024 - 2 ^ 970

/-- A float, and whether it is finite as one of 64 bits. -/
inductive FloatText : List Char → Bool → Prop
  | decimal {sign whole places power : List Char} {negative : Bool} {ds ds' : List Nat} {e : Int}
      {isFinite : Bool} (hsign : Sign sign negative) (hwhole : Digits 10 whole ds)
      (hzero : NoZero ds) (hplaces : PlacesText places ds') (hpower : PowerText power e)
      (hne : places ++ power ≠ [])
      (hfinite : isFinite = true ↔ IsFinite (number 10 (ds ++ ds')) (e - ds'.length)) :
      FloatText (sign ++ (whole ++ (places ++ power))) isFinite

/-! ## Dates and times -/

/-- So many digits, which write the number. -/
def Figures (size : Nat) (text : List Char) (n : Nat) : Prop :=
  text.length = size ∧ ∃ ds, List.Forall₂ (IsDigit 10) text ds ∧ number 10 ds = n

/-- The year, month and day of a date. -/
structure IsDay (y m d : Nat) : Prop where
  month : 1 ≤ m ∧ m ≤ 12
  first : 1 ≤ d
  last : d ≤ 28 ∨ m ≠ 2 ∧ d ≤ 30 ∨ m ∈ [1, 3, 5, 7, 8, 10, 12] ∧ d ≤ 31 ∨
    m = 2 ∧ d = 29 ∧ 4 ∣ y ∧ (100 ∣ y → 400 ∣ y)

inductive DateText : List Char → Prop
  | date {ys ms ds : List Char} {y m d : Nat} (hy : Figures 4 ys y) (hm : Figures 2 ms m)
      (hd : Figures 2 ds d) (h : IsDay y m d) : DateText (ys ++ '-' :: (ms ++ '-' :: ds))

/-- Parts of a second, or none. -/
inductive SecondParts : List Char → Prop
  | none : SecondParts []
  | parts {text : List Char} {ds : List Nat} (hne : text ≠ [])
      (h : List.Forall₂ (IsDigit 10) text ds) : SecondParts ('.' :: text)

/-- A time of day; a minute may have a leap second. -/
inductive TimeText : List Char → Prop
  | minute {hs ms : List Char} {h m : Nat} (hh : Figures 2 hs h) (hm : Figures 2 ms m)
      (hlast : h < 24 ∧ m < 60) : TimeText (hs ++ ':' :: ms)
  | second {hs ms ss parts : List Char} {h m s : Nat} (hh : Figures 2 hs h) (hm : Figures 2 ms m)
      (hs' : Figures 2 ss s) (hlast : h < 24 ∧ m < 60 ∧ s ≤ 60) (hparts : SecondParts parts) :
      TimeText (hs ++ ':' :: (ms ++ ':' :: (ss ++ parts)))

/-- How far a time is from universal time. -/
inductive OffsetText : List Char → Prop
  | none {z : Char} (hz : z = 'Z' ∨ z = 'z') : OffsetText [z]
  | some {sign : Char} {hs ms : List Char} {h m : Nat} (hsign : sign = '+' ∨ sign = '-')
      (hh : Figures 2 hs h) (hm : Figures 2 ms m) (hlast : h < 24 ∧ m < 60) :
      OffsetText (sign :: (hs ++ ':' :: ms))

inductive DateTimeText : List Char → Prop
  | date {date : List Char} (hdate : DateText date) : DateTimeText date
  | time {time : List Char} (htime : TimeText time) : DateTimeText time
  | both {date time offset : List Char} {mark : Char} (hdate : DateText date)
      (hmark : mark = 'T' ∨ mark = 't' ∨ mark = ' ') (htime : TimeText time)
      (hoffset : offset = [] ∨ OffsetText offset) : DateTimeText (date ++ mark :: (time ++ offset))

/-! ## Words -/

/-- What a word is not made of. -/
def IsMark (c : Char) : Prop := c ∈ ['=', ',', '[', ']', '\x7b', '\x7d', ' ', '#', '\n', '\r']

instance (c : Char) : Decidable (IsMark c) := inferInstanceAs (Decidable (_ ∈ _))

/-- Words that begin like a number and are none. They stand in a document as integers that are not
known: a mark of a base without digits, and a decimal integer with an underscore that goes on with
what is no digit. Each underscore still stands between digits, where letters up to `f` pass for
digits, and there is no mark of a float. -/
inductive LooseText : List Char → Prop
  | based {mark : Char} (hmark : mark ∈ ['x', 'o', 'b']) : LooseText ['0', mark]
  | decimal {sign text rest : List Char} {negative : Bool} {ds : List Nat}
      (hsign : Sign sign negative) (hne : text ≠ []) (h : List.Forall₂ (IsDigit 10) text ds)
      (hzero : ds.head? ≠ some 0) (hchars : ∀ c ∈ rest, ¬ IsMark c ∧ c ∉ ['.', 'e', 'E'])
      (hunderscore : ∀ before after, text ++ '_' :: rest = before ++ '_' :: after →
        (∃ c d, before.getLast? = some c ∧ IsDigit 16 c d) ∧
          ∃ c d, after.head? = some c ∧ IsDigit 16 c d)
      (htab : ∀ before after, rest = before ++ '\t' :: after →
        ∃ c, after.head? = some c ∧ c ≠ '"' ∧ c ≠ '\'')
      (hloose : ∃ c ∈ rest, c ≠ '_' ∧ ∀ d, ¬ IsDigit 10 c d) :
      LooseText (sign ++ (text ++ '_' :: rest))

/-- A value without quotes. Infinity and what is no number count as finite floats. -/
inductive ScalarText : List Char → Toml → Prop
  | true : ScalarText ['t', 'r', 'u', 'e'] (.boolean true)
  | false : ScalarText ['f', 'a', 'l', 's', 'e'] (.boolean false)
  | integer {text : List Char} {n : Int} (h : IntegerText text n) :
      ScalarText text (.integer (known? n))
  | loose {text : List Char} (h : LooseText text) : ScalarText text (.integer none)
  | float {text : List Char} {isFinite : Bool} (h : FloatText text isFinite) :
      ScalarText text (.float isFinite)
  | special {sign word : List Char} {negative : Bool} (hsign : Sign sign negative)
      (hword : word = ['i', 'n', 'f'] ∨ word = ['n', 'a', 'n']) :
      ScalarText (sign ++ word) (.float Bool.true)
  | datetime {text : List Char} (h : DateTimeText text) : ScalarText text .datetime

/-! ## Definitions -/

/-- What a document defines somewhere, as it is seen from a table on the way to it, or from the
place itself. -/
inductive Definition where
  /-- a header names this table -/
  | header
  /-- a header adds an element to this array of tables -/
  | element
  /-- the value stands here -/
  | value (v : Toml)
  /-- the rest is inside this table, under the key; `dotted` says that a dotted key led here -/
  | inside (dotted : Bool) (key : String) (rest : Definition)

namespace Definition

/-- The definition is reached through the tables of the keys. -/
def along (dotted : Bool) (path : List String) (d : Definition) : Definition :=
  path.foldr (.inside dotted) d

/-- A key with its value. The tables of all parts of the key but the last are reached by it. -/
def ofEntry : (path : List String) → Toml → Definition
  | [], v => .value v
  | key :: path, v => .inside false key (along true path (.value v))

def key? : Definition → Option String
  | inside _ key _ => some key
  | _ => none

/-- What is defined under the key. -/
def under? (key : String) : Definition → Option Definition
  | inside _ key' rest => if key' = key then some rest else none
  | _ => none

/-- A header leads into this table. -/
def ByHeader (d : Definition) : Prop := ∃ key rest, d = inside false key rest

/-- A header leads into this table, or a dotted key leads through it to a table inside it. -/
def LeadsOn (d : Definition) : Prop :=
  d.ByHeader ∨ ∃ key dotted key' rest, d = inside true key (inside dotted key' rest)

/-- A header led into this table first, so that it is there without a header of its own. -/
def Implied (ds : List Definition) : Prop :=
  (∃ d ds', ds = d :: ds' ∧ d.ByHeader) ∧ ∀ d ∈ ds, LeadsOn d

end Definition

mutual

/-- The definitions make a table with the entries: each key stands where it was first defined, and
what is defined under it makes its value. -/
inductive DefinesTable : List Definition → Entries → Prop
  | intro {ds : List Definition} {es : Entries} (hds : ∀ d ∈ ds, d.key?.isSome = true)
      (hkeys : es.map Prod.fst = (ds.filterMap Definition.key?).eraseDups)
      (hvalues : ∀ key v, (key, v) ∈ es → DefinesValue (ds.filterMap (Definition.under? key)) v) :
      DefinesTable ds es

/-- All that is defined in one place makes the value: the value itself is given, and nothing else;
a table is made by a dotted key, and has no header; it is implied by headers; it has one header, and
dotted keys do not lead into it after that; or it is an array of tables. -/
inductive DefinesValue : List Definition → Toml → Prop
  | value (v : Toml) : DefinesValue [.value v] v
  | dotted {key : String} {d : Definition} {ds : List Definition} {es : Entries}
      (h : DefinesTable (.inside true key d :: ds) es) :
      DefinesValue (.inside true key d :: ds) (.table .dotted es)
  | implied {ds : List Definition} {es : Entries} (hds : Definition.Implied ds)
      (h : DefinesTable ds es) : DefinesValue ds (.table .implied es)
  | header {before after : List Definition} {es : Entries}
      (hbefore : before = [] ∨ Definition.Implied before) (hafter : ∀ d ∈ after, d.ByHeader)
      (h : DefinesTable (before ++ after) es) :
      DefinesValue (before ++ .header :: after) (.table .header es)
  | tables {ds : List Definition} {elements : List Entries} (hne : elements ≠ [])
      (h : DefinesElements ds elements) : DefinesValue ds (.tables elements)

/-- The definitions make the elements of an array of tables, of which the last one stands first.
Each belongs to the element that was added before it. -/
inductive DefinesElements : List Definition → List Entries → Prop
  | nil : DefinesElements [] []
  | push {ds inner : List Definition} {elements : List Entries} {es : Entries}
      (h : DefinesElements ds elements) (hinner : ∀ d ∈ inner, d.LeadsOn)
      (hes : DefinesTable inner es) :
      DefinesElements (ds ++ .element :: inner) (es :: elements)

end

/-! ## Values -/

mutual

/-- The text writes the value, with lists and tables nested at most so deep. -/
inductive ValueText : Nat → List Char → Toml → Prop
  | string (depth : Nat) {cs text : List Char} (h : StringText cs text) :
      ValueText depth text (.string (String.ofList cs))
  | scalar (depth : Nat) {text : List Char} {v : Toml} (h : ScalarText text v) :
      ValueText depth text v
  | array {depth : Nat} {text : List Char} {items : List Toml} (h : ItemsText depth text items) :
      ValueText (depth + 1) ('[' :: text) (.array items)
  | braces {depth : Nat} {text : List Char} {members : List (List String × Toml)} {es : Entries}
      (h : MembersText depth text members)
      (hes : DefinesTable (members.map fun m => .ofEntry m.1 m.2) es) :
      ValueText (depth + 1) ('\x7b' :: text) (.table .braced es)

/-- The text writes the items of a list, up to its closing bracket. -/
inductive ItemsText : Nat → List Char → List Toml → Prop
  | nil (depth : Nat) {gap : List Char} (hgap : Gap gap) : ItemsText depth (gap ++ [']']) []
  | last {depth : Nat} {gap text gap' : List Char} {v : Toml} (hgap : Gap gap)
      (hv : ValueText depth text v) (hgap' : Gap gap') :
      ItemsText depth (gap ++ (text ++ (gap' ++ [']']))) [v]
  | cons {depth : Nat} {gap text gap' texts : List Char} {v : Toml} {items : List Toml}
      (hgap : Gap gap) (hv : ValueText depth text v) (hgap' : Gap gap')
      (hitems : ItemsText depth texts items) :
      ItemsText depth (gap ++ (text ++ (gap' ++ ',' :: texts))) (v :: items)

/-- The text writes the members of a table in braces, up to its closing brace. -/
inductive MembersText : Nat → List Char → List (List String × Toml) → Prop
  | nil (depth : Nat) {gap : List Char} (hgap : Gap gap) : MembersText depth (gap ++ ['\x7d']) []
  | last {depth : Nat} {path : List String} {v : Toml}
      {gap key gap₁ gap₂ text gap₃ : List Char} (hgap : Gap gap) (hkey : PathText path key)
      (hparts : path.length ≤ 80) (hgap₁ : Gap gap₁) (hgap₂ : Gap gap₂)
      (hv : ValueText depth text v) (hgap₃ : Gap gap₃) :
      MembersText depth
        (gap ++ (key ++ (gap₁ ++ '=' :: (gap₂ ++ (text ++ (gap₃ ++ ['\x7d'])))))) [(path, v)]
  | cons {depth : Nat} {path : List String} {v : Toml} {members : List (List String × Toml)}
      {gap key gap₁ gap₂ text gap₃ texts : List Char} (hgap : Gap gap) (hkey : PathText path key)
      (hparts : path.length ≤ 80) (hgap₁ : Gap gap₁) (hgap₂ : Gap gap₂)
      (hv : ValueText depth text v) (hgap₃ : Gap gap₃) (h : MembersText depth texts members) :
      MembersText depth
        (gap ++ (key ++ (gap₁ ++ '=' :: (gap₂ ++ (text ++ (gap₃ ++ ',' :: texts))))))
        ((path, v) :: members)

end

/-! ## Documents -/

/-- A header, a header of an array of tables, or a key with its value. -/
inductive Item where
  | table (path : List String)
  | element (path : List String)
  | entry (path : List String) (v : Toml)

inductive ItemText : Item → List Char → Prop
  | table {path : List String} {sp text : List Char} (hsp : Spaces sp) (hpath : PathText path text)
      (hparts : path.length ≤ 80) : ItemText (.table path) ('[' :: (sp ++ (text ++ [']'])))
  | element {path : List String} {sp text : List Char} (hsp : Spaces sp)
      (hpath : PathText path text) (hparts : path.length ≤ 80) :
      ItemText (.element path) ('[' :: '[' :: (sp ++ (text ++ [']', ']'])))
  | entry {path : List String} {v : Toml} {key sp text : List Char} (hpath : PathText path key)
      (hparts : path.length ≤ 80) (hsp : Spaces sp) (hv : ValueText 80 text v) :
      ItemText (.entry path v) (key ++ '=' :: (sp ++ text))

/-- A comment, or nothing. -/
inductive CommentText : List Char → Prop
  | none : CommentText []
  | comment {cs : List Char} (hcs : ∀ c ∈ cs, IsPrintable c) : CommentText ('#' :: cs)

/-- A line ends before the next one, or at the end of the text. -/
inductive LineBreak : List Char → List Char → Prop
  | lineEnd {e : List Char} (he : LineEnd e) (next : List Char) : LineBreak (e ++ next) next
  | last : LineBreak [] []

/-- The text of a document with the items, line by line. -/
inductive Written : List Item → List Char → Prop
  | nil : Written [] []
  | blank {items : List Item} {sp comment rest text : List Char} (hsp : Spaces sp)
      (hcomment : CommentText comment) (hbreak : LineBreak rest text) (h : Written items text) :
      Written items (sp ++ (comment ++ rest))
  | item {item : Item} {items : List Item} {sp line sp' comment rest text : List Char}
      (hsp : Spaces sp) (hitem : ItemText item line) (hsp' : Spaces sp')
      (hcomment : CommentText comment) (hbreak : LineBreak rest text) (h : Written items text) :
      Written (item :: items) (sp ++ (line ++ (sp' ++ (comment ++ rest))))

/-- What the items define, under the last header before each of them. -/
def definitions : (header : List String) → List Item → List Definition
  | _, [] => []
  | _, .table path :: items => .along false path .header :: definitions path items
  | _, .element path :: items => .along false path .element :: definitions path items
  | header, .entry path v :: items =>
    .along false header (.ofEntry path v) :: definitions header items

/-- The text is a document with the tables. A byte order mark may stand in front. -/
def IsDocument (text : String) (root : Entries) : Prop :=
  ∃ mark items cs, (mark = [] ∨ mark = ['\uFEFF']) ∧ text.toList = mark ++ cs ∧
    Written items cs ∧ DefinesTable (definitions [] items) root

end TvmDebug.Toml
