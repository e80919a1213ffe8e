/-!
# Parts of a text

* `lines`: the lines of a text.
* `dropLiteral?`: what follows a literal at the front of a text.
* `occursIn`: whether a text stands somewhere in another one.
-/
set_option autoImplicit false

namespace TvmDebug.Text

/-- The lines of a text; a line ends before each newline. -/
def lines : List Char → List (List Char)
  | [] => [[]]
  | c :: cs =>
    if c = '\n' then [] :: lines cs
    else match lines cs with
      | [] => [[c]]
      | l :: ls => (c :: l) :: ls

/-- What follows the literal `lit` at the front of a text. -/
def dropLiteral? : (lit cs : List Char) → Option (List Char)
  | [], cs => some cs
  | _ :: _, [] => none
  | l :: lit, c :: cs => if l = c then dropLiteral? lit cs else none

/-- Whether `part` stands somewhere in a text. -/
def occursIn (part : List Char) : List Char → Bool
  | [] => part.isEmpty
  | c :: cs => part.isPrefixOf (c :: cs) || occursIn part cs

end TvmDebug.Text
