import TvmDebug.Json.Spelling
/-!
# Writing JSON

* `Json.ofString`, `Json.ofNat`, `Json.ofInt`, `Json.ofFields`, `Json.ofOption`: values.
* `Json.Layout`: the white space that a writer puts in.
* `Json.text`: the text of a value; `Json.compact` has no white space, `Json.pretty` has every item
  and every member on a line of its own.
-/
set_option autoImplicit false

namespace TvmDebug

namespace Json

open Text

/-! ## Values -/

def ofString (s : String) : Json := .string (escape s.toList)

def ofNat (n : Nat) : Json := .number ⟨false, digits n, none, none⟩

def ofInt (n : Int) : Json := .number ⟨decide (n < 0), digits n.natAbs, none, none⟩

def ofFields (fields : List (String × Json)) : Json :=
  .object (fields.map fun (name, value) => (escape name.toList, value))

def ofOption {α : Type} (f : α → Json) : Option α → Json
  | none => .null
  | some x => f x

def ofList {α : Type} (f : α → Json) (xs : List α) : Json := .array (xs.map f)

end Json

/-! ## Text -/

def Number.text (n : Number) : List Char :=
  (if n.negative then ['-'] else []) ++ n.whole ++
    (match n.fraction with
      | some ds => '.' :: ds
      | none => []) ++
    (match n.exponent with
      | some (negative, ds) => 'e' :: (if negative then ['-'] else []) ++ ds
      | none => [])

namespace Json

def quoted (spelling : List Char) (rest : List Char) : List Char :=
  '"' :: (spelling ++ '"' :: rest)

/-- The white space of a text: the start of each line at a level of indentation, and the gap after a
colon. -/
structure Layout where
  newLine : Nat → List Char
  gap : List Char
  newLine_space : ∀ level, ∀ c ∈ newLine level, isSpace c = true
  gap_space : ∀ c ∈ gap, isSpace c = true

/-- No white space. -/
def Layout.compact : Layout := ⟨fun _ => [], [], nofun, nofun⟩

/-- Lines indented by two blanks for each level. -/
def Layout.indented : Layout where
  newLine level := '\n' :: List.replicate (2 * level) ' '
  gap := [' ']
  newLine_space := by
    intro level c hc
    rcases List.mem_cons.1 hc with rfl | hc
    · rfl
    · rw [List.eq_of_mem_replicate hc]
      rfl
  gap_space := List.forall_mem_singleton.2 rfl

mutual

/-- The text of a value at a level of indentation, in front of `rest`. -/
def write (layout : Layout) (level : Nat) : Json → (rest : List Char) → List Char
  | .null, rest => 'n' :: 'u' :: 'l' :: 'l' :: rest
  | .bool true, rest => 't' :: 'r' :: 'u' :: 'e' :: rest
  | .bool false, rest => 'f' :: 'a' :: 'l' :: 's' :: 'e' :: rest
  | .number n, rest => n.text ++ rest
  | .string s, rest => quoted s rest
  | .array [], rest => '[' :: ']' :: rest
  | .array (j :: js), rest =>
    '[' :: (layout.newLine (level + 1) ++
      write layout (level + 1) j (writeItems layout level js rest))
  | .object [], rest => '\x7b' :: '\x7d' :: rest
  | .object ((k, j) :: ms), rest =>
    '\x7b' :: (layout.newLine (level + 1) ++
      quoted k (':' :: (layout.gap ++
        write layout (level + 1) j (writeMembers layout level ms rest))))

/-- The items after the first one, and the end of the array. -/
def writeItems (layout : Layout) (level : Nat) : List Json → (rest : List Char) → List Char
  | [], rest => layout.newLine level ++ ']' :: rest
  | j :: js, rest =>
    ',' :: (layout.newLine (level + 1) ++
      write layout (level + 1) j (writeItems layout level js rest))

/-- The members after the first one, and the end of the object. -/
def writeMembers (layout : Layout) (level : Nat) :
    List (List Char × Json) → (rest : List Char) → List Char
  | [], rest => layout.newLine level ++ '\x7d' :: rest
  | (k, j) :: ms, rest =>
    ',' :: (layout.newLine (level + 1) ++
      quoted k (':' :: (layout.gap ++
        write layout (level + 1) j (writeMembers layout level ms rest))))

end

/-- The text of a value. -/
def text (layout : Layout) (j : Json) : String := String.ofList (write layout 0 j [])

def compact (j : Json) : String := j.text .compact

def pretty (j : Json) : String := j.text .indented

end Json

end TvmDebug
