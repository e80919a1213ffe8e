/-!
# TOML values

* `Toml`: the values of a document. Floats and dates are told apart from the rest, but what they
  say is not kept.
* `Toml.isDefinite`: whether it is known which numbers stand in a value.
* `Standing`: how a table came to be, which decides what may still be added to it.
* `Toml.Entries`: the keys of a table with their values, in order of appearance, each key once.
* `Entries.putDotted`, `Entries.openTable`, `Entries.pushTable`: the three ways a document adds to
  its tables. `none` means that a key or a table would be defined twice.
-/
set_option autoImplicit false

namespace TvmDebug

/-- How a table came to be. -/
inductive Standing where
  /-- a header named a table inside it -/
  | implied
  /-- a header named it -/
  | header
  /-- a dotted key named it -/
  | dotted
  /-- it was written in braces; nothing can be added to it -/
  | braced
deriving DecidableEq

/-- A TOML value. An integer that is none of 128 bits is not known. Of a float it is only said
whether it is in the range of 64-bit ones. The elements of an array of tables are listed from the
last to the first. -/
inductive Toml where
  | string (s : String)
  | integer (n : Option Int)
  | float (isFinite : Bool)
  | boolean (b : Bool)
  | datetime
  | array (items : List Toml)
  | table (standing : Standing) (entries : List (String × Toml))
  | tables (elements : List (List (String × Toml)))
deriving Inhabited

namespace Toml

abbrev Entries := List (String × Toml)

/-! ## Numbers in a value -/

mutual

/-- All integers are known and all floats are finite. -/
def isDefinite : Toml → Bool
  | .integer n => n.isSome
  | .float isFinite => isFinite
  | .array items => areItemsDefinite items
  | .table _ entries => areEntriesDefinite entries
  | .tables elements => areElementsDefinite elements
  | _ => true

def areItemsDefinite : List Toml → Bool
  | [] => true
  | v :: vs => isDefinite v && areItemsDefinite vs

def areEntriesDefinite : List (String × Toml) → Bool
  | [] => true
  | (_, v) :: es => isDefinite v && areEntriesDefinite es

def areElementsDefinite : List (List (String × Toml)) → Bool
  | [] => true
  | es :: ess => areEntriesDefinite es && areElementsDefinite ess

end

/-! ## Adding to tables -/

namespace Entries

/-- Replaces the value of a key by what `f` makes of it; a new key comes last. -/
def change (k : String) (f : Option Toml → Option Toml) : Entries → Option Entries
  | [] => (f none).map fun v => [(k, v)]
  | (k', v) :: es =>
    if k = k' then (f (some v)).map fun v => (k', v) :: es
    else (change k f es).map fun es => (k', v) :: es

def put (k : String) (v : Toml) (es : Entries) : Option Entries :=
  change k (fun old => if old.isSome then none else some v) es

/-- Stores a value under a dotted key. All tables on the way are made by dotted keys; those before
the last one may also be tables that a header implies and last elements of arrays of tables. -/
def putDotted (v : Toml) : (path : List String) → Entries → Option Entries
  | [], _ => none
  | [k], es => put k v es
  | k :: k' :: ks, es =>
    change k (fun old => match old with
      | none => (putDotted v (k' :: ks) []).map (.table .dotted)
      | some (.table .dotted inner) => (putDotted v (k' :: ks) inner).map (.table .dotted)
      | some (.table .implied inner) =>
        if ks.isEmpty then none else (putDotted v (k' :: ks) inner).map (.table .implied)
      | some (.tables (last :: others)) =>
        if ks.isEmpty then none
        else (putDotted v (k' :: ks) last).map fun last => .tables (last :: others)
      | some _ => none) es

/-- Changes the table that the keys of a header lead to. A table on the way that does not exist is
implied; of an array of tables the last element is meant. -/
def within (f : Entries → Option Entries) : (path : List String) → Entries → Option Entries
  | [], es => f es
  | k :: ks, es =>
    change k (fun old => match old with
      | none => (within f ks []).map (.table .implied)
      | some (.table .braced _) => none
      | some (.table standing inner) => (within f ks inner).map (.table standing)
      | some (.tables (last :: others)) =>
        (within f ks last).map fun last => .tables (last :: others)
      | some _ => none) es

/-- A header names a table, which must be new or implied. -/
def openTable (path : List String) (k : String) (es : Entries) : Option Entries :=
  within (change k fun old => match old with
    | none => some (.table .header [])
    | some (.table .implied inner) => some (.table .header inner)
    | some _ => none) path es

/-- A header adds a table to an array of tables, which may be new. -/
def pushTable (path : List String) (k : String) (es : Entries) : Option Entries :=
  within (change k fun old => match old with
    | none => some (.tables [[]])
    | some (.tables elements) => some (.tables ([] :: elements))
    | some _ => none) path es

end Entries

end Toml

end TvmDebug
