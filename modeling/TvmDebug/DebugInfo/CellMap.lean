import TvmDebug.DebugInfo.Basic
/-!
# Code locations reported by the machine

The machine names a code location by the hash of a cell and a bit offset in it.

* `CodeLocation`: such a name; the order is by hash, then by offset. Code points order hashes as
  their UTF-8 bytes do.
* `CodeTable`: what tells of a location the instructions of its cell and the position among them of
  the instruction there.
* `CellMap`: the table that holds this for finitely many locations. Hashes are kept in upper case,
  so that case does not matter.
* `CellMap.ofEntries` and `CellMap.toEntries`: the list of entries of a map.
-/
set_option autoImplicit false

namespace TvmDebug

theorem toUpper_toUpper (c : Char) : c.toUpper.toUpper = c.toUpper := by
  by_cases h : 'a'.val ≤ c.val ∧ c.val ≤ 'z'.val
  · have hupper : c.toUpper.val = c.val + ('A'.val - 'a'.val) := by
      delta Char.toUpper
      rw [dif_pos h]
    have hnot : ¬ ('a'.val ≤ c.toUpper.val ∧ c.toUpper.val ≤ 'z'.val) := by
      rw [hupper]
      simp only [UInt32.le_iff_toNat_le, UInt32.toNat_add] at h ⊢
      simp at h ⊢
      omega
    exact dif_neg hnot
  · have hsame : c.toUpper = c := dif_neg h
    rw [hsame, hsame]

/-- A cell, by its hash, and a bit offset in it. -/
structure CodeLocation where
  hash : String
  offset : UInt32
deriving DecidableEq

namespace CodeLocation

def order : CodeLocation → CodeLocation → Ordering :=
  compareLex (compareOn CodeLocation.hash) (compareOn CodeLocation.offset)

instance : Ord CodeLocation := ⟨order⟩

instance : Std.TransOrd CodeLocation :=
  inferInstanceAs (Std.TransCmp (compareLex (compareOn CodeLocation.hash)
    (compareOn CodeLocation.offset)))

instance : Std.LawfulEqOrd CodeLocation where
  compare_self {a} := by exact Std.ReflCmp.compare_self
  eq_of_compare {a b} h := by
    have h' : (compare a.hash b.hash).then (compare a.offset b.offset) = .eq := h
    rw [Ordering.then_eq_eq] at h'
    obtain ⟨hash, offset⟩ := a
    obtain ⟨hash', offset'⟩ := b
    obtain rfl := Std.LawfulEqOrd.eq_of_compare h'.1
    obtain rfl := Std.LawfulEqOrd.eq_of_compare h'.2
    rfl

/-- The location with its hash in ASCII upper case. -/
def upper (l : CodeLocation) : CodeLocation := { l with hash := l.hash.toUpper }

theorem upper_upper (l : CodeLocation) : l.upper.upper = l.upper := by
  have h : l.hash.toUpper.toUpper = l.hash.toUpper := by
    rw [String.toUpper, String.toUpper, String.map_map]
    exact congrArg (String.map · l.hash) (funext toUpper_toUpper)
  simp [upper, h]

end CodeLocation

/-- The instructions of a cell and the position of one of them. -/
structure CellEntry where
  instructions : List Instruction
  index : UInt64
deriving DecidableEq

def CellEntry.instruction? (e : CellEntry) : Option Instruction := e.instructions[e.index.toNat]?

/-- A table of code locations, however it is built. -/
class CodeTable (μ : Type) where
  resolve : μ → CodeLocation → Option CellEntry

/-- What is known about code locations; the hashes of its keys are in upper case. -/
structure CellMap where
  cells : SortedMap CodeLocation CellEntry
  upper : ∀ e ∈ cells.entries, e.1.upper = e.1

namespace CellMap

def empty : CellMap := ⟨SortedMap.empty, nofun⟩

instance : Inhabited CellMap := ⟨empty⟩

def size (m : CellMap) : Nat := m.cells.size

def insert (m : CellMap) (l : CodeLocation) (e : CellEntry) : CellMap where
  cells := m.cells.insert l.upper e
  upper := by
    intro e' he'
    rcases SortedMap.key_of_mem_upsertEntries _ _ _ e' he' with hkey | ⟨e₀, he₀, hkey⟩
    · rw [hkey, CodeLocation.upper_upper]
    · rw [← hkey, m.upper e₀ he₀]

def resolve (m : CellMap) (l : CodeLocation) : Option CellEntry := m.cells.find? l.upper

instance : CodeTable CellMap := ⟨resolve⟩

/-- Entries are inserted in turn, so that the last one of a location wins. -/
def ofEntries (es : List (CodeLocation × CellEntry)) : CellMap :=
  es.foldl (fun m e => m.insert e.1 e.2) empty

def toEntries (m : CellMap) : List (CodeLocation × CellEntry) := m.cells.entries

end CellMap

end TvmDebug
