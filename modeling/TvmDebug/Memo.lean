/-!
# A memo of one entry

* `Memo κ β`: the last value computed, with the key it was computed for.
* `Memo.getOrComputeM`: the value for a key, computed only when the memo holds no value for that
  key. The computation is an action, so that what it does besides (it may fail, it may be counted)
  is done exactly when it runs.
-/
set_option autoImplicit false

namespace TvmDebug

/-- The last value computed, with its key. -/
structure Memo (κ β : Type) where
  entry : Option (κ × β)

namespace Memo

variable {κ β : Type}

def empty : Memo κ β := ⟨none⟩

instance : Inhabited (Memo κ β) := ⟨empty⟩

def reset (_ : Memo κ β) : Memo κ β := empty

/-- The value held, whatever its key. -/
def current (m : Memo κ β) : Option β := m.entry.map (·.2)

def isFilled (m : Memo κ β) : Bool := m.entry.isSome

def get? [DecidableEq κ] (m : Memo κ β) (k : κ) : Option β :=
  match m.entry with
  | some (k', v) => if k' = k then some v else none
  | none => none

/-- The value for `k` and the memo that holds it. -/
def getOrComputeM [DecidableEq κ] {m : Type → Type} [Monad m] (memo : Memo κ β) (k : κ)
    (compute : Unit → m β) : m (β × Memo κ β) :=
  match memo.get? k with
  | some v => pure (v, memo)
  | none => do
    let v ← compute ()
    pure (v, ⟨some (k, v)⟩)

end Memo

end TvmDebug
