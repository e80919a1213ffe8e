/-!
# Inputs with an identity

* `Shared α`: a value and the identity of the input that holds it. Inputs are told apart by
  identity, never by content.
* `sameInput`: whether two optional inputs are the same one.
* `Shared.Fits`: what identities promise of an input that is given while another one is held.
-/
set_option autoImplicit false

namespace TvmDebug

/-- A value and the identity of the input that holds it. -/
structure Shared (α : Type) where
  id : Nat
  value : α

/-- Both are absent, or both are the same input. -/
def sameInput {α : Type} : Option (Shared α) → Option (Shared α) → Bool
  | none, none => true
  | some a, some b => a.id == b.id
  | _, _ => false

/-- An input given while another one is held has the identity of that one only if it is the same
input. -/
def Shared.Fits {α : Type} (held given : Option (Shared α)) : Prop :=
  ∀ x y, held = some x → given = some y → x.id = y.id → x.value = y.value

end TvmDebug
