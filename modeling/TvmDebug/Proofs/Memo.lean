import TvmDebug.Memo
/-! # What a memo answers

A memo answers for the key it holds and for no other (`get?_eq_some_iff`). Asked for a value, it
gives the one held (`getOrComputeM_hit`) or computes one and holds it (`getOrComputeM_miss`), and
either way holds it after (`get?_of_getOrComputeM`). -/
set_option autoImplicit false

namespace TvmDebug

theorem exists_of_map_eq_ok {ε α β : Type} {f : α → β} {x : Except ε α} {y : β}
    (h : x.map f = .ok y) : ∃ a, x = .ok a ∧ f a = y := by
  cases x with
  | error e => cases h
  | ok a => exact ⟨a, rfl, Except.ok.inj h⟩

theorem exists_of_bind_eq_ok {ε α β : Type} {f : α → Except ε β} {x : Except ε α} {y : β}
    (h : x >>= f = .ok y) : ∃ a, x = .ok a ∧ f a = .ok y := by
  cases x with
  | error e => cases h
  | ok a => exact ⟨a, rfl, h⟩

namespace Memo

variable {κ β : Type} [DecidableEq κ] {memo : Memo κ β} {k : κ}

theorem get?_eq_some_iff {v : β} : memo.get? k = some v ↔ memo.entry = some (k, v) := by
  unfold get?
  cases memo.entry with
  | none => simp
  | some e =>
    obtain ⟨k', v'⟩ := e
    by_cases hk : k' = k <;> simp [hk]

theorem getOrComputeM_hit {m : Type → Type} [Monad m] {v : β} (h : memo.get? k = some v)
    (compute : Unit → m β) : memo.getOrComputeM k compute = pure (v, memo) := by
  rw [getOrComputeM, h]

theorem getOrComputeM_miss {m : Type → Type} [Monad m] (h : memo.get? k = none)
    (compute : Unit → m β) :
    memo.getOrComputeM k compute = compute () >>= fun v => pure (v, ⟨some (k, v)⟩) := by
  rw [getOrComputeM, h]

/-- What was computed or found is held. -/
theorem get?_of_getOrComputeM {ε : Type} {compute : Unit → Except ε β} {v : β} {memo' : Memo κ β}
    (h : memo.getOrComputeM k compute = .ok (v, memo')) : memo'.get? k = some v := by
  cases hget : memo.get? k with
  | some held =>
    rw [getOrComputeM_hit hget] at h
    obtain ⟨rfl, rfl⟩ := Prod.mk.inj (Except.ok.inj h)
    exact hget
  | none =>
    rw [getOrComputeM_miss hget] at h
    cases hcompute : compute () with
    | error e => simp [hcompute, bind, Except.bind] at h
    | ok computed =>
      rw [hcompute] at h
      obtain ⟨rfl, rfl⟩ := Prod.mk.inj (Except.ok.inj h)
      exact get?_eq_some_iff.2 rfl

end Memo

end TvmDebug
