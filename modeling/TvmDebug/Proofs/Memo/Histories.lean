import Mathlib.Data.List.DropRight
import Mathlib.Data.List.Induction
import TvmDebug.Proofs.Memo
/-! # What a memo answers after a history of calls

A call for the key of the last one is answered with the value held, and any other computes
(`apply_hit`, `apply_miss`). So the value held is the one that was computed when the stretch of
calls for its key began (`Stretch.after_eq`), and of all computations only those that begin a
stretch run (`outside_after`). When every computation for a key yields the same value, the memo
cannot be told from one that computes each time (`transparent_and_minimal`). -/
set_option autoImplicit false

namespace TvmDebug.Memo

/-! ## Calls -/

/-- A call on a memo. A computation may read and change a state outside of the memo. -/
inductive Op (σ κ β : Type) where
  | getOrCompute (k : κ) (compute : StateM σ β)
  | get (k : κ)
  | reset

inductive Answer (β : Type) where
  | value (v : β)
  | found (v : Option β)
  | nothing

/-- A memo and the state outside of it. -/
structure State (σ κ β : Type) where
  memo : Memo κ β
  outside : σ

variable {σ κ β : Type}

namespace Op

def apply [DecidableEq κ] (s : State σ κ β) : Op σ κ β → Answer β × State σ κ β
  | getOrCompute k compute =>
    let ((v, memo), outside) := (s.memo.getOrComputeM k fun _ => compute).run s.outside
    (.value v, ⟨memo, outside⟩)
  | get k => (.found (s.memo.get? k), s)
  | reset => (.nothing, ⟨s.memo.reset, s.outside⟩)

/-- The key of a call for a value. -/
def key? : Op σ κ β → Option κ
  | getOrCompute k _ => some k
  | get _ | reset => none

def isReset : Op σ κ β → Bool
  | reset => true
  | getOrCompute _ _ | get _ => false

/-- The call does not end a stretch of calls for `k`. -/
def Keeps (k : κ) : Op σ κ β → Prop
  | getOrCompute k' _ => k' = k
  | get _ => True
  | reset => False

/-- The computation yields the value of `f`, whatever the state outside is. -/
def Yields (f : κ → β) : Op σ κ β → Prop
  | getOrCompute k compute => ∀ s, (compute.run s).1 = f k
  | get _ | reset => True

/-- The computation of a call that begins a stretch, when `last` is the key of the last one. -/
def opens? [DecidableEq κ] (last : Option κ) : Op σ κ β → Option (StateM σ β)
  | getOrCompute k compute => if last = some k then none else some compute
  | get _ | reset => none

end Op

/-! ## Histories -/

/-- The key of the last call for a value since the last reset. -/
def lastKey (ops : List (Op σ κ β)) : Option κ :=
  ((ops.rtakeWhile fun op => !op.isReset).filterMap Op.key?).getLast?

/-- The calls end with a stretch of calls for `k`, the first of which has the given computation. -/
structure Stretch (k : κ) (before : List (Op σ κ β)) (compute : StateM σ β)
    (during ops : List (Op σ κ β)) : Prop where
  split : ops = before ++ .getOrCompute k compute :: during
  begins : lastKey before ≠ some k
  unbroken : ∀ op ∈ during, op.Keeps k

theorem lastKey_getOrCompute (ops : List (Op σ κ β)) (k : κ) (compute : StateM σ β) :
    lastKey (ops ++ [.getOrCompute k compute]) = some k := by
  rw [lastKey, List.rtakeWhile_concat_pos _ _ _ rfl, List.filterMap_append]
  exact List.getLast?_concat

theorem lastKey_get (ops : List (Op σ κ β)) (k : κ) :
    lastKey (ops ++ [.get k]) = lastKey ops := by
  rw [lastKey, List.rtakeWhile_concat_pos _ _ _ rfl, List.filterMap_append]
  exact congrArg List.getLast? (List.append_nil _)

theorem lastKey_reset (ops : List (Op σ κ β)) : lastKey (ops ++ [.reset]) = none := by
  rw [lastKey, List.rtakeWhile_concat_neg _ _ _ Bool.false_ne_true]
  rfl

theorem Stretch.append_singleton {k : κ} {before during ops : List (Op σ κ β)}
    {compute : StateM σ β} {op : Op σ κ β} (h : Stretch k before compute during ops)
    (hop : op.Keeps k) : Stretch k before compute (during ++ [op]) (ops ++ [op]) where
  split := by rw [h.split, List.append_assoc, List.cons_append]
  begins := h.begins
  unbroken := List.forall_mem_append.2 ⟨h.unbroken, List.forall_mem_singleton.2 hop⟩

theorem exists_stretch {k : κ} {ops : List (Op σ κ β)} (h : lastKey ops = some k) :
    ∃ before compute during, Stretch k before compute during ops := by
  induction ops using List.reverseRecOn with
  | nil => cases h
  | append_singleton ops op ih =>
    cases op with
    | getOrCompute k' compute =>
      rw [lastKey_getOrCompute] at h
      obtain rfl := Option.some.inj h
      -- The call goes on with the stretch before it, or begins one of its own.
      by_cases hlast : lastKey ops = some k'
      · obtain ⟨before, first, during, hstretch⟩ := ih hlast
        exact ⟨before, first, _, hstretch.append_singleton rfl⟩
      · exact ⟨ops, compute, [], rfl, hlast, nofun⟩
    | get k' =>
      rw [lastKey_get] at h
      obtain ⟨before, first, during, hstretch⟩ := ih h
      exact ⟨before, first, _, hstretch.append_singleton trivial⟩
    | reset =>
      rw [lastKey_reset] at h
      cases h

/-! ## One call after a history -/

section Calls
variable [DecidableEq κ]

/-- A new memo after some calls. -/
def after (start : σ) (ops : List (Op σ κ β)) : State σ κ β :=
  ops.foldl (fun s op => (op.apply s).2) ⟨empty, start⟩

/-- What a call for a value leaves when it computes. -/
def computed (s : State σ κ β) (k : κ) (compute : StateM σ β) : State σ κ β :=
  let (v, outside) := compute.run s.outside
  ⟨⟨some (k, v)⟩, outside⟩

variable {k : κ} {compute : StateM σ β} {s : State σ κ β} {start : σ} {ops : List (Op σ κ β)}

theorem after_append_singleton (start : σ) (ops : List (Op σ κ β)) (op : Op σ κ β) :
    after start (ops ++ [op]) = (op.apply (after start ops)).2 := by
  rw [after, List.foldl_append]
  rfl

theorem apply_hit {v : β} (h : s.memo.get? k = some v) (compute : StateM σ β) :
    (Op.getOrCompute k compute).apply s = (.value v, s) := by
  rw [Op.apply, getOrComputeM_hit h]
  rfl

theorem apply_miss (h : s.memo.get? k = none) (compute : StateM σ β) :
    (Op.getOrCompute k compute).apply s =
      (.value (compute.run s.outside).1, computed s k compute) := by
  rw [Op.apply, getOrComputeM_miss h]
  rfl

theorem exists_held (s : State σ κ β) (k : κ) (compute : StateM σ β) :
    ∃ v, ((Op.getOrCompute k compute).apply s).1 = .value v ∧
      ((Op.getOrCompute k compute).apply s).2.memo.entry = some (k, v) := by
  cases hget : s.memo.get? k with
  | some v =>
    rw [apply_hit hget]
    exact ⟨v, rfl, get?_eq_some_iff.1 hget⟩
  | none =>
    rw [apply_miss hget]
    exact ⟨_, rfl, rfl⟩

/-- A call for a value is answered with the value held after it. -/
theorem answer_of_held {v : β}
    (h : (after start (ops ++ [.getOrCompute k compute])).memo.entry = some (k, v)) :
    ((Op.getOrCompute k compute).apply (after start ops)).1 = .value v := by
  obtain ⟨held, hanswer, hheld⟩ := exists_held (after start ops) k compute
  rw [after_append_singleton, hheld] at h
  rw [hanswer, (Prod.mk.inj (Option.some.inj h)).2]

theorem key_entry (start : σ) (ops : List (Op σ κ β)) :
    (after start ops).memo.entry.map Prod.fst = lastKey ops := by
  induction ops using List.reverseRecOn with
  | nil => rfl
  | append_singleton ops op ih =>
    rw [after_append_singleton]
    cases op with
    | getOrCompute k compute =>
      obtain ⟨v, -, hheld⟩ := exists_held (after start ops) k compute
      rw [lastKey_getOrCompute, hheld]
      rfl
    | get k =>
      rw [lastKey_get]
      exact ih
    | reset =>
      rw [lastKey_reset]
      rfl

theorem get?_after_eq_none (start : σ) (h : lastKey ops ≠ some k) :
    (after start ops).memo.get? k = none := by
  rw [Option.eq_none_iff_forall_ne_some]
  intro v hv
  rw [← key_entry start ops, get?_eq_some_iff.1 hv] at h
  exact h rfl

theorem exists_get?_after (start : σ) (h : lastKey ops = some k) :
    ∃ v, (after start ops).memo.get? k = some v := by
  rw [← key_entry start ops] at h
  obtain ⟨⟨k', v⟩, hentry, rfl⟩ := Option.map_eq_some_iff.1 h
  exact ⟨v, get?_eq_some_iff.2 hentry⟩

/-- A call for a value computes if its key is not that of the last one, and only then. -/
theorem apply_getOrCompute (start : σ) (ops : List (Op σ κ β)) (k : κ) (compute : StateM σ β) :
    ((Op.getOrCompute k compute).apply (after start ops)).2 =
      if lastKey ops = some k then after start ops else computed (after start ops) k compute := by
  split
  · next hlast =>
    obtain ⟨v, hget⟩ := exists_get?_after start hlast
    rw [apply_hit hget]
  · next hlast => rw [apply_miss (get?_after_eq_none start hlast)]

/-! ## Stretches -/

/-- After a stretch all is as its first call has left it. -/
theorem Stretch.after_eq {before during : List (Op σ κ β)}
    (h : Stretch k before compute during ops) (start : σ) :
    after start ops = computed (after start before) k compute := by
  obtain ⟨rfl, hbegins, hunbroken⟩ := h
  induction during using List.reverseRecOn with
  | nil => rw [after_append_singleton, apply_getOrCompute, if_neg hbegins]
  | append_singleton during op ih =>
    obtain ⟨hduring, hop⟩ := List.forall_mem_append.1 hunbroken
    rw [← List.cons_append, ← List.append_assoc, after_append_singleton, ih hduring]
    cases op with
    | getOrCompute k' compute' =>
      -- The memo holds what the first call has left, which has the key of this one.
      obtain rfl : k' = k := hop _ List.mem_cons_self
      rw [apply_hit (get?_eq_some_iff.2 rfl)]
    | get k' => rfl
    | reset => exact (hop _ List.mem_cons_self).elim

/-- The value of a call is the one computed at the start of its stretch. -/
theorem Stretch.answer {before during : List (Op σ κ β)} {first : StateM σ β}
    (h : Stretch k before first during (ops ++ [.getOrCompute k compute])) (start : σ) :
    ((Op.getOrCompute k compute).apply (after start ops)).1 =
      .value (first.run (after start before).outside).1 := by
  apply answer_of_held
  rw [h.after_eq start]
  rfl

/-! ## The computations that run -/

/-- The computations that begin a stretch, when some calls were made before. -/
def opened (before : List (Op σ κ β)) : List (Op σ κ β) → List (StateM σ β)
  | [] => []
  | op :: ops => (op.opens? (lastKey before)).toList ++ opened (before ++ [op]) ops

theorem opened_append_singleton (before ops : List (Op σ κ β)) (op : Op σ κ β) :
    opened before (ops ++ [op]) =
      opened before ops ++ (op.opens? (lastKey (before ++ ops))).toList := by
  induction ops generalizing before with
  | nil => simp [opened]
  | cons op' ops ih => simp [opened, ih]

theorem outside_after (start : σ) (ops : List (Op σ κ β)) :
    (after start ops).outside =
      (opened [] ops).foldl (fun outside compute => (compute.run outside).2) start := by
  induction ops using List.reverseRecOn with
  | nil => rfl
  | append_singleton ops op ih =>
    rw [after_append_singleton, opened_append_singleton, List.foldl_append, ← ih, List.nil_append]
    cases op with
    | getOrCompute k compute =>
      rw [apply_getOrCompute, Op.opens?]
      split <;> rfl
    | get k => rfl
    | reset => rfl

/-! ## Values that only depend on the key -/

/-- After some calls a memo answers as if it computed `f` each time, and shows the value of the last
key. -/
structure Transparent (f : κ → β) (ops : List (Op σ κ β)) (s : State σ κ β) : Prop where
  value : ∀ k compute, (Op.getOrCompute k compute).Yields f →
    ((Op.getOrCompute k compute).apply s).1 = .value (f k)
  found : ∀ k, s.memo.get? k = if lastKey ops = some k then some (f k) else none
  current : s.memo.current = (lastKey ops).map f
  isFilled : s.memo.isFilled = (lastKey ops).isSome

theorem entry_after {f : κ → β} (hops : ∀ op ∈ ops, op.Yields f) (start : σ) :
    (after start ops).memo.entry = (lastKey ops).map fun k => (k, f k) := by
  cases hlast : lastKey ops with
  | none =>
    rw [← key_entry start ops] at hlast
    exact Option.map_eq_none_iff.1 hlast
  | some k =>
    obtain ⟨before, compute, during, hstretch⟩ := exists_stretch hlast
    have hyields : (Op.getOrCompute k compute).Yields f :=
      hops _ (hstretch.split ▸ List.mem_append_right before List.mem_cons_self)
    rw [hstretch.after_eq start]
    exact congrArg (fun v => some (k, v)) (hyields _)

theorem transparent_after {f : κ → β} (hops : ∀ op ∈ ops, op.Yields f) (start : σ) :
    Transparent f ops (after start ops) where
  value := by
    intro k compute hyields
    have hall := List.forall_mem_append.2 ⟨hops, List.forall_mem_singleton.2 hyields⟩
    apply answer_of_held
    rw [entry_after hall, lastKey_getOrCompute]
    rfl
  found := by
    intro k
    rw [get?, entry_after hops]
    cases lastKey ops with
    | none => rfl
    | some k' => by_cases hk : k' = k <;> simp [hk]
  current := by
    rw [current, entry_after hops, Option.map_map]
    rfl
  isFilled := by
    rw [isFilled, entry_after hops, Option.isSome_map]

/-- **A memo is transparent and minimal.** A computation runs when a call is for another key than
the last one and never else, and its value answers all calls of the stretch that it begins. -/
theorem transparent_and_minimal (start : σ) (ops : List (Op σ κ β)) :
    (∀ f : κ → β, (∀ op ∈ ops, op.Yields f) → Transparent f ops (after start ops)) ∧
    (∀ k compute, ((Op.getOrCompute k compute).apply (after start ops)).2.outside =
      if lastKey ops = some k then (after start ops).outside
      else (compute.run (after start ops).outside).2) ∧
    (after start ops).outside =
      (opened [] ops).foldl (fun outside compute => (compute.run outside).2) start ∧
    ∀ k compute, ∃ before first during,
      Stretch k before first during (ops ++ [.getOrCompute k compute]) ∧
      ((Op.getOrCompute k compute).apply (after start ops)).1 =
        .value (first.run (after start before).outside).1 := by
  refine ⟨fun f hops => transparent_after hops start, fun k compute => ?_, outside_after start ops,
    fun k compute => ?_⟩
  · rw [apply_getOrCompute]
    split <;> rfl
  · obtain ⟨before, first, during, hstretch⟩ :=
      exists_stretch (lastKey_getOrCompute ops k compute)
    exact ⟨before, first, during, hstretch, hstretch.answer start⟩

end Calls

/-- A call that counts its computation and doubles the key. -/
def counted (k : Nat) : Op Nat Nat Nat :=
  .getOrCompute k (modifyGet fun calls => (2 * k, calls + 1))

theorem yields_counted (k : Nat) : (counted k).Yields (2 * ·) := fun _ => rfl

/-- Two of the calls are for the key of the last one, and another is not because of the reset. -/
def countedRun : List (Op Nat Nat Nat) :=
  [counted 1, counted 1, .get 1, counted 1, counted 5, .reset, counted 5]

theorem transparent_and_minimal_counted : (∀ op ∈ countedRun, op.Yields (2 * ·)) ∧
    (after 0 countedRun).memo.get? 5 = some 10 ∧ (after 0 countedRun).memo.get? 1 = none ∧
    (after 0 countedRun).outside = 3 := by
  obtain ⟨htransparent, -, houtside, -⟩ := transparent_and_minimal 0 countedRun
  have hyields : ∀ op ∈ countedRun, op.Yields (2 * ·) := by
    simpa [countedRun, Op.Yields] using And.intro (yields_counted 1) (yields_counted 5)
  have hshown := htransparent _ hyields
  exact ⟨hyields, hshown.found 5, hshown.found 1, houtside⟩

end TvmDebug.Memo
