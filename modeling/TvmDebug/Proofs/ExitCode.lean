import TvmDebug.ExitCode.Resolve
import TvmDebug.Proofs.Text.Parts
/-! # The exit code that a log tells

The exception of a log is its last one, and the instruction that raised it is at the last code
location before that line. `LastBelow` says which line is the last of its kind below a line;
`resolveExitCode_split` says what two such lines tell and that without them nothing is told.

A search from the end splits the lines in two, at the line found (`findRest?_take_reverse`); what
stands before it is searched for the location. -/
set_option autoImplicit false

namespace TvmDebug

/-! ## Lines that tell something -/

namespace LogLine

/-- The line tells of an exception, by its code and its message. -/
inductive Raises : LogLine → Int32 × String → Prop
  | exception (errno : Int32) (message : String) :
      Raises (.exception errno message) (errno, message)
  | outOfGas (text : String)
      (h : "unhandled out-of-gas exception".toList <:+: text.toList) :
      Raises (.unknown text) (-14, "")

/-- The line names a code location. -/
inductive Enters : LogLine → CodeLocation → Prop
  | location (hash : String) (offset : UInt32) : Enters (.location hash offset) ⟨hash, offset⟩

theorem raised?_eq_some_iff (line : LogLine) (r : Int32 × String) :
    line.raised? = some r ↔ line.Raises r := by
  cases line with
  | location hash offset => exact ⟨nofun, nofun⟩
  | exception errno message =>
    constructor
    · rintro ⟨⟩
      exact .exception errno message
    · rintro ⟨⟩
      rfl
  | unknown text =>
    rw [raised?, Option.ite_none_right_eq_some, Text.occursIn_iff]
    constructor
    · rintro ⟨h, ⟨⟩⟩
      exact .outOfGas text h
    · rintro ⟨⟩
      exact ⟨‹_›, rfl⟩

theorem codeLocation?_eq_some_iff (line : LogLine) (here : CodeLocation) :
    line.codeLocation? = some here ↔ line.Enters here := by
  cases line with
  | location hash offset =>
    constructor
    · rintro ⟨⟩
      exact .location hash offset
    · rintro ⟨⟩
      rfl
  | exception errno message => exact ⟨nofun, nofun⟩
  | unknown text => exact ⟨nofun, nofun⟩

end LogLine

/-! ## Searching from the end -/

section Search
variable {α β : Type}

/-- What stands at position `i` tells `y`, and nothing between there and position `n` tells
anything. -/
structure LastBelow (tells : α → β → Prop) (xs : List α) (n i : Nat) (y : β) : Prop where
  lt : i < n
  here : ∃ x, xs[i]? = some x ∧ tells x y
  later : ∀ j x, i < j → j < n → xs[j]? = some x → ∀ z, ¬ tells x z

variable {tells : α → β → Prop} {f : α → Option β} {xs : List α}

theorem lastBelow_succ {n : Nat} {x : α} (hx : xs[n]? = some x) {i : Nat} {y : β} :
    LastBelow tells xs (n + 1) i y ↔
      (i = n ∧ tells x y) ∨ ((∀ z, ¬ tells x z) ∧ LastBelow tells xs n i y) := by
  constructor
  · rintro ⟨hlt, ⟨x', hx', hy⟩, hlater⟩
    rcases Nat.lt_succ_iff_lt_or_eq.1 hlt with hin | rfl
    · exact .inr ⟨hlater n x hin n.lt_succ_self hx,
        hin, ⟨x', hx', hy⟩, fun j x hij hjn => hlater j x hij (Nat.lt_succ_of_lt hjn)⟩
    · obtain rfl := Option.some.inj (hx.symm.trans hx')
      exact .inl ⟨rfl, hy⟩
  · rintro (⟨rfl, hy⟩ | ⟨hnone, hlt, hhere, hlater⟩)
    · exact ⟨i.lt_succ_self, ⟨x, hx, hy⟩, fun j _ hij hjn => by omega⟩
    · refine ⟨Nat.lt_succ_of_lt hlt, hhere, fun j x' hij hjn hx' => ?_⟩
      rcases Nat.lt_succ_iff_lt_or_eq.1 hjn with hjn | rfl
      · exact hlater j x' hij hjn hx'
      · obtain rfl := Option.some.inj (hx.symm.trans hx')
        exact hnone

theorem findRest?_take_reverse (hf : ∀ x y, f x = some y ↔ tells x y) {n : Nat}
    (hn : n ≤ xs.length) (y : β) (rest : List α) :
    findRest? f (xs.take n).reverse = some (y, rest) ↔
      ∃ i, LastBelow tells xs n i y ∧ rest = (xs.take i).reverse := by
  induction n with
  | zero =>
    rw [List.take_zero]
    exact ⟨nofun, fun ⟨i, hlast, _⟩ => absurd hlast.lt i.not_lt_zero⟩
  | succ n ih =>
    have hx : xs[n]? = some xs[n] := List.getElem?_eq_getElem hn
    have htake : (xs.take (n + 1)).reverse = xs[n] :: (xs.take n).reverse := by
      rw [List.take_succ_eq_append_getElem hn, List.reverse_append]
      rfl
    simp only [htake, findRest?, lastBelow_succ hx]
    -- The search looks at position `n` first: it ends there or is the search below `n`.
    split
    · next y' hy' =>
      constructor
      · rintro ⟨⟩
        exact ⟨n, .inl ⟨rfl, (hf _ _).1 hy'⟩, rfl⟩
      · rintro ⟨i, ⟨rfl, hy⟩ | ⟨hnone, -⟩, rfl⟩
        · obtain rfl := Option.some.inj (((hf _ _).2 hy).symm.trans hy')
          rfl
        · exact absurd ((hf _ _).1 hy') (hnone y')
    · next hnone =>
      have htells : ∀ z, ¬ tells xs[n] z := by
        intro z hz
        rw [(hf _ _).2 hz] at hnone
        cases hnone
      rw [ih (Nat.le_of_succ_le hn)]
      constructor
      · rintro ⟨i, hlast, hrest⟩
        exact ⟨i, .inr ⟨htells, hlast⟩, hrest⟩
      · rintro ⟨i, ⟨-, hy⟩ | ⟨-, hlast⟩, hrest⟩
        · exact absurd hy (htells y)
        · exact ⟨i, hlast, hrest⟩

theorem findSome?_eq_map_findRest? (f : α → Option β) (xs : List α) :
    xs.findSome? f = (findRest? f xs).map Prod.fst := by
  induction xs with
  | nil => rfl
  | cons x xs ih =>
    rw [List.findSome?_cons, findRest?, ih]
    cases f x <;> rfl

theorem findSome?_take_reverse (hf : ∀ x y, f x = some y ↔ tells x y) {n : Nat}
    (hn : n ≤ xs.length) {y : β} :
    (xs.take n).reverse.findSome? f = some y ↔ ∃ i, LastBelow tells xs n i y := by
  rw [findSome?_eq_map_findRest?, Option.map_eq_some_iff]
  constructor
  · rintro ⟨⟨_, rest⟩, hfind, rfl⟩
    obtain ⟨i, hlast, -⟩ := (findRest?_take_reverse hf hn _ _).1 hfind
    exact ⟨i, hlast⟩
  · rintro ⟨i, hlast⟩
    exact ⟨_, (findRest?_take_reverse hf hn _ _).2 ⟨i, hlast, rfl⟩, rfl⟩

theorem lastBelow_append (before : List α) {between : List α} (after : List α) {x : α} {y : β}
    (hx : tells x y) (hbetween : ∀ z ∈ between, ∀ w, ¬ tells z w) :
    LastBelow tells (before ++ x :: (between ++ after)) (before.length + (between.length + 1))
      before.length y where
  lt := by omega
  here := ⟨x, by simp, hx⟩
  later := by
    intro j z hj hlt hz
    obtain ⟨k, rfl⟩ : ∃ k, j = before.length + (k + 1) := ⟨j - before.length - 1, by omega⟩
    have hk : k < between.length := by omega
    rw [List.getElem?_append_right (by omega), Nat.add_sub_cancel_left, List.getElem?_cons_succ,
      List.getElem?_append_left hk] at hz
    exact hbetween z (List.mem_of_getElem? hz)

end Search

/-! ## What the lines of a log tell -/

section Tables
variable {μ : Type} [CodeTable μ]

/-- The exit code of an exception with a code and a message, raised at a code location that a table
may know. -/
structure ExitCode.Tells (table : μ) (num : Int32) (message : String) (here : CodeLocation)
    (code : ExitCode) : Prop where
  num_eq : code.num = num
  own_description : message ≠ "" → code.description = message
  standard_description : message = "" → code.description = exitCodeDescription num
  resolved : ∀ entry, CodeTable.resolve table here = some entry →
    code.info = entry.instructions[entry.index.toNat]?
  unresolved : CodeTable.resolve table here = none → code.info = none

variable {lines : List LogLine} {table : μ}

theorem tells_iff {num : Int32} {message : String} {here : CodeLocation} {code : ExitCode} :
    code.Tells table num message here ↔
      ⟨num, if message.isEmpty then exitCodeDescription num else message,
        (CodeTable.resolve table here).bind CellEntry.instruction?⟩ = code := by
  constructor
  · rintro ⟨hnum, hown, hstandard, hresolved, hunresolved⟩
    obtain ⟨num', description, info⟩ := code
    rw [ExitCode.mk.injEq]
    refine ⟨hnum.symm, ?_, ?_⟩
    · by_cases hm : message = ""
      · exact (if_pos (by simpa using hm)).trans (hstandard hm).symm
      · exact (if_neg (by simpa using hm)).trans (hown hm).symm
    · cases hentry : CodeTable.resolve table here with
      | none => exact (hunresolved hentry).symm
      | some entry => exact (hresolved entry hentry).symm
  · rintro rfl
    refine ⟨rfl, fun hm => if_neg (by simpa using hm), fun hm => if_pos (by simpa using hm),
      fun entry hentry => ?_, fun hentry => ?_⟩
    · rw [hentry]
      rfl
    · rw [hentry]
      rfl

theorem resolveExitCode_eq_some_iff {code : ExitCode} :
    resolveExitCode lines table = some code ↔
      ∃ e l num message here, LastBelow LogLine.Raises lines lines.length e (num, message) ∧
        LastBelow LogLine.Enters lines e l here ∧ code.Tells table num message here := by
  have hraised : ∀ r before, findRest? LogLine.raised? lines.reverse = some (r, before) ↔
      ∃ e, LastBelow LogLine.Raises lines lines.length e r ∧ before = (lines.take e).reverse := by
    intro r before
    have h := findRest?_take_reverse LogLine.raised?_eq_some_iff (Nat.le_refl lines.length)
      r before
    rwa [List.take_length] at h
  have hentered : ∀ e ≤ lines.length, ∀ here,
      (lines.take e).reverse.findSome? LogLine.codeLocation? = some here ↔
        ∃ l, LastBelow LogLine.Enters lines e l here := fun e he _ =>
    findSome?_take_reverse LogLine.codeLocation?_eq_some_iff he
  simp only [resolveExitCode, Option.bind_eq_bind, Option.bind_eq_some_iff, Prod.exists,
    Option.some.injEq, ← tells_iff]
  constructor
  · rintro ⟨num, message, before, hfind, here, hhere, htells⟩
    obtain ⟨e, he, rfl⟩ := (hraised _ _).1 hfind
    obtain ⟨l, hl⟩ := (hentered e (Nat.le_of_lt he.lt) here).1 hhere
    exact ⟨e, l, num, message, here, he, hl, htells⟩
  · rintro ⟨e, l, num, message, here, he, hl, htells⟩
    exact ⟨num, message, _, (hraised _ _).2 ⟨e, he, rfl⟩, here,
      (hentered e (Nat.le_of_lt he.lt) here).2 ⟨l, hl⟩, htells⟩

/-- Neither what stands before the location nor what stands after the exception tells anything, and
what stands between them only must not name another location. -/
theorem resolveExitCode_split {before between after : List LogLine} {hash : String}
    {offset : UInt32} {mark : LogLine} {num : Int32} {message : String}
    (hmark : mark.Raises (num, message)) (hbetween : ∀ line ∈ between, ∀ here, ¬ line.Enters here)
    (hafter : ∀ line ∈ after, ∀ r, ¬ line.Raises r) :
    resolveExitCode (before ++ .location hash offset :: (between ++ mark :: after)) table =
      some ⟨num, if message.isEmpty then exitCodeDescription num else message,
        (CodeTable.resolve table ⟨hash, offset⟩).bind CellEntry.instruction?⟩ := by
  have he := lastBelow_append (before ++ .location hash offset :: between) [] hmark hafter
  have hl := lastBelow_append before (mark :: after) (LogLine.Enters.location hash offset) hbetween
  refine resolveExitCode_eq_some_iff.2 ⟨before.length + (between.length + 1), before.length, num,
    message, ⟨hash, offset⟩, ?_, hl, tells_iff.2 rfl⟩
  simpa [Nat.add_assoc, Nat.add_comm 1] using he

/-- **The exit code that the lines of a log tell.** -/
theorem resolve_last_exception (lines : List LogLine) (table : μ) :
    (∀ code, resolveExitCode lines table = some code ↔
      ∃ e l num message here, LastBelow LogLine.Raises lines lines.length e (num, message) ∧
        LastBelow LogLine.Enters lines e l here ∧ code.Tells table num message here) ∧
    (resolveExitCode lines table = none ↔
      ¬ ∃ e l r here, LastBelow LogLine.Raises lines lines.length e r ∧
        LastBelow LogLine.Enters lines e l here) ∧
    ∀ before before' between between' after after' : List LogLine, ∀ hash offset mark r,
      mark.Raises r → (∀ line ∈ between ++ between', ∀ here, ¬ line.Enters here) →
      (∀ line ∈ after ++ after', ∀ r, ¬ line.Raises r) →
      resolveExitCode (before ++ .location hash offset :: (between ++ mark :: after)) table =
        resolveExitCode (before' ++ .location hash offset :: (between' ++ mark :: after'))
          table := by
  refine ⟨fun code => resolveExitCode_eq_some_iff, ?_, ?_⟩
  · rw [Option.eq_none_iff_forall_ne_some]
    constructor
    · rintro hnone ⟨e, l, ⟨num, message⟩, here, he, hl⟩
      exact hnone _ (resolveExitCode_eq_some_iff.2
        ⟨e, l, num, message, here, he, hl, tells_iff.2 rfl⟩)
    · intro hnone code hcode
      obtain ⟨e, l, num, message, here, he, hl, -⟩ := resolveExitCode_eq_some_iff.1 hcode
      exact hnone ⟨e, l, (num, message), here, he, hl⟩
  · intro before before' between between' after after' hash offset mark r hmark hbetween hafter
    rw [resolveExitCode_split hmark (fun line h => hbetween line (List.mem_append_left _ h))
        fun line h => hafter line (List.mem_append_left _ h),
      resolveExitCode_split hmark (fun line h => hbetween line (List.mem_append_right _ h))
        fun line h => hafter line (List.mem_append_right _ h)]

end Tables

/-- The last exception counts, and an index outside its cell gives no instruction. -/
example : resolveExitCode
    [.location "AB" 7, .exception 5 "", .location "CD" 0, .exception 9 "", .location "AB" 7]
    (CellMap.empty.insert ⟨"cd", 0⟩ ⟨[.atLine "THROW" 4], 1⟩) =
      some ⟨9, "Cell underflow", none⟩ := by
  cbv

end TvmDebug
