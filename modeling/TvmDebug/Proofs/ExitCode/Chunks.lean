import TvmDebug.Proofs.ExitCode
import TvmDebug.Proofs.Log.Layout
/-! # The exit code of a log in two chunks

`LastOf` says which line of a chunk is the last one of its kind. A search from the end goes through
the second chunk first (`findRest?_append`), so that the last exception of the second chunk decides
if there is one (`resolveExitCode_append_of_lastOf`), and its location is looked for in the second
chunk before the first.

Only the hashes of the lines that name locations may differ in an edited log, and only in case,
which a cell map does not see (`resolveExitCode_upper`). -/
set_option autoImplicit false

namespace TvmDebug

/-! ## The last of its kind -/

section Search
variable {α β : Type}

/-- The last element that tells anything tells `y`; the elements `before` stand before it. -/
def LastOf (tells : α → β → Prop) (xs before : List α) (y : β) : Prop :=
  ∃ x after, xs = before ++ x :: after ∧ tells x y ∧ ∀ z ∈ after, ∀ w, ¬ tells z w

variable {tells : α → β → Prop} {f : α → Option β} {xs before : List α} {y : β}

theorem findRest?_append (f : α → Option β) (xs ys : List α) :
    findRest? f (xs ++ ys) =
      ((findRest? f xs).map fun found => (found.1, found.2 ++ ys)).or (findRest? f ys) := by
  induction xs with
  | nil => rfl
  | cons x xs ih =>
    rw [List.cons_append, findRest?, findRest?]
    split
    · rfl
    · exact ih

theorem findRest?_map {γ : Type} (f : β → Option γ) (g : α → β) (xs : List α) :
    findRest? f (xs.map g) =
      (findRest? (fun x => f (g x)) xs).map fun found => (found.1, found.2.map g) := by
  induction xs with
  | nil => rfl
  | cons x xs ih =>
    rw [List.map_cons, findRest?, findRest?]
    split
    · rfl
    · exact ih

theorem findRest?_reverse_of_silent (hf : ∀ x y, f x = some y ↔ tells x y)
    (h : ∀ x ∈ xs, ∀ y, ¬ tells x y) : findRest? f xs.reverse = none := by
  induction xs with
  | nil => rfl
  | cons x xs ih =>
    obtain ⟨hx, hxs⟩ := List.forall_mem_cons.1 h
    have hnone : f x = none := Option.eq_none_iff_forall_ne_some.2 fun y hy => hx y ((hf x y).1 hy)
    rw [List.reverse_cons, findRest?_append, ih hxs, findRest?, hnone]
    rfl

theorem LastOf.findRest?_reverse (hf : ∀ x y, f x = some y ↔ tells x y)
    (h : LastOf tells xs before y) : findRest? f xs.reverse = some (y, before.reverse) := by
  obtain ⟨x, after, rfl, hx, hafter⟩ := h
  have hsplit : (before ++ x :: after).reverse = after.reverse ++ x :: before.reverse := by
    simp
  rw [hsplit, findRest?_append, findRest?_reverse_of_silent hf hafter, findRest?, (hf x y).2 hx]
  rfl

theorem LastOf.findSome?_reverse (hf : ∀ x y, f x = some y ↔ tells x y)
    (h : LastOf tells xs before y) : xs.reverse.findSome? f = some y := by
  rw [findSome?_eq_map_findRest?, h.findRest?_reverse hf]
  rfl

theorem findSome?_reverse_of_silent (hf : ∀ x y, f x = some y ↔ tells x y)
    (h : ∀ x ∈ xs, ∀ y, ¬ tells x y) : xs.reverse.findSome? f = none := by
  rw [findSome?_eq_map_findRest?, findRest?_reverse_of_silent hf h]
  rfl

end Search

/-! ## Two chunks of lines -/

section Tables
variable {μ : Type} [CodeTable μ]

/-- The exit code of an exception that was raised at a code location. -/
def ExitCode.raisedAt (table : μ) (num : Int32) (message : String) (here : CodeLocation) :
    ExitCode :=
  ⟨num, if message.isEmpty then exitCodeDescription num else message,
    (CodeTable.resolve table here).bind CellEntry.instruction?⟩

/-- The last code location that the lines name. -/
def lastLocation? (lines : List LogLine) : Option CodeLocation :=
  lines.reverse.findSome? LogLine.codeLocation?

variable {xs ys before : List LogLine} {table : μ} {num : Int32} {message : String}

theorem resolveExitCode_eq (lines : List LogLine) (table : μ) :
    resolveExitCode lines table =
      (findRest? LogLine.raised? lines.reverse).bind fun found =>
        (found.2.findSome? LogLine.codeLocation?).map
          (ExitCode.raisedAt table found.1.1 found.1.2) := by
  simp only [resolveExitCode, Option.bind_eq_bind, Option.map_eq_bind]
  rfl

/-- Lines that tell of no exception count for nothing at the end of a log. -/
theorem resolveExitCode_append_of_silent (h : ∀ line ∈ ys, ∀ r, ¬ line.Raises r) (xs : List LogLine)
    (table : μ) : resolveExitCode (xs ++ ys) table = resolveExitCode xs table := by
  have hnone := findRest?_reverse_of_silent LogLine.raised?_eq_some_iff h
  rw [resolveExitCode_eq, List.reverse_append, findRest?_append, hnone, Option.map_none,
    Option.none_or, ← resolveExitCode_eq]

/-- The last exception decides, and its location is the last one before it in either chunk. -/
theorem resolveExitCode_append_of_lastOf (h : LastOf LogLine.Raises ys before (num, message))
    (xs : List LogLine) (table : μ) :
    resolveExitCode (xs ++ ys) table =
      ((lastLocation? before).or (lastLocation? xs)).map (.raisedAt table num message) := by
  have hfind := h.findRest?_reverse LogLine.raised?_eq_some_iff
  rw [resolveExitCode_eq, List.reverse_append, findRest?_append, hfind, Option.map_some,
    Option.some_or, Option.bind_some, List.findSome?_append]
  rfl

theorem lastLocation?_of_silent (h : ∀ line ∈ xs, ∀ here, ¬ line.Enters here) :
    lastLocation? xs = none :=
  findSome?_reverse_of_silent LogLine.codeLocation?_eq_some_iff h

theorem isSome_lastLocation? (h : ∃ line ∈ xs, ∃ here, line.Enters here) :
    (lastLocation? xs).isSome := by
  obtain ⟨line, hline, here, hhere⟩ := h
  refine List.findSome?_isSome_iff.2 ⟨line, List.mem_reverse.2 hline, ?_⟩
  rw [(LogLine.codeLocation?_eq_some_iff line here).2 hhere]
  rfl

/-- An exception after a location of its own chunk is not about the chunk before. -/
theorem resolveExitCode_append_of_own (h : LastOf LogLine.Raises ys before (num, message))
    (hown : ∃ line ∈ before, ∃ here, line.Enters here) (xs : List LogLine) (table : μ) :
    resolveExitCode (xs ++ ys) table = resolveExitCode ys table := by
  obtain ⟨here, hhere⟩ := Option.isSome_iff_exists.1 (isSome_lastLocation? hown)
  have halone := resolveExitCode_append_of_lastOf h [] table
  rw [List.nil_append] at halone
  rw [resolveExitCode_append_of_lastOf h xs table, halone, hhere]
  rfl

/-- Any other exception was raised at the last location of the chunk before. -/
theorem resolveExitCode_append_of_other (h : LastOf LogLine.Raises ys before (num, message))
    (hother : ∀ line ∈ before, ∀ here, ¬ line.Enters here) (xs : List LogLine) (table : μ) :
    resolveExitCode (xs ++ ys) table =
      (lastLocation? xs).map (.raisedAt table num message) := by
  rw [resolveExitCode_append_of_lastOf h xs table, lastLocation?_of_silent hother, Option.none_or]

end Tables

/-! ## Hashes in upper case -/

namespace LogLine

theorem raised?_upper (line : LogLine) : line.upper.raised? = line.raised? := by
  cases line <;> rfl

theorem codeLocation?_upper (line : LogLine) :
    line.upper.codeLocation? = line.codeLocation?.map CodeLocation.upper := by
  cases line <;> rfl

end LogLine

theorem raisedAt_upper (m : CellMap) (num : Int32) (message : String) (here : CodeLocation) :
    ExitCode.raisedAt m num message here.upper = .raisedAt m num message here := by
  have hresolve : CodeTable.resolve m here.upper = CodeTable.resolve m here := by
    change m.cells.find? here.upper.upper = m.cells.find? here.upper
    rw [CodeLocation.upper_upper]
  rw [ExitCode.raisedAt, hresolve, ExitCode.raisedAt]

/-- A cell map does not see the case of hashes. -/
theorem resolveExitCode_upper (lines : List LogLine) (m : CellMap) :
    resolveExitCode (lines.map LogLine.upper) m = resolveExitCode lines m := by
  rw [resolveExitCode_eq, resolveExitCode_eq, ← List.map_reverse, findRest?_map]
  simp only [LogLine.raised?_upper]
  cases findRest? LogLine.raised? lines.reverse with
  | none => rfl
  | some found =>
    have hlocation : (found.2.map LogLine.upper).findSome? LogLine.codeLocation? =
        (found.2.findSome? LogLine.codeLocation?).map CodeLocation.upper := by
      rw [List.findSome?_map, List.map_findSome?]
      simp only [Function.comp_def, LogLine.codeLocation?_upper]
    simp only [Option.map_some, Option.bind_some, hlocation, Option.map_map, Function.comp_def,
      raisedAt_upper]

namespace CellMap

theorem insert_same {l l' : CodeLocation} (h : l.Same l') (m : CellMap) (e : CellEntry) :
    m.insert l e = m.insert l' e := by
  refine eq_of_cells_eq ?_
  rw [insert, insert]
  dsimp only
  rw [CodeLocation.upper_eq_upper_iff.2 h]

theorem ofEntries_same {es es' : List (CodeLocation × CellEntry)}
    (h : List.Forall₂ (fun w w' => w.1.Same w'.1 ∧ w.2 = w'.2) es es') :
    CellMap.ofEntries es = CellMap.ofEntries es' := by
  unfold CellMap.ofEntries
  generalize empty = m
  induction h generalizing m with
  | nil => rfl
  | cons hw _ ih =>
    rw [List.foldl_cons, List.foldl_cons, hw.2, insert_same hw.1]
    exact ih _

end CellMap

/-! ## Two chunks of a log -/

theorem findExitCode_edits {log log' : String}
    (h : Relation.EqvGen LogLine.Edit log.toList log'.toList) (m : CellMap) :
    findExitCode log m = findExitCode log' m := by
  have hupper : ∀ log : String, (LogLine.ofLog log).map LogLine.upper =
      (LogLine.trimmedLines log.toList).map fun t => (LogLine.ofLine t).upper := by
    intro log
    rw [LogLine.ofLog, List.map_map]
    rfl
  rw [findExitCode, findExitCode, ← resolveExitCode_upper, hupper, LogLine.upper_eq_of_edits h,
    ← hupper, resolveExitCode_upper]

theorem LastOf.tells_raisedAt {xs before : List LogLine} {here : CodeLocation}
    (h : LastOf LogLine.Enters xs before here) (m : CellMap) (num : Int32) (message : String) :
    ∃ code, (lastLocation? xs).map (ExitCode.raisedAt m num message) = some code ∧
      code.Tells m num message here := by
  have hlast : lastLocation? xs = some here :=
    h.findSome?_reverse LogLine.codeLocation?_eq_some_iff
  exact ⟨ExitCode.raisedAt m num message here, congrArg _ hlast, tells_iff.2 rfl⟩

/-- **The exit code of a log in two chunks.** An exception of the second chunk decides if there is
one; only the location it was raised at may be in the first chunk. Neither the layout of a log nor
the case of hashes counts. -/
theorem findExitCode_chunks (a b : String) (m : CellMap) :
    ((∀ line ∈ LogLine.ofLog b, ∀ r, ¬ line.Raises r) →
      findExitCode (a ++ "\n" ++ b) m = findExitCode a m) ∧
    (∀ before num message, LastOf LogLine.Raises (LogLine.ofLog b) before (num, message) →
      ((∃ line ∈ before, ∃ here, line.Enters here) →
        findExitCode (a ++ "\n" ++ b) m = findExitCode b m) ∧
      ((∀ line ∈ before, ∀ here, ¬ line.Enters here) →
        (∀ between here, LastOf LogLine.Enters (LogLine.ofLog a) between here →
          ∃ code, findExitCode (a ++ "\n" ++ b) m = some code ∧
            code.Tells m num message here) ∧
        ((∀ line ∈ LogLine.ofLog a, ∀ here, ¬ line.Enters here) →
          findExitCode (a ++ "\n" ++ b) m = none))) ∧
    ∀ log log' : String, Relation.EqvGen LogLine.Edit log.toList log'.toList →
      ∀ es es', List.Forall₂ (fun w w' => w.1.Same w'.1 ∧ w.2 = w'.2) es es' →
        findExitCode log (CellMap.ofEntries es) = findExitCode log' (CellMap.ofEntries es') := by
  have hchunks : findExitCode (a ++ "\n" ++ b) m =
      resolveExitCode (LogLine.ofLog a ++ LogLine.ofLog b) m := by
    rw [findExitCode, LogLine.ofLog_append]
  rw [hchunks]
  refine ⟨fun hsilent => resolveExitCode_append_of_silent hsilent _ m,
    fun before num message hlast => ⟨fun hown => resolveExitCode_append_of_own hlast hown _ m,
      fun hother => ?_⟩, fun log log' hedits es es' hes => ?_⟩
  · rw [resolveExitCode_append_of_other hlast hother]
    refine ⟨fun between here hhere => hhere.tells_raisedAt m num message, fun hsilent => ?_⟩
    rw [lastLocation?_of_silent hsilent, Option.map_none]
  · rw [CellMap.ofEntries_same hes, findExitCode_edits hedits]

/-- Two entries of a table, for one location by names that differ in case. -/
def lowerCaseEntry : CodeLocation × CellEntry := (⟨"ab", 7⟩, ⟨[.atLine "THROW" 4], 0⟩)

def upperCaseEntry : CodeLocation × CellEntry := (⟨"AB", 7⟩, ⟨[.atLine "THROW" 4], 0⟩)

/-- A tab before a line, a letter of its hash in upper case and a carriage return after it. -/
theorem edits_tab_letter_return (b : String) : Relation.EqvGen LogLine.Edit
    ("code cell hash: ab offset: 7" ++ "\n" ++ b).toList
    ("\t" ++ "code cell hash: aB offset: 7" ++ "\r\n" ++ b).toList := by
  have hrecased : LogLine.Recases "code cell hash: ab offset: 7".toList
      "code cell hash: aB offset: 7".toList :=
    @LogLine.Recases.hash [] [' '] ['a', 'b'] ['a', 'B'] " offset: 7".toList 7
      (List.forall_mem_nil _) (List.forall_mem_singleton.2 rfl)
      (.cons (.inl rfl) (.cons (.inr (.inr ⟨by decide, by decide, rfl⟩)) .nil)) (by decide)
  have hletter := LogLine.Edit.recased .first (.before b.toList) (by decide) hrecased
  have htab := LogLine.Edit.leading .first (List.forall_mem_singleton.2 rfl : Text.Blanks ['\t'])
    ("code cell hash: aB offset: 7".toList ++ '\n' :: b.toList)
  have hreturn := LogLine.Edit.returned ("\t" ++ "code cell hash: aB offset: 7").toList b.toList
  simp only [String.toList_append, List.nil_append, List.append_assoc] at hletter htab hreturn ⊢
  exact .trans _ _ _ (.rel _ _ hletter) (.trans _ _ _ (.rel _ _ htab) (.rel _ _ hreturn))

/-- The second chunk tells of nothing, of an exception at a location of its own, and of one at the
location of the first chunk, which ends in a carriage return. -/
theorem findExitCode_chunks_return :
    let m := CellMap.ofEntries [lowerCaseEntry]
    let a := "code cell hash: ab offset: 7\r"
    let b := "code cell hash: cd offset: 0\nhandling exception code 5: low"
    findExitCode (a ++ "\n" ++ "execute NOP") m = findExitCode a m ∧
      findExitCode (a ++ "\n" ++ b) m = findExitCode b m ∧
      (∃ code, findExitCode (a ++ "\n" ++ "handling exception code 9:") m = some code ∧
        code.Tells m 9 "" ⟨"ab", 7⟩) ∧
      findExitCode ("" ++ "\n" ++ "handling exception code 9:") m = none ∧
      findExitCode ("code cell hash: ab offset: 7" ++ "\n" ++ "handling exception code 9:")
          (CellMap.ofEntries [lowerCaseEntry]) =
        findExitCode ("\t" ++ "code cell hash: aB offset: 7" ++ "\r\n" ++
          "handling exception code 9:") (CellMap.ofEntries [upperCaseEntry]) := by
  intro m a b
  have hsilent : LogLine.ofLog "execute NOP" = [.unknown "execute NOP"] := by decide
  have hown : LogLine.ofLog b = [.location "cd" 0, .exception 5 "low"] := by decide
  have hother : LogLine.ofLog "handling exception code 9:" = [.exception 9 ""] := by decide
  have hfirst : LogLine.ofLog a = [.location "ab" 7] := by decide
  have hlast : LastOf LogLine.Raises (LogLine.ofLog "handling exception code 9:") [] (9, "") :=
    ⟨.exception 9 "", [], hother, .exception 9 "", nofun⟩
  have hsame : CodeLocation.Same ⟨"ab", 7⟩ ⟨"AB", 7⟩ :=
    CodeLocation.upper_eq_upper_iff.1 <|
      (CodeLocation.upper_eq (t := "AB") (by decide)).trans
        (CodeLocation.upper_eq (t := "AB") (by decide)).symm
  refine ⟨(findExitCode_chunks a "execute NOP" m).1 ?_, ?_, ?_, ?_, ?_⟩
  · intro line hline r hraises
    rw [hsilent, List.mem_singleton] at hline
    subst hline
    cases hraises with
    | outOfGas _ hpart => exact absurd (Text.occursIn_iff.2 hpart) (by decide)
  · refine ((findExitCode_chunks a b m).2.1 [.location "cd" 0] 5 "low" ?_).1 ?_
    · exact ⟨.exception 5 "low", [], hown, .exception 5 "low", nofun⟩
    · exact ⟨_, List.mem_cons_self, _, .location "cd" 0⟩
  · refine (((findExitCode_chunks a _ m).2.1 [] 9 "" hlast).2 nofun).1 [] ⟨"ab", 7⟩ ?_
    exact ⟨.location "ab" 7, [], hfirst, .location "ab" 7, nofun⟩
  · exact (((findExitCode_chunks "" _ m).2.1 [] 9 "" hlast).2 nofun).2 nofun
  · exact (findExitCode_chunks a b m).2.2 _ _ (edits_tab_letter_return _) [lowerCaseEntry]
      [upperCaseEntry] (.cons ⟨hsame, rfl⟩ .nil)

end TvmDebug
