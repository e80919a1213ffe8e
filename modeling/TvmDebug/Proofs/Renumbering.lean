import Mathlib.Data.List.Forall2
import TvmDebug.Proofs.Correlation.LinkSet
import TvmDebug.Proofs.Stepper.Condense
/-! # What debug information means

The numbers of sections only order them and tie their locations to their instructions, and of a
location and its instructions nothing counts but the file and the line, and which lines they are
printed at. Debug information of the `SameMeaning` therefore gives the same correlation and the same
stops (`build_renumbered`).

The two contracts are gone through side by side. Corresponding sections wait or are printed alike
(`Alike`), so that the sections still to come make the same links (`LineGraph.arises_iff_of_alike`),
and the first section that prints a line is the corresponding one (`find?_renumbered`). -/
set_option autoImplicit false

namespace TvmDebug

/-! ## Debug information of the same meaning -/

/-- Locations on one line of one file. -/
structure SourceLocation.SamePlace (l l' : SourceLocation) : Prop where
  file : l'.file = l.file
  line : l'.line = l.line

/-- Instructions at the same lines, in whatever order and number and under whatever names. -/
def Instruction.SameLines (is is' : List Instruction) : Prop :=
  ∀ line, line ∈ is'.map (·.line) ↔ line ∈ is.map (·.line)

/-- A map that lists under new numbers values like those of another. -/
def Renumbered {α : Type} (number : SectionId → SectionId) (like : α → α → Prop)
    (m m' : SortedMap SectionId α) : Prop :=
  List.Forall₂ (fun e e' => e'.1 = number e.1 ∧ like e.2 e'.2) m.entries m'.entries

/-- The numbers that either map knows. -/
def sectionIds (mapping : FuncMapping) (instructions : SectionInstructions) : List SectionId :=
  mapping.entries.map Prod.fst ++ instructions.entries.map Prod.fst

structure SameMeaning (number : SectionId → SectionId) (mapping mapping' : FuncMapping)
    (instructions instructions' : SectionInstructions) : Prop where
  increasing : ∀ x ∈ sectionIds mapping instructions, ∀ y ∈ sectionIds mapping instructions,
    x < y → number x < number y
  mapping : Renumbered number SourceLocation.SamePlace mapping mapping'
  instructions : Renumbered number Instruction.SameLines instructions instructions'

namespace SourceLocation.SamePlace

variable {l l' : SourceLocation}

theorem isExcluded_eq (h : l.SamePlace l') (markers : List String) :
    l'.isExcluded markers = l.isExcluded markers := by
  rw [isExcluded, isExcluded, h.file]

theorem isInFile_eq (h : l.SamePlace l') (file : String) : l'.isInFile file = l.isInFile file := by
  rw [isInFile, isInFile, h.file]

theorem bind_eq {o o' : Option SourceLocation} (h : Option.Rel SamePlace o o') (file : String) :
    (o'.bind fun l => if l.isInFile file then some l.line else none) =
      o.bind fun l => if l.isInFile file then some l.line else none := by
  cases h with
  | none => rfl
  | some hplace => rw [Option.bind_some, Option.bind_some, hplace.isInFile_eq, hplace.line]

end SourceLocation.SamePlace

namespace Instruction.SameLines

variable {is is' : List Instruction}

theorem eq_nil_iff (h : SameLines is is') : is' = [] ↔ is = [] := by
  have hlines : is'.map (·.line) = [] ↔ is.map (·.line) = [] := by
    rw [List.eq_nil_iff_forall_not_mem, List.eq_nil_iff_forall_not_mem]
    exact forall_congr' fun line => not_congr (h line)
  rwa [List.map_eq_nil_iff, List.map_eq_nil_iff] at hlines

theorem printed (h : SameLines is is') (a : UInt32) :
    (a ∈ is'.filterMap fun i => i.line.map (· + 1)) ↔
      a ∈ is.filterMap fun i => i.line.map (· + 1) := by
  have hprinted : ∀ is : List Instruction, (is.filterMap fun i => i.line.map (· + 1)) =
      (is.map (·.line)).filterMap fun line => line.map (· + 1) := by
    intro is
    rw [List.filterMap_map]
    rfl
  rw [hprinted, hprinted, List.mem_filterMap, List.mem_filterMap]
  exact exists_congr fun line => and_congr_left fun _ => h line

theorem numbered (h : SameLines is is') (his : ∀ i ∈ is, i.line ≠ some lastLine) :
    ∀ i ∈ is', i.line ≠ some lastLine := by
  intro i hi hlast
  have hmem : i.line ∈ is.map (·.line) := (h i.line).1 (List.mem_map_of_mem hi)
  obtain ⟨j, hj, hline⟩ := List.mem_map.1 hmem
  exact his j hj (hline.trans hlast)

theorem getD {o o' : Option (List Instruction)} (h : Option.Rel SameLines o o') :
    SameLines (o.getD []) (o'.getD []) := by
  cases h with
  | none => exact fun _ => Iff.rfl
  | some hlines => exact hlines

end Instruction.SameLines

/-! ## Corresponding entries -/

section Entries
variable {α : Type} {number : SectionId → SectionId} {like : α → α → Prop}
variable {es es' : List (SectionId × α)}

theorem lookup_renumbered (h : List.Forall₂ (fun e e' => e'.1 = number e.1 ∧ like e.2 e'.2) es es')
    {id : SectionId} (hid : ∀ e ∈ es, number e.1 = number id → e.1 = id) :
    Option.Rel like (SortedMap.lookup es id) (SortedMap.lookup es' (number id)) := by
  induction h with
  | nil => exact .none
  | @cons e e' es es' hee _ ih =>
    obtain ⟨k, v⟩ := e
    obtain ⟨k', v'⟩ := e'
    obtain ⟨rfl, hlike⟩ := hee
    by_cases hk : k = id
    · subst hk
      rw [SortedMap.lookup_cons_self, SortedMap.lookup_cons_self]
      exact .some hlike
    · have hk' : number k ≠ number id := fun h => hk (hid (k, v) List.mem_cons_self h)
      rw [SortedMap.lookup_cons_ne hk, SortedMap.lookup_cons_ne hk']
      exact ih fun e he => hid e (List.mem_cons_of_mem _ he)

end Entries

section Sections
variable {number : SectionId → SectionId}
variable {sections sections' : List (SectionId × List Instruction)}

theorem numbered_renumbered
    (h : List.Forall₂ (fun e e' => e'.1 = number e.1 ∧ Instruction.SameLines e.2 e'.2)
      sections sections') (hs : ∀ e ∈ sections, ∀ i ∈ e.2, i.line ≠ some lastLine) :
    ∀ e ∈ sections', ∀ i ∈ e.2, i.line ≠ some lastLine := by
  induction h with
  | nil => exact nofun
  | cons hee _ ih =>
    obtain ⟨hhead, hrest⟩ := List.forall_mem_cons.1 hs
    exact List.forall_mem_cons.2 ⟨hee.2.numbered hhead, ih hrest⟩

/-- The first section that prints a line is the one that corresponds. -/
theorem find?_renumbered
    (h : List.Forall₂ (fun e e' => e'.1 = number e.1 ∧ Instruction.SameLines e.2 e'.2)
      sections sections') (a : UInt32) :
    (sections'.find? fun e => (e.2.filterMap fun i => i.line.map (· + 1)).contains a).map (·.1) =
      (sections.find? fun e => (e.2.filterMap fun i => i.line.map (· + 1)).contains a).map
        fun e => number e.1 := by
  induction h with
  | nil => rfl
  | @cons e e' _ _ hee _ ih =>
    have hcontains : (e'.2.filterMap fun i => i.line.map (· + 1)).contains a =
        (e.2.filterMap fun i => i.line.map (· + 1)).contains a := by
      rw [Bool.eq_iff_iff, List.contains_iff_mem, List.contains_iff_mem]
      exact hee.2.printed a
    rw [List.find?_cons, List.find?_cons, hcontains]
    cases (e.2.filterMap fun i => i.line.map (· + 1)).contains a with
    | true => exact congrArg some hee.1
    | false => exact ih

end Sections

section Contracts
variable {number : SectionId → SectionId} {mapping mapping' : FuncMapping}
variable {instructions instructions' : SectionInstructions}

namespace SameMeaning

theorem number_injective (h : SameMeaning number mapping mapping' instructions instructions')
    {x y : SectionId} (hx : x ∈ sectionIds mapping instructions)
    (hy : y ∈ sectionIds mapping instructions) (hxy : number x = number y) : x = y := by
  have hlt : ¬ x < y := by
    intro hlt
    exact UInt32.ne_of_lt (h.increasing x hx y hy hlt) hxy
  have hgt : ¬ y < x := by
    intro hgt
    exact UInt32.ne_of_lt (h.increasing y hy x hx hgt) hxy.symm
  exact UInt32.le_antisymm (UInt32.not_lt.1 hgt) (UInt32.not_lt.1 hlt)

theorem find?_mapping (h : SameMeaning number mapping mapping' instructions instructions')
    {id : SectionId} (hid : id ∈ sectionIds mapping instructions) :
    Option.Rel SourceLocation.SamePlace (mapping.find? id) (mapping'.find? (number id)) := by
  refine lookup_renumbered h.mapping fun e he hnumber => ?_
  have hmem : e.1 ∈ sectionIds mapping instructions :=
    List.mem_append_left _ (List.mem_map_of_mem he)
  exact h.number_injective hmem hid hnumber

theorem sameLines (h : SameMeaning number mapping mapping' instructions instructions')
    {id : SectionId} (hid : id ∈ sectionIds mapping instructions) :
    Instruction.SameLines ((instructions.find? id).getD [])
      ((instructions'.find? (number id)).getD []) := by
  refine Instruction.SameLines.getD (lookup_renumbered h.instructions fun e he hnumber => ?_)
  have hmem : e.1 ∈ sectionIds mapping instructions :=
    List.mem_append_right _ (List.mem_map_of_mem he)
  exact h.number_injective hmem hid hnumber

theorem numbered (h : SameMeaning number mapping mapping' instructions instructions')
    (hn : instructions.Numbered) : instructions'.Numbered :=
  numbered_renumbered h.instructions hn

end SameMeaning

/-! ## The same links -/

/-- Located sections of two contracts that wait, or are printed, alike. -/
structure Alike (instructions instructions' : SectionInstructions)
    (s s' : SectionId × SourceLocation) : Prop where
  place : s.2.SamePlace s'.2
  lines : Instruction.SameLines ((instructions.find? s.1).getD [])
    ((instructions'.find? s'.1).getD [])

namespace Alike

variable {s s' : SectionId × SourceLocation}

theorem idle_iff (h : Alike instructions instructions' s s') :
    instructions'.Idle s'.1 ↔ instructions.Idle s.1 := h.lines.eq_nil_iff

theorem printsAt_iff (h : Alike instructions instructions' s s') (a : UInt32) :
    instructions'.PrintsAt s'.1 a ↔ instructions.PrintsAt s.1 a := by
  rw [SectionInstructions.printsAt_iff rfl, SectionInstructions.printsAt_iff rfl]
  exact h.lines.printed a

end Alike

theorem LineGraph.arises_iff_of_alike {markers : List String}
    {sections sections' : List (SectionId × SourceLocation)}
    (h : List.Forall₂ (Alike instructions instructions') sections sections')
    (hs : sections.Pairwise fun x y => x.1 < y.1) (hs' : sections'.Pairwise fun x y => x.1 < y.1)
    (waiting : List UInt32) (f a : UInt32) :
    Arises markers instructions' waiting sections' f a ↔
      Arises markers instructions waiting sections f a := by
  induction h generalizing waiting with
  | nil => simp [Arises]
  | @cons s s' rest rest' hss _ ih =>
    obtain ⟨hhead, hrest⟩ := List.pairwise_cons.1 hs
    obtain ⟨hhead', hrest'⟩ := List.pairwise_cons.1 hs'
    by_cases hidle : instructions.Idle s.1
    · have hidle' : instructions'.Idle s'.1 := hss.idle_iff.2 hidle
      rw [arises_cons_idle hidle hhead, arises_cons_idle hidle' hhead',
        hss.place.isExcluded_eq, hss.place.line]
      exact ih hrest hrest' _
    · have hbusy' : ¬ instructions'.Idle s'.1 := fun hidle' => hidle (hss.idle_iff.1 hidle')
      rw [arises_cons_busy hidle hhead, arises_cons_busy hbusy' hhead', hss.printsAt_iff,
        hss.place.line, ih hrest hrest']

namespace SameMeaning

theorem alike_entries (h : SameMeaning number mapping mapping' instructions instructions') :
    List.Forall₂ (Alike instructions instructions') mapping.entries mapping'.entries := by
  have hids : ∀ s ∈ mapping.entries, s.1 ∈ sectionIds mapping instructions := by
    intro s hs
    exact List.mem_append_left _ (List.mem_map_of_mem hs)
  refine ((List.forall₂_and_left _ _).2 ⟨hids, h.mapping⟩).imp ?_
  intro s s' hss
  obtain ⟨hid, hnumber, hplace⟩ := hss
  exact ⟨hplace, hnumber ▸ h.sameLines hid⟩

theorem mem_edges_iff (h : SameMeaning number mapping mapping' instructions instructions')
    (hn : instructions.Numbered) (markers : List String) :
    ∃ g g', LineGraph.ofDebugInfo markers mapping instructions = .ok g ∧
      LineGraph.ofDebugInfo markers mapping' instructions' = .ok g' ∧
      ∀ e, e ∈ g'.edges ↔ e ∈ g.edges := by
  obtain ⟨g, hg, hmem⟩ := ofDebugInfo_ok hn markers mapping
  obtain ⟨g', hg', hmem'⟩ := ofDebugInfo_ok (h.numbered hn) markers mapping'
  refine ⟨g, g', hg, hg', fun e => ?_⟩
  rw [hmem e.func e.asm, hmem' e.func e.asm]
  exact LineGraph.arises_iff_of_alike h.alike_entries (pairwise_sections mapping)
    (pairwise_sections mapping') [] e.func e.asm

/-! ## The same stops -/

/-- The owners of lines are renumbered, so that the lines come from the same places. -/
theorem sourceLine?_eq (h : SameMeaning number mapping mapping' instructions instructions')
    (hn : instructions.Numbered) (file : String) :
    ∃ owners owners', lineOwners instructions = .ok owners ∧
      lineOwners instructions' = .ok owners' ∧
      sourceLine? owners' mapping' file = sourceLine? owners mapping file := by
  obtain ⟨owners, hok, hlookup⟩ := ownersOf_ok hn
  obtain ⟨owners', hok', hlookup'⟩ := ownersOf_ok (h.numbered hn)
  refine ⟨owners, owners', hok, hok', ?_⟩
  funext a
  rw [sourceLine?, sourceLine?, hlookup, hlookup', find?_renumbered h.instructions]
  cases hfind : instructions.entries.find? fun e =>
      (e.2.filterMap fun i => i.line.map (· + 1)).contains a with
  | none => rfl
  | some e =>
    have hid : e.1 ∈ sectionIds mapping instructions :=
      List.mem_append_right _ (List.mem_map_of_mem (List.mem_of_find?_eq_some hfind))
    exact SourceLocation.SamePlace.bind_eq (h.find?_mapping hid) file

theorem condense_eq (h : SameMeaning number mapping mapping' instructions instructions')
    (hn : instructions.Numbered) (trace : Trace) (file : String) :
    condense trace mapping' instructions' file = condense trace mapping instructions file := by
  obtain ⟨owners, owners', hok, hok', hline⟩ := h.sourceLine?_eq hn file
  rw [condense, condense, hok, hok']
  simp only [bind, Except.bind, hline]

end SameMeaning

/-- **Debug information of the same meaning.** -/
theorem build_renumbered (h : SameMeaning number mapping mapping' instructions instructions')
    (hn : instructions.Numbered) (settings : CorrelationSettings) :
    ∃ c c', Correlation.build mapping instructions settings = .ok c ∧
      Correlation.build mapping' instructions' settings = .ok c' ∧
      c'.groups = c.groups ∧ c'.graph.funcToAsm = c.graph.funcToAsm ∧
      c'.graph.asmToFunc = c.graph.asmToFunc ∧
      ∀ (trace : Trace) (file : String),
        condense trace mapping' instructions' file = condense trace mapping instructions file ∧
        (trace.Numbered → ∃ stops, condense trace mapping instructions file = .ok stops) := by
  obtain ⟨g, g', hg, hg', hmem⟩ := h.mem_edges_iff hn settings.stdlibMarkers
  refine ⟨Correlation.ofGraph settings.palette g, Correlation.ofGraph settings.palette g',
    build_eq hg, build_eq hg', Correlation.groups_eq_of_mem_iff hmem settings.palette,
    LineGraph.funcToAsm_eq_of_mem_iff hmem, LineGraph.asmToFunc_eq_of_mem_iff hmem,
    fun trace file => ⟨h.condense_eq hn trace file, fun htrace => ?_⟩⟩
  exact condense_ok htrace hn mapping file

end Contracts

/-! ## The inlined call once more -/

/-- The inlined call under other numbers, with the places of the locations told more exactly. -/
def renumberedMapping : FuncMapping :=
  SortedMap.ofList [(15, ⟨"main.fc", 4, 2, 7⟩), (25, ⟨"@stdlib/tvm-dicts", 90, 8, 1⟩),
    (35, ⟨"main.fc", 5, 4, 12⟩), (45, ⟨"main.fc", 9, 0, 3⟩)]

def renumberedSections : SectionInstructions :=
  SortedMap.ofList [(35, [.atLine "SWAP" 10, .atLine "PUSHINT" 9, .atLine "SWAP" 10]),
    (45, [.atLine "ADD" 30])]

theorem sameMeaning_inlined : SameMeaning (10 * · + 5) inlinedMapping renumberedMapping
    inlinedSections renumberedSections where
  increasing := by
    have hids : sectionIds inlinedMapping inlinedSections = [1, 2, 3, 4, 3, 4] := rfl
    simp [hids]
  mapping := .cons ⟨rfl, rfl, rfl⟩ (.cons ⟨rfl, rfl, rfl⟩ (.cons ⟨rfl, rfl, rfl⟩
    (.cons ⟨rfl, rfl, rfl⟩ .nil)))
  instructions := by
    refine .cons ⟨rfl, fun line => ?_⟩ (.cons ⟨rfl, fun line => ?_⟩ .nil)
    · simp [Instruction.atLine]
      tauto
    · simp [Instruction.atLine]

theorem build_renumbered_inlined :
    SameMeaning (10 * · + 5) inlinedMapping renumberedMapping inlinedSections renumberedSections ∧
      inlinedSections.Numbered ∧
      ∃ c, Correlation.build renumberedMapping renumberedSections {} = .ok c ∧
        c.graph.funcToAsm = [(4, [10, 11]), (5, [10, 11]), (9, [31])] ∧
        c.groups.map (·.funcLines) = [[4, 5], [9]] := by
  obtain ⟨c, c', hc, hc', hgroups, hfunc, -⟩ :=
    build_renumbered sameMeaning_inlined numbered_inlinedSections {}
  have hviews : (Correlation.build inlinedMapping inlinedSections {}).map
      (fun c => (c.graph.funcToAsm, c.groups.map (·.funcLines))) =
        .ok ([(4, [10, 11]), (5, [10, 11]), (9, [31])], [[4, 5], [9]]) := rfl
  rw [hc] at hviews
  obtain ⟨hlinks, hlines⟩ := Prod.mk.inj (Except.ok.inj hviews)
  refine ⟨sameMeaning_inlined, numbered_inlinedSections, c', hc', hfunc.trans hlinks, ?_⟩
  rw [hgroups]
  exact hlines

end TvmDebug
