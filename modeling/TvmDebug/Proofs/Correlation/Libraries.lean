import TvmDebug.Proofs.Correlation.Groups
/-! # Library lines in a correlation

Only a section without instructions is asked whether it lies in a library. Such a section of a
library links nothing, but one with printed instructions is linked as any other
(`build_library_lines`). -/
set_option autoImplicit false

namespace TvmDebug

namespace Correlation

/-- The source lines of groups are those that the listing by source line has. -/
theorem GroupedByPaths.mem_group_iff {c : Correlation} {palette : List String}
    (h : c.GroupedByPaths palette) (f : UInt32) :
    (∃ group ∈ c.groups, f ∈ group.funcLines) ↔ f ∈ c.graph.funcToAsm.map Prod.fst := by
  constructor
  · rintro ⟨group, hgroup, hf⟩
    obtain ⟨i, hi⟩ := List.mem_iff_getElem?.1 hgroup
    exact h.only_linked i (.func f) ⟨group, hi, hf⟩
  · intro hf
    obtain ⟨i, ⟨group, hi, hmem⟩, -⟩ := h.one_group (.func f) hf
    exact ⟨group, List.mem_of_getElem? hi, hmem⟩

end Correlation

section Contract
variable {mapping : FuncMapping} {instructions : SectionInstructions} {markers : List String}

/-- A section that links its line lies outside of libraries or is printed itself. -/
theorem exists_of_arises {f a : UInt32}
    (h : LineGraph.Arises markers instructions [] mapping.entries f a) :
    ∃ id location, mapping.find? id = some location ∧ location.line = f ∧
      (location.isExcluded markers = false ∨ ∃ a, instructions.PrintsAt id a) := by
  obtain ⟨s, location, hs, hprints, hwhy⟩ := (arises_entries_iff markers f a).1 h
  obtain hline | ⟨w, waiting, -, hw, hline, -, hexcl, -⟩ := hwhy
  · exact ⟨s, location, hs, hline, .inr ⟨a, hprints⟩⟩
  · exact ⟨w, waiting, hw, hline, .inl hexcl⟩

/-- **Library lines.** -/
theorem build_library_lines (h : instructions.Numbered) (mapping : FuncMapping)
    (settings : CorrelationSettings) :
    ∃ c, Correlation.build mapping instructions settings = .ok c ∧
      (∀ f, (∃ group ∈ c.groups, f ∈ group.funcLines) ↔ f ∈ c.graph.funcToAsm.map Prod.fst) ∧
      (∀ f ∈ c.graph.funcToAsm.map Prod.fst, ∃ id location, mapping.find? id = some location ∧
        location.line = f ∧ (location.isExcluded settings.stdlibMarkers = false ∨
          ∃ a, instructions.PrintsAt id a)) ∧
      ∀ id location a, mapping.find? id = some location → instructions.PrintsAt id a →
        location.line ∈ c.graph.funcToAsm.map Prod.fst := by
  obtain ⟨g, hg, hmem⟩ := ofDebugInfo_ok h settings.stdlibMarkers mapping
  have hkeys : ∀ f, f ∈ g.funcToAsm.map Prod.fst ↔
      ∃ a, LineGraph.Arises settings.stdlibMarkers instructions [] mapping.entries f a := by
    intro f
    rw [LineGraph.keys_funcToAsm, LineGraph.mem_funcLines]
    exact exists_congr (hmem f)
  have hgroups := Correlation.groupedByPaths_ofGraph settings.palette g
  refine ⟨Correlation.ofGraph settings.palette g, build_eq hg, hgroups.mem_group_iff, ?_, ?_⟩
  · intro f hf
    obtain ⟨a, harises⟩ := (hkeys f).1 hf
    exact exists_of_arises harises
  · intro id location a hlocation hprints
    have harises := (arises_entries_iff settings.stdlibMarkers location.line a).2
      ⟨id, location, hlocation, hprints, .inl rfl⟩
    exact (hkeys location.line).2 ⟨a, harises⟩

end Contract

/-! ## A library function that is not inlined -/

def libraryMapping : FuncMapping :=
  SortedMap.ofList [(1, .ofLine "@stdlib/common.tolk" 90), (2, .ofLine "main.tolk" 3)]

def librarySections : SectionInstructions :=
  SortedMap.ofList [(1, [.atLine "NOP" 9]), (2, [.atLine "NOP" 19])]

theorem numbered_librarySections : librarySections.Numbered := by
  unfold SectionInstructions.Numbered librarySections
  decide

theorem build_library_lines_printed : librarySections.Numbered ∧
    ∃ c, Correlation.build libraryMapping librarySections {} = .ok c ∧
      ∃ group ∈ c.groups, 90 ∈ group.funcLines := by
  obtain ⟨c, hc, hgroups, -, hprinted⟩ :=
    build_library_lines numbered_librarySections libraryMapping {}
  have hlinked : 90 ∈ c.graph.funcToAsm.map Prod.fst :=
    hprinted 1 (.ofLine "@stdlib/common.tolk" 90) 10 rfl
      ⟨_, rfl, .atLine "NOP" 9, List.mem_cons_self, rfl⟩
  exact ⟨numbered_librarySections, c, hc, (hgroups 90).2 hlinked⟩

/-- The line of the library function is linked and grouped, and no location outside of libraries
is on it. -/
theorem library_line_linked : librarySections.Numbered ∧
    ∃ c, Correlation.build libraryMapping librarySections {} = .ok c ∧
      c.graph.funcToAsm = [(3, [20]), (90, [10])] ∧
      c.groups.map (·.funcLines) = [[3], [90]] ∧
      ¬ ∃ id location, libraryMapping.find? id = some location ∧ location.line = 90 ∧
        location.isExcluded stdlibMarkers = false := by
  refine ⟨numbered_librarySections, _, rfl, rfl, rfl, ?_⟩
  rintro ⟨id, location, hfind, hline, hexcl⟩
  have hmem := (libraryMapping.find?_eq_some_iff id location).1 hfind
  have hall : ∀ e ∈ libraryMapping.entries,
      e.2.line = 90 → e.2.isExcluded stdlibMarkers = true := by
    decide
  have htrue : location.isExcluded stdlibMarkers = true := hall (id, location) hmem hline
  rw [hexcl] at htrue
  cases htrue

end TvmDebug
