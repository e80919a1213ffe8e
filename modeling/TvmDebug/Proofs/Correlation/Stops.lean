import TvmDebug.Proofs.Correlation.Groups
import TvmDebug.Proofs.Stepper.Condense
/-! # Stops lie in the highlight groups

A section links its source line to every line it is printed at (`links_of_printsAt`), and linked
lines share exactly one group (`GroupedByPaths.existsUnique_group`). The step of a stop executes a
line of the section that the stop's source line comes from, so that a stop and its step are shown in
one color (`stops_highlighted`). -/
set_option autoImplicit false

namespace TvmDebug

/-! ## Linked lines share a group -/

namespace Correlation

variable {c : Correlation} {palette : List String} {f a : UInt32} {i : Nat}

theorem GroupedByPaths.eq_of_inGroup (h : c.GroupedByPaths palette) {n : Node} {j : Nat}
    (hi : c.InGroup i n) (hj : c.InGroup j n) : i = j := by
  obtain ⟨k, -, hunique⟩ := h.one_group n (h.only_linked i n hi)
  rw [hunique i hi, hunique j hj]

theorem GroupedByPaths.exists_inGroup_both (h : c.GroupedByPaths palette)
    (hlink : c.graph.Links f a) : ∃ i, c.InGroup i (.func f) ∧ c.InGroup i (.asm a) := by
  have hpath : Relation.ReflTransGen c.graph.Adjacent (.func f) (.asm a) :=
    Relation.ReflTransGen.single hlink
  have hlinked := LineGraph.linked_of_mem (LineGraph.links_iff.1 hlink)
  exact (h.same_group_iff _ _ hlinked.1).2 hpath

theorem GroupedByPaths.existsUnique_group (h : c.GroupedByPaths palette)
    (hlink : c.graph.Links f a) :
    ∃! i : Nat, ∃ group, c.groups[i]? = some group ∧ f ∈ group.funcLines ∧ a ∈ group.asmLines := by
  obtain ⟨i, hf, ha⟩ := h.exists_inGroup_both hlink
  obtain ⟨group, hgroup, hfunc⟩ := hf
  obtain ⟨group', hgroup', hasm⟩ := ha
  have hsame : group = group' := Option.some.inj (hgroup.symm.trans hgroup')
  refine ⟨i, ⟨group, hgroup, hfunc, hsame ▸ hasm⟩, ?_⟩
  rintro j ⟨other, hother, hj, -⟩
  have hin : c.InGroup j (.func f) := ⟨other, hother, hj⟩
  exact h.eq_of_inGroup hin ⟨group, hgroup, hfunc⟩

theorem mem_funcHighlights {x : HighlightGroup} (hx : x ∈ c.funcHighlights) (hf : f ∈ x.lines) :
    ∃ i group, c.groups[i]? = some group ∧ c.InGroup i (.func f) ∧ x.color = group.color ∧
      x.className = group.className := by
  obtain ⟨group, hgroup, rfl⟩ := List.mem_map.1 hx
  obtain ⟨i, hi⟩ := List.mem_iff_getElem?.1 hgroup
  exact ⟨i, group, hi, ⟨group, hi, hf⟩, rfl, rfl⟩

theorem mem_asmHighlights {x : HighlightGroup} (hx : x ∈ c.asmHighlights) (ha : a ∈ x.lines) :
    ∃ i group, c.groups[i]? = some group ∧ c.InGroup i (.asm a) ∧ x.color = group.color ∧
      x.className = group.className := by
  obtain ⟨group, hgroup, rfl⟩ := List.mem_map.1 hx
  obtain ⟨i, hi⟩ := List.mem_iff_getElem?.1 hgroup
  exact ⟨i, group, hi, ⟨group, hi, ha⟩, rfl, rfl⟩

/-- Linked lines are highlighted alike. -/
theorem GroupedByPaths.same_highlight (h : c.GroupedByPaths palette)
    (hlink : c.graph.Links f a) {x y : HighlightGroup} (hx : x ∈ c.funcHighlights)
    (hy : y ∈ c.asmHighlights) (hf : f ∈ x.lines) (ha : a ∈ y.lines) :
    x.color = y.color ∧ x.className = y.className := by
  obtain ⟨k, hkf, hka⟩ := h.exists_inGroup_both hlink
  obtain ⟨i, group, hgroup, hi, hcolor, hclass⟩ := mem_funcHighlights hx hf
  obtain ⟨j, group', hgroup', hj, hcolor', hclass'⟩ := mem_asmHighlights hy ha
  have hij : i = j := (h.eq_of_inGroup hi hkf).trans (h.eq_of_inGroup hka hj)
  have hsame : group = group' := Option.some.inj (hgroup.symm.trans (hij ▸ hgroup'))
  rw [hcolor, hcolor', hclass, hclass', hsame]
  exact ⟨rfl, rfl⟩

end Correlation

/-! ## Stops and their steps -/

section Stops
variable {trace : Trace} {mapping : FuncMapping} {instructions : SectionInstructions}

theorem links_of_printsAt (h : instructions.Numbered) {markers : List String} {g : LineGraph}
    (hg : LineGraph.ofDebugInfo markers mapping instructions = .ok g) {id : SectionId}
    {location : SourceLocation} {a : UInt32} (hlocation : mapping.find? id = some location)
    (hprints : instructions.PrintsAt id a) : g.Links location.line a := by
  obtain ⟨g', hg', hmem⟩ := ofDebugInfo_ok h markers mapping
  have hsame : g' = g := Except.ok.inj (hg'.symm.trans hg)
  subst hsame
  have harises := (arises_entries_iff markers location.line a).2
    ⟨id, location, hlocation, hprints, .inl rfl⟩
  exact LineGraph.links_iff.2 ((hmem location.line a).2 harises)

/-- **Stops are highlighted with their steps.** -/
theorem stops_highlighted (htrace : trace.Numbered) (hinstr : instructions.Numbered)
    (mapping : FuncMapping) (file : String) (settings : CorrelationSettings) :
    ∃ stops c, condense trace mapping instructions file = .ok stops ∧
      Correlation.build mapping instructions settings = .ok c ∧
      ∀ stop ∈ stops, ∃ step a, trace.steps[stop.stepIndex]? = some step ∧
        step.asmLine = .ok (some a) ∧ c.graph.Links stop.line a ∧
        (∃! i : Nat, ∃ group, c.groups[i]? = some group ∧ stop.line ∈ group.funcLines ∧
          a ∈ group.asmLines) ∧
        ∀ x ∈ c.funcHighlights, ∀ y ∈ c.asmHighlights, stop.line ∈ x.lines → a ∈ y.lines →
          x.color = y.color ∧ x.className = y.className := by
  obtain ⟨stops, hstops⟩ := condense_ok htrace hinstr mapping file
  obtain ⟨g, hg, -⟩ := ofDebugInfo_ok hinstr settings.stdlibMarkers mapping
  have hgroups := Correlation.groupedByPaths_ofGraph settings.palette g
  refine ⟨stops, Correlation.ofGraph settings.palette g, hstops, build_eq hg, fun stop hstop => ?_⟩
  have hrun := (condense_collapsed htrace hinstr hstops).runs stop hstop
  obtain ⟨step, a, id, location, hstep, ha, howns, hlocation, -, hline⟩ := hrun
  have hlink : g.Links stop.line a := hline ▸ links_of_printsAt hinstr hg hlocation howns.1
  have hasm : step.asmLine = .ok (some a) := by
    have hnum := htrace step (List.mem_of_getElem? hstep)
    rw [Step.asmLine, oneBased?_eq hnum, ha]
  exact ⟨step, a, hstep, hasm, hlink, hgroups.existsUnique_group hlink,
    fun x hx y hy hf hy' => hgroups.same_highlight hlink hx hy hf hy'⟩

end Stops

/-! ## A line shared by two sections -/

/-- Both sections are printed at line 10, which belongs to the first of them. -/
def sharedSections : SectionInstructions :=
  SortedMap.ofList [(1, [.atLine "PUSHINT" 9]), (2, [.atLine "PUSHINT" 9, .atLine "ADD" 19])]

def sharedMapping : FuncMapping :=
  SortedMap.ofList [(1, .ofLine "main.tolk" 4), (2, .ofLine "main.tolk" 7)]

def sharedTrace : Trace where
  steps := [(Step.of "PUSHINT" 18).withLine 9, (Step.of "ADD" 18).withLine 19]

theorem stops_highlighted_shared : sharedTrace.Numbered ∧ sharedSections.Numbered ∧
    ∃ c, condense sharedTrace sharedMapping sharedSections "main.tolk" =
        .ok [⟨4, 0⟩, ⟨7, 1⟩] ∧
      Correlation.build sharedMapping sharedSections {} = .ok c ∧ c.graph.Links 7 20 := by
  have htrace : sharedTrace.Numbered := by
    unfold Trace.Numbered
    decide
  have hinstr : sharedSections.Numbered := by
    unfold SectionInstructions.Numbered
    decide
  obtain ⟨stops, c, hstops, hc, hall⟩ :=
    stops_highlighted htrace hinstr sharedMapping "main.tolk" {}
  have hstops' : condense sharedTrace sharedMapping sharedSections "main.tolk" =
      .ok [⟨4, 0⟩, ⟨7, 1⟩] := rfl
  obtain rfl := Except.ok.inj (hstops.symm.trans hstops')
  obtain ⟨step, a, hstep, ha, hlink, -⟩ := hall ⟨7, 1⟩ (by decide)
  have hstep' : sharedTrace.steps[1]? = some ((Step.of "ADD" 18).withLine 19) := rfl
  obtain rfl := Option.some.inj (hstep.symm.trans hstep')
  have hasm : ((Step.of "ADD" 18).withLine 19).asmLine = .ok (some 20) := rfl
  obtain rfl := Option.some.inj (Except.ok.inj (ha.symm.trans hasm))
  exact ⟨htrace, hinstr, c, hstops, hc, hlink⟩

end TvmDebug
