import Mathlib.Logic.ExistsUnique
import TvmDebug.Proofs.Correlation.Links
import TvmDebug.Proofs.Correlation.Search
/-! # Highlight groups are the connected components of the link graph

A group is a cluster with a color and a class, so that the groups of a correlation split the linked
lines by the paths between them, by ascending first source line (`build_groups`). -/
set_option autoImplicit false

namespace TvmDebug

/-! ## Groups -/

/-- The line lies in the group. -/
def MappingGroup.Has (group : MappingGroup) : Node → Prop
  | .func l => l ∈ group.funcLines
  | .asm l => l ∈ group.asmLines

namespace Correlation

/-- The line lies in the group with number `i`. -/
def InGroup (c : Correlation) (i : Nat) (n : Node) : Prop :=
  ∃ group, c.groups[i]? = some group ∧ group.Has n

/-- The groups of a correlation are the connected components of its graph, by ascending first source
line, with classes and colors in turn. -/
structure GroupedByPaths (c : Correlation) (palette : List String) : Prop where
  one_group : ∀ n, c.graph.Linked n → ∃! i, c.InGroup i n
  only_linked : ∀ i n, c.InGroup i n → c.graph.Linked n
  same_group_iff : ∀ m n, c.graph.Linked m →
    ((∃ i, c.InGroup i m ∧ c.InGroup i n) ↔ Relation.ReflTransGen c.graph.Adjacent m n)
  sides : ∀ group ∈ c.groups, group.funcLines ≠ [] ∧ group.asmLines ≠ [] ∧
    group.funcLines.Pairwise (· < ·) ∧ group.asmLines.Pairwise (· < ·)
  order : c.groups.Pairwise fun group next => ∃ a b, group.funcLines.min? = some a ∧
    next.funcLines.min? = some b ∧ a < b
  className : ∀ i group, c.groups[i]? = some group →
    group.className = "source-map-group-" ++ toString (i % 10)
  color : ∀ i group, c.groups[i]? = some group →
    let colors := if palette = [] then defaultPalette else palette
    colors[i % colors.length]? = some group.color

section OfGraph
variable {palette : List String} {g : LineGraph} {i : Nat}

theorem getElem?_groups {group : MappingGroup} : (ofGraph palette g).groups[i]? = some group ↔
    ∃ c, g.clusters[i]? = some c ∧ MappingGroup.ofCluster palette c i = group := by
  rw [← Option.map_eq_some_iff]
  simp [ofGraph, Function.comp_def]

theorem inGroup_iff {n : Node} :
    (ofGraph palette g).InGroup i n ↔ ∃ c, g.clusters[i]? = some c ∧ c.Has n := by
  have hhas : ∀ c, (MappingGroup.ofCluster palette c i).Has n ↔ c.Has n := by
    intro c
    cases n <;> exact Iff.rfl
  constructor
  · rintro ⟨group, hgroup, hn⟩
    obtain ⟨c, hc, rfl⟩ := getElem?_groups.1 hgroup
    exact ⟨c, hc, (hhas c).1 hn⟩
  · rintro ⟨c, hc, hn⟩
    exact ⟨_, getElem?_groups.2 ⟨c, hc, rfl⟩, (hhas c).2 hn⟩

theorem inGroup_unique {j : Nat} {n : Node} (hi : (ofGraph palette g).InGroup i n)
    (hj : (ofGraph palette g).InGroup j n) : i = j := by
  obtain ⟨c, hc, hcn⟩ := inGroup_iff.1 hi
  obtain ⟨d, hd, hdn⟩ := inGroup_iff.1 hj
  have hcd : c = d := g.clustered_clusters.eq_of_has (List.mem_of_getElem? hc)
    (List.mem_of_getElem? hd) hcn hdn
  obtain ⟨hlt, -⟩ := List.getElem?_eq_some_iff.1 hc
  exact (List.getElem?_inj hlt g.clustered_clusters.nodup).1 (by rw [hc, hd, hcd])

theorem exists_inGroup (palette : List String) {n : Node} (h : g.Linked n) :
    ∃ i, (ofGraph palette g).InGroup i n := by
  obtain ⟨c, hc, hhas⟩ := g.clustered_clusters.cover n h
  obtain ⟨i, hi⟩ := List.mem_iff_getElem?.1 hc
  exact ⟨i, inGroup_iff.2 ⟨c, hi, hhas⟩⟩

theorem min?_eq_head? {ls : List UInt32} (h : ls.Pairwise (· < ·)) : ls.min? = ls.head? := by
  refine List.min?_eq_head? (h.imp fun {a b} hab => ?_)
  exact if_pos (UInt32.le_of_lt hab)

theorem getElem?_colors (palette : List String) (i : Nat) :
    let colors := if palette = [] then defaultPalette else palette
    colors[i % colors.length]? = some (groupColor palette i) := by
  have hpos : 0 < (if palette = [] then defaultPalette else palette).length := by
    split
    · decide
    · next h => exact List.length_pos_iff.2 h
  simp only [groupColor, List.isEmpty_iff, List.getD_eq_getElem?_getD]
  rw [List.getElem?_eq_getElem (Nat.mod_lt i hpos), Option.getD_some]

theorem groupedByPaths_ofGraph (palette : List String) (g : LineGraph) :
    (ofGraph palette g).GroupedByPaths palette where
  one_group := by
    intro n hn
    obtain ⟨i, hi⟩ := exists_inGroup palette hn
    exact ⟨i, hi, fun j hj => inGroup_unique hj hi⟩
  only_linked := by
    intro i n hi
    obtain ⟨c, hc, hcn⟩ := inGroup_iff.1 hi
    exact g.clustered_clusters.linked c (List.mem_of_getElem? hc) n hcn
  same_group_iff := by
    intro m n hm
    rw [show (ofGraph palette g).graph = g from rfl]
    constructor
    · rintro ⟨i, him, hin⟩
      obtain ⟨c, hc, hcm⟩ := inGroup_iff.1 him
      obtain ⟨d, hd, hdn⟩ := inGroup_iff.1 hin
      obtain rfl : c = d := Option.some.inj (hc.symm.trans hd)
      exact (g.clustered_clusters.has_iff c (List.mem_of_getElem? hc) m hcm n).1 hdn
    · intro hmn
      obtain ⟨i, hi⟩ := exists_inGroup palette hm
      obtain ⟨c, hc, hcm⟩ := inGroup_iff.1 hi
      have hcn := (g.clustered_clusters.has_iff c (List.mem_of_getElem? hc) m hcm n).2 hmn
      exact ⟨i, hi, inGroup_iff.2 ⟨c, hc, hcn⟩⟩
  sides := by
    intro group hgroup
    obtain ⟨i, hi⟩ := List.mem_iff_getElem?.1 hgroup
    obtain ⟨c, hc, rfl⟩ := getElem?_groups.1 hi
    have hmem := List.mem_of_getElem? hc
    obtain ⟨hfunc, hasm⟩ := g.clustered_clusters.two_sided c hmem
    obtain ⟨hfs, has⟩ := g.clustered_clusters.ascending c hmem
    exact ⟨hfunc, hasm, hfs, has⟩
  order := by
    have hmin : g.clusters.Pairwise fun c d => ∃ a b, c.funcLines.min? = some a ∧
        d.funcLines.min? = some b ∧ a < b := by
      refine g.clustered_clusters.order.imp_of_mem fun {c d} hc hd hbefore => ?_
      rw [min?_eq_head? (g.clustered_clusters.ascending c hc).func,
        min?_eq_head? (g.clustered_clusters.ascending d hd).func]
      exact hbefore
    rw [← List.zipIdx_map_fst 0 g.clusters] at hmin
    exact List.pairwise_map.2 (List.pairwise_map.1 hmin)
  className := by
    intro i group hi
    obtain ⟨c, -, rfl⟩ := getElem?_groups.1 hi
    rfl
  color := by
    intro i group hi
    obtain ⟨c, -, rfl⟩ := getElem?_groups.1 hi
    exact getElem?_colors palette i

end OfGraph

/-- **The highlight groups of a contract.** -/
theorem build_groups {instructions : SectionInstructions} (h : instructions.Numbered)
    (mapping : FuncMapping) (settings : CorrelationSettings) :
    ∃ c, build mapping instructions settings = .ok c ∧
      LineGraph.ofDebugInfo settings.stdlibMarkers mapping instructions = .ok c.graph ∧
      c.GroupedByPaths settings.palette := by
  obtain ⟨g, hg, -⟩ := ofDebugInfo_ok h settings.stdlibMarkers mapping
  exact ⟨ofGraph settings.palette g, build_eq hg, hg, groupedByPaths_ofGraph _ _⟩

theorem build_groups_inlined :
    inlinedSections.Numbered ∧ ∃ c, build inlinedMapping inlinedSections {} = .ok c ∧
      c.GroupedByPaths defaultPalette ∧ c.groups.map (·.funcLines) = [[4, 5], [9]] := by
  obtain ⟨c, hc, -, hgroups⟩ := build_groups numbered_inlinedSections inlinedMapping {}
  have hlines : (build inlinedMapping inlinedSections {}).map
      (fun c => c.groups.map (·.funcLines)) = .ok [[4, 5], [9]] := rfl
  rw [hc] at hlines
  exact ⟨numbered_inlinedSections, c, hc, hgroups, Except.ok.inj hlines⟩

end Correlation

end TvmDebug
