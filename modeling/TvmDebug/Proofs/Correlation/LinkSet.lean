import TvmDebug.Proofs.Correlation.Groups
/-! # A correlation depends on nothing but the set of its links

Two graphs with the same links, in whatever order and however often they are given, have the same
two listings and the same clusters (`LineGraph.clusters_eq_of_mem_iff`), so that their groups agree
in lines, colors and classes. -/
set_option autoImplicit false

namespace TvmDebug

/-! ## Ascending lists by their members -/

theorem ascending_eq_of_mem_iff {ls ls' : List UInt32} (h : ∀ l, l ∈ ls ↔ l ∈ ls') :
    ascending ls = ascending ls' := by
  refine eq_of_pairwise_lt (pairwise_ascending ls) (pairwise_ascending ls') fun l => ?_
  rw [mem_ascending, mem_ascending, h]

/-! ## Graphs by their links -/

namespace LineGraph

variable {g g' : LineGraph}

theorem funcLines_eq_of_mem_iff (h : ∀ e, e ∈ g.edges ↔ e ∈ g'.edges) :
    g.funcLines = g'.funcLines := by
  refine ascending_eq_of_mem_iff fun f => ?_
  simp only [List.mem_map, h]

theorem asmLines_eq_of_mem_iff (h : ∀ e, e ∈ g.edges ↔ e ∈ g'.edges) :
    g.asmLines = g'.asmLines := by
  refine ascending_eq_of_mem_iff fun a => ?_
  simp only [List.mem_map, h]

theorem asmLinesFor_eq_of_mem_iff (h : ∀ e, e ∈ g.edges ↔ e ∈ g'.edges) :
    g.asmLinesFor = g'.asmLinesFor := by
  funext f
  refine ascending_eq_of_mem_iff fun a => ?_
  simp only [List.mem_map, List.mem_filter, h]

theorem funcLinesFor_eq_of_mem_iff (h : ∀ e, e ∈ g.edges ↔ e ∈ g'.edges) :
    g.funcLinesFor = g'.funcLinesFor := by
  funext a
  refine ascending_eq_of_mem_iff fun f => ?_
  simp only [List.mem_map, List.mem_filter, h]

theorem funcToAsm_eq_of_mem_iff (h : ∀ e, e ∈ g.edges ↔ e ∈ g'.edges) :
    g.funcToAsm = g'.funcToAsm := by
  rw [funcToAsm, funcToAsm, funcLines_eq_of_mem_iff h, asmLinesFor_eq_of_mem_iff h]

theorem asmToFunc_eq_of_mem_iff (h : ∀ e, e ∈ g.edges ↔ e ∈ g'.edges) :
    g.asmToFunc = g'.asmToFunc := by
  rw [asmToFunc, asmToFunc, asmLines_eq_of_mem_iff h, funcLinesFor_eq_of_mem_iff h]

/-- A search asks a graph for nothing but the neighbors of lines. -/
theorem clusters_eq_of_mem_iff (h : ∀ e, e ∈ g.edges ↔ e ∈ g'.edges) :
    g.clusters = g'.clusters := by
  have hneighbors : g.neighbors = g'.neighbors := by
    funext n
    cases n with
    | func f => rw [neighbors, neighbors, asmLinesFor_eq_of_mem_iff h]
    | asm a => rw [neighbors, neighbors, funcLinesFor_eq_of_mem_iff h]
  rw [clusters, clusters, hneighbors, funcLines_eq_of_mem_iff h, asmLines_eq_of_mem_iff h]

end LineGraph

theorem Correlation.groups_eq_of_mem_iff {g g' : LineGraph}
    (h : ∀ e, e ∈ g.edges ↔ e ∈ g'.edges) (palette : List String) :
    (ofGraph palette g).groups = (ofGraph palette g').groups := by
  rw [ofGraph, ofGraph, LineGraph.clusters_eq_of_mem_iff h]

end TvmDebug
