import Mathlib.Data.List.Sort
import Mathlib.Logic.Relation
import TvmDebug.Correlation.Group
import TvmDebug.Proofs.Correlation.Ascending
/-! # Clusters as connected components

`LineGraph.Clustered g cs`: every linked line lies in a cluster, and the lines of a cluster are
those that paths of links join to any one of them, so that no line lies in two clusters
(`Clustered.eq_of_has`). Clusters are listed by ascending first source line, and none twice. -/
set_option autoImplicit false

namespace TvmDebug

/-! ## Paths in a link graph -/

namespace LineGraph

variable (g : LineGraph)

/-- One of the two listings has the second line under the first. -/
def Adjacent : Node → Node → Prop
  | .func f, .asm a => g.Links f a
  | .asm a, .func f => g.LinksBack a f
  | _, _ => False

/-- The line has an entry in the listing of its side. -/
def Linked : Node → Prop
  | .func f => f ∈ g.funcToAsm.map Prod.fst
  | .asm a => a ∈ g.asmToFunc.map Prod.fst

variable {g} {m n : Node}

theorem linked_func_iff {f : UInt32} : g.Linked (.func f) ↔ f ∈ g.funcLines := by
  rw [Linked, keys_funcToAsm]

theorem linked_asm_iff {a : UInt32} : g.Linked (.asm a) ↔ a ∈ g.asmLines := by
  rw [Linked, keys_asmToFunc]

/-- The two ends of a link. -/
theorem linked_of_mem {f a : UInt32} (h : ⟨f, a⟩ ∈ g.edges) :
    g.Linked (.func f) ∧ g.Linked (.asm a) :=
  ⟨linked_func_iff.2 (mem_funcLines.2 ⟨a, h⟩), linked_asm_iff.2 (mem_asmLines.2 ⟨f, h⟩)⟩

theorem Adjacent.symm (h : g.Adjacent m n) : g.Adjacent n m := by
  cases m <;> cases n
  case func.asm f a => exact linksBack_iff.2 (links_iff.1 h)
  case asm.func a f => exact links_iff.2 (linksBack_iff.1 h)
  all_goals exact h.elim

instance : Std.Symm g.Adjacent := ⟨fun _ _ => Adjacent.symm⟩

theorem Adjacent.linked (h : g.Adjacent m n) : g.Linked n := by
  cases m <;> cases n
  case func.asm f a => exact (linked_of_mem (links_iff.1 h)).2
  case asm.func a f => exact (linked_of_mem (linksBack_iff.1 h)).1
  all_goals exact h.elim

theorem mem_neighbors : n ∈ g.neighbors m ↔ g.Adjacent m n := by
  cases m <;> cases n <;>
    simp [neighbors, Adjacent, links_iff, linksBack_iff, mem_asmLinesFor, mem_funcLinesFor]

theorem linked_of_path (hm : g.Linked m) (h : Relation.ReflTransGen g.Adjacent m n) :
    g.Linked n := by
  cases h with
  | refl => exact hm
  | tail _ hlast => exact hlast.linked

end LineGraph

/-! ## Lines of a cluster -/

theorem eq_of_pairwise_lt {ls ls' : List UInt32} (h : ls.Pairwise (· < ·))
    (h' : ls'.Pairwise (· < ·)) (hmem : ∀ l, l ∈ ls ↔ l ∈ ls') : ls = ls' :=
  List.Pairwise.eq_of_mem_iff h h' hmem

namespace Cluster

variable {c d : Cluster}

/-- The line lies in the cluster. -/
def Has (c : Cluster) : Node → Prop
  | .func l => l ∈ c.funcLines
  | .asm l => l ∈ c.asmLines

theorem not_has_empty (n : Node) : ¬ empty.Has n := by
  cases n <;> exact List.not_mem_nil

theorem has_insert {m n : Node} : (c.insert m).Has n ↔ n = m ∨ c.Has n := by
  cases m <;> cases n <;> simp [insert, Has, mem_insertLine]

/-- Both sides are strictly ascending. -/
structure Ascending (c : Cluster) : Prop where
  func : c.funcLines.Pairwise (· < ·)
  asm : c.asmLines.Pairwise (· < ·)

theorem ascending_empty : empty.Ascending := ⟨List.Pairwise.nil, List.Pairwise.nil⟩

theorem Ascending.insert (h : c.Ascending) (n : Node) : (c.insert n).Ascending := by
  cases n with
  | func f => exact ⟨pairwise_insertLine f h.func, h.asm⟩
  | asm a => exact ⟨h.func, pairwise_insertLine a h.asm⟩

theorem Ascending.eq_of_has_iff (hc : c.Ascending) (hd : d.Ascending)
    (h : ∀ n, c.Has n ↔ d.Has n) : c = d := by
  have hfunc : c.funcLines = d.funcLines := eq_of_pairwise_lt hc.func hd.func fun l => h (.func l)
  have hasm : c.asmLines = d.asmLines := eq_of_pairwise_lt hc.asm hd.asm fun l => h (.asm l)
  cases c
  cases d
  rw [Cluster.mk.injEq]
  exact ⟨hfunc, hasm⟩

/-- The first source line of one cluster is before that of the other. -/
def Before (c d : Cluster) : Prop :=
  ∃ a b, c.funcLines.head? = some a ∧ d.funcLines.head? = some b ∧ a < b

theorem Before.ne (h : c.Before d) : c ≠ d := by
  obtain ⟨a, b, ha, hb, hab⟩ := h
  rintro rfl
  obtain rfl : a = b := Option.some.inj (ha.symm.trans hb)
  exact UInt32.lt_irrefl _ hab

end Cluster

/-! ## The clusters of a graph -/

namespace LineGraph

/-- The clusters hold the linked lines, those joined by paths in one cluster. -/
structure Clustered (g : LineGraph) (cs : List Cluster) : Prop where
  cover : ∀ n, g.Linked n → ∃ c ∈ cs, c.Has n
  linked : ∀ c ∈ cs, ∀ n, c.Has n → g.Linked n
  has_iff : ∀ c ∈ cs, ∀ m, c.Has m → ∀ n, c.Has n ↔ Relation.ReflTransGen g.Adjacent m n
  two_sided : ∀ c ∈ cs, c.funcLines ≠ [] ∧ c.asmLines ≠ []
  ascending : ∀ c ∈ cs, c.Ascending
  order : cs.Pairwise Cluster.Before

variable {g : LineGraph} {cs : List Cluster} {c d : Cluster} {n : Node}

theorem Clustered.eq_of_has (h : g.Clustered cs) (hc : c ∈ cs) (hd : d ∈ cs) (hcn : c.Has n)
    (hdn : d.Has n) : c = d :=
  (h.ascending c hc).eq_of_has_iff (h.ascending d hd) fun m =>
    (h.has_iff c hc n hcn m).trans (h.has_iff d hd n hdn m).symm

theorem Clustered.nodup (h : g.Clustered cs) : cs.Nodup := h.order.imp Cluster.Before.ne

end LineGraph

end TvmDebug
