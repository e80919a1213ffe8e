import Mathlib.Data.List.Perm.Subperm
import TvmDebug.Proofs.Correlation.Clusters
/-! # A search finds the lines that paths join

`Search.Seeks`: a search has met the lines that it looked from, those in its queue and those met
before it began; paths lead to all it met itself, and all neighbors of lines looked from are met.
One step keeps this (`Seeks.of_meets`) and takes one line from the queue for good
(`Meets.length_eq`), so that the queue is empty in the end (`Seeks.run`). The lines looked from are
then those that paths join to the first one (`Seeks.has_iff`).

Searches from one source line after the other find the clusters of a graph
(`clustered_clusters`). -/
set_option autoImplicit false

namespace TvmDebug

open Relation (ReflTransGen)

/-- No list of different lines is longer than all lines of the graph. -/
theorem LineGraph.length_le_of_linked {g : LineGraph} {ns : List Node} (hnodup : ns.Nodup)
    (h : ∀ n ∈ ns, g.Linked n) : ns.length ≤ g.funcLines.length + g.asmLines.length := by
  have hsubset : ns ⊆ g.funcLines.map Node.func ++ g.asmLines.map Node.asm := by
    intro n hn
    cases n with
    | func f => exact List.mem_append_left _ (List.mem_map_of_mem (linked_func_iff.1 (h _ hn)))
    | asm a => exact List.mem_append_right _ (List.mem_map_of_mem (linked_asm_iff.1 (h _ hn)))
  have hle := (hnodup.subperm hsubset).length_le
  rwa [List.length_append, List.length_map, List.length_map] at hle

namespace Search

/-! ## Meeting lines -/

/-- The lines `new` were met for the first time among `ns`, in their order. -/
structure Meets (s : Search) (ns new : List Node) (s' : Search) : Prop where
  queue : s'.queue = s.queue ++ new
  visited : s'.visited = new.reverse ++ s.visited
  cluster : s'.cluster = s.cluster
  nodup : new.Nodup
  mem_iff : ∀ n, n ∈ new ↔ n ∈ ns ∧ n ∉ s.visited

variable {s s' : Search}

theorem exists_meets (s : Search) (ns : List Node) : ∃ new, s.Meets ns new (ns.foldl meet s) := by
  induction ns generalizing s with
  | nil => exact ⟨[], (List.append_nil _).symm, rfl, rfl, List.nodup_nil, by simp⟩
  | cons n ns ih =>
    rw [List.foldl_cons, meet]
    by_cases hn : n ∈ s.visited
    · rw [if_pos (List.contains_iff_mem.2 hn)]
      obtain ⟨new, hqueue, hvisited, hcluster, hnodup, hmem⟩ := ih s
      refine ⟨new, hqueue, hvisited, hcluster, hnodup, fun m => ?_⟩
      rw [hmem, List.mem_cons]
      exact ⟨fun ⟨hm, hout⟩ => ⟨.inr hm, hout⟩, fun ⟨hm, hout⟩ =>
        ⟨hm.resolve_left fun hmn => hout (hmn ▸ hn), hout⟩⟩
    · rw [if_neg (mt List.contains_iff_mem.1 hn)]
      obtain ⟨new, hqueue, hvisited, hcluster, hnodup, hmem⟩ :=
        ih { s with queue := s.queue ++ [n], visited := n :: s.visited }
      refine ⟨n :: new, ?_, ?_, hcluster, List.nodup_cons.2 ⟨fun hnew => ?_, hnodup⟩, fun m => ?_⟩
      · rw [hqueue, List.append_assoc, List.singleton_append]
      · rw [hvisited, List.reverse_cons, List.append_assoc, List.singleton_append]
      · exact ((hmem n).1 hnew).2 List.mem_cons_self
      · rw [List.mem_cons, hmem, List.mem_cons, List.mem_cons, not_or]
        by_cases hmn : m = n
        · simp [hmn, hn]
        · simp [hmn]

/-! ## One search -/

/-- A search for the lines that paths join to `root`, where others have met the lines `before`. -/
structure Seeks (g : LineGraph) (before : List Node) (root : Node) (s : Search) : Prop where
  visited_iff : ∀ n, n ∈ s.visited ↔ n ∈ before ∨ n ∈ s.queue ∨ s.cluster.Has n
  fresh : ∀ n, n ∈ s.queue ∨ s.cluster.Has n → n ∉ before
  joined : ∀ n, n ∈ s.queue ∨ s.cluster.Has n → ReflTransGen g.Adjacent root n
  looked : ∀ m, s.cluster.Has m → ∀ n, g.Adjacent m n → n ∈ s.visited
  root : root ∈ s.queue ∨ s.cluster.Has root
  nodup : s.visited.Nodup
  linked : ∀ n ∈ s.visited, g.Linked n
  ascending : s.cluster.Ascending

variable {g : LineGraph} {before : List Node} {root : Node}

theorem seeks_start (hroot : g.Linked root) (hfresh : root ∉ before) (hnodup : before.Nodup)
    (hlinked : ∀ n ∈ before, g.Linked n) : (start before root).Seeks g before root where
  visited_iff := by simp [start, Cluster.not_has_empty, or_comm]
  fresh := by simp [start, Cluster.not_has_empty, hfresh]
  joined := by simp [start, Cluster.not_has_empty, ReflTransGen.refl]
  looked := fun m hm => absurd hm (Cluster.not_has_empty m)
  root := .inl List.mem_cons_self
  nodup := List.nodup_cons.2 ⟨hfresh, hnodup⟩
  linked := List.forall_mem_cons.2 ⟨hroot, hlinked⟩
  ascending := Cluster.ascending_empty

theorem step?_eq_none {neighbors : Node → List Node} (h : s.step? neighbors = none) :
    s.queue = [] := by
  unfold step? at h
  split at h
  · assumption
  · cases h

section Step
variable {m n : Node} {queue new : List Node}

/-- The search that looks from `m` and has met no neighbor of it yet. -/
def lookFrom (s : Search) (m : Node) (queue : List Node) : Search :=
  { s with queue := queue, cluster := s.cluster.insert m }

theorem exists_of_step? {neighbors : Node → List Node} (h : s.step? neighbors = some s') :
    ∃ m queue new, s.queue = m :: queue ∧ (s.lookFrom m queue).Meets (neighbors m) new s' := by
  unfold step? at h
  split at h
  · cases h
  · next m queue hqueue =>
    obtain rfl := Option.some.inj h
    obtain ⟨new, hmeets⟩ := exists_meets (s.lookFrom m queue) (neighbors m)
    exact ⟨m, queue, new, hqueue, hmeets⟩

theorem Meets.visited_iff {ns : List Node} (h : (s.lookFrom m queue).Meets ns new s') :
    n ∈ s'.visited ↔ n ∈ new ∨ n ∈ s.visited := by
  rw [h.visited, List.mem_append, List.mem_reverse]
  rfl

theorem Meets.met_iff {ns : List Node} (h : (s.lookFrom m queue).Meets ns new s')
    (hqueue : s.queue = m :: queue) : n ∈ s'.queue ∨ s'.cluster.Has n ↔
      n ∈ new ∨ n ∈ s.queue ∨ s.cluster.Has n := by
  rw [h.queue, h.cluster, hqueue, List.mem_append, List.mem_cons, lookFrom, Cluster.has_insert]
  tauto

/-- Of the neighbors of a line, those not met before are met now. -/
theorem Seeks.of_meets (h : s.Seeks g before root) (hqueue : s.queue = m :: queue)
    (hmeets : (s.lookFrom m queue).Meets (g.neighbors m) new s') : s'.Seeks g before root where
  visited_iff n := by
    rw [hmeets.visited_iff, hmeets.met_iff hqueue, h.visited_iff]
    tauto
  fresh n hn hbefore := by
    obtain hnew | hold := (hmeets.met_iff hqueue).1 hn
    · exact ((hmeets.mem_iff n).1 hnew).2 ((h.visited_iff n).2 (.inl hbefore))
    · exact h.fresh n hold hbefore
  joined n hn := by
    obtain hnew | hold := (hmeets.met_iff hqueue).1 hn
    · have hm := h.joined m (.inl (hqueue ▸ List.mem_cons_self))
      exact hm.tail (LineGraph.mem_neighbors.1 ((hmeets.mem_iff n).1 hnew).1)
    · exact h.joined n hold
  looked k hk n hn := by
    rw [hmeets.visited_iff]
    rw [hmeets.cluster, lookFrom, Cluster.has_insert] at hk
    obtain rfl | hk := hk
    · by_cases hseen : n ∈ s.visited
      · exact .inr hseen
      · exact .inl ((hmeets.mem_iff n).2 ⟨LineGraph.mem_neighbors.2 hn, hseen⟩)
    · exact .inr (h.looked k hk n hn)
  root := (hmeets.met_iff hqueue).2 (.inr h.root)
  nodup := by
    rw [hmeets.visited]
    refine List.nodup_append.2 ⟨List.nodup_reverse.2 hmeets.nodup, h.nodup, ?_⟩
    rintro n hnew _ hold rfl
    exact ((hmeets.mem_iff n).1 (List.mem_reverse.1 hnew)).2 hold
  linked n hn := by
    obtain hnew | hold := hmeets.visited_iff.1 hn
    · exact (LineGraph.mem_neighbors.1 ((hmeets.mem_iff n).1 hnew).1).linked
    · exact h.linked n hold
  ascending := hmeets.cluster ▸ h.ascending.insert m

/-- The line looked from leaves the queue, and only lines met for the first time come to it. -/
theorem Meets.length_eq {ns : List Node} (h : (s.lookFrom m queue).Meets ns new s')
    (hqueue : s.queue = m :: queue) :
    s'.queue.length + s.visited.length + 1 = s.queue.length + s'.visited.length := by
  rw [h.queue, h.visited, hqueue, lookFrom]
  simp only [List.length_append, List.length_reverse, List.length_cons]
  omega

end Step

/-- A search that looks from no more lines than the graph has comes to its end. -/
theorem Seeks.run (h : s.Seeks g before root) {most : Nat}
    (hmost : s.queue.length + (g.funcLines.length + g.asmLines.length) ≤
      most + s.visited.length) :
    (s.run g.neighbors most).Seeks g before root ∧ (s.run g.neighbors most).queue = [] := by
  induction most generalizing s with
  | zero =>
    have hle := LineGraph.length_le_of_linked h.nodup h.linked
    exact ⟨h, List.length_eq_zero_iff.1 (show s.queue.length = 0 by omega)⟩
  | succ most ih =>
    rw [Search.run]
    cases hstep : s.step? g.neighbors with
    | none => exact ⟨h, step?_eq_none hstep⟩
    | some s' =>
      obtain ⟨m, queue, new, hqueue, hmeets⟩ := exists_of_step? hstep
      have hlength := hmeets.length_eq hqueue
      exact ih (h.of_meets hqueue hmeets) (by omega)

/-- Where no path leads out of the lines met before, none leads to them. -/
theorem Seeks.has_iff (h : s.Seeks g before root) (hqueue : s.queue = [])
    (hclosed : ∀ m ∈ before, ∀ n, g.Adjacent m n → n ∈ before) (n : Node) :
    s.cluster.Has n ↔ ReflTransGen g.Adjacent root n := by
  have hempty : ∀ m, m ∉ s.queue := by simp [hqueue]
  constructor
  · intro hn
    exact h.joined n (.inr hn)
  · intro hpath
    induction hpath with
    | refl => exact h.root.resolve_left (hempty root)
    | @tail m n _ hstep ih =>
      obtain hbefore | hqueued | hhas := (h.visited_iff n).1 (h.looked m ih n hstep)
      · exact absurd (hclosed n hbefore m hstep.symm) (h.fresh m (.inr ih))
      · exact absurd hqueued (hempty n)
      · exact hhas

theorem Seeks.closed (h : s.Seeks g before root) (hqueue : s.queue = [])
    (hclosed : ∀ m ∈ before, ∀ n, g.Adjacent m n → n ∈ before) :
    ∀ m ∈ s.visited, ∀ n, g.Adjacent m n → n ∈ s.visited := by
  intro m hm n hn
  obtain hbefore | hqueued | hhas := (h.visited_iff m).1 hm
  · exact (h.visited_iff n).2 (.inl (hclosed m hbefore n hn))
  · rw [hqueue] at hqueued
    exact absurd hqueued List.not_mem_nil
  · exact h.looked m hhas n hn

/-! ## One search after the other -/

/-- The clusters of `lines` are still to be found; the lines visited are those of other clusters. -/
structure Remains (g : LineGraph) (visited : List Node) (lines : List UInt32) : Prop where
  nodup : visited.Nodup
  linked : ∀ n ∈ visited, g.Linked n
  closed : ∀ m ∈ visited, ∀ n, g.Adjacent m n → n ∈ visited
  ascending : lines.Pairwise (· < ·)
  linked_lines : ∀ f ∈ lines, g.Linked (.func f)
  rest : ∀ f, g.Linked (.func f) → f ∈ lines ∨ .func f ∈ visited

/-- The cluster of the lines that paths join to its first source line. -/
structure IsClusterOf (g : LineGraph) (f : UInt32) (c : Cluster) : Prop where
  head : c.funcLines.head? = some f
  linked : g.Linked (.func f)
  has_iff : ∀ n, c.Has n ↔ ReflTransGen g.Adjacent (.func f) n
  two_sided : c.funcLines ≠ [] ∧ c.asmLines ≠ []
  ascending : c.Ascending

/-- What the clusters of `lines` are, and that they are all there. -/
structure Finds (g : LineGraph) (visited : List Node) (lines : List UInt32) (cs : List Cluster) :
    Prop where
  cover : ∀ f ∈ lines, .func f ∉ visited → ∃ c ∈ cs, c.Has (.func f)
  clusterOf : ∀ c ∈ cs, ∃ f ∈ lines, IsClusterOf g f c
  order : cs.Pairwise Cluster.Before

variable {visited : List Node} {f : UInt32} {fs : List UInt32}

theorem remains_all (g : LineGraph) : Remains g [] g.funcLines where
  nodup := List.nodup_nil
  linked := nofun
  closed := nofun
  ascending := pairwise_ascending _
  linked_lines := fun _ => LineGraph.linked_func_iff.2
  rest := fun _ hf => .inl (LineGraph.linked_func_iff.1 hf)

theorem Remains.skip (h : Remains g visited (f :: fs)) (hf : .func f ∈ visited) :
    Remains g visited fs where
  nodup := h.nodup
  linked := h.linked
  closed := h.closed
  ascending := (List.pairwise_cons.1 h.ascending).2
  linked_lines := fun f' hf' => h.linked_lines f' (List.mem_cons_of_mem f hf')
  rest := fun f' hf' => (h.rest f' hf').elim
    (fun hline => (List.mem_cons.1 hline).elim (fun heq => .inr (heq ▸ hf)) .inl) .inr

/-- The next search comes to its end. -/
theorem Remains.seeks (h : Remains g visited (f :: fs)) (hf : .func f ∉ visited) :
    ∃ s, (start visited (.func f)).run g.neighbors (g.funcLines.length + g.asmLines.length) = s ∧
      s.Seeks g visited (.func f) ∧ s.queue = [] := by
  have hstart := seeks_start (h.linked_lines f List.mem_cons_self) hf h.nodup h.linked
  refine ⟨_, rfl, hstart.run ?_⟩
  show 1 + _ ≤ _ + (visited.length + 1)
  omega

theorem Remains.next (h : Remains g visited (f :: fs)) (hs : s.Seeks g visited (.func f))
    (hqueue : s.queue = []) : Remains g s.visited fs where
  nodup := hs.nodup
  linked := hs.linked
  closed := hs.closed hqueue h.closed
  ascending := (List.pairwise_cons.1 h.ascending).2
  linked_lines := fun f' hf' => h.linked_lines f' (List.mem_cons_of_mem f hf')
  rest := fun f' hf' => by
    obtain hline | hvisited := h.rest f' hf'
    · obtain rfl | hline := List.mem_cons.1 hline
      · exact .inr ((hs.visited_iff _).2 (.inr hs.root))
      · exact .inl hline
    · exact .inr ((hs.visited_iff _).2 (.inl hvisited))

theorem head?_eq_of_least {ls : List UInt32} {l : UInt32} (h : ls.Pairwise (· < ·)) (hl : l ∈ ls)
    (hleast : ∀ l' ∈ ls, l' = l ∨ l < l') : ls.head? = some l := by
  cases ls with
  | nil => exact absurd hl List.not_mem_nil
  | cons l' ls =>
    obtain rfl | hlt := hleast l' List.mem_cons_self
    · rfl
    · obtain rfl | hl := List.mem_cons.1 hl
      · rfl
      · exact absurd hlt (UInt32.lt_asymm ((List.pairwise_cons.1 h).1 l hl))

/-- No source line of the cluster is before the first one, since all those are of other clusters. -/
theorem Remains.isClusterOf (h : Remains g visited (f :: fs)) (hs : s.Seeks g visited (.func f))
    (hqueue : s.queue = []) : IsClusterOf g f s.cluster := by
  have hhas := hs.has_iff hqueue h.closed
  have hlinked := h.linked_lines f List.mem_cons_self
  have hf : f ∈ s.cluster.funcLines := (hhas (.func f)).2 ReflTransGen.refl
  refine ⟨head?_eq_of_least hs.ascending.func hf fun f' hf' => ?_, hlinked, hhas,
    ⟨List.ne_nil_of_mem hf, ?_⟩, hs.ascending⟩
  · have hline := h.rest f' (LineGraph.linked_of_path hlinked ((hhas (.func f')).1 hf'))
    obtain rfl | hlater := List.mem_cons.1 (hline.resolve_right (hs.fresh _ (.inr hf')))
    · exact .inl rfl
    · exact .inr ((List.pairwise_cons.1 h.ascending).1 f' hlater)
  · obtain ⟨a, he⟩ := LineGraph.mem_funcLines.1 (LineGraph.linked_func_iff.1 hlinked)
    have hadjacent : g.Adjacent (.func f) (.asm a) := LineGraph.links_iff.2 he
    exact List.ne_nil_of_mem ((hhas (.asm a)).2 (ReflTransGen.single hadjacent))

theorem IsClusterOf.isTwoSided {c : Cluster} (h : IsClusterOf g f c) : c.isTwoSided = true := by
  obtain ⟨hfunc, hasm⟩ := h.two_sided
  simp [Cluster.isTwoSided, hfunc, hasm]

theorem finds_clusters {lines : List UInt32} (h : Remains g visited lines) :
    Finds g visited lines
      (clusters g.neighbors (g.funcLines.length + g.asmLines.length) visited lines) := by
  induction lines generalizing visited with
  | nil => exact ⟨nofun, nofun, List.Pairwise.nil⟩
  | cons f fs ih =>
    have hlater : ∀ {cs : List Cluster}, (∀ c ∈ cs, ∃ f ∈ fs, IsClusterOf g f c) →
        ∀ c ∈ cs, ∃ f' ∈ f :: fs, IsClusterOf g f' c := by
      intro cs hcs c hc
      obtain ⟨f', hf', hclusterOf⟩ := hcs c hc
      exact ⟨f', List.mem_cons_of_mem f hf', hclusterOf⟩
    rw [clusters]
    by_cases hf : .func f ∈ visited
    · rw [if_pos (List.contains_iff_mem.2 hf)]
      obtain ⟨hcover, hclusterOf, horder⟩ := ih (h.skip hf)
      refine ⟨fun f' hf' hnew => ?_, hlater hclusterOf, horder⟩
      obtain rfl | hf' := List.mem_cons.1 hf'
      · exact absurd hf hnew
      · exact hcover f' hf' hnew
    · rw [if_neg (mt List.contains_iff_mem.1 hf)]
      obtain ⟨s, hrun, hs, hqueue⟩ := h.seeks hf
      have hfirst := h.isClusterOf hs hqueue
      obtain ⟨hcover, hclusterOf, horder⟩ := ih (h.next hs hqueue)
      dsimp only
      rw [hrun, if_pos hfirst.isTwoSided]
      refine ⟨fun f' hf' hnew => ?_,
        List.forall_mem_cons.2 ⟨⟨f, List.mem_cons_self, hfirst⟩, hlater hclusterOf⟩,
        List.pairwise_cons.2 ⟨fun c hc => ?_, horder⟩⟩
      · -- The first search has met the line, or a later one does.
        by_cases hmet : .func f' ∈ s.visited
        · obtain hbefore | hmine := (hs.visited_iff _).1 hmet
          · exact absurd hbefore hnew
          · exact ⟨_, List.mem_cons_self, hmine.resolve_left (by simp [hqueue])⟩
        · obtain rfl | hf' := List.mem_cons.1 hf'
          · exact absurd ((hs.visited_iff _).2 (.inr hs.root)) hmet
          · obtain ⟨c, hc, hhas⟩ := hcover f' hf' hmet
            exact ⟨c, List.mem_cons_of_mem _ hc, hhas⟩
      · obtain ⟨f', hf', hc⟩ := hclusterOf c hc
        exact ⟨f, f', hfirst.head, hc.head, (List.pairwise_cons.1 h.ascending).1 f' hf'⟩

/-- Each cluster takes a source line of its own. -/
theorem length_clusters_le (neighbors : Node → List Node) (most : Nat) (visited : List Node)
    (lines : List UInt32) : (clusters neighbors most visited lines).length ≤ lines.length := by
  induction lines generalizing visited with
  | nil => exact Nat.le_refl 0
  | cons f fs ih =>
    rw [clusters]
    split
    · exact Nat.le_succ_of_le (ih visited)
    · dsimp only
      split
      · exact Nat.succ_le_succ (ih _)
      · exact Nat.le_succ_of_le (ih _)

end Search

/-- **The searches find the connected components of a graph.** -/
theorem LineGraph.clustered_clusters (g : LineGraph) : g.Clustered g.clusters := by
  obtain ⟨hcover, hclusterOf, horder⟩ := Search.finds_clusters (Search.remains_all g)
  have hfunc : ∀ f, g.Linked (.func f) → ∃ c ∈ g.clusters, c.Has (.func f) := fun f hf =>
    hcover f (linked_func_iff.1 hf) List.not_mem_nil
  refine ⟨fun n hn => ?_, fun c hc n hn => ?_, fun c hc m hm n => ?_, fun c hc => ?_,
    fun c hc => ?_, horder⟩
  · cases n with
    | func f => exact hfunc f hn
    | asm a =>
      obtain ⟨f, he⟩ := mem_asmLines.1 (linked_asm_iff.1 hn)
      obtain ⟨c, hc, hf⟩ := hfunc f (linked_of_mem he).1
      obtain ⟨f', -, hcf⟩ := hclusterOf c hc
      have hadjacent : g.Adjacent (.func f) (.asm a) := links_iff.2 he
      exact ⟨c, hc, (hcf.has_iff _).2 (((hcf.has_iff _).1 hf).tail hadjacent)⟩
  all_goals obtain ⟨f, -, hcf⟩ := hclusterOf c hc
  · exact linked_of_path hcf.linked ((hcf.has_iff n).1 hn)
  · have hpath := (hcf.has_iff m).1 hm
    have hback : ReflTransGen g.Adjacent m (.func f) := Std.Symm.symm _ _ hpath
    exact (hcf.has_iff n).trans ⟨hback.trans, hpath.trans⟩
  · exact hcf.two_sided
  · exact hcf.ascending

end TvmDebug
