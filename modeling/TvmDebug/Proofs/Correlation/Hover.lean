import TvmDebug.Proofs.Correlation.Stops
import TvmDebug.Proofs.Correlation.View
/-! # Hovered lines lie in one group

A view that holds inputs shows a correlation with its groups, however it came about (`Built.apply`,
by induction `Built.run`). Every line that one editor points out is then linked to every line that
the other one does (`links_of_hovered`): one of the two lists is the hovered line alone, and the
other lists what is linked to it. The scroll target of the other editor is the least of its list
unless that is on screen (`scrollTarget_eq_some_iff`). -/
set_option autoImplicit false

namespace TvmDebug

/-! ## Scroll targets -/

/-- The line is the first of some lines, and they must be scrolled to it to be seen. -/
def FirstOffScreen (lines : List UInt32) (viewport : Viewport) (l : UInt32) : Prop :=
  (l ∈ lines ∧ ∀ x ∈ lines, l ≤ x) ∧ ¬ (viewport.first ≤ l ∧ l ≤ viewport.last)

theorem scrollTarget_eq_some_iff {lines : List UInt32} {viewport : Viewport} {l : UInt32} :
    scrollTarget lines viewport = some l ↔ FirstOffScreen lines viewport l := by
  have hhidden : (!viewport.contains l) = true ↔ ¬ (viewport.first ≤ l ∧ l ≤ viewport.last) := by
    rw [Viewport.contains, Bool.not_eq_true', ← Bool.not_eq_true, Bool.and_eq_true,
      decide_eq_true_iff, decide_eq_true_iff]
  rw [scrollTarget, Option.filter_eq_some_iff, List.min?_eq_some_iff, hhidden, FirstOffScreen]

/-! ## Linked lines -/

/-- The line under the pointer as a line of the graph. -/
def HoveredLine.node : HoveredLine → Node
  | .func f => .func f
  | .asm a => .asm a

namespace LineGraph

variable {g : LineGraph} {f a : UInt32}

theorem asmLinesFor_eq_nil_iff : g.asmLinesFor f = [] ↔ ¬ g.Linked (.func f) := by
  rw [linked_func_iff, mem_funcLines, List.eq_nil_iff_forall_not_mem, not_exists]
  simp only [mem_asmLinesFor]

theorem funcLinesFor_eq_nil_iff : g.funcLinesFor a = [] ↔ ¬ g.Linked (.asm a) := by
  rw [linked_asm_iff, mem_asmLines, List.eq_nil_iff_forall_not_mem, not_exists]
  simp only [mem_funcLinesFor]

end LineGraph

theorem Correlation.GroupedByPaths.inGroup_iff_of_links {c : Correlation} {palette : List String}
    (h : c.GroupedByPaths palette) {f a : UInt32} (hlink : c.graph.Links f a) (i : Nat) :
    c.InGroup i (.func f) ↔ c.InGroup i (.asm a) := by
  obtain ⟨j, hf, ha⟩ := h.exists_inGroup_both hlink
  constructor
  · intro hi
    rw [h.eq_of_inGroup hi hf]
    exact ha
  · intro hi
    rw [h.eq_of_inGroup hi ha]
    exact hf

theorem Correlation.groupedByPaths_of_build {mapping : FuncMapping}
    {instructions : SectionInstructions} {settings : CorrelationSettings} {c : Correlation}
    (h : build mapping instructions settings = .ok c) : c.GroupedByPaths settings.palette := by
  obtain ⟨g, -, rfl⟩ := exists_of_map_eq_ok h
  exact groupedByPaths_ofGraph settings.palette g

namespace CorrelationView

/-! ## What a view has built -/

/-- A view that holds inputs has built a correlation, and what it has built has its groups. -/
structure Built (v : CorrelationView) : Prop where
  filled : v.inputs.isSome → v.built.entry.isSome
  grouped : ∀ e, v.built.entry = some e → e.2.GroupedByPaths v.settings.palette

variable {v v' : CorrelationView}

theorem built_new (settings : CorrelationSettings) : Built (new settings) where
  filled := nofun
  grouped := nofun

theorem Built.setInputs (hv : Built v) {i : DebugInputs} (h : v.setInputs (some i) = .ok v') :
    Built v' := by
  cases hget : v.built.get? i.key with
  | some c =>
    have hentry := Memo.get?_eq_some_iff.1 hget
    obtain rfl := Except.ok.inj ((setInputs_of_hit hentry).symm.trans h)
    exact ⟨fun _ => by rw [hentry]; rfl, hv.grouped⟩
  | none =>
    cases hc : Correlation.build i.mapping.value i.instructions.value v.settings with
    | error e =>
      rw [CorrelationView.setInputs, hget, Memo.getOrComputeM_miss hget, hc] at h
      cases h
    | ok c =>
      obtain rfl := Except.ok.inj ((setInputs_of_miss hget hc).symm.trans h)
      refine ⟨fun _ => rfl, ?_⟩
      rintro _ ⟨⟩
      exact Correlation.groupedByPaths_of_build hc

theorem Built.apply (hv : Built v) {op : Op} (h : v.apply op = .ok v') : Built v' := by
  cases op with
  | setInputs inputs =>
    cases inputs with
    | some i => exact hv.setInputs h
    | none =>
      obtain rfl := Except.ok.inj h
      exact ⟨nofun, nofun⟩
  | hover line =>
    obtain rfl := Except.ok.inj h
    exact ⟨hv.filled, hv.grouped⟩
  | scroll viewport =>
    obtain rfl := Except.ok.inj h
    exact hv

theorem Built.run (hv : Built v) {ops : List Op} (h : v.run ops = .ok v') : Built v' := by
  induction ops generalizing v with
  | nil =>
    obtain rfl := Except.ok.inj h
    exact hv
  | cons op ops ih =>
    rw [CorrelationView.run, List.foldlM_cons] at h
    cases happly : v.apply op with
    | error e =>
      rw [happly] at h
      cases h
    | ok v₁ =>
      rw [happly] at h
      exact ih (hv.apply happly) h

theorem Built.exists_correlation (hv : Built v) (h : v.inputs.isSome) :
    ∃ c, v.correlation = some c ∧ c.GroupedByPaths v.settings.palette := by
  obtain ⟨e, he⟩ := Option.isSome_iff_exists.1 (hv.filled h)
  refine ⟨e.2, ?_, hv.grouped e he⟩
  rw [correlation, if_pos h, Memo.current, he]
  rfl

/-! ## What is pointed out -/

section Lines
variable {c : Correlation} {f a : UInt32}

theorem funcHovered_func (hc : v.correlation = some c) (hv : v.hovered = some (.func f)) :
    v.funcHovered = if c.graph.asmLinesFor f = [] then [] else [f] := by
  rw [funcHovered, hc, hv]
  simp only [List.isEmpty_iff]

theorem asmHovered_func (hc : v.correlation = some c) (hv : v.hovered = some (.func f)) :
    v.asmHovered = c.graph.asmLinesFor f := by
  rw [asmHovered, hc, hv]

theorem funcHovered_asm (hc : v.correlation = some c) (hv : v.hovered = some (.asm a)) :
    v.funcHovered = c.graph.funcLinesFor a := by
  rw [funcHovered, hc, hv]

theorem asmHovered_asm (hc : v.correlation = some c) (hv : v.hovered = some (.asm a)) :
    v.asmHovered = if c.graph.funcLinesFor a = [] then [] else [a] := by
  rw [asmHovered, hc, hv]
  simp only [List.isEmpty_iff]

theorem hovered_none (hv : v.hovered = none) : v.funcHovered = [] ∧ v.asmHovered = [] := by
  rw [funcHovered, asmHovered, hv]
  cases v.correlation <;> exact ⟨rfl, rfl⟩

/-- Lines are pointed out on both sides when the hovered line is linked, and else on neither. -/
theorem hovered_eq_nil_iff (hc : v.correlation = some c) :
    (v.funcHovered = [] ↔ ∀ line, v.hovered = some line → ¬ c.graph.Linked line.node) ∧
      (v.asmHovered = [] ↔ ∀ line, v.hovered = some line → ¬ c.graph.Linked line.node) := by
  cases hv : v.hovered with
  | none =>
    obtain ⟨hfunc, hasm⟩ := hovered_none hv
    rw [hfunc, hasm]
    exact ⟨iff_of_true rfl nofun, iff_of_true rfl nofun⟩
  | some line =>
    simp only [Option.some.injEq, forall_eq']
    cases line with
    | func f =>
      rw [funcHovered_func hc hv, asmHovered_func hc hv, HoveredLine.node,
        ← LineGraph.asmLinesFor_eq_nil_iff]
      refine ⟨?_, Iff.rfl⟩
      split <;> simp_all
    | asm a =>
      rw [funcHovered_asm hc hv, asmHovered_asm hc hv, HoveredLine.node,
        ← LineGraph.funcLinesFor_eq_nil_iff]
      refine ⟨Iff.rfl, ?_⟩
      split <;> simp_all

theorem eq_of_mem_unless {p : Prop} [Decidable p] {x y : UInt32}
    (h : x ∈ if p then [] else [y]) : x = y := by
  split at h
  · cases h
  · exact List.mem_singleton.1 h

/-- Every line pointed out on one side is linked to every line pointed out on the other. -/
theorem links_of_hovered (hc : v.correlation = some c) (hf : f ∈ v.funcHovered)
    (ha : a ∈ v.asmHovered) : c.graph.Links f a := by
  rw [LineGraph.links_iff]
  cases hv : v.hovered with
  | none =>
    rw [(hovered_none hv).1] at hf
    cases hf
  | some line =>
    cases line with
    | func f' =>
      rw [funcHovered_func hc hv] at hf
      rw [asmHovered_func hc hv, LineGraph.mem_asmLinesFor] at ha
      exact eq_of_mem_unless hf ▸ ha
    | asm a' =>
      rw [funcHovered_asm hc hv, LineGraph.mem_funcLinesFor] at hf
      rw [asmHovered_asm hc hv] at ha
      exact eq_of_mem_unless ha ▸ hf

theorem pairwise_unless {p : Prop} [Decidable p] {y : UInt32} :
    (if p then [] else [y]).Pairwise (· < ·) := by
  split
  · exact List.Pairwise.nil
  · exact List.pairwise_singleton _ _

theorem pairwise_hovered (hc : v.correlation = some c) :
    v.funcHovered.Pairwise (· < ·) ∧ v.asmHovered.Pairwise (· < ·) := by
  cases hv : v.hovered with
  | none =>
    obtain ⟨hfunc, hasm⟩ := hovered_none hv
    rw [hfunc, hasm]
    exact ⟨List.Pairwise.nil, List.Pairwise.nil⟩
  | some line =>
    cases line with
    | func f =>
      rw [funcHovered_func hc hv, asmHovered_func hc hv]
      exact ⟨pairwise_unless, pairwise_ascending _⟩
    | asm a =>
      rw [funcHovered_asm hc hv, asmHovered_asm hc hv]
      exact ⟨pairwise_ascending _, pairwise_unless⟩

/-- All lines that are pointed out lie in one group. -/
theorem existsUnique_group_of_hovered {palette : List String} (hc : v.correlation = some c)
    (hgroups : c.GroupedByPaths palette) (hfunc : v.funcHovered ≠ []) (hasm : v.asmHovered ≠ []) :
    ∃! i : Nat, ∃ group, c.groups[i]? = some group ∧ v.funcHovered ⊆ group.funcLines ∧
      v.asmHovered ⊆ group.asmLines := by
  obtain ⟨f, hf⟩ := List.exists_mem_of_ne_nil _ hfunc
  obtain ⟨a, ha⟩ := List.exists_mem_of_ne_nil _ hasm
  obtain ⟨i, ⟨group, hgroup, hfi, hai⟩, hunique⟩ :=
    hgroups.existsUnique_group (links_of_hovered hc hf ha)
  have hlines : ∀ n, c.InGroup i n → group.Has n := by
    rintro n ⟨group', hgroup', hn⟩
    obtain rfl := Option.some.inj (hgroup.symm.trans hgroup')
    exact hn
  refine ⟨i, ⟨group, hgroup, fun f' hf' => ?_, fun a' ha' => ?_⟩, ?_⟩
  · have hlink := links_of_hovered hc hf' ha
    exact hlines (.func f') ((hgroups.inGroup_iff_of_links hlink i).2 ⟨group, hgroup, hai⟩)
  · have hlink := links_of_hovered hc hf ha'
    exact hlines (.asm a') ((hgroups.inGroup_iff_of_links hlink i).1 ⟨group, hgroup, hfi⟩)
  · rintro j ⟨group', hgroup', hfj, haj⟩
    exact hunique j ⟨group', hgroup', hfj hf, haj ha⟩

theorem mem_hovered_hover (hc : v.correlation = some c) :
    a ∈ (v.hover (some (.func f))).asmHovered ↔ f ∈ (v.hover (some (.asm a))).funcHovered := by
  rw [asmHovered_func (v := v.hover (some (.func f))) hc rfl,
    funcHovered_asm (v := v.hover (some (.asm a))) hc rfl, LineGraph.mem_asmLinesFor,
    LineGraph.mem_funcLinesFor]

theorem asmScrollTarget_eq_some_iff (hc : v.correlation = some c) {viewport : Viewport}
    {l : UInt32} :
    v.asmScrollTarget viewport = some l ↔
      (∃ f, v.hovered = some (.func f)) ∧ FirstOffScreen v.asmHovered viewport l := by
  rw [asmScrollTarget, hc]
  cases hv : v.hovered with
  | none => simp
  | some line =>
    cases line with
    | func f =>
      rw [asmHovered_func hc hv, scrollTarget_eq_some_iff]
      simp
    | asm a => simp

theorem funcScrollTarget_eq_some_iff (hc : v.correlation = some c) {viewport : Viewport}
    {l : UInt32} :
    v.funcScrollTarget viewport = some l ↔
      (∃ a, v.hovered = some (.asm a)) ∧ FirstOffScreen v.funcHovered viewport l := by
  rw [funcScrollTarget, hc]
  cases hv : v.hovered with
  | none => simp
  | some line =>
    cases line with
    | func f => simp
    | asm a =>
      rw [funcHovered_asm hc hv, scrollTarget_eq_some_iff]
      simp

end Lines

/-- **Hovered lines lie in one group.** Each editor points out lines exactly when the hovered line
is linked; only the editor that is not hovered scrolls. -/
theorem hovered_in_one_group {settings : CorrelationSettings} {ops : List Op}
    (hrun : (new settings).run ops = .ok v) (hinputs : v.inputs.isSome) :
    ∃ c, v.correlation = some c ∧
      (v.funcHovered = [] ↔ v.asmHovered = []) ∧
      (v.funcHovered ≠ [] ↔ ∃ line, v.hovered = some line ∧ c.graph.Linked line.node) ∧
      v.funcHovered.Pairwise (· < ·) ∧ v.asmHovered.Pairwise (· < ·) ∧
      (v.funcHovered ≠ [] → ∃! i : Nat, ∃ group, c.groups[i]? = some group ∧
        v.funcHovered ⊆ group.funcLines ∧ v.asmHovered ⊆ group.asmLines) ∧
      (∀ f a, a ∈ (v.hover (some (.func f))).asmHovered ↔
        f ∈ (v.hover (some (.asm a))).funcHovered) ∧
      ∀ viewport l,
        (v.asmScrollTarget viewport = some l ↔
          (∃ f, v.hovered = some (.func f)) ∧ FirstOffScreen v.asmHovered viewport l) ∧
        (v.funcScrollTarget viewport = some l ↔
          (∃ a, v.hovered = some (.asm a)) ∧ FirstOffScreen v.funcHovered viewport l) := by
  obtain ⟨c, hc, hgroups⟩ := ((built_new settings).run hrun).exists_correlation hinputs
  obtain ⟨hfunc, hasm⟩ := hovered_eq_nil_iff hc
  have hsame : v.funcHovered = [] ↔ v.asmHovered = [] := hfunc.trans hasm.symm
  obtain ⟨hfuncs, hasms⟩ := pairwise_hovered hc
  refine ⟨c, hc, hsame, ?_, hfuncs, hasms, fun hne => ?_, fun f a => mem_hovered_hover hc,
    fun viewport l => ⟨asmScrollTarget_eq_some_iff hc, funcScrollTarget_eq_some_iff hc⟩⟩
  · rw [Ne, hfunc]
    simp only [not_forall, not_not, exists_prop]
  · exact existsUnique_group_of_hovered hc hgroups hne (mt hsame.2 hne)

/-- The first assembly line of the hovered source line is above those on screen. -/
theorem hovered_in_one_group_once :
    ∃ v c, (new {}).run hoveredOnce = .ok v ∧ v.correlation = some c ∧ v.funcHovered = [4] ∧
      (∃! i : Nat, ∃ group, c.groups[i]? = some group ∧ v.funcHovered ⊆ group.funcLines ∧
        v.asmHovered ⊆ group.asmLines) ∧
      4 ∈ (v.hover (some (.asm 10))).funcHovered ∧ v.asmScrollTarget ⟨11, 40⟩ = some 10 ∧
      v.funcScrollTarget ⟨11, 40⟩ = none := by
  obtain ⟨v, hrun, hshows⟩ := shows_run {} admissible_hoveredOnce
  have hlists : ((new {}).run hoveredOnce).map
      (fun v => (v.hovered, v.funcHovered, v.asmHovered, (v.hover (some (.func 4))).asmHovered)) =
        .ok (some (.func 4), [4], [10, 11], [10, 11]) := rfl
  rw [hrun] at hlists
  obtain ⟨hhovered, hlists⟩ := Prod.mk.inj (Except.ok.inj hlists)
  obtain ⟨hfunc, hlists⟩ := Prod.mk.inj hlists
  obtain ⟨hasm, hagain⟩ := Prod.mk.inj hlists
  have hinputs : v.inputs.isSome := by
    rw [hshows.inputs]
    rfl
  obtain ⟨c, hc, -, -, -, -, hgroup, hback, hscroll⟩ := hovered_in_one_group hrun hinputs
  have hscrolled : FirstOffScreen v.asmHovered ⟨11, 40⟩ 10 := by
    rw [hasm]
    exact ⟨⟨List.mem_cons_self, List.forall_mem_cons.2
      ⟨UInt32.le_refl 10, List.forall_mem_singleton.2 (by decide)⟩⟩, by decide⟩
  refine ⟨v, c, hrun, hc, hfunc, hgroup (hfunc ▸ List.cons_ne_nil _ _), (hback 4 10).1 ?_,
    (hscroll ⟨11, 40⟩ 10).1.2 ⟨⟨4, hhovered⟩, hscrolled⟩, ?_⟩
  · rw [hagain]
    exact List.mem_cons_self
  · refine Option.eq_none_iff_forall_ne_some.2 fun l hl => ?_
    obtain ⟨⟨a, ha⟩, -⟩ := (hscroll ⟨11, 40⟩ l).2.1 hl
    rw [hhovered] at ha
    cases ha

end CorrelationView

end TvmDebug
