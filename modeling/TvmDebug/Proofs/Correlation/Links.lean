import TvmDebug.Correlation.Group
import TvmDebug.Proofs.Correlation.Ascending
import TvmDebug.Proofs.Lines
/-! # What the links of a contract mean

A section links the line it was compiled from to the lines its instructions are printed at. A
section without instructions is linked to those of the next section that has some, unless it lies in
a library; `build_links` says so of the built correlation, for the sections of the whole mapping.

The sections are gone through in order, with the lines of those that wait. `Arises` tells the links
that the sections still to come make, for any lines that wait before them; `arises_cons_idle` and
`arises_cons_busy` say what the first of them adds. -/
set_option autoImplicit false

namespace TvmDebug

/-! ## Sections -/

namespace SectionInstructions

variable (instructions : SectionInstructions)

def Idle (id : SectionId) : Prop := (instructions.find? id).getD [] = []

/-- An instruction of the section is printed at the 1-based line `a`. -/
def PrintsAt (id : SectionId) (a : UInt32) : Prop :=
  ∃ is, instructions.find? id = some is ∧ ∃ i ∈ is, i.line.map (· + 1) = some a

variable {instructions}

theorem printsAt_iff {id : SectionId} {is : List Instruction}
    (h : (instructions.find? id).getD [] = is) (a : UInt32) :
    instructions.PrintsAt id a ↔ a ∈ is.filterMap fun i => i.line.map (· + 1) := by
  rw [PrintsAt, List.mem_filterMap]
  cases hf : instructions.find? id with
  | none => simp [← h, hf]
  | some is' =>
    obtain rfl : is' = is := by simpa [hf] using h
    simp

theorem not_printsAt_of_idle {id : SectionId} (h : instructions.Idle id) (a : UInt32) :
    ¬ instructions.PrintsAt id a := by
  rw [printsAt_iff h]
  exact List.not_mem_nil

theorem numbered_getD (h : instructions.Numbered) (id : SectionId) :
    ∀ i ∈ (instructions.find? id).getD [], i.line ≠ some lastLine := by
  intro i hi
  cases hf : instructions.find? id with
  | none => simp [hf] at hi
  | some is =>
    rw [hf] at hi
    exact h (id, is) ((instructions.find?_eq_some_iff id is).1 hf) i hi

end SectionInstructions

namespace LineGraph

/-! ## The links of sections still to come -/

section Sections
variable (markers : List String) (instructions : SectionInstructions)

/-- Section `s` of those given, after sections whose lines wait, is linked to source line `f`: its
own, that of a section waiting for it, or one that waited before. -/
def Feeds (waiting : List UInt32) (sections : List (SectionId × SourceLocation))
    (s : SectionId × SourceLocation) (f : UInt32) : Prop :=
  s.2.line = f ∨
    (∃ w ∈ sections, w.1 < s.1 ∧ instructions.Idle w.1 ∧ w.2.isExcluded markers = false ∧
      w.2.line = f ∧ ∀ x ∈ sections, w.1 < x.1 → x.1 < s.1 → instructions.Idle x.1) ∨
    (f ∈ waiting ∧ ∀ x ∈ sections, x.1 < s.1 → instructions.Idle x.1)

/-- The sections given, after sections whose lines wait, link `f` to `a`. -/
def Arises (waiting : List UInt32) (sections : List (SectionId × SourceLocation))
    (f a : UInt32) : Prop :=
  ∃ s ∈ sections, instructions.PrintsAt s.1 a ∧ Feeds markers instructions waiting sections s f

variable {markers instructions} {e : SectionId × SourceLocation}
variable {rest : List (SectionId × SourceLocation)}

/-- For the sections after it, the line of a section without instructions waits, or is that of a
library and does not. -/
theorem feeds_cons_idle (hidle : instructions.Idle e.1) {s : SectionId × SourceLocation}
    (hes : e.1 < s.1) (hhead : ∀ x ∈ rest, e.1 < x.1) (waiting : List UInt32) (f : UInt32) :
    Feeds markers instructions waiting (e :: rest) s f ↔
      Feeds markers instructions
        (if e.2.isExcluded markers then waiting else waiting ++ [e.2.line]) rest s f := by
  constructor
  · rintro (hline | ⟨w, hw, hlt, hwidle, hexcl, hline, hbetween⟩ | ⟨hwait, hbefore⟩)
    · exact .inl hline
    · rcases List.mem_cons.1 hw with rfl | hw
      · refine .inr (.inr ⟨?_, fun x hx hxs => ?_⟩)
        · simp [hexcl, hline]
        · exact hbetween x (List.mem_cons_of_mem _ hx) (hhead x hx) hxs
      · exact .inr (.inl ⟨w, hw, hlt, hwidle, hexcl, hline, fun x hx =>
          hbetween x (List.mem_cons_of_mem _ hx)⟩)
    · refine .inr (.inr ⟨?_, fun x hx => hbefore x (List.mem_cons_of_mem _ hx)⟩)
      split
      · exact hwait
      · exact List.mem_append_left _ hwait
  · rintro (hline | ⟨w, hw, hlt, hwidle, hexcl, hline, hbetween⟩ | ⟨hwait, hbefore⟩)
    · exact .inl hline
    · refine .inr (.inl ⟨w, List.mem_cons_of_mem _ hw, hlt, hwidle, hexcl, hline, ?_⟩)
      intro x hx hwx hxs
      rcases List.mem_cons.1 hx with rfl | hx
      · exact hidle
      · exact hbetween x hx hwx hxs
    · have hall : ∀ x ∈ e :: rest, x.1 < s.1 → instructions.Idle x.1 := by
        intro x hx hxs
        rcases List.mem_cons.1 hx with rfl | hx
        · exact hidle
        · exact hbefore x hx hxs
      -- A line that waits now waited before, or is that of the section itself.
      by_cases hexcl : e.2.isExcluded markers
      · rw [if_pos hexcl] at hwait
        exact .inr (.inr ⟨hwait, hall⟩)
      · rw [if_neg hexcl, List.mem_append, List.mem_singleton] at hwait
        rcases hwait with hwait | rfl
        · exact .inr (.inr ⟨hwait, hall⟩)
        · have hnot : e.2.isExcluded markers = false := by simpa using hexcl
          exact .inr (.inl ⟨e, List.mem_cons_self, hes, hidle, hnot, rfl,
            fun x hx _ => hall x hx⟩)

/-- A section with instructions ends the wait for those after it. -/
theorem feeds_cons_busy (hbusy : ¬ instructions.Idle e.1) {s : SectionId × SourceLocation}
    (hes : e.1 < s.1) (hhead : ∀ x ∈ rest, e.1 < x.1) (waiting : List UInt32) (f : UInt32) :
    Feeds markers instructions waiting (e :: rest) s f ↔
      Feeds markers instructions [] rest s f := by
  constructor
  · rintro (hline | ⟨w, hw, hlt, hwidle, hexcl, hline, hbetween⟩ | ⟨-, hbefore⟩)
    · exact .inl hline
    · rcases List.mem_cons.1 hw with rfl | hw
      · exact absurd hwidle hbusy
      · exact .inr (.inl ⟨w, hw, hlt, hwidle, hexcl, hline, fun x hx =>
          hbetween x (List.mem_cons_of_mem _ hx)⟩)
    · exact absurd (hbefore e List.mem_cons_self hes) hbusy
  · rintro (hline | ⟨w, hw, hlt, hwidle, hexcl, hline, hbetween⟩ | ⟨hwait, -⟩)
    · exact .inl hline
    · refine .inr (.inl ⟨w, List.mem_cons_of_mem _ hw, hlt, hwidle, hexcl, hline, ?_⟩)
      intro x hx hwx hxs
      rcases List.mem_cons.1 hx with rfl | hx
      · exact absurd (UInt32.lt_trans hwx (hhead w hw)) (UInt32.lt_irrefl _)
      · exact hbetween x hx hwx hxs
    · exact absurd hwait List.not_mem_nil

/-- The first section is linked to its own line and to those that waited. -/
theorem feeds_cons_self (hhead : ∀ x ∈ rest, e.1 < x.1) (waiting : List UInt32) (f : UInt32) :
    Feeds markers instructions waiting (e :: rest) e f ↔ f ∈ e.2.line :: waiting := by
  have hfirst : ∀ x ∈ e :: rest, ¬ x.1 < e.1 := by
    intro x hx hxe
    rcases List.mem_cons.1 hx with rfl | hx
    · exact UInt32.lt_irrefl _ hxe
    · exact UInt32.lt_irrefl _ (UInt32.lt_trans hxe (hhead x hx))
  rw [List.mem_cons]
  constructor
  · rintro (hline | ⟨w, hw, hlt, -⟩ | ⟨hwait, -⟩)
    · exact .inl hline.symm
    · exact absurd hlt (hfirst w hw)
    · exact .inr hwait
  · rintro (hline | hwait)
    · exact .inl hline.symm
    · exact .inr (.inr ⟨hwait, fun x hx hxe => absurd hxe (hfirst x hx)⟩)

/-- A section without instructions only waits, or is passed over. -/
theorem arises_cons_idle (hidle : instructions.Idle e.1) (hhead : ∀ x ∈ rest, e.1 < x.1)
    (waiting : List UInt32) (f a : UInt32) :
    Arises markers instructions waiting (e :: rest) f a ↔
      Arises markers instructions
        (if e.2.isExcluded markers then waiting else waiting ++ [e.2.line]) rest f a := by
  constructor
  · rintro ⟨s, hs, hprint, hfeeds⟩
    have hse : s ≠ e := by
      rintro rfl
      exact SectionInstructions.not_printsAt_of_idle hidle a hprint
    have hs : s ∈ rest := (List.mem_cons.1 hs).resolve_left hse
    exact ⟨s, hs, hprint, (feeds_cons_idle hidle (hhead s hs) hhead waiting f).1 hfeeds⟩
  · rintro ⟨s, hs, hprint, hfeeds⟩
    exact ⟨s, List.mem_cons_of_mem _ hs, hprint,
      (feeds_cons_idle hidle (hhead s hs) hhead waiting f).2 hfeeds⟩

/-- A section with instructions ends the wait; the lines that waited get its lines. -/
theorem arises_cons_busy (hbusy : ¬ instructions.Idle e.1) (hhead : ∀ x ∈ rest, e.1 < x.1)
    (waiting : List UInt32) (f a : UInt32) :
    Arises markers instructions waiting (e :: rest) f a ↔
      (instructions.PrintsAt e.1 a ∧ f ∈ e.2.line :: waiting) ∨
        Arises markers instructions [] rest f a := by
  constructor
  · rintro ⟨s, hs, hprint, hfeeds⟩
    rcases List.mem_cons.1 hs with rfl | hs
    · exact .inl ⟨hprint, (feeds_cons_self hhead waiting f).1 hfeeds⟩
    · exact .inr ⟨s, hs, hprint, (feeds_cons_busy hbusy (hhead s hs) hhead waiting f).1 hfeeds⟩
  · rintro (⟨hprint, hf⟩ | ⟨s, hs, hprint, hfeeds⟩)
    · exact ⟨e, List.mem_cons_self, hprint, (feeds_cons_self hhead waiting f).2 hf⟩
    · exact ⟨s, List.mem_cons_of_mem _ hs, hprint,
        (feeds_cons_busy hbusy (hhead s hs) hhead waiting f).2 hfeeds⟩

theorem mem_join {f a : UInt32} {funcs asms : List UInt32} :
    ⟨f, a⟩ ∈ join funcs asms ↔ a ∈ asms ∧ f ∈ funcs := by
  simp only [join, List.mem_flatMap, List.mem_map, Edge.mk.injEq]
  constructor
  · rintro ⟨a', ha, f', hf, rfl, rfl⟩
    exact ⟨ha, hf⟩
  · rintro ⟨ha, hf⟩
    exact ⟨a, ha, f, hf, rfl, rfl⟩

theorem edgesOf_ok (h : instructions.Numbered) {sections : List (SectionId × SourceLocation)}
    (hs : sections.Pairwise fun x y => x.1 < y.1) (waiting : List UInt32) :
    ∃ edges, edgesOf markers instructions waiting sections = .ok edges ∧
      ∀ f a, ⟨f, a⟩ ∈ edges ↔ Arises markers instructions waiting sections f a := by
  induction sections generalizing waiting with
  | nil => exact ⟨[], rfl, by simp [Arises]⟩
  | cons e rest ih =>
    obtain ⟨hhead, hrest⟩ := List.pairwise_cons.1 hs
    cases hl : (instructions.find? e.1).getD [] with
    | nil =>
      obtain ⟨edges, hok, hmem⟩ :=
        ih hrest (if e.2.isExcluded markers then waiting else waiting ++ [e.2.line])
      refine ⟨edges, ?_, fun f a => ?_⟩
      · simp only [edgesOf, hl, hok]
      · rw [hmem, arises_cons_idle hl hhead]
    | cons i is =>
      obtain ⟨edges, hok, hmem⟩ := ih hrest []
      have hbusy : ¬ instructions.Idle e.1 := by simp [SectionInstructions.Idle, hl]
      have hasms := Instruction.asmLines_eq (hl ▸ SectionInstructions.numbered_getD h e.1)
      refine ⟨join (e.2.line :: waiting) ((i :: is).filterMap fun i => i.line.map (· + 1)) ++ edges,
        ?_, fun f a => ?_⟩
      · simp only [edgesOf, hl, hasms, hok]
        rfl
      · rw [List.mem_append, mem_join, hmem, arises_cons_busy hbusy hhead,
          SectionInstructions.printsAt_iff hl]

end Sections

end LineGraph

/-! ## The links of a contract -/

section Contract
variable {mapping : FuncMapping} {instructions : SectionInstructions}

theorem pairwise_sections (mapping : FuncMapping) :
    mapping.entries.Pairwise fun x y => x.1 < y.1 :=
  mapping.ascending.imp Std.compare_eq_lt.1

theorem arises_entries_iff (markers : List String) (f a : UInt32) :
    LineGraph.Arises markers instructions [] mapping.entries f a ↔
      ∃ s location, mapping.find? s = some location ∧ instructions.PrintsAt s a ∧
        (location.line = f ∨
          ∃ w waiting, w < s ∧ mapping.find? w = some waiting ∧ waiting.line = f ∧
            instructions.Idle w ∧ waiting.isExcluded markers = false ∧
            ∀ x, w < x → x < s → (mapping.find? x).isSome → instructions.Idle x) := by
  constructor
  · rintro ⟨s, hs, hprint, hwhy⟩
    refine ⟨s.1, s.2, (mapping.find?_eq_some_iff _ _).2 hs, hprint, ?_⟩
    rcases hwhy with hline | ⟨w, hw, hlt, hidle, hexcl, hline, hbetween⟩ | ⟨hwait, -⟩
    · exact .inl hline
    · refine .inr ⟨w.1, w.2, hlt, (mapping.find?_eq_some_iff _ _).2 hw, hline, hidle, hexcl, ?_⟩
      intro x hwx hxs hx
      obtain ⟨location, hx⟩ := Option.isSome_iff_exists.1 hx
      exact hbetween (x, location) ((mapping.find?_eq_some_iff _ _).1 hx) hwx hxs
    · exact absurd hwait List.not_mem_nil
  · rintro ⟨s, location, hs, hprint, hwhy⟩
    refine ⟨(s, location), (mapping.find?_eq_some_iff _ _).1 hs, hprint, ?_⟩
    rcases hwhy with hline | ⟨w, waiting, hlt, hw, hline, hidle, hexcl, hbetween⟩
    · exact .inl hline
    · refine .inr (.inl ⟨(w, waiting), (mapping.find?_eq_some_iff _ _).1 hw, hlt, hidle, hexcl,
        hline, ?_⟩)
      intro x hx hwx hxs
      have hsome : mapping.find? x.1 = some x.2 := (mapping.find?_eq_some_iff _ _).2 hx
      exact hbetween x.1 hwx hxs (by rw [hsome]; rfl)

theorem ofDebugInfo_ok (h : instructions.Numbered) (markers : List String)
    (mapping : FuncMapping) :
    ∃ g, LineGraph.ofDebugInfo markers mapping instructions = .ok g ∧
      ∀ f a, ⟨f, a⟩ ∈ g.edges ↔
        LineGraph.Arises markers instructions [] mapping.entries f a := by
  obtain ⟨edges, hok, hmem⟩ := LineGraph.edgesOf_ok h (pairwise_sections mapping) []
  refine ⟨⟨edges⟩, ?_, hmem⟩
  rw [LineGraph.ofDebugInfo, hok]
  rfl

theorem build_eq {settings : CorrelationSettings} {g : LineGraph}
    (hg : LineGraph.ofDebugInfo settings.stdlibMarkers mapping instructions = .ok g) :
    Correlation.build mapping instructions settings =
      .ok (Correlation.ofGraph settings.palette g) := by
  rw [Correlation.build, hg]
  rfl

theorem build_ok (h : instructions.Numbered) (mapping : FuncMapping)
    (settings : CorrelationSettings) :
    ∃ c, Correlation.build mapping instructions settings = .ok c := by
  obtain ⟨g, hg, -⟩ := ofDebugInfo_ok h settings.stdlibMarkers mapping
  exact ⟨_, build_eq hg⟩

/-- **The links of a contract.** -/
theorem build_links (h : instructions.Numbered) (mapping : FuncMapping)
    (settings : CorrelationSettings) :
    ∃ c, Correlation.build mapping instructions settings = .ok c ∧
      (∀ f a, c.graph.Links f a ↔
        ∃ s location, mapping.find? s = some location ∧ instructions.PrintsAt s a ∧
          (location.line = f ∨
            ∃ w waiting, w < s ∧ mapping.find? w = some waiting ∧ waiting.line = f ∧
              instructions.Idle w ∧ waiting.isExcluded settings.stdlibMarkers = false ∧
              ∀ x, w < x → x < s → (mapping.find? x).isSome → instructions.Idle x)) ∧
      (∀ f a, c.graph.LinksBack a f ↔ c.graph.Links f a) ∧
      (∀ e ∈ c.graph.funcToAsm, e.2 ≠ []) ∧ (c.graph.funcToAsm.map Prod.fst).Pairwise (· < ·) ∧
      (∀ e ∈ c.graph.asmToFunc, e.2 ≠ []) ∧ (c.graph.asmToFunc.map Prod.fst).Pairwise (· < ·) := by
  obtain ⟨g, hg, hmem⟩ := ofDebugInfo_ok h settings.stdlibMarkers mapping
  refine ⟨Correlation.ofGraph settings.palette g, build_eq hg, fun f a => ?_, fun f a => ?_,
    fun e => LineGraph.ne_nil_of_mem_funcToAsm, ?_, fun e => LineGraph.ne_nil_of_mem_asmToFunc, ?_⟩
  · rw [LineGraph.links_iff, ← arises_entries_iff]
    exact hmem f a
  · rw [LineGraph.linksBack_iff, LineGraph.links_iff]
  · rw [LineGraph.keys_funcToAsm]
    exact pairwise_ascending _
  · rw [LineGraph.keys_asmToFunc]
    exact pairwise_ascending _

end Contract

/-! ## A call that was inlined -/

/-- Two calls without instructions, one of them into a library, before two sections that have
some. -/
def inlinedMapping : FuncMapping :=
  SortedMap.ofList [(1, .ofLine "main.fc" 4), (2, .ofLine "@stdlib/tvm-dicts" 90),
    (3, .ofLine "main.fc" 5), (4, .ofLine "main.fc" 9)]

def inlinedSections : SectionInstructions :=
  SortedMap.ofList [(3, [.atLine "NOP" 9, .atLine "NOP" 10]), (4, [.atLine "NOP" 30])]

theorem numbered_inlinedSections : inlinedSections.Numbered := by
  unfold SectionInstructions.Numbered inlinedSections
  decide

/-- The call from the file is linked to the lines printed after it. -/
theorem build_links_inlined :
    inlinedSections.Numbered ∧ ∃ c,
      Correlation.build inlinedMapping inlinedSections {} = .ok c ∧
        c.graph.Links 4 10 ∧ c.graph.LinksBack 10 4 := by
  obtain ⟨c, hc, hlinks, hback, -⟩ :=
    build_links numbered_inlinedSections inlinedMapping {}
  have hlink : c.graph.Links 4 10 := by
    refine (hlinks 4 10).2 ⟨3, .ofLine "main.fc" 5, rfl, ?_, .inr ?_⟩
    · exact ⟨_, rfl, .atLine "NOP" 9, List.mem_cons_self, rfl⟩
    · refine ⟨1, .ofLine "main.fc" 4, by decide, rfl, rfl, rfl, by decide, fun x h1 h3 _ => ?_⟩
      have h1 := UInt32.lt_iff_toNat_lt.1 h1
      have h3 := UInt32.lt_iff_toNat_lt.1 h3
      obtain rfl : x = 2 := UInt32.toNat_inj.1 (by simp at h1 h3 ⊢; omega)
      rfl
  exact ⟨numbered_inlinedSections, c, hc, hlink, (hback 4 10).2 hlink⟩

end TvmDebug
