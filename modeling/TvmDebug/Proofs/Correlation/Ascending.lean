import TvmDebug.Correlation.Graph
/-! # Ascending lists of lines

Putting lines into an ascending list keeps it strictly ascending and adds just these lines; the two
listings of a link graph hold exactly its links, under ascending lines. -/
set_option autoImplicit false

namespace TvmDebug

/-! ## Putting lines into a list -/

theorem mem_insertLine {l x : UInt32} {ls : List UInt32} :
    x ∈ insertLine l ls ↔ x = l ∨ x ∈ ls := by
  induction ls with
  | nil => simp [insertLine]
  | cons l' ls ih =>
    unfold insertLine
    split
    · rw [List.mem_cons]
    · split
      · next heq => simp [heq]
      · rw [List.mem_cons, ih, List.mem_cons, or_left_comm]

theorem pairwise_insertLine (l : UInt32) {ls : List UInt32} (h : ls.Pairwise (· < ·)) :
    (insertLine l ls).Pairwise (· < ·) := by
  induction ls with
  | nil => exact List.pairwise_singleton _ _
  | cons l' ls ih =>
    obtain ⟨hhead, hrest⟩ := List.pairwise_cons.1 h
    unfold insertLine
    split
    · next hlt =>
      refine List.pairwise_cons.2 ⟨fun x hx => ?_, h⟩
      rcases List.mem_cons.1 hx with rfl | hx
      · exact hlt
      · exact UInt32.lt_trans hlt (hhead x hx)
    · split
      · exact h
      · next hnlt hne =>
        refine List.pairwise_cons.2 ⟨fun x hx => ?_, ih hrest⟩
        rcases mem_insertLine.1 hx with rfl | hx
        · exact UInt32.lt_of_le_of_ne (UInt32.not_lt.1 hnlt) (Ne.symm hne)
        · exact hhead x hx

theorem mem_foldr_insertLine {x : UInt32} {ls init : List UInt32} :
    x ∈ ls.foldr insertLine init ↔ x ∈ ls ∨ x ∈ init := by
  induction ls with
  | nil => simp
  | cons l ls ih => rw [List.foldr_cons, mem_insertLine, ih, List.mem_cons, or_assoc]

theorem pairwise_foldr_insertLine (ls : List UInt32) {init : List UInt32}
    (h : init.Pairwise (· < ·)) : (ls.foldr insertLine init).Pairwise (· < ·) := by
  induction ls with
  | nil => exact h
  | cons l ls ih => exact pairwise_insertLine l ih

theorem mem_ascending {x : UInt32} {ls : List UInt32} : x ∈ ascending ls ↔ x ∈ ls := by
  simp [ascending, mem_foldr_insertLine]

theorem pairwise_ascending (ls : List UInt32) : (ascending ls).Pairwise (· < ·) :=
  pairwise_foldr_insertLine ls List.Pairwise.nil

/-! ## The two listings of a link graph -/

namespace LineGraph

variable (g : LineGraph)

/-- The listing by source line has `a` under `f`. -/
def Links (f a : UInt32) : Prop := ∃ as, (f, as) ∈ g.funcToAsm ∧ a ∈ as

/-- The listing by assembly line has `f` under `a`. -/
def LinksBack (a f : UInt32) : Prop := ∃ fs, (a, fs) ∈ g.asmToFunc ∧ f ∈ fs

variable {g}

theorem mem_funcLines {f : UInt32} : f ∈ g.funcLines ↔ ∃ a, ⟨f, a⟩ ∈ g.edges := by
  rw [funcLines, mem_ascending, List.mem_map]
  constructor
  · rintro ⟨⟨_, a⟩, he, rfl⟩
    exact ⟨a, he⟩
  · rintro ⟨a, he⟩
    exact ⟨⟨f, a⟩, he, rfl⟩

theorem mem_asmLines {a : UInt32} : a ∈ g.asmLines ↔ ∃ f, ⟨f, a⟩ ∈ g.edges := by
  rw [asmLines, mem_ascending, List.mem_map]
  constructor
  · rintro ⟨⟨f, _⟩, he, rfl⟩
    exact ⟨f, he⟩
  · rintro ⟨f, he⟩
    exact ⟨⟨f, a⟩, he, rfl⟩

theorem mem_asmLinesFor {f a : UInt32} : a ∈ g.asmLinesFor f ↔ ⟨f, a⟩ ∈ g.edges := by
  rw [asmLinesFor, mem_ascending, List.mem_map]
  constructor
  · rintro ⟨⟨f', a'⟩, hmem, rfl⟩
    obtain ⟨he, hf⟩ := List.mem_filter.1 hmem
    obtain rfl : f' = f := beq_iff_eq.1 hf
    exact he
  · intro he
    exact ⟨⟨f, a⟩, List.mem_filter.2 ⟨he, beq_self_eq_true f⟩, rfl⟩

theorem mem_funcLinesFor {f a : UInt32} : f ∈ g.funcLinesFor a ↔ ⟨f, a⟩ ∈ g.edges := by
  rw [funcLinesFor, mem_ascending, List.mem_map]
  constructor
  · rintro ⟨⟨f', a'⟩, hmem, rfl⟩
    obtain ⟨he, ha⟩ := List.mem_filter.1 hmem
    obtain rfl : a' = a := beq_iff_eq.1 ha
    exact he
  · intro he
    exact ⟨⟨f, a⟩, List.mem_filter.2 ⟨he, beq_self_eq_true a⟩, rfl⟩

theorem mem_funcToAsm {f : UInt32} {as : List UInt32} :
    (f, as) ∈ g.funcToAsm ↔ f ∈ g.funcLines ∧ g.asmLinesFor f = as := by
  rw [funcToAsm, List.mem_map]
  constructor
  · rintro ⟨f', hf, heq⟩
    obtain ⟨rfl, rfl⟩ := Prod.mk.inj heq
    exact ⟨hf, rfl⟩
  · rintro ⟨hf, rfl⟩
    exact ⟨f, hf, rfl⟩

theorem mem_asmToFunc {a : UInt32} {fs : List UInt32} :
    (a, fs) ∈ g.asmToFunc ↔ a ∈ g.asmLines ∧ g.funcLinesFor a = fs := by
  rw [asmToFunc, List.mem_map]
  constructor
  · rintro ⟨a', ha, heq⟩
    obtain ⟨rfl, rfl⟩ := Prod.mk.inj heq
    exact ⟨ha, rfl⟩
  · rintro ⟨ha, rfl⟩
    exact ⟨a, ha, rfl⟩

theorem links_iff {f a : UInt32} : g.Links f a ↔ ⟨f, a⟩ ∈ g.edges := by
  constructor
  · rintro ⟨as, hmem, ha⟩
    obtain ⟨-, rfl⟩ := mem_funcToAsm.1 hmem
    exact mem_asmLinesFor.1 ha
  · intro he
    exact ⟨_, mem_funcToAsm.2 ⟨mem_funcLines.2 ⟨a, he⟩, rfl⟩, mem_asmLinesFor.2 he⟩

theorem linksBack_iff {f a : UInt32} : g.LinksBack a f ↔ ⟨f, a⟩ ∈ g.edges := by
  constructor
  · rintro ⟨fs, hmem, hf⟩
    obtain ⟨-, rfl⟩ := mem_asmToFunc.1 hmem
    exact mem_funcLinesFor.1 hf
  · intro he
    exact ⟨_, mem_asmToFunc.2 ⟨mem_asmLines.2 ⟨f, he⟩, rfl⟩, mem_funcLinesFor.2 he⟩

theorem ne_nil_of_mem_funcToAsm {e : UInt32 × List UInt32} (h : e ∈ g.funcToAsm) : e.2 ≠ [] := by
  obtain ⟨hf, has⟩ := mem_funcToAsm.1 h
  obtain ⟨a, he⟩ := mem_funcLines.1 hf
  rw [← has]
  exact List.ne_nil_of_mem (mem_asmLinesFor.2 he)

theorem ne_nil_of_mem_asmToFunc {e : UInt32 × List UInt32} (h : e ∈ g.asmToFunc) : e.2 ≠ [] := by
  obtain ⟨ha, hfs⟩ := mem_asmToFunc.1 h
  obtain ⟨f, he⟩ := mem_asmLines.1 ha
  rw [← hfs]
  exact List.ne_nil_of_mem (mem_funcLinesFor.2 he)

theorem keys_funcToAsm : g.funcToAsm.map Prod.fst = g.funcLines := by
  simp [funcToAsm, Function.comp_def]

theorem keys_asmToFunc : g.asmToFunc.map Prod.fst = g.asmLines := by
  simp [asmToFunc, Function.comp_def]

end LineGraph

end TvmDebug
