import Mathlib.Data.List.Perm.Subperm
import TvmDebug.Proofs.Correlation.Groups
import TvmDebug.Proofs.Memo
import TvmDebug.Proofs.Stepper.Visits
/-! # Which debug information has derived views

A correlation, the stops of a trace and a line index are found for all inputs in which the lines
that are read have a 1-based number (`derivedViews`). They do not read the same lines: a correlation
passes over the instructions of sections without a source location, stops do not.

The remaining operations that might stop them, remainders, list and map look-ups, are checked one by
one in `buildChecked` and `condenseChecked`. Neither is ever stopped by one. -/
set_option autoImplicit false

namespace TvmDebug

/-! ## Computations that fail in one way -/

/-- The computation has a result if `p` holds, and fails with `e` if not. -/
structure CompletesIff {ε α : Type} (x : Except ε α) (e : ε) (p : Prop) : Prop where
  completes : (∃ a, x = .ok a) ↔ p
  fails : x = .error e ↔ ¬ p

namespace CompletesIff

variable {ε α β : Type} {x : Except ε α} {e : ε} {p q : Prop}

theorem ok (a : α) (e : ε) (hp : p) : CompletesIff (.ok a) e p :=
  ⟨iff_of_true ⟨a, rfl⟩ hp, iff_of_false nofun (not_not_intro hp)⟩

theorem error (e : ε) (hp : ¬ p) : CompletesIff (.error e : Except ε α) e p :=
  ⟨iff_of_false nofun hp, iff_of_true rfl hp⟩

theorem congr (h : CompletesIff x e p) (hpq : p ↔ q) : CompletesIff x e q :=
  ⟨h.completes.trans hpq, h.fails.trans (not_congr hpq)⟩

theorem cases (h : CompletesIff x e p) : (p ∧ ∃ a, x = .ok a) ∨ (¬ p ∧ x = .error e) := by
  by_cases hp : p
  · exact .inl ⟨hp, h.completes.2 hp⟩
  · exact .inr ⟨hp, h.fails.2 hp⟩

/-- Both parts have to complete. -/
theorem bind (hx : CompletesIff x e p) {f : α → Except ε β}
    (hf : ∀ a, CompletesIff (f a) e q) : CompletesIff (x >>= f) e (p ∧ q) := by
  obtain ⟨hp, a, rfl⟩ | ⟨hp, rfl⟩ := hx.cases
  · exact (hf a).congr (and_iff_right hp).symm
  · exact .error e fun hpq => hp hpq.1

theorem map (hx : CompletesIff x e p) (f : α → β) : CompletesIff (x.map f) e p := by
  obtain ⟨hp, a, rfl⟩ | ⟨hp, rfl⟩ := hx.cases
  · exact .ok (f a) e hp
  · exact .error e hp

theorem mapM {f : α → Except ε β} {p : α → Prop} (h : ∀ a, CompletesIff (f a) e (p a))
    (as : List α) : CompletesIff (as.mapM f) e (∀ a ∈ as, p a) := by
  induction as with
  | nil => exact .ok [] e (List.forall_mem_nil p)
  | cons a as ih =>
    rw [List.mapM_cons, List.forall_mem_cons]
    exact (h a).bind fun b => ih.map (b :: ·)

end CompletesIff

/-! ## Numbering lines -/

theorem toNat_succ_lt_iff {line : UInt32} : line.toNat + 1 < UInt32.size ↔ line ≠ lastLine := by
  have hlt : line.toNat < UInt32.size := line.toNat_lt_size
  have hlast : lastLine.toNat + 1 = UInt32.size := rfl
  rw [Ne, ← UInt32.toNat_inj]
  omega

/-- A line is numbered if its number fits 32 bits. -/
theorem completesIff_oneBased (line : UInt32) :
    CompletesIff (oneBased line) .lineOverflow (line.toNat + 1 < UInt32.size) := by
  refine CompletesIff.congr ?_ toNat_succ_lt_iff.symm
  unfold oneBased
  split
  · next hlast => exact .error _ (not_not_intro hlast)
  · next hlast => exact .ok _ _ hlast

theorem completesIff_oneBased? (line : Option UInt32) :
    CompletesIff (oneBased? line) .lineOverflow (line ≠ some lastLine) := by
  cases line with
  | none => exact .ok none _ nofun
  | some line =>
    have hline := (completesIff_oneBased line).map some
    exact hline.congr (toNat_succ_lt_iff.trans (not_congr Option.some_inj.symm))

theorem completesIff_asmLines (steps : List Step) :
    CompletesIff (asmLines steps) .lineOverflow (∀ s ∈ steps, s.line ≠ some lastLine) := by
  have hstep : ∀ s : Step, CompletesIff s.asmLine .lineOverflow (s.line ≠ some lastLine) :=
    fun s => completesIff_oneBased? s.line
  exact .mapM hstep steps

theorem Instruction.completesIff_asmLines (is : List Instruction) :
    CompletesIff (Instruction.asmLines is) .lineOverflow (∀ i ∈ is, i.line ≠ some lastLine) := by
  have hinstr : ∀ i : Instruction, CompletesIff i.asmLine .lineOverflow (i.line ≠ some lastLine) :=
    fun i => completesIff_oneBased? i.line
  exact (CompletesIff.mapM hinstr is).map _

/-! ## Sections that are read -/

/-- No instruction of a section with a source location stands in the line without a number. -/
def SectionInstructions.NumberedIn (instructions : SectionInstructions) (mapping : FuncMapping) :
    Prop :=
  ∀ id ∈ mapping.keys, ∀ is, instructions.find? id = some is →
    ∀ i ∈ is, i.line ≠ some lastLine

theorem completesIff_edgesOf (markers : List String) (instructions : SectionInstructions)
    (waiting : List UInt32) (sections : List (SectionId × SourceLocation)) :
    CompletesIff (LineGraph.edgesOf markers instructions waiting sections) .lineOverflow
      (∀ e ∈ sections, ∀ i ∈ (instructions.find? e.1).getD [], i.line ≠ some lastLine) := by
  induction sections generalizing waiting with
  | nil => exact .ok [] _ (List.forall_mem_nil _)
  | cons e rest ih =>
    rw [List.forall_mem_cons, LineGraph.edgesOf]
    cases hread : (instructions.find? e.1).getD [] with
    | nil => exact (ih _).congr (and_iff_right (List.forall_mem_nil _)).symm
    | cons i is =>
      have hlines := Instruction.completesIff_asmLines (i :: is)
      exact hlines.bind fun asms => (ih []).map _

theorem completesIff_ownersOf (sections : List (SectionId × List Instruction)) :
    CompletesIff (ownersOf sections) .lineOverflow
      (∀ e ∈ sections, ∀ i ∈ e.2, i.line ≠ some lastLine) := by
  induction sections with
  | nil => exact .ok [] _ (List.forall_mem_nil _)
  | cons e rest ih =>
    rw [List.forall_mem_cons, ownersOf]
    exact (Instruction.completesIff_asmLines e.2).bind fun lines => ih.map _

/-- Only the instructions of the given sections are read. -/
theorem edgesOf_congr {instructions other : SectionInstructions} (markers : List String)
    (waiting : List UInt32) {sections : List (SectionId × SourceLocation)}
    (h : ∀ e ∈ sections, other.find? e.1 = instructions.find? e.1) :
    LineGraph.edgesOf markers other waiting sections =
      LineGraph.edgesOf markers instructions waiting sections := by
  induction sections generalizing waiting with
  | nil => rfl
  | cons e rest ih =>
    obtain ⟨he, hrest⟩ := List.forall_mem_cons.1 h
    simp only [LineGraph.edgesOf, he, fun waiting => ih waiting hrest]

/-! ## Every operation checked -/

/-- What can stop a computation in which every operation is checked. -/
inductive Failure where
  | fault (fault : Fault)
  | remainderByZero
  | indexOutOfRange
  | keyNotFound

def remainder (i n : Nat) : Except Failure Nat :=
  if n = 0 then .error .remainderByZero else .ok (i % n)

/-- What has been looked up, if it was found. -/
def found {α : Type} (failure : Failure) : Option α → Except Failure α
  | some x => .ok x
  | none => .error failure

def groupColorChecked (palette : List String) (i : Nat) : Except Failure String := do
  let colors := if palette.isEmpty then defaultPalette else palette
  let k ← remainder i colors.length
  found .indexOutOfRange colors[k]?

/-- The group of a cluster with its number. -/
def MappingGroup.ofClusterChecked (palette : List String) (c : Cluster × Nat) :
    Except Failure MappingGroup := do
  let color ← groupColorChecked palette c.2
  let k ← remainder c.2 classCount
  .ok ⟨c.1.funcLines, c.1.asmLines, color, "source-map-group-" ++ toString k⟩

def Correlation.buildChecked (mapping : FuncMapping) (instructions : SectionInstructions)
    (settings : CorrelationSettings) : Except Failure Correlation := do
  let g ← (LineGraph.ofDebugInfo settings.stdlibMarkers mapping instructions).mapError .fault
  let groups ← g.clusters.zipIdx.mapM (MappingGroup.ofClusterChecked settings.palette)
  .ok ⟨g, groups⟩

/-- Lines in order and a map to their last steps, every line of which is looked up. -/
def condenseChecked (trace : Trace) (mapping : FuncMapping) (instructions : SectionInstructions)
    (file : String) : Except Failure (List SourceStop) := do
  let owners ← (lineOwners instructions).mapError .fault
  let lines ← (asmLines trace.steps).mapError .fault
  let hits := located (lines.map fun line => line.bind (sourceLine? owners mapping file))
  found .keyNotFound (Visits.ofHits hits).stops?

theorem groupColorChecked_eq (palette : List String) (i : Nat) :
    groupColorChecked palette i = .ok (groupColor palette i) := by
  have hne : (if palette = [] then defaultPalette else palette).length ≠ 0 := by
    split
    · decide
    · next h => exact fun hnil => h (List.length_eq_zero_iff.1 hnil)
  have hcolor : (if palette = [] then defaultPalette else palette)[
      i % (if palette = [] then defaultPalette else palette).length]? =
      some (groupColor palette i) := Correlation.getElem?_colors palette i
  simp only [groupColorChecked, List.isEmpty_iff, remainder, if_neg hne]
  exact congrArg (found .indexOutOfRange) hcolor

theorem MappingGroup.ofClusterChecked_eq (palette : List String) :
    ofClusterChecked palette = fun c => pure (ofCluster palette c.1 c.2) := by
  funext c
  rw [ofClusterChecked, groupColorChecked_eq]
  rfl

theorem buildChecked_eq (mapping : FuncMapping) (instructions : SectionInstructions)
    (settings : CorrelationSettings) :
    Correlation.buildChecked mapping instructions settings =
      (Correlation.build mapping instructions settings).mapError .fault := by
  rw [Correlation.buildChecked, Correlation.build]
  cases LineGraph.ofDebugInfo settings.stdlibMarkers mapping instructions with
  | error f => rfl
  | ok g =>
    show (g.clusters.zipIdx.mapM (MappingGroup.ofClusterChecked settings.palette) >>=
      fun groups => .ok (⟨g, groups⟩ : Correlation)) = _
    rw [MappingGroup.ofClusterChecked_eq, List.mapM_pure]
    rfl

theorem condenseChecked_eq (trace : Trace) (mapping : FuncMapping)
    (instructions : SectionInstructions) (file : String) :
    condenseChecked trace mapping instructions file =
      (condense trace mapping instructions file).mapError .fault := by
  rw [condenseChecked, condense]
  cases lineOwners instructions with
  | error f => rfl
  | ok owners =>
    cases asmLines trace.steps with
    | error f => rfl
    | ok lines =>
      exact congrArg (found .keyNotFound) (Visits.stops?_ofHits _)

/-! ## How many groups there are -/

section Groups
variable {mapping : FuncMapping} {instructions : SectionInstructions}

/-- A link starts at the line of a section given, or at one that waits. -/
theorem func_mem_of_edgesOf {markers : List String} {waiting : List UInt32}
    {sections : List (SectionId × SourceLocation)} {edges : List Edge}
    (h : LineGraph.edgesOf markers instructions waiting sections = .ok edges) :
    ∀ e ∈ edges, e.func ∈ waiting ++ sections.map (·.2.line) := by
  induction sections generalizing waiting edges with
  | nil =>
    obtain rfl := Except.ok.inj h
    exact List.forall_mem_nil _
  | cons s rest ih =>
    intro e he
    cases hread : (instructions.find? s.1).getD [] with
    | nil =>
      simp only [LineGraph.edgesOf, hread] at h
      have hfunc := ih h e he
      split at hfunc
      · exact List.mem_append.2 ((List.mem_append.1 hfunc).imp_right (List.mem_cons_of_mem _))
      · rwa [List.append_assoc] at hfunc
    | cons i is =>
      simp only [LineGraph.edgesOf, hread] at h
      obtain ⟨asms, -, h⟩ := exists_of_bind_eq_ok h
      obtain ⟨later, hlater, h⟩ := exists_of_bind_eq_ok h
      obtain rfl := Except.ok.inj h
      obtain hown | hrest := List.mem_append.1 he
      · have hfunc := (LineGraph.mem_join.1 hown).2
        rw [List.map_cons, List.mem_append, List.mem_cons]
        exact (List.mem_cons.1 hfunc).elim (fun hline => .inr (.inl hline)) .inl
      · exact List.mem_append_right _ (List.mem_cons_of_mem _ (ih hlater e hrest))

/-- Every group has a source line of its own, and every such line a section. -/
theorem length_groups_le {settings : CorrelationSettings} {c : Correlation}
    (h : Correlation.build mapping instructions settings = .ok c) :
    c.groups.length ≤ mapping.size := by
  obtain ⟨g, hg, rfl⟩ := exists_of_map_eq_ok h
  obtain ⟨edges, hedges, rfl⟩ := exists_of_map_eq_ok hg
  have hsubset : (LineGraph.mk edges).funcLines ⊆ mapping.entries.map (·.2.line) := by
    intro line hline
    obtain ⟨a, he⟩ := LineGraph.mem_funcLines.1 hline
    exact func_mem_of_edgesOf hedges _ he
  have hnodup : (LineGraph.mk edges).funcLines.Nodup :=
    (pairwise_ascending _).imp UInt32.ne_of_lt
  calc (Correlation.ofGraph settings.palette ⟨edges⟩).groups.length
      = (LineGraph.mk edges).clusters.length := by
        rw [Correlation.ofGraph, List.length_map, List.length_zipIdx]
    _ ≤ (LineGraph.mk edges).funcLines.length := Search.length_clusters_le _ _ _ _
    _ ≤ (mapping.entries.map (·.2.line)).length := (hnodup.subperm hsubset).length_le
    _ = mapping.size := List.length_map _

end Groups

/-! ## The derived views -/

/-- Which inputs have a correlation, stops and a line index. A line without a number is all that can
stop one of them. -/
structure DerivedViews (mapping : FuncMapping) (instructions : SectionInstructions) (trace : Trace)
    (file : String) (settings : CorrelationSettings) : Prop where
  number : ∀ line, CompletesIff (oneBased line) .lineOverflow (line.toNat + 1 < UInt32.size)
  build : CompletesIff (Correlation.build mapping instructions settings) .lineOverflow
    (instructions.NumberedIn mapping)
  unread : ∀ other : SectionInstructions,
    (∀ id ∈ mapping.keys, other.find? id = instructions.find? id) →
      Correlation.build mapping other settings = Correlation.build mapping instructions settings
  buildChecked : Correlation.buildChecked mapping instructions settings =
    (Correlation.build mapping instructions settings).mapError .fault
  groups : ∀ c, Correlation.build mapping instructions settings = .ok c →
    c.groups.length ≤ mapping.size
  condense : CompletesIff (condense trace mapping instructions file) .lineOverflow
    (instructions.Numbered ∧ trace.Numbered)
  condenseChecked : condenseChecked trace mapping instructions file =
    (TvmDebug.condense trace mapping instructions file).mapError .fault
  stops : ∀ stops, TvmDebug.condense trace mapping instructions file = .ok stops →
    ∀ stop ∈ stops, stop.stepIndex < trace.steps.length
  lineIndex : CompletesIff (lineIndex trace.steps) .lineOverflow trace.Numbered
  positions : ∀ index, TvmDebug.lineIndex trace.steps = .ok index →
    ∀ line, ∀ i ∈ index.positions line, i < trace.steps.length

section Views
variable {mapping : FuncMapping} {instructions : SectionInstructions} {trace : Trace}

theorem numberedIn_iff : instructions.NumberedIn mapping ↔
    ∀ e ∈ mapping.entries, ∀ i ∈ (instructions.find? e.1).getD [], i.line ≠ some lastLine := by
  rw [SectionInstructions.NumberedIn, SortedMap.keys, List.forall_mem_map]
  refine forall₂_congr fun e _ => ?_
  cases instructions.find? e.1 with
  | none => exact iff_of_true nofun (List.forall_mem_nil _)
  | some is =>
    refine ⟨fun h => h is rfl, ?_⟩
    rintro h _ ⟨⟩
    exact h

theorem completesIff_build (settings : CorrelationSettings) :
    CompletesIff (Correlation.build mapping instructions settings) .lineOverflow
      (instructions.NumberedIn mapping) := by
  have hedges := completesIff_edgesOf settings.stdlibMarkers instructions [] mapping.entries
  exact ((hedges.map _).map _).congr numberedIn_iff.symm

theorem completesIff_condense (file : String) :
    CompletesIff (condense trace mapping instructions file) .lineOverflow
      (instructions.Numbered ∧ trace.Numbered) :=
  (completesIff_ownersOf instructions.entries).bind fun _ =>
    (completesIff_asmLines trace.steps).map _

theorem completesIff_lineIndex :
    CompletesIff (lineIndex trace.steps) .lineOverflow trace.Numbered :=
  (completesIff_asmLines trace.steps).map _

/-- **The inputs that have derived views.** -/
theorem derivedViews (mapping : FuncMapping) (instructions : SectionInstructions) (trace : Trace)
    (file : String) (settings : CorrelationSettings) :
    DerivedViews mapping instructions trace file settings where
  number := completesIff_oneBased
  build := completesIff_build settings
  unread := by
    intro other hother
    have hedges := edgesOf_congr settings.stdlibMarkers [] (List.forall_mem_map.1 hother)
    rw [Correlation.build, Correlation.build, LineGraph.ofDebugInfo, LineGraph.ofDebugInfo, hedges]
  buildChecked := buildChecked_eq mapping instructions settings
  groups := fun _ => length_groups_le
  condense := completesIff_condense file
  condenseChecked := condenseChecked_eq trace mapping instructions file
  stops := by
    intro stops hstops
    have hnumbered := (completesIff_condense file).completes.1 ⟨stops, hstops⟩
    exact (condense_stops hnumbered.2 hstops).1
  lineIndex := completesIff_lineIndex
  positions := by
    intro index hindex line i hi
    have hnumbered := completesIff_lineIndex.completes.1 ⟨index, hindex⟩
    obtain ⟨step, hstep, -⟩ := (mem_positions_lineIndex hnumbered hindex line i).1 hi
    exact (List.getElem?_eq_some_iff.1 hstep).1

end Views

def unlocatedMapping : FuncMapping := SortedMap.ofList [(1, .ofLine "main.tolk" 3)]

/-- Section 9 has no source location, and an instruction in the line without a number. -/
def unlocatedSections : SectionInstructions :=
  SortedMap.ofList [(1, [.atLine "NOP" 9]), (9, [.atLine "NOP" 4294967295])]

/-- Groups pass over such a section, stops do not. -/
example : (Correlation.build unlocatedMapping unlocatedSections {}).map (·.groups.length) = .ok 1 ∧
    condense ⟨[]⟩ unlocatedMapping unlocatedSections "main.tolk" = .error .lineOverflow := by
  decide

end TvmDebug
