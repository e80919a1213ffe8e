import Mathlib.Data.List.Induction
import TvmDebug.Proofs.Correlation.Links
import TvmDebug.Stepper.Condense
/-! # The stops of a condensed trace

`Trace.Executes`: a step of the trace executes a source line, that of the first section printing the
line of the step. Condensing a trace with numbered lines cannot fail (`condense_ok`), and its stops
are the executed source lines in the order of their first executions, each with its last one
(`condense_collapsed`). A step executes one source line, so that no two stops share a step
(`condense_stops`). -/
set_option autoImplicit false

namespace TvmDebug

/-! ## Putting stops in their place -/

theorem lines_putStop (stop : SourceStop) (ss : List SourceStop) :
    (putStop stop ss).map (·.line) =
      if stop.line ∈ ss.map (·.line) then ss.map (·.line) else ss.map (·.line) ++ [stop.line] := by
  induction ss with
  | nil => rfl
  | cons s ss ih =>
    unfold putStop
    by_cases hs : s.line = stop.line
    · simp [hs]
    · have hne : ¬ stop.line = s.line := fun h => hs h.symm
      simp only [hs, if_false, List.map_cons, ih, List.mem_cons, hne, false_or]
      split <;> rfl

theorem mem_putStop_iff {stop s : SourceStop} {ss : List SourceStop}
    (h : (ss.map (·.line)).Nodup) :
    s ∈ putStop stop ss ↔ s = stop ∨ (s ∈ ss ∧ s.line ≠ stop.line) := by
  induction ss with
  | nil => simp [putStop]
  | cons s' ss ih =>
    obtain ⟨hhead, hrest⟩ := List.nodup_cons.1 h
    unfold putStop
    by_cases hs' : s'.line = stop.line
    · have hss : ∀ x ∈ ss, x.line ≠ stop.line := by
        intro x hx hline
        exact hhead (List.mem_map.2 ⟨x, hx, hline.trans hs'.symm⟩)
      rw [if_pos hs', List.mem_cons, List.mem_cons]
      constructor
      · rintro (hs | hs)
        · exact .inl hs
        · exact .inr ⟨.inr hs, hss s hs⟩
      · rintro (hs | ⟨rfl | hs, hne⟩)
        · exact .inl hs
        · exact absurd hs' hne
        · exact .inr hs
    · rw [if_neg hs', List.mem_cons, List.mem_cons, ih hrest]
      constructor
      · rintro (rfl | hs | ⟨hs, hne⟩)
        · exact .inr ⟨.inl rfl, hs'⟩
        · exact .inl hs
        · exact .inr ⟨.inr hs, hne⟩
      · rintro (hs | ⟨hs | hs, hne⟩)
        · exact .inr (.inl hs)
        · exact .inl hs
        · exact .inr (.inr ⟨hs, hne⟩)

/-- One stop for each line that ran, at the last time it did, in the order of the first times. -/
structure Collapsed (ran : UInt32 → Nat → Prop) (stops : List SourceStop) : Prop where
  runs : ∀ s ∈ stops, ran s.line s.stepIndex
  last : ∀ s ∈ stops, ∀ i, ran s.line i → i ≤ s.stepIndex
  cover : ∀ line i, ran line i → line ∈ stops.map (·.line)
  order : (stops.map (·.line)).Pairwise fun l l' => ∃ i, ran l i ∧ ∀ j, ran l' j → i < j

/-- The line of a stop runs once more, at its step. -/
def RanToo (ran : UInt32 → Nat → Prop) (stop : SourceStop) (line : UInt32) (i : Nat) : Prop :=
  ran line i ∨ (line = stop.line ∧ i = stop.stepIndex)

section Collapsed
variable {ran ran' : UInt32 → Nat → Prop} {stops : List SourceStop}

theorem Collapsed.congr (h : Collapsed ran stops) (hran : ∀ line i, ran line i ↔ ran' line i) :
    Collapsed ran' stops := by
  have heq : ran = ran' := by
    funext line i
    exact propext (hran line i)
  rwa [← heq]

theorem Collapsed.nodup (h : Collapsed ran stops) : (stops.map (·.line)).Nodup := by
  refine h.order.imp ?_
  rintro l l' ⟨i, hi, hbefore⟩ rfl
  exact Nat.lt_irrefl i (hbefore i hi)

theorem Collapsed.order_putStop (h : Collapsed ran stops) (stop : SourceStop)
    (hlate : ∀ line i, ran line i → i < stop.stepIndex) :
    ((putStop stop stops).map (·.line)).Pairwise fun l l' =>
      ∃ i, RanToo ran stop l i ∧ ∀ j, RanToo ran stop l' j → i < j := by
  -- A line that ran before has its first time before the new one.
  have hold : (stops.map (·.line)).Pairwise fun l l' =>
      ∃ i, RanToo ran stop l i ∧ ∀ j, RanToo ran stop l' j → i < j := by
    refine h.order.imp ?_
    rintro l l' ⟨i, hi, hbefore⟩
    refine ⟨i, .inl hi, fun j hj => ?_⟩
    obtain hj | ⟨-, rfl⟩ := hj
    · exact hbefore j hj
    · exact hlate l i hi
  rw [lines_putStop]
  split
  · exact hold
  · next hnew =>
    refine List.pairwise_append.2 ⟨hold, List.pairwise_singleton _ _, fun l hl l' hl' => ?_⟩
    obtain rfl := List.mem_singleton.1 hl'
    obtain ⟨s, hs, rfl⟩ := List.mem_map.1 hl
    refine ⟨s.stepIndex, .inl (h.runs s hs), fun j hj => ?_⟩
    obtain hj | ⟨-, rfl⟩ := hj
    · exact absurd (h.cover _ j hj) hnew
    · exact hlate _ _ (h.runs s hs)

/-- One more line runs, after all others. -/
theorem Collapsed.putStop (h : Collapsed ran stops) (stop : SourceStop)
    (hlate : ∀ line i, ran line i → i < stop.stepIndex) :
    Collapsed (RanToo ran stop) (putStop stop stops) := by
  have hmem : ∀ s, s ∈ TvmDebug.putStop stop stops → s = stop ∨ (s ∈ stops ∧ s.line ≠ stop.line) :=
    fun s hs => (mem_putStop_iff h.nodup).1 hs
  refine ⟨fun s hs => ?_, fun s hs i hi => ?_, fun line i hi => ?_, h.order_putStop stop hlate⟩
  · obtain rfl | ⟨hs, -⟩ := hmem s hs
    · exact .inr ⟨rfl, rfl⟩
    · exact .inl (h.runs s hs)
  · obtain rfl | ⟨hs, hne⟩ := hmem s hs
    · obtain hi | ⟨-, hi⟩ := hi
      · exact Nat.le_of_lt (hlate _ i hi)
      · exact Nat.le_of_eq hi
    · exact h.last s hs i (hi.resolve_right fun hi => hne hi.1)
  · rw [lines_putStop]
    obtain hi | ⟨rfl, -⟩ := hi
    · have hline := h.cover line i hi
      split
      · exact hline
      · exact List.mem_append_left _ hline
    · split
      · next hline => exact hline
      · exact List.mem_append_right _ (List.mem_singleton.2 rfl)

end Collapsed

theorem collapsed_collapse {hits : List (UInt32 × Nat)}
    (h : hits.Pairwise fun hit next => hit.2 < next.2) :
    Collapsed (fun line i => (line, i) ∈ hits) (collapse hits) := by
  -- The induction is on the last hit, because each stop is put among those of the hits before.
  induction hits using List.reverseRecOn with
  | nil => exact ⟨nofun, nofun, nofun, List.Pairwise.nil⟩
  | append_singleton hits hit ih =>
    obtain ⟨hhits, -, hlate⟩ := List.pairwise_append.1 h
    have hput : collapse (hits ++ [hit]) = putStop ⟨hit.1, hit.2⟩ (collapse hits) := by
      rw [collapse, List.foldl_append]
      rfl
    rw [hput]
    refine ((ih hhits).putStop ⟨hit.1, hit.2⟩ fun line i hi => ?_).congr fun line i => ?_
    · exact hlate (line, i) hi hit (List.mem_singleton.2 rfl)
    · rw [RanToo, List.mem_append, List.mem_singleton, Prod.ext_iff]

/-! ## The owner of an assembly line -/

namespace SectionInstructions

/-- The section is the first one with an instruction printed at `a`. -/
def Owns (instructions : SectionInstructions) (id : SectionId) (a : UInt32) : Prop :=
  instructions.PrintsAt id a ∧ ∀ id', instructions.PrintsAt id' a → id ≤ id'

end SectionInstructions

theorem lookup_sectionLines (lines : List UInt32) (id : SectionId) (a : UInt32) :
    (lines.map (·, id)).lookup a = if lines.contains a then some id else none := by
  induction lines with
  | nil => rfl
  | cons l lines ih =>
    rw [List.map_cons, List.lookup_cons, List.contains_cons, ih]
    by_cases hl : a = l
    · simp [hl]
    · have hne : (a == l) = false := beq_eq_false_iff_ne.2 hl
      rw [hne, Bool.false_or]

theorem ownersOf_ok {sections : List (SectionId × List Instruction)}
    (h : ∀ e ∈ sections, ∀ i ∈ e.2, i.line ≠ some lastLine) :
    ∃ owners, ownersOf sections = .ok owners ∧ ∀ a, owners.lookup a =
      (sections.find? fun e =>
        (e.2.filterMap fun i => i.line.map (· + 1)).contains a).map (·.1) := by
  induction sections with
  | nil => exact ⟨[], rfl, fun a => rfl⟩
  | cons e rest ih =>
    obtain ⟨owners, hok, hlookup⟩ := ih fun e' he' => h e' (List.mem_cons_of_mem _ he')
    have hlines := Instruction.asmLines_eq (h e List.mem_cons_self)
    refine ⟨(e.2.filterMap fun i => i.line.map (· + 1)).map (·, e.1) ++ owners, ?_, fun a => ?_⟩
    · unfold ownersOf
      rw [hlines, hok]
      rfl
    · rw [List.lookup_append, lookup_sectionLines, hlookup, List.find?_cons]
      cases (e.2.filterMap fun i => i.line.map (· + 1)).contains a <;> rfl

section Owners
variable {instructions : SectionInstructions}

theorem printsAt_iff_mem {id : SectionId} {a : UInt32} :
    instructions.PrintsAt id a ↔
      ∃ e ∈ instructions.entries, e.1 = id ∧ a ∈ e.2.filterMap fun i => i.line.map (· + 1) := by
  constructor
  · rintro ⟨is, hfind, i, hi, ha⟩
    exact ⟨(id, is), (instructions.find?_eq_some_iff id is).1 hfind, rfl,
      List.mem_filterMap.2 ⟨i, hi, ha⟩⟩
  · rintro ⟨⟨id, is⟩, hmem, rfl, ha⟩
    obtain ⟨i, hi, ha⟩ := List.mem_filterMap.1 ha
    exact ⟨is, (instructions.find?_eq_some_iff id is).2 hmem, i, hi, ha⟩

theorem owns_of_find? {e : SectionId × List Instruction} {a : UInt32}
    (h : (instructions.entries.find? fun e =>
      (e.2.filterMap fun i => i.line.map (· + 1)).contains a) = some e) :
    instructions.Owns e.1 a := by
  obtain ⟨hprints, before, after, hentries, hbefore⟩ := List.find?_eq_some_iff_append.1 h
  have hmem : e ∈ instructions.entries := List.mem_of_find?_eq_some h
  refine ⟨printsAt_iff_mem.2 ⟨e, hmem, rfl, List.contains_iff_mem.1 hprints⟩, fun id' hid' => ?_⟩
  obtain ⟨e', he', rfl, ha⟩ := printsAt_iff_mem.1 hid'
  have hsorted := instructions.ascending
  rw [hentries] at he' hsorted
  obtain he' | he' := List.mem_append.1 he'
  · have hnot := hbefore e' he'
    rw [List.contains_iff_mem.2 ha] at hnot
    cases hnot
  · obtain rfl | he' := List.mem_cons.1 he'
    · exact UInt32.le_refl _
    · have hlt := (List.pairwise_cons.1 (List.pairwise_append.1 hsorted).2.1).1 e' he'
      exact UInt32.le_of_lt (Std.compare_eq_lt.1 hlt)

theorem lineOwners_ok (h : instructions.Numbered) :
    ∃ owners, lineOwners instructions = .ok owners ∧
      ∀ a id, owners.lookup a = some id ↔ instructions.Owns id a := by
  obtain ⟨owners, hok, hlookup⟩ := ownersOf_ok h
  refine ⟨owners, hok, fun a id => ?_⟩
  rw [hlookup, Option.map_eq_some_iff]
  constructor
  · rintro ⟨e, hfind, rfl⟩
    exact owns_of_find? hfind
  · rintro ⟨hprints, hfirst⟩
    obtain ⟨e, he, -, ha⟩ := printsAt_iff_mem.1 hprints
    have hsome : (instructions.entries.find? fun e =>
        (e.2.filterMap fun i => i.line.map (· + 1)).contains a).isSome :=
      List.find?_isSome.2 ⟨e, he, List.contains_iff_mem.2 ha⟩
    obtain ⟨e', hfind⟩ := Option.isSome_iff_exists.1 hsome
    have howns := owns_of_find? hfind
    have hle : id ≤ e'.1 := hfirst e'.1 howns.1
    have hge : e'.1 ≤ id := howns.2 id hprints
    exact ⟨e', hfind, UInt32.le_antisymm hge hle⟩

end Owners

/-! ## Condensing -/

/-- Step `i` executes a source line of `file`: that of the section that owns the step's line. -/
def Trace.Executes (trace : Trace) (mapping : FuncMapping) (instructions : SectionInstructions)
    (file : String) (i : Nat) (line : UInt32) : Prop :=
  ∃ step a id location, trace.steps[i]? = some step ∧ step.line.map (· + 1) = some a ∧
    instructions.Owns id a ∧ mapping.find? id = some location ∧ location.isInFile file = true ∧
    location.line = line

section Condense
variable {trace : Trace} {instructions : SectionInstructions} {mapping : FuncMapping}
variable {file : String} {stops : List SourceStop}

theorem condense_ok (htrace : trace.Numbered) (hinstr : instructions.Numbered)
    (mapping : FuncMapping) (file : String) :
    ∃ stops, condense trace mapping instructions file = .ok stops := by
  obtain ⟨owners, hok, -⟩ := lineOwners_ok hinstr
  unfold condense
  rw [hok, asmLines_eq htrace]
  exact ⟨_, rfl⟩

theorem eq_collapse_of_condense (htrace : trace.Numbered)
    (h : condense trace mapping instructions file = .ok stops) :
    ∃ owners, lineOwners instructions = .ok owners ∧
      stops = collapse (located (trace.steps.map fun s =>
        (s.line.map (· + 1)).bind (sourceLine? owners mapping file))) := by
  unfold condense at h
  rw [asmLines_eq htrace] at h
  cases howners : lineOwners instructions with
  | error f => simp [howners, bind, Except.bind] at h
  | ok owners =>
    rw [howners] at h
    obtain rfl := Except.ok.inj h
    refine ⟨owners, rfl, ?_⟩
    rw [List.map_map]
    rfl

theorem sourceLine?_eq_some_iff {owners : List (UInt32 × SectionId)} {a line : UInt32} :
    sourceLine? owners mapping file a = some line ↔
      ∃ id location, owners.lookup a = some id ∧ mapping.find? id = some location ∧
        location.isInFile file = true ∧ location.line = line := by
  unfold sourceLine?
  constructor
  · intro h
    obtain ⟨id, hid, h⟩ := Option.bind_eq_some_iff.1 h
    obtain ⟨location, hlocation, h⟩ := Option.bind_eq_some_iff.1 h
    obtain ⟨hfile, hline⟩ := Option.ite_none_right_eq_some.1 h
    exact ⟨id, location, hid, hlocation, hfile, Option.some.inj hline⟩
  · rintro ⟨id, location, hid, hlocation, hfile, rfl⟩
    simp [hid, hlocation, hfile]

/-- The stops of a trace are the source lines that it executes. -/
theorem condense_collapsed (htrace : trace.Numbered) (hinstr : instructions.Numbered)
    (h : condense trace mapping instructions file = .ok stops) :
    Collapsed (fun line i => trace.Executes mapping instructions file i line) stops := by
  obtain ⟨owners, hok, hlookup⟩ := lineOwners_ok hinstr
  obtain ⟨owners', hok', rfl⟩ := eq_collapse_of_condense htrace h
  obtain rfl : owners = owners' := Except.ok.inj (hok.symm.trans hok')
  refine (collapsed_collapse (pairwise_located _)).congr fun line i => ?_
  rw [mem_located, List.getElem?_map, Option.map_eq_some_iff]
  constructor
  · rintro ⟨step, hstep, hline⟩
    obtain ⟨a, ha, hline⟩ := Option.bind_eq_some_iff.1 hline
    obtain ⟨id, location, hid, hlocation⟩ := sourceLine?_eq_some_iff.1 hline
    exact ⟨step, a, id, location, hstep, ha, (hlookup a id).1 hid, hlocation⟩
  · rintro ⟨step, a, id, location, hstep, ha, hid, hlocation⟩
    refine ⟨step, hstep, Option.bind_eq_some_iff.2 ⟨a, ha, ?_⟩⟩
    exact sourceLine?_eq_some_iff.2 ⟨id, location, (hlookup a id).2 hid, hlocation⟩

/-- The stops of a trace are steps of the trace, each for one stop. -/
theorem condense_stops (htrace : trace.Numbered)
    (h : condense trace mapping instructions file = .ok stops) :
    (∀ s ∈ stops, s.stepIndex < trace.steps.length) ∧
      stops.Pairwise fun s s' => s.stepIndex ≠ s'.stepIndex := by
  obtain ⟨owners, -, rfl⟩ := eq_collapse_of_condense htrace h
  have hcollapsed := collapsed_collapse (pairwise_located (trace.steps.map fun s =>
    (s.line.map (· + 1)).bind (sourceLine? owners mapping file)))
  constructor
  · intro s hs
    obtain ⟨hlt, -⟩ := List.getElem?_eq_some_iff.1 (mem_located.1 (hcollapsed.runs s hs))
    simpa using hlt
  · -- Two stops of one step would stand for one line.
    refine (List.pairwise_map.1 hcollapsed.nodup).imp_of_mem fun {s s'} hs hs' hne heq => hne ?_
    have hget := mem_located.1 (hcollapsed.runs s hs)
    have hget' := mem_located.1 (hcollapsed.runs s' hs')
    rw [heq, hget'] at hget
    exact (Option.some.inj (Option.some.inj hget)).symm

end Condense

end TvmDebug
