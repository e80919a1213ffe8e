import Mathlib.Data.List.Nodup
import TvmDebug.Proofs.Stepper.Condense
/-! # First and last visits of a source line

The stops of a trace are one for each source line that it visits, at the last visit, in the order of
the first ones (`Condensed`). No other list is that (`Condensed.eq`), so that condensing is
described in full by the source lines that the steps resolve to (`condense_eq_ok_iff`).

The same stops come from a list of the lines in the order of their first visits and a map to their
last ones: a line of that list is always found in the map (`Visits.stops?_ofHits`). -/
set_option autoImplicit false

namespace TvmDebug

/-! ## Lines in order, and where they were visited last -/

/-- The lines visited, in the order of their first visits, and the last position of each. -/
structure Visits where
  order : List UInt32
  last : SortedMap UInt32 Nat

namespace Visits

def empty : Visits := ⟨[], SortedMap.empty⟩

/-- One more visit, after all others. -/
def add (v : Visits) (hit : UInt32 × Nat) : Visits where
  order := if (v.last.find? hit.1).isSome then v.order else v.order ++ [hit.1]
  last := v.last.insert hit.1 hit.2

def ofHits (hits : List (UInt32 × Nat)) : Visits := hits.foldl add empty

/-- Every line looked up in turn; none if one of them is not found. -/
def stops? (v : Visits) : Option (List SourceStop) :=
  v.order.mapM fun line => (v.last.find? line).map (⟨line, ·⟩)

/-- Both list the same lines, each visited last at the same position. -/
structure Agrees (v : Visits) (stops : List SourceStop) : Prop where
  nodup : (stops.map (·.line)).Nodup
  order : v.order = stops.map (·.line)
  last : ∀ line i, v.last.find? line = some i ↔ (⟨line, i⟩ : SourceStop) ∈ stops

variable {v : Visits} {stops : List SourceStop}

theorem nodup_putStop (h : (stops.map (·.line)).Nodup) (stop : SourceStop) :
    ((putStop stop stops).map (·.line)).Nodup := by
  rw [lines_putStop]
  split
  · exact h
  · next hnew =>
    rw [← List.concat_eq_append]
    exact List.Nodup.concat hnew h

theorem Agrees.isSome_iff (h : v.Agrees stops) (line : UInt32) :
    (v.last.find? line).isSome ↔ line ∈ stops.map (·.line) := by
  rw [Option.isSome_iff_exists, List.mem_map]
  constructor
  · rintro ⟨i, hi⟩
    exact ⟨⟨line, i⟩, (h.last line i).1 hi, rfl⟩
  · rintro ⟨stop, hstop, rfl⟩
    exact ⟨stop.stepIndex, (h.last _ _).2 hstop⟩

theorem Agrees.add (h : v.Agrees stops) (hit : UInt32 × Nat) :
    (v.add hit).Agrees (putStop ⟨hit.1, hit.2⟩ stops) where
  nodup := nodup_putStop h.nodup _
  order := by
    simp only [Visits.add, lines_putStop, h.isSome_iff, h.order]
  last := by
    intro line i
    simp only [Visits.add, SortedMap.insert, SortedMap.find?_upsert, mem_putStop_iff h.nodup]
    by_cases hline : line = hit.1
    · simp [hline, eq_comm]
    · simp [hline, h.last]

theorem agrees_ofHits (hits : List (UInt32 × Nat)) : (ofHits hits).Agrees (collapse hits) := by
  induction hits using List.reverseRecOn with
  | nil => exact ⟨List.nodup_nil, rfl, fun line i => by simp [ofHits, empty, collapse]⟩
  | append_singleton hits hit ih =>
    rw [ofHits, collapse, List.foldl_append, List.foldl_append]
    exact ih.add hit

/-- No line is looked up in vain. -/
theorem stops?_ofHits (hits : List (UInt32 × Nat)) :
    (ofHits hits).stops? = some (collapse hits) := by
  obtain ⟨-, horder, hlast⟩ := agrees_ofHits hits
  have hfound : ∀ stop ∈ collapse hits, (ofHits hits).last.find? stop.line = some stop.stepIndex :=
    fun stop hstop => (hlast stop.line stop.stepIndex).2 hstop
  rw [stops?, horder]
  generalize collapse hits = stops at hfound
  induction stops with
  | nil => rfl
  | cons stop stops ih =>
    obtain ⟨hstop, hstops⟩ := List.forall_mem_cons.1 hfound
    rw [List.map_cons, List.mapM_cons, hstop, ih hstops]
    rfl

end Visits

/-! ## What the stops are -/

/-- The line is visited first at position `i`. -/
def FirstVisit (ran : UInt32 → Nat → Prop) (line : UInt32) (i : Nat) : Prop :=
  ran line i ∧ ∀ j, ran line j → i ≤ j

/-- The line is visited last at position `i`. -/
def LastVisit (ran : UInt32 → Nat → Prop) (line : UInt32) (i : Nat) : Prop :=
  ran line i ∧ ∀ j, ran line j → j ≤ i

/-- One stop for each line that is visited, at the last visit, in the order of the first ones. -/
structure Condensed (ran : UInt32 → Nat → Prop) (stops : List SourceStop) : Prop where
  one : ∀ line, (∃ i, ran line i) ↔ ∃! stop, stop ∈ stops ∧ stop.line = line
  last : ∀ stop ∈ stops, LastVisit ran stop.line stop.stepIndex
  order : stops.Pairwise fun stop next =>
    ∃ i j, FirstVisit ran stop.line i ∧ FirstVisit ran next.line j ∧ i < j
  lines : (stops.map (·.line)).Nodup
  steps : (stops.map (·.stepIndex)).Nodup

section Condensed
variable {ran : UInt32 → Nat → Prop} {stops stops' : List SourceStop}

theorem FirstVisit.unique {line : UInt32} {i j : Nat} (hi : FirstVisit ran line i)
    (hj : FirstVisit ran line j) : i = j :=
  Nat.le_antisymm (hi.2 j hj.1) (hj.2 i hi.1)

theorem exists_firstVisit {line : UInt32} {i : Nat} (h : ran line i) :
    ∃ j, FirstVisit ran line j := by
  induction i using Nat.strongRecOn with
  | ind i ih =>
    by_cases hearlier : ∃ j, j < i ∧ ran line j
    · obtain ⟨j, hj, hran⟩ := hearlier
      exact ih j hj hran
    · exact ⟨i, h, fun j hj => Nat.le_of_not_lt fun hlt => hearlier ⟨j, hlt, hj⟩⟩

theorem Condensed.mem_iff (h : Condensed ran stops) {stop : SourceStop} :
    stop ∈ stops ↔ LastVisit ran stop.line stop.stepIndex := by
  refine ⟨h.last stop, fun hlast => ?_⟩
  obtain ⟨stop', ⟨hmem, hline⟩, -⟩ := (h.one stop.line).1 ⟨_, hlast.1⟩
  obtain ⟨hran, hall⟩ := hline ▸ h.last stop' hmem
  have hindex : stop'.stepIndex = stop.stepIndex :=
    Nat.le_antisymm (hlast.2 _ hran) (hall _ hlast.1)
  obtain ⟨line, i⟩ := stop
  obtain ⟨line', i'⟩ := stop'
  obtain rfl : line' = line := hline
  obtain rfl : i' = i := hindex
  exact hmem

/-- The description leaves no choice. -/
theorem Condensed.eq (h : Condensed ran stops) (h' : Condensed ran stops') : stops = stops' := by
  have hperm : stops.Perm stops' :=
    (List.perm_ext_iff_of_nodup (.of_map _ h.lines) (.of_map _ h'.lines)).2 fun _ =>
      h.mem_iff.trans h'.mem_iff.symm
  refine hperm.eq_of_pairwise (fun stop next _ _ hlt hgt => ?_) h.order h'.order
  obtain ⟨i, j, hi, hj, hij⟩ := hlt
  obtain ⟨j', i', hj', hi', hji⟩ := hgt
  rw [hi.unique hi', hj.unique hj'] at hij
  exact absurd hij (Nat.lt_asymm hji)

/-- Where a step visits one line only, stops of distinct lines stand for distinct steps. -/
theorem Collapsed.condensed (h : Collapsed ran stops)
    (hone : ∀ line line' i, ran line i → ran line' i → line = line') : Condensed ran stops where
  one := by
    intro line
    constructor
    · rintro ⟨i, hi⟩
      obtain ⟨stop, hstop, hline⟩ := List.mem_map.1 (h.cover line i hi)
      refine ⟨stop, ⟨hstop, hline⟩, fun stop' hstop' => ?_⟩
      exact List.inj_on_of_nodup_map h.nodup hstop'.1 hstop (hstop'.2.trans hline.symm)
    · rintro ⟨stop, ⟨hstop, rfl⟩, -⟩
      exact ⟨_, h.runs stop hstop⟩
  last := fun stop hstop => ⟨h.runs stop hstop, h.last stop hstop⟩
  order := by
    refine (List.pairwise_map.1 h.order).imp_of_mem fun {stop next} hstop hnext hbefore => ?_
    obtain ⟨i, hi, hlt⟩ := hbefore
    obtain ⟨first, hfirst⟩ := exists_firstVisit hi
    obtain ⟨first', hfirst'⟩ := exists_firstVisit (h.runs next hnext)
    exact ⟨first, first', hfirst, hfirst', Nat.lt_of_le_of_lt (hfirst.2 i hi) (hlt _ hfirst'.1)⟩
  lines := h.nodup
  steps := by
    refine List.pairwise_map.2 ((List.pairwise_map.1 h.nodup).imp_of_mem ?_)
    intro stop next hstop hnext hne heq
    exact hne (hone _ _ _ (h.runs stop hstop) (heq ▸ h.runs next hnext))

end Condensed

/-! ## The source line of a step -/

theorem SourceLocation.isInFile_iff {l : SourceLocation} {file : String} :
    l.isInFile file = true ↔ l.file = file ∨ ∃ path, l.file = path ++ "/" ++ file := by
  rw [isInFile, Bool.or_eq_true, beq_iff_eq, decide_eq_true_eq]
  refine or_congr_right ⟨?_, ?_⟩
  · rintro ⟨path, hpath⟩
    refine ⟨String.ofList path, String.toList_inj.1 ?_⟩
    simp [← hpath]
  · rintro ⟨path, hpath⟩
    exact ⟨path.toList, by simp [hpath]⟩

/-- Step `i` resolves to a line of `file`. The first section that prints the assembly line of the
step was compiled from that line, of the file itself or of one whose path ends with it. -/
def Trace.ResolvesTo (trace : Trace) (mapping : FuncMapping) (instructions : SectionInstructions)
    (file : String) (line : UInt32) (i : Nat) : Prop :=
  ∃ step a id location, trace.steps[i]? = some step ∧ step.line.map (· + 1) = some a ∧
    instructions.PrintsAt id a ∧ (∀ id', instructions.PrintsAt id' a → id ≤ id') ∧
    mapping.find? id = some location ∧ location.line = line ∧
    (location.file = file ∨ ∃ path, location.file = path ++ "/" ++ file)

section Resolve
variable {trace : Trace} {instructions : SectionInstructions} {mapping : FuncMapping}
variable {file : String} {line line' : UInt32} {i : Nat}

theorem Trace.executes_iff_resolvesTo :
    trace.Executes mapping instructions file i line ↔
      trace.ResolvesTo mapping instructions file line i := by
  constructor
  · rintro ⟨step, a, id, location, hstep, ha, ⟨hprints, hfirst⟩, hlocation, hfile, hline⟩
    exact ⟨step, a, id, location, hstep, ha, hprints, hfirst, hlocation, hline,
      SourceLocation.isInFile_iff.1 hfile⟩
  · rintro ⟨step, a, id, location, hstep, ha, hprints, hfirst, hlocation, hline, hfile⟩
    exact ⟨step, a, id, location, hstep, ha, ⟨hprints, hfirst⟩, hlocation,
      SourceLocation.isInFile_iff.2 hfile, hline⟩

theorem Trace.ResolvesTo.unique (h : trace.ResolvesTo mapping instructions file line i)
    (h' : trace.ResolvesTo mapping instructions file line' i) : line = line' := by
  obtain ⟨step, a, id, location, hstep, ha, hprints, hfirst, hlocation, rfl, -⟩ := h
  obtain ⟨step', a', id', location', hstep', ha', hprints', hfirst', hlocation', rfl, -⟩ := h'
  obtain rfl : step = step' := Option.some.inj (hstep.symm.trans hstep')
  obtain rfl : a = a' := Option.some.inj (ha.symm.trans ha')
  obtain rfl : id = id' := UInt32.le_antisymm (hfirst id' hprints') (hfirst' id hprints)
  rw [Option.some.inj (hlocation.symm.trans hlocation')]

/-- **The stops of a trace.** -/
theorem condense_eq_ok_iff (htrace : trace.Numbered) (hinstr : instructions.Numbered)
    (mapping : FuncMapping) (file : String) :
    (∃ stops, condense trace mapping instructions file = .ok stops) ∧
      ∀ stops, condense trace mapping instructions file = .ok stops ↔
        Condensed (trace.ResolvesTo mapping instructions file) stops := by
  obtain ⟨stops, hok⟩ := condense_ok htrace hinstr mapping file
  have hcollapsed := (condense_collapsed htrace hinstr hok).congr fun _ _ =>
    Trace.executes_iff_resolvesTo
  have hcondensed : Condensed (trace.ResolvesTo mapping instructions file) stops :=
    hcollapsed.condensed fun _ _ _ h h' => h.unique h'
  refine ⟨⟨stops, hok⟩, fun stops' => ⟨fun hok' => ?_, fun hcondensed' => ?_⟩⟩
  · obtain rfl := Except.ok.inj (hok.symm.trans hok')
    exact hcondensed
  · rw [hok, hcondensed.eq hcondensed']

end Resolve

/-! ## Sections that share lines -/

/-- Section 1 has no source location and prints a line of section 2. -/
def overlapSections : SectionInstructions :=
  SortedMap.ofList [(1, [.atLine "NOP" 9]), (2, [.atLine "NOP" 9, .atLine "NOP" 19]),
    (3, [.atLine "NOP" 29]), (4, [.atLine "NOP" 39])]

def overlapMapping : FuncMapping :=
  SortedMap.ofList [(2, .ofLine "main.tolk" 3), (3, .ofLine "src/main.tolk" 7),
    (4, .ofLine "domain.tolk" 5)]

def overlapTrace : Trace where
  steps := [29, 19, 9, 29, 39].map fun line => (Step.of "NOP" 18).withLine line

/-- Line 7 comes first although it is left last; step 2 is that of section 1, and step 4 lies in a
file whose name only ends like that of the other. -/
theorem condense_eq_ok_iff_overlap : overlapTrace.Numbered ∧ overlapSections.Numbered ∧
    Condensed (overlapTrace.ResolvesTo overlapMapping overlapSections "main.tolk")
      [⟨7, 3⟩, ⟨3, 1⟩] := by
  have htrace : overlapTrace.Numbered := by
    unfold Trace.Numbered
    decide
  have hsections : overlapSections.Numbered := by
    unfold SectionInstructions.Numbered
    decide
  obtain ⟨-, hiff⟩ := condense_eq_ok_iff htrace hsections overlapMapping "main.tolk"
  exact ⟨htrace, hsections, (hiff _).1 rfl⟩

end TvmDebug
