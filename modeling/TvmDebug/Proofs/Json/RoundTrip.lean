import TvmDebug.DebugInfo.Form
import TvmDebug.ExitCode.Form
import TvmDebug.Log.Form
import TvmDebug.Proofs.CellMap
import TvmDebug.Proofs.Json.StackElement
import TvmDebug.Settings.Form
/-! # Reading undoes writing

`RoundTrips` says of the form of a type that the text of a value reads as the value, and that what
is read from any text is read again from its own text. For most types the first holds of every value
(`RoundTrips.of_flat`); stack elements, and what holds them, may nest too deep to be read
(`RoundTrips.of_depth`).

Each type has three small facts: its form is a written value, the form is read as the value, and, if
it may nest too deep, the form of what was read does not.

Records are also read from other spellings than those written. Their fields then decide what is
read (`records_readsByFields`). -/
set_option autoImplicit false

namespace TvmDebug

open Json

/-! ## Round trips -/

section RoundTrip
variable {α : Type}

def decodeText? (ofJson? : Json → Option α) (text : String) : Option α :=
  (Json.ofText? text).bind ofJson?

/-- Reading undoes writing, in any layout. -/
structure RoundTrips (toJson : α → Json) (ofJson? : Json → Option α) : Prop where
  written : ∀ v layout, (toJson v).depth ≤ textRoom →
    decodeText? ofJson? ((toJson v).text layout) = some v
  accepted : ∀ text v layout, decodeText? ofJson? text = some v →
    decodeText? ofJson? ((toJson v).text layout) = some v

variable {toJson : α → Json} {ofJson? : Json → Option α}

theorem decodeText?_text {j : Json} (h : IsWritten j) (layout : Layout)
    (ofJson? : Json → Option α) : decodeText? ofJson? (j.text layout) = ofJson? j := by
  rw [decodeText?, ofText?_text layout h, Option.bind_some]

theorem RoundTrips.of_depth (hwritten : ∀ v, IsWritten (toJson v))
    (hread : ∀ v, (toJson v).depth ≤ textRoom → ofJson? (toJson v) = some v)
    (hdepth : ∀ j v, ofJson? j = some v → (toJson v).depth ≤ textRoom) :
    RoundTrips toJson ofJson? where
  written v layout h := by
    rw [decodeText?_text (hwritten v), hread v h]
  accepted text v layout h := by
    obtain ⟨j, -, hj⟩ := Option.bind_eq_some_iff.1 h
    rw [decodeText?_text (hwritten v), hread v (hdepth j v hj)]

theorem RoundTrips.of_flat (hwritten : ∀ v, IsWritten (toJson v))
    (hread : ∀ v, ofJson? (toJson v) = some v) : RoundTrips toJson ofJson? where
  written v layout _ := by
    rw [decodeText?_text (hwritten v), hread v]
  accepted _ v layout _ := by
    rw [decodeText?_text (hwritten v), hread v]

end RoundTrip

/-! ## Fields that may be left out -/

section Optional
variable {α : Type} {fields : List (String × Json)} {name : String}

def optionalField (name : String) (value : Option Json) : List (String × Json) :=
  (value.map fun j => (name, j)).toList

theorem forall_mem_optionalField {P : Json → Prop} {g : α → Json} (h : ∀ x, P (g x))
    (x : Option α) : ∀ field ∈ optionalField name (x.map g), P field.2 := by
  cases x with
  | none => nofun
  | some x => simpa [optionalField] using h x

theorem nodup_append_optionalField (h : (fields.map Prod.fst ++ [name]).Nodup)
    (value : Option Json) : ((fields ++ optionalField name value).map Prod.fst).Nodup := by
  cases value with
  | none => simpa [optionalField] using (List.nodup_append.1 h).1
  | some j => simpa [optionalField] using h

@[simp] theorem lookup_optionalField (name : String) (value : Option Json) :
    (optionalField name value).lookup name = value := by
  cases value with
  | none => rfl
  | some j => simp [optionalField]

theorem nullable_map {f : Json → Option α} {g : α → Json} (h : ∀ x, f (g x) = some x)
    (hnull : ∀ x, g x ≠ .null) (x : Option α) : nullable f (x.map g) = some x := by
  cases x with
  | none => rfl
  | some x =>
    rw [Option.map_some, nullable.eq_3 f (g x) (hnull x), h]
    rfl

end Optional

/-! ## Lines -/

theorem isWritten_lineToJson (line : UInt32) : IsWritten (lineToJson line) :=
  isWritten_ofFields (by simp [isWritten_uint32])

theorem lineOfJson?_lineToJson (line : UInt32) : lineOfJson? (lineToJson line) = some line := by
  rw [lineOfJson?, lineToJson, fields?_ofFields (by simp)]
  simp [List.lookup_cons, required]

theorem depth_lineToJson (line : UInt32) : (lineToJson line).depth = 1 := by
  simp [lineToJson, ofFields, depth, depthMembers]

theorem locField_eq (line : Option UInt32) :
    locField line = optionalField "loc" (line.map lineToJson) := by
  cases line with
  | none => rfl
  | some line => rfl

theorem nullable_line (line : Option UInt32) :
    nullable lineOfJson? (line.map lineToJson) = some line :=
  nullable_map lineOfJson?_lineToJson nofun line

/-! ## Steps and traces -/

namespace Step

theorem isWritten_toJson (s : Step) : IsWritten s.toJson := by
  have hstack := isWritten_ofList fun e (_ : e ∈ s.stack) => e.isWritten_toJson
  rw [toJson, StackElement.array_itemsToJson, locField_eq]
  refine isWritten_ofFields (List.forall_mem_append.2
    ⟨?_, forall_mem_optionalField isWritten_lineToJson s.line⟩)
  simp [isWritten_ofString, isWritten_uint64, hstack]

theorem depth_toJson_le_iff {s : Step} {n : Nat} :
    s.toJson.depth ≤ n + 2 ↔ ∀ e ∈ s.stack, e.toJson.depth ≤ n := by
  have hline : ∀ field ∈ optionalField "loc" (s.line.map lineToJson), field.2.depth ≤ n + 1 :=
    forall_mem_optionalField (P := fun j => j.depth ≤ n + 1)
      (fun line => Nat.le_trans (Nat.le_of_eq (depth_lineToJson line)) (by omega)) s.line
  rw [toJson, StackElement.array_itemsToJson, locField_eq, depth_ofFields_le_iff,
    List.forall_mem_append, and_iff_left hline]
  simp [depth_ofList_le_iff]

theorem ofJson?_toJson {s : Step} {room : Nat} (h : s.toJson.depth ≤ room + 2) :
    ofJson? (room + 2) s.toJson = some s := by
  have hstack := list?_ofList fun e he =>
    StackElement.ofJson?_toJson (depth_toJson_le_iff.1 h e he)
  rw [ofJson?, toJson, StackElement.array_itemsToJson, locField_eq,
    fields?_ofFields (nodup_append_optionalField (by simp) _)]
  simp [List.lookup_cons, required, orElse, nullable_line, hstack]

theorem depth_toJson_of_ofJson? {j : Json} {s : Step} {room : Nat}
    (h : ofJson? (room + 2) j = some s) : s.toJson.depth ≤ room + 2 := by
  rw [ofJson?, Option.bind_eq_bind, Option.bind_eq_some_iff] at h
  obtain ⟨fields, -, h⟩ := h
  split at h
  · next _ stack' _ _ =>
    simp only [Option.bind_eq_bind, Option.bind_eq_some_iff] at h
    obtain ⟨name, -, stack, hstack, gas, -, line, -, h⟩ := h
    obtain rfl := Option.some.inj h
    refine depth_toJson_le_iff.2 fun e he => ?_
    cases stack' with
    | none =>
      obtain rfl := Option.some.inj hstack
      cases he
    | some j' =>
      obtain ⟨n, -, hread⟩ := exists_of_list? hstack
      obtain ⟨item, -, hitem⟩ := hread e he
      exact StackElement.depth_toJson_of_ofJson? hitem
  · cases h

end Step

namespace Trace

theorem isWritten_toJson (t : Trace) : IsWritten t.toJson :=
  isWritten_ofFields (by
    simpa using isWritten_ofList fun s (_ : s ∈ t.steps) => s.isWritten_toJson)

theorem depth_toJson_le_iff {t : Trace} {n : Nat} :
    t.toJson.depth ≤ n + 2 ↔ ∀ s ∈ t.steps, s.toJson.depth ≤ n := by
  rw [toJson, depth_ofFields_le_iff]
  simp [depth_ofList_le_iff]

theorem ofJson?_toJson {t : Trace} {room : Nat} (h : t.toJson.depth ≤ room + 4) :
    ofJson? (room + 4) t.toJson = some t := by
  have hsteps := list?_ofList fun s hs => Step.ofJson?_toJson (depth_toJson_le_iff.1 h s hs)
  rw [ofJson?, toJson, fields?_ofFields (by simp)]
  simp [List.lookup_cons, required, hsteps]

theorem depth_toJson_of_ofJson? {j : Json} {t : Trace} {room : Nat}
    (h : ofJson? (room + 4) j = some t) : t.toJson.depth ≤ room + 4 := by
  rw [ofJson?, Option.bind_eq_bind, Option.bind_eq_some_iff] at h
  obtain ⟨fields, -, h⟩ := h
  split at h
  · obtain ⟨steps, hsteps, rfl⟩ := Option.map_eq_some_iff.1 h
    obtain ⟨j', -, hlist⟩ := Option.bind_eq_some_iff.1 hsteps
    obtain ⟨n, -, hread⟩ := exists_of_list? hlist
    refine depth_toJson_le_iff.2 fun s hs => ?_
    obtain ⟨item, -, hitem⟩ := hread s hs
    exact Step.depth_toJson_of_ofJson? hitem
  · cases h

end Trace

/-! ## Debug information -/

namespace SourceLocation

theorem isWritten_toJson (l : SourceLocation) : IsWritten l.toJson :=
  isWritten_ofFields (by simp [isWritten_ofString, isWritten_uint32])

theorem ofJson?_toJson (l : SourceLocation) : ofJson? l.toJson = some l := by
  rw [ofJson?, toJson, fields?_ofFields (by simp)]
  simp [List.lookup_cons, required, orElse]

end SourceLocation

namespace Instruction

theorem toJson_eq (i : Instruction) :
    i.toJson = ofFields ([("name", ofString i.name)] ++
      optionalField "loc" (i.line.map lineToJson)) := by
  rw [toJson, locField_eq]
  rfl

theorem isWritten_toJson (i : Instruction) : IsWritten i.toJson := by
  rw [toJson_eq]
  refine isWritten_ofFields (List.forall_mem_append.2
    ⟨?_, forall_mem_optionalField isWritten_lineToJson i.line⟩)
  simp [isWritten_ofString]

theorem ofJson?_toJson (i : Instruction) : ofJson? i.toJson = some i := by
  rw [ofJson?, toJson_eq, fields?_ofFields (nodup_append_optionalField (by simp) _)]
  simp [List.lookup_cons, orElse, nullable_line]

end Instruction

theorem isWritten_sectionsToJson {α : Type} {f : α → Json} (h : ∀ x, IsWritten (f x))
    (m : SortedMap SectionId α) : IsWritten (sectionsToJson f m) :=
  isWritten_ofFields (List.forall_mem_map.2 fun e _ => h e.2)

namespace CellMap

theorem isWritten_entryToJson (e : CodeLocation × CellEntry) : IsWritten (entryToJson e) := by
  have his := isWritten_ofList fun i (_ : i ∈ e.2.instructions) => i.isWritten_toJson
  exact isWritten_ofFields (by simp [isWritten_ofString, isWritten_uint32, isWritten_uint64, his])

theorem entryOfJson?_entryToJson (e : CodeLocation × CellEntry) :
    entryOfJson? (entryToJson e) = some e := by
  have his := list?_ofList fun i (_ : i ∈ e.2.instructions) => i.ofJson?_toJson
  rw [entryOfJson?, entryToJson, fields?_ofFields (by simp)]
  simp [List.lookup_cons, required, his]

theorem isWritten_toJson (m : CellMap) : IsWritten m.toJson :=
  isWritten_ofList fun e _ => isWritten_entryToJson e

theorem ofJson?_toJson (m : CellMap) : ofJson? m.toJson = some m := by
  rw [ofJson?, toJson, list?_ofList fun e _ => entryOfJson?_entryToJson e, Option.map_some,
    ofEntries_toEntries]

end CellMap

/-! ## Logs and exit codes -/

namespace LogLine

theorem isWritten_toJson (line : LogLine) : IsWritten line.toJson := by
  cases line with
  | location hash offset =>
    exact isWritten_ofFields (by simp [isWritten_ofString, isWritten_uint32])
  | exception errno message =>
    exact isWritten_ofFields (by simp [isWritten_ofString, isWritten_int32])
  | unknown text => exact isWritten_ofFields (by simp [isWritten_ofString])

theorem depth_toJson (line : LogLine) : line.toJson.depth = 1 := by
  cases line <;> simp [toJson, ofFields, depth, depthMembers]

theorem ofJson?_toJson (line : LogLine) : ofJson? textRoom line.toJson = some line := by
  rw [ofJson?, isSpelledOut_of_isWritten line.isWritten_toJson, line.depth_toJson]
  cases line <;>
    simp [toJson, textRoom, decode?, tagged?_ofFields, fields?_ofFields, List.lookup_cons, required,
      orElse]

end LogLine

namespace ExitCode

theorem toJson_eq (e : ExitCode) :
    e.toJson = ofFields ([("num", ofInt e.num.toInt), ("description", ofString e.description)] ++
      optionalField "info" (e.info.map Instruction.toJson)) := by
  rw [toJson, optionalField, Option.map_map]
  rfl

theorem isWritten_toJson (e : ExitCode) : IsWritten e.toJson := by
  rw [toJson_eq]
  refine isWritten_ofFields (List.forall_mem_append.2
    ⟨?_, forall_mem_optionalField Instruction.isWritten_toJson e.info⟩)
  simp [isWritten_ofString, isWritten_int32]

theorem ofJson?_toJson (e : ExitCode) : ofJson? e.toJson = some e := by
  rw [ofJson?, toJson_eq, fields?_ofFields (nodup_append_optionalField (by simp) _)]
  simp [List.lookup_cons, required, nullable_map Instruction.ofJson?_toJson nofun]

end ExitCode

/-! ## Settings -/

theorem isWritten_texts (ss : List String) : IsWritten (ofList ofString ss) :=
  isWritten_ofList fun s _ => isWritten_ofString s

theorem list?_texts (ss : List String) : list? text? (ofList ofString ss) = some ss :=
  list?_ofList fun s _ => text?_ofString s

namespace CorrelationSettings

theorem isWritten_toJson (s : CorrelationSettings) : IsWritten s.toJson :=
  isWritten_ofFields (by simp [isWritten_texts])

theorem ofJson?_toJson (s : CorrelationSettings) : ofJson? s.toJson = some s := by
  rw [ofJson?, toJson, fields?_ofFields (by simp)]
  simp [List.lookup_cons, orElse, list?_texts]

end CorrelationSettings

namespace StepperSettings

theorem isWritten_toJson (s : StepperSettings) : IsWritten s.toJson :=
  isWritten_ofFields (by simp [isWritten_ofString, isWritten_uint64])

theorem ofJson?_toJson (s : StepperSettings) : ofJson? s.toJson = some s := by
  rw [ofJson?, toJson, fields?_ofFields (by simp)]
  simp [List.lookup_cons, orElse]

end StepperSettings

namespace Settings

theorem isWritten_toJson (s : Settings) : IsWritten s.toJson :=
  isWritten_ofFields (by simp [s.correlation.isWritten_toJson, s.stepper.isWritten_toJson])

theorem ofJson?_toJson (s : Settings) : ofJson? s.toJson = some s := by
  rw [ofJson?, toJson, fields?_ofFields (by simp)]
  simp [List.lookup_cons, orElse, s.correlation.ofJson?_toJson, s.stepper.ofJson?_toJson]

end Settings

/-! ## Every type -/

/-- **Reading undoes writing**, for all values that do not nest too deep to be read; and what is
read from any text, whichever way it is written, is read again from its own text. -/
theorem json_roundTrips :
    RoundTrips StackElement.toJson (StackElement.ofJson? textRoom) ∧
    (∀ (e : StackElement) (layout : Layout), textRoom < e.toJson.depth →
      decodeText? (StackElement.ofJson? textRoom) (e.toJson.text layout) = none) ∧
    RoundTrips Step.toJson (Step.ofJson? textRoom) ∧
    RoundTrips Trace.toJson (Trace.ofJson? textRoom) ∧
    RoundTrips SourceLocation.toJson SourceLocation.ofJson? ∧
    RoundTrips FuncMapping.toJson FuncMapping.ofJson? ∧
    RoundTrips Instruction.toJson Instruction.ofJson? ∧
    RoundTrips SectionInstructions.toJson SectionInstructions.ofJson? ∧
    RoundTrips CellMap.toJson CellMap.ofJson? ∧
    RoundTrips LogLine.toJson (LogLine.ofJson? textRoom) ∧
    RoundTrips ExitCode.toJson ExitCode.ofJson? ∧
    RoundTrips Settings.toJson Settings.ofJson? := by
  refine ⟨?_, ?_, ?_, ?_, ?_, ?_, ?_, ?_, ?_, ?_, ?_, ?_⟩
  · exact .of_depth StackElement.isWritten_toJson (fun e => StackElement.ofJson?_toJson)
      fun j e => StackElement.depth_toJson_of_ofJson?
  · intro e layout h
    rw [decodeText?_text e.isWritten_toJson, StackElement.ofJson?_eq_none h]
  · exact .of_depth Step.isWritten_toJson (fun s => Step.ofJson?_toJson)
      fun j s => Step.depth_toJson_of_ofJson?
  · exact .of_depth Trace.isWritten_toJson (fun s => Trace.ofJson?_toJson)
      fun j s => Trace.depth_toJson_of_ofJson?
  · exact .of_flat SourceLocation.isWritten_toJson SourceLocation.ofJson?_toJson
  · exact .of_flat (isWritten_sectionsToJson SourceLocation.isWritten_toJson) fun m =>
      sections?_ofFields fun e _ => e.2.ofJson?_toJson
  · exact .of_flat Instruction.isWritten_toJson Instruction.ofJson?_toJson
  · exact .of_flat (isWritten_sectionsToJson fun is => isWritten_ofList fun i _ =>
      i.isWritten_toJson) fun m => sections?_ofFields fun e _ => list?_ofList fun i _ =>
        i.ofJson?_toJson
  · exact .of_flat CellMap.isWritten_toJson CellMap.ofJson?_toJson
  · exact .of_flat LogLine.isWritten_toJson LogLine.ofJson?_toJson
  · exact .of_flat ExitCode.isWritten_toJson ExitCode.ofJson?_toJson
  · exact .of_flat Settings.isWritten_toJson Settings.ofJson?_toJson

/-! ## Other spellings -/

/-- **Whichever way a record is written, its fields decide what is read**, those left out being
the ones that its type has by default. A line or an instruction left out is `null`. -/
theorem records_readsByFields (room : Nat) :
    ReadsByFields (Step.ofJson? room) ["instructionName", "stack", "gasCost", "loc"]
      [none, some (ofList StackElement.toJson []), none, some .null] ∧
    ReadsByFields (Trace.ofJson? room) ["steps"] [none] ∧
    ReadsByFields SourceLocation.ofJson? ["file", "line", "pos", "length"]
      [none, none, some (ofNat 0), some (ofNat 0)] ∧
    ReadsByFields Instruction.ofJson? ["name", "loc"] [some (ofString ""), some .null] ∧
    ReadsByFields CellMap.entryOfJson? ["hash", "offset", "instructions", "index"]
      [none, none, none, none] ∧
    ReadsByFields ExitCode.ofJson? ["num", "description", "info"] [none, none, some .null] ∧
    ReadsByFields CorrelationSettings.ofJson? ["palette", "stdlib_markers"]
      [some (ofList ofString defaultPalette), some (ofList ofString stdlibMarkers)] ∧
    ReadsByFields StepperSettings.ofJson? ["transition_reset_ms", "primary_source_file"]
      [some (ofNat defaultResetMs.toNat), some (ofString defaultSourceFile)] ∧
    ReadsByFields Settings.ofJson? ["correlation", "stepper"]
      [some (CorrelationSettings.toJson {}), some (StepperSettings.toJson {})] := by
  refine ⟨?_, ?_, ?_, ?_, ?_, ?_, ?_, ?_, ?_⟩
  all_goals refine readsByFields_of (fun j => rfl) fun given hlength => ?_
  · obtain ⟨name, stack, gas, loc, rfl⟩ := List.length_eq_four.1 hlength
    have hstack : list? (StackElement.ofJson? (room - 2)) (ofList StackElement.toJson []) =
        some [] := list?_ofList nofun
    simp only [fillIn, List.zipWith, Option.or_none, orElse_or hstack, nullable_or]
  · obtain ⟨steps, rfl⟩ := List.length_eq_one_iff.1 hlength
    simp only [fillIn, List.zipWith, Option.or_none]
  · obtain ⟨file, line, pos, length, rfl⟩ := List.length_eq_four.1 hlength
    have hzero : (ofNat 0).uint32? = some 0 := uint32?_ofNat 0
    simp only [fillIn, List.zipWith, Option.or_none, orElse_or hzero]
  · obtain ⟨name, loc, rfl⟩ := List.length_eq_two.1 hlength
    simp only [fillIn, List.zipWith, orElse_or (text?_ofString ""), nullable_or]
  · obtain ⟨hash, offset, is, index, rfl⟩ := List.length_eq_four.1 hlength
    simp only [fillIn, List.zipWith, Option.or_none]
  · obtain ⟨num, description, info, rfl⟩ := List.length_eq_three.1 hlength
    simp only [fillIn, List.zipWith, Option.or_none, nullable_or]
  · obtain ⟨palette, markers, rfl⟩ := List.length_eq_two.1 hlength
    simp only [fillIn, List.zipWith, orElse_or (list?_texts _)]
  · obtain ⟨reset, file, rfl⟩ := List.length_eq_two.1 hlength
    simp only [fillIn, List.zipWith, orElse_or (uint64?_ofNat _), orElse_or (text?_ofString _)]
  · obtain ⟨correlation, stepper, rfl⟩ := List.length_eq_two.1 hlength
    simp only [fillIn, List.zipWith, orElse_or (CorrelationSettings.ofJson?_toJson {}),
      orElse_or (StepperSettings.ofJson?_toJson {})]

/-- The list of the fields of a location, without the last two. -/
example : decodeText? SourceLocation.ofJson? " [\"a.tolk\", 7]" = some (.ofLine "a.tolk" 7) := by
  cbv

end TvmDebug
