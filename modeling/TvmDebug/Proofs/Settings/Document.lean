import TvmDebug.Proofs.Toml.Writer
import TvmDebug.Settings.Document
/-! # Settings are read from the document they were written to

A document of settings has two tables of two entries each (`Settings.entries`). Its lines are those
of a document, which defines these tables (`ofText?_toDocument`). From the tables the settings are
taken as they were (`ofEntries?_entries`). -/
set_option autoImplicit false

namespace TvmDebug

open Text Toml

/-! ## The lines of a document -/

/-- The table of the settings. -/
def CorrelationSettings.entries (s : CorrelationSettings) : Entries :=
  [("palette", .array (s.palette.map .string)),
    ("stdlib_markers", .array (s.stdlibMarkers.map .string))]

/-- The table of the settings. -/
def StepperSettings.entries (s : StepperSettings) : Entries :=
  [("transition_reset_ms", .integer (some s.transitionResetMs.toNat)),
    ("primary_source_file", .string s.primarySourceFile)]

/-- The tables of a document of settings. -/
def Settings.entries (s : Settings) : Entries :=
  [("correlation", .table .header s.correlation.entries),
    ("stepper", .table .header s.stepper.entries)]

/-- A table with its entries. -/
def tableItems (name : String) (es : Entries) : List Item :=
  .table [name] :: es.map fun e => .entry [e.1] e.2

def Settings.items (s : Settings) : List Item :=
  tableItems "correlation" s.correlation.entries ++ tableItems "stepper" s.stepper.entries

section Tables
variable {items : List Item} {text : List Char}

theorem isBareKey_of_all {key : String} (hne : key.toList ≠ [])
    (h : (key.toList.all fun c => decide (IsKeyChar c)) = true) : IsBareKey key :=
  ⟨hne, fun c hc => decide_eq_true_eq.mp (List.all_eq_true.1 h c hc)⟩

theorem CorrelationSettings.written_lines (s : CorrelationSettings) (h : Written items text) :
    Written (tableItems "correlation" s.entries ++ items)
      (header "correlation" ++ ((line "palette" (writeList s.palette)).toList ++
        ((line "stdlib_markers" (writeList s.stdlibMarkers)).toList ++ text))) := by
  have hpalette : IsBareKey "palette" := isBareKey_of_all (by decide) (by decide)
  have hmarkers : IsBareKey "stdlib_markers" := isBareKey_of_all (by decide) (by decide)
  exact written_header (isBareKey_of_all (by decide) (by decide))
    (written_line hpalette (valueText_writeList 79 s.palette)
      (written_line hmarkers (valueText_writeList 79 s.stdlibMarkers) h))

theorem StepperSettings.written_lines (s : StepperSettings) (h : Written items text) :
    Written (tableItems "stepper" s.entries ++ items)
      (header "stepper" ++
        ((line "transition_reset_ms" (String.ofList (digits s.transitionResetMs.toNat))).toList ++
          ((line "primary_source_file" (quote s.primarySourceFile)).toList ++ text))) := by
  have hresetKey : IsBareKey "transition_reset_ms" := isBareKey_of_all (by decide) (by decide)
  have hfileKey : IsBareKey "primary_source_file" := isBareKey_of_all (by decide) (by decide)
  have hreset : ValueText 80 (String.ofList (digits s.transitionResetMs.toNat)).toList
      (.integer (some s.transitionResetMs.toNat)) := by
    rw [String.toList_ofList]
    exact valueText_digits 80 (Nat.lt_trans s.transitionResetMs.toNat_lt (by decide))
  have hfile : ValueText 80 (quote s.primarySourceFile).toList (.string s.primarySourceFile) := by
    rw [quote, String.toList_ofList]
    exact valueText_quote 80 s.primarySourceFile
  exact written_header (isBareKey_of_all (by decide) (by decide))
    (written_line hresetKey hreset (written_line hfileKey hfile h))

end Tables

namespace Settings

variable (s : Settings)

theorem toDocument_toList :
    s.toDocument.toList =
      header "correlation" ++ ((line "palette" (writeList s.correlation.palette)).toList ++
        ((line "stdlib_markers" (writeList s.correlation.stdlibMarkers)).toList ++
          '\n' :: (header "stepper" ++ ((line "transition_reset_ms"
            (String.ofList (digits s.stepper.transitionResetMs.toNat))).toList ++
              ((line "primary_source_file" (quote s.stepper.primarySourceFile)).toList ++ []))))) := by
  have hfirst : "[correlation]\n".toList = header "correlation" := by decide
  have hsecond : "\n[stepper]\n".toList = '\n' :: header "stepper" := by decide
  unfold toDocument
  simp only [String.toList_append, hfirst, hsecond, List.append_assoc, List.cons_append,
    List.append_nil]

theorem written_toDocument : Written s.items s.toDocument.toList := by
  have hstepper := s.stepper.written_lines .nil
  rw [List.append_nil] at hstepper
  rw [toDocument_toList]
  exact s.correlation.written_lines (written_blank hstepper)

theorem ofText?_toDocument : ofText? s.toDocument = some s.entries := by
  have hdefines : DefinesTable (definitions [] s.items) s.entries :=
    s.written_toDocument.define_iff.2 rfl
  exact ofText?_eq_some_iff.2 ⟨[], _, _, .inl rfl, rfl, s.written_toDocument, hdefines⟩

/-! ## The settings of the tables -/

theorem texts?_strings (ss : List String) : texts? (.array (ss.map .string)) = some ss := by
  rw [texts?]
  induction ss with
  | nil => rfl
  | cons s ss ih => rw [List.map_cons, List.mapM_cons, ih, text?]; rfl

theorem uint64?_toNat (n : UInt64) : uint64? (.integer (some n.toNat)) = some n := by
  rw [uint64?, if_pos (Int.natCast_nonneg _), Int.toNat_natCast, toUInt64?_eq_some_iff]

theorem ofToml?_correlation (c : CorrelationSettings) :
    CorrelationSettings.ofToml? (.table .header c.entries) = some c := by
  have hgiven : settings? ["palette", "stdlib_markers"] (.table .header c.entries) =
      some [some (.array (c.palette.map .string)), some (.array (c.stdlibMarkers.map .string))] :=
    rfl
  simp only [CorrelationSettings.ofToml?, hgiven, Option.bind_eq_bind, Option.bind_some, orElse,
    texts?_strings]

theorem ofToml?_stepper (c : StepperSettings) :
    StepperSettings.ofToml? (.table .header c.entries) = some c := by
  have hgiven : settings? ["transition_reset_ms", "primary_source_file"]
      (.table .header c.entries) = some [some (.integer (some c.transitionResetMs.toNat)),
        some (.string c.primarySourceFile)] :=
    rfl
  simp only [StepperSettings.ofToml?, hgiven, Option.bind_eq_bind, Option.bind_some, orElse,
    uint64?_toNat, text?]

theorem ofEntries?_entries : ofEntries? s.entries = some s := by
  have hgiven : settings? ["correlation", "stepper"] (.table .header s.entries) =
      some [some (.table .header s.correlation.entries), some (.table .header s.stepper.entries)] :=
    rfl
  simp only [ofEntries?, hgiven, Option.bind_eq_bind, Option.bind_some, orElse,
    ofToml?_correlation, ofToml?_stepper]

/-- Settings are read from the document they are written to. -/
theorem ofDocument?_toDocument : ofDocument? s.toDocument = some s := by
  rw [ofDocument?, ofText?_toDocument, Option.bind_some, ofEntries?_entries]

end Settings

end TvmDebug
