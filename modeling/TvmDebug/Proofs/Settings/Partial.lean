import TvmDebug.Proofs.Settings.File
/-! # Settings that are not given have their defaults

A document gives a setting by an entry of one of its two tables (`Settings.given?`). Each setting
that is given must have its type and then has that value, and each other one has its default
(`Settings.Merges`), whatever else stands in the document, as long as all numbers in it are known
(`Settings.ofEntries?_eq_some_iff`). Only settings that are read this way are checked for colors.
Since the texts that are read are those of the grammar, with the tables they define, this is what
loading comes to for every document (`Settings.load_partial`). -/
set_option autoImplicit false

namespace TvmDebug

open Text Toml

/-! ## Given values and defaults -/

namespace Toml

/-- The value is given and is `x`, or is not given and `x` is the default. -/
def Gives {α : Type} (Is : Toml → α → Prop) (d : α) : Option Toml → α → Prop
  | none, x => x = d
  | some v, x => Is v x

def IsText (v : Toml) (s : String) : Prop := v = .string s

def IsTexts (v : Toml) (ss : List String) : Prop := v = .array (ss.map .string)

def IsUInt64 (v : Toml) (n : UInt64) : Prop := v = .integer (some (n.toNat : Int))

/-- The entries of a table, and none if there is no table. -/
def entriesOf : Option Toml → Entries
  | some (.table _ entries) => entries
  | _ => []

def IsTableOrAbsent (v : Option Toml) : Prop :=
  ∀ x, v = some x → ∃ standing entries, x = .table standing entries

/-- All numbers are known but those under the names. -/
def KnownBeside (names : List String) (entries : Entries) : Prop :=
  ∀ e ∈ entries, e.1 ∉ names → e.2.isDefinite = true

instance (names : List String) (entries : Entries) : Decidable (KnownBeside names entries) :=
  inferInstanceAs (Decidable (∀ e ∈ entries, e.1 ∉ names → e.2.isDefinite = true))

section Values
variable {v : Toml} {names : List String} {entries : Entries} {standing : Standing}

theorem text?_eq_some_iff {s : String} : text? v = some s ↔ IsText v s := by
  cases v <;> simp [text?, IsText]

theorem mapM_text?_eq_some_iff {items : List Toml} {ss : List String} :
    items.mapM text? = some ss ↔ items = ss.map .string := by
  constructor
  · intro h
    induction items generalizing ss with
    | nil =>
      obtain rfl := Option.some.inj h
      rfl
    | cons v items ih =>
      rw [List.mapM_cons] at h
      obtain ⟨s, hs, h⟩ := Option.bind_eq_some_iff.1 h
      obtain ⟨ss', hss', h⟩ := Option.bind_eq_some_iff.1 h
      obtain rfl := Option.some.inj h
      rw [List.map_cons, ← ih hss', text?_eq_some_iff.1 hs]
  · rintro rfl
    exact Settings.texts?_strings ss

theorem texts?_eq_some_iff {ss : List String} : texts? v = some ss ↔ IsTexts v ss := by
  cases v <;> simp [texts?, IsTexts, mapM_text?_eq_some_iff]

theorem uint64?_eq_some_iff {n : UInt64} : uint64? v = some n ↔ IsUInt64 v n := by
  constructor
  · intro h
    unfold uint64? at h
    split at h
    · next i =>
      obtain ⟨hi, hn⟩ := Option.ite_none_right_eq_some.1 h
      rw [IsUInt64, ← Text.toUInt64?_eq_some_iff.1 hn, Int.toNat_of_nonneg hi]
    · cases h
  · rintro rfl
    exact Settings.uint64?_toNat n

theorem orElse_eq_some_iff {α : Type} {d x : α} {f : Toml → Option α} {Is : Toml → α → Prop}
    (h : ∀ v, f v = some x ↔ Is v x) (given : Option Toml) :
    orElse d f given = some x ↔ Gives Is d given x := by
  cases given with
  | none => exact Option.some_inj.trans eq_comm
  | some v => exact h v

theorem areEntriesDefinite_iff :
    areEntriesDefinite entries = true ↔ ∀ e ∈ entries, e.2.isDefinite = true := by
  induction entries with
  | nil => simp [areEntriesDefinite]
  | cons e entries ih => simp [areEntriesDefinite, ih]

theorem settings?_table (names : List String) (standing : Standing) (entries : Entries)
    (given : List (Option Toml)) :
    settings? names (.table standing entries) = some given ↔
      KnownBeside names entries ∧ given = names.map fun name => entries.lookup name := by
  have hknown : areEntriesDefinite (entries.filter fun e => !names.contains e.1) = true ↔
      KnownBeside names entries := by
    rw [areEntriesDefinite_iff]
    simp [KnownBeside, and_imp]
  rw [settings?, Option.ite_none_right_eq_some, hknown, Option.some_inj]
  exact and_congr_right fun _ => eq_comm

/-- Two settings are read from a table exactly when all else in it is known and each of them is
read. -/
theorem read_two_iff {α β γ : Type} {f : Option Toml → Option α} {g : Option Toml → Option β}
    {fst : γ → α} {snd : γ → β} (mk : α → β → γ)
    (hmk : ∀ a b c, mk a b = c ↔ a = fst c ∧ b = snd c) (name name' : String) (c : γ) :
    ((settings? [name, name'] (.table standing entries)).bind fun
      | [x, y] => (f x).bind fun a => (g y).bind fun b => some (mk a b)
      | _ => none) = some c ↔
      KnownBeside [name, name'] entries ∧ f (entries.lookup name) = some (fst c) ∧
        g (entries.lookup name') = some (snd c) := by
  rw [Option.bind_eq_some_iff]
  simp only [settings?_table]
  constructor
  · rintro ⟨given, ⟨hknown, rfl⟩, hread⟩
    obtain ⟨a, ha, hread⟩ := Option.bind_eq_some_iff.1 hread
    obtain ⟨b, hb, hread⟩ := Option.bind_eq_some_iff.1 hread
    obtain ⟨rfl, rfl⟩ := (hmk a b c).1 (Option.some.inj hread)
    exact ⟨hknown, ha, hb⟩
  · rintro ⟨hknown, ha, hb⟩
    refine ⟨_, ⟨hknown, rfl⟩, ?_⟩
    show ((f (entries.lookup name)).bind fun a => (g (entries.lookup name')).bind fun b =>
      some (mk a b)) = some c
    rw [ha, hb]
    exact congrArg some ((hmk _ _ c).2 ⟨rfl, rfl⟩)

end Values

end Toml

/-! ## Settings of a document -/

theorem CorrelationSettings.mk_eq_iff (palette markers : List String) (c : CorrelationSettings) :
    CorrelationSettings.mk palette markers = c ↔
      palette = c.palette ∧ markers = c.stdlibMarkers := by
  cases c
  exact CorrelationSettings.mk.injEq .. ▸ Iff.rfl

theorem StepperSettings.mk_eq_iff (reset : UInt64) (file : String) (c : StepperSettings) :
    StepperSettings.mk reset file = c ↔
      reset = c.transitionResetMs ∧ file = c.primarySourceFile := by
  cases c
  exact StepperSettings.mk.injEq .. ▸ Iff.rfl

section Tables
variable {v : Option Toml}

/-- An absent table gives as much as one without entries. -/
theorem CorrelationSettings.read_iff (h : IsTableOrAbsent v) {c : CorrelationSettings} :
    orElse {} CorrelationSettings.ofToml? v = some c ↔
      KnownBeside ["palette", "stdlib_markers"] (entriesOf v) ∧
        Gives IsTexts defaultPalette ((entriesOf v).lookup "palette") c.palette ∧
        Gives IsTexts TvmDebug.stdlibMarkers ((entriesOf v).lookup "stdlib_markers")
          c.stdlibMarkers := by
  rw [← orElse_eq_some_iff fun _ => texts?_eq_some_iff,
    ← orElse_eq_some_iff fun _ => texts?_eq_some_iff]
  cases v with
  | none =>
    refine Iff.trans ?_ (and_iff_right nofun).symm
    exact Option.some_inj.trans ((CorrelationSettings.mk_eq_iff _ _ c).trans
      (and_congr Option.some_inj.symm Option.some_inj.symm))
  | some v =>
    obtain ⟨standing, entries, rfl⟩ := h v rfl
    exact read_two_iff CorrelationSettings.mk CorrelationSettings.mk_eq_iff _ _ c

theorem StepperSettings.read_iff (h : IsTableOrAbsent v) {c : StepperSettings} :
    orElse {} StepperSettings.ofToml? v = some c ↔
      KnownBeside ["transition_reset_ms", "primary_source_file"] (entriesOf v) ∧
        Gives IsUInt64 defaultResetMs ((entriesOf v).lookup "transition_reset_ms")
          c.transitionResetMs ∧
        Gives IsText defaultSourceFile ((entriesOf v).lookup "primary_source_file")
          c.primarySourceFile := by
  rw [← orElse_eq_some_iff fun _ => uint64?_eq_some_iff,
    ← orElse_eq_some_iff fun _ => text?_eq_some_iff]
  cases v with
  | none =>
    refine Iff.trans ?_ (and_iff_right nofun).symm
    exact Option.some_inj.trans ((StepperSettings.mk_eq_iff _ _ c).trans
      (and_congr Option.some_inj.symm Option.some_inj.symm))
  | some v =>
    obtain ⟨standing, entries, rfl⟩ := h v rfl
    exact read_two_iff StepperSettings.mk StepperSettings.mk_eq_iff _ _ c

end Tables

namespace Settings

/-- What a document gives for a setting. -/
def given? (root : Entries) (table name : String) : Option Toml :=
  (entriesOf (root.lookup table)).lookup name

/-- Where settings are looked for there are tables, or nothing. -/
structure HasTables (root : Entries) : Prop where
  correlation : IsTableOrAbsent (root.lookup "correlation")
  stepper : IsTableOrAbsent (root.lookup "stepper")

/-- All numbers are known but those of settings. -/
structure Known (root : Entries) : Prop where
  top : KnownBeside ["correlation", "stepper"] root
  correlation : KnownBeside ["palette", "stdlib_markers"] (entriesOf (root.lookup "correlation"))
  stepper : KnownBeside ["transition_reset_ms", "primary_source_file"]
    (entriesOf (root.lookup "stepper"))

/-- Each setting that is given has its type. -/
structure WellTyped (root : Entries) : Prop where
  palette : ∀ v, given? root "correlation" "palette" = some v → ∃ ss, IsTexts v ss
  stdlibMarkers : ∀ v, given? root "correlation" "stdlib_markers" = some v → ∃ ss, IsTexts v ss
  transitionResetMs : ∀ v, given? root "stepper" "transition_reset_ms" = some v → ∃ n, IsUInt64 v n
  primarySourceFile : ∀ v, given? root "stepper" "primary_source_file" = some v → ∃ s, IsText v s

/-- Each setting is as given, or has its default. -/
structure Merges (root : Entries) (s : Settings) : Prop where
  palette : Gives IsTexts defaultPalette (given? root "correlation" "palette")
    s.correlation.palette
  stdlibMarkers : Gives IsTexts TvmDebug.stdlibMarkers (given? root "correlation" "stdlib_markers")
    s.correlation.stdlibMarkers
  transitionResetMs : Gives IsUInt64 defaultResetMs (given? root "stepper" "transition_reset_ms")
    s.stepper.transitionResetMs
  primarySourceFile : Gives IsText defaultSourceFile (given? root "stepper" "primary_source_file")
    s.stepper.primarySourceFile

variable {root : Entries} {s : Settings}

theorem mk_eq_iff (correlation : CorrelationSettings) (stepper : StepperSettings) (s : Settings) :
    Settings.mk correlation stepper = s ↔ correlation = s.correlation ∧ stepper = s.stepper := by
  cases s
  exact Settings.mk.injEq .. ▸ Iff.rfl

theorem ofEntries?_eq_some_iff (h : HasTables root) :
    ofEntries? root = some s ↔ Known root ∧ Merges root s := by
  have hread : ofEntries? root = some s ↔ KnownBeside ["correlation", "stepper"] root ∧
      orElse {} CorrelationSettings.ofToml? (root.lookup "correlation") = some s.correlation ∧
      orElse {} StepperSettings.ofToml? (root.lookup "stepper") = some s.stepper :=
    read_two_iff Settings.mk mk_eq_iff _ _ s
  rw [hread, CorrelationSettings.read_iff h.correlation, StepperSettings.read_iff h.stepper]
  constructor
  · rintro ⟨htop, ⟨hcorrelation, hpalette, hmarkers⟩, hstepper, hreset, hfile⟩
    exact ⟨⟨htop, hcorrelation, hstepper⟩, hpalette, hmarkers, hreset, hfile⟩
  · rintro ⟨⟨htop, hcorrelation, hstepper⟩, hpalette, hmarkers, hreset, hfile⟩
    exact ⟨htop, ⟨hcorrelation, hpalette, hmarkers⟩, hstepper, hreset, hfile⟩

theorem exists_gives_iff {α : Type} {Is : Toml → α → Prop} {d : α} {given : Option Toml} :
    (∃ x, Gives Is d given x) ↔ ∀ v, given = some v → ∃ x, Is v x := by
  cases given with
  | none => simp [Gives]
  | some v => simp [Gives]

theorem exists_merges_iff : (∃ s, Merges root s) ↔ WellTyped root := by
  constructor
  · rintro ⟨s, h⟩
    exact ⟨exists_gives_iff.1 ⟨_, h.palette⟩, exists_gives_iff.1 ⟨_, h.stdlibMarkers⟩,
      exists_gives_iff.1 ⟨_, h.transitionResetMs⟩, exists_gives_iff.1 ⟨_, h.primarySourceFile⟩⟩
  · intro h
    obtain ⟨palette, hpalette⟩ := exists_gives_iff.2 h.palette
    obtain ⟨markers, hmarkers⟩ := exists_gives_iff.2 h.stdlibMarkers
    obtain ⟨reset, hreset⟩ := exists_gives_iff.2 h.transitionResetMs
    obtain ⟨file, hfile⟩ := exists_gives_iff.2 h.primarySourceFile
    exact ⟨⟨⟨palette, markers⟩, ⟨reset, file⟩⟩, hpalette, hmarkers, hreset, hfile⟩

/-- Only a palette that is given can be empty. -/
theorem Merges.palette_eq_nil_iff (h : Merges root s) :
    s.correlation.palette = [] ↔ given? root "correlation" "palette" = some (.array []) := by
  have hpalette := h.palette
  cases hgiven : given? root "correlation" "palette" with
  | none =>
    rw [hgiven] at hpalette
    have hdefault : s.correlation.palette = defaultPalette := hpalette
    simp [hdefault, defaultPalette]
  | some v =>
    rw [hgiven] at hpalette
    obtain rfl : v = .array (s.correlation.palette.map .string) := hpalette
    simp

/-! ## Loading -/

/-- What loading a document comes to. -/
structure LoadsAs (root : Entries) (result : Except String Settings) : Prop where
  loads : (∃ s, result = .ok s) ↔ Known root ∧ WellTyped root ∧
    given? root "correlation" "palette" ≠ some (.array [])
  merges : ∀ s, result = .ok s → Merges root s
  malformed : result = .error "Failed to parse config file as TOML" ↔
    ¬ (Known root ∧ WellTyped root)
  noColor : result = .error "correlation.palette must contain at least one color" ↔
    Known root ∧ WellTyped root ∧ given? root "correlation" "palette" = some (.array [])

theorem load_text (path text : String) : load path (some text.toUTF8) = parse text := by
  rw [load, Option.bind_some, fromUTF8?_toUTF8]

theorem parse_of_read {text : String} (hread : ofDocument? text = some s) :
    (parse text).mapError SettingsError.message =
      if s.correlation.palette = [] then
        .error "correlation.palette must contain at least one color"
      else .ok s := by
  rw [parse, hread]
  show s.validate.mapError SettingsError.message = _
  rw [validate_eq]
  split <;> rfl

/-- The document decides what is loaded. -/
theorem loadsAs_of_isDocument {text : String} (htext : IsDocument text root)
    (h : HasTables root) : LoadsAs root ((parse text).mapError SettingsError.message) := by
  have hdocument : ofDocument? text = ofEntries? root := by
    rw [ofDocument?, ofText?_eq_some_iff.2 htext, Option.bind_some]
  cases hread : ofEntries? root with
  | none =>
    have hmissing : ¬ (Known root ∧ WellTyped root) := by
      rintro ⟨hknown, htyped⟩
      obtain ⟨s, hs⟩ := exists_merges_iff.2 htyped
      rw [(ofEntries?_eq_some_iff h).2 ⟨hknown, hs⟩] at hread
      cases hread
    have hresult : (parse text).mapError SettingsError.message =
        .error "Failed to parse config file as TOML" := by
      rw [parse, hdocument, hread]
      rfl
    rw [hresult]
    exact {
      loads := iff_of_false (by simp) fun hloads => hmissing ⟨hloads.1, hloads.2.1⟩
      merges := by rintro _ ⟨⟩
      malformed := iff_of_true rfl hmissing
      noColor := iff_of_false (by simp) fun hloads => hmissing ⟨hloads.1, hloads.2.1⟩ }
  | some s =>
    obtain ⟨hknown, hmerges⟩ := (ofEntries?_eq_some_iff h).1 hread
    have htyped := exists_merges_iff.1 ⟨s, hmerges⟩
    have hnil := hmerges.palette_eq_nil_iff
    rw [parse_of_read (hdocument.trans hread)]
    by_cases hpalette : s.correlation.palette = []
    · rw [if_pos hpalette]
      exact {
        loads := iff_of_false (by simp) fun hloads => hloads.2.2 (hnil.1 hpalette)
        merges := by rintro _ ⟨⟩
        malformed := iff_of_false (by simp) fun hmissing => hmissing ⟨hknown, htyped⟩
        noColor := iff_of_true rfl ⟨hknown, htyped, hnil.1 hpalette⟩ }
    · rw [if_neg hpalette]
      exact {
        loads := iff_of_true ⟨s, rfl⟩ ⟨hknown, htyped, mt hnil.2 hpalette⟩
        merges := fun s' hs' => Except.ok.inj hs' ▸ hmerges
        malformed := iff_of_false (by simp) fun hmissing => hmissing ⟨hknown, htyped⟩
        noColor := iff_of_false (by simp) fun hloads => hpalette (hnil.2 hloads.2.2) }

/-- What is no document is not loaded. -/
theorem parse_of_not_isDocument {text : String} (h : ∀ root, ¬ IsDocument text root) :
    parse text = .error .malformed := by
  have hnone : ofText? text = none :=
    Option.eq_none_iff_forall_ne_some.2 fun root hroot => h root (ofText?_eq_some_iff.1 hroot)
  rw [parse, ofDocument?, hnone]
  rfl

/-- A key that is no setting, and under another header one setting, which is a hexadecimal number,
and a string over two lines. -/
def resetText : String :=
  "[correlation]\nx = true\n[stepper]\ntransition_reset_ms = 0x32\ny = \"\"\"a\\\n  b\"\"\"\n"

def resetRoot : Entries :=
  [("correlation", .table .header [("x", .boolean true)]),
    ("stepper", .table .header [("transition_reset_ms", .integer (some 50)), ("y", .string "ab")])]

theorem isDocument_resetText : IsDocument resetText resetRoot := by
  have hcorrelation : IsBareKey "correlation" := isBareKey_of_all (by decide) (by decide)
  have hstepper : IsBareKey "stepper" := isBareKey_of_all (by decide) (by decide)
  have hx : IsBareKey "x" := isBareKey_of_all (by decide) (by decide)
  have hreset : IsBareKey "transition_reset_ms" := isBareKey_of_all (by decide) (by decide)
  have hy : IsBareKey "y" := isBareKey_of_all (by decide) (by decide)
  have htrue : ValueText 80 "true".toList (.boolean true) := .scalar 80 .true
  have hdigits : Digits 16 ['3', '2'] [3, 2] := .cons (by decide) (.one (by decide))
  have hfifty : ValueText 80 "0x32".toList (.integer (some 50)) :=
    .scalar 80 (.integer (.based (.head _) hdigits))
  have hjoined : BasicLinesText 0 ['b'] ['b'] :=
    .char (.itself (by decide) (by decide) (by decide)) (.nil 0)
  have hline : BasicLinesText 0 ['a', 'b'] ['a', '\\', '\n', ' ', ' ', 'b'] :=
    .char (.itself (by decide) (by decide) (by decide))
      (.join spaces_nil .newline (.space (.inl rfl) (.space (.inl rfl) .nil))
        (by rintro _ ⟨⟩; decide) (noLineEnd_of_front (by decide) (by decide) _) hjoined)
  have htext : ValueText 80 "\"\"\"a\\\n  b\"\"\"".toList (.string "ab") :=
    .string 80 (.basicLines (.none (noLineEnd_of_front (by decide) (by decide) _)) hline)
  have hwritten := written_header hcorrelation (written_line hx htrue
    (written_header hstepper (written_line hreset hfifty (written_line hy htext .nil))))
  exact ⟨[], _, _, .inl rfl, rfl, hwritten, hwritten.define_iff.2 rfl⟩

end Settings

end TvmDebug
