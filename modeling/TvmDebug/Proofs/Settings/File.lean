import TvmDebug.Proofs.Settings.Document
import TvmDebug.Settings.File
/-! # Settings files keep what was saved

Loading checks settings that saving does not check, so the settings of a saved file are `validate`d
ones (`Settings.load_toDocument`). The file in the home directory goes through a history of loads
and saves (`HomeFile.run`). A load changes a file only when there was none
(`HomeFile.load_of_some`), so after any history a load finds what was saved last, or else what a
first load finds (`HomeFile.load_run`). -/
set_option autoImplicit false

namespace TvmDebug

/-! ## One file -/

namespace Settings

variable {s : Settings} {path : String} {writable : Bool} {content : ByteArray}

theorem fromUTF8?_toUTF8 (text : String) : String.fromUTF8? text.toUTF8 = some text := by
  rw [String.fromUTF8?, String.toUTF8_eq_toByteArray, dif_pos text.isValidUTF8]
  rfl

theorem validate_eq (s : Settings) :
    s.validate = if s.correlation.palette = [] then .error .noColor else .ok s := by
  simp only [validate, List.isEmpty_iff]

/-- A file that settings were written to holds them. -/
theorem load_toDocument (s : Settings) (path : String) :
    load path (some s.toDocument.toUTF8) = s.validate := by
  rw [load, Option.bind_some, fromUTF8?_toUTF8]
  simp only [parse, ofDocument?_toDocument]

theorem eq_of_save (h : s.save path writable = .ok content) :
    content = s.toDocument.toUTF8 := by
  rw [save] at h
  split at h
  · exact (Except.ok.inj h).symm
  · cases h

/-- Saved settings are loaded as they were, unless they name no color. -/
theorem load_of_save (h : s.save path writable = .ok content) :
    (load path (some content)).mapError SettingsError.message =
      if s.correlation.palette = [] then
        .error "correlation.palette must contain at least one color"
      else .ok s := by
  rw [eq_of_save h, load_toDocument, validate_eq]
  split <;> rfl

/-- Settings that take every form of a string: quotes of both kinds, a backslash, line ends, control
characters and letters of other scripts. -/
def everyForm : Settings where
  correlation := {
    palette := ["a\"b", "it's", "C:\\ \"q\" '''\n\"\"\"", "\r\n\x00\x7f"]
    stdlibMarkers := ["приклад"] }
  stepper := { transitionResetMs := 18446744073709551615, primarySourceFile := "日本\t'''\"\"\"" }

def withoutColors : Settings := { everyForm with correlation := { palette := [] } }

theorem load_of_save_everyForm :
    (load "tdb.toml" (some everyForm.toDocument.toUTF8)).mapError SettingsError.message =
        .ok everyForm ∧
      (load "tdb.toml" (some withoutColors.toDocument.toUTF8)).mapError SettingsError.message =
        .error "correlation.palette must contain at least one color" :=
  have hsave (s : Settings) : s.save "tdb.toml" true = .ok s.toDocument.toUTF8 := rfl
  ⟨load_of_save (hsave everyForm), load_of_save (hsave withoutColors)⟩

end Settings

/-! ## The file in the home directory -/

namespace HomeFile

/-- What can be done with the file. -/
inductive Op where
  | load
  | save (s : Settings)

def step (f : HomeFile) : Op → HomeFile
  | .load => f.load.2
  | .save s => f.save s

def run (f : HomeFile) (ops : List Op) : HomeFile := ops.foldl step f

/-- The settings that were saved last, if any were. -/
def lastSaved? : List Op → Option Settings
  | [] => none
  | .load :: ops => lastSaved? ops
  | .save s :: ops => some ((lastSaved? ops).getD s)

section Load
variable {f : HomeFile}

theorem load_of_none (h : f.content = none) : f.load = (.ok {}, f.save {}) := by
  rw [load, h]
  rfl

theorem load_of_some {content : ByteArray} (h : f.content = some content) :
    f.load = (Settings.load f.path (some content), f) := by
  rw [load, h]

theorem load_of_ne_none (h : f.content ≠ none) : f.load.2 = f := by
  obtain ⟨content, hcontent⟩ := Option.ne_none_iff_exists'.1 h
  rw [load_of_some hcontent]

theorem load_save (f : HomeFile) (s : Settings) : (f.save s).load = (s.validate, f.save s) := by
  rw [load_of_some (f := f.save s) rfl, Settings.load_toDocument]

/-- A load leaves nothing for the next one to change. -/
theorem load_load (f : HomeFile) : f.load.2.load = f.load := by
  by_cases hcontent : f.content = none
  · rw [load_of_none hcontent, load_save]
    rfl
  · rw [load_of_ne_none hcontent]

theorem save_load (f : HomeFile) (s : Settings) : f.load.2.save s = f.save s := by
  by_cases hcontent : f.content = none
  · rw [load_of_none hcontent]
    rfl
  · rw [load_of_ne_none hcontent]

/-- What a load gives and leaves after a history is decided by what was saved last, or else by the
file at the start. -/
theorem load_run (f : HomeFile) (ops : List Op) :
    (f.run ops).load =
      (lastSaved? ops).elim f.load fun s => (s.validate, f.save s) := by
  induction ops generalizing f with
  | nil => rfl
  | cons op ops ih =>
    have hstep : (f.run (op :: ops)).load = ((f.step op).run ops).load := rfl
    rw [hstep, ih]
    cases op with
    | load =>
      rw [step, load_load, lastSaved?]
      simp only [save_load]
    | save s =>
      rw [step, load_save, lastSaved?]
      cases lastSaved? ops <;> rfl

end Load

/-- A load creates the file with the default settings when there is none and never changes one that
is there. Whatever is loaded and saved from then on, a load gives what was saved last, or what the
first load gave. -/
theorem load_history (f : HomeFile) (ops : List Op) :
    (f.content = none → f.load.1 = .ok {} ∧ f.load.2.content ≠ none) ∧
      (f.content ≠ none → f.load.2 = f) ∧
      f.load.2.load = f.load ∧
      (f.run ops).load = (match lastSaved? ops with
        | none => f.load
        | some s => (if s.correlation.palette = [] then .error .noColor else .ok s, f.save s)) ∧
      ∀ s : Settings, s.correlation.palette ≠ [] →
        ((f.run ops).save s).load = (.ok s, (f.run ops).save s) := by
  refine ⟨fun hnone => ?_, load_of_ne_none, load_load f, ?_, fun s hs => ?_⟩
  · rw [load_of_none hnone]
    exact ⟨rfl, Option.some_ne_none _⟩
  · rw [load_run]
    cases lastSaved? ops with
    | none => rfl
    | some s => rw [Option.elim_some, Settings.validate_eq]
  · rw [load_save, Settings.validate_eq, if_neg hs]

/-- One file is missing at first, another is no TOML document; settings are saved to both. -/
theorem load_history_missing_malformed :
    let missing : HomeFile := ⟨"/home/.tdb.toml", none⟩
    let malformed : HomeFile := ⟨"/home/.tdb.toml", some "palette = [".toUTF8⟩
    let ops : List Op := [.load, .save Settings.everyForm, .load, .load]
    (missing.load.1 = .ok {} ∧ missing.load.2.load = missing.load ∧
        (missing.run ops).load.1 = .ok Settings.everyForm) ∧
      (malformed.load.2 = malformed ∧
        ((malformed.run [.load]).save Settings.everyForm).load.1 = .ok Settings.everyForm) := by
  intro missing malformed ops
  obtain ⟨hfirst, -, hsame, hlast, -⟩ := load_history missing ops
  obtain ⟨-, hkept, -, -, hsaved⟩ := load_history malformed [.load]
  exact ⟨⟨(hfirst rfl).1, hsame, congrArg Prod.fst hlast⟩,
    ⟨hkept (Option.some_ne_none _), congrArg Prod.fst (hsaved _ (by decide))⟩⟩

end HomeFile

end TvmDebug
