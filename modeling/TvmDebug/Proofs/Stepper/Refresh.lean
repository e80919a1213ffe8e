import TvmDebug.Proofs.Stepper.Source
/-! # Source lines are found again exactly when an input has changed

A setter puts other inputs beside the stops found before (`SourceStepper.Prepared`), then the source
lines are found again. That drops the stops, keeps them or builds them anew
(`SourceStepper.Refreshed`), each only in the case where it leaves a sound stepper. -/
set_option autoImplicit false

namespace TvmDebug

namespace SourceStepper

/-! ## Other inputs beside the old stops -/

/-- `s₁` is `s` with other inputs. Where the key of the inputs is still the old one, so are the
inputs and the selected step. -/
structure Prepared (s s₁ : SourceStepper) : Prop where
  inner : s₁.inner.Sound
  numbered : ∀ i, s₁.instructions = some i → i.value.Numbered
  found : s₁.found = s.found
  cursor : s₁.cursor = s.cursor
  same : ∀ t m i t₁ m₁ i₁, s.Holds t m i → s₁.Holds t₁ m₁ i₁ → s.keyOf t m i = s₁.keyOf t₁ m₁ i₁ →
    t.value = t₁.value ∧ m.value = m₁.value ∧ i.value = i₁.value ∧ s.selected = s₁.selected

/-- What finding the source lines again makes of `s₁`, the stepper `s` with other inputs. -/
inductive Refreshed (s s₁ : SourceStepper) : SourceStepper → Prop
  | dropped (hmissing : ∀ t m i, ¬ s₁.Holds t m i) :
      Refreshed s s₁ { s₁ with found := Memo.empty, cursor := 0 }
  | kept (t : Shared Trace) (m : Shared FuncMapping) (i : Shared SectionInstructions)
      (stops : List SourceStop) (hholds : s₁.Holds t m i)
      (hentry : s.found.entry = some (s₁.keyOf t m i, stops))
      (hcondense : condense t.value m.value i.value s₁.primaryFile = .ok stops)
      (hselected : s.selected = s₁.selected) :
      Refreshed s s₁ s₁
  | rebuilt (t : Shared Trace) (m : Shared FuncMapping) (i : Shared SectionInstructions)
      (stops : List SourceStop) (hholds : s₁.Holds t m i)
      (hmiss : s.found.get? (s₁.keyOf t m i) = none)
      (hcondense : condense t.value m.value i.value s₁.primaryFile = .ok stops) :
      Refreshed s s₁ { s₁ with found := ⟨some (s₁.keyOf t m i, stops)⟩, cursor := 0 }.sync

section Refresh
variable {s s₁ s' : SourceStepper}

theorem refresh_of_missing (hmissing : s.inputs? = none) :
    s.refresh =
      .ok (if s.found.isFilled then { s with found := s.found.reset, cursor := 0 } else s) := by
  unfold refresh
  rw [hmissing]

theorem refresh_of_disabled {s : SourceStepper} (henabled : s.enabled = false)
    (hfound : s.found = Memo.empty) : s.refresh = .ok s := by
  have hmissing : s.inputs? = none := by
    refine Option.eq_none_iff_forall_ne_some.2 ?_
    rintro ⟨t, m, i⟩ hinputs
    rw [(inputs?_eq_some_iff.1 hinputs).enabled] at henabled
    cases henabled
  rw [refresh_of_missing hmissing, hfound]
  rfl

theorem refresh_of_holds {t : Shared Trace} {m : Shared FuncMapping}
    {i : Shared SectionInstructions} (hholds : s.Holds t m i) :
    s.refresh =
      if (s.found.get? (s.keyOf t m i)).isSome then .ok s
      else (s.found.getOrComputeM (s.keyOf t m i) fun _ =>
          condense t.value m.value i.value s.primaryFile).map fun (_, found) =>
        ({ s with found := found, cursor := 0 } : SourceStepper).sync := by
  unfold refresh
  rw [inputs?_eq_some_iff.2 hholds]
  rfl

/-- Finding the source lines cannot fail, and has the three outcomes. -/
theorem Prepared.refresh (hs : s.Sound) (h : s.Prepared s₁) :
    ∃ s', s₁.refresh = .ok s' ∧ Refreshed s s₁ s' := by
  obtain hinputs | ⟨⟨t, m, i⟩, hinputs⟩ := Option.eq_none_or_eq_some s₁.inputs?
  · have hmissing : ∀ t m i, ¬ s₁.Holds t m i := by
      intro t m i hholds
      rw [inputs?_eq_some_iff.2 hholds] at hinputs
      cases hinputs
    refine ⟨_, ?_, .dropped hmissing⟩
    rw [refresh_of_missing hinputs]
    cases hentry : s.found.entry with
    | none =>
      -- Nothing was found before, so that the cursor is at the front already.
      have hzero : s₁.cursor = 0 := h.cursor.trans (hs.cursor_zero (stops_of_entry_none hentry))
      have hfound : s₁.found = Memo.empty := by
        rw [h.found]
        exact congrArg Memo.mk hentry
      have hfilled : s₁.found.isFilled = false := by rw [hfound]; rfl
      rw [hfilled, if_neg Bool.false_ne_true, ← hzero, ← hfound]
    | some e =>
      have hfilled : s₁.found.isFilled = true := by rw [h.found, Memo.isFilled, hentry]; rfl
      rw [if_pos hfilled]
      rfl
  · have hholds := inputs?_eq_some_iff.1 hinputs
    obtain ⟨stops, hcondense⟩ := condense_ok (h.inner.numbered t hholds.trace)
      (h.numbered i hholds.instructions) m.value s₁.primaryFile
    rw [refresh_of_holds hholds, h.found]
    cases hget : s.found.get? (s₁.keyOf t m i) with
    | none =>
      refine ⟨_, ?_, .rebuilt t m i stops hholds hget hcondense⟩
      rw [Memo.getOrComputeM_miss hget, hcondense]
      rfl
    | some found =>
      have hentry := Memo.get?_eq_some_iff.1 hget
      obtain ⟨t₀, m₀, i₀, hholds₀, hkey, hfound⟩ := hs.holds_of_found _ _ hentry
      obtain ⟨ht, hm, hi, hselected⟩ := h.same t₀ m₀ i₀ t m i hholds₀ hholds hkey.symm
      have hfile : s.primaryFile = s₁.primaryFile := (congrArg SourceKey.file hkey).symm
      rw [ht, hm, hi, hfile] at hfound
      exact ⟨s₁, rfl, .kept t m i found hholds hentry hfound hselected⟩

/-- The cursor over source lines at the front, and the selected step with it. -/
theorem Cached.sync (h : s.Cached) (hcursor : s.cursor = 0) :
    s.sync.Sound ∧ (s.stops ≠ [] → s.sync.AtStop) := by
  cases hstops : s.stops with
  | nil =>
    rw [sync_of_stops_nil hstops]
    refine ⟨⟨h, fun hne => absurd hstops hne, fun _ => hcursor, .inr ?_⟩, fun hne => absurd rfl hne⟩
    exact offStops_of_nil hstops
  | cons stop rest =>
    have hstop : s.stops[s.cursor]? = some stop := by
      rw [hstops, hcursor]
      rfl
    have hlt := h.stops_spec.1 stop (List.mem_of_getElem? hstop)
    rw [sync_eq hstop hlt]
    exact ⟨sound_onStop h hstop _, fun _ => atStop_onStop hstop _⟩

theorem Holds.unique {t t' : Shared Trace} {m m' : Shared FuncMapping}
    {i i' : Shared SectionInstructions} (h : s.Holds t m i) (h' : s.Holds t' m' i') :
    t = t' ∧ m = m' ∧ i = i' :=
  ⟨Option.some.inj (h.trace.symm.trans h'.trace), Option.some.inj (h.mapping.symm.trans h'.mapping),
    Option.some.inj (h.instructions.symm.trans h'.instructions)⟩

/-- Stops built anew are those of the inputs held. -/
theorem Prepared.cached_rebuilt (h : s.Prepared s₁) {t : Shared Trace} {m : Shared FuncMapping}
    {i : Shared SectionInstructions} {stops : List SourceStop} (hholds : s₁.Holds t m i)
    (hcondense : condense t.value m.value i.value s₁.primaryFile = .ok stops) :
    ({ s₁ with found := ⟨some (s₁.keyOf t m i, stops)⟩, cursor := 0 } : SourceStepper).Cached where
  inner := h.inner
  numbered := h.numbered
  found_of_holds := fun t' m' i' hh => by
    have hh' : s₁.Holds t' m' i' := ⟨hh.enabled, hh.trace, hh.mapping, hh.instructions⟩
    obtain ⟨rfl, rfl, rfl⟩ := hholds.unique hh'
    exact ⟨stops, rfl⟩
  holds_of_found := fun key stops' hentry => by
    obtain ⟨rfl, rfl⟩ := Prod.mk.inj (Option.some.inj hentry)
    exact ⟨t, m, i, ⟨hholds.enabled, hholds.trace, hholds.mapping, hholds.instructions⟩, rfl,
      hcondense⟩

theorem Refreshed.sound (hs : s.Sound) (h : s.Prepared s₁) (hr : Refreshed s s₁ s') :
    s'.Sound := by
  cases hr with
  | dropped hmissing =>
    exact {
      inner := h.inner
      numbered := h.numbered
      found_of_holds := fun t m i hh =>
        absurd ⟨hh.enabled, hh.trace, hh.mapping, hh.instructions⟩ (hmissing t m i)
      holds_of_found := nofun
      cursor_lt := fun hne => absurd rfl hne
      cursor_zero := fun _ => rfl
      aligned := .inr nofun }
  | kept t m i stops hholds hentry hcondense hselected =>
    have hstops : s₁.stops = s.stops := by rw [SourceStepper.stops, h.found]; rfl
    have hentry₁ := h.found ▸ hentry
    refine ⟨⟨h.inner, h.numbered, fun t' m' i' hh => ?_, fun key stops' hfound => ?_⟩, ?_, ?_, ?_⟩
    · obtain ⟨rfl, rfl, rfl⟩ := hholds.unique hh
      exact ⟨stops, hentry₁⟩
    · obtain ⟨rfl, rfl⟩ := Prod.mk.inj (Option.some.inj (hentry₁.symm.trans hfound))
      exact ⟨t, m, i, hholds, rfl, hcondense⟩
    · rw [hstops, h.cursor]
      exact hs.cursor_lt
    · rw [hstops, h.cursor]
      exact hs.cursor_zero
    · rw [AtStop, OffStops, hstops, h.cursor, ← hselected]
      exact hs.aligned
  | rebuilt t m i stops hholds hmiss hcondense =>
    exact ((h.cached_rebuilt hholds hcondense).sync rfl).1

end Refresh

/-! ## Setters -/

section Setters
variable {s : SourceStepper}

theorem prepared_setEnabled (h : s.Sound) {enabled : Bool} (hne : s.enabled ≠ enabled) :
    s.Prepared { s with enabled := enabled } where
  inner := h.inner
  numbered := h.numbered
  found := rfl
  cursor := rfl
  same := fun _ _ _ _ _ _ hholds hholds₁ => absurd (hholds.enabled.trans hholds₁.enabled.symm) hne

theorem prepared_setDebugInfo (h : s.Sound) {mapping : Option (Shared FuncMapping)}
    {instructions : Option (Shared SectionInstructions)}
    (hnum : ∀ i, instructions = some i → i.value.Numbered)
    (hmapping : Shared.Fits s.mapping mapping)
    (hinstructions : Shared.Fits s.instructions instructions) :
    s.Prepared { s with mapping := mapping, instructions := instructions } where
  inner := h.inner
  numbered := hnum
  found := rfl
  cursor := rfl
  same := fun t m i t₁ m₁ i₁ hholds hholds₁ hkey => by
    have ht : t = t₁ := Option.some.inj (hholds.trace.symm.trans hholds₁.trace)
    obtain ⟨-, hm, hi, -⟩ := SourceKey.mk.inj hkey
    exact ⟨by rw [ht], hmapping m m₁ hholds.mapping hholds₁.mapping hm,
      hinstructions i i₁ hholds.instructions hholds₁.instructions hi, rfl⟩

theorem prepared_setTrace (h : s.Sound) {trace : Option (Shared Trace)}
    (htrace : ∀ t, trace = some t → t.value.Numbered) :
    s.Prepared { s with inner := s.inner.setTrace trace } where
  inner := TraceStepper.sound_setTrace h.inner htrace
  numbered := h.numbered
  found := rfl
  cursor := rfl
  same := fun t m i t₁ m₁ i₁ hholds hholds₁ hkey => by
    have hm : m = m₁ := Option.some.inj (hholds.mapping.symm.trans hholds₁.mapping)
    have hi : i = i₁ := Option.some.inj (hholds.instructions.symm.trans hholds₁.instructions)
    obtain ⟨hid, -, -, -⟩ := SourceKey.mk.inj hkey
    by_cases hsame : sameInput s.inner.trace trace
    · have hinner : s.inner.setTrace trace = s.inner := if_pos hsame
      have ht₁ : s.inner.trace = some t₁ := hinner ▸ hholds₁.trace
      have ht : t = t₁ := Option.some.inj (hholds.trace.symm.trans ht₁)
      exact ⟨by rw [ht], by rw [hm], by rw [hi], (congrArg TraceStepper.selected hinner).symm⟩
    · -- Another trace has another identity.
      have ht₁ : trace = some t₁ := by
        rw [← hholds₁.trace, TraceStepper.setTrace, if_neg hsame]
      rw [hholds.trace, ht₁] at hsame
      exact absurd (beq_iff_eq.2 hid) hsame

theorem prepared_setPrimaryFile (h : s.Sound) (file : String) :
    s.Prepared { s with primaryFile := file } where
  inner := h.inner
  numbered := h.numbered
  found := rfl
  cursor := rfl
  same := fun t m i t₁ m₁ i₁ hholds hholds₁ _ => by
    obtain ⟨rfl, rfl, rfl⟩ := hholds.unique ⟨hholds₁.enabled, hholds₁.trace, hholds₁.mapping,
      hholds₁.instructions⟩
    exact ⟨rfl, rfl, rfl, rfl⟩

end Setters

end SourceStepper

end TvmDebug
