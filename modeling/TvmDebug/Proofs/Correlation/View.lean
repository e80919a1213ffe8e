import Mathlib.Data.List.Induction
import TvmDebug.Correlation.View
import TvmDebug.Proofs.Correlation.Links
import TvmDebug.Proofs.Memo
/-! # The view shows the correlation of its inputs

A view holds the inputs that the last call of its kind gave, whatever was done before and since, and
the correlation that it shows is built from these (`Shows.apply`, by induction `shows_run`). The
line under the pointer is the one that the last call with a say in it left; which calls have one
depends on the inputs held when they are made (`Op.Decides`). -/
set_option autoImplicit false

namespace TvmDebug.CorrelationView

/-! ## Histories -/

/-- The debug inputs that the last call of its kind gave; none without such a call. -/
def held (ops : List Op) : Option DebugInputs :=
  ops.foldl (fun held op => match op with
    | .setInputs inputs => inputs
    | _ => held) none

namespace Op

/-- The inputs given have numbered lines, and the identity of those held only if they are the
same. -/
def Admissible (held : Option DebugInputs) : Op → Prop
  | .setInputs (some i) => i.instructions.value.Numbered ∧
    Shared.Fits (held.map DebugInputs.mapping) (some i.mapping) ∧
    Shared.Fits (held.map DebugInputs.instructions) (some i.instructions)
  | _ => True

/-- What a call, made while some inputs are held, leaves under the pointer. -/
inductive Decides (held : Option DebugInputs) : Op → Option HoveredLine → Prop
  | hover (line : Option HoveredLine) : Decides held (.hover line) line
  | cleared : Decides held (.setInputs none) none
  | replaced (i : DebugInputs) (h : ∀ j, held = some j → j.key ≠ i.key) :
      Decides held (.setInputs (some i)) none

end Op

/-- After `before`, none of the calls has a say in what is under the pointer. -/
def Silent (before ops : List Op) : Prop :=
  ∀ mid op rest, ops = mid ++ op :: rest → ∀ line, ¬ op.Decides (held (before ++ mid)) line

/-- The calls on a new view, each admissible for the inputs held by then. -/
def Admissible (ops : List Op) : Prop :=
  ∀ before op after, ops = before ++ op :: after → op.Admissible (held before)

theorem held_append_singleton (ops : List Op) (op : Op) :
    held (ops ++ [op]) = match op with
      | .setInputs inputs => inputs
      | _ => held ops := by
  rw [held, List.foldl_append]
  rfl

theorem held_of_last (before : List Op) {after : List Op} (inputs : Option DebugInputs)
    (h : ∀ inputs', .setInputs inputs' ∉ after) :
    held (before ++ .setInputs inputs :: after) = inputs := by
  induction after using List.reverseRecOn with
  | nil => rw [held_append_singleton]
  | append_singleton after op ih =>
    have hafter : ∀ inputs', Op.setInputs inputs' ∉ after :=
      fun inputs' hmem => h inputs' (List.mem_append_left _ hmem)
    rw [← List.cons_append, ← List.append_assoc, held_append_singleton, ih hafter]
    cases op with
    | setInputs inputs' => exact absurd (List.mem_append_right _ List.mem_cons_self) (h inputs')
    | hover line => rfl
    | scroll viewport => rfl

theorem isSome_of? (mapping : Option (Shared FuncMapping))
    (instructions : Option (Shared SectionInstructions)) :
    (DebugInputs.of? mapping instructions).isSome ↔
      mapping.isSome ∧ instructions.isSome := by
  cases mapping <;> cases instructions <;> simp [DebugInputs.of?]

theorem eq_or_eq_append {α : Type} {ops before after : List α} {op op' : α}
    (h : ops ++ [op] = before ++ op' :: after) :
    (ops = before ∧ op = op' ∧ after = []) ∨
      ∃ after', after = after' ++ [op] ∧ ops = before ++ op' :: after' := by
  rcases List.eq_nil_or_concat after with rfl | ⟨after', op'', rfl⟩
  · obtain ⟨rfl, hop⟩ := List.append_inj' h rfl
    exact .inl ⟨rfl, List.head_eq_of_cons_eq hop, rfl⟩
  · rw [List.concat_eq_append, ← List.cons_append, ← List.append_assoc] at h
    obtain ⟨rfl, hop⟩ := List.append_inj' h rfl
    exact .inr ⟨after', by rw [List.head_eq_of_cons_eq hop, List.concat_eq_append], rfl⟩

theorem admissible_append_singleton {ops : List Op} {op : Op} :
    Admissible (ops ++ [op]) ↔ Admissible ops ∧ op.Admissible (held ops) := by
  constructor
  · intro h
    refine ⟨fun before op' after hsplit => h before op' (after ++ [op]) ?_, h ops op [] rfl⟩
    rw [hsplit, List.append_assoc, List.cons_append]
  · rintro ⟨hops, hop⟩ before op' after hsplit
    rcases eq_or_eq_append hsplit with ⟨rfl, rfl, -⟩ | ⟨after', -, hsplit'⟩
    · exact hop
    · exact hops before op' after' hsplit'

theorem silent_append_singleton {before ops : List Op} {op : Op} :
    Silent before (ops ++ [op]) ↔
      Silent before ops ∧ ∀ line, ¬ op.Decides (held (before ++ ops)) line := by
  constructor
  · intro h
    refine ⟨fun mid op' rest hsplit => h mid op' (rest ++ [op]) ?_, h ops op [] rfl⟩
    rw [hsplit, List.append_assoc, List.cons_append]
  · rintro ⟨hops, hop⟩ mid op' rest hsplit
    rcases eq_or_eq_append hsplit with ⟨rfl, rfl, -⟩ | ⟨rest', -, hsplit'⟩
    · exact hop
    · exact hops mid op' rest' hsplit'

theorem Op.Decides.unique {inputs : Option DebugInputs} {op : Op} {line line' : Option HoveredLine}
    (h : op.Decides inputs line) (h' : op.Decides inputs line') : line = line' := by
  cases h <;> cases h' <;> rfl

/-! ## What is under the pointer -/

/-- The line is the one that the last call with a say in it left. -/
structure Points (ops : List Op) (hovered : Option HoveredLine) : Prop where
  decided : ∀ before op after line, ops = before ++ op :: after → op.Decides (held before) line →
    Silent (before ++ [op]) after → hovered = line
  undecided : Silent [] ops → hovered = none

section Points
variable {ops : List Op} {op : Op} {hovered line : Option HoveredLine}

theorem points_nil : Points [] none where
  decided := by
    intro before op after line hsplit
    simp at hsplit
  undecided := fun _ => rfl

theorem points_of_decides (h : op.Decides (held ops) line) : Points (ops ++ [op]) line where
  decided := by
    intro before op' after line' hsplit hdecides hsilent
    rcases eq_or_eq_append hsplit with ⟨rfl, rfl, rfl⟩ | ⟨after', rfl, rfl⟩
    · exact h.unique hdecides
    · have hlast := (silent_append_singleton.1 hsilent).2 line
      rw [List.append_assoc, List.singleton_append] at hlast
      exact absurd h hlast
  undecided := fun hsilent => absurd h ((silent_append_singleton.1 hsilent).2 line)

theorem Points.keep (hp : Points ops hovered) (h : ∀ line, ¬ op.Decides (held ops) line) :
    Points (ops ++ [op]) hovered where
  decided := by
    intro before op' after line hsplit hdecides hsilent
    rcases eq_or_eq_append hsplit with ⟨rfl, rfl, rfl⟩ | ⟨after', rfl, rfl⟩
    · exact absurd hdecides (h line)
    · exact hp.decided before op' after' line rfl hdecides (silent_append_singleton.1 hsilent).1
  undecided := fun hsilent => hp.undecided (silent_append_singleton.1 hsilent).1

end Points

/-! ## What a view shows after a history -/

/-- The view holds the inputs given last, with their correlation, and points to the line that the
last call with a say in it left. -/
structure Shows (settings : CorrelationSettings) (ops : List Op) (v : CorrelationView) : Prop where
  settings_eq : v.settings = settings
  inputs : v.inputs = held ops
  empty : held ops = none → v.built.entry = none
  built : ∀ i, held ops = some i → ∃ c,
    Correlation.build i.mapping.value i.instructions.value settings = .ok c ∧
      v.built.entry = some (i.key, c)
  hovered : Points ops v.hovered

variable {settings : CorrelationSettings} {ops : List Op} {v : CorrelationView} {op : Op}

theorem shows_new (settings : CorrelationSettings) : Shows settings [] (new settings) where
  settings_eq := rfl
  inputs := rfl
  empty := fun _ => rfl
  built := nofun
  hovered := points_nil

theorem setInputs_of_hit {i : DebugInputs} {c : Correlation}
    (h : v.built.entry = some (i.key, c)) :
    v.setInputs (some i) = .ok { v with inputs := some i } := by
  have hget := Memo.get?_eq_some_iff.2 h
  rw [setInputs, hget, Memo.getOrComputeM_hit hget]
  rfl

theorem setInputs_of_miss {i : DebugInputs} {c : Correlation} (h : v.built.get? i.key = none)
    (hc : Correlation.build i.mapping.value i.instructions.value v.settings = .ok c) :
    v.setInputs (some i) =
      .ok { v with inputs := some i, built := ⟨some (i.key, c)⟩, hovered := none } := by
  rw [setInputs, h, Memo.getOrComputeM_miss h, hc]
  rfl

theorem eq_of_key_eq {i j : DebugInputs} (hkey : i.key = j.key)
    (hmapping : Shared.Fits (some i.mapping) (some j.mapping))
    (hinstructions : Shared.Fits (some i.instructions) (some j.instructions)) : i = j := by
  obtain ⟨⟨m, mapping⟩, ⟨n, instructions⟩⟩ := i
  obtain ⟨⟨m', mapping'⟩, ⟨n', instructions'⟩⟩ := j
  obtain ⟨rfl, rfl⟩ := Prod.mk.inj hkey
  obtain rfl : mapping = mapping' := hmapping _ _ rfl rfl rfl
  obtain rfl : instructions = instructions' := hinstructions _ _ rfl rfl rfl
  rfl

theorem Shows.setInputs_held (hv : Shows settings ops v) {i : DebugInputs}
    (hi : held ops = some i) : v.setInputs (some i) = .ok v := by
  obtain ⟨c, -, hentry⟩ := hv.built i hi
  rw [setInputs_of_hit hentry, ← hi, ← hv.inputs]

theorem Shows.setInputs (hv : Shows settings ops v) {i : DebugInputs}
    (hop : (Op.setInputs (some i)).Admissible (held ops)) :
    ∃ v', v.setInputs (some i) = .ok v' ∧ Shows settings (ops ++ [.setInputs (some i)]) v' := by
  obtain ⟨hnum, hmapping, hinstructions⟩ := hop
  have hheld : held (ops ++ [.setInputs (some i)]) = some i := held_append_singleton _ _
  -- The graph is there already exactly when the pair given is the pair held.
  by_cases hsame : ∃ j, held ops = some j ∧ j.key = i.key
  · obtain ⟨j, hj, hkey⟩ := hsame
    rw [hj] at hmapping hinstructions
    obtain rfl := eq_of_key_eq hkey hmapping hinstructions
    have hsilent : ∀ line, ¬ (Op.setInputs (some j)).Decides (held ops) line := by
      rintro line ⟨⟩
      next hother => exact hother j hj rfl
    refine ⟨v, hv.setInputs_held hj, hv.settings_eq, hv.inputs.trans (hj.trans hheld.symm),
      fun hnone => ?_, fun k hk => hv.built k (hj.trans (hheld.symm.trans hk)),
      hv.hovered.keep hsilent⟩
    rw [hheld] at hnone
    cases hnone
  · have hmiss : v.built.get? i.key = none := by
      cases hget : v.built.get? i.key with
      | none => rfl
      | some c =>
        have hentry := Memo.get?_eq_some_iff.1 hget
        cases hh : held ops with
        | none =>
          rw [hv.empty hh] at hentry
          cases hentry
        | some j =>
          obtain ⟨c', -, hentry'⟩ := hv.built j hh
          rw [hentry'] at hentry
          exact absurd ⟨j, hh, (Prod.mk.inj (Option.some.inj hentry)).1⟩ hsame
    obtain ⟨c, hc⟩ := build_ok hnum i.mapping.value settings
    refine ⟨_, setInputs_of_miss hmiss (hv.settings_eq ▸ hc), hv.settings_eq, hheld.symm,
      fun hnone => ?_, fun j hj => ?_, points_of_decides (.replaced i fun j hj hkey => ?_)⟩
    · rw [hheld] at hnone
      cases hnone
    · obtain rfl := Option.some.inj (hheld.symm.trans hj)
      exact ⟨c, hc, rfl⟩
    · exact hsame ⟨j, hj, hkey⟩

theorem Shows.apply (hv : Shows settings ops v) (hop : op.Admissible (held ops)) :
    ∃ v', v.apply op = .ok v' ∧ Shows settings (ops ++ [op]) v' := by
  cases op with
  | setInputs inputs =>
    cases inputs with
    | some i => exact hv.setInputs hop
    | none =>
      have hheld : held (ops ++ [.setInputs none]) = none := held_append_singleton _ _
      refine ⟨_, rfl, hv.settings_eq, hheld.symm, fun _ => rfl, fun i hi => ?_,
        points_of_decides .cleared⟩
      rw [hheld] at hi
      cases hi
  | hover line =>
    have hheld : held (ops ++ [.hover line]) = held ops := held_append_singleton _ _
    exact ⟨_, rfl, hv.settings_eq, hv.inputs.trans hheld.symm, fun h => hv.empty (hheld ▸ h),
      fun i hi => hv.built i (hheld ▸ hi), points_of_decides (.hover line)⟩
  | scroll viewport =>
    have hheld : held (ops ++ [.scroll viewport]) = held ops := held_append_singleton _ _
    exact ⟨v, rfl, hv.settings_eq, hv.inputs.trans hheld.symm, fun h => hv.empty (hheld ▸ h),
      fun i hi => hv.built i (hheld ▸ hi), hv.hovered.keep fun line h => nomatch h⟩

theorem shows_run (settings : CorrelationSettings) (h : Admissible ops) :
    ∃ v, run (new settings) ops = .ok v ∧ Shows settings ops v := by
  -- The induction is on the last call, because each call is admissible for what comes before it.
  induction ops using List.reverseRecOn with
  | nil => exact ⟨new settings, rfl, shows_new settings⟩
  | append_singleton ops op ih =>
    obtain ⟨hops, hop⟩ := admissible_append_singleton.1 h
    obtain ⟨v, hrun, hv⟩ := ih hops
    obtain ⟨v', happly, hv'⟩ := hv.apply hop
    refine ⟨v', ?_, hv'⟩
    rw [run, List.foldlM_append, ← run, hrun]
    change (v.apply op).bind .ok = .ok v'
    rw [happly]
    rfl

/-- **A view shows the correlation of its inputs.** -/
theorem correlation_of_history (settings : CorrelationSettings) (h : Admissible ops) :
    ∃ v, run (new settings) ops = .ok v ∧
      (v.correlation.isSome ↔ (held ops).isSome) ∧
      (∀ before mapping instructions after,
        ops = before ++ .setInputs (DebugInputs.of? mapping instructions) :: after →
        (∀ inputs, .setInputs inputs ∉ after) →
        (v.correlation.isSome ↔ mapping.isSome ∧ instructions.isSome)) ∧
      (∀ i, held ops = some i → ∃ c,
        Correlation.build i.mapping.value i.instructions.value settings = .ok c ∧
          v.correlation = some c ∧ v.built.entry = some (i.key, c)) ∧
      (held ops = none → v.built.entry = none) ∧
      (∀ before op after line, ops = before ++ op :: after → op.Decides (held before) line →
        Silent (before ++ [op]) after → v.hovered = line) ∧
      (Silent [] ops → v.hovered = none) ∧
      ∀ i, held ops = some i → v.setInputs (some i) = .ok v := by
  obtain ⟨v, hrun, hv⟩ := shows_run settings h
  have hcorrelation : ∀ i, held ops = some i → ∃ c,
      Correlation.build i.mapping.value i.instructions.value settings = .ok c ∧
        v.correlation = some c ∧ v.built.entry = some (i.key, c) := by
    intro i hi
    obtain ⟨c, hc, hentry⟩ := hv.built i hi
    refine ⟨c, hc, ?_, hentry⟩
    rw [correlation, hv.inputs, hi, Memo.current, hentry]
    rfl
  have hsome : v.correlation.isSome ↔ (held ops).isSome := by
    cases hheld : held ops with
    | none =>
      rw [correlation, hv.inputs, hheld]
      rfl
    | some i =>
      obtain ⟨c, -, hc, -⟩ := hcorrelation i hheld
      rw [hc]
      rfl
  refine ⟨v, hrun, hsome, fun before mapping instructions after hsplit hlast => ?_, hcorrelation,
    hv.empty, hv.hovered.decided, hv.hovered.undecided, fun i hi => hv.setInputs_held hi⟩
  rw [hsome, hsplit, held_of_last before _ hlast, isSome_of?]

/-! ## Inputs given twice -/

def inlinedInputs : DebugInputs := ⟨⟨0, inlinedMapping⟩, ⟨0, inlinedSections⟩⟩

/-- A line is hovered before there are inputs and another one after. -/
def hoveredOnce : List Op :=
  [.hover (some (.asm 7)), .setInputs (some inlinedInputs), .hover (some (.func 4))]

theorem admissible_inlinedInputs {inputs : Option DebugInputs}
    (h : inputs = none ∨ inputs = some inlinedInputs) :
    (Op.setInputs (some inlinedInputs)).Admissible inputs := by
  rcases h with rfl | rfl
  · exact ⟨numbered_inlinedSections, nofun, nofun⟩
  · refine ⟨numbered_inlinedSections, ?_, ?_⟩ <;> rintro _ _ ⟨⟩ ⟨⟩ - <;> rfl

theorem admissible_hoveredOnce : Admissible hoveredOnce := by
  have hnil : Admissible [] := by
    intro before op after hsplit
    simp at hsplit
  have hfirst : Admissible ([] ++ [.hover (some (.asm 7))]) :=
    admissible_append_singleton.2 ⟨hnil, trivial⟩
  have hset : Admissible ([.hover (some (.asm 7))] ++ [.setInputs (some inlinedInputs)]) :=
    admissible_append_singleton.2 ⟨hfirst, admissible_inlinedInputs (.inl rfl)⟩
  have hhover : Admissible ([.hover (some (.asm 7)), .setInputs (some inlinedInputs)] ++
      [.hover (some (.func 4))]) :=
    admissible_append_singleton.2 ⟨hset, trivial⟩
  exact hhover

/-- Inputs given again leave the line under the pointer. -/
theorem correlation_of_history_twice :
    Admissible (hoveredOnce ++ [.setInputs (some inlinedInputs)]) ∧
      ∃ v, run (new {}) (hoveredOnce ++ [.setInputs (some inlinedInputs)]) = .ok v ∧
        v.correlation.isSome ∧ v.hovered = some (.func 4) := by
  have hadmissible : Admissible (hoveredOnce ++ [.setInputs (some inlinedInputs)]) :=
    admissible_append_singleton.2 ⟨admissible_hoveredOnce, admissible_inlinedInputs (.inr rfl)⟩
  obtain ⟨v, hrun, hsome, -, -, -, hdecided, -⟩ := correlation_of_history {} hadmissible
  refine ⟨hadmissible, v, hrun, hsome.2 rfl, ?_⟩
  refine hdecided [.hover (some (.asm 7)), .setInputs (some inlinedInputs)] _
    [.setInputs (some inlinedInputs)] _ rfl (.hover _) ?_
  have hnil : Silent hoveredOnce [] := by
    intro mid op rest hsplit
    simp at hsplit
  refine silent_append_singleton.2 ⟨hnil, fun line hdecides => ?_⟩
  cases hdecides with
  | replaced _ h => exact h inlinedInputs rfl rfl

end TvmDebug.CorrelationView
