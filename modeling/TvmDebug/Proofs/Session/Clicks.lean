import TvmDebug.Proofs.Stepper.Fallback
import TvmDebug.Session.Report
/-! # Repeated clicks on a line

Clicks on a line go round the steps that executed it (`TraceStepper.visited`). The cursor over
source lines is taken along by the steps that are those of stops, and after one round nothing of
where it was before is left: a further round changes nothing (`SourceStepper.foldl_clicked_twice`),
so that leaving out whole rounds makes no difference (`SourceStepper.clickMany_eq_run`). -/
set_option autoImplicit false

namespace TvmDebug

/-! ## The steps that clicks go to -/

namespace TraceStepper

variable {s s' : TraceStepper} {line : UInt32} {ps : List Nat}

/-- The positions of a line are known without anything to compute. -/
def Lists (s : TraceStepper) (line : UInt32) (ps : List Nat) : Prop :=
  s.stepsAt line = .ok (ps, s)

theorem lists_of_stepsAt (h : s.stepsAt line = .ok (ps, s')) : s'.Lists line ps := by
  obtain htrace | ⟨t, htrace⟩ := Option.eq_none_or_eq_some s.trace
  · rw [stepsAt_of_none htrace] at h
    obtain ⟨rfl, rfl⟩ := Prod.mk.inj (Except.ok.inj h)
    exact stepsAt_of_none htrace line
  · rw [stepsAt_of_some htrace] at h
    obtain ⟨⟨index, memo⟩, hmemo, hlisted⟩ := exists_of_map_eq_ok h
    obtain ⟨rfl, rfl⟩ := Prod.mk.inj hlisted
    have hsame : ({ s with index := memo } : TraceStepper).trace = some t := htrace
    rw [Lists, stepsAt_of_some hsame, Memo.getOrComputeM_hit (Memo.get?_of_getOrComputeM hmemo)]
    rfl

theorem stepsAt_of_refused (h : s.click line = .ok (false, s')) :
    ∃ ps, s.stepsAt line = .ok (ps, s') ∧ after? ps s'.selected = none := by
  obtain ⟨⟨ps, s₁⟩, hok, hanswer⟩ := exists_of_bind_eq_ok h
  dsimp only at hanswer
  split at hanswer
  · cases hanswer
  · next hafter =>
    obtain ⟨-, rfl⟩ := Prod.mk.inj (Except.ok.inj hanswer)
    exact ⟨ps, hok, hafter⟩

/-- After a refused click nothing is left to look up. -/
theorem click_again (h : s.click line = .ok (false, s')) : s'.click line = .ok (false, s') := by
  obtain ⟨ps, hok, hafter⟩ := stepsAt_of_refused h
  exact click_of_after?_none (lists_of_stepsAt hok) hafter

theorem stepsAt_select (s : TraceStepper) (i : Nat) (mark : Option Transition) (line : UInt32) :
    ({ s with selected := i, lastMove := mark } : TraceStepper).stepsAt line =
      (s.stepsAt line).map fun (ps, s') => (ps, { s' with selected := i, lastMove := mark }) := by
  have hsame : ({ s with selected := i, lastMove := mark } : TraceStepper).trace = s.trace := rfl
  obtain htrace | ⟨t, htrace⟩ := Option.eq_none_or_eq_some s.trace
  · rw [stepsAt_of_none htrace, stepsAt_of_none (hsame.trans htrace)]
    rfl
  · rw [stepsAt_of_some htrace, stepsAt_of_some (hsame.trans htrace)]
    show (s.index.getOrComputeM t.id fun _ => lineIndex t.value.steps).map _ = _
    cases s.index.getOrComputeM t.id fun _ => lineIndex t.value.steps <;> rfl

theorem Lists.select (h : s.Lists line ps) (i : Nat) (mark : Option Transition) :
    ({ s with selected := i, lastMove := mark } : TraceStepper).Lists line ps := by
  rw [Lists, stepsAt_select, h]
  rfl

/-- Where in the list of positions a click goes, counted on past the end. -/
def clickStart (ps : List Nat) (i : Nat) : Nat :=
  match ps.idxOf? i with
  | some k => k + 1
  | none => 0

/-- The positions that clicks go to in turn. -/
def visited (ps : List Nat) (start times : Nat) : List Nat :=
  (List.range times).map fun j => ps.getD ((start + j) % ps.length) 0

theorem after?_eq (hne : ps ≠ []) (i : Nat) :
    after? ps i = some (ps.getD (clickStart ps i % ps.length) 0) := by
  have hpos : 0 < ps.length := List.length_pos_iff.2 hne
  have hhead : ps.head? = some (ps.getD 0 0) := by
    rw [List.head?_eq_getElem?, List.getD_eq_getElem?_getD, List.getElem?_eq_getElem hpos]
    rfl
  unfold after? clickStart
  cases hk : ps.idxOf? i with
  | none => rw [hhead, Nat.zero_mod]
  | some k =>
    obtain ⟨hlt, -⟩ := List.findIdx?_eq_some_iff_getElem.1 hk
    by_cases hlast : k + 1 < ps.length
    · simp [Nat.mod_eq_of_lt hlast, List.getElem?_eq_getElem hlast]
    · have hend : k + 1 = ps.length := by omega
      simp [hend, hhead]

theorem clickStart_getD (hnodup : ps.Nodup) (hne : ps ≠ []) (k : Nat) :
    clickStart ps (ps.getD (k % ps.length) 0) = k % ps.length + 1 := by
  have hlt : k % ps.length < ps.length := Nat.mod_lt k (List.length_pos_iff.2 hne)
  have hidx : ps.idxOf? (ps.getD (k % ps.length) 0) = some (k % ps.length) := by
    refine List.findIdx?_eq_some_iff_getElem.2 ⟨hlt, ?_, fun j hj => ?_⟩
    · simp [List.getElem?_eq_getElem hlt]
    · have hne := List.pairwise_iff_getElem.1 hnodup j (k % ps.length) (by omega) hlt hj
      simpa [List.getElem?_eq_getElem hlt] using hne
  rw [clickStart, hidx]

theorem visited_congr {start start' : Nat} (h : start % ps.length = start' % ps.length)
    (times : Nat) : visited ps start times = visited ps start' times := by
  unfold visited
  refine List.map_congr_left fun j _ => ?_
  rw [Nat.add_mod, h, ← Nat.add_mod]

theorem visited_add (start a b : Nat) :
    visited ps start (a + b) = visited ps start a ++ visited ps (start + a) b := by
  simp [visited, List.range_add, Function.comp_def, Nat.add_assoc]

theorem visited_succ (start times : Nat) :
    visited ps start (times + 1) =
      ps.getD (start % ps.length) 0 :: visited ps (start + 1) times := by
  rw [Nat.add_comm times 1, visited_add]
  rfl

/-- After a round the clicks begin anew. -/
theorem visited_round (start times : Nat) :
    visited ps start (ps.length + times) =
      visited ps start ps.length ++ visited ps start times := by
  rw [visited_add, visited_congr (Nat.add_mod_right start ps.length)]

end TraceStepper

/-! ## The cursor over source lines -/

namespace SourceStepper

open TraceStepper

variable {s s' : SourceStepper} {inner : TraceStepper} {line : UInt32} {ps : List Nat}

/-- The position among the stops of the one that stands for a step. -/
def stopOf (s : SourceStepper) (i : Nat) : Option Nat :=
  s.stops.findIdx? fun stop => stop.stepIndex == i

/-- The stepper with its cursors put in place by a click. -/
def land (s : SourceStepper) (i k : Nat) : SourceStepper :=
  { s with inner := { s.inner with selected := i, lastMove := some .click }, cursor := k }

/-- The stepper after a click that goes to step `i`. -/
def clicked (s : SourceStepper) (i : Nat) : SourceStepper := s.land i ((s.stopOf i).getD s.cursor)

theorem click_of_lists (h : s.inner.Lists line ps) (hne : ps ≠ []) :
    s.click line =
      .ok (true, s.clicked (ps.getD (clickStart ps s.inner.selected % ps.length) 0)) := by
  have hfollow : ∀ s : SourceStepper,
      s.follow = { s with cursor := (s.stopOf s.inner.selected).getD s.cursor } := by
    intro s
    unfold follow stopOf
    cases s.stops.findIdx? fun stop => stop.stepIndex == s.inner.selected <;> rfl
  rw [click, click_of_after?_some h (after?_eq hne _)]
  exact congrArg (fun s => Except.ok (true, s)) (hfollow _)

/-- The last step that is that of a stop takes the cursor with it. -/
theorem foldl_clicked {is : List Nat} (hne : is ≠ []) (s : SourceStepper) :
    is.foldl clicked s =
      s.land (is.getLast hne) ((is.reverse.findSome? s.stopOf).getD s.cursor) := by
  induction is generalizing s with
  | nil => exact absurd rfl hne
  | cons i is ih =>
    cases is with
    | nil =>
      have hlast : [i].reverse.findSome? s.stopOf = s.stopOf i := by
        cases hstop : s.stopOf i <;> simp [hstop]
      rw [hlast]
      rfl
    | cons j js =>
      have hcursor : ((i :: j :: js).reverse.findSome? s.stopOf).getD s.cursor =
          ((j :: js).reverse.findSome? s.stopOf).getD ((s.stopOf i).getD s.cursor) := by
        rw [List.reverse_cons, List.findSome?_append]
        cases (j :: js).reverse.findSome? s.stopOf with
        | some k => rfl
        | none => cases hstop : s.stopOf i <;> simp [hstop]
      rw [List.foldl_cons, ih (List.cons_ne_nil j js), hcursor]
      rfl

/-- A further round of clicks changes nothing. -/
theorem foldl_clicked_twice (is : List Nat) (s : SourceStepper) :
    is.foldl clicked (is.foldl clicked s) = is.foldl clicked s := by
  by_cases hne : is = []
  · rw [hne]
    rfl
  · rw [foldl_clicked hne, foldl_clicked hne]
    show s.land _ ((is.reverse.findSome? s.stopOf).getD _) = _
    cases is.reverse.findSome? s.stopOf <;> rfl

theorem foldl_visited_rounds (start times rounds : Nat) (s : SourceStepper) :
    (visited ps start (ps.length * rounds + (ps.length + times))).foldl clicked s =
      (visited ps start (ps.length + times)).foldl clicked s := by
  induction rounds with
  | zero => rw [Nat.mul_zero, Nat.zero_add]
  | succ rounds ih =>
    have hround : ps.length * (rounds + 1) + (ps.length + times) =
        ps.length + (ps.length + (ps.length * rounds + times)) := by
      rw [Nat.mul_add]
      omega
    have hback : ps.length + (ps.length * rounds + times) =
        ps.length * rounds + (ps.length + times) := by
      omega
    rw [hround, visited_round, visited_round, List.foldl_append, List.foldl_append,
      foldl_clicked_twice, ← List.foldl_append, ← visited_round, hback, ih]

theorem clickTimes_of_lists (hnodup : ps.Nodup) (hne : ps ≠ []) (h : s.inner.Lists line ps)
    (times : Nat) :
    clickTimes line times s =
      .ok ((visited ps (clickStart ps s.inner.selected) times).foldl clicked s) := by
  induction times generalizing s with
  | zero => rfl
  | succ times ih =>
    have hclick := click_of_lists h hne
    generalize clickStart ps s.inner.selected = start at hclick ⊢
    have hlists : (s.clicked (ps.getD (start % ps.length) 0)).inner.Lists line ps := h.select _ _
    have hstart : clickStart ps (s.clicked (ps.getD (start % ps.length) 0)).inner.selected %
        ps.length = (start + 1) % ps.length := by
      show clickStart ps (ps.getD (start % ps.length) 0) % ps.length = _
      rw [clickStart_getD hnodup hne, Nat.mod_add_mod]
    rw [clickTimes, hclick, visited_succ, List.foldl_cons, ← visited_congr hstart, ← ih hlists]
    rfl

/-! ## Many clicks -/

theorem click_again (h : s.click line = .ok (false, s')) : s'.click line = .ok (false, s') := by
  obtain ⟨⟨yes, inner⟩, hinner, hs'⟩ := exists_of_map_eq_ok h
  obtain ⟨rfl, rfl⟩ := Prod.mk.inj hs'
  show (inner.click line).map _ = _
  rw [TraceStepper.click_again hinner]
  rfl

theorem run_of_refused (h : s.click line = .ok (false, s)) (times : Nat) :
    run s (List.replicate times (.click line)) = .ok s := by
  have happly : s.apply (.click line) = .ok (.moved false, s) := by
    rw [apply, h]
    rfl
  induction times with
  | zero => rfl
  | succ times ih => rw [List.replicate_succ, run_cons happly, ih]

theorem clickTimes_eq_run (line : UInt32) (times : Nat) (s : SourceStepper) :
    clickTimes line times s = run s (List.replicate times (.click line)) := by
  induction times generalizing s with
  | zero => rfl
  | succ times ih =>
    rw [clickTimes]
    cases hclick : s.click line with
    | error fault =>
      rw [List.replicate_succ, run, List.foldlM_cons, apply, hclick]
      rfl
    | ok result =>
      obtain ⟨yes, s'⟩ := result
      have happly : s.apply (.click line) = .ok (.moved yes, s') := by
        rw [apply, hclick]
        rfl
      rw [List.replicate_succ, run_cons happly]
      cases yes with
      | true => exact ih s'
      | false => exact (run_of_refused (click_again hclick) times).symm

/-- A click finds the positions of its line first. -/
theorem click_of_stepsAt (h : s.inner.stepsAt line = .ok (ps, inner)) :
    s.click line = (s.withInner inner).click line := by
  have hinner : s.inner.click line = inner.click line := by
    rw [TraceStepper.click, TraceStepper.click, h, lists_of_stepsAt h]
  rw [click, hinner]
  rfl

/-- Whole rounds of clicks may be left out. -/
theorem clickTimes_rounds (hok : s.inner.stepsAt line = .ok (ps, inner)) (hnodup : ps.Nodup)
    (hne : ps ≠ []) (times rounds : Nat) :
    clickTimes line (ps.length * rounds + (ps.length + times)) s =
      clickTimes line (ps.length + times) s := by
  have hpos : 0 < ps.length := List.length_pos_iff.2 hne
  have hfirst : ∀ times, 0 < times →
      clickTimes line times s = clickTimes line times (s.withInner inner) := by
    intro times htimes
    obtain ⟨times, rfl⟩ := Nat.exists_eq_add_one.2 htimes
    rw [clickTimes, clickTimes, click_of_stepsAt hok]
  have hlists : (s.withInner inner).inner.Lists line ps := lists_of_stepsAt hok
  rw [hfirst _ (by omega), hfirst _ (by omega), clickTimes_of_lists hnodup hne hlists,
    clickTimes_of_lists hnodup hne hlists, foldl_visited_rounds]

theorem clickMany_eq_run (h : s.inner.Sound) (line : UInt32) (times : Nat) :
    s.clickMany line times = run s (List.replicate times (.click line)) := by
  obtain ⟨ps, memo, hok, -, hascending, -⟩ := stepsAt_ok h line
  have hnodup : ps.Nodup := hascending.imp Nat.ne_of_lt
  rw [← clickTimes_eq_run, clickMany]
  by_cases hzero : times = 0
  · rw [if_pos hzero, hzero]
    rfl
  · rw [if_neg hzero, hok]
    show clickTimes line (if times < 2 * ps.length then times else ps.length + times % ps.length)
      s = clickTimes line times s
    split
    · rfl
    · next hmany =>
      by_cases hne : ps = []
      · simp [hne]
      · -- All rounds but the first are left out.
        have hpos : 0 < ps.length := List.length_pos_iff.2 hne
        have htimes : times =
            ps.length * (times / ps.length - 1) + (ps.length + times % ps.length) := by
          have hdiv : 1 ≤ times / ps.length := (Nat.one_le_div_iff hpos).2 (by omega)
          have hmod := Nat.div_add_mod times ps.length
          rw [← Nat.sub_add_cancel hdiv, Nat.mul_add, Nat.mul_one] at hmod
          omega
        rw [htimes, clickTimes_rounds hok hnodup hne, ← htimes]

end SourceStepper

end TvmDebug
