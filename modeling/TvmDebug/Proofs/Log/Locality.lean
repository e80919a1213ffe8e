import TvmDebug.Proofs.Log.Layout
/-! # Each line of a log is read on its own

`Lays` says that a text is some lines, each with an end of its own. How the lines end does not
count, and what a text tells is what its lines tell one by one (`trimmedLines_of_lays`); so chunks
of whole lines tell together what the log of all these lines tells (`ofLog_local`). A line that is
not understood is such a chunk, and is read again as it was (`trimmedLines_of_mem`). -/
set_option autoImplicit false

namespace TvmDebug

/-! ## Lines with their ends -/

namespace Text

/-- What may stand at the end of a line. -/
inductive LineEnd : List Char → Prop
  | newline : LineEnd ['\n']
  | returned : LineEnd ['\r', '\n']

/-- The text has the lines, each with an end of its own; the last one may do without. -/
inductive Lays : List (List Char) → List Char → Prop
  | nil : Lays [] []
  | last {l : List Char} (hl : '\n' ∉ l) : Lays [l] l
  | cons {l ending text : List Char} {ls : List (List Char)} (hl : '\n' ∉ l)
      (hend : LineEnd ending) (h : Lays ls text) : Lays (l :: ls) (l ++ (ending ++ text))

theorem lays_lines (cs : List Char) : Lays (lines cs) cs := by
  induction cs with
  | nil => exact .last List.not_mem_nil
  | cons c cs ih =>
    by_cases hc : c = '\n'
    · rw [hc, lines_newline]
      exact .cons List.not_mem_nil .newline ih
    · have hcons : ∀ {l : List Char}, '\n' ∉ l → '\n' ∉ c :: l := by
        intro l hl hmem
        rcases List.mem_cons.1 hmem with heq | hmem
        · exact hc heq.symm
        · exact hl hmem
      obtain ⟨l, ls, hcs, hccs⟩ := lines_cons hc cs
      rw [hcs] at ih
      rw [hccs]
      cases ih with
      | last hl => exact .last (hcons hl)
      | cons hl hend h => exact .cons (hcons hl) hend h

theorem Lays.newline_notMem {ls : List (List Char)} {text : List Char} (h : Lays ls text) :
    ∀ l ∈ ls, '\n' ∉ l := by
  induction h with
  | nil => exact List.forall_mem_nil _
  | last hl => exact List.forall_mem_singleton.2 hl
  | cons hl _ _ ih => exact List.forall_mem_cons.2 ⟨hl, ih⟩

end Text

namespace LogLine

open Text

/-! ## What the lines of a text tell -/

section Lines
variable {cs t ending : List Char} {ls : List (List Char)}

theorem trimmedLines_lineEnd (h : LineEnd ending) (a b : List Char) :
    trimmedLines (a ++ (ending ++ b)) = trimmedLines a ++ trimmedLines b := by
  cases h with
  | newline => exact trimmedLines_append a b
  | returned =>
    have hreturn : trimmedLines (a ++ ['\r']) = trimmedLines a :=
      trimmedLines_concat_blank (by decide) a
    have hsplit : a ++ (['\r', '\n'] ++ b) = a ++ ['\r'] ++ '\n' :: b := List.append_cons a '\r' _
    rw [hsplit, trimmedLines_append, hreturn]

/-- A text tells what its lines tell one by one. -/
theorem trimmedLines_of_lays (h : Lays ls cs) : trimmedLines cs = ls.flatMap trimmedLines := by
  induction h with
  | nil => rfl
  | last hl => rw [List.flatMap_singleton]
  | cons hl hend _ ih => rw [trimmedLines_lineEnd hend, ih, List.flatMap_cons]

theorem trimmedLines_of_mem (h : t ∈ trimmedLines cs) : trimmedLines t = [t] := by
  obtain ⟨hmem, hne⟩ := List.mem_filter.1 h
  obtain ⟨l, hl, rfl⟩ := List.mem_map.1 hmem
  have hnewline : '\n' ∉ trim l :=
    fun hmem => (lays_lines cs).newline_notMem l hl (mem_of_mem_trim hmem)
  have hagain : trim (trim l) ≠ [] := by
    rw [trim_trim]
    simpa using hne
  rw [trimmedLines_of_line hnewline hagain, trim_trim]

/-- Chunks of whole lines tell together what all the lines tell. -/
theorem flatMap_trimmedLines {lss : List (List (List Char))} {chunks : List String}
    (h : List.Forall₂ (fun ls chunk => Lays ls chunk.toList) lss chunks) :
    (chunks.flatMap fun chunk => trimmedLines chunk.toList) =
      lss.flatten.flatMap trimmedLines := by
  induction h with
  | nil => rfl
  | cons hchunk _ ih =>
    rw [List.flatMap_cons, List.flatten_cons, List.flatMap_append, ih, trimmedLines_of_lays hchunk]

end Lines

/-! ## Chunks of a log -/

theorem ofLine_eq_unknown {t : List Char} {text : String} (h : ofLine t = .unknown text) :
    text.toList = t := by
  cases ofLine_eq_iff.1 h with
  | spelled hspells => cases hspells
  | unknown => exact String.toList_ofList

/-- A line that is not understood is read again as it was. -/
theorem ofLog_of_unknown {log text : String} (h : .unknown text ∈ ofLog log) :
    ofLog text = [.unknown text] := by
  obtain ⟨t, ht, hline⟩ := List.mem_map.1 h
  rw [ofLog, ofLine_eq_unknown hline, trimmedLines_of_mem ht, List.map_singleton, hline]

/-- **Each line of a log is read on its own.** A log may be cut between any two lines, and its lines
may end in either way there and elsewhere. -/
theorem ofLog_local :
    (∀ a b : String, ofLog (a ++ "\n" ++ b) = ofLog a ++ ofLog b) ∧
    (∀ log text : String, .unknown text ∈ ofLog log → ofLog text = [.unknown text]) ∧
    (∀ log : String, ∃ ls, Lays ls log.toList) ∧
    ∀ (lss : List (List (List Char))) (log : String) (chunks : List String),
      Lays lss.flatten log.toList →
      List.Forall₂ (fun ls chunk => Lays ls chunk.toList) lss chunks →
      ofLog log = chunks.flatMap ofLog := by
  refine ⟨ofLog_append, fun log text => ofLog_of_unknown, fun log => ⟨_, lays_lines log.toList⟩, ?_⟩
  intro lss log chunks hlog hchunks
  calc ofLog log
      = (lss.flatten.flatMap trimmedLines).map ofLine := by rw [ofLog, trimmedLines_of_lays hlog]
    _ = (chunks.flatMap fun chunk => trimmedLines chunk.toList).map ofLine := by
        rw [flatMap_trimmedLines hchunks]
    _ = chunks.flatMap ofLog := List.map_flatMap

/-- All lines of the log end in a carriage return and a newline. In the chunks two end in a newline,
the last one in nothing. -/
theorem ofLog_local_returned :
    let first := "code cell hash: ab offset: 7".toList
    let log := "code cell hash: ab offset: 7\r\n\r\n execute\r\n"
    let chunks := ["code cell hash: ab offset: 7\n\n", " execute"]
    Lays [first, [], " execute".toList] log.toList ∧
      List.Forall₂ (fun ls chunk => Lays ls chunk.toList) [[first, []], [" execute".toList]] chunks ∧
      ofLog log = chunks.flatMap ofLog ∧
      .unknown "execute" ∈ ofLog log ∧ ofLog "execute" = [.unknown "execute"] := by
  intro first log chunks
  obtain ⟨-, hunknown, -, hchunks⟩ := ofLog_local
  have hfirst : '\n' ∉ first := by decide
  have hexecute : '\n' ∉ " execute".toList := by decide
  have hlog : Lays [first, [], " execute".toList] log.toList := by
    have htext : log.toList =
        first ++ (['\r', '\n'] ++ (['\r', '\n'] ++ (" execute".toList ++ ['\r', '\n']))) := by
      decide
    rw [htext]
    exact .cons hfirst .returned
      (.cons List.not_mem_nil .returned (.cons hexecute .returned .nil))
  have hcut : List.Forall₂ (fun ls chunk => Lays ls chunk.toList)
      [[first, []], [" execute".toList]] chunks :=
    .cons (.cons hfirst .newline (.cons List.not_mem_nil .newline .nil))
      (.cons (.last hexecute) .nil)
  have hmem : .unknown "execute" ∈ ofLog log := by decide
  exact ⟨hlog, hcut, hchunks [[first, []], [" execute".toList]] log chunks hlog hcut, hmem,
    hunknown log "execute" hmem⟩

end LogLine

end TvmDebug
