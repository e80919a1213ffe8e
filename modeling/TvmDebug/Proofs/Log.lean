import Mathlib.Data.List.Forall2
import TvmDebug.Log.Reader
import TvmDebug.Proofs.Text.Trim
/-! # What the lines of a log tell

`LogLine.Spells` is the grammar of the two kinds of lines that tell something, as the parts such a
line is made of. `LogLine.Tells` adds that every other line is unknown, and `ofLog_eq_iff` that a
log is read as what its trimmed lines tell, and as nothing else.

Each reader of a part is exact about the text it leaves (`dropBlanks1?_eq_some_iff`,
`signedNumber?_iff`, `message?_eq_some_iff`), because what follows a part never starts with a
character that the part could go on with: blanks, hexadecimal digits, decimal digits, the colon and
the letters of the literals are all apart. -/
set_option autoImplicit false

namespace TvmDebug

open Text

namespace LogLine

/-! ## The grammar -/

/-- The digits of a number, after a minus sign or none. -/
inductive WritesInt : List Char → Int → Prop
  | plain {run : List Char} {n : Nat} (h : WritesNat run n) : WritesInt run n
  | negative {run : List Char} {n : Nat} (h : WritesNat run n) : WritesInt ('-' :: run) (-n)

/-- What follows the number of an exception: nothing, or a colon and a message. -/
inductive WritesMessage : List Char → List Char → Prop
  | nothing : WritesMessage [] []
  | message {message rest : List Char} (h : IsTrimOf message rest) :
      WritesMessage (':' :: rest) message

/-- The lines that tell something. -/
inductive Spells : List Char → LogLine → Prop
  | location {before hash between after number rest : List Char} {offset : UInt32}
      (hbefore : Blanks before)
      (hhash : hash ≠ [] ∧ ∀ c ∈ hash, isHexDigit c = true)
      (hbetween : between ≠ [] ∧ Blanks between)
      (hafter : Blanks after)
      (hnumber : WritesNat number offset.toNat)
      (hrest : Ends isDecimalDigit rest) :
      Spells
        ("code cell hash:".toList ++ (before ++ (hash ++ (between ++
          ("offset:".toList ++ (after ++ (number ++ rest)))))))
        (.location (String.ofList hash) offset)
  | exception {before number tail message : List Char} {errno : Int32}
      (hbefore : before ≠ [] ∧ Blanks before)
      (hnumber : WritesInt number errno.toInt)
      (htail : WritesMessage tail message) :
      Spells ("handling exception code".toList ++ (before ++ (number ++ tail)))
        (.exception errno (String.ofList message))

/-- What a trimmed line tells; a line that spells nothing is unknown. -/
inductive Tells (t : List Char) : LogLine → Prop
  | spelled {line : LogLine} (h : Spells t line) : Tells t line
  | unknown (h : ∀ line, ¬ Spells t line) : Tells t (.unknown (String.ofList t))

/-! ## Characters of different kinds -/

theorem isHexDigit_iff {c : Char} :
    isHexDigit c = true ↔ (48 ≤ c.toNat ∧ c.toNat ≤ 57) ∨ (97 ≤ c.toNat ∧ c.toNat ≤ 102) ∨
      (65 ≤ c.toNat ∧ c.toNat ≤ 70) := by
  simp only [isHexDigit, Char.isDigit, Bool.or_eq_true, Bool.and_eq_true, decide_eq_true_eq,
    Char.le_def, UInt32.le_iff_toNat_le]
  exact or_assoc

theorem isBlank_of_isHexDigit {c : Char} (h : isHexDigit c = true) : isBlank c = false := by
  have hrange := isHexDigit_iff.1 h
  simp only [isBlank, Bool.or_eq_false_iff, Bool.and_eq_false_iff, decide_eq_false_iff_not,
    beq_eq_false_iff_ne]
  omega

theorem isHexDigit_of_isBlank {c : Char} (h : isBlank c = true) : isHexDigit c = false :=
  Bool.eq_false_iff.2 fun hhex => Bool.eq_false_iff.1 (isBlank_of_isHexDigit hhex) h

theorem isBlank_of_isDigit {c : Char} (h : c.isDigit = true) : isBlank c = false :=
  isBlank_of_isHexDigit (by rw [isHexDigit, h]; rfl)

theorem isDecimalDigit_of_isDigit {c : Char} (h : c.isDigit = true) :
    isDecimalDigit c = true := by
  obtain ⟨hge, hle⟩ : 48 ≤ c.toNat ∧ c.toNat ≤ 57 := by
    simpa [Char.isDigit, UInt32.le_iff_toNat_le] using h
  refine List.any_eq_true.2 ⟨0x30, List.mem_cons_self, ?_⟩
  simp only [Bool.and_eq_true, decide_eq_true_eq]
  omega

theorem WritesMessage.ends {tail message : List Char} (h : WritesMessage tail message) :
    Ends isDecimalDigit tail := by
  cases h with
  | nothing => exact ends_nil _
  | message h => exact ends_cons (by decide) _

theorem WritesInt.ne_nil {number : List Char} {k : Int} (h : WritesInt number k) :
    number ≠ [] := by
  cases h with
  | plain h => exact h.ne_nil
  | negative h => nofun

theorem WritesInt.ends {number : List Char} {k : Int} (h : WritesInt number k) :
    Ends isBlank number := by
  cases h with
  | plain h =>
    have hends := ends_append (fun _ => isBlank_of_isDigit) h.ne_nil h.digits []
    rwa [List.append_nil] at hends
  | negative h => exact ends_cons (by decide) _

/-! ## Reading the parts -/

section Parts
variable {cs rest : List Char}

theorem dropBlanks1?_eq_some_iff :
    dropBlanks1? cs = some rest ↔
      ∃ blanks, (blanks ≠ [] ∧ Blanks blanks) ∧ Ends isBlank rest ∧ cs = blanks ++ rest := by
  cases cs with
  | nil => simp [dropBlanks1?]
  | cons c cs =>
    rw [dropBlanks1?, Option.ite_none_right_eq_some, Option.some.injEq, trimLeft_eq_iff]
    constructor
    · rintro ⟨hc, blanks, hblanks, hrest, rfl⟩
      exact ⟨c :: blanks, ⟨nofun, List.forall_mem_cons.2 ⟨hc, hblanks⟩⟩, hrest, rfl⟩
    · rintro ⟨blanks, ⟨hne, hblanks⟩, hrest, hcs⟩
      cases blanks with
      | nil => exact absurd rfl hne
      | cons c' blanks =>
        obtain ⟨rfl, rfl⟩ := List.cons.inj hcs
        obtain ⟨hc, hblanks⟩ := List.forall_mem_cons.1 hblanks
        exact ⟨hc, blanks, hblanks, hrest, rfl⟩

theorem splitSign_of_ne (h : ¬ ∃ cs', cs = '-' :: cs') : splitSign cs = (false, cs) := by
  unfold splitSign
  split
  · exact absurd ⟨_, rfl⟩ h
  · rfl

theorem message?_eq_some_iff {message : List Char} :
    message? cs = some message ↔ WritesMessage cs message := by
  unfold message?
  split
  · constructor
    · rintro ⟨⟩
      exact .nothing
    · rintro ⟨⟩
      rfl
  · rw [Option.some.injEq, ← isTrimOf_iff]
    constructor
    · exact .message
    · rintro ⟨⟩
      assumption
  · next hnil hcolon =>
    constructor
    · nofun
    · rintro (_ | h)
      · exact absurd rfl hnil
      · exact absurd rfl (hcolon _)

theorem number?_eq_some_iff {n : Nat} :
    natOfDigits? (cs.takeWhile isDecimalDigit) = some n ∧ cs.dropWhile isDecimalDigit = rest ↔
      ∃ number, WritesNat number n ∧ Ends isDecimalDigit rest ∧ cs = number ++ rest := by
  rw [natOfDigits?_eq_some_iff]
  constructor
  · rintro ⟨hnumber, hrest⟩
    obtain ⟨-, hends, hcs⟩ := run_iff.1 ⟨rfl, hrest⟩
    exact ⟨_, hnumber, hends, hcs⟩
  · rintro ⟨number, hnumber, hends, hcs⟩
    obtain ⟨htake, hdrop⟩ :=
      run_iff.2 ⟨fun c hc => isDecimalDigit_of_isDigit (hnumber.digits c hc), hends, hcs⟩
    exact ⟨htake ▸ hnumber, hdrop⟩

theorem signedNumber?_iff {k : Int} :
    (∃ n : Nat, natOfDigits? ((splitSign cs).2.takeWhile isDecimalDigit) = some n ∧
        (splitSign cs).2.dropWhile isDecimalDigit = rest ∧
        (if (splitSign cs).1 = true then -(n : Int) else n) = k) ↔
      ∃ number, WritesInt number k ∧ Ends isDecimalDigit rest ∧ cs = number ++ rest := by
  constructor
  · rintro ⟨n, hn, hrest, rfl⟩
    obtain ⟨number, hnumber, hends, hcs⟩ := number?_eq_some_iff.1 ⟨hn, hrest⟩
    by_cases hsign : ∃ cs', cs = '-' :: cs'
    · obtain ⟨cs', rfl⟩ := hsign
      exact ⟨'-' :: number, .negative hnumber, hends, congrArg ('-' :: ·) hcs⟩
    · rw [splitSign_of_ne hsign] at hcs ⊢
      exact ⟨number, .plain hnumber, hends, hcs⟩
  · rintro ⟨_, hsigned, hends, rfl⟩
    cases hsigned with
    | plain hnumber =>
      obtain ⟨hn, hdrop⟩ := number?_eq_some_iff.2 ⟨_, hnumber, hends, rfl⟩
      rw [splitSign_of_ne fun ⟨cs', h⟩ => hnumber.ne_minus _ cs' h]
      exact ⟨_, hn, hdrop, rfl⟩
    | negative hnumber =>
      obtain ⟨hn, hdrop⟩ := number?_eq_some_iff.2 ⟨_, hnumber, hends, rfl⟩
      exact ⟨_, hn, hdrop, rfl⟩

end Parts

/-! ## Reading a line -/

section Line
variable {t : List Char} {line : LogLine}

theorem location?_eq_some_iff :
    location? t = some line ↔
      ∃ r₁, dropLiteral? "code cell hash:".toList t = some r₁ ∧
        (trimLeft r₁).takeWhile isHexDigit ≠ [] ∧
        ∃ r₂, dropBlanks1? ((trimLeft r₁).dropWhile isHexDigit) = some r₂ ∧
          ∃ r₃, dropLiteral? "offset:".toList r₂ = some r₃ ∧
            ∃ n, natOfDigits? ((trimLeft r₃).takeWhile isDecimalDigit) = some n ∧
              ∃ offset, toUInt32? n = some offset ∧
                .location (String.ofList ((trimLeft r₁).takeWhile isHexDigit)) offset = line := by
  simp only [location?, Option.bind_eq_bind, Option.bind_eq_some_iff, List.isEmpty_iff,
    Option.bind_none, Option.ite_none_left_eq_some, Option.some.injEq, ne_eq]

theorem exception?_eq_some_iff :
    exception? t = some line ↔
      ∃ r₁, dropLiteral? "handling exception code".toList t = some r₁ ∧
        ∃ r₂, dropBlanks1? r₁ = some r₂ ∧
          ∃ n, natOfDigits? ((splitSign r₂).2.takeWhile isDecimalDigit) = some n ∧
            ∃ message, message? ((splitSign r₂).2.dropWhile isDecimalDigit) = some message ∧
              ∃ errno, toInt32? (if (splitSign r₂).1 = true then -(n : Int) else n) = some errno ∧
                .exception errno (String.ofList message) = line := by
  simp only [exception?, Option.bind_eq_bind, Option.bind_eq_some_iff, Option.some.injEq]

theorem spells_of_location? (h : location? t = some line) : Spells t line := by
  obtain ⟨r₁, hlit₁, hne, r₂, hr₂, r₃, hlit₂, n, hn, offset, hoffset, rfl⟩ :=
    location?_eq_some_iff.1 h
  obtain rfl := dropLiteral?_eq_some_iff.1 hlit₁
  obtain rfl := dropLiteral?_eq_some_iff.1 hlit₂
  obtain rfl := toUInt32?_eq_some_iff.1 hoffset
  -- Each reader splits what it was given into its part and the rest; the rests are put together
  -- again at the end, the last one first.
  obtain ⟨before, hbefore, -, hr₁⟩ := trimLeft_eq_iff.1 (Eq.refl (trimLeft r₁))
  obtain ⟨hhash, -, htrim₁⟩ := run_iff.1 ⟨Eq.refl ((trimLeft r₁).takeWhile isHexDigit), rfl⟩
  obtain ⟨between, hbetween, -, hdrop₁⟩ := dropBlanks1?_eq_some_iff.1 hr₂
  obtain ⟨after, hafter, -, hr₃⟩ := trimLeft_eq_iff.1 (Eq.refl (trimLeft r₃))
  obtain ⟨number, hnumber, hrest, htrim₃⟩ := number?_eq_some_iff.1 ⟨hn, rfl⟩
  have hline := Spells.location hbefore ⟨hne, hhash⟩ hbetween hafter hnumber hrest
  rwa [← htrim₃, ← hr₃, ← hdrop₁, ← htrim₁, ← hr₁] at hline

theorem location?_of_spells {hash : String} {offset : UInt32}
    (h : Spells t (.location hash offset)) : location? t = some (.location hash offset) := by
  cases h with
  | @location before hash between after number rest _ hbefore hhash hbetween hafter hnumber
      hrest =>
    -- No part goes on into the next one.
    have hnumberEnds : Ends isBlank (number ++ rest) :=
      ends_append (fun _ => isBlank_of_isDigit) hnumber.ne_nil hnumber.digits rest
    have hoffset : Ends isBlank ("offset:".toList ++ (after ++ (number ++ rest))) :=
      ends_cons (by decide) _
    have hbetweenEnds : Ends isHexDigit
        (between ++ ("offset:".toList ++ (after ++ (number ++ rest)))) :=
      ends_append (fun _ => isHexDigit_of_isBlank) hbetween.1 hbetween.2 _
    have hhashEnds : Ends isBlank
        (hash ++ (between ++ ("offset:".toList ++ (after ++ (number ++ rest))))) :=
      ends_append (fun _ => isBlank_of_isHexDigit) hhash.1 hhash.2 _
    have htrim₁ := trimLeft_eq_iff.2 ⟨before, hbefore, hhashEnds, rfl⟩
    obtain ⟨htake, hdrop⟩ := run_iff.2 ⟨hhash.2, hbetweenEnds, rfl⟩
    have htrim₃ := trimLeft_eq_iff.2 ⟨after, hafter, hnumberEnds, rfl⟩
    obtain ⟨hn, -⟩ := number?_eq_some_iff.2 ⟨number, hnumber, hrest, rfl⟩
    refine location?_eq_some_iff.2 ⟨_, dropLiteral?_eq_some_iff.2 rfl, ?_⟩
    rw [htrim₁, htake, hdrop]
    refine ⟨hhash.1, _, dropBlanks1?_eq_some_iff.2 ⟨between, hbetween, hoffset, rfl⟩,
      _, dropLiteral?_eq_some_iff.2 rfl, _, ?_, offset, toUInt32?_eq_some_iff.2 rfl, rfl⟩
    rw [htrim₃, hn]

theorem spells_of_exception? (h : exception? t = some line) : Spells t line := by
  obtain ⟨r₁, hlit, r₂, hr₂, n, hn, message, hmessage, errno, herrno, rfl⟩ :=
    exception?_eq_some_iff.1 h
  obtain rfl := dropLiteral?_eq_some_iff.1 hlit
  obtain ⟨before, hbefore, -, rfl⟩ := dropBlanks1?_eq_some_iff.1 hr₂
  obtain ⟨number, hnumber, -, hsplit⟩ :=
    signedNumber?_iff.1 ⟨n, hn, rfl, toInt32?_eq_some_iff.1 herrno⟩
  have hline := Spells.exception hbefore hnumber (message?_eq_some_iff.1 hmessage)
  rwa [← hsplit] at hline

theorem exception?_of_spells {errno : Int32} {message : String}
    (h : Spells t (.exception errno message)) :
    exception? t = some (.exception errno message) := by
  cases h with
  | @exception before number tail message _ hbefore hnumber htail =>
    obtain ⟨n, hn, hdrop, hvalue⟩ := signedNumber?_iff.2 ⟨number, hnumber, htail.ends, rfl⟩
    have hblank : Ends isBlank (number ++ tail) := hnumber.ends.append hnumber.ne_nil tail
    refine exception?_eq_some_iff.2 ⟨_, dropLiteral?_eq_some_iff.2 rfl, _,
      dropBlanks1?_eq_some_iff.2 ⟨before, hbefore, hblank, rfl⟩, n, hn, message, ?_, errno,
      toInt32?_eq_some_iff.2 hvalue, rfl⟩
    rw [hdrop, message?_eq_some_iff]
    exact htail

theorem location?_of_exception {errno : Int32} {message : String}
    (h : Spells t (.exception errno message)) : location? t = none := by
  -- The two kinds of lines start with different letters.
  cases h
  rfl

theorem read_eq_some_iff : (location? t).or (exception? t) = some line ↔ Spells t line := by
  rw [Option.or_eq_some_iff]
  constructor
  · rintro (h | ⟨-, h⟩)
    · exact spells_of_location? h
    · exact spells_of_exception? h
  · intro h
    cases line with
    | location hash offset => exact .inl (location?_of_spells h)
    | exception errno message => exact .inr ⟨location?_of_exception h, exception?_of_spells h⟩
    | unknown text => cases h

theorem ofLine_eq_iff : ofLine t = line ↔ Tells t line := by
  unfold ofLine
  cases hread : (location? t).or (exception? t) with
  | none =>
    have hunknown : ∀ line, ¬ Spells t line := by
      intro line h
      rw [← read_eq_some_iff, hread] at h
      cases h
    constructor
    · rintro rfl
      exact .unknown hunknown
    · rintro (h | h)
      · exact absurd h (hunknown line)
      · rfl
  | some line' =>
    have hline' : Spells t line' := read_eq_some_iff.1 hread
    constructor
    · rintro rfl
      exact .spelled hline'
    · rintro (h | h)
      · exact Option.some.inj (hread.symm.trans (read_eq_some_iff.2 h))
      · exact absurd hline' (h line')

end Line

/-! ## Reading a log -/

theorem forall₂_isTrimOf_iff {ls ts : List (List Char)} :
    List.Forall₂ IsTrimOf ts ls ↔ ts = ls.map trim := by
  have htrim : IsTrimOf = fun t l => t = trim l := by
    funext t l
    exact propext (isTrimOf_iff.trans eq_comm)
  rw [htrim, ← List.forall₂_map_right_iff, List.forall₂_eq_eq_eq]

theorem forall₂_tells_iff {ts : List (List Char)} {lines : List LogLine} :
    List.Forall₂ Tells ts lines ↔ ts.map ofLine = lines := by
  have htells : Tells = fun t line => ofLine t = line := by
    funext t line
    exact propext ofLine_eq_iff.symm
  rw [htells, ← List.forall₂_map_left_iff, List.forall₂_eq_eq_eq]

/-- **A log is read by its grammar.** The lines read are what the trimmed lines of the log tell, one
for each that is not empty, in order. -/
theorem ofLog_eq_iff (log : String) (lines : List LogLine) :
    ofLog log = lines ↔
      ∃ ls ts, IsLines log.toList ls ∧ List.Forall₂ IsTrimOf ts ls ∧
        List.Forall₂ Tells (ts.filter fun t => !t.isEmpty) lines := by
  simp only [forall₂_isTrimOf_iff, forall₂_tells_iff]
  constructor
  · rintro rfl
    obtain ⟨ls, hls⟩ := exists_isLines log.toList
    refine ⟨ls, _, hls, rfl, ?_⟩
    rw [ofLog, trimmedLines, hls.trimmed_eq]
  · rintro ⟨ls, _, hls, rfl, rfl⟩
    rw [ofLog, trimmedLines, hls.trimmed_eq]

example :
    ofLog "\tcode cell hash:5aF0 offset: 24;\r\n\nhandling exception code -14: \nexecute" =
      [.location "5aF0" 24, .exception (-14) "", .unknown "execute"] := by
  decide

end LogLine

end TvmDebug
