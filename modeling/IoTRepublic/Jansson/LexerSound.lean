import IoTRepublic.Jansson.NumberSound

/-!
# IoTRepublic.Jansson.LexerSound

The tokens `do_dump` writes, as `lex_scan` reads them.

For every kind of token there is a lemma `lexes_..`, and each goes the same way: the first
character decides which branch is taken (`lexScan_start`), and the sound lemma of the
branch does the rest. A token is read where something stands behind it that does not go on
with it: a number needs the end of the number there, a word something that is no letter.
-/

namespace IoTRepublic

open Cpp

namespace LibJansson

section

variable (F : Floats)

/-- In front of the rest, the text is read as the token, from any stream that has the two
at hand. -/
def Lexes (text rest : Text) (token : Token F) : Prop :=
  ∀ stream : Stream, stream.At (text ++ rest) →
    (lexScan F stream).1 = token ∧ (lexScan F stream).2.At rest

variable {rest : Text} {c : Byte}

/-- `lex_scan` behind the white space. -/
theorem lexScan_start {stream : Stream} {text : Text} (hat : stream.At (c :: text))
    (hlow : 0x20 ≤ c) (hhigh : c < 0x80) (hblank : isBlank c = false) :
    ∃ lex : Lexer, lex.At [c] text ∧ lexScan F stream =
      if isPunct c then (.punct c, lex.stream)
      else if c = 0x22 then ((scanString F lex).1, (scanString F lex).2.stream)
      else if isDigit c ∨ c = 0x2D then
        ((scanNumber F (.byte c) lex).1, (scanNumber F (.byte c) lex).2.stream)
      else if isAlpha c then
        let behind := Lexer.saveWhile isAlpha lex.getSave.1 lex.getSave.2
        let word := behind.2.ungetUnsave behind.1
        (identifier F word.savedText, word.stream)
      else (.invalid, { lex.stream with buffer := [] }) := by
  have hne : c ≠ 0 := by
    intro hzero
    subst hzero
    exact absurd hlow (by decide)
  obtain ⟨hget, hnext, -⟩ := hat.get hhigh hne
  let start : Lexer := { stream, savedText := [] }
  have hfirst : start.get.1 = .byte c := hget
  have hskip : Lexer.skipWhile isBlank start.get.1 start.get.2 = (.byte c, start.get.2) := by
    rw [Lexer.skipWhile, hfirst, Got.is_byte, if_neg (by rw [hblank]; decide)]
  refine ⟨start.get.2.save (.byte c), ⟨rfl, hnext⟩, ?_⟩
  rw [lexScan]
  dsimp only
  rw [hskip]

theorem lexes_punct (hpunct : isPunct c = true) (rest : Text) : Lexes F [c] rest (.punct c) := by
  intro stream hat
  have hmem : c = 0x7B ∨ c = 0x7D ∨ c = 0x5B ∨ c = 0x5D ∨ c = 0x3A ∨ c = 0x2C := by
    simpa [isPunct, or_assoc] using hpunct
  have hchar : 0x20 ≤ c ∧ c < 0x80 ∧ isBlank c = false := by
    rcases hmem with rfl | rfl | rfl | rfl | rfl | rfl <;> decide
  obtain ⟨lex, hlex, hscan⟩ := lexScan_start F hat hchar.1 hchar.2.1 hchar.2.2
  rw [hscan, if_pos hpunct]
  exact ⟨rfl, hlex.2⟩

theorem lexes_literal (chars : List Char) (rest : Text) :
    Lexes F (literal chars) rest (.string (encode chars)) := by
  intro stream hat
  have hat : stream.At (0x22 :: (chars.flatMap escapeChar ++ [0x22] ++ rest)) := hat
  obtain ⟨lex, hlex, hscan⟩ := lexScan_start F hat (by decide) (by decide) (by decide)
  rw [List.append_assoc] at hlex
  rw [hscan, if_neg (by decide), if_pos rfl]
  exact scanString_literal F chars hlex

/-- The first character of a numeral. -/
theorem Numeral.Valid.exists_cons {n : Numeral} (hn : n.Valid) (rest : Text) :
    ∃ c text, n.text ++ rest = c :: text ∧ (isDigit c = true ∨ c = 0x2D) := by
  obtain ⟨d, digits, hint⟩ := List.exists_cons_of_ne_nil hn.int.1
  rw [Numeral.text, Numeral.head, hint]
  cases n.minus with
  | false => exact ⟨_, _, rfl, Or.inl (hn.int.2 d (by rw [hint]; exact List.mem_cons_self))⟩
  | true => exact ⟨_, _, rfl, Or.inr rfl⟩

theorem lexes_number {n : Numeral} (hn : n.Valid) (hrest : EndsNumber rest) :
    Lexes F n.text rest (n.token F) := by
  intro stream hat
  obtain ⟨c, text, htext, hc⟩ := hn.exists_cons rest
  have hchar : 0x20 ≤ c ∧ c < 0x80 ∧ isBlank c = false ∧ isPunct c = false ∧ c ≠ 0x22 := by
    rcases hc with hdigit | rfl
    · have hrange : 48 ≤ c.toNat ∧ c.toNat ≤ 57 := by simpa [isDigit] using hdigit
      simp only [isBlank, isPunct, UInt8.le_iff_toNat_le, UInt8.lt_iff_toNat_lt,
        ← UInt8.toNat_inj, ne_eq, Bool.or_eq_false_iff, decide_eq_false_iff_not,
        UInt8.reduceToNat]
      omega
    · decide
  obtain ⟨hlow, hhigh, hblank, hpunct, hquote⟩ := hchar
  rw [htext] at hat
  obtain ⟨lex, hlex, hscan⟩ := lexScan_start F hat hlow hhigh hblank
  rw [hscan, if_neg (by rw [hpunct]; decide), if_neg hquote, if_pos hc]
  exact scanNumber_at hn hrest htext hlex

theorem ascii_isAlpha (h : isAlpha c = true) : 0x20 ≤ c ∧ c < 0x80 := by
  simp only [isAlpha, Bool.or_eq_true, Bool.and_eq_true, decide_eq_true_eq,
    UInt8.le_iff_toNat_le, UInt8.lt_iff_toNat_lt, UInt8.reduceToNat] at h ⊢
  omega

/-- An identifier, in front of what is no letter. -/
theorem lexes_identifier {word : Text} (hne : word ≠ []) (hword : ∀ b ∈ word, isAlpha b = true)
    (hreadable : Readable rest) (hrest : ∀ b ∈ rest.head?, isAlpha b = false) :
    Lexes F word rest (identifier F word) := by
  intro stream hat
  obtain ⟨c, word, rfl⟩ := List.exists_cons_of_ne_nil hne
  have hc := hword c List.mem_cons_self
  have hother : isBlank c = false ∧ isPunct c = false ∧ c ≠ 0x22 ∧ isDigit c = false
      ∧ c ≠ 0x2D := by
    simp only [isAlpha, isBlank, isPunct, isDigit, Bool.or_eq_true, Bool.and_eq_true,
      decide_eq_true_eq, UInt8.le_iff_toNat_le, ← UInt8.toNat_inj, ne_eq, Bool.or_eq_false_iff,
      Bool.and_eq_false_iff, decide_eq_false_iff_not, UInt8.reduceToNat] at hc ⊢
    omega
  obtain ⟨hblank, hpunct, hquote, hdigit, hminus⟩ := hother
  obtain ⟨lex, hlex, hscan⟩ :=
    lexScan_start F hat (ascii_isAlpha hc).1 (ascii_isAlpha hc).2 hblank
  obtain ⟨lex', hlex', hwhile⟩ := saveWhile_at ascii_isAlpha
    (fun b hb => hword b (List.mem_cons_of_mem c hb)) hreadable hrest hlex
  obtain ⟨hsaved, hstream⟩ := (hlex'.ungetUnsave hreadable).2
  rw [hscan, if_neg (by rw [hpunct]; decide), if_neg hquote,
    if_neg (by simp [hdigit, hminus]), if_pos hc]
  dsimp only
  rw [hwhile, hsaved]
  exact ⟨rfl, hstream⟩

/-- Behind the text. -/
theorem lexScan_nil {stream : Stream} (hat : stream.At []) :
    (lexScan F stream).1 = .eof ∧ (lexScan F stream).2.At [] := by
  obtain ⟨hget, hnext⟩ := hat.get_nil
  let start : Lexer := { stream, savedText := [] }
  have hfirst : start.get.1 = .eof := hget
  have hskip : Lexer.skipWhile isBlank start.get.1 start.get.2 = (.eof, start.get.2) := by
    rw [Lexer.skipWhile, hfirst, if_neg (by simp [Got.is])]
  rw [lexScan]
  dsimp only
  rw [hskip]
  exact ⟨rfl, hnext⟩

end

end LibJansson

end IoTRepublic
