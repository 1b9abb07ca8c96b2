import IoTRepublic.Jansson.StringSound

/-!
# IoTRepublic.Jansson.NumberSound

The numbers of JSON: `lex_scan_number` takes the whole of a numeral, and what it makes
of it is what `strtod` or `strtoll` says about the text.

Main results: `scanNumber_at`, `strtoint_showInt`.

The scanner stops one character behind the number and puts it back, so every lemma has the
rest of the text in it and asks that it can be put back (`Readable`) and does not go on
with the number (`EndsNumber`). Integers and reals are told apart by their spelling alone.
For a real nothing is computed here: its token holds whatever the parameter `strtod` makes
of the text.

`strtoll` is part of the model (`strtoint`), with its `ERANGE`, and `strtoint_showInt` is
the round trip of the 64-bit integers `do_dump` prints.
-/

namespace IoTRepublic

open Cpp

namespace LibJansson

/-- What can be looked at and put back: the end, or a printable character in ASCII. -/
def Readable (text : Text) : Prop := ∀ b ∈ text.head?, 0x20 ≤ b ∧ b < 0x80

/-- What looking at the text returns: its first byte, or the end. -/
def peek : Text → Got
  | [] => .eof
  | b :: _ => .byte b

/-- The text can be looked at and put back, and does not go on with the number. -/
def EndsNumber (text : Text) : Prop :=
  Readable text ∧ ∀ b ∈ text.head?, isDigit b = false ∧ b ≠ 0x2E ∧ b ≠ 0x45 ∧ b ≠ 0x65

theorem readable_cons {b : Byte} {text : Text} (hlow : 0x20 ≤ b) (hhigh : b < 0x80) :
    Readable (b :: text) := by
  intro c hc
  obtain rfl : b = c := Option.some.inj hc
  exact ⟨hlow, hhigh⟩

section

variable {lex : Lexer} {saved text rest : Text} {b : Byte}

/-- A character that is looked at and put back. -/
theorem Lexer.At.ungetUnsave (h : lex.At saved text) (hreadable : Readable text) :
    lex.getSave.1 = peek text ∧ (lex.getSave.2.ungetUnsave lex.getSave.1).At saved text := by
  cases text with
  | nil =>
      obtain ⟨hget, hat⟩ := h.2.get_nil
      have hgot : lex.getSave.1 = .eof := hget
      refine ⟨hgot, ?_⟩
      rw [hgot, Lexer.getSave, Lexer.get, hget]
      exact ⟨h.1, hat⟩
  | cons b text =>
      obtain ⟨hlow, hhigh⟩ := hreadable b rfl
      have hne : b ≠ 0 := by
        intro hzero
        subst hzero
        exact absurd hlow (by decide)
      obtain ⟨hget, -, -⟩ := h.2.get hhigh hne
      have hback := h.2.get_unget hhigh hne
      rw [hget] at hback
      refine ⟨hget, ?_⟩
      rw [Lexer.getSave, Lexer.get, hget]
      exact ⟨by simp [Lexer.save, Lexer.ungetUnsave, h.1], hback⟩

theorem ascii_isDigit (h : isDigit b = true) : 0x20 ≤ b ∧ b < 0x80 := by
  have hrange : 48 ≤ b.toNat ∧ b.toNat ≤ 57 := by simpa [isDigit] using h
  simp only [UInt8.le_iff_toNat_le, UInt8.lt_iff_toNat_lt, UInt8.reduceToNat]
  omega

/-- What passes the test is passed, up to what does not. -/
theorem saveWhile_at {p : Byte → Bool} (hp : ∀ {b}, p b = true → 0x20 ≤ b ∧ b < 0x80)
    (hall : ∀ b ∈ text, p b = true) (hreadable : Readable rest)
    (hrest : ∀ b ∈ rest.head?, p b = false) (hat : lex.At saved (text ++ rest)) :
    ∃ lex' : Lexer, lex'.At (saved ++ text) rest
      ∧ Lexer.saveWhile p lex.getSave.1 lex.getSave.2 = lex'.getSave := by
  induction text generalizing lex saved with
  | nil =>
      refine ⟨lex, by rwa [List.append_nil], ?_⟩
      have hnone : (peek rest).is p ≠ true := by
        cases rest with
        | nil => simp [peek, Got.is]
        | cons b rest => simpa [peek] using hrest b rfl
      have hlook : lex.getSave.1 = peek rest := (hat.ungetUnsave hreadable).1
      rw [Lexer.saveWhile, if_neg (by rwa [hlook])]
  | cons b text ih =>
      have hb := hall b List.mem_cons_self
      obtain ⟨hget, hnext⟩ := hat.getSave (hp hb).1 (hp hb).2
      obtain ⟨lex', hat', hwhile⟩ := ih (fun c hc => hall c (List.mem_cons_of_mem b hc)) hnext
      refine ⟨lex', by rwa [List.append_assoc] at hat', ?_⟩
      rw [Lexer.saveWhile, hget, Got.is_byte, if_pos hb, hwhile]

end

/-! ### Numerals -/

/-- The token of a real. -/
def realToken (F : Floats) (text : Text) : Token F :=
  match F.strtod text with
  | some value => .real value
  | none => .invalid

/-- The token of an integer, invalid where 64 bits do not hold it. -/
def integerToken (F : Floats) (text : Text) : Token F :=
  match strtoint text with
  | some value => .integer value
  | none => .invalid

/-- The token of a numeral: a real if there is a point or an exponent in it, an integer if
not. -/
def Numeral.token (F : Floats) (n : Numeral) : Token F :=
  if n.frac.isSome ∨ n.exp.isSome then realToken F n.text else integerToken F n.text

section

variable {F : Floats} {lex : Lexer} {saved rest : Text} {n : Numeral}

/-- A token has been read, and the stream is behind it. -/
def Reaches (result : Token F × Lexer) (token : Token F) (rest : Text) : Prop :=
  result.1 = token ∧ result.2.stream.At rest

theorem scanReal_at (hat : lex.At saved rest) (hreadable : Readable rest) :
    Reaches (scanReal F lex.getSave.1 lex.getSave.2) (realToken F saved) rest := by
  have hback := (hat.ungetUnsave hreadable).2
  rw [scanReal, hback.1, realToken]
  cases F.strtod saved with
  | some value => exact ⟨rfl, hback.2⟩
  | none => exact ⟨rfl, hback.2⟩

/-- The sign of the exponent, if there is one. -/
theorem sign_at {sign digits : Text} {d : Byte} (hsign : sign ∈ [[], [0x2B], [0x2D]])
    (hd : isDigit d = true) (hat : lex.At saved (sign ++ d :: digits)) :
    ∃ lex' : Lexer, lex'.At (saved ++ sign) (d :: digits)
      ∧ (if lex.getSave.1.is (fun b => b = 0x2B || b = 0x2D) then lex.getSave.2.getSave
        else lex.getSave) = lex'.getSave := by
  simp only [List.mem_cons, List.not_mem_nil, or_false] at hsign
  rcases hsign with rfl | rfl | rfl
  · have hsigns := not_isDigit_of_ne hd
    have hlook := (hat.getSave (ascii_isDigit hd).1 (ascii_isDigit hd).2).1
    refine ⟨lex, by rwa [List.append_nil], ?_⟩
    rw [hlook, if_neg (by simp [hsigns.2.2.1, hsigns.2.2.2])]
  · obtain ⟨hplus, hnext⟩ := hat.getSave (by decide) (by decide)
    refine ⟨_, hnext, ?_⟩
    rw [hplus]
    rfl
  · obtain ⟨hminus, hnext⟩ := hat.getSave (by decide) (by decide)
    refine ⟨_, hnext, ?_⟩
    rw [hminus]
    rfl

theorem scanExponent_at (hn : n.Valid) (hrest : EndsNumber rest)
    (hat : lex.At saved (n.expText ++ rest)) :
    Reaches (scanExponent F lex.getSave.1 lex.getSave.2) (realToken F (saved ++ n.expText))
      rest := by
  rw [Numeral.expText] at hat ⊢
  cases hexp : n.exp with
  | none =>
      rw [hexp] at hat
      have hnone : (peek rest).is (fun b => b = 0x45 || b = 0x65) ≠ true := by
        cases rest with
        | nil => simp [peek, Got.is]
        | cons b rest => simpa [peek] using (hrest.2 b rfl).2.2
      have hlook := (hat.ungetUnsave hrest.1).1
      rw [scanExponent, if_neg (by rw [hlook]; exact hnone), List.append_nil]
      exact scanReal_at hat hrest.1
  | some e =>
      obtain ⟨sign, digits⟩ := e
      obtain ⟨hsign, hne, hall⟩ := hn.exp _ hexp
      rw [hexp] at hat
      obtain ⟨d, digits, rfl⟩ := List.exists_cons_of_ne_nil hne
      have hd := hall d List.mem_cons_self
      dsimp only at hat ⊢
      rw [List.cons_append, List.cons_append, List.append_assoc] at hat
      obtain ⟨he, hat⟩ := hat.getSave (by decide) (by decide)
      obtain ⟨lex', hat, hdigit⟩ := sign_at hsign hd hat
      obtain ⟨hget, hat⟩ := hat.getSave (ascii_isDigit hd).1 (ascii_isDigit hd).2
      obtain ⟨lex'', hat, hwhile⟩ := saveWhile_at ascii_isDigit
        (fun b hb => hall b (List.mem_cons_of_mem d hb))
        hrest.1 (fun b hb => (hrest.2 b hb).1) hat
      rw [scanExponent, he, Got.is_byte, if_pos (by decide)]
      dsimp only
      rw [hdigit, hget, Got.is_byte, if_pos hd, hwhile]
      simp only [List.append_assoc] at hat
      exact scanReal_at hat hrest.1

/-- An exponent or what follows the number is put back as well. -/
theorem expText_look (n : Numeral) (hrest : EndsNumber rest) :
    Readable (n.expText ++ rest)
      ∧ ∀ b ∈ (n.expText ++ rest).head?, isDigit b = false ∧ b ≠ 0x2E := by
  rw [Numeral.expText]
  cases hexp : n.exp with
  | none => exact ⟨hrest.1, fun b hb => ⟨(hrest.2 b hb).1, (hrest.2 b hb).2.1⟩⟩
  | some e =>
      refine ⟨readable_cons (by decide) (by decide), fun b hb => ?_⟩
      obtain rfl : (0x65 : Byte) = b := Option.some.inj hb
      decide

theorem scanFraction_at (hn : n.Valid) (hrest : EndsNumber rest)
    (hat : lex.At saved (n.fracText ++ n.expText ++ rest)) :
    Reaches (scanFraction F lex.getSave.1 lex.getSave.2)
      (realToken F (saved ++ n.fracText ++ n.expText)) rest := by
  obtain ⟨hreadable, hstops⟩ := expText_look n hrest
  rw [Numeral.fracText] at hat ⊢
  cases hfrac : n.frac with
  | none =>
      rw [hfrac] at hat
      dsimp only at hat ⊢
      rw [List.nil_append] at hat
      have hnone : peek (n.expText ++ rest) ≠ .byte 0x2E := by
        cases htext : n.expText ++ rest with
        | nil => simp [peek]
        | cons b text => simpa [peek] using (hstops b (by rw [htext]; rfl)).2
      have hlook := (hat.ungetUnsave hreadable).1
      rw [scanFraction, if_neg (by rwa [hlook]), List.append_nil]
      exact scanExponent_at hn hrest hat
  | some digits =>
      obtain ⟨hne, hall⟩ := hn.frac _ hfrac
      rw [hfrac] at hat
      obtain ⟨d, digits, rfl⟩ := List.exists_cons_of_ne_nil hne
      have hd := hall d List.mem_cons_self
      dsimp only at hat ⊢
      rw [List.append_assoc, List.cons_append] at hat
      obtain ⟨hpoint, hat⟩ := hat.getSave (by decide) (by decide)
      -- `lex_get` and then `lex_save` are `lex_get_save`.
      obtain ⟨hget, hnext⟩ := hat.getSave (ascii_isDigit hd).1 (ascii_isDigit hd).2
      obtain ⟨lex', hat', hwhile⟩ := saveWhile_at ascii_isDigit
        (fun b hb => hall b (List.mem_cons_of_mem d hb))
        hreadable (fun b hb => (hstops b hb).1) hnext
      have hsave : lex.getSave.2.get.2.save lex.getSave.2.get.1 = lex.getSave.2.getSave.2 := rfl
      have hdigit : lex.getSave.2.get.1 = .byte d := hget
      rw [scanFraction, hpoint, if_pos rfl]
      dsimp only
      rw [hsave, hwhile, hdigit, Got.is_byte, if_pos hd]
      have hresult := scanExponent_at (F := F) hn hrest hat'
      simpa only [List.append_assoc, List.cons_append, List.nil_append] using hresult

theorem scanTail_at (hn : n.Valid) (hrest : EndsNumber rest)
    (hat : lex.At n.head (n.fracText ++ n.expText ++ rest)) :
    Reaches (scanTail F lex.getSave.1 lex.getSave.2) (n.token F) rest := by
  rw [Numeral.token]
  split
  · rename_i hreal
    have hlook : lex.getSave.1.is (fun b => b = 0x2E || b = 0x45 || b = 0x65) = true := by
      have hhead : ∃ b text, n.fracText ++ n.expText ++ rest = b :: text
          ∧ (b = 0x2E ∨ b = 0x65) := by
        rw [Numeral.fracText, Numeral.expText]
        cases hfrac : n.frac with
        | some digits => exact ⟨_, _, rfl, Or.inl rfl⟩
        | none =>
            cases hexp : n.exp with
            | some e => exact ⟨_, _, rfl, Or.inr rfl⟩
            | none => simp [hfrac, hexp] at hreal
      obtain ⟨b, text, htext, hb⟩ := hhead
      rw [htext] at hat
      have hascii : 0x20 ≤ b ∧ b < 0x80 := by rcases hb with rfl | rfl <;> decide
      rw [(hat.getSave hascii.1 hascii.2).1]
      rcases hb with rfl | rfl <;> rfl
    rw [scanTail, if_pos hlook, Numeral.text]
    exact scanFraction_at hn hrest hat
  · rename_i hinteger
    rw [not_or, Bool.not_eq_true, Bool.not_eq_true, Option.isSome_eq_false_iff,
      Option.isSome_eq_false_iff, Option.isNone_iff_eq_none, Option.isNone_iff_eq_none] at hinteger
    have hempty : n.fracText = [] ∧ n.expText = [] := by
      rw [Numeral.fracText, Numeral.expText, hinteger.1, hinteger.2]
      exact ⟨rfl, rfl⟩
    have htext : n.text = n.head := by simp [Numeral.text, hempty]
    rw [hempty.1, hempty.2] at hat
    have hat : lex.At n.head rest := hat
    obtain ⟨hlook, hback⟩ := hat.ungetUnsave hrest.1
    have hnone : lex.getSave.1.is (fun b => b = 0x2E || b = 0x45 || b = 0x65) ≠ true := by
      rw [hlook]
      cases rest with
      | nil => simp [peek, Got.is]
      | cons b rest => simpa [peek, or_assoc] using (hrest.2 b rfl).2
    rw [scanTail, if_neg hnone, hback.1, htext, integerToken]
    cases strtoint n.head with
    | some value => exact ⟨rfl, hback.2⟩
    | none => exact ⟨rfl, hback.2⟩

/-- The token of a numeral is what its text denotes. -/
theorem scanNumber_at (hn : n.Valid) (hrest : EndsNumber rest) {c : Byte} {text : Text}
    (htext : n.text ++ rest = c :: text) (hat : lex.At [c] text) :
    Reaches (scanNumber F (.byte c) lex) (n.token F) rest := by
  obtain ⟨d, digits, hint⟩ := List.exists_cons_of_ne_nil hn.int.1
  have hd : isDigit d = true := hn.int.2 d (by rw [hint]; exact List.mem_cons_self)
  obtain ⟨hreadable, hstops⟩ := expText_look n hrest
  have hlook : Readable (n.fracText ++ n.expText ++ rest)
      ∧ ∀ b ∈ (n.fracText ++ n.expText ++ rest).head?, isDigit b = false := by
    rw [Numeral.fracText]
    cases n.frac with
    | none => exact ⟨hreadable, fun b hb => (hstops b hb).1⟩
    | some digits =>
        refine ⟨readable_cons (by decide) (by decide), fun b hb => ?_⟩
        obtain rfl : (0x2E : Byte) = b := Option.some.inj hb
        decide
  -- From the first digit on it does not matter whether there is a sign.
  have hdigits : ∀ first : Got × Lexer, first.1 = .byte d →
      first.2.At ((if n.minus then [0x2D] else []) ++ [d])
        (digits ++ (n.fracText ++ n.expText ++ rest)) →
      Reaches (if first.1 = .byte 0x30 then
          if first.2.getSave.1.is isDigit then
            (Token.invalid, first.2.getSave.2.ungetUnsave first.2.getSave.1)
          else scanTail F first.2.getSave.1 first.2.getSave.2
        else if first.1.is isDigit then
          scanTail F (Lexer.saveWhile isDigit first.2.getSave.1 first.2.getSave.2).1
            (Lexer.saveWhile isDigit first.2.getSave.1 first.2.getSave.2).2
        else (.invalid, first.2.ungetUnsave first.1)) (n.token F) rest := by
    intro first hfirst hat
    obtain ⟨lex', hat', hwhile⟩ := saveWhile_at ascii_isDigit
      (fun b hb => hn.int.2 b (by rw [hint]; exact List.mem_cons_of_mem d hb)) hlook.1 hlook.2 hat
    have hhead : (if n.minus then [0x2D] else []) ++ [d] ++ digits = n.head := by
      rw [Numeral.head, hint, List.append_assoc]
      rfl
    rw [hhead] at hat'
    have htail : Reaches (scanTail F lex'.getSave.1 lex'.getSave.2) (n.token F) rest :=
      scanTail_at hn hrest hat'
    rw [hfirst, Got.is_byte, if_pos hd]
    split
    · rename_i hzero
      obtain rfl : d = 0x30 := Got.byte.inj hzero
      have hnil : digits = [] := by
        have hlead := hn.lead (by rw [hint]; rfl)
        rw [hint] at hlead
        exact (List.cons.inj hlead).2
      subst hnil
      rw [List.nil_append] at hat
      have hnone : first.2.getSave.1.is isDigit ≠ true := by
        rw [(hat.ungetUnsave hlook.1).1]
        cases hbehind : n.fracText ++ n.expText ++ rest with
        | nil => simp [peek, Got.is]
        | cons b text => simpa [peek] using hlook.2 b (by rw [hbehind]; rfl)
      rw [Lexer.saveWhile, if_neg hnone] at hwhile
      have hsame : first.2.getSave = lex'.getSave := hwhile
      rw [if_neg hnone, hsame]
      exact htail
    · rw [hwhile]
      exact htail
  rw [Numeral.text, Numeral.head, hint] at htext
  rw [scanNumber]
  cases hminus : n.minus with
  | false =>
      rw [hminus] at hdigits htext
      obtain ⟨rfl, rfl⟩ := List.cons.inj htext
      have hsign : Got.byte d ≠ .byte 0x2D := fun heq =>
        (not_isDigit_of_ne hd).2.2.1 (Got.byte.inj heq)
      dsimp only
      rw [if_neg hsign]
      have hat : lex.At [d] (digits ++ n.fracText ++ n.expText ++ rest) := hat
      refine hdigits (.byte d, lex) rfl ?_
      rwa [List.append_assoc, List.append_assoc, ← List.append_assoc n.fracText] at hat
  | true =>
      rw [hminus] at hdigits htext
      obtain ⟨rfl, rfl⟩ := List.cons.inj htext
      dsimp only
      rw [if_pos rfl]
      obtain ⟨hget, hnext⟩ := hat.getSave (ascii_isDigit hd).1 (ascii_isDigit hd).2
      have hnext : lex.getSave.2.At [0x2D, d] (digits ++ n.fracText ++ n.expText ++ rest) := hnext
      refine hdigits _ hget ?_
      rwa [List.append_assoc, List.append_assoc, ← List.append_assoc n.fracText] at hnext

theorem Numeral.Digits.printable {digits : Text} (h : Digits digits) : Printable digits :=
  fun b hb => ascii_isDigit (h.2 b hb)

theorem Numeral.Valid.printable (hn : n.Valid) : Printable n.text := by
  have hhead : Printable n.head := by
    rw [Numeral.head]
    refine Printable.append ?_ (Numeral.Digits.printable hn.int)
    split <;> decide
  have hfrac : Printable n.fracText := by
    rw [Numeral.fracText]
    cases hdigits : n.frac with
    | none => simp [Printable]
    | some digits => exact .cons (by decide) (Numeral.Digits.printable (hn.frac _ hdigits))
  have hexp : Printable n.expText := by
    rw [Numeral.expText]
    cases he : n.exp with
    | none => simp [Printable]
    | some e =>
        obtain ⟨hsign, hdigits⟩ := hn.exp _ he
        have hsign : Printable e.1 := by
          simp only [List.mem_cons, List.not_mem_nil, or_false] at hsign
          rcases hsign with hsign | hsign | hsign <;> rw [hsign] <;> decide
        exact (Printable.cons (by decide) hsign).append (Numeral.Digits.printable hdigits)
  exact (hhead.append hfrac).append hexp

end

/-! ### Integers -/

/-- The numeral of an integer. -/
def Numeral.ofInt (value : Int) : Numeral :=
  { minus := value < 0, int := showNat value.natAbs, frac := none, exp := none }

theorem Numeral.text_ofInt (value : Int) : (Numeral.ofInt value).text = showInt value := by
  rw [text, head, fracText, expText, ofInt]
  cases value with
  | ofNat n => simp [showInt]
  | negSucc n =>
      have hminus : decide (Int.negSucc n < 0) = true := by simp [Int.negSucc_lt_zero]
      rw [hminus]
      simp [showInt]
      rfl

theorem Numeral.valid_ofInt (value : Int) : (Numeral.ofInt value).Valid where
  int := ⟨showNat_ne_nil _, fun _ hb => isDigit_of_mem_showNat hb⟩
  lead := showNat_lead _
  frac := by simp [ofInt]
  exp := by simp [ofInt]

/-- `json_int_t`. -/
def InInt64 (value : Int) : Prop := -2 ^ 63 ≤ value ∧ value < 2 ^ 63

instance (value : Int) : Decidable (InInt64 value) := inferInstanceAs (Decidable (_ ∧ _))

theorem strtoint_showInt {value : Int} (h : InInt64 value) :
    strtoint (showInt value) = some value := by
  rw [strtoint, strtol_showInt, Option.filter_some_pos (by simpa [InInt64] using h)]

theorem Numeral.token_ofInt (F : Floats) {value : Int} (h : InInt64 value) :
    (Numeral.ofInt value).token F = .integer value := by
  rw [token, if_neg (by simp [ofInt]), integerToken, text_ofInt, strtoint_showInt h]

end LibJansson

end IoTRepublic
