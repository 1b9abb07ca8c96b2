import IoTRepublic.Jansson.Lexer
import IoTRepublic.Jansson.Dump

/-!
# IoTRepublic.Jansson.StringSound

The strings of JSON: what `dump_string` writes, `lex_scan_string` reads back.

Both go character by character: a character is written as itself, as a short escape, as
`\uXXXX`, or as two of them, and each of the two loops of `lex_scan_string` gets over it
(`passes_flatMap`, `decodeString_flatMap`).

Main results: `dumpString_encode`, `scanString_literal`.

Of a character neither loop asks more than how it is written (`Written`), so the four ways
are gone through once. The first loop only looks for the end of the string, the second one
decodes what it has passed; that the two agree on where the string ends is part of
`scanString_literal`.
-/

namespace IoTRepublic

open Cpp

namespace LibJansson

/-! ### Writing -/

/-- How a character is written: as itself in ASCII, if it need not be escaped, and else by
its escape. -/
def escapeChar (c : Char) : Text :=
  if mustEscape c.toNat then escapeText c.toNat else String.utf8EncodeChar c

/-- How a string is written. -/
def literal (chars : List Char) : Text := 0x22 :: chars.flatMap escapeChar ++ [0x22]

theorem dumpRun_encode (chars : List Char) {fuel : Nat} (h : (encode chars).length ≤ fuel)
    (plain : Text) :
    dumpRun fuel plain (encode chars) = (plain ++ chars.flatMap escapeChar, true) := by
  induction chars generalizing fuel plain with
  | nil => cases fuel <;> simp [dumpRun]
  | cons c chars ih =>
      obtain ⟨byte, buffer, hbytes⟩ := List.exists_cons_of_ne_nil
        (List.append_ne_nil_of_left_ne_nil
          (List.ne_nil_of_length_pos (encodeChar_length_pos c)) (encode chars))
      have hpos := encodeChar_length_pos c
      rw [encode_cons] at h ⊢
      have hlength := congrArg List.length hbytes
      rw [List.length_append, List.length_cons] at hlength
      rw [List.length_append] at h
      obtain ⟨fuel, rfl⟩ := Nat.exists_eq_add_of_le' (show 1 ≤ fuel by omega)
      rw [hbytes, dumpRun, iterate_of_encode hbytes.symm]
      dsimp only
      have htake : (byte :: buffer).take (buffer.length + 1 - (encode chars).length)
          = String.utf8EncodeChar c := by
        rw [← hbytes, ← hlength, Nat.add_sub_cancel, List.take_left]
      rw [htake, List.flatMap_cons, escapeChar]
      split
      · rw [ih (by omega)]
        simp
      · rw [ih (by omega)]
        simp

theorem dumpString_encode (chars : List Char) :
    dumpString (encode chars) = (literal chars, true) := by
  rw [dumpString, dumpRun_encode chars (Nat.le_refl _)]
  rfl

theorem hexDigit_mem {digit : Nat} (h : digit < 16) :
    isXDigit (hexDigit digit) = true ∧ 0x20 ≤ hexDigit digit ∧ hexDigit digit < 0x80 := by
  interval_cases digit <;> decide

theorem hexValue_hexDigit {digit : Nat} (h : digit < 16) :
    hexValue (hexDigit digit) = some digit := by
  interval_cases digit <;> decide

/-- The ways a character is written, with what each of the loops that read it needs. -/
inductive Written (c : Char) : Text → Prop
  | plain {b : Byte} (hutf : String.utf8EncodeChar c = [b]) (hlow : 0x20 ≤ b) (hhigh : b < 0x80)
      (hquote : b ≠ 0x22) (hbackslash : b ≠ 0x5C) : Written c [b]
  | short {letter b : Byte} (hutf : String.utf8EncodeChar c = [b])
      (hletter : isShortEscape letter = true)
      (hscan : ∀ p, scanEscape (letter :: p) = some ([b], 1)) :
      Written c [0x5C, letter]
  | single (h : c.toNat < 0x10000) : Written c (unicodeEscape c.toNat)
  | pair (h : 0x10000 ≤ c.toNat) :
      Written c (unicodeEscape (0xD800 + (c.toNat - 0x10000) / 1024)
        ++ unicodeEscape (0xDC00 + (c.toNat - 0x10000) % 1024))

theorem encodeChar_of_ascii {c : Char} (h : c.toNat < 0x80) :
    String.utf8EncodeChar c = [c.toNat.toUInt8] := by
  have hencode := utf8Encode_toNat c
  rw [utf8Encode, if_pos h] at hencode
  exact (Option.some.inj hencode).symm

theorem Written.of_toNat {c : Char} {n : Nat} {letter : Byte} (h : c.toNat = n) (hn : n < 0x80)
    (hletter : isShortEscape letter = true)
    (hscan : ∀ p, scanEscape (letter :: p) = some ([n.toUInt8], 1)) : Written c [0x5C, letter] :=
  .short (by rw [encodeChar_of_ascii (h ▸ hn), h]) hletter hscan

theorem written_escapeChar (c : Char) : Written c (escapeChar c) := by
  rw [escapeChar]
  split
  · rw [escapeText]
    split_ifs with h1 h2 h3 h4 h5 h6 h7 h8
    · exact .of_toNat h1 (by decide) rfl fun p => rfl
    · exact .of_toNat h2 (by decide) rfl fun p => rfl
    · exact .of_toNat h3 (by decide) rfl fun p => rfl
    · exact .of_toNat h4 (by decide) rfl fun p => rfl
    · exact .of_toNat h5 (by decide) rfl fun p => rfl
    · exact .of_toNat h6 (by decide) rfl fun p => rfl
    · exact .of_toNat h7 (by decide) rfl fun p => rfl
    · exact .single h8
    · exact .pair (Nat.le_of_not_lt h8)
  · rename_i hplain
    simp only [mustEscape, Bool.or_eq_true, decide_eq_true_eq, not_or] at hplain
    obtain ⟨⟨⟨hbackslash, hquote⟩, hlow⟩, hhigh⟩ := hplain
    have hbyte := toNat_toUInt8 (show c.toNat < 256 by omega)
    have hutf := encodeChar_of_ascii (show c.toNat < 0x80 by omega)
    rw [hutf]
    refine .plain hutf ?_ ?_ ?_ ?_
    · rw [UInt8.le_iff_toNat_le, hbyte]
      exact Nat.le_of_not_lt hlow
    · rw [UInt8.lt_iff_toNat_lt, hbyte]
      exact Nat.lt_of_not_le hhigh
    · intro heq
      exact hquote (hbyte.symm.trans (congrArg UInt8.toNat heq))
    · intro heq
      exact hbackslash (hbyte.symm.trans (congrArg UInt8.toNat heq))

/-- Nothing but printable characters in ASCII, and the one that deletes. -/
def Printable (text : Text) : Prop := ∀ b ∈ text, 0x20 ≤ b ∧ b < 0x80

instance (text : Text) : Decidable (Printable text) := List.decidableBAll _ text

theorem Printable.append {text more : Text} (h : Printable text) (hmore : Printable more) :
    Printable (text ++ more) :=
  fun b hb => (List.mem_append.mp hb).elim (h b) (hmore b)

theorem Printable.cons {b : Byte} {text : Text} (hb : 0x20 ≤ b ∧ b < 0x80) (h : Printable text) :
    Printable (b :: text) :=
  List.forall_mem_cons.mpr ⟨hb, h⟩

theorem printable_unicodeEscape (value : Nat) : Printable (unicodeEscape value) := by
  have hdigit : ∀ digit, 0x20 ≤ hexDigit (digit % 16) ∧ hexDigit (digit % 16) < 0x80 :=
    fun digit => (hexDigit_mem (Nat.mod_lt digit (by decide))).2
  simp [Printable, unicodeEscape, hdigit]

theorem ascii_of_isShortEscape {letter : Byte} (h : isShortEscape letter = true) :
    0x20 ≤ letter ∧ letter < 0x80 ∧ letter ≠ 0x75 := by
  simp only [isShortEscape, Bool.or_eq_true, decide_eq_true_eq] at h
  rcases h with ((((((rfl | rfl) | rfl) | rfl) | rfl) | rfl) | rfl) | rfl <;> decide

theorem Written.printable {c : Char} {text : Text} (h : Written c text) : Printable text := by
  cases h with
  | plain hutf hlow hhigh hquote hbackslash => exact .cons ⟨hlow, hhigh⟩ (by simp [Printable])
  | short hutf hletter hscan =>
      obtain ⟨hlow, hhigh, -⟩ := ascii_of_isShortEscape hletter
      exact .cons (by decide) (.cons ⟨hlow, hhigh⟩ (by simp [Printable]))
  | single h => exact printable_unicodeEscape _
  | pair h => exact (printable_unicodeEscape _).append (printable_unicodeEscape _)

theorem printable_literal (chars : List Char) : Printable (literal chars) := by
  have hchars : Printable (chars.flatMap escapeChar) := by
    intro b hb
    obtain ⟨c, -, hb⟩ := List.mem_flatMap.mp hb
    exact (written_escapeChar c).printable b hb
  exact (Printable.cons (by decide) hchars).append (by decide)

/-! ### The first loop -/

/-- Where the lexical analyser is: what it has saved of the token, and the text at
hand. -/
def Lexer.At (lex : Lexer) (saved text : Text) : Prop :=
  lex.savedText = saved ∧ lex.stream.At text

theorem Lexer.At.getSave {lex : Lexer} {saved text : Text} {b : Byte}
    (h : lex.At saved (b :: text)) (hlow : 0x20 ≤ b) (hhigh : b < 0x80) :
    lex.getSave.1 = .byte b ∧ lex.getSave.2.At (saved ++ [b]) text := by
  have hne : b ≠ 0 := by
    intro hzero
    subst hzero
    exact absurd hlow (by decide)
  obtain ⟨hget, hat, -⟩ := h.2.get hhigh hne
  rw [Lexer.getSave, Lexer.get, hget]
  exact ⟨rfl, congrArg (· ++ [b]) h.1, hat⟩

/-- Reading goes on behind some text as it does behind the text itself. -/
def Passes (text : Text) : Prop :=
  ∀ (lex : Lexer) (saved behind : Text), lex.At saved (text ++ behind) →
    ∃ lex' : Lexer, lex'.At (saved ++ text) behind
      ∧ scanStringLoop lex.getSave.1 lex.getSave.2 = scanStringLoop lex'.getSave.1 lex'.getSave.2

theorem scanHex_at {digits : Text}
    (h : ∀ b ∈ digits, isXDigit b = true ∧ 0x20 ≤ b ∧ b < 0x80) (lex : Lexer)
    (saved behind : Text) (hat : lex.At saved (digits ++ behind)) :
    ∃ lex' : Lexer, lex'.At (saved ++ digits) behind
      ∧ scanHex digits.length lex.getSave.1 lex.getSave.2
        = (true, lex'.getSave.1, lex'.getSave.2) := by
  induction digits generalizing lex saved with
  | nil => exact ⟨lex, by rwa [List.append_nil], rfl⟩
  | cons b digits ih =>
      obtain ⟨hdigit, hlow, hhigh⟩ := h b List.mem_cons_self
      obtain ⟨hget, hnext⟩ := hat.getSave hlow hhigh
      obtain ⟨lex', hat', hhex⟩ := ih (fun c hc => h c (List.mem_cons_of_mem b hc)) _ _ hnext
      refine ⟨lex', by rwa [List.append_assoc] at hat', ?_⟩
      rw [List.length_cons, scanHex, hget, Got.is_byte, if_pos hdigit, hhex]

theorem passes_nil : Passes [] := fun lex saved behind hat =>
  ⟨lex, by rwa [List.append_nil], rfl⟩

theorem Passes.append {text more : Text} (h : Passes text) (hmore : Passes more) :
    Passes (text ++ more) := by
  intro lex saved behind hat
  rw [List.append_assoc] at hat
  obtain ⟨lex', hat', hloop⟩ := h lex saved _ hat
  obtain ⟨lex'', hat'', hloop'⟩ := hmore lex' _ _ hat'
  exact ⟨lex'', by rwa [List.append_assoc] at hat'', hloop.trans hloop'⟩

theorem passes_unicodeEscape (value : Nat) : Passes (unicodeEscape value) := by
  intro lex saved behind hat
  obtain ⟨hbackslash, hat⟩ := hat.getSave (by decide) (by decide)
  obtain ⟨hletter, hat⟩ := hat.getSave (by decide) (by decide)
  have hdigits : ∀ b ∈ [hexDigit (value / 4096 % 16), hexDigit (value / 256 % 16),
      hexDigit (value / 16 % 16), hexDigit (value % 16)],
      isXDigit b = true ∧ 0x20 ≤ b ∧ b < 0x80 := by
    intro b hb
    simp only [List.mem_cons, List.not_mem_nil, or_false] at hb
    rcases hb with rfl | rfl | rfl | rfl <;> exact hexDigit_mem (Nat.mod_lt _ (by decide))
  obtain ⟨lex', hat', hhex⟩ := scanHex_at hdigits _ _ _ hat
  refine ⟨lex', by rwa [List.append_assoc, List.append_assoc] at hat', ?_⟩
  rw [hbackslash, scanStringLoop, if_neg (by decide), if_neg (by decide), if_pos rfl]
  simp only [List.length_cons, List.length_nil] at hhex
  rw [if_pos hletter, hhex]
  rfl

theorem Written.passes {c : Char} {text : Text} (h : Written c text) : Passes text := by
  cases h with
  | @plain b hutf hlow hhigh hquote hbackslash =>
      intro lex saved behind hat
      obtain ⟨hget, hat⟩ := hat.getSave hlow hhigh
      have hcontrol : ¬ b ≤ 0x1F := by
        rw [UInt8.le_iff_toNat_le] at hlow ⊢
        exact Nat.not_le_of_lt hlow
      refine ⟨_, hat, ?_⟩
      rw [hget, scanStringLoop, if_neg hquote, if_neg hcontrol, if_neg hbackslash]
  | short hutf hletter hscan =>
      intro lex saved behind hat
      obtain ⟨hlow, hhigh, hne⟩ := ascii_of_isShortEscape hletter
      obtain ⟨hbackslash, hat⟩ := hat.getSave (by decide) (by decide)
      obtain ⟨hget, hat⟩ := hat.getSave hlow hhigh
      refine ⟨_, by rwa [List.append_assoc] at hat, ?_⟩
      rw [hbackslash, scanStringLoop, if_neg (by decide), if_neg (by decide), if_pos rfl]
      dsimp only
      rw [hget, if_neg (by simpa using hne), if_pos (by simpa using hletter)]
  | single h => exact passes_unicodeEscape _
  | pair h => exact (passes_unicodeEscape _).append (passes_unicodeEscape _)

theorem passes_flatMap (chars : List Char) : Passes (chars.flatMap escapeChar) := by
  induction chars with
  | nil => exact passes_nil
  | cons c chars ih => exact (written_escapeChar c).passes.append ih

/-! ### The second loop -/

theorem decodeUnicodeEscape_digits {value : Nat} (h : value < 0x10000) (p : Text) :
    decodeUnicodeEscape ((unicodeEscape value).drop 2 ++ p) = some value := by
  have h1 := hexValue_hexDigit (Nat.mod_lt (value / 4096) (show 0 < 16 by decide))
  have h2 := hexValue_hexDigit (Nat.mod_lt (value / 256) (show 0 < 16 by decide))
  have h3 := hexValue_hexDigit (Nat.mod_lt (value / 16) (show 0 < 16 by decide))
  have h4 := hexValue_hexDigit (Nat.mod_lt value (show 0 < 16 by decide))
  simp [decodeUnicodeEscape, unicodeEscape, h1, h2, h3, h4]
  omega

theorem decodeString_pair {c : Char} {first last : Nat} (hfirst : 0xD800 ≤ first ∧ first ≤ 0xDBFF)
    (hlast : 0xDC00 ≤ last ∧ last ≤ 0xDFFF)
    (hvalue : (first - 0xD800) * 1024 + (last - 0xDC00) + 0x10000 = c.toNat) (p : Text) :
    decodeString (unicodeEscape first ++ (unicodeEscape last ++ p))
      = (decodeString p).map (String.utf8EncodeChar c ++ ·) := by
  have hdrop : ((unicodeEscape first).drop 2 ++ (unicodeEscape last ++ p)).drop 4
      = 0x5C :: 0x75 :: ((unicodeEscape last).drop 2 ++ p) := rfl
  have hscan : scanEscape (0x75 :: ((unicodeEscape first).drop 2 ++ (unicodeEscape last ++ p)))
      = some (String.utf8EncodeChar c, 11) := by
    rw [scanEscape, if_pos rfl, decodeUnicodeEscape_digits (by omega)]
    simp only [Option.bind_eq_bind, Option.bind_some]
    rw [if_pos hfirst, hdrop]
    simp only [decodeUnicodeEscape_digits (show last < 0x10000 by omega), Option.bind_some]
    rw [if_pos hlast, hvalue, utf8Encode_toNat]
    rfl
  show decodeString (0x5C :: 0x75 :: ((unicodeEscape first).drop 2 ++ (unicodeEscape last ++ p)))
    = _
  rw [decodeString, if_neg (by decide), if_pos rfl, hscan]
  rfl

theorem decodeString_written {c : Char} {text : Text} (h : Written c text) (p : Text) :
    decodeString (text ++ p) = (decodeString p).map (String.utf8EncodeChar c ++ ·) := by
  have hle := toNat_le c
  have hsurrogate := not_surrogate c
  cases h with
  | plain hutf hlow hhigh hquote hbackslash =>
      rw [List.singleton_append, decodeString, if_neg hquote, if_neg hbackslash, hutf]
      rfl
  | short hutf hletter hscan =>
      rw [List.cons_append, List.singleton_append, decodeString, if_neg (by decide), if_pos rfl,
        hscan, hutf]
      rfl
  | single h =>
      have hdecode := decodeUnicodeEscape_digits h p
      have hscan : scanEscape (0x75 :: ((unicodeEscape c.toNat).drop 2 ++ p))
          = some (String.utf8EncodeChar c, 5) := by
        rw [scanEscape, if_pos rfl, hdecode]
        simp only [Option.bind_eq_bind, Option.bind_some]
        rw [if_neg (by omega), if_neg (by omega), utf8Encode_toNat]
        rfl
      show decodeString (0x5C :: 0x75 :: ((unicodeEscape c.toNat).drop 2 ++ p)) = _
      rw [decodeString, if_neg (by decide), if_pos rfl, hscan]
      rfl
  | pair h =>
      rw [List.append_assoc]
      exact decodeString_pair ⟨by omega, by omega⟩ ⟨by omega, by omega⟩ (by omega) p

theorem decodeString_flatMap (chars : List Char) :
    decodeString (chars.flatMap escapeChar ++ [0x22]) = some (encode chars) := by
  induction chars with
  | nil => rw [List.flatMap_nil, List.nil_append, decodeString, if_pos rfl]; rfl
  | cons c chars ih =>
      rw [List.flatMap_cons, List.append_assoc, decodeString_written (written_escapeChar c), ih]
      rfl

/-- A string that is written is read. -/
theorem scanString_literal (F : Floats) (chars : List Char) {lex : Lexer} {behind : Text}
    (h : lex.At [0x22] (chars.flatMap escapeChar ++ 0x22 :: behind)) :
    (scanString F lex).1 = .string (encode chars) ∧ (scanString F lex).2.stream.At behind := by
  obtain ⟨lex', hat, hloop⟩ := passes_flatMap chars lex _ _ h
  obtain ⟨hquote, hat⟩ := hat.getSave (by decide) (by decide)
  have hend : scanStringLoop (.byte 0x22) lex'.getSave.2 = (true, lex'.getSave.2) := by
    rw [scanStringLoop, if_pos rfl]
  rw [scanString, hloop, hquote, hend]
  have hsaved : lex'.getSave.2.savedText.tail = chars.flatMap escapeChar ++ [0x22] := by
    rw [hat.1]
    rfl
  dsimp only
  rw [if_pos rfl, hsaved, decodeString_flatMap]
  exact ⟨rfl, hat.2⟩

end LibJansson

end IoTRepublic
