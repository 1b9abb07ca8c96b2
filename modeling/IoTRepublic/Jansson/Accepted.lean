import IoTRepublic.Jansson.RoundTrip

/-!
# IoTRepublic.Jansson.Accepted

What `json_loads` accepts is well formed: strings are UTF-8 without zero bytes, no key
comes twice, and numbers are in their ranges. So it is printed, and what is printed is
read back as the same document.

Main results: `wellFormed_of_loads`, `loads_dumps_loads`.

Every byte of a string has come through the stream, and what the stream hands out is whole
UTF-8 characters and nothing else. So it is settled in the stream and carried up: what a
token has saved is text (`Lexer.Saves`), what `lex_scan` makes of it is a good value
(`Token.Good`), and what the parser builds of good tokens is well formed. The keys are the
exception: that none comes twice is the doing of the object, where a key that comes again
replaces the value.

`loads_dumps_loads` is for two processes with different hash functions. What it needs of
the text is that `string_get` can count what is printed of it, since escapes may make that
longer than what was read.
-/

namespace IoTRepublic

open Cpp

namespace LibJansson

/-! ### The buffer -/

theorem Stream.buffer_get {s : Stream} (h : ∀ b, s.get.1 ≠ .byte b) :
    s.get.2.buffer = s.buffer := by
  obtain ⟨buffer, data, state⟩ := s
  rw [get] at h ⊢
  cases state with
  | eof => rfl
  | error => rfl
  | ok =>
      cases buffer with
      | cons c buffer => exact absurd rfl (h c)
      | nil =>
          dsimp only at h ⊢
          cases hread : (stringGet data).1 with
          | eof => rfl
          | error => rfl
          | byte c =>
              rw [hread] at h
              dsimp only at h ⊢
              split_ifs at h ⊢
              · rfl
              · exact absurd rfl (h c)
              · rfl
              · exact absurd rfl (h c)

/-- Within a character nothing is put back but its own bytes, so the buffer holds a rest
of a character at most. -/
theorem kept_settled : Kept (fun s => Settled s.buffer)
    (fun c s => Settled s.buffer ∧ ∀ b, c = .byte b → Settled (b :: s.buffer)) where
  get {s} h := by
    by_cases hbyte : ∃ b, s.get.1 = .byte b
    · obtain ⟨b, hb⟩ := hbyte
      have hsettled := Stream.settled_get h hb
      refine ⟨hsettled.tail, fun c hc => ?_⟩
      obtain rfl : b = c := Got.byte.inj (hb.symm.trans hc)
      exact hsettled
    · have hnone : ∀ b, s.get.1 ≠ .byte b := fun b hb => hbyte ⟨b, hb⟩
      exact ⟨by rwa [Stream.buffer_get hnone], fun b hb => absurd hb (hnone b)⟩
  unget {c s} h := by
    cases c with
    | byte b => exact h.2 b rfl
    | _ => exact h.1
  pass h := h.1
  clear _ := settled_nil

/-- Behind ASCII the buffer is empty. -/
theorem Stream.Reads.buffer_eq_nil {stream last : Stream} {bytes : Text} {c : Byte}
    (h : Stream.Reads stream (bytes ++ [c]) last) (hsettled : Settled stream.buffer)
    (hascii : c < 0x80) : last.buffer = [] := by
  induction bytes generalizing stream with
  | nil =>
      cases h with
      | cons hget rest =>
          cases rest
          exact (Stream.settled_get hsettled hget).eq_nil hascii
  | cons b bytes ih =>
      cases h with
      | cons hget rest => exact ih rest (Stream.settled_get hsettled hget).tail

/-! ### The first loop -/

/-- The bytes have been read, from one state to the other, and all of them saved. -/
def Lexer.Saves (lex : Lexer) (bytes : Text) (lex' : Lexer) : Prop :=
  lex.stream.Reads bytes lex'.stream ∧ lex'.savedText = lex.savedText ++ bytes

/-- If a byte is at hand, everything up to it has been saved. -/
def Reached (origin : Lexer) (c : Got) (lex : Lexer) : Prop :=
  ∀ b, c = .byte b → ∃ bytes, origin.Saves (bytes ++ [b]) lex

theorem Lexer.saves_getSave {lex : Lexer} {b : Byte} (h : lex.getSave.1 = .byte b) :
    lex.Saves [b] lex.getSave.2 := by
  have hget : lex.stream.get.1 = .byte b := h
  rw [getSave, get, hget]
  exact ⟨.cons hget (.nil _), rfl⟩

theorem Lexer.Saves.trans {lex lex' lex'' : Lexer} {bytes more : Text} (h : lex.Saves bytes lex')
    (hmore : lex'.Saves more lex'') : lex.Saves (bytes ++ more) lex'' :=
  ⟨h.1.append hmore.1, by rw [hmore.2, h.2, List.append_assoc]⟩

theorem reached_getSave (origin : Lexer) : Reached origin origin.getSave.1 origin.getSave.2 :=
  fun _ hb => ⟨[], Lexer.saves_getSave hb⟩

theorem Reached.getSave {origin lex : Lexer} {b : Byte} (h : Reached origin (.byte b) lex) :
    Reached origin lex.getSave.1 lex.getSave.2 := by
  intro c hc
  obtain ⟨bytes, hbytes⟩ := h b rfl
  exact ⟨_, hbytes.trans (Lexer.saves_getSave hc)⟩

theorem Reached.scanHex {origin lex : Lexer} {c : Got} {i : Nat} (h : Reached origin c lex) :
    Reached origin (LibJansson.scanHex i c lex).2.1 (LibJansson.scanHex i c lex).2.2 := by
  induction i generalizing c lex with
  | zero => exact h
  | succ i ih =>
      rw [LibJansson.scanHex]
      split
      · cases c with
        | byte b => exact ih h.getSave
        | _ => exact absurd ‹_› (by simp [Got.is])
      · exact h

theorem Reached.scanStringLoop {origin lex : Lexer} {c : Got} (h : Reached origin c lex)
    (hend : (LibJansson.scanStringLoop c lex).1 = true) :
    ∃ bytes, origin.Saves (bytes ++ [0x22]) (LibJansson.scanStringLoop c lex).2 := by
  fun_induction LibJansson.scanStringLoop c lex with
  | case1 => cases hend
  | case2 => cases hend
  | case3 => exact h _ rfl
  | case4 => cases hend
  | case5 lex escape hu hex hok hquote hcontrol ih =>
      have hletter : Reached origin escape.1 escape.2 := h.getSave
      rw [hu] at hletter
      exact ih hletter.getSave.scanHex hend
  | case6 => cases hend
  | case7 lex escape hu hshort hquote hcontrol ih =>
      have hletter : Reached origin escape.1 escape.2 := h.getSave
      cases hbyte : escape.1 with
      | byte b =>
          rw [hbyte] at hletter
          exact ih hletter.getSave hend
      | _ =>
          rw [hbyte] at hshort
          cases hshort
  | case8 => cases hend
  | case9 lex b hquote hcontrol hescape ih => exact ih h.getSave hend

/-! ### The second loop -/

theorem exists_char_of_utf8Encode {value : Nat} {t : Text} (h : utf8Encode value = some t)
    (hsurrogate : ¬ (0xD800 ≤ value ∧ value ≤ 0xDFFF)) :
    ∃ c : Char, t = String.utf8EncodeChar c := by
  have hle : value ≤ 0x10FFFF := by
    rw [utf8Encode] at h
    split_ifs at h <;> omega
  obtain ⟨c, rfl⟩ := exists_char hle hsurrogate
  exact ⟨c, Option.some.inj (h.symm.trans (utf8Encode_toNat c))⟩

/-- ASCII at the front takes whole characters away. -/
theorem drop_ascii {chars : List Char} {n : Nat} (h : ∀ b ∈ (encode chars).take n, b < 0x80) :
    (encode chars).drop n = encode (chars.drop n) := by
  induction n generalizing chars with
  | zero => rfl
  | succ n ih =>
      cases chars with
      | nil => rfl
      | cons c chars =>
          obtain ⟨b, bytes, hbytes⟩ :=
            List.exists_cons_of_ne_nil (List.ne_nil_of_length_pos (encodeChar_length_pos c))
          rw [encode_cons, hbytes, List.cons_append, List.take_succ_cons] at h
          have hsettled := settled_encodeChar c
          rw [hbytes] at hsettled
          have hnil := hsettled.eq_nil (h b List.mem_cons_self)
          subst hnil
          rw [encode_cons, hbytes, List.cons_append, List.drop_succ_cons, List.drop_succ_cons]
          exact ih fun b' hb' => h b' (List.mem_cons_of_mem b hb')

theorem ascii_of_hexValue {b : Byte} {value : Nat} (h : hexValue b = some value) : b < 0x80 := by
  rw [hexValue] at h
  simp only [isDigit, Bool.and_eq_true, decide_eq_true_eq, UInt8.le_iff_toNat_le,
    UInt8.reduceToNat] at h
  simp only [UInt8.lt_iff_toNat_lt, UInt8.reduceToNat]
  split_ifs at h <;> omega

theorem ascii_of_digits {digits : Text} {acc value : Nat}
    (h : digits.foldlM (fun value c => (hexValue c).map (value * 16 + ·)) acc = some value) :
    ∀ b ∈ digits, b < 0x80 := by
  induction digits generalizing acc with
  | nil => simp
  | cons b digits ih =>
      rw [List.foldlM_cons] at h
      cases hb : hexValue b with
      | none => simp [hb] at h
      | some digit =>
          rw [hb] at h
          intro c hc
          cases List.mem_cons.mp hc with
          | inl heq => exact heq ▸ ascii_of_hexValue hb
          | inr hc => exact ih h c hc

theorem ascii_of_decodeUnicodeEscape {p : Text} {value : Nat}
    (h : decodeUnicodeEscape p = some value) : ∀ b ∈ p.take 4, b < 0x80 := ascii_of_digits h

/-- The surrogates of a pair, and the character they stand for. -/
theorem ascii_of_pair {p p' : Text} {value value' : Nat} (hp : p.drop 4 = 0x5C :: 0x75 :: p')
    (h : decodeUnicodeEscape p = some value) (h' : decodeUnicodeEscape p' = some value') :
    ∀ b ∈ p.take 10, b < 0x80 := by
  have hsplit : p.take 10 = p.take 4 ++ 0x5C :: 0x75 :: p'.take 4 := by
    rw [show (10 : Nat) = 4 + 6 from rfl, List.take_add, hp]
    rfl
  have hfirst := ascii_of_decodeUnicodeEscape h
  have hsecond := ascii_of_decodeUnicodeEscape h'
  intro b hb
  rw [hsplit] at hb
  simp only [List.mem_append, List.mem_cons] at hb
  rcases hb with hb | rfl | rfl | hb
  · exact hfirst b hb
  · decide
  · decide
  · exact hsecond b hb

/-- An escape is ASCII, and stands for a character. -/
theorem ascii_of_scanEscape {p t : Text} {length : Nat} (h : scanEscape p = some (t, length)) :
    (∃ c : Char, t = String.utf8EncodeChar c) ∧ ∀ b ∈ p.take length, b < 0x80 := by
  cases p with
  | nil => cases h
  | cons letter p =>
      have hcons : ∀ n, letter < 0x80 → (∀ b ∈ p.take n, b < 0x80) →
          ∀ b ∈ (letter :: p).take (n + 1), b < 0x80 := by
        intro n hletter hp b hb
        cases List.mem_cons.mp hb with
        | inl heq => exact heq ▸ hletter
        | inr hb => exact hp b hb
      have hshort : ∀ {b : Byte}, letter < 0x80 → b < 0x80 → some ([b], 1) = some (t, length) →
          (∃ c : Char, t = String.utf8EncodeChar c)
            ∧ ∀ b ∈ (letter :: p).take length, b < 0x80 := by
        intro b hletter hb heq
        cases heq
        exact ⟨exists_encodeChar_ascii hb, hcons 0 hletter (by simp)⟩
      rw [scanEscape] at h
      split at h
      · rename_i hu
        subst hu
        cases hvalue : decodeUnicodeEscape p with
        | none => simp [hvalue] at h
        | some value =>
            rw [hvalue, Option.bind_eq_bind, Option.bind_some] at h
            split at h
            · split at h
              · rename_i hhigh _ p' hp
                cases hvalue' : decodeUnicodeEscape p' with
                | none => simp [hvalue'] at h
                | some value' =>
                    rw [hvalue', Option.bind_some] at h
                    split at h
                    · rename_i hlow
                      cases ht : utf8Encode
                          ((value - 0xD800) * 1024 + (value' - 0xDC00) + 0x10000) with
                      | none => simp [ht] at h
                      | some t' =>
                          rw [ht] at h
                          cases h
                          exact ⟨exists_char_of_utf8Encode ht (by omega),
                            hcons 10 (by decide) (ascii_of_pair hp hvalue hvalue')⟩
                    · cases h
              · cases h
            · split at h
              · cases h
              · rename_i hhigh hlow
                cases ht : utf8Encode value with
                | none => simp [ht] at h
                | some t' =>
                    rw [ht] at h
                    cases h
                    exact ⟨exists_char_of_utf8Encode ht (by omega),
                      hcons 4 (by decide) (ascii_of_decodeUnicodeEscape hvalue)⟩
      · split at h
        · rename_i hsame
          have hletter : letter < 0x80 := by rcases hsame with rfl | rfl | rfl <;> decide
          exact hshort hletter hletter h
        · split_ifs at h with h1 h2 h3 h4 h5
          · exact hshort (h1 ▸ by decide) (by decide) h
          · exact hshort (h2 ▸ by decide) (by decide) h
          · exact hshort (h3 ▸ by decide) (by decide) h
          · exact hshort (h4 ▸ by decide) (by decide) h
          · exact hshort (h5 ▸ by decide) (by decide) h

/-- Bytes that are neither quotes nor backslashes are taken as they are. -/
theorem decodeString_plain {bytes : Text} (h : ∀ b ∈ bytes, b ≠ 0x22 ∧ b ≠ 0x5C) (p : Text) :
    decodeString (bytes ++ p) = (decodeString p).map (bytes ++ ·) := by
  induction bytes with
  | nil => simp
  | cons b bytes ih =>
      obtain ⟨hquote, hbackslash⟩ := h b List.mem_cons_self
      rw [List.cons_append, decodeString, if_neg hquote, if_neg hbackslash,
        ih fun c hc => h c (List.mem_cons_of_mem b hc), Option.map_map]
      rfl

theorem exists_chars_of_decodeString {chars : List Char} {value : Text}
    (h : decodeString (encode chars) = some value) : ∃ chars', value = encode chars' := by
  induction hlength : chars.length using Nat.strong_induction_on generalizing chars value with
  | _ length ih =>
      cases chars with
      | nil => simp [decodeString] at h
      | cons c chars =>
          have hsettled := settled_encodeChar c
          by_cases hquote : (0x22 : Byte) ∈ String.utf8EncodeChar c
          · rw [encode_cons, hsettled _ hquote (by decide), List.singleton_append, decodeString,
              if_pos rfl] at h
            exact ⟨[], (Option.some.inj h).symm⟩
          · by_cases hbackslash : (0x5C : Byte) ∈ String.utf8EncodeChar c
            · rw [encode_cons, hsettled _ hbackslash (by decide), List.singleton_append,
                decodeString, if_neg (by decide), if_pos rfl] at h
              cases hescape : scanEscape (encode chars) with
              | none => simp [hescape] at h
              | some result =>
                  obtain ⟨t, n⟩ := result
                  obtain ⟨⟨d, rfl⟩, hascii⟩ := ascii_of_scanEscape hescape
                  rw [hescape] at h
                  dsimp only at h
                  rw [drop_ascii hascii] at h
                  obtain ⟨rest, hrest, rfl⟩ := Option.map_eq_some_iff.mp h
                  have hlt : (chars.drop n).length < length := by
                    rw [← hlength, List.length_drop, List.length_cons]
                    omega
                  obtain ⟨chars', rfl⟩ := ih _ hlt hrest rfl
                  exact ⟨d :: chars', rfl⟩
            · have hplain : ∀ b ∈ String.utf8EncodeChar c, b ≠ 0x22 ∧ b ≠ 0x5C :=
                fun b hb => ⟨fun heq => hquote (heq ▸ hb), fun heq => hbackslash (heq ▸ hb)⟩
              rw [encode_cons, decodeString_plain hplain] at h
              obtain ⟨rest, hrest, rfl⟩ := Option.map_eq_some_iff.mp h
              obtain ⟨chars', rfl⟩ := ih _ (by simp [← hlength]) hrest rfl
              exact ⟨c :: chars', rfl⟩

/-! ### Numbers -/

/-- The text has been saved, and behind it the byte at hand. -/
def Lexer.Held (lex : Lexer) (c : Got) (saved : Text) : Prop :=
  (∀ b, c = .byte b → lex.savedText = saved ++ [b])
    ∧ ((∀ b, c ≠ .byte b) → lex.savedText = saved)

theorem Got.exists_of_is {c : Got} {p : Byte → Bool} (h : c.is p = true) :
    ∃ b, c = .byte b ∧ p b = true := by
  cases c with
  | byte b => exact ⟨b, rfl, h⟩
  | _ => cases h

namespace Lexer

variable {lex : Lexer} {c : Got} {saved : Text}

theorem held_getSave (lex : Lexer) : lex.getSave.2.Held lex.getSave.1 lex.savedText := by
  rw [getSave, get]
  cases lex.stream.get.1 <;> simp [Held, save]

theorem Held.ungetUnsave (h : lex.Held c saved) : (lex.ungetUnsave c).savedText = saved := by
  cases c with
  | byte b =>
      rw [Lexer.ungetUnsave, h.1 b rfl]
      exact List.dropLast_concat
  | eof => exact h.2 fun b => Got.noConfusion
  | error => exact h.2 fun b => Got.noConfusion

/-- One more byte. -/
theorem Held.getSave {b : Byte} (h : lex.Held (.byte b) saved) :
    lex.getSave.2.Held lex.getSave.1 (saved ++ [b]) := by
  have hnext := lex.held_getSave
  rwa [h.1 b rfl] at hnext

theorem Held.saveWhile {p : Byte → Bool} (h : lex.Held c saved) :
    ∃ bytes, (∀ b ∈ bytes, p b = true)
      ∧ (Lexer.saveWhile p c lex).2.Held (Lexer.saveWhile p c lex).1 (saved ++ bytes) := by
  fun_induction Lexer.saveWhile p c lex generalizing saved with
  | case1 c lex hc ih =>
      obtain ⟨b, rfl, hb⟩ := Got.exists_of_is hc
      obtain ⟨bytes, hbytes, hheld⟩ := ih h.getSave
      refine ⟨b :: bytes, List.forall_mem_cons.mpr ⟨hb, hbytes⟩, ?_⟩
      rwa [List.append_assoc] at hheld
  | case2 => exact ⟨[], by simp, by rwa [List.append_nil]⟩

/-- A digit, and the ones behind it. -/
theorem Held.digits {b : Byte} (h : lex.Held (.byte b) saved) (hb : isDigit b = true) :
    ∃ digits, Numeral.Digits (b :: digits)
      ∧ (Lexer.saveWhile isDigit lex.getSave.1 lex.getSave.2).2.Held
          (Lexer.saveWhile isDigit lex.getSave.1 lex.getSave.2).1 (saved ++ b :: digits) := by
  obtain ⟨digits, hdigits, hheld⟩ := h.getSave.saveWhile (p := isDigit)
  rw [List.append_assoc] at hheld
  exact ⟨digits, ⟨by simp, List.forall_mem_cons.mpr ⟨hb, hdigits⟩⟩, hheld⟩

end Lexer

/-! ### Tokens -/

section Tokens

variable {F : Floats} {lex : Lexer} {c : Got} {n : Numeral}

/-- What the value of a token is known to be: a string is UTF-8, an integer has 64 bits,
and a real has been read from a numeral. -/
def Token.Good : Token F → Prop
  | .string value => utf8CheckString value = Bool.true
  | .integer value => InInt64 value
  | .real value => F.Reads value
  | _ => True

theorem good_scanReal {letter : Byte} (hn : n.Valid) (hletter : IsExpLetter letter)
    (h : lex.Held c (n.spelled letter)) : (scanReal F c lex).1.Good := by
  rw [scanReal, h.ungetUnsave]
  split
  · exact ⟨n, letter, hn, hletter, ‹_›⟩
  · trivial

/-- A numeral without an exponent gets the one that follows. -/
theorem good_scanExponent (hn : n.Valid) (hexp : n.exp = none)
    (h : lex.Held c (n.head ++ n.fracText)) : (scanExponent F c lex).1.Good := by
  rw [scanExponent]
  split
  · rename_i hc
    obtain ⟨letter, rfl, hletter⟩ := Got.exists_of_is hc
    have hletter : IsExpLetter letter := by simpa [IsExpLetter, or_comm] using hletter
    obtain ⟨sign, hsign, hdigit⟩ : ∃ sign : Text, sign ∈ [[], [0x2B], [0x2D]]
        ∧ (if lex.getSave.1.is (fun b => b = 0x2B || b = 0x2D) then lex.getSave.2.getSave
            else lex.getSave).2.Held
          (if lex.getSave.1.is (fun b => b = 0x2B || b = 0x2D) then lex.getSave.2.getSave
            else lex.getSave).1 (n.head ++ n.fracText ++ letter :: sign) := by
      have hfirst := h.getSave
      split
      · rename_i hsigned
        obtain ⟨b, hb, hsign⟩ := Got.exists_of_is hsigned
        rw [hb] at hfirst
        have hnext := hfirst.getSave
        rw [List.append_assoc] at hnext
        refine ⟨[b], ?_, hnext⟩
        simp only [Bool.or_eq_true, decide_eq_true_eq] at hsign
        rcases hsign with rfl | rfl <;> simp
      · exact ⟨[], by simp, hfirst⟩
    dsimp only
    generalize (if lex.getSave.1.is (fun b => b = 0x2B || b = 0x2D) then lex.getSave.2.getSave
      else lex.getSave) = digit at hdigit
    split
    · rename_i hd
      obtain ⟨d, hc, hd⟩ := Got.exists_of_is hd
      rw [hc] at hdigit
      obtain ⟨digits, hdigits, hheld⟩ := hdigit.digits hd
      let m : Numeral := { n with exp := some (sign, d :: digits) }
      have hm : m.Valid := by
        refine ⟨hn.int, hn.lead, hn.frac, fun e he => ?_⟩
        obtain rfl : (sign, d :: digits) = e := Option.some.inj he
        exact ⟨hsign, hdigits⟩
      have hspelled : m.spelled letter = n.head ++ n.fracText ++ letter :: sign ++ d :: digits :=
        (List.append_assoc (n.head ++ n.fracText) (letter :: sign) (d :: digits)).symm
      exact good_scanReal hm hletter (hspelled ▸ hheld)
    · trivial
  · have hspelled : n.spelled 0x65 = n.head ++ n.fracText := by
      rw [Numeral.spelled, Numeral.expSpelled, hexp, List.append_nil]
    exact good_scanReal hn (Or.inl rfl) (hspelled ▸ h)

theorem good_scanFraction (hn : n.Valid) (hfrac : n.frac = none) (hexp : n.exp = none)
    (h : lex.Held c n.head) : (scanFraction F c lex).1.Good := by
  rw [scanFraction]
  split
  · rename_i hc
    subst hc
    dsimp only
    split
    · rename_i hd
      obtain ⟨d, hget, hd⟩ := Got.exists_of_is hd
      -- `lex_get` and then `lex_save` are `lex_get_save`.
      have hdigit : lex.getSave.2.Held (.byte d) (n.head ++ [0x2E]) := by
        have hnext := h.getSave
        have hsame : lex.getSave.1 = .byte d := hget
        rwa [hsame] at hnext
      obtain ⟨digits, hdigits, hheld⟩ := hdigit.digits hd
      let m : Numeral := { n with frac := some (d :: digits) }
      have hm : m.Valid := by
        refine ⟨hn.int, hn.lead, fun frac hfrac => ?_, hn.exp⟩
        obtain rfl : d :: digits = frac := Option.some.inj hfrac
        exact hdigits
      have htext : m.head ++ m.fracText = n.head ++ [0x2E] ++ d :: digits :=
        (List.append_assoc n.head [0x2E] (d :: digits)).symm
      exact good_scanExponent hm hexp (htext ▸ hheld)
    · trivial
  · have htext : n.head ++ n.fracText = n.head := by
      rw [Numeral.fracText, hfrac, List.append_nil]
    exact good_scanExponent hn hexp (htext.symm ▸ h)

theorem good_scanTail (hn : n.Valid) (hfrac : n.frac = none) (hexp : n.exp = none)
    (h : lex.Held c n.head) : (scanTail F c lex).1.Good := by
  rw [scanTail]
  split
  · exact good_scanFraction hn hfrac hexp h
  · split
    · rename_i value hvalue
      obtain ⟨-, hrange⟩ := Option.filter_eq_some_iff.mp hvalue
      simpa [Token.Good, InInt64] using hrange
    · trivial

theorem good_scanNumber {b : Byte} (hsaved : lex.savedText = [b]) :
    (scanNumber F (.byte b) lex).1.Good := by
  have hstart : lex.Held (.byte b) [] :=
    ⟨fun b' hb' => Got.byte.inj hb' ▸ hsaved, fun hnone => absurd rfl (hnone b)⟩
  obtain ⟨minus, hfirst⟩ : ∃ minus : Bool,
      (if Got.byte b = .byte 0x2D then lex.getSave else (.byte b, lex)).2.Held
        (if Got.byte b = .byte 0x2D then lex.getSave else (.byte b, lex)).1
        (if minus then [0x2D] else []) := by
    split
    · rename_i hb
      obtain rfl := Got.byte.inj hb
      exact ⟨true, hstart.getSave⟩
    · exact ⟨false, hstart⟩
  rw [scanNumber]
  dsimp only
  generalize (if Got.byte b = .byte 0x2D then lex.getSave else (.byte b, lex)) = first at hfirst
  -- The digits in front of the point, without a zero in front of others.
  have htail : ∀ {c : Got} {lex : Lexer} {digits : Text}, Numeral.Digits digits →
      (digits.head? = some 0x30 → digits = [0x30]) →
      lex.Held c ((if minus then [0x2D] else []) ++ digits) → (scanTail F c lex).1.Good :=
    fun hdigits hlead hheld => good_scanTail
      (n := { minus, int := _, frac := none, exp := none }) ⟨hdigits, hlead, by simp, by simp⟩
      rfl rfl hheld
  split
  · rename_i hzero
    rw [hzero] at hfirst
    split
    · trivial
    · exact htail ⟨by simp, by simp [isDigit]⟩ (fun _ => rfl) hfirst.getSave
  · rename_i hzero
    split
    · rename_i hd
      obtain ⟨d, hc, hd⟩ := Got.exists_of_is hd
      rw [hc] at hfirst hzero
      obtain ⟨digits, hdigits, hheld⟩ := hfirst.digits hd
      exact htail hdigits
        (fun hhead => absurd (congrArg Got.byte (Option.some.inj hhead)) hzero) hheld
    · trivial

/-- Up to the closing quote whole characters have been read. -/
theorem good_scanString (hbuffer : lex.stream.buffer = [])
    (hsaved : lex.savedText = [0x22]) : (scanString F lex).1.Good := by
  rw [scanString]
  split
  · rename_i hend
    obtain ⟨bytes, hreads, htext⟩ := (reached_getSave lex).scanStringLoop hend
    have hnil := hreads.buffer_eq_nil (by rw [hbuffer]; exact settled_nil) (by decide)
    obtain ⟨chars, hchars⟩ := hreads.utf8
    rw [hnil, hbuffer, List.append_nil, List.nil_append] at hchars
    rw [htext, hsaved]
    split
    · rename_i value hvalue
      have hdecode : decodeString (bytes ++ [0x22]) = some value := hvalue
      rw [hchars] at hdecode
      exact (utf8CheckString_iff _).mpr (exists_chars_of_decodeString hdecode)
    · trivial
  · trivial

theorem good_identifier (word : Text) : (identifier F word).Good := by
  rw [identifier]
  split_ifs <;> trivial

theorem savedText_skipWhile (p : Byte → Bool) (c : Got) (lex : Lexer) :
    (Lexer.skipWhile p c lex).2.savedText = lex.savedText := by
  fun_induction Lexer.skipWhile p c lex with
  | case1 c lex _ ih => exact ih
  | case2 => rfl

theorem good_lexScan {stream : Stream} (h : Settled stream.buffer) :
    (lexScan F stream).1.Good := by
  let start : Lexer := { stream, savedText := [] }
  have hfirst : Settled (Lexer.skipWhile isBlank start.get.1 start.get.2).2.stream.buffer ∧ _ :=
    kept_settled.skipWhile (kept_settled.get h)
  have hsaved : (Lexer.skipWhile isBlank start.get.1 start.get.2).2.savedText = [] :=
    savedText_skipWhile _ _ _
  rw [lexScan]
  dsimp only
  generalize Lexer.skipWhile isBlank start.get.1 start.get.2 = first at hfirst hsaved
  obtain ⟨c, lex⟩ := first
  cases c with
  | eof => trivial
  | error => trivial
  | byte b =>
      dsimp only
      split
      · trivial
      · split
        · rename_i hquote
          subst hquote
          exact good_scanString ((hfirst.2 _ rfl).eq_nil (by decide))
            (congrArg (· ++ [0x22]) hsaved)
        · split
          · exact good_scanNumber (congrArg (· ++ [b]) hsaved)
          · split
            · exact good_identifier _
            · trivial

end Tokens

/-! ### Documents -/

section Documents

variable {F : Floats}

/-- A task goes on with a good token, and with what is well formed so far. -/
def Task.Good : Task F (Doc F) → Prop
  | .value token => token.Good
  | .members object token =>
    token.Good ∧ object.WellFormed ∧ ∃ members, object = .object members
  | .elements array token =>
    token.Good ∧ array.WellFormed ∧ ∃ elements, array = .array elements

theorem wellFormed_objectSet {members : List (Text × Doc F)} {key : Text} {value : Doc F}
    (h : (Doc.object members).WellFormed) (hkey : IsJsonString key) (hvalue : value.WellFormed) :
    (Doc.object (KeyedTable.put Prod.fst members (key, value))).WellFormed := by
  cases h with
  | object hnodup hkeys hmembers =>
      refine .object (KeyedTable.nodup_put hnodup _) (fun m hm => ?_) (fun m hm => ?_)
      · cases (KeyedTable.mem_put_iff hnodup _ m).mp hm with
        | inl heq => exact heq ▸ hkey
        | inr hm => exact hkeys m hm.1
      · cases (KeyedTable.mem_put_iff hnodup _ m).mp hm with
        | inl heq => exact heq ▸ hvalue
        | inr hm => exact hmembers m hm.1

theorem wellFormed_arrayAppend {elements : List (Doc F)} {value : Doc F}
    (h : (Doc.array elements).WellFormed) (hvalue : value.WellFormed) :
    (Doc.array (elements ++ [value])).WellFormed := by
  cases h with
  | array helements =>
      refine .array fun e he => ?_
      cases List.mem_append.mp he with
      | inl he => exact helements e he
      | inr he => exact List.mem_singleton.mp he ▸ hvalue

theorem Parses.wellFormed {task : Task F (Doc F)} {s s' : Stream} {doc : Doc F}
    (h : Parses (Doc.builder F) task s doc s') (htask : task.Good) (hs : Settled s.buffer) :
    doc.WellFormed ∧ Settled s'.buffer := by
  have hscan : ∀ {s : Stream}, Settled s.buffer → Settled (lexScan F s).2.buffer :=
    fun h => kept_settled.lexScan F h
  have hgood : ∀ {s : Stream}, Settled s.buffer → (lexScan F s).1.Good := good_lexScan
  have hempty : (Doc.object [] : Doc F).WellFormed :=
    .object List.nodup_nil (by simp) (by simp)
  induction h with
  | string hnul => exact ⟨.string ⟨hnul, htask⟩, hs⟩
  | integer => exact ⟨.integer htask, hs⟩
  | real => exact ⟨.real htask, hs⟩
  | jsonTrue => exact ⟨.true, hs⟩
  | jsonFalse => exact ⟨.false, hs⟩
  | jsonNull => exact ⟨.null, hs⟩
  | emptyObject => exact ⟨hempty, hscan hs⟩
  | object _ _ ih => exact ih ⟨hgood hs, hempty, [], rfl⟩ (hscan hs)
  | emptyArray => exact ⟨.array (by simp), hscan hs⟩
  | array _ _ ih => exact ih ⟨hgood hs, .array (by simp), [], rfl⟩ (hscan hs)
  | lastMember hkey _ _ _ ih =>
      obtain ⟨hutf, hobject, members, rfl⟩ := htask
      obtain ⟨hvalue, hs'⟩ := ih (hgood (hscan hs)) (hscan (hscan hs))
      exact ⟨wellFormed_objectSet hobject ⟨hkey, hutf⟩ hvalue, hscan hs'⟩
  | nextMember hkey _ _ _ _ ih ihrest =>
      obtain ⟨hutf, hobject, members, rfl⟩ := htask
      obtain ⟨hvalue, hs'⟩ := ih (hgood (hscan hs)) (hscan (hscan hs))
      exact ihrest ⟨hgood (hscan hs'), wellFormed_objectSet hobject ⟨hkey, hutf⟩ hvalue, _, rfl⟩
        (hscan (hscan hs'))
  | lastElement _ _ ih =>
      obtain ⟨htoken, harray, elements, rfl⟩ := htask
      obtain ⟨hvalue, hs'⟩ := ih htoken hs
      exact ⟨wellFormed_arrayAppend harray hvalue, hscan hs'⟩
  | nextElement _ _ _ ih ihrest =>
      obtain ⟨htoken, harray, elements, rfl⟩ := htask
      obtain ⟨hvalue, hs'⟩ := ih htoken hs
      exact ihrest ⟨hgood (hscan hs'), wellFormed_arrayAppend harray hvalue, _, rfl⟩
        (hscan (hscan hs'))

/-- The tasks that end in an array or an object. -/
def Task.OfContainer : Task F (Doc F) → Prop
  | .value token => token = .punct 0x5B ∨ token = .punct 0x7B
  | .members object _ => ∃ members, object = .object members
  | .elements array _ => ∃ elements, array = .array elements

/-- What the parser makes of a bracket is an array or an object. -/
theorem Parses.isContainer {task : Task F (Doc F)} {s s' : Stream} {doc : Doc F}
    (h : Parses (Doc.builder F) task s doc s') (htask : task.OfContainer) :
    doc.isContainer = true := by
  induction h with
  | emptyObject => rfl
  | emptyArray => rfl
  | object _ _ ih => exact ih ⟨[], rfl⟩
  | array _ _ ih => exact ih ⟨[], rfl⟩
  | lastMember =>
      obtain ⟨members, rfl⟩ := htask
      rfl
  | nextMember _ _ _ _ _ _ ih =>
      obtain ⟨members, rfl⟩ := htask
      exact ih ⟨_, rfl⟩
  | lastElement =>
      obtain ⟨elements, rfl⟩ := htask
      rfl
  | nextElement _ _ _ _ ih =>
      obtain ⟨elements, rfl⟩ := htask
      exact ih ⟨_, rfl⟩
  | _ => simp [Task.OfContainer] at htask

/-- What is accepted is well formed, and it is an array or an object. -/
theorem wellFormed_of_loads {text : Text} {doc : Doc F}
    (h : loads (Doc.builder F) text = some doc) :
    doc.WellFormed ∧ doc.isContainer = true := by
  obtain ⟨first, s', rfl, hfirst, hparses, -⟩ := loads_eq_some_iff.mp h
  have hsettled : Settled (Stream.init text).buffer := settled_nil
  exact ⟨(hparses.wellFormed (good_lexScan hsettled) (kept_settled.lexScan F hsettled)).1,
    hparses.isContainer hfirst⟩

/-- A value that has been read stands for a well-formed document. It is printed. If an `int`
counts what is printed, it is read back as a value that stands for the same, in any process,
and that one is printed alike. -/
theorem loads_dumps_loads (hF : F.Exact) (hashStr : Text → Nat) {text : Text} {value : Value F}
    (h : loads (Value.builder F hashStr) text = some value) :
    ∃ doc printed, doc.WellFormed ∧ Stands hashStr doc value ∧ Printable printed
      ∧ (∀ fuel, doc.depth ≤ fuel → dumps (Value.view hashStr) fuel value = some printed)
      ∧ (printed.length < 2 ^ 31 → ∀ hashStr', ∃ value',
        loads (Value.builder F hashStr') printed = some value' ∧ Stands hashStr' doc value'
          ∧ ∀ fuel, dumps (Value.view hashStr') fuel value'
            = dumps (Value.view hashStr) fuel value) := by
  have hstands := loads_stands F hashStr text
  rw [h] at hstands
  generalize hresult : loads (Doc.builder F) text = result at hstands
  cases hstands with
  | @some doc _ hvalue =>
      obtain ⟨hdoc, hcontainer⟩ := wellFormed_of_loads hresult
      obtain ⟨printed, hascii, hdump, hback⟩ := loads_dumps_stands hF hashStr hdoc hcontainer hvalue
      refine ⟨doc, printed, hdoc, hvalue, hascii, hdump, fun hlength hashStr' => ?_⟩
      obtain ⟨value', hloads, hvalue'⟩ := hback hlength hashStr'
      refine ⟨value', hloads, hvalue', fun fuel => ?_⟩
      rw [← dumps_stands hvalue, ← dumps_stands hvalue']

theorem loads_exampleDoc :
    loads (Doc.builder Floats.halves) (lit "\x7b\"\\u00E9\":[-0.5,-7]\x7d") = some exampleDoc := by
  obtain ⟨text, -, hdump, hloads⟩ := loads_dumps exact_halves wellFormed_exampleDoc rfl
  have htext : dumps Doc.view 3 exampleDoc
      = some (lit "\x7b\"\\u00E9\":[-0.5,-7]\x7d") := by
    rw [dumps, doDump, exampleDoc, Doc.view]
    dsimp only
    rw [sort_zipIdx]
    decide
  rw [hdump 3 (by decide)] at htext
  obtain rfl := Option.some.inj htext
  exact hloads (by decide)

theorem loads_dumps_loads_example :
    ∃ value : Value Floats.halves,
      loads (Value.builder Floats.halves fun _ => 0) (lit "\x7b\"\\u00E9\":[-0.5,-7]\x7d")
        = some value
      ∧ ∃ doc printed, doc.WellFormed ∧ Stands (fun _ => 0) doc value ∧ Printable printed
        ∧ (∀ fuel, doc.depth ≤ fuel → dumps (Value.view fun _ => 0) fuel value = some printed)
        ∧ (printed.length < 2 ^ 31 → ∀ hashStr', ∃ value',
          loads (Value.builder Floats.halves hashStr') printed = some value'
            ∧ Stands hashStr' doc value'
            ∧ ∀ fuel, dumps (Value.view hashStr') fuel value'
              = dumps (Value.view fun _ => 0) fuel value) := by
  have hstands := loads_stands Floats.halves (fun _ => 0) (lit "\x7b\"\\u00E9\":[-0.5,-7]\x7d")
  rw [loads_exampleDoc] at hstands
  generalize hresult : loads (Value.builder Floats.halves fun _ => 0) _ = result at hstands
  cases hstands with
  | some => exact ⟨_, rfl, loads_dumps_loads exact_halves _ hresult⟩

end Documents

end LibJansson

end IoTRepublic
