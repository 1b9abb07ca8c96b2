import IoTRepublic.Jansson.Stream
import IoTRepublic.Jansson.StrConv

/-!
# IoTRepublic.Jansson.Lexer

The lexical analyser of `jansson2.7/load.c`.

The functions are those of the source, with the stream handed through them. A look-ahead
of one byte is put back by `lex_unget`, which the source allows only for the byte that was
read last; `Kept` is the rule by which an invariant of the stream is carried through all
of them, with one assertion for the states in which a byte may be put back and one for
those in which it has been.

Main results: `Kept.lexScan`, that what reading and putting back preserve a token
preserves, and `size_lexScan`, that a token takes something off the stream.

No fuel is needed: a loop goes on only where a byte has been read, which makes the stream
shorter. The position that may overflow and the bytes that are refused are the stream's;
here an error of the stream is a byte that passes no test, and ends every loop as the end
of the text does.
-/

namespace IoTRepublic

open Cpp

namespace LibJansson

/-- `lex_t`, without the token: the stream, and the text of the token as far as it has
been saved. -/
structure Lexer where
  stream : Stream
  savedText : Text

/-- `lex->token`, with `lex->value`. -/
inductive Token (F : Floats)
  | invalid
  | eof
  /-- One of `{`, `}`, `[`, `]`, `:` and `,`. -/
  | punct (c : Byte)
  | string (value : Text)
  | integer (value : Int)
  | real (value : F.Double)
  | true
  | false
  | null

/-- `l_isupper` or `l_islower`. -/
def isAlpha (c : Byte) : Bool := (0x41 ≤ c && c ≤ 0x5A) || (0x61 ≤ c && c ≤ 0x7A)

/-- `l_isxdigit`. -/
def isXDigit (c : Byte) : Bool := isDigit c || (0x41 ≤ c && c ≤ 0x46) || (0x61 ≤ c && c ≤ 0x66)

/-- A byte has been read, and passes the test. The end of the text and an error pass
none. -/
def Got.is (p : Byte → Bool) : Got → Bool
  | .byte c => p c
  | _ => false

@[simp] theorem Got.is_byte (p : Byte → Bool) (c : Byte) : (Got.byte c).is p = p c := rfl

namespace Lexer

/-- `lex_get`: the next byte, which is not saved. -/
def get (lex : Lexer) : Got × Lexer :=
  (lex.stream.get.1, { lex with stream := lex.stream.get.2 })

/-- `lex_save`: the byte becomes part of the token's text. -/
def save (lex : Lexer) : Got → Lexer
  | .byte c => { lex with savedText := lex.savedText ++ [c] }
  | _ => lex

/-- `lex_get_save`: the next byte, saved at once. -/
def getSave (lex : Lexer) : Got × Lexer := (lex.get.1, lex.get.2.save lex.get.1)

/-- `lex_unget`: the byte is put back in front of the stream. -/
def unget (lex : Lexer) (c : Got) : Lexer := { lex with stream := lex.stream.unget c }

/-- `lex_unget_unsave`: a saved byte is put back, and is no longer part of the text. -/
def ungetUnsave (lex : Lexer) : Got → Lexer
  | .byte c => { stream := lex.stream.unget (.byte c), savedText := lex.savedText.dropLast }
  | _ => lex

def size (lex : Lexer) : Nat := lex.stream.size

theorem size_get (lex : Lexer) : lex.get.2.size + lex.get.1.weight ≤ lex.size :=
  lex.stream.size_get

theorem stream_save (lex : Lexer) (c : Got) : (lex.save c).stream = lex.stream := by
  cases c <;> rfl

@[simp] theorem size_save (lex : Lexer) (c : Got) : (lex.save c).size = lex.size := by
  rw [size, stream_save, size]

theorem size_getSave (lex : Lexer) : lex.getSave.2.size + lex.getSave.1.weight ≤ lex.size := by
  rw [getSave, size_save]
  exact lex.size_get

theorem weight_of_is {p : Byte → Bool} {c : Got} (h : c.is p = true) : c.weight = 1 := by
  cases c with
  | byte => rfl
  | _ => cases h

/-- `while(p(c)) c = lex_get_save(lex, error);`. -/
def saveWhile (p : Byte → Bool) (c : Got) (lex : Lexer) : Got × Lexer :=
  if c.is p then saveWhile p lex.getSave.1 lex.getSave.2 else (c, lex)
termination_by lex.size + c.weight
decreasing_by
  have hsize := lex.size_getSave
  have hweight := weight_of_is ‹_›
  omega

/-- `while(p(c)) c = lex_get(lex, error);`. -/
def skipWhile (p : Byte → Bool) (c : Got) (lex : Lexer) : Got × Lexer :=
  if c.is p then skipWhile p lex.get.1 lex.get.2 else (c, lex)
termination_by lex.size + c.weight
decreasing_by
  have hsize := lex.size_get
  have hweight := weight_of_is ‹_›
  omega

end Lexer

/-! ### Strings -/

/-- The digits of `\uXXXX`: has each of them been one? -/
def scanHex : Nat → Got → Lexer → Bool × Got × Lexer
  | 0, c, lex => (true, c, lex)
  | i + 1, c, lex =>
    if c.is isXDigit then scanHex i lex.getSave.1 lex.getSave.2 else (false, c, lex)

theorem size_scanHex (i : Nat) (c : Got) (lex : Lexer) :
    (scanHex i c lex).2.2.size + (scanHex i c lex).2.1.weight ≤ lex.size + c.weight := by
  induction i generalizing c lex with
  | zero => exact Nat.le_refl _
  | succ i ih =>
      rw [scanHex]
      split
      · have hnext := ih lex.getSave.1 lex.getSave.2
        have hsize := lex.size_getSave
        omega
      · exact Nat.le_refl _

/-- What may follow a backslash, other than `u`: the eight letters that stand for one
character each. -/
def isShortEscape (c : Byte) : Bool :=
  c = 0x22 || c = 0x5C || c = 0x2F || c = 0x62 || c = 0x66 || c = 0x6E || c = 0x72 || c = 0x74

/-- The first loop of `lex_scan_string`, up to the closing quote: control characters are
refused, and what follows a backslash is only checked. -/
def scanStringLoop (c : Got) (lex : Lexer) : Bool × Lexer :=
  match c with
  | .error => (false, lex)
  | .eof => (false, lex)
  | .byte b =>
    if b = 0x22 then (true, lex)
    else if b ≤ 0x1F then (false, lex.ungetUnsave c)
    else if b = 0x5C then
      let escape := lex.getSave
      if escape.1 = .byte 0x75 then
        let hex := scanHex 4 escape.2.getSave.1 escape.2.getSave.2
        if hex.1 then scanStringLoop hex.2.1 hex.2.2 else (false, hex.2.2)
      else if escape.1.is isShortEscape then scanStringLoop escape.2.getSave.1 escape.2.getSave.2
      else (false, escape.2)
    else scanStringLoop lex.getSave.1 lex.getSave.2
termination_by lex.size + c.weight
decreasing_by
  · have hescape := lex.size_getSave
    have hdigit := lex.getSave.2.size_getSave
    have hhex := size_scanHex 4 lex.getSave.2.getSave.1 lex.getSave.2.getSave.2
    simp only [Got.weight] at *
    omega
  · have hescape := lex.size_getSave
    have hsize := lex.getSave.2.size_getSave
    simp only [Got.weight] at *
    omega
  · have hsize := lex.size_getSave
    simp only [Got.weight] at *
    omega

/-- A digit of `decode_unicode_escape`, of either case. -/
def hexValue (c : Byte) : Option Nat :=
  if isDigit c then some (c.toNat - 0x30)
  else if 0x61 ≤ c ∧ c ≤ 0x7A then some (c.toNat - 0x61 + 10)
  else if 0x41 ≤ c ∧ c ≤ 0x5A then some (c.toNat - 0x41 + 10)
  else none

/-- `decode_unicode_escape`, behind the `u`: the value of four digits; `none` is -1. -/
def decodeUnicodeEscape (str : Text) : Option Nat :=
  (str.take 4).foldlM (fun value c => (hexValue c).map (value * 16 + ·)) 0

/-- What is written for the escape behind a backslash, and how far `p` moves. A letter the
first loop does not let through runs into `assert(0)`. -/
def scanEscape : Text → Option (Text × Nat)
  | [] => none
  | c :: p =>
    if c = 0x75 then do
      let value ← decodeUnicodeEscape p
      if 0xD800 ≤ value ∧ value ≤ 0xDBFF then
        match p.drop 4 with
        | 0x5C :: 0x75 :: p =>
          let value2 ← decodeUnicodeEscape p
          if 0xDC00 ≤ value2 ∧ value2 ≤ 0xDFFF then
            let t ← utf8Encode ((value - 0xD800) * 1024 + (value2 - 0xDC00) + 0x10000)
            return (t, 11)
          else none
        | _ => none
      else if 0xDC00 ≤ value ∧ value ≤ 0xDFFF then none
      else
        let t ← utf8Encode value
        return (t, 5)
    else if c = 0x22 ∨ c = 0x5C ∨ c = 0x2F then some ([c], 1)
    else if c = 0x62 then some ([0x08], 1)
    else if c = 0x66 then some ([0x0C], 1)
    else if c = 0x6E then some ([0x0A], 1)
    else if c = 0x72 then some ([0x0D], 1)
    else if c = 0x74 then some ([0x09], 1)
    else none

/-- The second loop of `lex_scan_string`, behind the opening quote. There is a closing one. -/
def decodeString : Text → Option Text
  | [] => none
  | c :: p =>
    if c = 0x22 then some []
    else if c = 0x5C then
      match scanEscape p with
      | none => none
      | some (t, length) => (decodeString (p.drop length)).map (t ++ ·)
    else (decodeString p).map (c :: ·)
termination_by p => p.length

section Scanning

variable (F : Floats)

/-- `lex_scan_string`: the text up to the closing quote is saved as it is and decoded
afterwards. -/
def scanString (lex : Lexer) : Token F × Lexer :=
  let scan := scanStringLoop lex.getSave.1 lex.getSave.2
  if scan.1 then
    match decodeString scan.2.savedText.tail with
    | some value => (.string value, scan.2)
    | none => (.invalid, scan.2)
  else (.invalid, scan.2)

/-! ### Numbers -/

/-- `json_strtoint` in base ten, into 64 bits; `none` is `ERANGE`. -/
def strtoint (text : Text) : Option Int :=
  (strtol text).filter fun value => -2 ^ 63 ≤ value ∧ value < 2 ^ 63

/-- The end of `lex_scan_number`: what has been saved is a real. -/
def scanReal (c : Got) (lex : Lexer) : Token F × Lexer :=
  match F.strtod (lex.ungetUnsave c).savedText with
  | some value => (.real value, lex.ungetUnsave c)
  | none => (.invalid, lex.ungetUnsave c)

/-- `lex_scan_number`, from the exponent on: a letter, a sign if there is one, and at
least one digit. -/
def scanExponent (c : Got) (lex : Lexer) : Token F × Lexer :=
  if c.is (fun b => b = 0x45 || b = 0x65) then
    let first := lex.getSave
    let digit :=
      if first.1.is (fun b => b = 0x2B || b = 0x2D) then first.2.getSave else first
    if digit.1.is isDigit then
      let behind := Lexer.saveWhile isDigit digit.2.getSave.1 digit.2.getSave.2
      scanReal F behind.1 behind.2
    else (.invalid, digit.2.ungetUnsave digit.1)
  else scanReal F c lex

/-- `lex_scan_number`, from the point on: at least one digit has to follow. -/
def scanFraction (c : Got) (lex : Lexer) : Token F × Lexer :=
  if c = .byte 0x2E then
    let digit := lex.get
    if digit.1.is isDigit then
      let first := (digit.2.save digit.1).getSave
      let behind := Lexer.saveWhile isDigit first.1 first.2
      scanExponent F behind.1 behind.2
    else (.invalid, digit.2.unget digit.1)
  else scanExponent F c lex

/-- `lex_scan_number`, behind the digits in front of the point. -/
def scanTail (c : Got) (lex : Lexer) : Token F × Lexer :=
  if c.is (fun b => b = 0x2E || b = 0x45 || b = 0x65) then scanFraction F c lex
  else
    match strtoint (lex.ungetUnsave c).savedText with
    | some value => (.integer value, lex.ungetUnsave c)
    | none => (.invalid, lex.ungetUnsave c)

/-- `lex_scan_number`: no zero in front of other digits, and an integer unless there is a
point or an exponent. -/
def scanNumber (c : Got) (lex : Lexer) : Token F × Lexer :=
  let first := if c = .byte 0x2D then lex.getSave else (c, lex)
  if first.1 = .byte 0x30 then
    let second := first.2.getSave
    if second.1.is isDigit then (.invalid, second.2.ungetUnsave second.1)
    else scanTail F second.1 second.2
  else if first.1.is isDigit then
    let behind := Lexer.saveWhile isDigit first.2.getSave.1 first.2.getSave.2
    scanTail F behind.1 behind.2
  else (.invalid, first.2.ungetUnsave first.1)

/-! ### Tokens -/

/-- The token an identifier stands for: three words are known, and every other one is
invalid. -/
def identifier (savedText : Text) : Token F :=
  if savedText = lit "true" then .true
  else if savedText = lit "false" then .false
  else if savedText = lit "null" then .null
  else .invalid

/-- White space. -/
def isBlank (c : Byte) : Bool := c = 0x20 || c = 0x09 || c = 0x0A || c = 0x0D

/-- The characters that are a token each. -/
def isPunct (c : Byte) : Bool :=
  c = 0x7B || c = 0x7D || c = 0x5B || c = 0x5D || c = 0x3A || c = 0x2C

/-- `lex_scan`: white space is passed, and the next character tells the kind of the
token. -/
def lexScan (stream : Stream) : Token F × Stream :=
  let start : Lexer := { stream, savedText := [] }
  let first := Lexer.skipWhile isBlank start.get.1 start.get.2
  let lex := first.2.save first.1
  match first.1 with
  | .eof => (.eof, first.2.stream)
  | .error => (.invalid, first.2.stream)
  | .byte c =>
    if isPunct c then (.punct c, lex.stream)
    else if c = 0x22 then ((scanString F lex).1, (scanString F lex).2.stream)
    else if isDigit c ∨ c = 0x2D then
      ((scanNumber F (.byte c) lex).1, (scanNumber F (.byte c) lex).2.stream)
    else if isAlpha c then
      let behind := Lexer.saveWhile isAlpha lex.getSave.1 lex.getSave.2
      let word := behind.2.ungetUnsave behind.1
      (identifier F word.savedText, word.stream)
    else (.invalid, { lex.stream with buffer := [] })

end Scanning

/-! ### What reading keeps -/

/-- `P` is kept by reading; `Q` holds as long as the byte that has been read may be put
back. -/
structure Kept (P : Stream → Prop) (Q : Got → Stream → Prop) : Prop where
  get {s : Stream} (h : P s) : Q s.get.1 s.get.2
  unget {c : Got} {s : Stream} (h : Q c s) : P (s.unget c)
  pass {c : Got} {s : Stream} (h : Q c s) : P s
  clear {s : Stream} (h : P s) : P { s with buffer := [] }

namespace Kept

variable {P : Stream → Prop} {Q : Got → Stream → Prop} (hkept : Kept P Q)
include hkept

theorem getSave {lex : Lexer} (h : P lex.stream) : Q lex.getSave.1 lex.getSave.2.stream := by
  have hstream : lex.getSave.2.stream = lex.stream.get.2 := by
    rw [Lexer.getSave, Lexer.get]
    cases lex.stream.get.1 <;> rfl
  rw [hstream]
  exact hkept.get h

theorem ungetUnsave {c : Got} {lex : Lexer} (h : Q c lex.stream) :
    P (lex.ungetUnsave c).stream := by
  cases c with
  | byte => exact hkept.unget h
  | _ => exact hkept.pass h

theorem saveWhile {p : Byte → Bool} {c : Got} {lex : Lexer} (h : Q c lex.stream) :
    Q (Lexer.saveWhile p c lex).1 (Lexer.saveWhile p c lex).2.stream := by
  fun_induction Lexer.saveWhile p c lex with
  | case1 c lex _ ih => exact ih (hkept.getSave (hkept.pass h))
  | case2 => exact h

theorem skipWhile {p : Byte → Bool} {c : Got} {lex : Lexer} (h : Q c lex.stream) :
    Q (Lexer.skipWhile p c lex).1 (Lexer.skipWhile p c lex).2.stream := by
  fun_induction Lexer.skipWhile p c lex with
  | case1 c lex _ ih => exact ih (hkept.get (hkept.pass h))
  | case2 => exact h

theorem scanHex {i : Nat} {c : Got} {lex : Lexer} (h : Q c lex.stream) :
    Q (LibJansson.scanHex i c lex).2.1 (LibJansson.scanHex i c lex).2.2.stream := by
  induction i generalizing c lex with
  | zero => exact h
  | succ i ih =>
      rw [LibJansson.scanHex]
      split
      · exact ih (hkept.getSave (hkept.pass h))
      · exact h

theorem scanStringLoop {c : Got} {lex : Lexer} (h : Q c lex.stream) :
    P (LibJansson.scanStringLoop c lex).2.stream := by
  fun_induction LibJansson.scanStringLoop c lex with
  | case1 => exact hkept.pass h
  | case2 => exact hkept.pass h
  | case3 => exact hkept.pass h
  | case4 => exact hkept.ungetUnsave h
  | case5 lex escape hu hex hok hquote hcontrol ih =>
      exact ih (hkept.scanHex (hkept.getSave (hkept.pass (hkept.getSave (hkept.pass h)))))
  | case6 lex escape hu hex hok hquote hcontrol =>
      exact hkept.pass (hkept.scanHex (hkept.getSave (hkept.pass (hkept.getSave (hkept.pass h)))))
  | case7 lex escape hu hshort hquote hcontrol ih =>
      exact ih (hkept.getSave (hkept.pass (hkept.getSave (hkept.pass h))))
  | case8 lex escape hu hshort hquote hcontrol => exact hkept.pass (hkept.getSave (hkept.pass h))
  | case9 lex b hquote hcontrol hescape ih => exact ih (hkept.getSave (hkept.pass h))

variable (F : Floats)

theorem scanString {lex : Lexer} (h : P lex.stream) :
    P (LibJansson.scanString F lex).2.stream := by
  have hloop := hkept.scanStringLoop (hkept.getSave h)
  rw [LibJansson.scanString]
  split
  · split <;> exact hloop
  · exact hloop

theorem scanReal {c : Got} {lex : Lexer} (h : Q c lex.stream) :
    P (LibJansson.scanReal F c lex).2.stream := by
  rw [LibJansson.scanReal]
  split <;> exact hkept.ungetUnsave h

theorem scanExponent {c : Got} {lex : Lexer} (h : Q c lex.stream) :
    P (LibJansson.scanExponent F c lex).2.stream := by
  have hfirst := hkept.getSave (hkept.pass h)
  have hdigit : Q (if lex.getSave.1.is (fun b => b = 0x2B || b = 0x2D) then lex.getSave.2.getSave
        else lex.getSave).1
      (if lex.getSave.1.is (fun b => b = 0x2B || b = 0x2D) then lex.getSave.2.getSave
        else lex.getSave).2.stream := by
    split
    · exact hkept.getSave (hkept.pass hfirst)
    · exact hfirst
  rw [LibJansson.scanExponent]
  split
  · dsimp only
    generalize (if lex.getSave.1.is (fun b => b = 0x2B || b = 0x2D) then lex.getSave.2.getSave
        else lex.getSave) = digit at hdigit
    split
    · exact hkept.scanReal F (hkept.saveWhile (hkept.getSave (hkept.pass hdigit)))
    · exact hkept.ungetUnsave hdigit
  · exact hkept.scanReal F h

theorem scanFraction {c : Got} {lex : Lexer} (h : Q c lex.stream) :
    P (LibJansson.scanFraction F c lex).2.stream := by
  have hdigit : Q lex.get.1 lex.get.2.stream := hkept.get (hkept.pass h)
  rw [LibJansson.scanFraction]
  dsimp only
  split
  · split
    · have hsaved : P (lex.get.2.save lex.get.1).stream := by
        rw [Lexer.stream_save]
        exact hkept.pass hdigit
      exact hkept.scanExponent F (hkept.saveWhile (hkept.getSave hsaved))
    · exact hkept.unget hdigit
  · exact hkept.scanExponent F h

theorem scanTail {c : Got} {lex : Lexer} (h : Q c lex.stream) :
    P (LibJansson.scanTail F c lex).2.stream := by
  rw [LibJansson.scanTail]
  split
  · exact hkept.scanFraction F h
  · split <;> exact hkept.ungetUnsave h

/-- The first character is not put back. -/
theorem scanNumber {c : Got} {lex : Lexer} (hc : c.is (fun b => isDigit b || b = 0x2D) = true)
    (h : P lex.stream) : P (LibJansson.scanNumber F c lex).2.stream := by
  have hfirst : P (if c = .byte 0x2D then lex.getSave else (c, lex)).2.stream
      ∧ (Q (if c = .byte 0x2D then lex.getSave else (c, lex)).1
          (if c = .byte 0x2D then lex.getSave else (c, lex)).2.stream
        ∨ (if c = .byte 0x2D then lex.getSave else (c, lex)).1.is isDigit = true) := by
    split
    · exact ⟨hkept.pass (hkept.getSave h), Or.inl (hkept.getSave h)⟩
    · rename_i hminus
      refine ⟨h, Or.inr ?_⟩
      cases c with
      | byte b =>
          have hne : b ≠ 0x2D := fun heq => hminus (heq ▸ rfl)
          simpa [Got.is, hne] using hc
      | _ => cases hc
  rw [LibJansson.scanNumber]
  dsimp only
  generalize (if c = .byte 0x2D then lex.getSave else (c, lex)) = first at hfirst
  split
  · split
    · exact hkept.ungetUnsave (hkept.getSave hfirst.1)
    · exact hkept.scanTail F (hkept.getSave hfirst.1)
  · split
    · exact hkept.scanTail F (hkept.saveWhile (hkept.getSave hfirst.1))
    · exact hkept.ungetUnsave (hfirst.2.resolve_right ‹_›)

end Kept

section

variable (F : Floats)

/-- What is in front of a token is passed; what follows is kept. The one proof by cases on
the kind of the token that the others are taken from. -/
theorem lexScan_cases (stream : Stream) :
    ∃ (c : Got) (s : Stream), (∀ {P Q}, Kept P Q → P stream → Q c s)
      ∧ (c = .eof ∧ lexScan F stream = (.eof, s) ∨ c = .error ∧ lexScan F stream = (.invalid, s)
        ∨ (∃ b, c = .byte b) ∧ ∀ {P Q}, Kept P Q → P s → P (lexScan F stream).2) := by
  let start : Lexer := { stream, savedText := [] }
  let first := Lexer.skipWhile isBlank start.get.1 start.get.2
  refine ⟨first.1, first.2.stream, fun hkept h => hkept.skipWhile (hkept.get h), ?_⟩
  rw [lexScan]
  dsimp only
  cases hfirst : first.1 with
  | eof => exact Or.inl ⟨rfl, rfl⟩
  | error => exact Or.inr (Or.inl ⟨rfl, rfl⟩)
  | byte b =>
      refine Or.inr (Or.inr ⟨⟨b, rfl⟩, fun {P} {Q} hkept h => ?_⟩)
      have h : P (first.2.save (.byte b)).stream := h
      dsimp only
      split
      · exact h
      · split
        · exact hkept.scanString F h
        · split
          · exact hkept.scanNumber F (by simpa [Got.is] using ‹_ ∨ _›) h
          · split
            · exact hkept.ungetUnsave (hkept.saveWhile (hkept.getSave h))
            · exact hkept.clear h

/-- A token keeps what reading a byte and putting it back keep. -/
theorem Kept.lexScan {P : Stream → Prop} {Q : Got → Stream → Prop} (hkept : Kept P Q)
    {stream : Stream} (h : P stream) : P (lexScan F stream).2 := by
  obtain ⟨c, s, hfirst, ⟨-, heq⟩ | ⟨-, heq⟩ | ⟨-, hrest⟩⟩ := lexScan_cases F stream
  · rw [heq]
    exact hkept.pass (hfirst hkept h)
  · rw [heq]
    exact hkept.pass (hfirst hkept h)
  · exact hrest hkept (hkept.pass (hfirst hkept h))

/-! ### Progress -/

theorem Stream.size_unget (s : Stream) (c : Got) : (s.unget c).size = s.size + c.weight := by
  cases c with
  | byte c => simp only [unget, size, List.length_cons, Got.weight]; omega
  | _ => rfl

/-- There is not more to read than there has been. -/
theorem kept_size (n : Nat) :
    Kept (fun s => s.size ≤ n) (fun c s => s.size + c.weight ≤ n) where
  get h := Nat.le_trans (Stream.size_get _) h
  unget h := by rwa [Stream.size_unget]
  pass h := Nat.le_of_add_right_le h
  clear h := Nat.le_trans (Nat.add_le_add_right (Nat.zero_le _) _) h

/-- A token that is neither the end nor invalid makes the stream shorter, which is what
the parser's recursion ends by. -/
theorem size_lexScan (stream : Stream) :
    (lexScan F stream).2.size ≤ stream.size
      ∧ ((lexScan F stream).1 ≠ .eof → (lexScan F stream).1 ≠ .invalid →
        (lexScan F stream).2.size < stream.size) := by
  refine ⟨(kept_size _).lexScan F (Nat.le_refl _), fun heof hinvalid => ?_⟩
  obtain ⟨c, s, hfirst, ⟨-, heq⟩ | ⟨-, heq⟩ | ⟨⟨b, rfl⟩, hrest⟩⟩ := lexScan_cases F stream
  · exact absurd (congrArg Prod.fst heq) heof
  · exact absurd (congrArg Prod.fst heq) hinvalid
  · have hbyte := hfirst (kept_size stream.size) (Nat.le_refl _)
    exact Nat.lt_of_le_of_lt (hrest (kept_size s.size) (Nat.le_refl _)) hbyte

end

end LibJansson

end IoTRepublic
