import IoTRepublic.Cpp.Decimal

/-!
# IoTRepublic.Jansson.StrConv

`jansson2.7/strconv.c`, and the numerals of JSON.

The C library's floating point is the parameter `Floats`, and what the program
relies on is `Floats.Exact`: `strtod` reads the number a numeral denotes, and
seventeen digits are enough to read a number back. Both are asked of the numerals of
JSON only: of `inf`, `nan` or hexadecimal digits, which the lexical analyser never hands
to `strtod`, nothing is said. The locale is that of C.

A double is never computed with: it is read, kept and printed. So the parameter is two
functions, and two laws are enough. The first makes the number a matter of its sign and
magnitude, however it is spelled; the second is the round trip of `%.17g`. `Floats.halves`
is a small library that has both, with doubles that are no integers among its numbers.
-/

namespace IoTRepublic

open Cpp

namespace LibJansson

/-- The floating point of the C library, of which the source is not part of the program: a
type of doubles, and the two functions that read and print one. -/
structure Floats where
  Double : Type
  /-- `strtod`; `none` on overflow. -/
  strtod : Text → Option Double
  /-- `printf("%.17g")`. -/
  printG : Double → Text

/-- The end of `jsonp_dtostr`: the sign of a positive exponent goes, and so do the zeros
in front of its digits. No JSON numeral needs them. -/
def trimExponent (buffer : Text) : Text :=
  match buffer.dropWhile (· ≠ 0x65) with
  | _ :: start :: digits =>
    buffer.takeWhile (· ≠ 0x65) ++ 0x65 :: (if start = 0x2D then [0x2D] else [])
      ++ digits.dropWhile (· = 0x30)
  | _ => buffer

/-- `jsonp_dtostr`, with the size `do_dump` gives and no precision: what `%.17g` prints,
made to look like a real where it has neither a point nor an exponent. -/
def dtostr (F : Floats) (value : F.Double) : Option Text :=
  let size := 100
  let buffer := F.printG value
  if size ≤ buffer.length then none
  else if 0x2E ∉ buffer ∧ 0x65 ∉ buffer then
    if size ≤ buffer.length + 3 then none else some (trimExponent (buffer ++ [0x2E, 0x30]))
  else some (trimExponent buffer)

/-! ### Numerals -/

/-- A numeral: a sign, digits, digits behind the point if there is one, and an exponent
with its sign if there is one. -/
structure Numeral where
  minus : Bool
  int : Text
  frac : Option Text
  exp : Option (Text × Text)

namespace Numeral

/-- The sign and the digits in front of the point. -/
def head (n : Numeral) : Text := (if n.minus then [0x2D] else []) ++ n.int

def fracText (n : Numeral) : Text :=
  match n.frac with
  | none => []
  | some digits => 0x2E :: digits

def expText (n : Numeral) : Text :=
  match n.exp with
  | none => []
  | some (sign, digits) => 0x65 :: sign ++ digits

def text (n : Numeral) : Text := n.head ++ n.fracText ++ n.expText

/-- The exponent, with the letter it is written with. -/
def expSpelled (n : Numeral) (letter : Byte) : Text :=
  match n.exp with
  | none => []
  | some (sign, digits) => letter :: sign ++ digits

/-- The numeral with an exponent letter of its own choice: JSON has `E` too. -/
def spelled (n : Numeral) (letter : Byte) : Text := n.head ++ n.fracText ++ n.expSpelled letter

/-- Digits, and at least one. An empty text is no numeral, nor part of one. -/
def Digits (text : Text) : Prop := text ≠ [] ∧ ∀ b ∈ text, isDigit b = true

/-- The numerals of JSON: no zero in front of other digits, and digits wherever a point or
an exponent asks for them. -/
structure Valid (n : Numeral) : Prop where
  int : Digits n.int
  /-- No zero in front of other digits. -/
  lead : n.int.head? = some 0x30 → n.int = [0x30]
  frac : ∀ digits ∈ n.frac, Digits digits
  exp : ∀ e ∈ n.exp, e.1 ∈ [[], [0x2B], [0x2D]] ∧ Digits e.2

def expValue (n : Numeral) : ℤ :=
  match n.exp with
  | none => 0
  | some (sign, digits) => if sign = [0x2D] then -digitsValue digits else digitsValue digits

/-- The magnitude a numeral denotes, as a rational number; the sign is kept apart, since a
double has a zero of either sign. -/
def value (n : Numeral) : ℚ :=
  digitsValue (n.int ++ n.frac.getD []) * (10 : ℚ) ^ (n.expValue - (n.frac.getD []).length)

/-- What `%g` writes: an exponent has a sign, and is not zero. -/
structure Printed (n : Numeral) : Prop where
  valid : n.Valid
  sign : ∀ e ∈ n.exp, e.1 ≠ []
  nonzero : ∀ e ∈ n.exp, ∃ b ∈ e.2, b ≠ 0x30
  length : n.text.length < 97

end Numeral

/-- The letters an exponent starts with. -/
def IsExpLetter (b : Byte) : Prop := b = 0x65 ∨ b = 0x45

instance (b : Byte) : Decidable (IsExpLetter b) := inferInstanceAs (Decidable (_ ∨ _))

/-- A double that `strtod` reads from a numeral of JSON. It is finite. -/
def Floats.Reads (F : Floats) (value : F.Double) : Prop :=
  ∃ (n : Numeral) (letter : Byte), n.Valid ∧ IsExpLetter letter
    ∧ F.strtod (n.spelled letter) = some value

/-- What is asked of the C library: two properties of correctly rounded conversion, on the
numerals JSON has. -/
structure Floats.Exact (F : Floats) : Prop where
  /-- `strtod` goes by the sign and the magnitude. -/
  strtod_value (n m : Numeral) (hn : n.Valid) (hm : m.Valid) (hminus : n.minus = m.minus)
    (hvalue : n.value = m.value) : F.strtod n.text = F.strtod m.text
  /-- Seventeen digits are enough. -/
  strtod_printG (value : F.Double) (h : F.Reads value) :
    ∃ n : Numeral, n.Printed ∧ F.printG value = n.text ∧ F.strtod n.text = some value

/-! ### `jsonp_dtostr` -/

theorem not_isDigit_of_ne {b : Byte} (h : isDigit b = true) :
    b ≠ 0x65 ∧ b ≠ 0x2E ∧ b ≠ 0x2D ∧ b ≠ 0x2B := by
  refine ⟨?_, ?_, ?_, ?_⟩ <;> intro hb <;> subst hb <;> simp [isDigit] at h

theorem Numeral.Valid.exp_notMem {n : Numeral} (h : n.Valid) : 0x65 ∉ n.head ++ n.fracText := by
  have hint : 0x65 ∉ n.int := fun hmem => (not_isDigit_of_ne (h.int.2 _ hmem)).1 rfl
  have hfrac : 0x65 ∉ n.fracText := by
    rw [Numeral.fracText]
    cases hdigits : n.frac with
    | none => simp
    | some digits =>
        have hall := (h.frac digits hdigits).2
        have hnot : 0x65 ∉ digits := fun hmem => (not_isDigit_of_ne (hall _ hmem)).1 rfl
        simpa using hnot
  rw [Numeral.head]
  cases n.minus <;> simp [hint, hfrac]

theorem Numeral.Valid.exp_mem_iff {n : Numeral} (h : n.Valid) :
    0x65 ∈ n.text ↔ n.exp.isSome = true := by
  rw [Numeral.text, List.mem_append, or_iff_right h.exp_notMem, Numeral.expText]
  cases n.exp <;> simp

theorem Numeral.Valid.point_mem_iff {n : Numeral} (h : n.Valid) :
    0x2E ∈ n.text ↔ n.frac.isSome = true := by
  have hint : 0x2E ∉ n.int := fun hmem => (not_isDigit_of_ne (h.int.2 _ hmem)).2.1 rfl
  have hhead : 0x2E ∉ n.head := by
    rw [Numeral.head]
    cases n.minus <;> simp [hint]
  have hexp : 0x2E ∉ n.expText := by
    rw [Numeral.expText]
    cases he : n.exp with
    | none => simp
    | some e =>
        obtain ⟨sign, digits⟩ := e
        obtain ⟨hsign, -, hall⟩ := h.exp _ he
        have hdigits : 0x2E ∉ digits := fun hmem => (not_isDigit_of_ne (hall _ hmem)).2.1 rfl
        simp only [List.mem_cons, List.not_mem_nil, or_false] at hsign
        rcases hsign with rfl | rfl | rfl <;> simp [hdigits]
  rw [Numeral.text, List.mem_append, or_iff_left hexp, List.mem_append, or_iff_right hhead,
    Numeral.fracText]
  cases n.frac <;> simp

theorem trimExponent_of_notMem {buffer : Text} (h : 0x65 ∉ buffer) :
    trimExponent buffer = buffer := by
  have hdrop : buffer.dropWhile (· ≠ 0x65) = [] := by
    rw [List.dropWhile_eq_nil_iff]
    intro b hb
    have hne : b ≠ 0x65 := fun heq => h (heq ▸ hb)
    simpa using hne
  rw [trimExponent, hdrop]

theorem trimExponent_append {buffer : Text} (h : 0x65 ∉ buffer) (start : Byte) (digits : Text) :
    trimExponent (buffer ++ 0x65 :: start :: digits)
      = buffer ++ 0x65 :: (if start = 0x2D then [0x2D] else [])
          ++ digits.dropWhile (· = 0x30) := by
  have hall : ∀ b ∈ buffer, (decide (b ≠ 0x65)) = true := by
    intro b hb
    have hne : b ≠ 0x65 := fun heq => h (heq ▸ hb)
    simpa using hne
  rw [trimExponent, List.dropWhile_append_of_pos hall, List.takeWhile_append_of_pos hall]
  simp

theorem digitsValue_dropWhile (digits : Text) :
    digitsValue (digits.dropWhile (· = 0x30)) = digitsValue digits := by
  induction digits with
  | nil => rfl
  | cons b digits ih =>
      rw [List.dropWhile_cons]
      split
      · rename_i hb
        obtain rfl : b = 0x30 := by simpa using hb
        rw [ih]
        rfl
      · rfl

namespace Numeral

variable {n : Numeral}

/-- With `.0` behind it. -/
def withPoint (n : Numeral) : Numeral := { n with frac := some [0x30] }

/-- Without the sign of a positive exponent, and without the zeros in front of its digits. -/
def trimmed (n : Numeral) : Numeral :=
  { n with exp := n.exp.map fun e =>
      (if e.1 = [0x2D] then [0x2D] else [], e.2.dropWhile (· = 0x30)) }

theorem text_withPoint (hfrac : n.frac = none) (hexp : n.exp = none) :
    n.withPoint.text = n.text ++ [0x2E, 0x30] := by
  simp [text, withPoint, head, fracText, expText, hfrac, hexp]

theorem value_withPoint (hfrac : n.frac = none) (hexp : n.exp = none) :
    n.withPoint.value = n.value := by
  have hdigits : digitsValue (n.int ++ [0x30]) = 10 * digitsValue n.int := by
    rw [digitsValue, List.foldl_append]
    rfl
  simp only [value, withPoint, expValue, hfrac, hexp, Option.getD_some, Option.getD_none,
    List.append_nil, hdigits]
  norm_num
  ring

theorem Valid.withPoint (h : n.Valid) : n.withPoint.Valid where
  int := h.int
  lead := h.lead
  frac := by
    intro digits hdigits
    obtain rfl : [0x30] = digits := Option.some.inj hdigits
    simp [Digits, isDigit]
  exp := h.exp

theorem value_trimmed : n.trimmed.value = n.value := by
  have hexp : n.trimmed.expValue = n.expValue := by
    rw [expValue, expValue, trimmed]
    cases n.exp with
    | none => rfl
    | some e =>
        simp only [Option.map_some, digitsValue_dropWhile]
        split <;> simp_all
  simp only [value, hexp]
  rfl

theorem Printed.valid_trimmed (h : n.Printed) : n.trimmed.Valid where
  int := h.valid.int
  lead := h.valid.lead
  frac := h.valid.frac
  exp := by
    intro e he
    obtain ⟨e', he', rfl⟩ := Option.map_eq_some_iff.mp he
    obtain ⟨b, hb, hne⟩ := h.nonzero e' he'
    refine ⟨by dsimp only; split <;> simp, ?_, ?_⟩
    · rw [Ne, List.dropWhile_eq_nil_iff]
      intro hall
      exact hne (by simpa using hall b hb)
    · intro c hc
      exact (h.valid.exp e' he').2.2 c ((List.dropWhile_suffix _).subset hc)

theorem Printed.trimExponent_text (h : n.Printed) : trimExponent n.text = n.trimmed.text := by
  have hnot := h.valid.exp_notMem
  have hhead : n.trimmed.head ++ n.trimmed.fracText = n.head ++ n.fracText := rfl
  cases hexp : n.exp with
  | none =>
      rw [text, text, hhead, expText, expText, trimmed, hexp]
      simpa using trimExponent_of_notMem hnot
  | some e =>
      obtain ⟨sign, digits⟩ := e
      have hsign := (h.valid.exp _ hexp).1
      have hne := h.sign _ hexp
      obtain ⟨start, rfl⟩ : ∃ start, sign = [start] := by
        simp only [List.mem_cons, List.not_mem_nil, or_false] at hsign
        rcases hsign with rfl | rfl | rfl
        · exact absurd rfl hne
        · exact ⟨_, rfl⟩
        · exact ⟨_, rfl⟩
      have htext : n.text = (n.head ++ n.fracText) ++ 0x65 :: start :: digits := by
        rw [text, expText, hexp]
        rfl
      rw [htext, trimExponent_append hnot, text, hhead, expText, trimmed, hexp]
      simp

end Numeral

/-- Without `.0` or the zeros of the exponent it is the same number, and it is written as
a real again, not as an integer. -/
theorem dtostr_eq {F : Floats} (hF : F.Exact) {value : F.Double} (h : F.Reads value) :
    ∃ n : Numeral, n.Valid ∧ (n.frac.isSome ∨ n.exp.isSome) ∧ dtostr F value = some n.text
      ∧ F.strtod n.text = some value := by
  obtain ⟨n, hn, hprint, hread⟩ := hF.strtod_printG value h
  have hlength := hn.length
  rw [dtostr, hprint, if_neg (by omega)]
  by_cases hplain : 0x2E ∉ n.text ∧ 0x65 ∉ n.text
  · have hnone : n.frac = none ∧ n.exp = none := by
      rw [hn.valid.point_mem_iff, hn.valid.exp_mem_iff] at hplain
      simpa using hplain
    obtain ⟨hfrac, hexp⟩ := hnone
    refine ⟨n.withPoint, hn.valid.withPoint, Or.inl rfl, ?_, ?_⟩
    · have hnot : 0x65 ∉ n.text ++ [0x2E, 0x30] := by simp [hplain.2]
      rw [if_pos hplain, if_neg (by omega), trimExponent_of_notMem hnot,
        Numeral.text_withPoint hfrac hexp]
    · rw [hF.strtod_value _ n hn.valid.withPoint hn.valid rfl (Numeral.value_withPoint hfrac hexp),
        hread]
  · refine ⟨n.trimmed, hn.valid_trimmed, ?_, ?_, ?_⟩
    · rw [hn.valid.point_mem_iff, hn.valid.exp_mem_iff] at hplain
      simp only [Numeral.trimmed, Option.isSome_map]
      by_contra hneither
      exact hplain (not_or.mp hneither)
    · rw [if_neg hplain, hn.trimExponent_text]
    · rw [hF.strtod_value _ n hn.valid_trimmed hn.valid rfl Numeral.value_trimmed, hread]

/-! ### A library with halves -/

/-- What stands behind the first character, if there is one. -/
def behindFirst : Text → Option Text
  | [] => none
  | _ :: text => some text

/-- The numeral a text spells: the text is cut at the exponent letter, and the front of it
at the point. -/
def Numeral.ofText (text : Text) : Numeral :=
  let mantissa := text.takeWhile (¬ IsExpLetter ·)
  let digits := mantissa.dropWhile (· = 0x2D)
  { minus := text.head? = some 0x2D
    int := digits.takeWhile isDigit
    frac := behindFirst (digits.dropWhile isDigit)
    exp := (behindFirst (text.dropWhile (¬ IsExpLetter ·))).map fun exp =>
      (exp.takeWhile (!isDigit ·), exp.dropWhile (!isDigit ·)) }

namespace Numeral

variable {n : Numeral} {letter : Byte}

theorem not_isExpLetter_of_isDigit {b : Byte} (h : isDigit b = true) : ¬ IsExpLetter b := by
  rintro (rfl | rfl) <;> simp [isDigit] at h

theorem Valid.mantissa (h : n.Valid) : ∀ b ∈ n.head ++ n.fracText, ¬ IsExpLetter b := by
  have hdigits : ∀ {digits : Text}, Digits digits → ∀ b ∈ digits, ¬ IsExpLetter b :=
    fun hd b hb => not_isExpLetter_of_isDigit (hd.2 b hb)
  refine List.forall_mem_append.mpr ⟨List.forall_mem_append.mpr ⟨?_, hdigits h.int⟩, ?_⟩
  · cases n.minus <;> simp [IsExpLetter]
  · rw [fracText]
    cases hfrac : n.frac with
    | none => simp
    | some digits => exact List.forall_mem_cons.mpr ⟨by decide, hdigits (h.frac _ hfrac)⟩

/-- The digits in front of the point, and the point. -/
theorem Valid.span_int (h : n.Valid) :
    (n.int ++ n.fracText).takeWhile isDigit = n.int
      ∧ (n.int ++ n.fracText).dropWhile isDigit = n.fracText := by
  rw [List.takeWhile_append_of_pos h.int.2, List.dropWhile_append_of_pos h.int.2, fracText]
  cases n.frac with
  | none => simp
  | some digits => simp [isDigit]

/-- The sign of the exponent, and its digits. -/
theorem Valid.span_exp (h : n.Valid) {e : Text × Text} (he : n.exp = some e) :
    (e.1 ++ e.2).takeWhile (!isDigit ·) = e.1 ∧ (e.1 ++ e.2).dropWhile (!isDigit ·) = e.2 := by
  obtain ⟨hsign, hne, hdigits⟩ := h.exp e he
  have hnone : ∀ b ∈ e.1, (!isDigit b) = true := by
    simp only [List.mem_cons, List.not_mem_nil, or_false] at hsign
    rcases hsign with hsign | hsign | hsign <;> simp [hsign, isDigit]
  obtain ⟨d, digits, heq⟩ := List.exists_cons_of_ne_nil hne
  have hd : isDigit d = true := hdigits d (by rw [heq]; exact List.mem_cons_self)
  rw [List.takeWhile_append_of_pos hnone, List.dropWhile_append_of_pos hnone, heq]
  simp [hd]

theorem ofText_spelled (h : n.Valid) (hletter : IsExpLetter letter) :
    ofText (n.spelled letter) = n := by
  have hmantissa : ∀ b ∈ n.head ++ n.fracText, decide (¬ IsExpLetter b) = true :=
    fun b hb => decide_eq_true (h.mantissa b hb)
  have hexp : (n.expSpelled letter).takeWhile (¬ IsExpLetter ·) = []
      ∧ (n.expSpelled letter).dropWhile (¬ IsExpLetter ·) = n.expSpelled letter := by
    rw [expSpelled]
    cases n.exp <;> simp [hletter]
  obtain ⟨d, digits, hint⟩ := List.exists_cons_of_ne_nil h.int.1
  have hd : d ≠ 0x2D :=
    (not_isDigit_of_ne (h.int.2 d (by rw [hint]; exact List.mem_cons_self))).2.2.1
  have hminus : (decide ((n.spelled letter).head? = some 0x2D)) = n.minus := by
    rw [spelled, head, hint]
    cases n.minus <;> simp [hd]
  have hdrop : (n.head ++ n.fracText).dropWhile (· = 0x2D) = n.int ++ n.fracText := by
    rw [head, hint]
    cases n.minus <;> simp [hd]
  obtain ⟨htake, hpoint⟩ := h.span_int
  have hfrac : behindFirst n.fracText = n.frac := by
    rw [fracText]
    cases n.frac <;> rfl
  have hexponent : (behindFirst (n.expSpelled letter)).map
      (fun exp => (exp.takeWhile (!isDigit ·), exp.dropWhile (!isDigit ·))) = n.exp := by
    rw [expSpelled]
    cases he : n.exp with
    | none => rfl
    | some e =>
        obtain ⟨hsign, hdigits⟩ := h.span_exp he
        exact congrArg some (Prod.ext hsign hdigits)
  rw [ofText, hminus, spelled, List.takeWhile_append_of_pos hmantissa,
    List.dropWhile_append_of_pos hmantissa, hexp.1, hexp.2, List.append_nil, hdrop, htake, hpoint,
    hfrac, hexponent]

/-- The numeral of a number of halves: the whole part, and a five behind the point if one
is left. -/
def ofHalves (minus : Bool) (halves : Nat) : Numeral :=
  { minus
    int := showNat (halves / 2)
    frac := if halves % 2 = 1 then some [0x35] else none
    exp := none }

end Numeral

/-- A C library whose doubles are halves, with a sign: it takes other numbers, and those from
`2 ^ 15` on, for ones out of range. -/
def Floats.halves : Floats where
  Double := Bool × Nat
  strtod text :=
    let n := Numeral.ofText text
    let halves := 2 * n.value
    if halves.den = 1 ∧ halves.num < 2 ^ 16 then some (n.minus, halves.num.toNat) else none
  printG value := (Numeral.ofHalves value.1 value.2).text

/-- No zero in front of other digits, which JSON would refuse. -/
theorem showNat_lead (n : Nat) : (showNat n).head? = some 0x30 → showNat n = [0x30] := by
  induction n using Nat.strong_induction_on with
  | _ n ih =>
      intro hhead
      by_cases hlt : n < 10
      · rw [showNat, Nat.toDigits_of_lt_base hlt] at hhead ⊢
        exact congrArg (fun b : Byte => [b]) (Option.some.inj hhead)
      · have hsplit : showNat n = showNat (n / 10) ++ [(n % 10).digitChar.toUInt8] := by
          rw [showNat, Nat.toDigits_of_base_le (by decide) (Nat.le_of_not_lt hlt), List.map_append]
          rfl
        rw [hsplit, List.head?_append_of_ne_nil _ (showNat_ne_nil _)] at hhead
        have hzero := congrArg digitsValue (ih (n / 10) (by omega) hhead)
        rw [digitsValue_showNat] at hzero
        have hquotient : n / 10 = 0 := hzero
        omega

namespace Numeral

theorem value_ofHalves (minus : Bool) (halves : Nat) :
    2 * (ofHalves minus halves).value = halves := by
  have hsplit := Nat.div_add_mod halves 2
  have hdigits : digitsValue (showNat (halves / 2) ++ [0x35]) = 10 * (halves / 2) + 5 := by
    rw [digitsValue, List.foldl_append]
    have hfold := digitsValue_showNat (halves / 2)
    rw [digitsValue] at hfold
    rw [hfold]
    rfl
  have hcast := congrArg (Nat.cast (R := ℚ)) hsplit
  push_cast at hcast
  by_cases hodd : halves % 2 = 1
  · rw [hodd] at hcast
    simp only [value, ofHalves, expValue, hodd, if_true, Option.getD_some, hdigits,
      List.length_singleton]
    push_cast
    norm_num
    linarith
  · have heven : halves % 2 = 0 := by omega
    rw [heven] at hcast
    simp only [value, ofHalves, expValue, hodd, if_false, Option.getD_none, List.append_nil,
      digitsValue_showNat, List.length_nil]
    push_cast
    norm_num
    linarith

theorem printed_ofHalves (minus : Bool) {halves : Nat} (h : halves < 2 ^ 16) :
    (ofHalves minus halves).Printed where
  valid :=
    { int := ⟨showNat_ne_nil _, fun _ hb => isDigit_of_mem_showNat hb⟩
      lead := showNat_lead _
      frac := by
        intro digits hdigits
        rw [ofHalves] at hdigits
        dsimp only at hdigits
        split at hdigits
        · obtain rfl : [0x35] = digits := Option.some.inj hdigits
          simp [Digits, isDigit]
        · cases hdigits
      exp := by simp [ofHalves] }
  sign := by simp [ofHalves]
  nonzero := by simp [ofHalves]
  length := by
    have hint : (showNat (halves / 2)).length ≤ 5 :=
      (showNat_length_le_iff (by norm_num)).mpr (by omega)
    have hhead : (ofHalves minus halves).head.length ≤ 6 := by
      rw [head, ofHalves]
      cases minus <;> simp <;> omega
    have hfrac : (ofHalves minus halves).fracText.length ≤ 2 := by
      rw [fracText, ofHalves]
      dsimp only
      by_cases hodd : halves % 2 = 1 <;> simp [hodd]
    have hexp : (ofHalves minus halves).expText.length = 0 := rfl
    rw [text, List.length_append, List.length_append]
    omega

end Numeral

theorem Floats.halves_strtod {n : Numeral} {letter : Byte} (h : n.Valid)
    (hletter : IsExpLetter letter) :
    Floats.halves.strtod (n.spelled letter)
      = if (2 * n.value).den = 1 ∧ (2 * n.value).num < 2 ^ 16 then
          some (n.minus, (2 * n.value).num.toNat)
        else none := by
  have hread : ∀ text, Floats.halves.strtod text
      = if (2 * (Numeral.ofText text).value).den = 1 ∧
            (2 * (Numeral.ofText text).value).num < 2 ^ 16
        then some ((Numeral.ofText text).minus, (2 * (Numeral.ofText text).value).num.toNat)
        else none := fun _ => rfl
  rw [hread, Numeral.ofText_spelled h hletter]

theorem Floats.halves_ofHalves (minus : Bool) {halves : Nat} (h : halves < 2 ^ 16) :
    Floats.halves.strtod (Numeral.ofHalves minus halves).text = some (minus, halves) := by
  have hread := halves_strtod (Numeral.printed_ofHalves minus h).valid (Or.inl rfl)
  rw [Numeral.value_ofHalves, if_pos ⟨Rat.den_natCast _, by rw [Rat.num_natCast]; exact_mod_cast h⟩]
    at hread
  exact hread

/-- Such a library has both properties: it prints every one of its doubles exactly. -/
theorem exact_halves : Floats.halves.Exact where
  strtod_value n m hn hm hminus hvalue := by
    have hread := Floats.halves_strtod hn (Or.inl rfl)
    rw [hminus, hvalue, ← Floats.halves_strtod hm (Or.inl rfl)] at hread
    exact hread
  strtod_printG value h := by
    obtain ⟨n, letter, hn, hletter, hread⟩ := h
    rw [Floats.halves_strtod hn hletter] at hread
    split at hread
    · rename_i hrange
      obtain rfl := Option.some.inj hread
      have hlt : (2 * n.value).num.toNat < 2 ^ 16 := by omega
      exact ⟨_, Numeral.printed_ofHalves n.minus hlt, rfl, Floats.halves_ofHalves n.minus hlt⟩
    · cases hread

end LibJansson

end IoTRepublic
