import IoTRepublic.Utility.Utf8

/-!
# IoTRepublic.Jansson.Utf

The rest of `jansson2.7/utf.c`, and what its functions accept: the UTF-8 of
characters, as Lean has them.

The masks and shifts of the source are written as remainders and quotients.

Main results: `utf8Iterate_eq_some_iff`, `utf8CheckString_iff`.

The check in `Utility/Utf8` says yes or no; the functions here have a code point to
return. Both are compared with the code points Lean's characters have: a sequence is
accepted if, and only if, it is the UTF-8 of a character, for each of its four lengths,
and a text is accepted if it is that of a list of characters.
-/

namespace IoTRepublic

open Cpp

namespace LibJansson

/-- `utf8_encode`, for a code point that is not negative. -/
def utf8Encode (codepoint : Nat) : Option Text :=
  if codepoint < 0x80 then some [codepoint.toUInt8]
  else if codepoint < 0x800 then
    some [(0xC0 + codepoint / 64 % 32).toUInt8, (0x80 + codepoint % 64).toUInt8]
  else if codepoint < 0x10000 then
    some [(0xE0 + codepoint / 4096 % 16).toUInt8, (0x80 + codepoint / 64 % 64).toUInt8,
      (0x80 + codepoint % 64).toUInt8]
  else if codepoint ≤ 0x10FFFF then
    some [(0xF0 + codepoint / 262144 % 8).toUInt8, (0x80 + codepoint / 4096 % 64).toUInt8,
      (0x80 + codepoint / 64 % 64).toUInt8, (0x80 + codepoint % 64).toUInt8]
  else none

/-- The code point `utf8_check_full` passes out, for a sequence of that size; `none` where
it refuses the sequence. -/
def utf8Codepoint (buffer : List Byte) (size : Nat) : Option Nat :=
  let u := (buffer.headD 0).toNat
  let mask := if size = 2 then 0x20 else if size = 3 then 0x10 else 0x8
  if size < 2 ∨ 4 < size then none
  else
    match utf8Value (u % mask) (buffer.take size).tail with
    | none => none
    | some value =>
      if 0x10FFFF < value then none
      else if 0xD800 ≤ value ∧ value ≤ 0xDFFF then none
      else if size = 2 ∧ value < 0x80 ∨ size = 3 ∧ value < 0x800 ∨ size = 4 ∧ value < 0x10000 then
        none
      else some value

/-- `utf8_iterate`, for a buffer that is not empty: the code point in front and what is
behind it. -/
def utf8Iterate (byte : Byte) (buffer : Text) : Option (Nat × Text) :=
  let count := utf8CheckFirst byte
  if count = 0 then none
  else if count = 1 then some (byte.toNat, buffer)
  else if (byte :: buffer).length < count then none
  else (utf8Codepoint (byte :: buffer) count).map fun value => (value, buffer.drop (count - 1))

theorem utf8CheckFull_eq (buffer : List Byte) (size : Nat) :
    utf8CheckFull buffer size = (utf8Codepoint buffer size).isSome := by
  simp only [utf8CheckFull, utf8Codepoint]
  split
  · rfl
  · cases utf8Value _ _ with
    | none => rfl
    | some value =>
        dsimp only
        split
        · rfl
        · split
          · rfl
          · split <;> rfl

/-! ### Characters -/

/-- The UTF-8 of characters, one sequence behind the other. -/
def encode (chars : List Char) : Text := chars.flatMap String.utf8EncodeChar

@[simp] theorem encode_nil : encode [] = [] := rfl

@[simp] theorem encode_cons (c : Char) (chars : List Char) :
    encode (c :: chars) = String.utf8EncodeChar c ++ encode chars := rfl

@[simp] theorem encode_append (chars more : List Char) :
    encode (chars ++ more) = encode chars ++ encode more := List.flatMap_append

theorem toNat_le (c : Char) : c.toNat ≤ 0x10FFFF := by
  cases c.valid with
  | inl h => exact Nat.le_trans (Nat.le_of_lt h) (by simp)
  | inr h => exact Nat.le_of_lt_succ h.2

theorem not_surrogate (c : Char) : ¬ (0xD800 ≤ c.toNat ∧ c.toNat ≤ 0xDFFF) := by
  intro h
  cases c.valid with
  | inl hlt => exact absurd (Nat.lt_of_le_of_lt h.1 hlt) (by simp)
  | inr hgt => exact absurd (Nat.lt_of_lt_of_le hgt.1 h.2) (by simp)

/-- A code point that is no surrogate is one of a character. -/
theorem exists_char {value : Nat} (hle : value ≤ 0x10FFFF)
    (h : ¬ (0xD800 ≤ value ∧ value ≤ 0xDFFF)) : ∃ c : Char, c.toNat = value := by
  have hvalid : value.isValidChar := by
    rw [Nat.isValidChar]
    omega
  exact ⟨Char.ofNatAux value hvalid, UInt32.toNat_ofNatLT ..⟩

/-- The bytes `utf8_encode` writes are those of the character. -/
theorem utf8Encode_toNat (c : Char) : utf8Encode c.toNat = some (String.utf8EncodeChar c) := by
  have hle := toNat_le c
  have hchar : String.utf8EncodeChar c
      = if c.toNat ≤ 0x7F then [c.toNat.toUInt8]
        else if c.toNat ≤ 0x7FF then
          [(c.toNat / 64 % 32 + 0xC0).toUInt8, (c.toNat % 64 + 0x80).toUInt8]
        else if c.toNat ≤ 0xFFFF then
          [(c.toNat / 4096 % 16 + 0xE0).toUInt8, (c.toNat / 64 % 64 + 0x80).toUInt8,
            (c.toNat % 64 + 0x80).toUInt8]
        else
          [(c.toNat / 262144 % 8 + 0xF0).toUInt8, (c.toNat / 4096 % 64 + 0x80).toUInt8,
            (c.toNat / 64 % 64 + 0x80).toUInt8, (c.toNat % 64 + 0x80).toUInt8] := rfl
  rw [hchar, utf8Encode]
  simp only [Nat.add_comm]
  by_cases hone : c.toNat < 0x80
  · rw [if_pos hone, if_pos (Nat.le_of_lt_succ hone)]
  · rw [if_neg hone, if_neg (fun h => hone (Nat.lt_succ_of_le h))]
    by_cases htwo : c.toNat < 0x800
    · rw [if_pos htwo, if_pos (Nat.le_of_lt_succ htwo)]
    · rw [if_neg htwo, if_neg (fun h => htwo (Nat.lt_succ_of_le h))]
      by_cases hthree : c.toNat < 0x10000
      · rw [if_pos hthree, if_pos (Nat.le_of_lt_succ hthree)]
      · rw [if_neg hthree, if_neg (fun h => hthree (Nat.lt_succ_of_le h)), if_pos hle]

/-! ### Decoding -/

theorem utf8CheckFirst_eq (byte : Byte) :
    utf8CheckFirst byte
      = if byte.toNat < 0x80 then 1 else if byte.toNat < 0xC2 then 0
        else if byte.toNat < 0xE0 then 2 else if byte.toNat < 0xF0 then 3
        else if byte.toNat < 0xF5 then 4 else 0 := by
  simp only [utf8CheckFirst, UInt8.lt_iff_toNat_lt, UInt8.le_iff_toNat_le, ← UInt8.toNat_inj,
    UInt8.reduceToNat]
  split_ifs <;> omega

theorem utf8Value_nil (value : Nat) : utf8Value value [] = some value := rfl

theorem utf8Value_cons (value : Nat) (u : Byte) (buffer : List Byte) :
    utf8Value value (u :: buffer)
      = if 0x80 ≤ u.toNat ∧ u.toNat ≤ 0xBF then utf8Value (value * 64 + u.toNat % 64) buffer
        else none := by
  simp only [utf8Value, UInt8.lt_iff_toNat_lt, UInt8.reduceToNat]
  split_ifs <;> first | rfl | omega

variable {u v w x byte : Byte} {buffer rest : Text} {value : Nat}

/-- What the loop over the continuation bytes has to come to. -/
theorem utf8Codepoint_eq_some_iff {size : Nat} (hlow : 2 ≤ size) (hhigh : size ≤ 4) :
    utf8Codepoint (u :: buffer) size = some value ↔
      utf8Value (u.toNat % if size = 2 then 0x20 else if size = 3 then 0x10 else 0x8)
          (buffer.take (size - 1)) = some value
        ∧ value ≤ 0x10FFFF ∧ ¬ (0xD800 ≤ value ∧ value ≤ 0xDFFF)
        ∧ (if size = 2 then 0x80 else if size = 3 then 0x800 else 0x10000) ≤ value := by
  obtain ⟨size, rfl⟩ := Nat.exists_eq_add_of_le' hlow
  rw [utf8Codepoint, if_neg (by omega), List.headD_cons, List.take_succ_cons, List.tail_cons]
  simp only [Nat.add_succ_sub_one]
  cases utf8Value _ _ with
  | none => simp
  | some value' =>
      simp only [Option.some.injEq]
      split_ifs <;> simp only [Option.some.injEq, false_iff] <;> omega

theorem codepoint_two :
    utf8Codepoint (u :: v :: buffer) 2 = some value ↔
      (0x80 ≤ v.toNat ∧ v.toNat ≤ 0xBF) ∧ u.toNat % 32 * 64 + v.toNat % 64 = value
        ∧ 0x80 ≤ value := by
  rw [utf8Codepoint_eq_some_iff (by decide) (by decide)]
  simp only [utf8Value_cons, utf8Value_nil, List.take, Nat.add_one_sub_one, Nat.reduceEqDiff,
    reduceIte, Option.ite_none_right_eq_some, Option.some.injEq]
  omega

theorem codepoint_three :
    utf8Codepoint (u :: v :: w :: buffer) 3 = some value ↔
      (0x80 ≤ v.toNat ∧ v.toNat ≤ 0xBF) ∧ (0x80 ≤ w.toNat ∧ w.toNat ≤ 0xBF)
        ∧ (u.toNat % 16 * 64 + v.toNat % 64) * 64 + w.toNat % 64 = value
        ∧ ¬ (0xD800 ≤ value ∧ value ≤ 0xDFFF) ∧ 0x800 ≤ value := by
  rw [utf8Codepoint_eq_some_iff (by decide) (by decide)]
  simp only [utf8Value_cons, utf8Value_nil, List.take, Nat.add_one_sub_one, Nat.reduceEqDiff,
    reduceIte, Option.ite_none_right_eq_some, Option.some.injEq]
  omega

theorem codepoint_four :
    utf8Codepoint (u :: v :: w :: x :: buffer) 4 = some value ↔
      (0x80 ≤ v.toNat ∧ v.toNat ≤ 0xBF) ∧ (0x80 ≤ w.toNat ∧ w.toNat ≤ 0xBF)
        ∧ (0x80 ≤ x.toNat ∧ x.toNat ≤ 0xBF)
        ∧ ((u.toNat % 8 * 64 + v.toNat % 64) * 64 + w.toNat % 64) * 64 + x.toNat % 64 = value
        ∧ value ≤ 0x10FFFF ∧ 0x10000 ≤ value := by
  rw [utf8Codepoint_eq_some_iff (by decide) (by decide)]
  simp only [utf8Value_cons, utf8Value_nil, List.take, Nat.add_one_sub_one, Nat.reduceEqDiff,
    reduceIte, Option.ite_none_right_eq_some, Option.some.injEq]
  omega

theorem iterate_one (h : byte.toNat < 0x80) :
    utf8Iterate byte buffer = some (byte.toNat, buffer) := by
  rw [utf8Iterate, utf8CheckFirst_eq, if_pos h]
  rfl

theorem iterate_more {count : Nat} (hcount : utf8CheckFirst byte = count) (h : 2 ≤ count) :
    utf8Iterate byte buffer = some (value, rest) ↔
      count ≤ buffer.length + 1 ∧ utf8Codepoint (byte :: buffer) count = some value
        ∧ buffer.drop (count - 1) = rest := by
  rw [utf8Iterate, hcount, if_neg (by omega), if_neg (by omega), List.length_cons,
    Option.ite_none_left_eq_some, Option.map_eq_some_iff, Nat.not_lt]
  simp

theorem toUInt8_eq (byte : Byte) {n : Nat} (h : n = byte.toNat) : n.toUInt8 = byte := by
  simp [h]

theorem toNat_toUInt8 {n : Nat} (h : n < 256) : n.toUInt8.toNat = n := UInt8.toNat_ofNat_of_lt' h

/-- The code point of a sequence gives the sequence back. -/
theorem encode_of_iterate (h : utf8Iterate byte buffer = some (value, rest)) :
    (value ≤ 0x10FFFF ∧ ¬ (0xD800 ≤ value ∧ value ≤ 0xDFFF))
      ∧ ∃ bytes, utf8Encode value = some bytes ∧ byte :: buffer = bytes ++ rest := by
  have hfirst := utf8CheckFirst_eq byte
  split_ifs at hfirst
  · rw [iterate_one ‹_›] at h
    cases h
    exact ⟨by omega, [byte], by rw [utf8Encode, if_pos ‹_›]; simp, rfl⟩
  · rw [utf8Iterate, hfirst] at h
    cases h
  · rw [iterate_more hfirst (by decide)] at h
    obtain ⟨hlength, hvalue, rfl⟩ := h
    match buffer with
    | v :: buffer =>
        rw [codepoint_two] at hvalue
        refine ⟨by omega, [byte, v], ?_, rfl⟩
        rw [utf8Encode, if_neg (by omega), if_pos (by omega), toUInt8_eq byte (by omega),
          toUInt8_eq v (by omega)]
  · rw [iterate_more hfirst (by decide)] at h
    obtain ⟨hlength, hvalue, rfl⟩ := h
    match buffer with
    | v :: w :: buffer =>
        rw [codepoint_three] at hvalue
        refine ⟨by omega, [byte, v, w], ?_, rfl⟩
        rw [utf8Encode, if_neg (by omega), if_neg (by omega), if_pos (by omega),
          toUInt8_eq byte (by omega), toUInt8_eq v (by omega),
          toUInt8_eq w (by omega)]
  · rw [iterate_more hfirst (by decide)] at h
    obtain ⟨hlength, hvalue, rfl⟩ := h
    match buffer with
    | v :: w :: x :: buffer =>
        rw [codepoint_four] at hvalue
        refine ⟨by omega, [byte, v, w, x], ?_, rfl⟩
        rw [utf8Encode, if_neg (by omega), if_neg (by omega), if_neg (by omega), if_pos (by omega),
          toUInt8_eq byte (by omega), toUInt8_eq v (by omega),
          toUInt8_eq w (by omega), toUInt8_eq x (by omega)]
  · rw [utf8Iterate, hfirst] at h
    cases h

/-- The sequence of a code point is read as that code point. -/
theorem iterate_of_encode {c : Char} (h : byte :: buffer = String.utf8EncodeChar c ++ rest) :
    utf8Iterate byte buffer = some (c.toNat, rest) := by
  have hencode := utf8Encode_toNat c
  have hrange := toNat_le c
  have hsurrogate := not_surrogate c
  rw [utf8Encode] at hencode
  split_ifs at hencode with hone htwo hthree
  · rw [← Option.some.inj hencode, List.singleton_append, List.cons.injEq] at h
    obtain ⟨rfl, rfl⟩ := h
    rw [iterate_one (by rwa [toNat_toUInt8 (by omega)]), toNat_toUInt8 (by omega)]
  · rw [← Option.some.inj hencode] at h
    simp only [List.cons_append, List.nil_append, List.cons.injEq] at h
    obtain ⟨rfl, rfl⟩ := h
    have hu := toNat_toUInt8 (show 0xC0 + c.toNat / 64 % 32 < 256 by omega)
    have hv := toNat_toUInt8 (show 0x80 + c.toNat % 64 < 256 by omega)
    have hfirst := utf8CheckFirst_eq (0xC0 + c.toNat / 64 % 32).toUInt8
    rw [hu, if_neg (by omega), if_neg (by omega), if_pos (by omega)] at hfirst
    rw [iterate_more hfirst (by decide), codepoint_two]
    exact ⟨by simp, by omega, rfl⟩
  · rw [← Option.some.inj hencode] at h
    simp only [List.cons_append, List.nil_append, List.cons.injEq] at h
    obtain ⟨rfl, rfl⟩ := h
    have hu := toNat_toUInt8 (show 0xE0 + c.toNat / 4096 % 16 < 256 by omega)
    have hv := toNat_toUInt8 (show 0x80 + c.toNat / 64 % 64 < 256 by omega)
    have hw := toNat_toUInt8 (show 0x80 + c.toNat % 64 < 256 by omega)
    have hfirst := utf8CheckFirst_eq (0xE0 + c.toNat / 4096 % 16).toUInt8
    rw [hu, if_neg (by omega), if_neg (by omega), if_neg (by omega), if_pos (by omega)] at hfirst
    rw [iterate_more hfirst (by decide), codepoint_three]
    exact ⟨by simp, by omega, rfl⟩
  · rw [← Option.some.inj hencode] at h
    simp only [List.cons_append, List.nil_append, List.cons.injEq] at h
    obtain ⟨rfl, rfl⟩ := h
    have hu := toNat_toUInt8 (show 0xF0 + c.toNat / 262144 % 8 < 256 by omega)
    have hv := toNat_toUInt8 (show 0x80 + c.toNat / 4096 % 64 < 256 by omega)
    have hw := toNat_toUInt8 (show 0x80 + c.toNat / 64 % 64 < 256 by omega)
    have hx := toNat_toUInt8 (show 0x80 + c.toNat % 64 < 256 by omega)
    have hfirst := utf8CheckFirst_eq (0xF0 + c.toNat / 262144 % 8).toUInt8
    rw [hu, if_neg (by omega), if_neg (by omega), if_neg (by omega), if_neg (by omega),
      if_pos (by omega)] at hfirst
    rw [iterate_more hfirst (by decide), codepoint_four]
    exact ⟨by simp, by omega, rfl⟩

/-- Nothing but the UTF-8 of a character is decoded, and it is decoded to it. -/
theorem utf8Iterate_eq_some_iff :
    utf8Iterate byte buffer = some (value, rest) ↔
      ∃ c : Char, c.toNat = value ∧ byte :: buffer = String.utf8EncodeChar c ++ rest := by
  constructor
  · intro h
    obtain ⟨⟨hle, hsurrogate⟩, bytes, hencode, hbytes⟩ := encode_of_iterate h
    obtain ⟨c, rfl⟩ := exists_char hle hsurrogate
    rw [utf8Encode_toNat, Option.some.injEq] at hencode
    exact ⟨c, rfl, by rw [hbytes, hencode]⟩
  · intro h
    obtain ⟨c, rfl, hbytes⟩ := h
    exact iterate_of_encode hbytes

/-! ### `utf8_check_string` -/

theorem encodeChar_length_pos (c : Char) : 0 < (String.utf8EncodeChar c).length := by
  rw [String.length_utf8EncodeChar]
  exact c.utf8Size_pos

theorem utf8CheckFrom_eq_drop (skip : Nat) (string : Text) :
    utf8CheckFrom skip string = utf8CheckFrom 0 (string.drop skip) := by
  induction skip generalizing string with
  | zero => rfl
  | succ skip ih =>
      cases string with
      | nil => simp [utf8CheckFrom]
      | cons byte string => rw [utf8CheckFrom, ih, List.drop_succ_cons]

/-- The loop goes on behind the first character. -/
theorem utf8CheckString_cons :
    utf8CheckString (byte :: buffer) = true ↔
      ∃ value rest, utf8Iterate byte buffer = some (value, rest) ∧ utf8CheckString rest = true := by
  rw [utf8CheckString, utf8CheckFrom, utf8Iterate]
  simp only [utf8CheckFrom_eq_drop (utf8CheckFirst byte - 1), utf8CheckFull_eq]
  by_cases hzero : utf8CheckFirst byte = 0
  · simp [hzero]
  · by_cases hone : utf8CheckFirst byte = 1
    · simp [hone, utf8CheckString]
    · rw [if_neg hzero, if_pos (by omega), if_neg hzero, if_neg hone]
      split
      · simp
      · cases utf8Codepoint (byte :: buffer) (utf8CheckFirst byte) with
        | none => simp
        | some value => simp [utf8CheckString]

/-- Exactly the UTF-8 of characters passes the check. -/
theorem utf8CheckString_iff (string : Text) :
    utf8CheckString string = true ↔ ∃ chars, string = encode chars := by
  constructor
  · induction hlength : string.length using Nat.strong_induction_on generalizing string with
    | _ length ih =>
        intro h
        match string with
        | [] => exact ⟨[], rfl⟩
        | byte :: buffer =>
            obtain ⟨value, rest, hiterate, hrest⟩ := utf8CheckString_cons.mp h
            obtain ⟨c, -, hbytes⟩ := utf8Iterate_eq_some_iff.mp hiterate
            have hlt : rest.length < length := by
              rw [← hlength, hbytes, List.length_append]
              exact Nat.lt_add_of_pos_left (encodeChar_length_pos c)
            obtain ⟨chars, rfl⟩ := ih _ hlt rest rfl hrest
            exact ⟨c :: chars, hbytes⟩
  · intro h
    obtain ⟨chars, rfl⟩ := h
    induction chars with
    | nil => rfl
    | cons c chars ih =>
        obtain ⟨byte, buffer, hbytes⟩ := List.exists_cons_of_ne_nil
          (List.append_ne_nil_of_left_ne_nil
            (List.ne_nil_of_length_pos (encodeChar_length_pos c)) (encode chars))
        rw [encode_cons, hbytes, utf8CheckString_cons]
        exact ⟨c.toNat, encode chars, iterate_of_encode hbytes.symm, ih⟩

end LibJansson

end IoTRepublic
