import IoTRepublic.Lib.Sextets
import IoTRepublic.Utility.Base64

/-!
# IoTRepublic.Utility.Base64Sound

`Base64decode` undoes `Base64encode`.

Both are shown to go through sextets: the encoder writes the character of each
sextet (`encodeLoop_eq`), the decoder puts together the sextets of the characters
it reads (`decodeLoop_eq`). The two tables are inverse to each other.

The decoder walks over its input twice: it counts the characters of the alphabet, and
decodes as many. Where the text ends is therefore told by the first character outside the
alphabet, which is what `hterminator` is about; padding is such a character too, so the
padded text of the encoder and a text without padding are decoded alike. The formula for
the length of the result is taken from the source as it stands, with the division of C,
and `decodedSize_eq` has what it comes to.

An `int` counts what is written: for 3 · 2 ^ 29 bytes there are 2 ^ 31 characters, and
what the encoder returns is not their number (`base64encode_long`).
-/

namespace IoTRepublic

open Cpp Sextets

namespace Base64

/-! ### The tables -/

/-- The character of a sextet, from the encoder's table. -/
def charOf (k : Nat) : Byte := basis64.getD k 0

/-- The sextet of a character. -/
def sextetOf (c : Byte) : Nat := (decodeTableAt c).toNat

/-- The alphabet, in numbers. -/
theorem basis64_eq : basis64 =
    (List.range' 65 26 ++ List.range' 97 26 ++ List.range' 48 10 ++ [43, 47]).map UInt8.ofNat := by
  decide

theorem charOf_mem {k : Nat} (h : k < 64) : charOf k ∈ basis64 := by
  have hlength : basis64.length = 64 := by
    rw [basis64_eq]
    rfl
  rw [charOf, List.getD_eq_getElem?_getD, List.getElem?_eq_getElem (hlength ▸ h)]
  exact List.getElem_mem _

theorem sextetOf_charOf : ∀ k < 64, sextetOf (charOf k) = k := by
  unfold charOf
  rw [basis64_eq]
  decide +kernel

theorem decodeTableAt_of_mem {c : Byte} (h : c ∈ basis64) : decodeTableAt c ≤ 63 := by
  have hall : basis64.all (decodeTableAt · ≤ 63) = true := by
    rw [basis64_eq]
    decide +kernel
  simpa using List.all_eq_true.mp hall c h

/-- An entry of the decoder's table that is a sextet stands at its character. -/
theorem charOf_entry : ∀ entry ∈ decodeTable.zipIdx, entry.1 ≤ 63 →
    charOf entry.1.toNat = .ofNat entry.2 := by
  unfold charOf
  rw [basis64_eq]
  decide +kernel

/-- What the decoder goes on reading: the characters of the alphabet. -/
theorem decodeTableAt_le_iff (c : Byte) : decodeTableAt c ≤ 63 ↔ c ∈ basis64 := by
  constructor
  · intro h
    have hlength : decodeTable.length = 256 := by decide +kernel
    have hlt : c.toNat < decodeTable.length := hlength ▸ c.toNat_lt
    have hentry : (decodeTableAt c, c.toNat) ∈ decodeTable.zipIdx := by
      rw [List.mk_mem_zipIdx_iff_getElem?, decodeTableAt, List.getD_eq_getElem?_getD,
        List.getElem?_eq_getElem hlt, Option.getD_some]
    have hchar := charOf_entry _ hentry h
    rw [UInt8.ofNat_toNat] at hchar
    rw [← hchar]
    exact charOf_mem (Nat.lt_succ_of_le (UInt8.le_iff_toNat_le.mp h))
  · exact decodeTableAt_of_mem

theorem sextetOf_lt {c : Byte} (h : c ∈ basis64) : sextetOf c < 64 := by
  have hc := UInt8.le_iff_toNat_le.mp ((decodeTableAt_le_iff c).mpr h)
  exact Nat.lt_succ_of_le hc

/-! ### The bit operations -/

/-- Or is a sum where the operands share no bits. -/
theorem toNat_or {w i l : Nat} {x y : BitVec w} (hx : x.toNat = l * 2 ^ i)
    (hy : y.toNat < 2 ^ i) : (x ||| y).toNat = l * 2 ^ i + y.toNat := by
  rw [BitVec.toNat_or, hx, Nat.mul_comm l, Nat.two_pow_add_eq_or_of_lt hy]

/-- What becomes of the bits of a byte. -/
theorem pieces (b : Byte) :
    (index₀ b).toNat = b.toNat / 4 ∧ (index₁High b).toNat = b.toNat % 4 * 16 ∧
      (index₁Low b).toNat = b.toNat / 16 ∧ (index₂High b).toNat = b.toNat % 16 * 4 ∧
      (index₂Low b).toNat = b.toNat / 64 ∧ (index₃ b).toNat = b.toNat % 64 := by
  revert b
  exact forall_byte (by decide +kernel)

theorem toNat_index₀ (a : Byte) : (index₀ a).toNat = a.toNat / 4 := (pieces a).1

theorem toNat_index₁High (a : Byte) : (index₁High a).toNat = a.toNat % 4 * 16 := (pieces a).2.1

theorem toNat_index₁Low (b : Byte) : (index₁Low b).toNat = b.toNat / 16 := (pieces b).2.2.1

theorem toNat_index₂High (b : Byte) : (index₂High b).toNat = b.toNat % 16 * 4 :=
  (pieces b).2.2.2.1

theorem toNat_index₂Low (c : Byte) : (index₂Low c).toNat = c.toNat / 64 :=
  (pieces c).2.2.2.2.1

theorem toNat_index₃ (c : Byte) : (index₃ c).toNat = c.toNat % 64 := (pieces c).2.2.2.2.2

theorem basis64At_index₀ (a : Byte) : basis64At (index₀ a) = charOf (a.toNat / 4) := by
  rw [basis64At, toNat_index₀, charOf]

theorem basis64At_index₁ (a b : Byte) :
    basis64At (index₁High a ||| index₁Low b) = charOf (a.toNat % 4 * 16 + b.toNat / 16) := by
  have hb := b.toNat_lt
  have hlow : (index₁Low b).toNat < 2 ^ 4 := by
    rw [toNat_index₁Low]
    omega
  rw [basis64At, toNat_or (toNat_index₁High a) hlow, toNat_index₁Low]
  rfl

theorem basis64At_index₁High (a : Byte) :
    basis64At (index₁High a) = charOf (a.toNat % 4 * 16) := by
  rw [basis64At, toNat_index₁High, charOf]

theorem basis64At_index₂ (b c : Byte) :
    basis64At (index₂High b ||| index₂Low c) = charOf (b.toNat % 16 * 4 + c.toNat / 64) := by
  have hc := c.toNat_lt
  have hlow : (index₂Low c).toNat < 2 ^ 2 := by
    rw [toNat_index₂Low]
    omega
  rw [basis64At, toNat_or (toNat_index₂High b) hlow, toNat_index₂Low]
  rfl

theorem basis64At_index₂High (b : Byte) :
    basis64At (index₂High b) = charOf (b.toNat % 16 * 4) := by
  rw [basis64At, toNat_index₂High, charOf]

theorem basis64At_index₃ (c : Byte) : basis64At (index₃ c) = charOf (c.toNat % 64) := by
  rw [basis64At, toNat_index₃, charOf]

/-- The bits that do not fit are cut off. -/
theorem plainByte_eq {l r : Nat} {c d : Byte} (hl : l ≤ 6) (hd : sextetOf d / 2 ^ r < 2 ^ l) :
    plainByte l r c d = .ofNat (sextetOf c * 2 ^ l + sextetOf d / 2 ^ r) := by
  have hc : sextetOf c < 2 ^ 8 := (decodeTableAt c).toNat_lt
  have hd8 : sextetOf d < 2 ^ 8 := (decodeTableAt d).toNat_lt
  have hbits (b : Byte) : (unsignedCharBits b).toNat = b.toNat := by
    rw [unsignedCharBits, BitVec.toNat_setWidth, UInt8.toNat_toBitVec]
    have hb := b.toNat_lt
    omega
  have hhigh : (unsignedCharBits (decodeTableAt c) <<< l).toNat = sextetOf c * 2 ^ l := by
    have hpow : 2 ^ l ≤ 2 ^ 6 := Nat.pow_le_pow_right (by norm_num) hl
    have hlt : sextetOf c * 2 ^ l < 2 ^ 32 :=
      lt_of_lt_of_le (Nat.mul_lt_mul_of_lt_of_le hc hpow (by norm_num)) (by norm_num)
    rw [BitVec.toNat_shiftLeft, hbits, Nat.shiftLeft_eq]
    exact Nat.mod_eq_of_lt hlt
  have hlow : ((unsignedCharBits (decodeTableAt d)).sshiftRight r).toNat = sextetOf d / 2 ^ r := by
    have hmsb : (unsignedCharBits (decodeTableAt d)).msb = false := by
      rw [BitVec.msb_eq_false_iff_two_mul_lt, hbits]
      change 2 * sextetOf d < _
      omega
    rw [BitVec.sshiftRight_eq_of_msb_false hmsb, BitVec.toNat_ushiftRight, hbits,
      Nat.shiftRight_eq_div_pow]
    rfl
  apply UInt8.toNat_inj.mp
  rw [plainByte, toUnsignedChar, UInt8.toNat_ofBitVec, BitVec.toNat_setWidth,
    toNat_or hhigh (hlow ▸ hd), hlow, UInt8.toNat_ofNat']

theorem plainByte_octet₀ {c d : Byte} (hd : d ∈ basis64) :
    plainByte 2 4 c d = octet₀ (sextetOf c) (sextetOf d) := by
  have hlt := sextetOf_lt hd
  exact plainByte_eq (by norm_num) (by omega)

theorem plainByte_octet₁ {c d : Byte} (hd : d ∈ basis64) :
    plainByte 4 2 c d = octet₁ (sextetOf c) (sextetOf d) := by
  have hlt := sextetOf_lt hd
  rw [plainByte_eq (by norm_num) (by omega), octet₁]
  apply UInt8.toNat_inj.mp
  rw [UInt8.toNat_ofNat', UInt8.toNat_ofNat']
  omega

theorem plainByte_octet₂ {c d : Byte} (hd : d ∈ basis64) :
    plainByte 6 0 c d = octet₂ (sextetOf c) (sextetOf d) := by
  have hlt := sextetOf_lt hd
  rw [plainByte_eq (by norm_num) (by omega), octet₂]
  apply UInt8.toNat_inj.mp
  rw [UInt8.toNat_ofNat', UInt8.toNat_ofNat']
  omega

/-! ### Encoding -/

/-- The characters for a byte string, in front of the padding. -/
def dataChars (source : List Byte) : Text := (sextets source).map charOf

/-- The padding. -/
def padding (source : List Byte) : Text := List.replicate (missing source.length) 0x3D

theorem encodeLoop_eq (source : List Byte) :
    encodeLoop source.length source = .ok (dataChars source ++ padding source ++ [0]) := by
  induction source using sextets.induct with
  | case1 => rfl
  | case2 a =>
      show Except.ok [_, _, _, _, _] = _
      rw [basis64At_index₀, basis64At_index₁High]
      rfl
  | case3 a b =>
      show Except.ok [_, _, _, _, _] = _
      rw [basis64At_index₀, basis64At_index₁, basis64At_index₂High]
      rfl
  | case4 a b c source ih =>
      have hlen : ((a :: b :: c :: source).length : Int) - 3 = source.length := by
        simp only [List.length_cons]
        omega
      have hmissing : missing (a :: b :: c :: source).length = missing source.length := by
        simp only [missing, List.length_cons]
        omega
      rw [encodeLoop, if_pos (by simp only [List.length_cons]; omega), hlen, ih, ok_bind,
        basis64At_index₀, basis64At_index₁, basis64At_index₂, basis64At_index₃, padding, padding,
        hmissing]
      rfl

/-- What `Base64encode` writes and returns, for every length an `int` can hold. -/
theorem base64encode_eq {source : List Byte} (h : source.length < 2 ^ 31) :
    base64encode source (toInt source.length)
      = .ok (dataChars source ++ padding source ++ [0],
          wrapInt (4 * ((source.length + 2) / 3 : Nat))) := by
  have hsize := length_sextets_add_missing source
  rw [base64encode, toInt_of_lt h,
    addInt_of_inInt (by simp only [InInt]; omega), ok_bind, encodeLoop_eq, ok_bind]
  have hchars : ((dataChars source ++ padding source ++ [0]).length : Int) - 1
      = 4 * ((source.length + 2) / 3 : Nat) := by
    simp only [dataChars, padding, List.length_append, List.length_map, List.length_replicate,
      List.length_singleton]
    omega
  rw [hchars]
  rfl

/-! ### Decoding -/

theorem codedChars_eq {cs : Text} (hcs : ∀ c ∈ cs, c ∈ basis64) {terminator : Byte}
    (hterminator : terminator ∉ basis64) (rest : List Byte) :
    codedChars (cs ++ terminator :: rest) = .ok cs.length := by
  induction cs with
  | nil =>
      rw [List.nil_append, codedChars,
        if_neg (fun h => hterminator ((decodeTableAt_le_iff terminator).mp h))]
      rfl
  | cons c cs ih =>
      rw [List.cons_append, codedChars,
        if_pos ((decodeTableAt_le_iff c).mpr (hcs c List.mem_cons_self)),
        ih (fun d hd => hcs d (List.mem_cons_of_mem c hd))]
      rfl

/-- Without a byte that is not in the alphabet the count does not come to an end. -/
theorem codedChars_of_forall {cs : Text} (hcs : ∀ c ∈ cs, c ∈ basis64) :
    codedChars cs = .error .undefinedBehaviour := by
  induction cs with
  | nil => rfl
  | cons c cs ih =>
      rw [codedChars, if_pos ((decodeTableAt_le_iff c).mpr (hcs c List.mem_cons_self)),
        ih (fun d hd => hcs d (List.mem_cons_of_mem c hd))]
      rfl

/-- The last quantum is left to what follows the loop. -/
theorem decodeLoop_of_le {nprbytes : Int} (h : nprbytes ≤ 4) (bufin : List Byte) :
    decodeLoop nprbytes bufin = (do return (← decodeTail nprbytes bufin, nprbytes)) := by
  unfold decodeLoop
  split
  · rw [if_neg (not_lt.mpr h)]
  · rw [if_neg (not_lt.mpr h)]

theorem decodeLoop_eq {cs : Text} (hcs : ∀ c ∈ cs, c ∈ basis64) (rest : List Byte) :
    ∃ left : Int, (4 - left) % 4 = (4 - cs.length) % 4 ∧
      decodeLoop cs.length (cs ++ rest) = .ok (octets (cs.map sextetOf) ++ [0], left) := by
  match cs with
  | [] => exact ⟨0, rfl, decodeLoop_of_le (by norm_num) rest⟩
  | [c] => exact ⟨1, rfl, decodeLoop_of_le (by norm_num) ([c] ++ rest)⟩
  | [c, d] =>
      have hd : d ∈ basis64 := hcs d (by simp)
      refine ⟨2, rfl, (decodeLoop_of_le (by norm_num) ([c, d] ++ rest)).trans ?_⟩
      show Except.ok ([plainByte 2 4 c d, 0], _) = _
      rw [plainByte_octet₀ hd]
      rfl
  | [c, d, e] =>
      have hd : d ∈ basis64 := hcs d (by simp)
      have he : e ∈ basis64 := hcs e (by simp)
      refine ⟨3, rfl, (decodeLoop_of_le (by norm_num) ([c, d, e] ++ rest)).trans ?_⟩
      show Except.ok ([plainByte 2 4 c d, plainByte 4 2 d e, 0], _) = _
      rw [plainByte_octet₀ hd, plainByte_octet₁ he]
      rfl
  | c :: d :: e :: f :: cs =>
      have hd : d ∈ basis64 := hcs d (by simp)
      have he : e ∈ basis64 := hcs e (by simp)
      have hf : f ∈ basis64 := hcs f (by simp)
      cases cs with
      | nil =>
          refine ⟨4, rfl, (decodeLoop_of_le (by norm_num) ([c, d, e, f] ++ rest)).trans ?_⟩
          show Except.ok ([plainByte 2 4 c d, plainByte 4 2 d e, plainByte 6 0 e f, 0], _) = _
          rw [plainByte_octet₀ hd, plainByte_octet₁ he, plainByte_octet₂ hf]
          rfl
      | cons g cs =>
          have hrest : ∀ x ∈ g :: cs, x ∈ basis64 :=
            fun x hx => hcs x (List.mem_append_right [c, d, e, f] hx)
          obtain ⟨left, hleft, hloop⟩ := decodeLoop_eq hrest rest
          have hlen : ((c :: d :: e :: f :: g :: cs).length : Int) - 4 = (g :: cs).length := by
            simp only [List.length_cons]
            omega
          refine ⟨left, ?_, ?_⟩
          · rw [hleft, ← hlen]
            omega
          · simp only [List.cons_append]
            rw [decodeLoop, if_pos (by simp only [List.length_cons]; omega), hlen,
              ← List.cons_append, hloop, ok_bind, plainByte_octet₀ hd, plainByte_octet₁ he,
              plainByte_octet₂ hf]
            rfl

/-- Characters of the alphabet, decoded, whatever closes them. -/
theorem base64decode_eq {cs : Text} (hcs : ∀ c ∈ cs, c ∈ basis64) (h : cs.length + 3 < 2 ^ 31)
    {terminator : Byte} (hterminator : terminator ∉ basis64) (rest : List Byte) :
    base64decode (cs ++ terminator :: rest) = .ok (octets (cs.map sextetOf) ++ [0],
      (cs.length + 3 : Int).tdiv 4 * 3 - (4 - cs.length) % 4) := by
  have hint : toInt cs.length = cs.length := toInt_of_lt (by omega)
  obtain ⟨left, hleft, hloop⟩ := decodeLoop_eq hcs (terminator :: rest)
  rw [base64decode, codedChars_eq hcs hterminator, ok_bind, hint]
  dsimp only
  rw [addInt_of_inInt (by simp only [InInt]; omega), ok_bind, hloop, ok_bind, pure_eq_ok]
  dsimp only
  rw [hleft]

theorem map_sextetOf_dataChars (source : List Byte) :
    (dataChars source).map sextetOf = sextets source := by
  rw [dataChars, List.map_map, List.map_congr_left (g := id), List.map_id]
  intro k hk
  exact sextetOf_charOf k (sextets_lt hk)

theorem mem_basis64_of_mem_dataChars {source : List Byte} {c : Byte} (h : c ∈ dataChars source) :
    c ∈ basis64 := by
  obtain ⟨k, hk, rfl⟩ := List.mem_map.mp h
  exact charOf_mem (sextets_lt hk)

/-- The formula for the decoded length, by what is left over of the last three bytes. -/
theorem decodedSize_eq (n : Nat) :
    (((4 * n + 2) / 3 : Nat) + 3 : Int).tdiv 4 * 3 - (4 - ((4 * n + 2) / 3 : Nat)) % 4 = n := by
  rw [Int.tdiv_eq_ediv_of_nonneg (by omega)]
  obtain hn | hn | hn : n % 3 = 0 ∨ n % 3 = 1 ∨ n % 3 = 2 := by omega
  · rw [show (4 * n + 2) / 3 = 4 * (n / 3) by omega]
    omega
  · rw [show (4 * n + 2) / 3 = 4 * (n / 3) + 2 by omega]
    omega
  · rw [show (4 * n + 2) / 3 = 4 * (n / 3) + 3 by omega]
    omega

/-- The characters for a byte string, decoded, whatever closes them. -/
theorem base64decode_dataChars {source : List Byte}
    (h : 4 * ((source.length + 2) / 3) < 2 ^ 31) {terminator : Byte}
    (hterminator : terminator ∉ basis64) (rest : List Byte) :
    base64decode (dataChars source ++ terminator :: rest)
      = .ok (source ++ [0], source.length) := by
  have hchars : ∀ c ∈ dataChars source, c ∈ basis64 := fun _ => mem_basis64_of_mem_dataChars
  have hlen : (dataChars source).length = (4 * source.length + 2) / 3 := by
    rw [dataChars, List.length_map, length_sextets]
  rw [base64decode_eq hchars (by omega) hterminator, map_sextetOf_dataChars, octets_sextets, hlen,
    decodedSize_eq]

/-- Padding stops the decoder where it would stop without. -/
theorem base64decode_padded {source : List Byte}
    (h : 4 * ((source.length + 2) / 3) < 2 ^ 31) {terminator : Byte}
    (hterminator : terminator ∉ basis64) (rest : List Byte) :
    base64decode (dataChars source ++ padding source ++ terminator :: rest)
      = .ok (source ++ [0], source.length) := by
  rw [List.append_assoc, padding]
  cases missing source.length with
  | zero => exact base64decode_dataChars h hterminator rest
  | succ n =>
      have hpad : (0x3D : Byte) ∉ basis64 := by decide
      exact base64decode_dataChars h hpad (List.replicate n 0x3D ++ terminator :: rest)

end Base64

open Base64

/-- Every byte string whose encoding an `int` can count comes back. -/
theorem base64_roundTrip (x : List Byte) (h : 4 * ((x.length + 2) / 3) < 2 ^ 31) :
    ∃ (chars : Text) (pad : Nat), (∀ c ∈ chars, c ∈ basis64) ∧ pad ≤ 2 ∧
      (chars ++ List.replicate pad 0x3D).length = 4 * ((x.length + 2) / 3) ∧
      base64encode x (toInt x.length)
        = .ok (chars ++ List.replicate pad 0x3D ++ [0], (4 * ((x.length + 2) / 3) : Nat)) ∧
      ∀ (terminator : Byte) (rest : List Byte), terminator ∉ basis64 →
        base64decode (chars ++ List.replicate pad 0x3D ++ terminator :: rest)
          = .ok (x ++ [0], x.length) := by
  have hsize := length_sextets_add_missing x
  refine ⟨dataChars x, missing x.length, fun c hc => mem_basis64_of_mem_dataChars hc, ?_, ?_, ?_,
    fun terminator rest hterminator => base64decode_padded h hterminator rest⟩
  · rw [missing]
    omega
  · rw [List.length_append, List.length_replicate, dataChars, List.length_map, hsize]
  · have hreturned := toInt_of_lt h
    rw [base64encode_eq (by omega), ← hreturned]
    rfl

theorem base64_roundTrip_stx : ∃ (chars : Text) (pad : Nat), (∀ c ∈ chars, c ∈ basis64) ∧ pad ≤ 2 ∧
    (chars ++ List.replicate pad 0x3D).length = 4 ∧
    base64encode [0x02, 0xFF] 2 = .ok (chars ++ List.replicate pad 0x3D ++ [0], 4) ∧
    ∀ (terminator : Byte) (rest : List Byte), terminator ∉ basis64 →
      base64decode (chars ++ List.replicate pad 0x3D ++ terminator :: rest)
        = .ok ([0x02, 0xFF] ++ [0], 2) :=
  base64_roundTrip [0x02, 0xFF] (by decide)

/-- The first length whose encoding is too long to be counted. -/
theorem base64encode_long : ¬ ∃ chars : Text,
    base64encode (List.replicate (3 * 2 ^ 29) 0) (toInt (3 * 2 ^ 29))
      = .ok (chars, 4 * ((3 * 2 ^ 29 + 2) / 3 : Nat)) := by
  intro h
  obtain ⟨chars, h⟩ := h
  have hlen : (List.replicate (3 * 2 ^ 29) (0 : Byte)).length = 3 * 2 ^ 29 :=
    List.length_replicate
  have hlt : (List.replicate (3 * 2 ^ 29) (0 : Byte)).length < 2 ^ 31 := by
    rw [hlen]
    norm_num
  have hencode := base64encode_eq hlt
  rw [hlen] at hencode
  have hreturned := (Prod.mk.inj (Except.ok.inj (hencode.symm.trans h))).2
  exact absurd hreturned (by decide)

example : base64encode (lit "any") 3 = .ok (lit "YW55" ++ [0], 4) := by decide
example : base64decode (lit "YW55IQ==") = .ok (lit "any!" ++ [0], 4) := by decide

end IoTRepublic
