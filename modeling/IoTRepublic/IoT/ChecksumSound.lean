import IoTRepublic.IoT.UtilitySpec

/-!
# IoTRepublic.IoT.ChecksumSound

The two checksum loops side by side.

The encoder adds every byte as an `unsigned char`, the decoder as a `char`, so a
byte from `0x80` on counts 256 less for the decoder. Both accumulate modulo
`2 ^ 32` and then fold; `ChecksumsAgree` is the exact condition under which they
end on the same number, and `checksumsAgree_of_ascii` its ordinary case.
-/

namespace IoTRepublic

open Cpp

namespace IoTUtility

/-! ### The accumulators in closed form -/

/-- The sum of the bytes, each read as 0 … 255. -/
def byteTotal (bytes : List Byte) : Nat := (bytes.map UInt8.toNat).sum

/-- The number of bytes that are negative as a `char`. -/
def highBytes (bytes : List Byte) : Nat := bytes.countP (fun b => 0x80 ≤ b.toNat)

theorem byteTotal_cons (b : Byte) (bytes : List Byte) :
    byteTotal (b :: bytes) = b.toNat + byteTotal bytes := by
  simp [byteTotal]

theorem highBytes_cons (b : Byte) (bytes : List Byte) :
    highBytes (b :: bytes) = highBytes bytes + if 0x80 ≤ b.toNat then 1 else 0 := by
  simp [highBytes, List.countP_cons]

theorem unsignedSum_eq (bytes : List Byte) :
    IoTPackage.unsignedSum bytes = byteTotal bytes % 2 ^ 32 := by
  have key : ∀ sum, bytes.foldl (fun sum b => (sum + b.toNat) % 2 ^ 32) (sum % 2 ^ 32)
      = (sum + byteTotal bytes) % 2 ^ 32 := by
    induction bytes with
    | nil => intro sum; simp [byteTotal]
    | cons b rest ih =>
        intro sum
        rw [List.foldl_cons, Nat.mod_add_mod, ih, byteTotal_cons, Nat.add_assoc]
  simpa [IoTPackage.unsignedSum] using key 0

theorem signedSum_eq (bytes : List Byte) :
    (signedSum bytes : Int) = ((byteTotal bytes : Int) - 256 * highBytes bytes) % 2 ^ 32 := by
  have key : ∀ sum : Int,
      ((bytes.foldl (fun sum b => (((sum : Int) + signedChar b) % 2 ^ 32).toNat)
          (sum % 2 ^ 32).toNat : Nat) : Int)
        = (sum + (byteTotal bytes - 256 * highBytes bytes)) % 2 ^ 32 := by
    induction bytes with
    | nil =>
        intro sum
        simp only [List.foldl_nil, byteTotal, highBytes, List.map_nil, List.sum_nil,
          List.countP_nil]
        omega
    | cons b rest ih =>
        intro sum
        have hstep : ((((sum % 2 ^ 32).toNat : Int) + signedChar b) % 2 ^ 32).toNat
            = ((sum + signedChar b) % 2 ^ 32).toNat := by omega
        rw [List.foldl_cons, hstep, ih, byteTotal_cons, highBytes_cons, signedChar_eq]
        congr 1
        split <;> split <;> omega
  simpa [signedSum] using key 0

/-! ### Agreement -/

/-- The two accumulators of the bytes fold to the same checksum: both are zero or
neither is, and they agree modulo `2 ^ 16 - 1`. -/
def ChecksumsAgree (bytes : List Byte) : Prop :=
  ((byteTotal bytes : Int) % 2 ^ 32 = 0 ↔
      ((byteTotal bytes : Int) - 256 * highBytes bytes) % 2 ^ 32 = 0) ∧
    (byteTotal bytes : Int) % 2 ^ 32 ≡
      ((byteTotal bytes : Int) - 256 * highBytes bytes) % 2 ^ 32 [ZMOD 65535]

instance (bytes : List Byte) : Decidable (ChecksumsAgree bytes) :=
  inferInstanceAs (Decidable (_ ∧ _))

theorem addCarries_eq_iff (bytes : List Byte) :
    IoTPackage.addCarries (IoTPackage.unsignedSum bytes) = IoTPackage.addCarries (signedSum bytes)
      ↔ ChecksumsAgree bytes := by
  have hu : (IoTPackage.unsignedSum bytes : Int) = (byteTotal bytes : Int) % 2 ^ 32 := by
    rw [unsignedSum_eq]
    omega
  rw [IoTPackage.addCarries, IoTPackage.addCarries, EndAroundCarry.foldCarry_eq_iff,
    ChecksumsAgree, ← hu, ← signedSum_eq, Int.natCast_eq_zero, Int.natCast_eq_zero,
    show (2 : Nat) ^ 16 - 1 = 65535 by norm_num]
  exact and_congr Iff.rfl (Int.natCast_modEq_iff (n := 65535)).symm

theorem highBytes_of_ascii {bytes : List Byte} (h : ∀ b ∈ bytes, b.toNat < 0x80) :
    highBytes bytes = 0 := by
  rw [highBytes, List.countP_eq_zero]
  intro b hb
  have := h b hb
  simp only [decide_eq_true_eq]
  omega

/-- Bytes below `0x80` have one value. -/
theorem checksumsAgree_of_ascii {bytes : List Byte} (h : ∀ b ∈ bytes, b.toNat < 0x80) :
    ChecksumsAgree bytes := by
  rw [ChecksumsAgree, highBytes_of_ascii h]
  simp

/-- As long as neither accumulator leaves `0 … 2 ^ 32 - 1`, the checksums agree
exactly when the number of high bytes is a multiple of 65535. -/
theorem checksumsAgree_iff_dvd {bytes : List Byte} (hlt : byteTotal bytes < 2 ^ 32)
    (hle : 256 * highBytes bytes < byteTotal bytes) :
    ChecksumsAgree bytes ↔ 65535 ∣ highBytes bytes := by
  rw [ChecksumsAgree, Int.emod_eq_of_lt (by omega) (by omega),
    Int.emod_eq_of_lt (by omega) (by omega), Int.modEq_iff_dvd]
  constructor
  · rintro ⟨-, h⟩
    have h256 : (65535 : Int) ∣ 256 * highBytes bytes := by omega
    have hco : IsCoprime (65535 : Int) 256 := by norm_num
    exact_mod_cast hco.dvd_of_dvd_mul_left h256
  · intro h
    refine ⟨by omega, ?_⟩
    omega

/-- The checksum bytes hold any folded sum. -/
theorem sendedSum_checksumBytes {sum : Nat} (h : sum < 2 ^ 16) :
    sendedSum (UInt8.ofNat (sum >>> 8)) (UInt8.ofNat sum) = sum := by
  have hlow : (sum >>> 8) <<< 8 ||| sum % 256 = (sum >>> 8) <<< 8 + sum % 256 :=
    (Nat.shiftLeft_add_eq_or_of_lt (by omega) _).symm
  rw [sendedSum, UInt8.toNat_ofNat', UInt8.toNat_ofNat', Nat.shiftRight_eq_div_pow] at *
  rw [Nat.mod_eq_of_lt (a := sum / 2 ^ 8) (by omega), hlow, Nat.shiftLeft_eq]
  omega

theorem checksumBytes_sendedSum (high low : Byte) :
    IoTPackage.checksumBytes (sendedSum high low) = [high, low] := by
  have h1 := high.toNat_lt
  have h2 := low.toNat_lt
  have hor : high.toNat <<< 8 ||| low.toNat = high.toNat <<< 8 + low.toNat :=
    (Nat.shiftLeft_add_eq_or_of_lt (by omega) _).symm
  rw [IoTPackage.checksumBytes, sendedSum, hor, Nat.shiftLeft_eq, Nat.shiftRight_eq_div_pow]
  congr 1
  · apply UInt8.toNat.inj
    rw [UInt8.toNat_ofNat']
    omega
  · congr 1
    apply UInt8.toNat.inj
    rw [UInt8.toNat_ofNat']
    omega

theorem addCarries_lt (sum : Nat) : IoTPackage.addCarries sum < 2 ^ 16 :=
  EndAroundCarry.foldCarry_lt 16 sum

end IoTUtility

end IoTRepublic
