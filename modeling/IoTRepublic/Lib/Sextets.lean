import Mathlib.Tactic

/-!
# IoTRepublic.Lib.Sextets

Bytes cut into groups of six bits, and put together again.

Three bytes are four sextets. One or two bytes left over are two or three
sextets, the last one filled up with zero bits. Nothing is lost (`octets_sextets`).
-/

namespace Sextets

/-- The sextets of a byte string. -/
def sextets : List UInt8 → List Nat
  | [] => []
  | [a] => [a.toNat / 4, a.toNat % 4 * 16]
  | [a, b] => [a.toNat / 4, a.toNat % 4 * 16 + b.toNat / 16, b.toNat % 16 * 4]
  | a :: b :: c :: bytes =>
      a.toNat / 4 :: (a.toNat % 4 * 16 + b.toNat / 16) :: (b.toNat % 16 * 4 + c.toNat / 64)
        :: c.toNat % 64 :: sextets bytes

/-- The byte made of one sextet and the first two bits of the next. -/
def octet₀ (x y : Nat) : UInt8 := .ofNat (x * 4 + y / 16)

/-- The byte made of four bits of one sextet and four of the next. -/
def octet₁ (y z : Nat) : UInt8 := .ofNat (y % 16 * 16 + z / 4)

/-- The byte made of the last two bits of one sextet and the next one. -/
def octet₂ (z w : Nat) : UInt8 := .ofNat (z % 4 * 64 + w)

/-- The bytes of a row of sextets; bits that make no byte are dropped. -/
def octets : List Nat → List UInt8
  | [] => []
  | [_] => []
  | [x, y] => [octet₀ x y]
  | [x, y, z] => [octet₀ x y, octet₁ y z]
  | x :: y :: z :: w :: rest => octet₀ x y :: octet₁ y z :: octet₂ z w :: octets rest

theorem octet₀_split (a : UInt8) {r : Nat} (h : r < 16) :
    octet₀ (a.toNat / 4) (a.toNat % 4 * 16 + r) = a := by
  rw [octet₀, show a.toNat / 4 * 4 + (a.toNat % 4 * 16 + r) / 16 = a.toNat by omega]
  exact UInt8.ofNat_toNat

theorem octet₁_split (b : UInt8) {l r : Nat} (h : r < 4) :
    octet₁ (l * 16 + b.toNat / 16) (b.toNat % 16 * 4 + r) = b := by
  have hb := b.toNat_lt
  rw [octet₁, show (l * 16 + b.toNat / 16) % 16 * 16 + (b.toNat % 16 * 4 + r) / 4 = b.toNat by
    omega]
  exact UInt8.ofNat_toNat

theorem octet₂_split (c : UInt8) (l : Nat) :
    octet₂ (l * 4 + c.toNat / 64) (c.toNat % 64) = c := by
  have hc := c.toNat_lt
  rw [octet₂, show (l * 4 + c.toNat / 64) % 4 * 64 + c.toNat % 64 = c.toNat by omega]
  exact UInt8.ofNat_toNat

/-- Cutting and putting together again. -/
theorem octets_sextets (bytes : List UInt8) : octets (sextets bytes) = bytes := by
  induction bytes using sextets.induct with
  | case1 => rfl
  | case2 a =>
      rw [sextets, octets, ← Nat.add_zero (a.toNat % 4 * 16), octet₀_split a (by omega)]
  | case3 a b =>
      have hb := b.toNat_lt
      rw [sextets, octets, octet₀_split a (by omega), ← Nat.add_zero (b.toNat % 16 * 4),
        octet₁_split b (by omega)]
  | case4 a b c bytes ih =>
      have hb := b.toNat_lt
      have hc := c.toNat_lt
      rw [sextets, octets, octet₀_split a (by omega), octet₁_split b (by omega), octet₂_split, ih]

theorem sextets_lt {bytes : List UInt8} {x : Nat} (h : x ∈ sextets bytes) : x < 64 := by
  induction bytes using sextets.induct with
  | case1 => cases h
  | case2 a =>
      have ha := a.toNat_lt
      simp only [sextets, List.mem_cons, List.not_mem_nil, or_false] at h
      omega
  | case3 a b =>
      have ha := a.toNat_lt
      have hb := b.toNat_lt
      simp only [sextets, List.mem_cons, List.not_mem_nil, or_false] at h
      omega
  | case4 a b c bytes ih =>
      have ha := a.toNat_lt
      have hb := b.toNat_lt
      have hc := c.toNat_lt
      simp only [sextets, List.mem_cons] at h
      rcases h with h | h | h | h | h
      · omega
      · omega
      · omega
      · omega
      · exact ih h

theorem length_sextets (bytes : List UInt8) :
    (sextets bytes).length = (4 * bytes.length + 2) / 3 := by
  induction bytes using sextets.induct with
  | case1 => rfl
  | case2 a => simp [sextets]
  | case3 a b => simp [sextets]
  | case4 a b c bytes ih =>
      simp only [sextets, List.length_cons, ih]
      omega

/-- Whole groups of three bytes keep their sextets to themselves. -/
theorem sextets_append {bytes : List UInt8} (h : bytes.length % 3 = 0) (rest : List UInt8) :
    sextets (bytes ++ rest) = sextets bytes ++ sextets rest := by
  induction bytes using sextets.induct with
  | case1 => rfl
  | case2 a => cases h
  | case3 a b => cases h
  | case4 a b c bytes ih =>
      have hbytes : bytes.length % 3 = 0 := by
        simp only [List.length_cons] at h
        omega
      simp only [List.cons_append, sextets, ih hbytes]

/-- How many sextets the last group is short of four. -/
def missing (n : Nat) : Nat := (3 - n % 3) % 3

theorem length_sextets_add_missing (bytes : List UInt8) :
    (sextets bytes).length + missing bytes.length = 4 * ((bytes.length + 2) / 3) := by
  rw [length_sextets, missing]
  omega

end Sextets
