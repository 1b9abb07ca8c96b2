import Mathlib.Tactic

/-!
# IoTRepublic.Lib.BigEndian

Bytes as a number, the highest first, and a word into which they are shifted one
after another. While they fit the word, it is the number (`toNat_pushBytes`).
-/

namespace BigEndian

/-- The number the bytes are, the first one highest. -/
def value (bytes : List UInt8) : Nat := bytes.foldl (fun n b => n * 256 + b.toNat) 0

/-- Makes room for a byte, and takes it in. -/
def pushByte {w : Nat} (word : BitVec w) (b : UInt8) : BitVec w :=
  word <<< 8 ||| b.toBitVec.setWidth w

/-- Takes in a row of bytes. -/
def pushBytes {w : Nat} (word : BitVec w) (bytes : List UInt8) : BitVec w :=
  bytes.foldl pushByte word

@[simp] theorem value_nil : value [] = 0 := rfl

theorem value_concat (bytes : List UInt8) (b : UInt8) :
    value (bytes ++ [b]) = value bytes * 256 + b.toNat := by
  rw [value, List.foldl_append]
  rfl

theorem value_lt (bytes : List UInt8) : value bytes < 256 ^ bytes.length := by
  induction bytes using List.reverseRecOn with
  | nil => exact Nat.one_pos
  | append_singleton bytes b ih =>
      have hb := b.toNat_lt
      rw [value_concat, List.length_append, List.length_singleton, pow_succ]
      omega

/-- Two numbers side by side. -/
theorem value_append (bytes bytes' : List UInt8) :
    value (bytes ++ bytes') = value bytes * 256 ^ bytes'.length + value bytes' := by
  induction bytes' using List.reverseRecOn with
  | nil => simp
  | append_singleton bytes' b ih =>
      rw [← List.append_assoc, value_concat, ih, value_concat, List.length_append,
        List.length_singleton, pow_succ]
      ring

theorem pushBytes_concat {w : Nat} (word : BitVec w) (bytes : List UInt8) (b : UInt8) :
    pushBytes word (bytes ++ [b]) = pushByte (pushBytes word bytes) b := by
  rw [pushBytes, List.foldl_append]
  rfl

/-- A byte taken in by a word that has room for it. -/
theorem toNat_pushByte {w : Nat} {word : BitVec w} {b : UInt8}
    (h : word.toNat * 256 + 256 ≤ 2 ^ w) :
    (pushByte word b).toNat = word.toNat * 256 + b.toNat := by
  have hb : b.toNat < 2 ^ 8 := b.toNat_lt
  have hlow : (b.toBitVec.setWidth w).toNat = b.toNat := by
    rw [BitVec.toNat_setWidth, UInt8.toNat_toBitVec]
    exact Nat.mod_eq_of_lt (by omega)
  have hhigh : (word <<< 8).toNat = 2 ^ 8 * word.toNat := by
    rw [BitVec.toNat_shiftLeft, Nat.shiftLeft_eq, Nat.mul_comm]
    exact Nat.mod_eq_of_lt (by omega)
  rw [pushByte, BitVec.toNat_or, hhigh, hlow, ← Nat.two_pow_add_eq_or_of_lt hb]
  omega

/-- Bytes that fit a word are the number it holds. -/
theorem toNat_pushBytes {w : Nat} {bytes : List UInt8} (h : 8 * bytes.length ≤ w) :
    (pushBytes (0 : BitVec w) bytes).toNat = value bytes := by
  induction bytes using List.reverseRecOn with
  | nil => simp [pushBytes]
  | append_singleton bytes b ih =>
      rw [List.length_append, List.length_singleton] at h
      have hword := ih (by omega)
      -- There are eight bits left for the last byte.
      have hroom : value bytes * 256 + 256 ≤ 2 ^ w := by
        have hlt := value_lt bytes
        calc value bytes * 256 + 256 = (value bytes + 1) * 256 := by ring
          _ ≤ 256 ^ bytes.length * 256 := Nat.mul_le_mul_right _ hlt
          _ = 2 ^ (8 * (bytes.length + 1)) := by rw [← pow_succ, pow_mul]; norm_num
          _ ≤ 2 ^ w := Nat.pow_le_pow_right (by norm_num) h
      rw [pushBytes_concat, toNat_pushByte (by rw [hword]; exact hroom), hword, value_concat]

end BigEndian
