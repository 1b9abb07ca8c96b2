import IoTRepublic.Cpp.Basic

/-!
# IoTRepublic.Cpp.Bits

Bit operations on `int`, and bytes read through pointers.

The operators `<<`, `>>`, `&` and `|` work on the promoted operands. An `int` is
32 bits here; `>>` of a negative one copies its sign, as on the compilers the
program is built with.

A pointer is the list of the bytes from where it points on, as far as the memory behind it
belongs to the object; reading past the end of that is undefined and a fault here.
-/

namespace Cpp

/-- A `char` promoted to `int`: the sign is copied into the upper bits. -/
def charBits (b : Byte) : BitVec 32 := b.toBitVec.signExtend 32

/-- An `unsigned char` promoted to `int`: the upper bits are zero. -/
def unsignedCharBits (b : Byte) : BitVec 32 := b.toBitVec.setWidth 32

/-- The conversion of an `int` to `unsigned char`: the lower eight bits. -/
def toUnsignedChar (x : BitVec 32) : Byte := .ofBitVec (x.setWidth 8)

/-- `p[i]`, for a pointer to the first of `memory`. Unlike `vector::at` it checks
nothing. -/
def deref (memory : List Byte) (i : Nat) : Except Fault Byte :=
  match memory[i]? with
  | some b => .ok b
  | none => .error .undefinedBehaviour

/-- The elements read by `for (int i = 0; i < n; i++) … p[start + i] …`. -/
def derefRange (memory : List Byte) (start n : Nat) : Except Fault (List Byte) :=
  (List.range n).mapM fun i => deref memory (start + i)

/-- A statement about bytes is one about the numbers below 256. -/
theorem forall_byte {p : Byte → Prop} (h : ∀ n < 256, p (.ofNat n)) (b : Byte) : p b := by
  have hb := h b.toNat b.toNat_lt
  rwa [UInt8.ofNat_toNat] at hb

theorem deref_ok_iff {memory : List Byte} {i : Nat} {b : Byte} :
    deref memory i = .ok b ↔ memory[i]? = some b := by
  unfold deref
  cases memory[i]? with
  | none => simp
  | some b' => simp

theorem deref_of_le {memory : List Byte} {i : Nat} (h : memory.length ≤ i) :
    deref memory i = .error .undefinedBehaviour := by
  rw [deref, List.getElem?_eq_none h]

/-- What a loop reads depends on the reads it makes. -/
theorem mapM_congr {α β : Type} {f g : α → Except Fault β} {as : List α}
    (h : ∀ a ∈ as, f a = g a) : as.mapM f = as.mapM g := by
  induction as with
  | nil => rfl
  | cons a as ih =>
      rw [List.mapM_cons, List.mapM_cons, h a List.mem_cons_self,
        ih fun b hb => h b (List.mem_cons_of_mem a hb)]

theorem derefRange_succ (memory : List Byte) (start n : Nat) :
    derefRange memory start (n + 1) = (do
      let front ← derefRange memory start n
      let last ← deref memory (start + n)
      return front ++ [last]) := by
  simp [derefRange, List.range_succ, List.mapM_append]

theorem derefRange_eq {memory : List Byte} {start n : Nat} (h : start + n ≤ memory.length) :
    derefRange memory start n = .ok ((memory.drop start).take n) := by
  induction n with
  | zero => simp [derefRange]
  | succ n ih =>
      have hget : memory[start + n]? = some memory[start + n] := List.getElem?_eq_getElem (by omega)
      rw [derefRange_succ, ih (by omega), ok_bind, deref_ok_iff.mpr hget, ok_bind,
        List.take_add_one, List.getElem?_drop, hget]
      rfl

/-- Reading past the end is undefined. -/
theorem derefRange_of_lt {memory : List Byte} {start n : Nat} (hstart : start ≤ memory.length)
    (h : memory.length < start + n) :
    derefRange memory start n = .error .undefinedBehaviour := by
  induction n with
  | zero => omega
  | succ n ih =>
      rw [derefRange_succ]
      by_cases hlast : start + n = memory.length
      · rw [derefRange_eq hlast.le, ok_bind, deref_of_le hlast.ge, error_bind]
      · rw [ih (by omega), error_bind]

end Cpp
