import IoTRepublic.Cpp.Basic

/-!
# IoTRepublic.Utility.Utf8

`jansson2.7/utf.c`: the check a string passes before it becomes a JSON value.

The check is that of the standard: no overlong sequences, no surrogates, nothing above
0x10FFFF. It works byte by byte on a table of sequence lengths, and its outcome is all
that is modelled here; what the accepted texts are is proved in `Jansson/Utf`.
-/

namespace IoTRepublic

open Cpp

/-- `utf8_check_first`: how many bytes the sequence has that starts with the byte, and
zero if none does. -/
def utf8CheckFirst (byte : Byte) : Nat :=
  if byte < 0x80 then 1
  else if 0x80 ≤ byte ∧ byte ≤ 0xBF then 0
  else if byte = 0xC0 ∨ byte = 0xC1 then 0
  else if 0xC2 ≤ byte ∧ byte ≤ 0xDF then 2
  else if 0xE0 ≤ byte ∧ byte ≤ 0xEF then 3
  else if 0xF0 ≤ byte ∧ byte ≤ 0xF4 then 4
  else 0

/-- The loop of `utf8_check_full` over the continuation bytes, which puts the code point
together. -/
def utf8Value (value : Nat) : List Byte → Option Nat
  | [] => some value
  | u :: buffer =>
    if u < 0x80 ∨ 0xBF < u then none else utf8Value (value * 64 + u.toNat % 64) buffer

/-- `utf8_check_full`, for a buffer of `size` bytes at least: continuation bytes, and a
code point that needs so many of them. -/
def utf8CheckFull (buffer : List Byte) (size : Nat) : Bool :=
  let u := (buffer.headD 0).toNat
  let mask := if size = 2 then 0x20 else if size = 3 then 0x10 else 0x8
  if size < 2 ∨ 4 < size then false
  else
    match utf8Value (u % mask) (buffer.take size).tail with
    | none => false
    | some value =>
      if 0x10FFFF < value then false
      else if 0xD800 ≤ value ∧ value ≤ 0xDFFF then false
      else if size = 2 ∧ value < 0x80 ∨ size = 3 ∧ value < 0x800 ∨ size = 4 ∧ value < 0x10000 then
        false
      else true

/-- The loop of `utf8_check_string`. Bytes `i` is advanced over are to be skipped; they
have been looked at with the byte in front of them. -/
def utf8CheckFrom : Nat → Text → Bool
  | _, [] => true
  | skip + 1, _ :: string => utf8CheckFrom skip string
  | 0, byte :: string =>
    let count := utf8CheckFirst byte
    if count = 0 then false
    else if 1 < count then
      if (byte :: string).length < count then false
      else if utf8CheckFull (byte :: string) count then utf8CheckFrom (count - 1) string
      else false
    else utf8CheckFrom 0 string

/-- `utf8_check_string`. -/
def utf8CheckString (string : Text) : Bool := utf8CheckFrom 0 string

/-- ASCII is UTF-8. -/
theorem utf8CheckString_of_ascii {string : Text} (h : ∀ b ∈ string, b.toNat < 0x80) :
    utf8CheckString string = true := by
  induction string with
  | nil => rfl
  | cons byte string ih =>
      have hbyte : utf8CheckFirst byte = 1 :=
        if_pos (UInt8.lt_iff_toNat_lt.mpr (h byte List.mem_cons_self))
      rw [utf8CheckString, utf8CheckFrom, hbyte]
      exact ih (fun b hb => h b (List.mem_cons_of_mem byte hb))

example : utf8CheckString [0xE6, 0xBA, 0xAB] = true := by decide
example : utf8CheckString [0xED, 0xA0, 0x80] = false := by decide

end IoTRepublic
