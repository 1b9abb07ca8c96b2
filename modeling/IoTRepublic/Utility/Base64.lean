import IoTRepublic.Cpp.Bits

/-!
# IoTRepublic.Utility.Base64

`Base64encode` and `Base64decode` of `Utility/SystemUtility.cpp`.

A pointer argument is the list of the bytes from where it points on. What a call
writes through its first argument is returned, next to its result.

The two functions are C, with the arithmetic of C: a `char` is promoted with its sign
before it is shifted, lengths are `int`s, and the decoder finds the end of its input by
the first byte that is no Base64, wherever that is. `Base64Sound` says when nothing of
this does any harm.
-/

namespace IoTRepublic

open Cpp

namespace Base64

/-- The alphabet, in the order of the six bits a character stands for. -/
def basis64 : Text := lit "ABCDEFGHIJKLMNOPQRSTUVWXYZabcdefghijklmnopqrstuvwxyz0123456789+/"

/-- `basis_64[k]`; every index is masked to six bits, so that none leaves the table. -/
def basis64At (k : BitVec 32) : Byte := basis64.getD k.toNat 0

/-- What a character stands for, and 64 for every one that is not in the alphabet. -/
def decodeTable : List Byte :=
  [64, 64, 64, 64, 64, 64, 64, 64, 64, 64, 64, 64, 64, 64, 64, 64,
   64, 64, 64, 64, 64, 64, 64, 64, 64, 64, 64, 64, 64, 64, 64, 64,
   64, 64, 64, 64, 64, 64, 64, 64, 64, 64, 64, 62, 64, 64, 64, 63,
   52, 53, 54, 55, 56, 57, 58, 59, 60, 61, 64, 64, 64, 64, 64, 64,
   64,  0,  1,  2,  3,  4,  5,  6,  7,  8,  9, 10, 11, 12, 13, 14,
   15, 16, 17, 18, 19, 20, 21, 22, 23, 24, 25, 64, 64, 64, 64, 64,
   64, 26, 27, 28, 29, 30, 31, 32, 33, 34, 35, 36, 37, 38, 39, 40,
   41, 42, 43, 44, 45, 46, 47, 48, 49, 50, 51, 64, 64, 64, 64, 64,
   64, 64, 64, 64, 64, 64, 64, 64, 64, 64, 64, 64, 64, 64, 64, 64,
   64, 64, 64, 64, 64, 64, 64, 64, 64, 64, 64, 64, 64, 64, 64, 64,
   64, 64, 64, 64, 64, 64, 64, 64, 64, 64, 64, 64, 64, 64, 64, 64,
   64, 64, 64, 64, 64, 64, 64, 64, 64, 64, 64, 64, 64, 64, 64, 64,
   64, 64, 64, 64, 64, 64, 64, 64, 64, 64, 64, 64, 64, 64, 64, 64,
   64, 64, 64, 64, 64, 64, 64, 64, 64, 64, 64, 64, 64, 64, 64, 64,
   64, 64, 64, 64, 64, 64, 64, 64, 64, 64, 64, 64, 64, 64, 64, 64,
   64, 64, 64, 64, 64, 64, 64, 64, 64, 64, 64, 64, 64, 64, 64, 64]

/-- `decodeTable[c]`; the table has an entry for every `unsigned char`. -/
def decodeTableAt (c : Byte) : Byte := decodeTable.getD c.toNat 64

/-! ### `Base64encode` -/

/-- `(source[i] >> 2) & 0x3F`. -/
def index₀ (a : Byte) : BitVec 32 := (charBits a).sshiftRight 2 &&& 0x3F

/-- `(source[i] & 0x3) << 4`. -/
def index₁High (a : Byte) : BitVec 32 := (charBits a &&& 0x3) <<< 4

/-- `(int)(source[i+1] & 0xF0) >> 4`. -/
def index₁Low (b : Byte) : BitVec 32 := (charBits b &&& 0xF0).sshiftRight 4

/-- `(source[i+1] & 0xF) << 2`. -/
def index₂High (b : Byte) : BitVec 32 := (charBits b &&& 0xF) <<< 2

/-- `(int)(source[i+2] & 0xC0) >> 6`. -/
def index₂Low (c : Byte) : BitVec 32 := (charBits c &&& 0xC0).sshiftRight 6

/-- `source[i+2] & 0x3F`. -/
def index₃ (c : Byte) : BitVec 32 := charBits c &&& 0x3F

/-- What follows the loop: one or two bytes that are left, with their padding. `remaining`
is `len - i`, `source` starts at `source[i]`. -/
def encodeTail (remaining : Int) (source : List Byte) : Except Fault Text := do
  if 0 < remaining then
    let a ← deref source 0
    if remaining = 1 then
      return [basis64At (index₀ a), basis64At (index₁High a), 0x3D, 0x3D, 0]
    else
      let b ← deref source 1
      return [basis64At (index₀ a), basis64At (index₁High a ||| index₁Low b),
        basis64At (index₂High b), 0x3D, 0]
  else
    return [0]

/-- The loop of `Base64encode`, in the terms of `encodeTail`: three bytes become four
characters as long as more than two are left. -/
def encodeLoop : Int → List Byte → Except Fault Text
  | remaining, a :: b :: c :: source =>
    if 2 < remaining then do
      let p ← encodeLoop (remaining - 3) source
      return basis64At (index₀ a) :: basis64At (index₁High a ||| index₁Low b)
        :: basis64At (index₂High b ||| index₂Low c) :: basis64At (index₃ c) :: p
    else
      encodeTail remaining (a :: b :: c :: source)
  | remaining, source =>
    if 2 < remaining then .error .undefinedBehaviour else encodeTail remaining source

end Base64

open Base64

/-- `Base64encode`: what is written to `encoded`, closed by a NUL, and what is returned,
which is its length without that NUL. -/
def base64encode (source : List Byte) (len : Int) : Except Fault (Text × Int) := do
  let _ ← addInt len (-2)
  let p ← encodeLoop len source
  return (p, wrapInt (p.length - 1))

/-! ### `Base64decode` -/

namespace Base64

/-- `(unsigned char)(decodeTable[c] << l | decodeTable[d] >> r)`: a byte of the plain text
out of two characters. -/
def plainByte (l r : Nat) (c d : Byte) : Byte :=
  toUnsignedChar (unsignedCharBits (decodeTableAt c) <<< l
    ||| (unsignedCharBits (decodeTableAt d)).sshiftRight r)

/-- What follows the loop, the closing NUL included: up to three more bytes of up to four
characters. -/
def decodeTail (nprbytes : Int) (bufin : List Byte) : Except Fault (List Byte) := do
  let first ← if 1 < nprbytes then
      pure [plainByte 2 4 (← deref bufin 0) (← deref bufin 1)]
    else pure []
  let second ← if 2 < nprbytes then
      pure [plainByte 4 2 (← deref bufin 1) (← deref bufin 2)]
    else pure []
  let third ← if 3 < nprbytes then
      pure [plainByte 6 0 (← deref bufin 2) (← deref bufin 3)]
    else pure []
  return first ++ second ++ third ++ [0]

/-- The loop of `Base64decode`: the bytes written, and what `nprbytes` is after it. Four
characters become three bytes as long as more than four are left. -/
def decodeLoop : Int → List Byte → Except Fault (List Byte × Int)
  | nprbytes, c₀ :: c₁ :: c₂ :: c₃ :: bufin =>
    if 4 < nprbytes then do
      let (bufout, left) ← decodeLoop (nprbytes - 4) bufin
      return (plainByte 2 4 c₀ c₁ :: plainByte 4 2 c₁ c₂ :: plainByte 6 0 c₂ c₃ :: bufout, left)
    else
      return (← decodeTail nprbytes (c₀ :: c₁ :: c₂ :: c₃ :: bufin), nprbytes)
  | nprbytes, bufin =>
    if 4 < nprbytes then .error .undefinedBehaviour
    else return (← decodeTail nprbytes bufin, nprbytes)

/-- The characters in front of the first that is not in the table, as the loop
`while (decodeTable[*(bufin++)] <= 63)` counts them. -/
def codedChars : List Byte → Except Fault Nat
  | [] => .error .undefinedBehaviour
  | c :: bufin => if decodeTableAt c ≤ 63 then (· + 1) <$> codedChars bufin else return 0

end Base64

/-- `Base64decode`: what is written to `bufplain`, and what is returned, which is the
number of bytes without the NUL. -/
def base64decode (bufcoded : List Byte) : Except Fault (List Byte × Int) := do
  let nprbytes := toInt (← codedChars bufcoded)
  let nbytesdecoded := (← addInt nprbytes 3).tdiv 4 * 3
  let (bufout, nprbytes) ← decodeLoop nprbytes bufcoded
  return (bufout, nbytesdecoded - (4 - nprbytes) % 4)

end IoTRepublic
