import IoTRepublic.Cpp.Decimal
import IoTRepublic.Lib.EndAroundCarry

/-!
# IoTRepublic.IoT.Package

`IoT/IoTPackage.h`: the package and its encoder.

On the wire a package is five NUL-terminated columns (protocol version, header
length, data length, source and destination address), the payload, and two
checksum bytes. The header length counts the five columns with their
terminators, its own decimal digits included; the constructors solve that
circular equation with fixed thresholds (`computeHeaderLength`).

Everything here may fail the way the source does: lengths are `int`s whose overflow is
undefined (`addInt`), `reserve` throws on a negative size, and the columns are written by
loops over `int` indices, which see the `visible` part of a string only. That a package of
reasonable size meets none of this is proved in `PackageSound`.
-/

namespace IoTRepublic

open Cpp

/-- `IoTPackage`. The default values are those of the empty constructor. `dataVector` is
the payload alone, `dataVectorForSending` the bytes of the whole package, which only the
constructors with a payload and `getCompletedPackage` fill in. -/
structure IoTPackage where
  isCompletedPackage : Bool := false
  ver : Text := []
  headerLength : Int := 0
  dataLength : Int := 0
  sorIp : Text := []
  desIp : Text := []
  checksum : Nat := 0
  dataVector : List Byte := []
  dataVectorForSending : List Byte := []
  deriving DecidableEq, Repr

namespace IoTPackage

/-- What ends each of the five header columns on the wire. An address with this byte
inside cannot be told from two columns. -/
def segmentSymbol : Byte := 0

/-- The first column of every package, and what the receiving side looks for at the start
of its buffer. -/
def protocolVersion : Text := lit "IUDP1.0"

/-! ### The checksum -/

/-- `while ((sum >> 16) > 0) sum = (sum & 0xFFFF) + (sum >> 16)`: the end-around carry of
the Internet checksum, repeated until sixteen bits are left. -/
def addCarries (sum : Nat) : Nat := EndAroundCarry.foldCarry 16 sum

/-- The accumulator of the encoder: every `char` is cast to `unsigned char`, and the
`unsigned int` wraps around. The decoder adds without the cast (`IoTUtility.signedSum`),
so the two sides agree on bytes below 0x80 only. -/
def unsignedSum (bytes : List Byte) : Nat :=
  bytes.foldl (fun sum b => (sum + b.toNat) % 2 ^ 32) 0

/-- The two bytes that carry a checksum, the high one first. A sum of more than sixteen
bits would lose its upper part here; `addCarries` leaves none. -/
def checksumBytes (sum : Nat) : List Byte := [UInt8.ofNat (sum >>> 8), UInt8.ofNat sum]

/-! ### The encoder -/

/-- `PacketToSendingVector`: writes the five columns, the payload and the checksum behind
what `dataVectorForSending` holds. The payload is read by index up to `dataLength`, so a
length that is not that of the vector makes `at` throw. -/
def packetToSendingVector (package : IoTPackage) : Except Fault IoTPackage := do
  reserve (← addInt (← addInt package.headerLength package.dataLength) 2)
  let header := package.dataVectorForSending
    ++ visible package.ver ++ [segmentSymbol]
    ++ showInt package.headerLength ++ [segmentSymbol]
    ++ showInt package.dataLength ++ [segmentSymbol]
    ++ visible package.sorIp ++ [segmentSymbol]
    ++ visible package.desIp ++ [segmentSymbol]
  let data ← atRange package.dataVector 0 package.dataLength
  let sending := header ++ data
  let sum := addCarries (unsignedSum (visible sending))
  return { package with
    dataVectorForSending := sending ++ checksumBytes sum
    checksum := sum }

/-- The header length the constructors store: the four other columns with their
terminators, a guess at the number of digits of the result, and the terminator
of the length column itself. -/
def computeHeaderLength (ver soIp desIp : Text) (dataLength : Int) : Except Fault Int := do
  let headerLength := addSize 0 (ver.length + 1)
  let headerLength := addSize headerLength (soIp.length + 1)
  let headerLength := addSize headerLength (desIp.length + 1)
  let headerLength := addSize headerLength ((showInt dataLength).length + 1)
  let headerLength ←
    if headerLength ≤ 8 then addInt headerLength 1
    else if headerLength ≤ 97 then addInt headerLength 2
    else addInt headerLength 3
  addInt headerLength 1

/-- `IoTPackage(string ver, string soIp, string desIp, vector<char> *data)`; `none` is the
null pointer, which gives a package without payload. -/
def ofVector (ver soIp desIp : Text) (data : Option (List Byte)) : Except Fault IoTPackage := do
  let dataLength := match data with
    | none => 0
    | some d => toInt d.length
  let headerLength ← computeHeaderLength ver soIp desIp dataLength
  packetToSendingVector
    { isCompletedPackage := true, ver := ver, sorIp := soIp, desIp := desIp,
      dataLength := dataLength, headerLength := headerLength, dataVector := data.getD [] }

/-- `IoTPackage(string soIp, string desIp, vector<char> *data)`, with the version word
every part of the system uses. -/
def ofVectorDefault (soIp desIp : Text) (data : Option (List Byte)) : Except Fault IoTPackage :=
  ofVector protocolVersion soIp desIp data

/-- `IoTPackage(string ver, string soIp, string desIp, string data)`. Other than the
constructor on vectors it reserves the payload's length before it copies. -/
def ofString (ver soIp desIp data : Text) : Except Fault IoTPackage := do
  let dataLength := toInt data.length
  let headerLength ← computeHeaderLength ver soIp desIp dataLength
  reserve dataLength
  packetToSendingVector
    { isCompletedPackage := true, ver := ver, sorIp := soIp, desIp := desIp,
      dataLength := dataLength, headerLength := headerLength, dataVector := data }

/-- `IoTPackage(string soIp, string desIp, string data)`, with the version word every part
of the system uses. -/
def ofStringDefault (soIp desIp data : Text) : Except Fault IoTPackage :=
  ofString protocolVersion soIp desIp data

end IoTPackage

end IoTRepublic
