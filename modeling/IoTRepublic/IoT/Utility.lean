import IoTRepublic.IoT.Package

/-!
# IoTRepublic.IoT.Utility

`IoT/IoTUtility.cpp`: extracting packages from a receive buffer.

`getCompletedPackage` is called again and again on a growing buffer. It answers
with the first package of the buffer, or with the reason there is none yet; only
a bad start word changes a buffer it rejects. Every loop of the source indexes
with an `int` and stops at `(int)buffer->size()`, so it sees the `visible` part
of the buffer.

The verdict and the extraction are two passes over the same bytes: `isValidPackage` reads
the header to decide whether a whole package is there and its checksum right, then
`decodePackage` reads it again to build the package. The numbers in the header are
whatever the sender wrote; a column that is no numeral makes `std::stoi` throw, and one
that is negative makes later reads leave the buffer, so both functions may fail on bytes
from outside.
-/

namespace IoTRepublic

open Cpp

/-- `IoTUtility::GetPackageError`. Three of the codes say that more bytes are needed, two
that none will help; the receive loops tell them apart in different ways. -/
inductive GetPackageError
  | noError
  | unknownError
  | lengthIsNotLongEnough
  | startWordError
  | headerNotCompleted
  | packageNotCompleted
  | checksumError
  deriving DecidableEq, Repr

namespace IoTUtility

/-- Every `IoTUtility` is constructed with `IoTPackage::ProtocolVersion`, or with
the equal `IBroker::protocolVersion`. -/
def currentVersion : Text := IoTPackage.protocolVersion

/-- How many terminated columns a header has: version, header length, data length, source
and destination. -/
def headerColumns : Nat := 5

/-- The header column that starts at `startIndex`: up to a NUL or the end of the buffer,
whichever comes first. The caller skips the terminator. -/
def popHeader (buffer : List Byte) (startIndex : Nat) : Text :=
  ((visible buffer).drop startIndex).takeWhile (· ≠ 0)

/-- `decodeOnlyHeader`. It is called on buffers with five terminated columns, so
`startIndex` never leaves the buffer. -/
def decodeOnlyHeader (buffer : List Byte) : Except Fault IoTPackage := do
  let startIndex := 0
  let ver := popHeader buffer startIndex
  let startIndex := startIndex + (ver.length + 1)
  let tempStr := popHeader buffer startIndex
  let headerLength ← stoi tempStr
  let startIndex := startIndex + (tempStr.length + 1)
  let tempStr := popHeader buffer startIndex
  let dataLength ← stoi tempStr
  let startIndex := startIndex + (tempStr.length + 1)
  let sorIp := popHeader buffer startIndex
  let startIndex := startIndex + (sorIp.length + 1)
  let desIp := popHeader buffer startIndex
  return { ver := ver, headerLength := headerLength, dataLength := dataLength,
           sorIp := sorIp, desIp := desIp }

/-- The NUL count of `isValidPackage`, which stops at `headerColumns`. The payload may
hold further NULs, which are nobody's columns. -/
def totalClumnCount : List Byte → Nat → Nat
  | [], count => count
  | b :: rest, count =>
    let count := if b = 0 then count + 1 else count
    if headerColumns ≤ count then count else totalClumnCount rest count

/-- The accumulator of the decoder: a `char` is added as it is, sign included, to an
`unsigned int`. A byte from 0x80 on therefore counts 256 less than in the encoder's
`unsignedSum`. -/
def signedSum (bytes : List Byte) : Nat :=
  bytes.foldl (fun sum b => (((sum : Int) + signedChar b) % 2 ^ 32).toNat) 0

/-- The checksum two bytes of the buffer carry, the high one first, each cast to
`unsigned char` before it is shifted. -/
def sendedSum (high low : Byte) : Nat := (high.toNat <<< 8) ||| low.toNat

/-- `isValidPackage`: the verdict, the error code and the buffer it leaves. The checks
come in the order of the codes: long enough for a start word, the start word, five
columns, as many bytes as the header announces, and the checksum over all of them but the
last two. -/
def isValidPackage (buffer : List Byte) :
    Except Fault (Bool × GetPackageError × List Byte) := do
  if buffer.length < currentVersion.length then
    return (false, .lengthIsNotLongEnough, buffer)
  if buffer.take currentVersion.length ≠ currentVersion then
    -- The buffer is printed as a C string, for which it is terminated in place.
    return (false, .startWordError, buffer ++ [0])
  if totalClumnCount (visible buffer) 0 < headerColumns then
    return (false, .headerNotCompleted, buffer)
  let package ← decodeOnlyHeader buffer
  let needed ← addInt (← addInt package.headerLength package.dataLength) 2
  if toInt buffer.length < needed then
    return (false, .packageNotCompleted, buffer)
  let totalLength ← addInt package.headerLength package.dataLength
  let sum := IoTPackage.addCarries (signedSum (← atRange buffer 0 totalLength))
  let high ← vectorAt buffer totalLength
  let low ← vectorAt buffer (← addInt totalLength 1)
  if sum = sendedSum high low then
    return (true, .noError, buffer)
  else
    return (false, .checksumError, buffer)

/-- `decodePackage`, on a buffer that has passed `isValidPackage`: the header columns, the
payload between the announced lengths, and the checksum behind it. -/
def decodePackage (buffer : List Byte) : Except Fault IoTPackage := do
  let package ← decodeOnlyHeader buffer
  let totalLength ← addInt package.headerLength package.dataLength
  reserve package.dataLength
  let dataVector ← atRange buffer package.headerLength totalLength
  let high ← vectorAt buffer totalLength
  let low ← vectorAt buffer (← addInt totalLength 1)
  return { package with dataVector := dataVector, checksum := sendedSum high low }

/-- What `GetCompletedPackage` returns: the package or NULL, the error code, and
the buffer it leaves behind. -/
structure Extraction where
  package : Option IoTPackage
  error : GetPackageError
  buffer : List Byte
  deriving DecidableEq, Repr

/-- `GetCompletedPackage`: the first package of the buffer, which is erased from its
front, or NULL. On success the bytes that were erased are kept in `dataVectorForSending`,
so that a package can be passed on as it came. -/
def getCompletedPackage (buffer : List Byte) : Except Fault Extraction := do
  let (isValid, error, buffer) ← isValidPackage buffer
  if isValid then
    let package ← decodePackage buffer
    let totalLength ← addInt (← addInt package.headerLength package.dataLength) 2
    let (consumed, rest) ← splitAtIter buffer totalLength
    return ⟨some { package with isCompletedPackage := true, dataVectorForSending := consumed },
      .noError, rest⟩
  else
    return ⟨none, error, buffer⟩

end IoTUtility

end IoTRepublic
