import IoTRepublic.Broker.XBeeApi

/-!
# IoTRepublic.Broker.XBeeReader

`XBee::readPacket` of `Broker/XBee/XBeeApiLibrary.cpp`, which puts a frame together from
the bytes of the serial port.

The port is polled for one byte at a time. What a poll returns is an input, and polls
that have run out are those of a port that stays silent. Every `available` that finds
a byte is followed by `read`, so the byte that `available` puts aside is the one the
poll returned.
-/

namespace IoTRepublic

open Cpp

/-- What the polls of the port return: a byte, or nothing. A read that comes early and one
that comes late see the same bytes with the nothings in other places. -/
abbrev Polls := List (Option Byte)

namespace XBee

/-- The bytes among them. -/
def bytes (polls : Polls) : List Byte := polls.filterMap id

@[simp] theorem bytes_nil : bytes [] = [] := rfl

@[simp] theorem bytes_none (polls : Polls) : bytes (none :: polls) = bytes polls := rfl

@[simp] theorem bytes_some (b : Byte) (polls : Polls) :
    bytes (some b :: polls) = b :: bytes polls := rfl

def apiIdIndex : Nat := 3
def xbeeNoError : Byte := 0
def checksumFailure : Byte := 1
def packetExceedsByteArrayLength : Byte := 2
def unexpectedStartByte : Byte := 3

/-- The fields of `XBee`, of its `_response` and of `_responseFrameData` that
`readPacket` works on. -/
structure Reader where
  pos : Byte
  escape : Bool
  checksumTotal : Byte
  complete : Bool
  errorCode : Byte
  apiId : Byte
  msbLength : Byte
  lsbLength : Byte
  checksum : Byte
  frameLength : Byte
  frameData : Vector Byte maxFrameDataSize
  deriving DecidableEq

/-- Whether a turn of the loop of `readPacket` returns, with the fields as it leaves them
in either case. -/
inductive Turn
  | goOn (reader : Reader)
  | ret (reader : Reader)
  deriving DecidableEq

namespace Reader

/-- The constructor of `XBee`, which leaves the other fields as it finds them. -/
def construct (memory : Reader) : Reader :=
  { memory with
    pos := 0, escape := false, checksumTotal := 0
    complete := false, errorCode := xbeeNoError, checksum := 0 }

/-- `XBeeResponse::isAvailable`: a frame is complete and its checksum right. -/
def isAvailable (r : Reader) : Bool := r.complete

/-- `XBeeResponse::isError`: the last byte taken could not be part of a frame. -/
def isError (r : Reader) : Bool := 0 < r.errorCode

/-- `XBeeResponse::getPacketLength`. The shift leaves nothing of the high byte. -/
def getPacketLength (r : Reader) : Nat :=
  (r.msbLength.toNat <<< 8 &&& 0xFF) + (r.lsbLength.toNat &&& 0xFF)

/-- `resetResponse`: back to the beginning of a frame. The bytes of the last one stay in
`frameData`. -/
def resetResponse (r : Reader) : Reader :=
  { r with
    pos := 0, escape := false, checksumTotal := 0
    complete := false, errorCode := xbeeNoError, checksum := 0
    apiId := 0, msbLength := 0, lsbLength := 0, frameLength := 0 }

/-- The `default` case of the `switch` of `readPacket`. The array is written below its
end. -/
def storeData (r : Reader) (b : Byte) : Turn :=
  if h : maxFrameDataSize < r.pos.toNat then
    .ret { r with errorCode := packetExceedsByteArrayLength }
  else if r.pos.toNat = r.getPacketLength + 3 then
    let r :=
      if r.checksumTotal &&& 0xFF = 0xFF then
        { r with checksum := b, complete := true, errorCode := xbeeNoError }
      else { r with errorCode := checksumFailure }
    .ret { r with frameLength := r.pos - 4, pos := 0 }
  else
    .goOn { r with
      frameData := r.frameData.set (r.pos.toNat - 4) b
        (Nat.lt_of_le_of_lt (Nat.sub_le_sub_right (Nat.le_of_not_lt h) 4) (by decide))
      pos := r.pos + 1 }

/-- The `switch` of `readPacket`: what a byte means is told by its position alone. -/
def store (r : Reader) (b : Byte) : Turn :=
  match r.pos.toNat with
  | 0 => .goOn (if b = startByte then { r with pos := r.pos + 1 } else r)
  | 1 => .goOn { r with msbLength := b, pos := r.pos + 1 }
  | 2 => .goOn { r with lsbLength := b, pos := r.pos + 1 }
  | 3 => .goOn { r with apiId := b, pos := r.pos + 1 }
  | _ => r.storeData b

/-- The body of the loop of `readPacket` from the test of `_escape` on: the byte is
unescaped if the one before it was the escape byte, counted into the checksum, and
stored. -/
def handleByte (r : Reader) (b : Byte) : Turn :=
  let b := if r.escape then 0x20 ^^^ b else b
  let r := { r with escape := false }
  let r := if apiIdIndex ≤ r.pos.toNat then { r with checksumTotal := r.checksumTotal + b } else r
  r.store b

/-- The loop of `readPacket`, and the polls it leaves. It ends on a port without a byte,
on a start byte inside of a frame, and where storing a byte returns. An escape byte takes
the next byte with it, if that is there already. -/
def readLoop : Reader → Polls → Reader × Polls
  | r, [] => (r, [])
  | r, none :: polls => (r, polls)
  | r, some b :: polls =>
    if 0 < r.pos ∧ b = startByte then
      ({ r with errorCode := unexpectedStartByte }, polls)
    else if 0 < r.pos ∧ b = escapeByte then
      match polls with
      | some b :: polls =>
        match r.handleByte (0x20 ^^^ b) with
        | .goOn r => readLoop r polls
        | .ret r => (r, polls)
      | none :: polls => readLoop { r with escape := true } polls
      | [] => ({ r with escape := true }, [])
    else
      match r.handleByte b with
      | .goOn r => readLoop r polls
      | .ret r => (r, polls)

/-- `readPacket()`: it begins a new frame if the last call has finished one or failed, and
else goes on where that has stopped. -/
def readPacket (r : Reader) (polls : Polls) : Reader × Polls :=
  (if r.isAvailable || r.isError then r.resetResponse else r).readLoop polls

/-- `readPacket(int timeout)`, when the clock is found before the time limit `rounds`
times at most. -/
def readPacketTimeout : Nat → Reader → Polls → Bool × Reader × Polls
  | 0, r, polls => (false, r, polls)
  | rounds + 1, r, polls =>
    let (r, polls) := r.readPacket polls
    if r.isAvailable then (true, r, polls)
    else if r.isError then (false, r, polls)
    else readPacketTimeout rounds r polls

/-- `_response`, once it is complete. -/
def response (r : Reader) : Option XBeeResponse :=
  if h : r.complete = true ∧ 0 < r.getPacketLength ∧ r.getPacketLength + 3 ≤ maxFrameDataSize then
    some {
      apiId := r.apiId
      packetLength := r.getPacketLength
      frameData := r.frameData.toList
      packetLength_pos := h.2.1
      packetLength_le := h.2.2
      frameData_length := by simp }
  else none

end Reader

end XBee

end IoTRepublic
