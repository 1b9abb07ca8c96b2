import IoTRepublic.Cpp.Bits

/-!
# IoTRepublic.Broker.XBeeApi

`Broker/XBee/XBeeApiLibrary.cpp`: the frames exchanged with the XBee module, in API
mode 2.

A request is written as a frame, byte by byte and escaped. What has been received is
an `XBeeResponse`, the state of the library's `_response` after a call of
`readPacket` that returned `true`.

A frame has a start byte, a two-byte length, as many bytes as that, and a checksum. The
fields of a response are read at fixed offsets of an array of 110 bytes whatever the
length of the frame is, so a short frame shows what earlier ones have left behind; only
where a length is computed by subtracting from a shorter one does a read leave the array.
-/

namespace IoTRepublic

open Cpp

/-- `XBeeAddress64`: the radio address of a module, in two words as the library keeps
it. -/
structure XBeeAddress64 where
  msb : UInt32
  lsb : UInt32
  deriving DecidableEq, Repr

namespace XBee

def startByte : Byte := 0x7E
def escapeByte : Byte := 0x7D
def xon : Byte := 0x11
def xoff : Byte := 0x13
def zbTxRequestId : Byte := 0x10
def defaultFrameId : Byte := 1
def zbBroadcastAddress : UInt16 := 0xFFFE
def zbBroadcastRadiusMaxHops : Byte := 0
def zbTxUnicast : Byte := 0
def zbTxApiLength : Byte := 12
def maxFrameDataSize : Nat := 110

/-- The status of a delivery, and of an AT command, that went well. Every other value is
some failure. -/
def success : Byte := 0

end XBee

open XBee

/-! ### Requests -/

/-- `ZBTxRequest`, as its three-argument constructor leaves it. `payload` is what the
pointer points to. -/
structure ZBTxRequest where
  addr64 : XBeeAddress64
  payload : List Byte
  payloadLength : Byte
  addr16 : UInt16 := zbBroadcastAddress
  broadcastRadius : Byte := zbBroadcastRadiusMaxHops
  option : Byte := zbTxUnicast
  deriving DecidableEq, Repr

namespace ZBTxRequest

/-- `getFrameDataLength`: the header and the payload, counted in a single byte. A payload
of 244 bytes or more makes the count wrap around. -/
def getFrameDataLength (request : ZBTxRequest) : Byte := zbTxApiLength + request.payloadLength

/-- `getFrameData`: the byte at a position of the frame: the two addresses, most
significant byte first, two options, and the payload from the twelfth position on. -/
def getFrameData (request : ZBTxRequest) (pos : Byte) : Except Fault Byte :=
  if pos = 0 then .ok (request.addr64.msb >>> 24 &&& 0xFF).toUInt8
  else if pos = 1 then .ok (request.addr64.msb >>> 16 &&& 0xFF).toUInt8
  else if pos = 2 then .ok (request.addr64.msb >>> 8 &&& 0xFF).toUInt8
  else if pos = 3 then .ok (request.addr64.msb &&& 0xFF).toUInt8
  else if pos = 4 then .ok (request.addr64.lsb >>> 24 &&& 0xFF).toUInt8
  else if pos = 5 then .ok (request.addr64.lsb >>> 16 &&& 0xFF).toUInt8
  else if pos = 6 then .ok (request.addr64.lsb >>> 8 &&& 0xFF).toUInt8
  else if pos = 7 then .ok (request.addr64.lsb &&& 0xFF).toUInt8
  else if pos = 8 then .ok (request.addr16 >>> 8 &&& 0xFF).toUInt8
  else if pos = 9 then .ok (request.addr16 &&& 0xFF).toUInt8
  else if pos = 10 then .ok request.broadcastRadius
  else if pos = 11 then .ok request.option
  else deref request.payload (pos - zbTxApiLength).toNat

end ZBTxRequest

namespace XBee

/-- `sendByte`: the four bytes that mean something on the line are written as the escape
byte and their exclusive or with 0x20. -/
def sendByte (b : Byte) (escape : Bool) : List Byte :=
  if escape ∧ (b = startByte ∨ b = escapeByte ∨ b = xon ∨ b = xoff) then
    [escapeByte, b ^^^ 0x20]
  else [b]

/-- `send`: the bytes written to the serial port. The bytes of the frame are read
one by one and have no effect on each other. -/
def send (request : ZBTxRequest) : Except Fault (List Byte) := do
  let length := request.getFrameDataLength.toNat
  let msbLen := UInt8.ofNat ((length + 2) >>> 8 &&& 0xFF)
  let lsbLen := UInt8.ofNat (length + 2 &&& 0xFF)
  let frameData ← (List.range length).mapM fun i => request.getFrameData (UInt8.ofNat i)
  let checksum := frameData.foldl (· + ·) (zbTxRequestId + defaultFrameId)
  let checksum := 0xFF - checksum
  return sendByte startByte false
    ++ ([msbLen, lsbLen, zbTxRequestId, defaultFrameId] ++ frameData ++ [checksum]).flatMap
      (sendByte · true)

end XBee

/-! ### Responses -/

/-- `XBeeResponse`, complete. The bytes of the frame are at the front of `frameData`,
what earlier frames have left there behind them. -/
structure XBeeResponse where
  apiId : Byte
  /-- `getPacketLength`: the API id and the bytes of the frame. -/
  packetLength : Nat
  frameData : List Byte
  packetLength_pos : 0 < packetLength
  /-- `readPacket` takes no more: the checksum is at `packetLength + 3`. -/
  packetLength_le : packetLength + 3 ≤ maxFrameDataSize
  frameData_length : frameData.length = maxFrameDataSize
  deriving DecidableEq

namespace XBeeResponse

def atCommandId : Byte := 0x88
def txStatusId : Byte := 0x8B
def rxResponseId : Byte := 0x90

/-- `AtCommandResponse::isOk`: the status byte of an AT response says that the command
went well. -/
def isOk (r : XBeeResponse) : Bool := r.frameData.getD 3 0 = success

/-- `AtCommandResponse::getValueLength`. `readPacket` sets the frame length one below
the packet length. -/
def getValueLength (r : XBeeResponse) : Byte := UInt8.ofNat (r.packetLength - 1) - 4

/-- `AtCommandResponse::getValue`, and the loop that copies it. A frame too short to have
a value has a length that has wrapped around, and the copy leaves the array. -/
def readValue (r : XBeeResponse) : Except Fault (List Byte) :=
  derefRange r.frameData 4 r.getValueLength.toNat

/-- `TxStatusResponse::getStatus`: whether the module has handed the frame over to its
destination. -/
def getStatus (r : XBeeResponse) : Byte := r.frameData.getD 4 0

/-- `ZBRxResponse::getDataOffset`: where the payload begins behind the sender's addresses
and the options. -/
def getDataOffset : Byte := 11

/-- `ZBRxResponse::getDataLength`: what is left of the packet behind the offset, in a
single byte. -/
def getDataLength (r : XBeeResponse) : Byte := UInt8.ofNat r.packetLength - getDataOffset - 1

/-- `ZBRxResponse::getData`, and the loop that copies it: the payload another module has
sent. -/
def readData (r : XBeeResponse) : Except Fault (List Byte) :=
  derefRange r.frameData getDataOffset.toNat r.getDataLength.toNat

end XBeeResponse

end IoTRepublic
