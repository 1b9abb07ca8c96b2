import IoTRepublic.Broker.XBeeBroker
import IoTRepublic.Lib.Escaping

/-!
# IoTRepublic.Broker.XBeeSendSound

The frame an end device is sent.

The length of the data goes through an `unsigned char` twice, so the frame is the one
announced up to 241 bytes of data and a torn one from there on.

A frame is described by what a receiver makes of it (`TransmitsCommand`): without the
escapes it is a start byte, the length of the body as two bytes, the body, and a byte that
completes their sum to 0xFF, and the body carries the command between its two codes. The
frame the source writes for too long a command is none of this, and still it is sent.
-/

namespace IoTRepublic

open Cpp

namespace XBee

/-! ### Escaping -/

/-- The escaping of API mode 2. -/
def apiMode2 : Escaping Byte where
  special b := b = startByte ∨ b = escapeByte ∨ b = xon ∨ b = xoff
  esc := escapeByte
  flip b := b ^^^ 0x20
  special_esc := by decide
  flip_flip := forall_byte (by decide +kernel)
  special_flip := forall_byte (by decide +kernel)

/-- The frame that has been written: the start byte is not escaped. -/
def unescapeFrame : List Byte → Option (List Byte)
  | [] => none
  | start :: rest =>
    if start = startByte then (apiMode2.unescape rest).map (start :: ·) else none

theorem sendByte_true (b : Byte) : sendByte b true = apiMode2.escapeOne b := by
  simp [sendByte, Escaping.escapeOne, apiMode2]

/-! ### The frame data -/

/-- A number, most significant byte first. -/
def bigEndian (x : UInt32) : List Byte :=
  [UInt8.ofNat (x.toNat / 2 ^ 24), UInt8.ofNat (x.toNat / 2 ^ 16), UInt8.ofNat (x.toNat / 2 ^ 8),
    UInt8.ofNat x.toNat]

/-- The 64-bit address as it stands in a frame. -/
def addressBytes (address : XBeeAddress64) : List Byte :=
  bigEndian address.msb ++ bigEndian address.lsb

/-! ### The frame -/

/-- The sum of the bytes, modulo 256, as the loop that sends the frame adds it up. -/
def byteSum (bytes : List Byte) : Byte := bytes.foldl (· + ·) 0

/-- The frame around what stands between its length and its checksum. -/
def frameOf (body : List Byte) : List Byte :=
  startByte :: UInt8.ofNat (body.length / 256) :: UInt8.ofNat body.length
    :: (body ++ [0xFF - byteSum body])

theorem foldl_add_eq (b : Byte) (bytes : List Byte) :
    bytes.foldl (· + ·) b = b + byteSum bytes := by
  rw [byteSum]
  induction bytes generalizing b with
  | nil => simp
  | cons c bytes ih =>
      rw [List.foldl_cons, List.foldl_cons, ih, ih (0 + c), UInt8.zero_add, UInt8.add_assoc]

theorem byteSum_cons (b : Byte) (bytes : List Byte) : byteSum (b :: bytes) = b + byteSum bytes := by
  rw [byteSum, List.foldl_cons, foldl_add_eq, UInt8.zero_add]

theorem byteSum_concat (bytes : List Byte) (b : Byte) :
    byteSum (bytes ++ [b]) = byteSum bytes + b := by
  rw [byteSum, List.foldl_concat, ← byteSum]

theorem sum_map_toNat (bytes : List Byte) :
    (bytes.map UInt8.toNat).sum % 256 = (byteSum bytes).toNat := by
  induction bytes with
  | nil => rfl
  | cons b bytes ih =>
      rw [List.map_cons, List.sum_cons, byteSum_cons, UInt8.toNat_add, ← ih, Nat.add_mod_mod]

/-- The checksum completes the bytes it covers to 0xFF. -/
theorem sum_checksum (body : List Byte) :
    ((body ++ [0xFF - byteSum body]).map UInt8.toNat).sum % 256 = 0xFF := by
  have hsum : byteSum (body ++ [0xFF - byteSum body]) = 0xFF := by
    rw [byteSum_concat]
    grind
  rw [sum_map_toNat, hsum]
  rfl

end XBee

namespace ZBTxRequest

open XBee

/-- What is in front of the payload. -/
def header (request : ZBTxRequest) : List Byte :=
  addressBytes request.addr64
    ++ [UInt8.ofNat (request.addr16.toNat / 2 ^ 8), UInt8.ofNat request.addr16.toNat,
      request.broadcastRadius, request.option]

theorem toUInt8_mask (x : UInt32) : (x &&& 0xFF).toUInt8 = UInt8.ofNat x.toNat := by
  apply UInt8.toNat_inj.mp
  rw [UInt32.toNat_toUInt8, UInt32.toNat_and, UInt8.toNat_ofNat']
  show (x.toNat &&& (2 ^ 8 - 1)) % 2 ^ 8 = x.toNat % 2 ^ 8
  rw [Nat.and_two_pow_sub_one_eq_mod, Nat.mod_mod]

theorem toUInt8_mask16 (x : UInt16) : (x &&& 0xFF).toUInt8 = UInt8.ofNat x.toNat := by
  apply UInt8.toNat_inj.mp
  rw [UInt16.toNat_toUInt8, UInt16.toNat_and, UInt8.toNat_ofNat']
  show (x.toNat &&& (2 ^ 8 - 1)) % 2 ^ 8 = x.toNat % 2 ^ 8
  rw [Nat.and_two_pow_sub_one_eq_mod, Nat.mod_mod]

theorem header_eq (request : ZBTxRequest) :
    request.header =
      [(request.addr64.msb >>> 24 &&& 0xFF).toUInt8, (request.addr64.msb >>> 16 &&& 0xFF).toUInt8,
        (request.addr64.msb >>> 8 &&& 0xFF).toUInt8, (request.addr64.msb &&& 0xFF).toUInt8,
        (request.addr64.lsb >>> 24 &&& 0xFF).toUInt8, (request.addr64.lsb >>> 16 &&& 0xFF).toUInt8,
        (request.addr64.lsb >>> 8 &&& 0xFF).toUInt8, (request.addr64.lsb &&& 0xFF).toUInt8,
        (request.addr16 >>> 8 &&& 0xFF).toUInt8, (request.addr16 &&& 0xFF).toUInt8,
        request.broadcastRadius, request.option] := by
  simp only [toUInt8_mask, toUInt8_mask16, UInt32.toNat_shiftRight, UInt16.toNat_shiftRight,
    Nat.shiftRight_eq_div_pow]
  rfl

theorem getFrameData_eq (request : ZBTxRequest) {i : Nat} (hi : i < 256) :
    request.getFrameData (UInt8.ofNat i) = deref (request.header ++ request.payload) i := by
  by_cases h : i < 12
  · rw [header_eq]
    interval_cases i <;> rfl
  · have hnat : (UInt8.ofNat i).toNat = i := UInt8.toNat_ofNat_of_lt' hi
    have hne (k : Byte) (hk : k.toNat < 12) : UInt8.ofNat i ≠ k := by
      intro heq
      rw [← heq, hnat] at hk
      exact h hk
    have hpos : (UInt8.ofNat i - zbTxApiLength).toNat = i - 12 := by
      have hle : zbTxApiLength ≤ UInt8.ofNat i := by
        rw [UInt8.le_iff_toNat_le, hnat]
        exact Nat.le_of_not_lt h
      rw [UInt8.toNat_sub_of_le _ _ hle, hnat]
      rfl
    have hheader : request.header.length = 12 := rfl
    unfold getFrameData
    rw [if_neg (hne 0 (by decide)), if_neg (hne 1 (by decide)), if_neg (hne 2 (by decide)),
      if_neg (hne 3 (by decide)), if_neg (hne 4 (by decide)), if_neg (hne 5 (by decide)),
      if_neg (hne 6 (by decide)), if_neg (hne 7 (by decide)), if_neg (hne 8 (by decide)),
      if_neg (hne 9 (by decide)), if_neg (hne 10 (by decide)), if_neg (hne 11 (by decide)), hpos,
      deref, deref, List.getElem?_append_right (by omega), hheader]

/-- What is between the length and the checksum. -/
def body (request : ZBTxRequest) : List Byte :=
  zbTxRequestId :: defaultFrameId
    :: (request.header ++ request.payload).take request.getFrameDataLength.toNat

theorem getFrameDataLength_le {request : ZBTxRequest}
    (h : request.payloadLength.toNat ≤ request.payload.length) :
    request.getFrameDataLength.toNat ≤ (request.header ++ request.payload).length := by
  have hheader : request.header.length = 12 := rfl
  rw [getFrameDataLength, UInt8.toNat_add, List.length_append, hheader]
  calc (zbTxApiLength.toNat + request.payloadLength.toNat) % 2 ^ 8
      ≤ zbTxApiLength.toNat + request.payloadLength.toNat := Nat.mod_le _ _
    _ ≤ 12 + request.payload.length := Nat.add_le_add_left h 12

theorem body_length {request : ZBTxRequest}
    (h : request.payloadLength.toNat ≤ request.payload.length) :
    request.body.length = request.getFrameDataLength.toNat + 2 := by
  rw [body, List.length_cons, List.length_cons, List.length_take,
    Nat.min_eq_left (getFrameDataLength_le h)]

theorem mapM_getFrameData {request : ZBTxRequest}
    (h : request.payloadLength.toNat ≤ request.payload.length) :
    (List.range request.getFrameDataLength.toNat).mapM
        (fun i => request.getFrameData (UInt8.ofNat i))
      = .ok ((request.header ++ request.payload).take request.getFrameDataLength.toNat) := by
  have hread : derefRange (request.header ++ request.payload) 0 request.getFrameDataLength.toNat
      = .ok (((request.header ++ request.payload).drop 0).take request.getFrameDataLength.toNat) :=
    derefRange_eq (by simpa using getFrameDataLength_le h)
  rw [derefRange, List.drop_zero] at hread
  rw [← hread]
  apply mapM_congr
  intro i hi
  have hlt := request.getFrameDataLength.toNat_lt
  rw [request.getFrameData_eq (Nat.lt_trans (List.mem_range.mp hi) hlt), Nat.zero_add]

theorem send_eq {request : ZBTxRequest}
    (h : request.payloadLength.toNat ≤ request.payload.length) :
    XBee.send request
      = .ok (startByte :: apiMode2.escape (frameOf request.body).tail) := by
  have hshift : ((request.getFrameDataLength.toNat + 2) >>> 8 &&& 0xFF)
      = (request.getFrameDataLength.toNat + 2) / 256 % 256 := by
    rw [Nat.shiftRight_eq_div_pow]
    exact Nat.and_two_pow_sub_one_eq_mod _ 8
  have hmask : (request.getFrameDataLength.toNat + 2 &&& 0xFF)
      = (request.getFrameDataLength.toNat + 2) % 256 :=
    Nat.and_two_pow_sub_one_eq_mod _ 8
  have hcongr : (sendByte · true) = apiMode2.escapeOne := funext sendByte_true
  rw [XBee.send, mapM_getFrameData h, ok_bind, hshift, hmask, hcongr, foldl_add_eq]
  have hsum : byteSum request.body = zbTxRequestId + defaultFrameId
      + byteSum ((request.header ++ request.payload).take request.getFrameDataLength.toNat) := by
    rw [body, byteSum_cons, byteSum_cons, UInt8.add_assoc]
  rw [← hsum, UInt8.ofNat_mod_size, UInt8.ofNat_mod_size, frameOf, body_length h]
  rfl

end ZBTxRequest

namespace XBeeBrokerApiMode

open XBee

/-! ### Commands -/

/-- What is sent for `data`: the API id and the frame id, the address, the 16-bit
address, radius and options the constructor leaves, and the framed data. -/
def commandBody (address : XBeeAddress64) (data : List Byte) : List Byte :=
  zbTxRequestId :: defaultFrameId :: (addressBytes address ++ [0xFF, 0xFE, 0, 0]
    ++ (startCode :: data ++ [endCode]))

/-- `frame` is one API frame that carries `data` to `address`. -/
structure TransmitsCommand (address : XBeeAddress64) (data frame : List Byte) : Prop where
  length_lt : (commandBody address data).length < 2 ^ 16
  frame_eq : ∃ checksum,
    frame = startByte :: UInt8.ofNat ((commandBody address data).length / 256)
        :: UInt8.ofNat (commandBody address data).length
        :: (commandBody address data ++ [checksum])
      ∧ ((commandBody address data ++ [checksum]).map UInt8.toNat).sum % 256 = 0xFF

/-- The whole command is transmitted, or nothing is. -/
def CarriesCommand (address : XBeeAddress64) (data : List Byte) : Prop :=
  (∃ written frame, sendData address data = .ok written ∧ unescapeFrame written = some frame
      ∧ TransmitsCommand address data frame)
    ∨ sendData address data = .error .lengthError

theorem addressBytes_length (address : XBeeAddress64) : (addressBytes address).length = 8 := rfl

theorem commandBody_length (address : XBeeAddress64) (data : List Byte) :
    (commandBody address data).length = data.length + 16 := by
  simp only [commandBody, List.length_cons, List.length_append, addressBytes_length,
    List.length_nil]
  omega

/-- The request `sendData` builds. -/
def commandRequest (address : XBeeAddress64) (data : List Byte) : ZBTxRequest where
  addr64 := address
  payload := startCode :: data ++ [endCode]
  payloadLength := UInt8.ofInt (toInt (data.length + 2))

theorem payloadLength_commandRequest (address : XBeeAddress64) (data : List Byte) :
    (commandRequest address data).payloadLength.toNat = (data.length + 2) % 256 := by
  show (UInt8.ofNat (wrapInt (data.length + 2 : Nat) % 2 ^ 8).toNat).toNat = _
  rw [UInt8.toNat_ofNat', wrapInt]
  split <;> omega

theorem payloadLength_commandRequest_le (address : XBeeAddress64) (data : List Byte) :
    (commandRequest address data).payloadLength.toNat
      ≤ (commandRequest address data).payload.length := by
  rw [payloadLength_commandRequest]
  simpa [commandRequest] using Nat.mod_le (data.length + 2) 256

/-- The length of the frame data, after both conversions. -/
theorem getFrameDataLength_commandRequest (address : XBeeAddress64) (data : List Byte) :
    (commandRequest address data).getFrameDataLength.toNat = (data.length + 14) % 256 := by
  rw [ZBTxRequest.getFrameDataLength, UInt8.toNat_add, payloadLength_commandRequest]
  show (12 + (data.length + 2) % 256) % 256 = _
  rw [Nat.add_mod_mod]
  congr 1
  omega

theorem sendData_of_nonneg {data : List Byte} (h : 0 ≤ toInt (data.length + 2))
    (address : XBeeAddress64) :
    sendData address data
      = .ok (startByte :: apiMode2.escape (frameOf (commandRequest address data).body).tail) := by
  rw [sendData, reserve, if_neg (Int.not_lt.mpr h)]
  exact ZBTxRequest.send_eq (payloadLength_commandRequest_le address data)

theorem sendData_of_neg {data : List Byte} (h : toInt (data.length + 2) < 0)
    (address : XBeeAddress64) : sendData address data = .error .lengthError := by
  rw [sendData, reserve, if_pos h]
  rfl

theorem unescapeFrame_eq (body : List Byte) :
    unescapeFrame (startByte :: apiMode2.escape (frameOf body).tail) = some (frameOf body) := by
  rw [unescapeFrame, if_pos rfl, Escaping.unescape_escape]
  rfl

theorem payload_commandRequest (address : XBeeAddress64) (data : List Byte) :
    (commandRequest address data).payload = startCode :: data ++ [endCode] := rfl

theorem header_commandRequest (address : XBeeAddress64) (data : List Byte) :
    (commandRequest address data).header = addressBytes address ++ [0xFF, 0xFE, 0, 0] := by
  have hfields : [UInt8.ofNat (zbBroadcastAddress.toNat / 2 ^ 8),
      UInt8.ofNat zbBroadcastAddress.toNat, zbBroadcastRadiusMaxHops, zbTxUnicast]
      = [0xFF, 0xFE, 0, 0] := by decide
  rw [← hfields]
  rfl

/-- What is in the frame, where the length still fits. -/
theorem body_commandRequest {data : List Byte} (h : data.length ≤ 241) (address : XBeeAddress64) :
    (commandRequest address data).body = commandBody address data := by
  have hlength : (commandRequest address data).getFrameDataLength.toNat
      = ((commandRequest address data).header ++ (commandRequest address data).payload).length := by
    rw [getFrameDataLength_commandRequest, Nat.mod_eq_of_lt (by omega)]
    simp only [header_commandRequest, payload_commandRequest, List.length_append,
      addressBytes_length, List.length_cons, List.length_nil]
    omega
  rw [ZBTxRequest.body, hlength, List.take_length, header_commandRequest]
  rfl

theorem carriesCommand_of_le {data : List Byte} (h : data.length ≤ 241)
    (address : XBeeAddress64) : CarriesCommand address data := by
  have hnonneg : 0 ≤ toInt (data.length + 2) := by
    rw [toInt_of_lt (by omega)]
    exact Int.natCast_nonneg _
  refine Or.inl ⟨_, _, sendData_of_nonneg hnonneg address, unescapeFrame_eq _, ?_⟩
  rw [body_commandRequest h]
  refine ⟨?_, _, rfl, sum_checksum _⟩
  rw [commandBody_length]
  omega

/-- The frame of a longer command is shorter than the command: its length has been taken
modulo 256 on the way. -/
theorem not_carriesCommand_of_lt {data : List Byte} (h : 241 < data.length)
    (hnonneg : 0 ≤ toInt (data.length + 2)) (address : XBeeAddress64) :
    ¬ CarriesCommand address data := by
  intro hcarries
  rw [CarriesCommand, sendData_of_nonneg hnonneg] at hcarries
  cases hcarries with
  | inl hframe =>
      obtain ⟨written, frame, hwritten, hunescape, htransmits⟩ := hframe
      obtain rfl := Except.ok.inj hwritten
      rw [unescapeFrame_eq] at hunescape
      obtain rfl := Option.some.inj hunescape
      obtain ⟨checksum, hframe, -⟩ := htransmits.frame_eq
      have hlength := congrArg List.length hframe
      simp only [frameOf, List.length_cons, List.length_append, List.length_nil,
        commandBody_length,
        ZBTxRequest.body_length (payloadLength_commandRequest_le address data),
        getFrameDataLength_commandRequest] at hlength
      omega
  | inr hfault => cases hfault

/-- The whole command is transmitted up to 241 bytes. From there on a torn frame is
sent, unless the length of the buffer is negative as an `int`. -/
theorem carriesCommand_iff (address : XBeeAddress64) (data : List Byte) :
    CarriesCommand address data ↔ data.length ≤ 241 ∨ toInt (data.length + 2) < 0 := by
  constructor
  · intro hcarries
    by_contra h
    rw [not_or, Nat.not_le, Int.not_lt] at h
    exact not_carriesCommand_of_lt h.1 h.2 address hcarries
  · intro h
    cases h with
    | inl hle => exact carriesCommand_of_le hle address
    | inr hneg => exact Or.inr (sendData_of_neg hneg address)

/-- A command ID of 242 bytes. -/
theorem not_carriesCommand_long :
    ¬ CarriesCommand { msb := 0x0013A200, lsb := 0x40B0A1C2 } (List.replicate 242 0x41) :=
  not_carriesCommand_of_lt (by rw [List.length_replicate]; decide)
    (by rw [List.length_replicate]; decide) _

end XBeeBrokerApiMode

end IoTRepublic
