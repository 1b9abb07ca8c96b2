import IoTRepublic.Broker.XBeeReader
import IoTRepublic.Broker.XBeeSendSound
import IoTRepublic.Lib.Delimited

/-!
# IoTRepublic.Broker.XBeeReaderSpec

Calls of `readPacket` as the steps of a receiver of frames.

`InFrame` says what the fields of the object are while a frame is being received,
`readLoop_advances` what one call does, and `readPackets_moves` what any number of calls
do, however the calls and the bytes fall together.

The source keeps one object and a `switch` over its position; the receiver keeps the
symbols of the frame so far and whether the next one is escaped. `Holds` relates the two.
It has one lemma for each branch of the loop (`checksum_follows`, `data_follows`,
`exceeds_follows` and the others), put together in `handleByte_follows`; `advances_turn`
chains the turns. What is in the array beyond the position is what earlier frames have
left there, and nothing reads it.

A call may stop anywhere, so the relation holds between calls too (`Rests`), with the
outcome of the last frame still in the fields. The next call takes it away before it
reads. Since nothing else depends on where a call begins, any number of calls is one run
of the receiver (`readPackets_moves`).
-/

namespace IoTRepublic

open Cpp

namespace XBee

/-! ### The format -/

/-- The verdict on what stands behind a start byte: two bytes of length, of which the
second one counts, the API id, the data and the checksum. The frame ends with its
checksum, or where it exceeds the array. -/
def judge (symbols : List Byte) : Verdict :=
  if symbols.length ≤ 3 then .more
  else if maxFrameDataSize < symbols.length then .reject
  else if symbols.length = (symbols.getD 1 0).toNat + 3 then
    if byteSum (symbols.drop 2) = 0xFF then .accept else .reject
  else .more

/-- The frames `readPacket` understands. -/
def frameFormat : FrameFormat Byte where
  toEscaping := apiMode2
  start := startByte
  special_start := by decide
  start_ne_esc := by decide
  judge := judge

/-- What a call of `readPacket` leaves for its caller. -/
inductive Outcome
  /-- A response is available. -/
  | frame (apiId : Byte) (frameData : List Byte)
  | error (code : Byte)
  deriving DecidableEq, Repr

/-- What the caller is told when a frame ends. -/
def outcomeOf : FrameEvent Byte → Outcome
  | .accepted symbols => .frame (symbols.getD 2 0) (symbols.drop 3).dropLast
  | .rejected symbols =>
    .error (if maxFrameDataSize < symbols.length then packetExceedsByteArrayLength
      else checksumFailure)
  | .interrupted => .error unexpectedStartByte

namespace Reader

/-- An object in memory that holds zeros. -/
def zeros : Reader where
  pos := 0
  escape := false
  checksumTotal := 0
  complete := false
  errorCode := 0
  apiId := 0
  msbLength := 0
  lsbLength := 0
  checksum := 0
  frameLength := 0
  frameData := Vector.replicate maxFrameDataSize 0

/-- What the caller finds with `isAvailable` and `isError`: a response, an error code, or
nothing yet. -/
def outcome (r : Reader) : Option Outcome :=
  if r.isAvailable then
    some (.frame r.apiId (r.frameData.toList.take r.frameLength.toNat))
  else if r.isError then some (.error r.errorCode)
  else none

/-- Nothing is available, and there is no error: the state in which a call goes on with
the next byte. -/
structure Quiet (r : Reader) : Prop where
  complete : r.complete = false
  errorCode : r.errorCode = 0

/-- The fields while a frame is being received: the position counts its symbols, the sum
is theirs, and what has been stored are the length, the API id and the data. -/
structure InFrame (r : Reader) (symbols : List Byte) (escaped : Bool) : Prop where
  pos : r.pos.toNat = symbols.length + 1
  length_le : symbols.length ≤ maxFrameDataSize
  escape : r.escape = escaped
  checksumTotal : r.checksumTotal = byteSum (symbols.drop 2)
  lsbLength : 2 ≤ symbols.length → r.lsbLength = symbols.getD 1 0
  apiId : 3 ≤ symbols.length → r.apiId = symbols.getD 2 0
  frameData : r.frameData.toList.take (symbols.length - 3) = symbols.drop 3

/-- The fields, for what the receiver is in the middle of. -/
def Holds (r : Reader) : Receiver Byte → Prop
  | .idle => r.Quiet ∧ r.pos = 0 ∧ r.escape = false ∧ r.checksumTotal = 0
  | .within symbols escaped => r.Quiet ∧ r.InFrame symbols escaped

/-- The fields when a frame has ended. -/
structure Reports (r : Reader) (event : FrameEvent Byte) : Prop where
  outcome : r.outcome = some (outcomeOf event)
  response : r.complete = true → r.response.isSome ∧ r.getPacketLength = r.frameLength.toNat + 1

/-- A turn of the loop, and the step of the receiver. -/
def Follows : Turn → Receiver Byte × Option (FrameEvent Byte) → Prop
  | .goOn r, (receiver, none) => r.Holds receiver
  | .ret r, (receiver, some event) => receiver = .idle ∧ r.Reports event
  | _, _ => False

/-! ### One byte -/

theorem getPacketLength_eq (r : Reader) : r.getPacketLength = r.lsbLength.toNat := by
  have hmsb : r.msbLength.toNat <<< 8 &&& 0xFF = 0 := by
    rw [Nat.shiftLeft_eq]
    show r.msbLength.toNat * 2 ^ 8 &&& 2 ^ 8 - 1 = 0
    rw [Nat.and_two_pow_sub_one_eq_mod, Nat.mul_mod_left]
  have hlsb : r.lsbLength.toNat &&& 0xFF = r.lsbLength.toNat := by
    show r.lsbLength.toNat &&& 2 ^ 8 - 1 = _
    rw [Nat.and_two_pow_sub_one_eq_mod, Nat.mod_eq_of_lt r.lsbLength.toNat_lt]
  rw [getPacketLength, hmsb, hlsb, Nat.zero_add]

theorem toNat_pos_add_one {r : Reader} (h : r.pos.toNat < 255) :
    (r.pos + 1).toNat = r.pos.toNat + 1 := by
  rw [UInt8.toNat_add]
  show (r.pos.toNat + 1) % 2 ^ 8 = _
  omega

theorem extend_of_short {symbols : List Byte} (h : symbols.length ≤ 3) :
    Receiver.extend frameFormat symbols = (.within symbols false, none) := by
  rw [Receiver.extend, show frameFormat.judge symbols = .more from if_pos h]

theorem and_mask (b : Byte) : b &&& 0xFF = b := by
  apply UInt8.toNat_inj.mp
  rw [UInt8.toNat_and]
  show b.toNat &&& 2 ^ 8 - 1 = b.toNat
  rw [Nat.and_two_pow_sub_one_eq_mod, Nat.mod_eq_of_lt b.toNat_lt]

theorem toNat_pos_sub_four {r : Reader} {n : Nat} (h : r.pos.toNat = n + 4) :
    (r.pos - 4).toNat = n := by
  have hle : (4 : Byte) ≤ r.pos := by
    rw [UInt8.le_iff_toNat_le, h]
    exact Nat.le_add_left 4 n
  rw [UInt8.toNat_sub_of_le _ _ hle, h]
  exact Nat.add_sub_cancel n 4

/-- The frame has no end within the array. -/
theorem exceeds_follows {r : Reader} {symbols : List Byte} {c : Byte} (hquiet : r.Quiet)
    (hlength : symbols.length = r.pos.toNat) (hlt : maxFrameDataSize < r.pos.toNat) :
    Follows (r.storeData c) (Receiver.extend frameFormat symbols) := by
  have hjudge : frameFormat.judge symbols = .reject := by
    show judge symbols = _
    rw [maxFrameDataSize] at hlt
    rw [judge, maxFrameDataSize, if_neg (by omega), if_pos (by omega)]
  rw [Receiver.extend, hjudge, storeData, dif_pos hlt]
  refine ⟨rfl, ?_, fun hcomplete => ?_⟩
  · simp [outcome, isAvailable, isError, hquiet.complete, outcomeOf, hlength, hlt,
      packetExceedsByteArrayLength]
  · exact Bool.noConfusion (hquiet.complete.symm.trans hcomplete)

/-- The checksum, which ends the frame: accepted if the sum comes to 0xFF, rejected if
not. -/
theorem checksum_follows {r : Reader} {m l a c : Byte} {data : List Byte} (hquiet : r.Quiet)
    (hpos : r.pos.toNat = data.length + 4) (hle : r.pos.toNat ≤ maxFrameDataSize)
    (hend : r.pos.toNat = l.toNat + 3) (hsum : r.checksumTotal = byteSum (a :: data ++ [c]))
    (hlsb : r.lsbLength = l) (hapi : r.apiId = a)
    (hdata : r.frameData.toList.take data.length = data) :
    Follows (r.storeData c) (Receiver.extend frameFormat (m :: l :: a :: data ++ [c])) := by
  have hlength : (m :: l :: a :: data ++ [c]).length = r.pos.toNat := by simp [hpos]
  have hjudge : frameFormat.judge (m :: l :: a :: data ++ [c])
      = if byteSum (a :: data ++ [c]) = 0xFF then .accept else .reject := by
    show judge _ = _
    rw [judge, hlength, if_neg (by omega), if_neg (by omega)]
    exact if_pos hend
  have hpacket : r.pos.toNat = r.getPacketLength + 3 := by rw [getPacketLength_eq, hlsb, hend]
  have hframe := toNat_pos_sub_four hpos
  rw [Receiver.extend, hjudge, storeData, dif_neg (by omega), if_pos hpacket, and_mask, hsum]
  split
  · refine ⟨rfl, ?_, fun _ => ⟨?_, ?_⟩⟩
    · simp [outcome, isAvailable, hframe, hdata, hapi, outcomeOf]
    · have hfits : r.getPacketLength + 3 ≤ maxFrameDataSize := by rwa [← hpacket]
      have hpositive : 0 < r.getPacketLength := by omega
      exact Option.isSome_iff_exists.mpr ⟨_, dif_pos ⟨rfl, hpositive, hfits⟩⟩
    · show r.getPacketLength = (r.pos - 4).toNat + 1
      rw [hframe]
      omega
  · refine ⟨rfl, ?_, fun hcomplete => ?_⟩
    · have hcode : ¬ maxFrameDataSize < r.pos.toNat := Nat.not_lt.mpr hle
      simp only [outcome, isAvailable, isError, hquiet.complete, outcomeOf, hlength, if_neg hcode]
      rfl
    · exact Bool.noConfusion (hquiet.complete.symm.trans hcomplete)

theorem take_set_concat {data : List Byte} {c : Byte} {v : Vector Byte maxFrameDataSize} {i : Nat}
    (hi : i < maxFrameDataSize) (hlength : i = data.length)
    (hdata : v.toList.take data.length = data) :
    (v.set i c hi).toList.take (data.length + 1) = data ++ [c] := by
  subst hlength
  rw [Vector.toList_set, List.take_add_one, List.take_set_of_le (Nat.le_refl _), hdata]
  simp [hi]

/-- One more byte of the data, stored where its position says. -/
theorem data_follows {r : Reader} {m l a c : Byte} {data : List Byte} (hquiet : r.Quiet)
    (hpos : r.pos.toNat = data.length + 4) (hle : r.pos.toNat ≤ maxFrameDataSize)
    (hend : r.pos.toNat ≠ l.toNat + 3) (hescape : r.escape = false)
    (hsum : r.checksumTotal = byteSum (a :: data ++ [c])) (hlsb : r.lsbLength = l)
    (hapi : r.apiId = a) (hdata : r.frameData.toList.take data.length = data) :
    Follows (r.storeData c) (Receiver.extend frameFormat (m :: l :: a :: data ++ [c])) := by
  have hlength : (m :: l :: a :: data ++ [c]).length = r.pos.toNat := by simp [hpos]
  have hjudge : frameFormat.judge (m :: l :: a :: data ++ [c]) = .more := by
    show judge _ = _
    rw [judge, hlength, if_neg (by omega), if_neg (by omega)]
    exact if_neg hend
  have hpacket : r.pos.toNat ≠ r.getPacketLength + 3 := by rwa [getPacketLength_eq, hlsb]
  rw [Receiver.extend, hjudge, storeData, dif_neg (by omega), if_neg hpacket]
  rw [maxFrameDataSize] at hle
  refine ⟨⟨hquiet.complete, hquiet.errorCode⟩, ?_, ?_, hescape, hsum, fun _ => hlsb, fun _ => hapi,
    ?_⟩
  · rw [hlength]
    exact toNat_pos_add_one (by omega)
  · rw [hlength]
    exact hle
  · have hcount : (m :: l :: a :: data ++ [c]).length - 3 = data.length + 1 := by simp
    have hi : r.pos.toNat - 4 < maxFrameDataSize := by
      rw [maxFrameDataSize]
      omega
    rw [hcount]
    exact take_set_concat hi (by omega) hdata

/-- The `default` case: the checksum, a byte of the data, or the end of the array. -/
theorem storeData_follows {r : Reader} {m l a c : Byte} {data : List Byte} (hquiet : r.Quiet)
    (hpos : r.pos.toNat = data.length + 4) (hescape : r.escape = false)
    (hsum : r.checksumTotal = byteSum (a :: data ++ [c])) (hlsb : r.lsbLength = l)
    (hapi : r.apiId = a) (hdata : r.frameData.toList.take data.length = data) :
    Follows (r.storeData c) (Receiver.extend frameFormat (m :: l :: a :: data ++ [c])) := by
  by_cases hlt : maxFrameDataSize < r.pos.toNat
  · exact exceeds_follows hquiet (by simp [hpos]) hlt
  · by_cases hend : r.pos.toNat = l.toNat + 3
    · exact checksum_follows hquiet hpos (Nat.le_of_not_lt hlt) hend hsum hlsb hapi hdata
    · exact data_follows hquiet hpos (Nat.le_of_not_lt hlt) hend hescape hsum hlsb hapi hdata

/-- The `switch`, while the byte is one of a frame. -/
theorem store_follows {r : Reader} {symbols : List Byte} {c : Byte} (hquiet : r.Quiet)
    (hpos : r.pos.toNat = symbols.length + 1) (hle : symbols.length ≤ maxFrameDataSize)
    (hescape : r.escape = false) (hsum : r.checksumTotal = byteSum ((symbols ++ [c]).drop 2))
    (hlsb : 2 ≤ symbols.length → r.lsbLength = symbols.getD 1 0)
    (hapi : 3 ≤ symbols.length → r.apiId = symbols.getD 2 0)
    (hdata : r.frameData.toList.take (symbols.length - 3) = symbols.drop 3) :
    Follows (r.store c) (Receiver.extend frameFormat (symbols ++ [c])) := by
  rw [maxFrameDataSize] at hle
  have hnext := toNat_pos_add_one (r := r) (by omega)
  match symbols with
  | [] =>
      rw [extend_of_short (by simp), store, hpos]
      exact ⟨⟨hquiet.complete, hquiet.errorCode⟩, by simp [hnext, hpos], by simp [maxFrameDataSize],
        hescape, hsum, by simp, by simp, by simp⟩
  | [m] =>
      rw [extend_of_short (by simp), store, hpos]
      exact ⟨⟨hquiet.complete, hquiet.errorCode⟩, by simp [hnext, hpos], by simp [maxFrameDataSize],
        hescape, hsum, by simp, by simp, by simp⟩
  | [m, l] =>
      rw [extend_of_short (by simp), store, hpos]
      exact ⟨⟨hquiet.complete, hquiet.errorCode⟩, by simp [hnext, hpos], by simp [maxFrameDataSize],
        hescape, hsum, fun _ => hlsb (by simp), by simp, by simp⟩
  | m :: l :: a :: data =>
      rw [store, hpos]
      exact storeData_follows hquiet hpos hescape hsum (hlsb (by simp)) (hapi (by simp)) hdata

/-- The body of the loop, within a frame: the byte is unescaped, summed up and stored, as
one symbol of the receiver. -/
theorem handleByte_follows {r : Reader} {symbols : List Byte} {escaped : Bool} (b : Byte)
    (h : r.Holds (.within symbols escaped)) :
    Follows (r.handleByte b)
      (Receiver.extend frameFormat (symbols ++ [if escaped then b ^^^ 0x20 else b])) := by
  obtain ⟨hquiet, hframe⟩ := h
  have hbyte : (if r.escape then 0x20 ^^^ b else b) = if escaped then b ^^^ 0x20 else b := by
    rw [hframe.escape, UInt8.xor_comm]
  rw [handleByte, hbyte, hframe.pos]
  set c := if escaped then b ^^^ 0x20 else b
  dsimp only
  by_cases hsummed : apiIdIndex ≤ symbols.length + 1
  · rw [if_pos hsummed]
    have hdrop : (symbols ++ [c]).drop 2 = symbols.drop 2 ++ [c] :=
      List.drop_append_of_le_length (Nat.le_of_succ_le_succ hsummed)
    refine store_follows ⟨hquiet.complete, hquiet.errorCode⟩ hframe.pos hframe.length_le rfl ?_
      hframe.lsbLength hframe.apiId hframe.frameData
    rw [hdrop, byteSum_concat, ← hframe.checksumTotal]
  · rw [if_neg hsummed]
    rw [apiIdIndex] at hsummed
    refine store_follows ⟨hquiet.complete, hquiet.errorCode⟩ hframe.pos hframe.length_le rfl ?_
      hframe.lsbLength hframe.apiId hframe.frameData
    have hshort : (symbols ++ [c]).length ≤ 2 := by
      rw [List.length_append, List.length_singleton]
      omega
    rw [List.drop_of_length_le hshort]
    exact hframe.checksumTotal.trans (by rw [List.drop_of_length_le (by omega)])

/-- Where nothing is being received, only a start byte does something. -/
theorem handleByte_idle {r : Reader} (b : Byte) (h : r.Holds .idle) :
    Follows (r.handleByte b) (Receiver.receive frameFormat .idle b) := by
  obtain ⟨hquiet, hpos, hescape, hsum⟩ := h
  have hzero : r.pos.toNat = 0 := by rw [hpos]; rfl
  rw [handleByte, hescape, hzero, if_neg (by decide), if_neg (by decide), store]
  simp only [hzero, Receiver.receive]
  split
  · rename_i hstart
    rw [show (if b = frameFormat.start then _ else _) = Receiver.within [] false from if_pos hstart]
    exact ⟨⟨hquiet.complete, hquiet.errorCode⟩, by simp [hpos], by simp, rfl, hsum, by simp,
      by simp, by simp⟩
  · rename_i hstart
    rw [show (if b = frameFormat.start then _ else _) = Receiver.idle from if_neg hstart]
    exact ⟨⟨hquiet.complete, hquiet.errorCode⟩, hpos, rfl, hsum⟩

/-! ### One call -/

/-- Where a call ends: with the event that ends a frame, or without one when the port has
no more bytes. -/
def Ended (r : Reader) (events : List (FrameEvent Byte)) (receiver : Receiver Byte) : Prop :=
  events = [] ∧ r.Holds receiver
    ∨ ∃ event, events = [event] ∧ receiver = .idle ∧ r.Reports event

/-- What the loop takes is what the receiver takes. -/
def Advances (receiver : Receiver Byte) (polls : Polls) (left : Reader × Polls) : Prop :=
  ∃ taken events receiver', Receiver.Moves frameFormat receiver taken events receiver'
    ∧ bytes polls = taken ++ bytes left.2 ∧ left.1.Ended events receiver'

theorem advances_silent {r : Reader} {receiver : Receiver Byte} (h : r.Holds receiver)
    {polls left : Polls} (hbytes : bytes polls = bytes left) :
    Advances receiver polls (r, left) :=
  ⟨[], [], receiver, .nil receiver, hbytes, Or.inl ⟨rfl, h⟩⟩

/-- A turn of the loop, and the turns behind it. -/
theorem advances_turn {turn : Turn} {next : Receiver Byte × Option (FrameEvent Byte)}
    {receiver : Receiver Byte} {read : List Byte} {polls polls' : Polls} {left : Reader × Polls}
    (hfollows : Follows turn next)
    (hmove : ∀ as events last, Receiver.Moves frameFormat next.1 as events last →
      Receiver.Moves frameFormat receiver (read ++ as) (next.2.toList ++ events) last)
    (hbytes : bytes polls = read ++ bytes polls')
    (hgo : ∀ r, turn = .goOn r → ∀ receiver, r.Holds receiver → Advances receiver polls' left)
    (hret : ∀ r, turn = .ret r → left = (r, polls')) : Advances receiver polls left := by
  obtain ⟨receiver', event⟩ := next
  cases turn with
  | goOn r =>
      cases event with
      | some event => exact hfollows.elim
      | none =>
          obtain ⟨taken, events, last, hmoves, hleft, hended⟩ := hgo r rfl receiver' hfollows
          exact ⟨read ++ taken, events, last, hmove taken events last hmoves,
            by rw [hbytes, hleft, List.append_assoc], hended⟩
  | ret r =>
      cases event with
      | none => exact hfollows.elim
      | some event =>
          obtain ⟨rfl, hreports⟩ := hfollows
          obtain rfl := hret r rfl
          have hmoves := hmove [] [] .idle (.nil .idle)
          rw [List.append_nil, List.append_nil] at hmoves
          exact ⟨read, [event], .idle, hmoves, hbytes, Or.inr ⟨event, rfl, rfl, hreports⟩⟩

theorem pos_pos_of_within {r : Reader} {symbols : List Byte} {escaped : Bool}
    (h : r.Holds (.within symbols escaped)) : 0 < r.pos := by
  rw [UInt8.lt_iff_toNat_lt, h.2.pos]
  exact Nat.succ_pos _

theorem exists_within {r : Reader} {receiver : Receiver Byte} (h : r.Holds receiver)
    (hpos : 0 < r.pos) : ∃ symbols escaped, receiver = .within symbols escaped := by
  cases receiver with
  | idle =>
      rw [h.2.1] at hpos
      exact absurd hpos (by decide)
  | within symbols escaped => exact ⟨symbols, escaped, rfl⟩

/-- A byte that is neither a start byte nor an escape byte, or stands between frames. -/
theorem handleByte_receive {r : Reader} {receiver : Receiver Byte} {b : Byte}
    (h : r.Holds receiver) (hstart : ¬ (0 < r.pos ∧ b = startByte))
    (hesc : ¬ (0 < r.pos ∧ b = escapeByte)) :
    Follows (r.handleByte b) (Receiver.receive frameFormat receiver b) := by
  cases receiver with
  | idle => exact handleByte_idle b h
  | within symbols escaped =>
      have hpos := pos_pos_of_within h
      have hstart' : b ≠ frameFormat.start := fun heq => hstart ⟨hpos, heq⟩
      have hesc' : b ≠ frameFormat.esc := fun heq => hesc ⟨hpos, heq⟩
      rw [Receiver.receive, if_neg hstart', if_neg hesc']
      exact handleByte_follows b h

/-- The byte behind an escape byte, read at once. -/
theorem handleByte_ahead {r : Reader} {symbols : List Byte} {escaped : Bool} (b : Byte)
    (h : r.Holds (.within symbols escaped)) :
    Follows (r.handleByte (0x20 ^^^ b)) (Receiver.extend frameFormat
      (symbols ++ [if escaped then b else frameFormat.flip b])) := by
  have hbyte : (if escaped then (0x20 ^^^ b) ^^^ 0x20 else 0x20 ^^^ b)
      = if escaped then b else frameFormat.flip b := by
    cases escaped with
    | false => exact UInt8.xor_comm 0x20 b
    | true => exact (congrArg (· ^^^ 0x20) (UInt8.xor_comm 0x20 b)).trans (apiMode2.flip_flip b)
  rw [← hbyte]
  exact handleByte_follows _ h

theorem holds_escape {r : Reader} {symbols : List Byte} {escaped : Bool}
    (h : r.Holds (.within symbols escaped)) :
    Holds { r with escape := true } (.within symbols true) := by
  obtain ⟨hquiet, hframe⟩ := h
  exact ⟨⟨hquiet.complete, hquiet.errorCode⟩, hframe.pos, hframe.length_le, rfl,
    hframe.checksumTotal, hframe.lsbLength, hframe.apiId, hframe.frameData⟩

theorem reports_interrupted {r : Reader} {receiver : Receiver Byte} (h : r.Holds receiver) :
    Reports { r with errorCode := unexpectedStartByte } .interrupted := by
  have hquiet : r.Quiet := by
    cases receiver with
    | idle => exact h.1
    | within symbols escaped => exact h.1
  refine ⟨?_, fun hcomplete => Bool.noConfusion (hquiet.complete.symm.trans hcomplete)⟩
  simp [outcome, isAvailable, isError, hquiet.complete, outcomeOf, unexpectedStartByte]

theorem advances_start {r : Reader} {receiver : Receiver Byte} (h : r.Holds receiver)
    (hpos : 0 < r.pos) (polls : Polls) :
    Advances receiver (some startByte :: polls)
      ({ r with errorCode := unexpectedStartByte }, polls) := by
  obtain ⟨symbols, escaped, rfl⟩ := exists_within h hpos
  have hreceive : Receiver.receive frameFormat (.within symbols escaped) startByte
      = (.idle, some .interrupted) := by
    rw [Receiver.receive]
    exact if_pos rfl
  have hmoves := Receiver.Moves.one (F := frameFormat) (r := .within symbols escaped)
    (a := startByte) (.nil _)
  rw [hreceive] at hmoves
  exact ⟨[startByte], [.interrupted], .idle, hmoves, rfl,
    Or.inr ⟨.interrupted, rfl, rfl, reports_interrupted h⟩⟩

/-- An escape byte at which the port falls silent. -/
theorem advances_escape {r : Reader} {receiver : Receiver Byte} {polls : Polls}
    {left : Reader × Polls} (h : r.Holds receiver) (hpos : 0 < r.pos)
    (hrest : ∀ receiver, Holds { r with escape := true } receiver →
      Advances receiver polls left) :
    Advances receiver (some escapeByte :: polls) left := by
  obtain ⟨symbols, escaped, rfl⟩ := exists_within h hpos
  obtain ⟨taken, events, last, hmoves, hbytes, hended⟩ := hrest _ (holds_escape h)
  have hreceive : Receiver.receive frameFormat (.within symbols escaped) escapeByte
      = (.within symbols true, none) := Receiver.receive_esc symbols escaped
  have hone := @Receiver.Moves.one _ _ frameFormat (.within symbols escaped) last escapeByte taken
    events
  rw [hreceive] at hone
  exact ⟨escapeByte :: taken, events, last, hone hmoves, by simp [hbytes], hended⟩

/-- The loop of `readPacket`, by recursion on the polls as in the definition. -/
theorem readLoop_advances {r : Reader} {receiver : Receiver Byte} (h : r.Holds receiver) :
    (polls : Polls) → Advances receiver polls (r.readLoop polls)
  | [] => advances_silent h rfl
  | none :: polls => advances_silent h rfl
  | some b :: polls => by
    rw [readLoop.eq_def]
    dsimp only
    by_cases hstart : 0 < r.pos ∧ b = startByte
    · obtain ⟨hpos, rfl⟩ := hstart
      rw [if_pos ⟨hpos, rfl⟩]
      exact advances_start h hpos polls
    · by_cases hesc : 0 < r.pos ∧ b = escapeByte
      · rw [if_neg hstart, if_pos hesc]
        obtain ⟨hpos, rfl⟩ := hesc
        match polls with
        | [] => exact advances_escape h hpos fun receiver hrest => advances_silent hrest rfl
        | none :: polls =>
            exact advances_escape h hpos fun receiver hrest => readLoop_advances hrest polls
        | some b :: polls =>
            obtain ⟨symbols, escaped, rfl⟩ := exists_within h hpos
            refine advances_turn (handleByte_ahead b h)
              (fun as events last hmoves => .ahead hmoves)
              (rfl : _ = [escapeByte, b] ++ _) ?_ ?_
            · intro r' hturn receiver hr
              dsimp only
              rw [hturn]
              exact readLoop_advances hr polls
            · intro r' hturn
              dsimp only
              rw [hturn]
      · rw [if_neg hstart, if_neg hesc]
        refine advances_turn (handleByte_receive h hstart hesc)
          (fun as events last hmoves => .one hmoves) (rfl : _ = [b] ++ _) ?_ ?_
        · intro r' hturn receiver hr
          rw [hturn]
          exact readLoop_advances hr polls
        · intro r' hturn
          rw [hturn]

/-! ### Calls in a row -/

/-- The fields between two calls: those of a receiver in the middle of something, or of
one that has just told its caller how a frame ended. -/
def Rests (r : Reader) (receiver : Receiver Byte) : Prop :=
  r.Holds receiver ∨ receiver = .idle ∧ ∃ event, r.Reports event

theorem outcome_of_quiet {r : Reader} (h : r.Quiet) : r.outcome = none := by
  simp [outcome, isAvailable, isError, h.complete, h.errorCode]

theorem quiet_of_holds {r : Reader} {receiver : Receiver Byte} (h : r.Holds receiver) :
    r.Quiet := by
  cases receiver with
  | idle => exact h.1
  | within symbols escaped => exact h.1

theorem holds_resetResponse (r : Reader) : r.resetResponse.Holds .idle :=
  ⟨⟨rfl, rfl⟩, rfl, rfl, rfl⟩

/-- `readPacket`, after any call: what the last one has told is forgotten first, and then
the loop runs. -/
theorem readPacket_advances {r : Reader} {receiver : Receiver Byte} (h : r.Rests receiver)
    (polls : Polls) : Advances receiver polls (r.readPacket polls) := by
  rw [readPacket]
  cases h with
  | inl hholds =>
      have hquiet := quiet_of_holds hholds
      have hgoes : (r.isAvailable || r.isError) = false := by
        simp [isAvailable, isError, hquiet.complete, hquiet.errorCode]
      rw [hgoes]
      exact readLoop_advances hholds polls
  | inr hreports =>
      obtain ⟨rfl, event, hreports⟩ := hreports
      have hdone : (r.isAvailable || r.isError) = true := by
        have houtcome := hreports.outcome
        rw [outcome] at houtcome
        split at houtcome
        · rename_i havailable
          simp [havailable]
        · split at houtcome
          · rename_i herror
            simp [herror]
          · cases houtcome
      rw [hdone]
      exact readLoop_advances (holds_resetResponse r) polls

/-- Calls of `readPacket`, one after the other: what they leave for their caller, and the
polls behind them. -/
def readPackets : Nat → Reader → Polls → List Outcome × Reader × Polls
  | 0, r, polls => ([], r, polls)
  | n + 1, r, polls =>
    let (r, polls) := r.readPacket polls
    let (outcomes, left) := readPackets n r polls
    (r.outcome.toList ++ outcomes, left)

theorem outcome_of_ended {r : Reader} {events : List (FrameEvent Byte)} {receiver : Receiver Byte}
    (h : r.Ended events receiver) :
    r.outcome.toList = events.map outcomeOf ∧ r.Rests receiver := by
  cases h with
  | inl hnone =>
      obtain ⟨rfl, hholds⟩ := hnone
      exact ⟨by rw [outcome_of_quiet (quiet_of_holds hholds)]; rfl, Or.inl hholds⟩
  | inr hone =>
      obtain ⟨event, rfl, rfl, hreports⟩ := hone
      exact ⟨by rw [hreports.outcome]; rfl, Or.inr ⟨rfl, event, hreports⟩⟩

/-- The calls take what the receiver takes, and tell what happens to it. -/
theorem readPackets_moves {r : Reader} {receiver : Receiver Byte} (h : r.Rests receiver) (n : Nat)
    (polls : Polls) : ∃ taken events receiver',
      Receiver.Moves frameFormat receiver taken events receiver'
        ∧ bytes polls = taken ++ bytes (readPackets n r polls).2.2
        ∧ (readPackets n r polls).1 = events.map outcomeOf
        ∧ (readPackets n r polls).2.1.Rests receiver' := by
  induction n generalizing r receiver polls with
  | zero => exact ⟨[], [], receiver, .nil receiver, rfl, rfl, h⟩
  | succ n ih =>
      obtain ⟨taken, events, next, hmoves, hbytes, hended⟩ := readPacket_advances h polls
      obtain ⟨houtcome, hrests⟩ := outcome_of_ended hended
      obtain ⟨taken', events', last, hmoves', hbytes', houtcomes, hrests'⟩ :=
        ih hrests (r.readPacket polls).2
      refine ⟨taken ++ taken', events ++ events', last, hmoves.trans hmoves', ?_, ?_, hrests'⟩
      · rw [hbytes, hbytes', List.append_assoc]
        rfl
      · rw [readPackets, List.map_append, ← houtcome, ← houtcomes]

theorem rests_construct (memory : Reader) : (construct memory).Rests .idle :=
  Or.inl ⟨⟨rfl, rfl⟩, rfl, rfl, rfl⟩

/-! ### As many calls as polls -/

/-- A call takes one poll at least. -/
theorem readLoop_suffix (r : Reader) : (polls : Polls) → (r.readLoop polls).2 <:+ polls.tail
  | [] => List.suffix_refl _
  | none :: polls => List.suffix_refl _
  | some b :: polls => by
    rw [readLoop.eq_def]
    dsimp only
    split
    · exact List.suffix_refl _
    · split
      · match polls with
        | [] => exact List.suffix_refl _
        | none :: polls =>
            exact ((readLoop_suffix _ polls).trans (List.tail_suffix _)).trans
              (List.suffix_cons _ _)
        | some b :: polls =>
            dsimp only
            split
            · exact ((readLoop_suffix _ polls).trans (List.tail_suffix _)).trans
                (List.suffix_cons _ _)
            · exact List.suffix_cons _ _
      · split
        · exact (readLoop_suffix _ polls).trans (List.tail_suffix _)
        · exact List.suffix_refl _

theorem readPackets_exhausts {n : Nat} {polls : Polls} (h : polls.length ≤ n) (r : Reader) :
    (readPackets n r polls).2.2 = [] := by
  induction n generalizing r polls with
  | zero => exact List.eq_nil_of_length_eq_zero (Nat.le_zero.mp h)
  | succ n ih =>
      have hsuffix := (readLoop_suffix (if r.isAvailable || r.isError then r.resetResponse else r)
        polls).length_le
      rw [List.length_tail] at hsuffix
      exact ih (Nat.le_trans hsuffix (by omega)) _

end Reader

end XBee

end IoTRepublic
