import IoTRepublic.Broker.XBeeReaderSound
import IoTRepublic.Broker.XBeeReceiveSound

/-!
# IoTRepublic.Broker.XBeeDeliverySound

From the bytes of the serial port to what the broker reads.

The broker calls `readPacket` with a time limit and is handed a response or none. The
responses are the frames the port has delivered (`readResponses_frames`), and the reply
of a device arrives whole, over however many radio frames it is spread
(`recvData_wireFrames`).

Three layers meet here. The reader (`XBeeReaderSpec`) moves as a receiver of frames does;
a call with a time limit is any number of such moves (`readPacketTimeout_moves`); and what
the moves accept is handed over (`Carries`). Since the receiver takes the bytes one by
one, neither the silences of the port nor the time limits of the calls appear in the
conclusions, only that in the end all bytes have been read.

For a reply two more things are needed. Its data is in Rx frames of at most 95 bytes of
data each (`RadioFrame.Fits`), what fits into the array of the reader; and the end code
does not stand inside the value, or the broker would stop there.
-/

namespace IoTRepublic

open Cpp

namespace XBee

open Receiver Reader

/-! ### Responses -/

/-- What the caller of `readPacket(timeout)` goes on with. -/
def handed (left : Bool × Reader × Polls) : Option XBeeResponse :=
  if left.1 then left.2.1.response else none

/-- Calls of `readPacket(timeout)`, one after the other, with the number of rounds each
of them has time for. -/
def readResponses : List Nat → Reader → Polls → List (Option XBeeResponse) × Reader × Polls
  | [], r, polls => ([], r, polls)
  | rounds :: calls, r, polls =>
    let left := r.readPacketTimeout rounds polls
    let (responses, last) := readResponses calls left.2.1 left.2.2
    (handed left :: responses, last)

/-- The response is this frame: its API id, its length and its data, as far as the frame
has any. -/
structure Carries (frame : Byte × List Byte) (response : XBeeResponse) : Prop where
  apiId : response.apiId = frame.1
  packetLength : response.packetLength = frame.2.length + 1
  frameData : response.frameData.take frame.2.length = frame.2

theorem carries_of_response {r : Reader} {response : XBeeResponse}
    (h : r.response = some response) (hlength : r.getPacketLength = r.frameLength.toNat + 1) :
    Carries (r.apiId, r.frameData.toList.take r.frameLength.toNat) response := by
  rw [Reader.response] at h
  split at h
  · rename_i hfits
    obtain rfl := Option.some.inj h
    have htake : (r.frameData.toList.take r.frameLength.toNat).length = r.frameLength.toNat := by
      have hle := hfits.2.2
      rw [List.length_take, Vector.length_toList]
      omega
    exact ⟨rfl, by rw [htake]; exact hlength, by rw [htake]⟩
  · cases h

/-- A call that ends with an event tells it to its caller. -/
theorem handed_of_reports {r : Reader} {event : FrameEvent Byte} (h : r.Reports event)
    (polls : Polls) :
    List.Forall₂ Carries (delivered [outcomeOf event])
      (handed (r.isAvailable, r, polls)).toList := by
  have houtcome := h.outcome
  rw [outcome] at houtcome
  split at houtcome
  · rename_i havailable
    obtain ⟨hsome, hlength⟩ := h.response havailable
    obtain ⟨response, hresponse⟩ := Option.isSome_iff_exists.mp hsome
    rw [← Option.some.inj houtcome, handed, havailable, if_pos rfl, hresponse]
    exact .cons (carries_of_response hresponse hlength) .nil
  · rename_i hnone
    rw [Bool.not_eq_true] at hnone
    split at houtcome
    · rw [← Option.some.inj houtcome, handed, hnone, if_neg (by simp)]
      exact .nil
    · cases houtcome

/-- A round in which no frame ends is followed by the next one. -/
theorem readPacketTimeout_quiet {r : Reader} {polls : Polls}
    (h : (r.readPacket polls).1.Quiet) (rounds : Nat) :
    r.readPacketTimeout (rounds + 1) polls
      = (r.readPacket polls).1.readPacketTimeout rounds (r.readPacket polls).2 := by
  rw [readPacketTimeout]
  simp [isAvailable, isError, h.complete, h.errorCode]

theorem readPacketTimeout_reports {r : Reader} {polls : Polls} {event : FrameEvent Byte}
    (h : (r.readPacket polls).1.Reports event) (rounds : Nat) :
    r.readPacketTimeout (rounds + 1) polls
      = ((r.readPacket polls).1.isAvailable, r.readPacket polls) := by
  have houtcome := h.outcome
  rw [outcome] at houtcome
  rw [readPacketTimeout]
  split at houtcome
  · rename_i havailable
    simp [havailable]
  · rename_i hnone
    split at houtcome
    · rename_i herror
      simp [hnone, herror]
    · cases houtcome

/-- One call with a time limit takes what the receiver takes, and hands over the frame
that has been accepted. -/
theorem readPacketTimeout_moves {r : Reader} {receiver : Receiver Byte} (h : r.Rests receiver)
    (rounds : Nat) (polls : Polls) : ∃ taken events receiver',
      Moves frameFormat receiver taken events receiver'
        ∧ bytes polls = taken ++ bytes (r.readPacketTimeout rounds polls).2.2
        ∧ (r.readPacketTimeout rounds polls).2.1.Rests receiver'
        ∧ List.Forall₂ Carries (delivered (events.map outcomeOf))
          (handed (r.readPacketTimeout rounds polls)).toList := by
  induction rounds generalizing r receiver polls with
  | zero => exact ⟨[], [], receiver, .nil receiver, rfl, h, .nil⟩
  | succ rounds ih =>
      obtain ⟨taken, events, next, hmoves, hbytes, hended⟩ := readPacket_advances h polls
      have hrests := (outcome_of_ended hended).2
      cases hended with
      | inl hnone =>
          obtain ⟨rfl, hholds⟩ := hnone
          rw [readPacketTimeout_quiet (quiet_of_holds hholds)]
          obtain ⟨taken', events', last, hmoves', hbytes', hrests', hhanded⟩ :=
            ih hrests (r.readPacket polls).2
          exact ⟨taken ++ taken', events', last, hmoves.trans hmoves',
            by rw [hbytes, hbytes', List.append_assoc], hrests', hhanded⟩
      | inr hone =>
          obtain ⟨event, rfl, rfl, hreports⟩ := hone
          rw [readPacketTimeout_reports hreports]
          exact ⟨taken, [event], .idle, hmoves, hbytes, hrests, handed_of_reports hreports _⟩

theorem delivered_append (outcomes outcomes' : List Outcome) :
    delivered (outcomes ++ outcomes') = delivered outcomes ++ delivered outcomes' :=
  List.filterMap_append

/-- The same for calls in a row. -/
theorem readResponses_moves {r : Reader} {receiver : Receiver Byte} (h : r.Rests receiver)
    (calls : List Nat) (polls : Polls) : ∃ taken events receiver',
      Moves frameFormat receiver taken events receiver'
        ∧ bytes polls = taken ++ bytes (readResponses calls r polls).2.2
        ∧ List.Forall₂ Carries (delivered (events.map outcomeOf))
          (readResponses calls r polls).1.reduceOption := by
  induction calls generalizing r receiver polls with
  | nil => exact ⟨[], [], receiver, .nil receiver, rfl, .nil⟩
  | cons rounds calls ih =>
      obtain ⟨taken, events, next, hmoves, hbytes, hrests, hhanded⟩ :=
        readPacketTimeout_moves h rounds polls
      obtain ⟨taken', events', last, hmoves', hbytes', hresponses⟩ :=
        ih hrests (r.readPacketTimeout rounds polls).2.2
      refine ⟨taken ++ taken', events ++ events', last, hmoves.trans hmoves', ?_, ?_⟩
      · rw [hbytes, hbytes', List.append_assoc]
        rfl
      · rw [List.map_append, delivered_append]
        have hcons : (readResponses (rounds :: calls) r polls).1.reduceOption
            = (handed (r.readPacketTimeout rounds polls)).toList
              ++ (readResponses calls (r.readPacketTimeout rounds polls).2.1
                (r.readPacketTimeout rounds polls).2.2).1.reduceOption := by
          rw [readResponses]
          cases handed (r.readPacketTimeout rounds polls) with
          | none => rfl
          | some response => rfl
        rw [hcons]
        exact List.rel_append hhanded hresponses

/-! ### Streams of frames -/

variable {memory : Reader} {polls : Polls} {calls : List Nat}

/-- What is delivered of a frame with this body: the API id and the data, or nothing if
the frame exceeds the array of the reader. -/
def deliveredOfBody (body : List Byte) : Option (Byte × List Byte) :=
  if body.length + 3 ≤ maxFrameDataSize then some (body.headD 0, body.tail) else none

theorem delivered_outcomeOfBody (frames : List (List Byte × List Byte)) :
    delivered (frames.map fun frame => outcomeOfBody frame.2)
      = frames.filterMap fun frame => deliveredOfBody frame.2 := by
  rw [delivered, List.filterMap_map]
  refine List.filterMap_congr fun frame _ => ?_
  rw [Function.comp_apply, outcomeOfBody, deliveredOfBody]
  by_cases hfits : frame.2.length + 3 ≤ maxFrameDataSize
  · rw [if_pos hfits, if_pos hfits]
  · rw [if_neg hfits, if_neg hfits]

/-- The responses the broker is handed are the frames that fit, once each and in order,
whatever time the calls have and however the bytes arrive. -/
theorem readResponses_frames (memory : Reader) {frames : List (List Byte × List Byte)}
    (h : ∀ frame ∈ frames, Sendable frame) (hbytes : bytes polls = wireFrames frames)
    (hread : bytes (readResponses calls (construct memory) polls).2.2 = []) :
    List.Forall₂ Carries (frames.filterMap fun frame => deliveredOfBody frame.2)
      (readResponses calls (construct memory) polls).1.reduceOption := by
  obtain ⟨taken, events, receiver, hmoves, htaken, hresponses⟩ :=
    readResponses_moves (rests_construct memory) calls polls
  rw [hread, List.append_nil, hbytes, wireFrames_eq] at htaken
  have hends := ends_symbolsOf h
  have hplain := unambiguous_frames hends
  have hrun := run_frames hends
  rw [htaken] at hplain hrun
  rw [run_of_moves hmoves hplain] at hrun
  rw [(Prod.mk.inj hrun).2, map_outcomeOf_symbolsOf h, delivered_outcomeOfBody] at hresponses
  exact hresponses

end XBee

namespace XBeeBrokerApiMode

open XBee XBeeResponse

/-! ### The reply of a device -/

/-- Data on its way from a device: an Rx frame with its addresses and options, and what
the port delivers in front of it. -/
structure RadioFrame where
  noise : List Byte
  header : List Byte
  data : List Byte

/-- The frame is one the module can send and the reader can take. -/
structure RadioFrame.Fits (frame : RadioFrame) : Prop where
  noise : startByte ∉ frame.noise
  header : frame.header.length = 11
  data : frame.data.length ≤ 95

instance (frame : RadioFrame) : Decidable frame.Fits :=
  decidable_of_iff
    (startByte ∉ frame.noise ∧ frame.header.length = 11 ∧ frame.data.length ≤ 95)
    ⟨fun h => ⟨h.1, h.2.1, h.2.2⟩, fun h => ⟨h.noise, h.header, h.data⟩⟩

/-- What is in the frame, from the API id on. -/
def RadioFrame.body (frame : RadioFrame) : List Byte :=
  rxResponseId :: (frame.header ++ frame.data)

/-- The response has this data. -/
def HasData (data : List Byte) (response : XBeeResponse) : Prop :=
  response.kind = .rxData ∧ response.Whole ∧ response.payload = data

theorem hasData_of_carries {frame : RadioFrame} (h : frame.Fits) {response : XBeeResponse}
    (hcarries : Carries (rxResponseId, frame.header ++ frame.data) response) :
    HasData frame.data response := by
  have hkind := kind_eq_rxData_iff.mpr hcarries.apiId
  have hlength : (frame.header ++ frame.data).length = frame.data.length + 11 := by
    rw [List.length_append, h.header, Nat.add_comm]
  have hpacket := hcarries.packetLength
  have hdata := hcarries.frameData
  rw [hlength] at hpacket hdata
  refine ⟨hkind, fun _ => by omega, ?_⟩
  rw [payload, if_pos hkind, hpacket]
  have hdrop : (response.frameData.drop 11).take frame.data.length
      = (response.frameData.take (frame.data.length + 11)).drop 11 := by
    rw [List.drop_take, Nat.add_sub_cancel]
  rw [show frame.data.length + 11 + 1 - 12 = frame.data.length by omega, hdrop, hdata]
  exact List.drop_left' h.header

/-- No end code has been received before the whole reply has, so the loop does not stop on
a part of it. -/
theorem not_bothCodes_of_prefix {value buffer : List Byte} (hvalue : endCode ∉ value)
    (hbegin : buffer <+: startCode :: value ++ [endCode])
    (hne : buffer ≠ startCode :: value ++ [endCode]) : ¬ BothCodes buffer := by
  have hfront : buffer <+: startCode :: value := by
    cases List.prefix_concat_iff.mp hbegin with
    | inl hall => exact absurd hall hne
    | inr hfront => exact hfront
  have hend : endCode ∉ buffer := by
    intro hmem
    cases List.mem_cons.mp (hfront.subset hmem) with
    | inl heq => exact absurd heq (by decide)
    | inr hmem => exact hvalue hmem
  have hnone : (visible buffer).findIdx? (· = endCode) = none := by
    rw [List.findIdx?_eq_none_iff]
    intro b hb
    have hmem := (visible_isPrefix buffer).subset hb
    simpa using fun heq : b = endCode => hend (heq ▸ hmem)
  intro hcodes
  have hpos := hcodes.2
  rw [findEndCodeIndex, findCodeIndex, hnone] at hpos
  exact absurd hpos (by decide)

/-- The loop of `recvData` ends with the last piece of the reply. -/
theorem recvLoop_pieces {value : List Byte} (hvalue : endCode ∉ value)
    (hlength : value.length + 2 < 2 ^ 31) {responses : List (Option XBeeResponse)}
    {pieces : List (List Byte)} {buffer : List Byte}
    (hpieces : List.Forall₂ HasData pieces responses.reduceOption)
    (hflatten : buffer ++ pieces.flatten = startCode :: value ++ [endCode])
    (hopen : buffer ≠ startCode :: value ++ [endCode]) :
    recvLoop buffer (responses.map .readPacket)
      = .ok (some (.succeed, true, true, startCode :: value ++ [endCode])) := by
  induction responses generalizing pieces buffer with
  | nil =>
      cases hpieces
      rw [List.flatten_nil, List.append_nil] at hflatten
      exact absurd hflatten hopen
  | cons response responses ih =>
      rw [List.map_cons]
      cases response with
      | none =>
          rw [recvLoop_none]
          exact ih hpieces hflatten hopen
      | some r =>
          cases hpieces with
          | @cons piece _ pieces _ hpiece hrest =>
              obtain ⟨hkind, hwhole, hpayload⟩ := hpiece
              rw [List.flatten_cons, ← List.append_assoc] at hflatten
              rw [recvLoop_frame hwhole, hpayload]
              by_cases hall : buffer ++ piece = startCode :: value ++ [endCode]
              · rw [hall, if_pos ⟨hkind, bothCodes_of_framed hlength⟩]
              · have hbegin : buffer ++ piece <+: startCode :: value ++ [endCode] :=
                  ⟨pieces.flatten, hflatten⟩
                rw [if_neg fun hcodes => not_bothCodes_of_prefix hvalue hbegin hall hcodes.2]
                exact ih hrest hflatten hall

/-- A reply between the two codes arrives as it was sent, however many radio frames carry
it, whatever stands between them, whenever their bytes arrive and whichever of the calls
run out of time. -/
theorem recvData_wireFrames (memory : Reader) {frames : List RadioFrame}
    (hfits : ∀ frame ∈ frames, frame.Fits) {value : List Byte} (hvalue : endCode ∉ value)
    (hlength : value.length + 2 < 2 ^ 31)
    (hreply : frames.flatMap (·.data) = startCode :: value ++ [endCode]) {polls : Polls}
    {calls : List Nat}
    (hbytes : bytes polls = wireFrames (frames.map fun frame => (frame.noise, frame.body)))
    (hread : bytes (readResponses calls (Reader.construct memory) polls).2.2 = []) :
    recvData [] ((readResponses calls (Reader.construct memory) polls).1.map .readPacket)
      = .ok (some (.succeed, value)) := by
  have hlengthBody : ∀ frame ∈ frames, frame.body.length + 3 ≤ maxFrameDataSize := by
    intro frame hframe
    have hheader := (hfits frame hframe).header
    have hdata := (hfits frame hframe).data
    simp only [RadioFrame.body, List.length_cons, List.length_append, maxFrameDataSize]
    omega
  have hsendable : ∀ sent ∈ frames.map fun frame => (frame.noise, frame.body), Sendable sent := by
    intro sent hsent
    obtain ⟨frame, hframe, rfl⟩ := List.mem_map.mp hsent
    have hlong := hlengthBody frame hframe
    rw [maxFrameDataSize] at hlong
    exact ⟨(hfits frame hframe).noise, List.cons_ne_nil _ _, by dsimp only; omega⟩
  have hresponses := readResponses_frames memory hsendable hbytes hread
  have hdelivered : (frames.map fun frame => (frame.noise, frame.body)).filterMap
      (fun frame => deliveredOfBody frame.2)
      = frames.map fun frame => (rxResponseId, frame.header ++ frame.data) := by
    rw [List.filterMap_map, ← List.filterMap_eq_map]
    refine List.filterMap_congr fun frame hframe => ?_
    exact if_pos (hlengthBody frame hframe)
  rw [hdelivered, List.forall₂_map_left_iff] at hresponses
  have hpieces : List.Forall₂ HasData (frames.map (·.data))
      (readResponses calls (Reader.construct memory) polls).1.reduceOption := by
    rw [List.forall₂_map_left_iff]
    exact ((List.forall₂_and_left _ _).mpr ⟨hfits, hresponses⟩).imp
      fun frame response h => hasData_of_carries h.1 h.2
  have hloop := recvLoop_pieces hvalue hlength hpieces hreply (List.cons_ne_nil _ _).symm
  rw [recvData_of_recvLoop hloop, if_neg (by simp)]
  simp

/-- `02 41`, noise, and `03`; the port falls silent within the second frame. -/
theorem recvData_wireFrames_two :
    recvData [] ((readResponses [1, 2, 2] (Reader.construct Reader.zeros)
      ((wireFrame (rxResponseId :: (rxHeader ++ [0x02, 0x41])) ++ [0x55, 0x7D, 0x7E]).map some
        ++ [none]
        ++ (wireFrame (rxResponseId :: (rxHeader ++ [0x03]))).tail.map some)).1.map .readPacket)
      = .ok (some (.succeed, [0x41])) :=
  recvData_wireFrames Reader.zeros
    (show ∀ frame ∈ [⟨[], rxHeader, [0x02, 0x41]⟩, ⟨[0x55, 0x7D], rxHeader, [0x03]⟩],
      RadioFrame.Fits frame by decide) (by decide) (by decide) rfl (by decide +kernel)
    (by decide +kernel)

end XBeeBrokerApiMode

end IoTRepublic
