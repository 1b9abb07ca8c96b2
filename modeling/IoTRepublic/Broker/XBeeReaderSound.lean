import IoTRepublic.Broker.XBeeReaderSpec

/-!
# IoTRepublic.Broker.XBeeReaderSound

What calls of `readPacket` make of the bytes the serial port delivers.

On a stream of frames the outcome does not depend on when the bytes arrive and when the
calls are made (`readPackets_eq_run`): every frame that fits into the array is delivered
(`readPackets_frames`), after any earlier bytes from the second frame on at the latest
(`readPackets_resync`). On any stream, what is delivered has been received, and with a
checksum that is right (`readPackets_found`).

The receiver of frames (`Lib.Delimited`) is what these results are read off: what it makes
of a row of frames, and that it finds its place again behind any bytes. One thing is
peculiar to this reader. An escape byte takes the next byte with it, whatever that is,
unless the port falls silent in between; then it is tested like any other. On streams
where no escape byte within a frame stands in front of a start byte or another escape byte
(`Unambiguous`) the two agree.
-/

namespace IoTRepublic

open Cpp

namespace XBee

open Receiver

variable {memory : Reader} {polls : Polls} {n : Nat}

/-! ### Frames on the wire -/

/-- A frame as the module sends it. -/
def wireFrame (body : List Byte) : List Byte := startByte :: apiMode2.escape (frameOf body).tail

/-- What `readPacket` makes of the frame with this body: a response, if the array has room
for it, and else the error that tells so. -/
def outcomeOfBody (body : List Byte) : Outcome :=
  if body.length + 3 ≤ maxFrameDataSize then .frame (body.headD 0) body.tail
  else .error packetExceedsByteArrayLength

/-- How the frame with this body ends for the receiver: with its checksum, or one symbol
behind the end of the array. -/
def eventOfBody (body : List Byte) : FrameEvent Byte :=
  if body.length + 3 ≤ maxFrameDataSize then .accepted (frameOf body).tail
  else .rejected ((frameOf body).tail.take (maxFrameDataSize + 1))

theorem wireFrame_eq (body : List Byte) :
    wireFrame body = wire frameFormat (frameOf body).tail := rfl

theorem length_frameOf_tail (body : List Byte) : (frameOf body).tail.length = body.length + 3 := by
  simp [frameOf]

theorem outcomeOf_eventOfBody {body : List Byte} (hne : body ≠ []) :
    outcomeOf (eventOfBody body) = outcomeOfBody body := by
  rw [eventOfBody, outcomeOfBody]
  split
  · cases body with
    | nil => exact absurd rfl hne
    | cons a data => simp [outcomeOf, frameOf]
  · rename_i hlong
    have hlength := length_frameOf_tail body
    rw [outcomeOf, if_pos]
    rw [List.length_take, hlength]
    omega

/-- Before its end a frame says nothing. -/
theorem judge_take {body : List Byte} (hlt : body.length < 256) {k : Nat}
    (hk : k ≤ maxFrameDataSize) (hne : k < body.length + 3) :
    judge ((frameOf body).tail.take k) = .more := by
  have hlength : ((frameOf body).tail.take k).length = k := by
    rw [List.length_take, length_frameOf_tail]
    omega
  rw [judge, hlength]
  split
  · rfl
  · rename_i hlong
    rw [if_neg (Nat.not_lt.mpr hk), if_neg]
    have hlsb : ((frameOf body).tail.take k).getD 1 0 = UInt8.ofNat body.length := by
      rw [List.getD_eq_getElem?_getD, List.getElem?_take_of_lt (by omega)]
      rfl
    rw [hlsb, UInt8.toNat_ofNat_of_lt' hlt]
    omega

/-- A frame ends with its checksum, or behind the end of the array. -/
theorem ends_frameOf {body : List Byte} (hne : body ≠ []) (hlt : body.length < 256) :
    frameFormat.Ends (frameOf body).tail (eventOfBody body) := by
  have hpos : 0 < body.length := List.length_pos_of_ne_nil hne
  have hlength := length_frameOf_tail body
  rw [eventOfBody]
  split
  · rename_i hfits
    refine ⟨body.length + 3, by omega, by omega, ?_, ?_⟩
    · have haccept : frameFormat.judge (frameOf body).tail = .accept := by
        show judge _ = _
        have hlsb : (frameOf body).tail.getD 1 0 = UInt8.ofNat body.length := rfl
        have hsum : byteSum ((frameOf body).tail.drop 2) = 0xFF := by
          show byteSum (body ++ [0xFF - byteSum body]) = 0xFF
          rw [byteSum_concat]
          grind
        rw [judge, hlength, if_neg (by omega), if_neg (Nat.not_lt.mpr hfits), hlsb,
          UInt8.toNat_ofNat_of_lt' hlt, if_pos rfl, if_pos hsum]
      rw [List.take_of_length_le (Nat.le_of_eq hlength), FrameFormat.eventOf, haccept]
    · intro j _ hj
      exact judge_take hlt (by omega) hj
  · rename_i hlong
    refine ⟨maxFrameDataSize + 1, Nat.succ_pos _, by omega, ?_, ?_⟩
    · have hreject : frameFormat.judge ((frameOf body).tail.take (maxFrameDataSize + 1))
          = .reject := by
        have htake : ((frameOf body).tail.take (maxFrameDataSize + 1)).length
            = maxFrameDataSize + 1 := by
          rw [List.length_take, hlength]
          omega
        show judge _ = _
        rw [judge, htake, if_neg (by decide), if_pos (Nat.lt_succ_self _)]
      rw [FrameFormat.eventOf, hreject]
    · intro j _ hj
      exact judge_take hlt (Nat.le_of_lt_succ hj) (by omega)

/-! ### Any schedule -/

open Reader

/-- The calls tell what happens to a receiver that takes the bytes one by one. -/
theorem readPackets_eq_run (memory : Reader) (hplain : Unambiguous frameFormat .idle (bytes polls))
    (hn : polls.length ≤ n) :
    (readPackets n (construct memory) polls).1
      = (run frameFormat .idle (bytes polls)).2.map outcomeOf := by
  obtain ⟨taken, events, receiver, hmoves, hbytes, houtcomes, -⟩ :=
    readPackets_moves (rests_construct memory) n polls
  rw [readPackets_exhausts hn, bytes_nil, List.append_nil] at hbytes
  rw [hbytes] at hplain ⊢
  rw [houtcomes, run_of_moves hmoves hplain]

/-- An escape byte, at which the port falls silent, and the byte behind it. -/
theorem readPackets_eq_run_escape :
    (readPackets 8 (construct zeros)
        [some 0x7E, some 0x00, some 0x02, some 0x8A, some 0x7D, none, some 0x31, some 0x64]).1
      = [.frame 0x8A [0x11]] :=
  (readPackets_eq_run zeros (by decide) (by decide)).trans (by decide +kernel)

/-- What is in front of a frame, and what is in it: no start byte in front, and a body of
1 to 255 bytes, since the reader drops the high byte of the length. -/
def Sendable (frame : List Byte × List Byte) : Prop :=
  startByte ∉ frame.1 ∧ frame.2 ≠ [] ∧ frame.2.length < 256

instance (frame : List Byte × List Byte) : Decidable (Sendable frame) :=
  inferInstanceAs (Decidable (_ ∧ _ ∧ _))

/-- The bytes of some frames as the module sends them, with something in front of each. -/
def wireFrames (frames : List (List Byte × List Byte)) : List Byte :=
  frames.flatMap fun frame => frame.1 ++ wireFrame frame.2

/-- The frames in terms of the format. -/
def symbolsOf (frames : List (List Byte × List Byte)) : List (List Byte × List Byte) :=
  frames.map fun frame => (frame.1, (frameOf frame.2).tail)

theorem wireFrames_eq (frames : List (List Byte × List Byte)) :
    wireFrames frames
      = (symbolsOf frames).flatMap fun frame => frame.1 ++ wire frameFormat frame.2 := by
  rw [symbolsOf, List.flatMap_map]
  rfl

/-- The frame is known from its symbols. -/
def eventOfSymbols (symbols : List Byte) : FrameEvent Byte :=
  eventOfBody ((symbols.drop 2).dropLast)

theorem eventOfSymbols_frameOf (body : List Byte) :
    eventOfSymbols (frameOf body).tail = eventOfBody body := by
  rw [eventOfSymbols]
  simp [frameOf]

theorem ends_symbolsOf {frames : List (List Byte × List Byte)}
    (h : ∀ frame ∈ frames, Sendable frame) :
    ∀ frame ∈ symbolsOf frames, frameFormat.start ∉ frame.1
      ∧ frameFormat.Ends frame.2 (eventOfSymbols frame.2) := by
  intro frame hframe
  obtain ⟨sent, hsent, rfl⟩ := List.mem_map.mp hframe
  obtain ⟨hnoise, hne, hlt⟩ := h sent hsent
  refine ⟨hnoise, ?_⟩
  rw [eventOfSymbols_frameOf]
  exact ends_frameOf hne hlt

theorem map_outcomeOf_symbolsOf {frames : List (List Byte × List Byte)}
    (h : ∀ frame ∈ frames, Sendable frame) :
    ((symbolsOf frames).map fun frame => eventOfSymbols frame.2).map outcomeOf
      = frames.map fun frame => outcomeOfBody frame.2 := by
  rw [symbolsOf, List.map_map, List.map_map]
  refine List.map_congr_left fun frame hframe => ?_
  show outcomeOf (eventOfSymbols (frameOf frame.2).tail) = _
  rw [eventOfSymbols_frameOf, outcomeOf_eventOfBody (h frame hframe).2.1]

/-- Every frame is delivered, or reported as too long, once and in its place. -/
theorem readPackets_frames (memory : Reader) {frames : List (List Byte × List Byte)}
    (h : ∀ frame ∈ frames, Sendable frame) (hbytes : bytes polls = wireFrames frames)
    (hn : polls.length ≤ n) :
    (readPackets n (construct memory) polls).1 = frames.map fun frame => outcomeOfBody frame.2 := by
  rw [wireFrames_eq] at hbytes
  have hends := ends_symbolsOf h
  rw [readPackets_eq_run memory (by rw [hbytes]; exact unambiguous_frames hends) hn, hbytes,
    run_frames hends]
  exact map_outcomeOf_symbolsOf h

/-- Noise, a modem status, and the same status again behind silence. -/
theorem readPackets_frames_twice :
    (readPackets 30 (construct zeros)
        (([0x00, 0x7D] ++ wireFrame [0x8A, 0x06]).map some ++ [none]
          ++ (wireFrame [0x8A, 0x06]).map some)).1
      = [.frame 0x8A [0x06], .frame 0x8A [0x06]] :=
  readPackets_frames zeros
    (show ∀ frame ∈ [([0x00, 0x7D], [0x8A, 0x06]), ([], [0x8A, 0x06])], Sendable frame by decide)
    (by decide) (by decide)

/-- Whatever has been received before, one frame may be lost, and the ones behind it are
not. -/
theorem readPackets_resync (memory : Reader) (earlier : Polls) (calls : Nat)
    {body : List Byte} {frames : List (List Byte × List Byte)} (hfirst : Sendable ([], body))
    (h : ∀ frame ∈ frames, Sendable frame)
    (hbytes : bytes polls = wireFrame body ++ wireFrames frames) (hn : polls.length ≤ n) :
    ∃ first, (first = outcomeOfBody body ∨ first = .error unexpectedStartByte)
      ∧ (readPackets n (readPackets calls (construct memory) earlier).2.1 polls).1
        = first :: frames.map fun frame => outcomeOfBody frame.2 := by
  obtain ⟨-, -, receiver, -, -, -, hrests⟩ :=
    readPackets_moves (rests_construct memory) calls earlier
  obtain ⟨taken, events, last, hmoves, htaken, houtcomes, -⟩ := readPackets_moves hrests n polls
  rw [readPackets_exhausts hn, bytes_nil, List.append_nil, hbytes, wireFrames_eq, wireFrame_eq]
    at htaken
  have hends := ends_symbolsOf h
  have hbody := ends_frameOf hfirst.2.1 hfirst.2.2
  obtain ⟨happened, hhappened, hrun⟩ := run_resync receiver hbody hends
  have hplain := unambiguous_wire receiver hbody (unambiguous_frames hends)
  rw [htaken] at hplain hrun
  rw [run_of_moves hmoves hplain] at hrun
  refine ⟨outcomeOf happened, ?_, ?_⟩
  · cases hhappened with
    | inl hfits => exact Or.inl (hfits ▸ outcomeOf_eventOfBody hfirst.2.1)
    | inr hlost => exact Or.inr (hlost ▸ rfl)
  · rw [houtcomes, (Prod.mk.inj hrun).2, List.map_cons, map_outcomeOf_symbolsOf h]

/-- A frame that has been torn off costs the one behind it. -/
theorem readPackets_resync_torn :
    ∃ first, (first = outcomeOfBody [0x8A, 0x06] ∨ first = .error unexpectedStartByte)
      ∧ (readPackets 30 (readPackets 1 (construct zeros) [some 0x7E, some 0x00, none]).2.1
          ((wireFrame [0x8A, 0x06] ++ wireFrame [0x8A, 0x02]).map some)).1
        = [first, .frame 0x8A [0x02]] :=
  readPackets_resync zeros _ 1 (by decide)
    (show ∀ frame ∈ [([], [0x8A, 0x02])], Sendable frame by decide) (by decide) (by decide)

/-! ### Any bytes -/

/-- The frames that have been delivered: errors are left out, and so is silence. -/
def delivered (outcomes : List Outcome) : List (Byte × List Byte) :=
  outcomes.filterMap fun
    | .frame apiId frameData => some (apiId, frameData)
    | .error _ => none

/-- The bytes behind a start byte spell the frame, its length and a checksum that is
right. -/
def SpellsFrame (read : List Byte) (frame : Byte × List Byte) : Prop :=
  ∃ msb checksum, Spells frameFormat read
      (msb :: UInt8.ofNat (frame.2.length + 1) :: frame.1 :: frame.2 ++ [checksum])
    ∧ frame.2.length + 4 ≤ maxFrameDataSize
    ∧ byteSum (frame.1 :: frame.2 ++ [checksum]) = 0xFF

/-- What is accepted has the shape of a frame. -/
theorem exists_of_accept {symbols : List Byte} (h : judge symbols = .accept) :
    ∃ msb a data checksum,
      symbols = msb :: UInt8.ofNat (data.length + 1) :: a :: data ++ [checksum]
        ∧ data.length + 4 ≤ maxFrameDataSize ∧ byteSum (a :: data ++ [checksum]) = 0xFF := by
  match symbols with
  | [] => cases h
  | [_] => cases h
  | [_, _] => cases h
  | msb :: lsb :: a :: rest =>
      have hlength : (msb :: lsb :: a :: rest).length = rest.length + 3 := rfl
      have hlsb : (msb :: lsb :: a :: rest).getD 1 0 = lsb := rfl
      rw [judge, hlength, hlsb] at h
      split at h
      · cases h
      · rename_i hlong
        split at h
        · cases h
        · rename_i hfits
          split at h
          · rename_i hend
            split at h
            · rename_i hsum
              cases List.eq_nil_or_concat rest with
              | inl hnil =>
                  rw [hnil] at hlong
                  exact absurd (Nat.le_refl 3) hlong
              | inr hconcat =>
                  obtain ⟨data, checksum, rfl⟩ := hconcat
                  rw [List.concat_eq_append, List.length_append, List.length_singleton]
                    at hend hfits
                  refine ⟨msb, a, data, checksum, ?_, by omega, ?_⟩
                  · rw [show data.length + 1 = lsb.toNat by omega, UInt8.ofNat_toNat,
                      List.concat_eq_append]
                    rfl
                  · rw [List.concat_eq_append] at hsum
                    exact hsum
            · cases h
          · cases h

theorem delivered_map_outcomeOf (events : List (FrameEvent Byte)) :
    delivered (events.map outcomeOf)
      = (acceptedOf events).map fun symbols => (symbols.getD 2 0, (symbols.drop 3).dropLast) := by
  induction events with
  | nil => rfl
  | cons event events ih =>
      cases event with
      | accepted symbols => simpa [delivered, acceptedOf, outcomeOf] using ih
      | rejected symbols => simpa [delivered, acceptedOf, outcomeOf] using ih
      | interrupted => simpa [delivered, acceptedOf, outcomeOf] using ih

/-- Whatever the port delivers, and however the calls are made: the frames that come out
have come in, one behind the other, each behind a start byte and with a checksum that is
right. -/
theorem readPackets_found (memory : Reader) (n : Nat) (polls : Polls) :
    ∃ (pieces : List (List Byte × List Byte)) (rest : List Byte),
      bytes polls = (pieces.flatMap fun piece => piece.1 ++ startByte :: piece.2) ++ rest
        ∧ List.Forall₂ (fun piece frame => SpellsFrame piece.2 frame) pieces
          (delivered (readPackets n (construct memory) polls).1) := by
  obtain ⟨taken, events, receiver, hmoves, hbytes, houtcomes, -⟩ :=
    readPackets_moves (rests_construct memory) n polls
  have hfirst : FoundIn frameFormat [] [] .idle := ⟨[], [], rfl, .nil, trivial⟩
  obtain ⟨pieces, rest, htaken, hpieces, -⟩ := foundIn_of_moves hfirst hmoves
  rw [List.nil_append] at htaken hpieces
  refine ⟨pieces, rest ++ bytes (readPackets n (construct memory) polls).2.2, ?_, ?_⟩
  · rw [hbytes, htaken, List.append_assoc]
    rfl
  · rw [houtcomes, delivered_map_outcomeOf, List.forall₂_map_right_iff]
    refine hpieces.imp fun piece symbols hsymbols => ?_
    obtain ⟨hspells, hwhole⟩ := hsymbols
    obtain ⟨msb, a, data, checksum, rfl, hfits, hsum⟩ := exists_of_accept hwhole.accept
    have hdata : ((msb :: UInt8.ofNat (data.length + 1) :: a :: data ++ [checksum]).drop 3).dropLast
        = data := List.dropLast_concat
    rw [hdata]
    exact ⟨msb, checksum, hspells, hfits, hsum⟩

end XBee

end IoTRepublic
