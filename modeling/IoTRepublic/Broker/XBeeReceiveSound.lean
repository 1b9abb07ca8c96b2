import IoTRepublic.Broker.XBeeBroker

/-!
# IoTRepublic.Broker.XBeeReceiveSound

What the two loops that read frames make of any row of frames.

`getResponse` stops at the second status or data frame, whichever they are, and
reports success as soon as one of the two went well. `recvData` removes the first and
the last byte of its buffer, whether it has found the codes or not.

Both loops are followed through every row of reads: frames of any kind, rounds in which
nothing is read, and the end of the time. Each has one lemma for a round that reads a
frame and one for the ways the loop can end (`getResponseFrom_cases`, `recvLoop_cases`);
the exact conditions are read off the latter. A frame that is shorter than its addresses
takes the copy out of the array, in both loops, and there is nothing to be said about what
follows.
-/

namespace IoTRepublic

open Cpp

/-! ### Frames -/

/-- What a frame is to the loops: data, a status with or without success, or nothing that
counts. -/
inductive FrameKind
  | rxData
  | txSuccess
  | txFailure
  | other
  deriving DecidableEq, Repr

namespace XBeeResponse

def kind (r : XBeeResponse) : FrameKind :=
  if r.apiId = rxResponseId then .rxData
  else if r.apiId = txStatusId then
    if r.getStatus = XBee.success then .txSuccess else .txFailure
  else .other

/-- The data of an Rx frame: what comes after its addresses and options. -/
def payload (r : XBeeResponse) : List Byte :=
  if r.kind = .rxData then (r.frameData.drop 11).take (r.packetLength - 12) else []

/-- An Rx frame has its addresses and options. -/
def Whole (r : XBeeResponse) : Prop := r.kind = .rxData → 12 ≤ r.packetLength

instance (r : XBeeResponse) : Decidable r.Whole := inferInstanceAs (Decidable (_ → _))

/-- What has been received of a frame, from the first byte after the API id. -/
def ofFrame (apiId : Byte) (frame : List Byte) (h : frame.length ≤ 106) : XBeeResponse where
  apiId := apiId
  packetLength := frame.length + 1
  frameData := frame ++ List.replicate (110 - frame.length) 0
  packetLength_pos := Nat.succ_pos _
  packetLength_le := by
    show frame.length + 1 + 3 ≤ 110
    omega
  frameData_length := by
    rw [List.length_append, List.length_replicate]
    show frame.length + (110 - frame.length) = 110
    omega

theorem txStatusId_ne : txStatusId ≠ rxResponseId := by decide

theorem kind_eq_rxData_iff {r : XBeeResponse} : r.kind = .rxData ↔ r.apiId = rxResponseId := by
  rw [kind]
  by_cases hrx : r.apiId = rxResponseId
  · simp [hrx]
  · rw [if_neg hrx]
    split
    · split <;> simp [hrx]
    · simp [hrx]

theorem getDataLength_toNat (r : XBeeResponse) :
    r.getDataLength.toNat = (r.packetLength + 244) % 256 := by
  rw [getDataLength, UInt8.toNat_sub, UInt8.toNat_sub, UInt8.toNat_ofNat']
  show (2 ^ 8 - 1 + (2 ^ 8 - 11 + r.packetLength % 2 ^ 8) % 2 ^ 8) % 2 ^ 8 = _
  omega

theorem readData_of_le {r : XBeeResponse} (hkind : r.kind = .rxData) (h : 12 ≤ r.packetLength) :
    r.readData = .ok r.payload := by
  have hle := r.packetLength_le
  have hframe := r.frameData_length
  rw [XBee.maxFrameDataSize] at hle hframe
  have hlength : r.getDataLength.toNat = r.packetLength - 12 := by
    rw [getDataLength_toNat]
    omega
  rw [readData, hlength, payload, if_pos hkind]
  exact derefRange_eq (by show 11 + _ ≤ _; omega)

/-- The length of the data wraps around, and the loop leaves the array. -/
theorem readData_of_lt {r : XBeeResponse} (h : r.packetLength < 12) :
    r.readData = .error .undefinedBehaviour := by
  have hpos := r.packetLength_pos
  have hframe := r.frameData_length
  rw [XBee.maxFrameDataSize] at hframe
  have hlength : r.getDataLength.toNat = r.packetLength + 244 := by
    rw [getDataLength_toNat]
    omega
  rw [readData, hlength]
  apply derefRange_of_lt
  · show 11 ≤ _
    omega
  · show _ < 11 + _
    omega

/-- A frame with this delivery status. -/
def txFrame (status : Byte) : XBeeResponse :=
  ofFrame txStatusId [0x01, 0xFF, 0xFE, 0x00, status, 0x00] (by simp)

/-- The addresses and options of an Rx frame. -/
def rxHeader : List Byte :=
  [0x00, 0x13, 0xA2, 0x00, 0x40, 0xB0, 0xA1, 0xC2, 0x12, 0x34, 0x01]

/-- A frame with this data. -/
def rxFrame (data : List Byte) (h : data.length ≤ 95) : XBeeResponse :=
  ofFrame rxResponseId (rxHeader ++ data) (by
    rw [List.length_append]
    exact Nat.add_le_add_left h 11)

theorem payload_rxFrame {data : List Byte} (h : data.length ≤ 95) :
    (rxFrame data h).payload = data := by
  have hlength : (rxHeader ++ data).length + 1 - 12 = data.length := by
    rw [List.length_append]
    show 11 + data.length + 1 - 12 = _
    omega
  have hkind : (rxFrame data h).kind = .rxData := rfl
  rw [payload, if_pos hkind]
  show ((rxHeader ++ data ++ _).drop rxHeader.length).take ((rxHeader ++ data).length + 1 - 12) = _
  rw [hlength, List.append_assoc, List.drop_left, List.take_left]

theorem whole_rxFrame {data : List Byte} (h : data.length ≤ 95) : (rxFrame data h).Whole := by
  intro _
  show 12 ≤ (rxHeader ++ data).length + 1
  rw [List.length_append]
  show 12 ≤ 11 + data.length + 1
  omega

end XBeeResponse

namespace XBeeBrokerApiMode

open XBeeResponse

/-! ### Request and response -/

/-- The frames `getResponse` reads while it waits for `n` more. -/
def framesRead : Nat → List XBeeRead → List XBeeResponse
  | 0, _ => []
  | _, [] => []
  | _, .expired :: _ => []
  | n + 1, .readPacket none :: reads => framesRead (n + 1) reads
  | n + 1, .readPacket (some r) :: reads =>
    r :: framesRead (if r.kind = .other then n + 1 else n) reads

/-- The kinds of the frames that count. -/
def answers (frames : List XBeeResponse) : List FrameKind :=
  (frames.map kind).filter (· ≠ .other)

/-- Success means that the request has been delivered and answered. -/
structure PairsResponses (recvBuffer : List Byte) (reads : List XBeeRead) : Prop where
  returns : Returns (getResponse recvBuffer reads)
  succeed {buffer : List Byte}
    (hsucceed : getResponse recvBuffer reads = .ok (some (.succeed, buffer))) :
    (∃ r ∈ framesRead 2 reads, r.kind = .txSuccess)
      ∧ (∃ r ∈ framesRead 2 reads, r.kind = .rxData)
      ∧ (∀ r ∈ framesRead 2 reads, r.kind ≠ .txFailure)
      ∧ buffer = recvBuffer ++ (framesRead 2 reads).flatMap payload

/-- `result` after a frame: data and a status with success set it, and nothing takes that
back. -/
def heard (result : RecvResult) (r : XBeeResponse) : RecvResult :=
  if r.kind = .rxData ∨ r.kind = .txSuccess then .succeed else result

/-- One round that reads a frame: what it holds is appended, and the loop ends with the
second frame that counts. -/
theorem getResponseFrom_frame {r : XBeeResponse} (h : r.Whole) (result : RecvResult)
    (responseCount : Nat) (recvBuffer : List Byte) (reads : List XBeeRead) :
    getResponseFrom result responseCount recvBuffer (.readPacket (some r) :: reads)
      = if (if r.kind = .other then responseCount else responseCount + 1) = 2 then
          .ok (some (heard result r, recvBuffer ++ r.payload))
        else
          getResponseFrom (heard result r)
            (if r.kind = .other then responseCount else responseCount + 1)
            (recvBuffer ++ r.payload) reads := by
  rw [getResponseFrom]
  by_cases hrx : r.apiId = rxResponseId
  · have hkind := kind_eq_rxData_iff.mpr hrx
    simp [hrx, hkind, heard, readData_of_le hkind (h hkind), ok_bind]
  · have hpayload : r.payload = [] := if_neg fun hkind => hrx (kind_eq_rxData_iff.mp hkind)
    rw [hpayload, List.append_nil]
    by_cases htx : r.apiId = txStatusId
    · by_cases hstatus : r.getStatus = XBee.success
      · have hkind : r.kind = .txSuccess := by simp [kind, htx, hstatus, txStatusId_ne]
        simp [htx, hstatus, hkind, heard, txStatusId_ne]
      · have hkind : r.kind = .txFailure := by simp [kind, htx, hstatus, txStatusId_ne]
        simp [htx, hstatus, hkind, heard, txStatusId_ne]
    · have hkind : r.kind = .other := by simp [kind, htx, hrx]
      simp [hrx, htx, hkind, heard]

theorem getResponseFrom_of_not_whole {r : XBeeResponse} (h : ¬ r.Whole) (result : RecvResult)
    (responseCount : Nat) (recvBuffer : List Byte) (reads : List XBeeRead) :
    getResponseFrom result responseCount recvBuffer (.readPacket (some r) :: reads)
      = .error .undefinedBehaviour := by
  rw [Whole, Classical.not_imp, Nat.not_le, kind_eq_rxData_iff] at h
  simp [getResponseFrom, h.1, readData_of_lt h.2]

theorem answers_of_other {r : XBeeResponse} (h : r.kind = .other) (frames : List XBeeResponse) :
    answers (r :: frames) = answers frames := by
  simp [answers, h]

theorem answers_of_ne {r : XBeeResponse} (h : r.kind ≠ .other) (frames : List XBeeResponse) :
    answers (r :: frames) = r.kind :: answers frames := by
  simp [answers, h]

theorem framesRead_zero (reads : List XBeeRead) : framesRead 0 reads = [] := by
  cases reads <;> rfl

/-- How the loop ends: outside the array, with enough frames that counted, or at the
time limit if it ends at all. -/
theorem getResponseFrom_cases {n responseCount : Nat} (hcount : responseCount + (n + 1) = 2)
    (result : RecvResult) (recvBuffer : List Byte) (reads : List XBeeRead) :
    (getResponseFrom result responseCount recvBuffer reads = .error .undefinedBehaviour
      ∧ ¬ ∀ r ∈ framesRead (n + 1) reads, r.Whole)
    ∨ (getResponseFrom result responseCount recvBuffer reads
        = .ok (some ((framesRead (n + 1) reads).foldl heard result,
          recvBuffer ++ (framesRead (n + 1) reads).flatMap payload))
      ∧ (∀ r ∈ framesRead (n + 1) reads, r.Whole)
      ∧ (answers (framesRead (n + 1) reads)).length = n + 1)
    ∨ ((∃ outcome, getResponseFrom result responseCount recvBuffer reads = .ok outcome
        ∧ ∀ buffer, outcome ≠ some (.succeed, buffer))
      ∧ (∀ r ∈ framesRead (n + 1) reads, r.Whole)
      ∧ (answers (framesRead (n + 1) reads)).length < n + 1) := by
  induction reads generalizing n responseCount result recvBuffer with
  | nil => exact Or.inr (Or.inr ⟨⟨none, rfl, by simp⟩, by simp [framesRead], Nat.succ_pos n⟩)
  | cons read reads ih =>
      cases read with
      | expired =>
          exact Or.inr (Or.inr ⟨⟨_, rfl, by simp⟩, by simp [framesRead], Nat.succ_pos n⟩)
      | readPacket response =>
          cases response with
          | none =>
              have hround : getResponseFrom result responseCount recvBuffer
                  (.readPacket none :: reads)
                  = getResponseFrom result responseCount recvBuffer reads := by
                rw [getResponseFrom]
                exact if_neg (by omega)
              rw [hround, framesRead]
              exact ih hcount result recvBuffer
          | some r =>
              by_cases hr : r.Whole
              · rw [getResponseFrom_frame hr, framesRead, List.forall_mem_cons,
                  and_iff_right hr, List.foldl_cons, List.flatMap_cons, ← List.append_assoc]
                by_cases hkind : r.kind = .other
                · rw [if_pos hkind, if_pos hkind, if_neg (by omega), answers_of_other hkind]
                  exact ih hcount (heard result r) (recvBuffer ++ r.payload)
                · rw [if_neg hkind, if_neg hkind, answers_of_ne hkind, List.length_cons]
                  cases n with
                  | zero =>
                      rw [framesRead_zero, if_pos (by omega)]
                      exact Or.inr (Or.inl ⟨by simp, by simp, rfl⟩)
                  | succ n =>
                      rw [if_neg (by omega), Nat.add_lt_add_iff_right, Nat.add_right_cancel_iff]
                      exact ih (by omega) (heard result r) (recvBuffer ++ r.payload)
              · refine Or.inl ⟨getResponseFrom_of_not_whole hr _ _ _ _, fun hwhole => ?_⟩
                exact hr (hwhole r List.mem_cons_self)

theorem mem_answers_iff {frames : List XBeeResponse} {k : FrameKind} :
    k ∈ answers frames ↔ k ≠ .other ∧ ∃ r ∈ frames, r.kind = k := by
  simp [answers, and_comm]

theorem foldl_heard_eq_succeed_iff {result : RecvResult} {frames : List XBeeResponse} :
    frames.foldl heard result = .succeed
      ↔ result = .succeed ∨ .rxData ∈ answers frames ∨ .txSuccess ∈ answers frames := by
  simp only [mem_answers_iff]
  induction frames generalizing result with
  | nil => simp
  | cons r frames ih =>
      rw [List.foldl_cons, ih]
      by_cases hkind : r.kind = .rxData ∨ r.kind = .txSuccess
      · rw [heard, if_pos hkind]
        cases hkind with
        | inl hrx => simp [hrx]
        | inr htx => simp [htx]
      · rw [heard, if_neg hkind]
        rw [not_or] at hkind
        simp [hkind.1, hkind.2]

/-- Two frames that are an answer, or that are none: a delivery and data in either order,
or two failed deliveries. Any other two are counted just as well. -/
def Paired (frames : List XBeeResponse) : Prop :=
  (∀ r ∈ frames, r.Whole) ∧ ((answers frames).length = 2 →
    answers frames = [.txSuccess, .rxData] ∨ answers frames = [.rxData, .txSuccess]
      ∨ answers frames = [.txFailure, .txFailure])

/-- Of two kinds, what was promised for a success and what `Paired` says. -/
theorem paired_iff {kinds : List FrameKind} (hlength : kinds.length = 2)
    (hother : .other ∉ kinds) :
    ((.rxData ∈ kinds ∨ .txSuccess ∈ kinds) →
        .txSuccess ∈ kinds ∧ .rxData ∈ kinds ∧ .txFailure ∉ kinds)
      ↔ kinds = [.txSuccess, .rxData] ∨ kinds = [.rxData, .txSuccess]
        ∨ kinds = [.txFailure, .txFailure] := by
  obtain ⟨a, b, rfl⟩ := List.length_eq_two.mp hlength
  revert hother
  cases a <;> cases b <;> decide

/-- What success stands for, once two frames have counted. -/
theorem heard_iff_paired {frames : List XBeeResponse} (hlength : (answers frames).length = 2) :
    (frames.foldl heard .failed = .succeed →
        (∃ r ∈ frames, r.kind = .txSuccess) ∧ (∃ r ∈ frames, r.kind = .rxData)
        ∧ ∀ r ∈ frames, r.kind ≠ .txFailure)
      ↔ answers frames = [.txSuccess, .rxData] ∨ answers frames = [.rxData, .txSuccess]
        ∨ answers frames = [.txFailure, .txFailure] := by
  rw [← paired_iff hlength (by simp [mem_answers_iff]), foldl_heard_eq_succeed_iff]
  simp [mem_answers_iff]

/-- Success is reported rightly exactly where the first two frames that count are a
delivery and data, or two failed deliveries. -/
theorem pairsResponses_iff (recvBuffer : List Byte) (reads : List XBeeRead) :
    PairsResponses recvBuffer reads ↔ Paired (framesRead 2 reads) := by
  rcases getResponseFrom_cases (n := 1) rfl .failed recvBuffer reads with
    ⟨hfault, hshort⟩ | ⟨hanswered, hwhole, hlength⟩ | ⟨⟨outcome, hopen, hnone⟩, hwhole, hlength⟩
  · refine iff_of_false (fun h => ?_) fun h => hshort h.1
    obtain ⟨outcome, hreturns⟩ := h.returns
    rw [getResponse, hfault] at hreturns
    cases hreturns
  · rw [Paired, and_iff_right hwhole, forall_prop_of_true hlength, ← heard_iff_paired hlength]
    constructor
    · intro h hheard
      obtain ⟨htx, hrx, hfailure, -⟩ := h.succeed (hanswered.trans (by rw [hheard]))
      exact ⟨htx, hrx, hfailure⟩
    · intro hpaired
      refine ⟨⟨_, hanswered⟩, ?_⟩
      intro buffer hsucceed
      have heq := hanswered.symm.trans hsucceed
      obtain ⟨hresult, rfl⟩ := Prod.mk.inj (Option.some.inj (Except.ok.inj heq))
      obtain ⟨htx, hrx, hfailure⟩ := hpaired hresult
      exact ⟨htx, hrx, hfailure, rfl⟩
  · refine iff_of_true ⟨⟨_, hopen⟩, ?_⟩ ⟨hwhole, fun h => absurd h hlength.ne⟩
    intro buffer hsucceed
    exact absurd (Except.ok.inj (hopen.symm.trans hsucceed)) (hnone buffer)

/-- The status of a request the network has not acknowledged, and data of the device:
`02 41 03`. -/
def undelivered : List XBeeRead :=
  [.readPacket (some (txFrame 0x21)),
    .readPacket (some (rxFrame [0x02, 0x41, 0x03] (by decide)))]

theorem not_pairsResponses_undelivered : ¬ PairsResponses [] undelivered := by
  intro h
  have hget : getResponse [] undelivered = .ok (some (.succeed, [0x02, 0x41, 0x03])) := by
    decide +kernel
  exact absurd (h.succeed hget).2.2.1 (by decide +kernel)

/-! ### Start and end codes -/

/-- The test of `recvData`: a start code anywhere, and an end code anywhere but in
front. -/
def BothCodes (buffer : List Byte) : Prop :=
  0 ≤ findStartCodeIndex buffer ∧ 0 < findEndCodeIndex buffer

instance (buffer : List Byte) : Decidable (BothCodes buffer) :=
  inferInstanceAs (Decidable (_ ∧ _))

/-- The codes are the first and the last byte, which is what removing the two
presupposes. -/
def Framed (buffer : List Byte) : Prop :=
  ∃ value, buffer = startCode :: value ++ [endCode]

/-- What `recvData` has in its buffer when its loop ends: the data of the Rx frames, up
to the one that completes the codes. -/
def accumulated : List Byte → List XBeeRead → List Byte
  | buffer, [] => buffer
  | buffer, .expired :: _ => buffer
  | buffer, .readPacket none :: reads => accumulated buffer reads
  | buffer, .readPacket (some r) :: reads =>
    if r.kind = .rxData ∧ BothCodes (buffer ++ r.payload) then buffer ++ r.payload
    else accumulated (buffer ++ r.payload) reads

/-- The data completes the codes before the time limit, as the first and the last byte.
Until then the loop has not stopped: its test holds once both codes have come, wherever
they stand. -/
def FramedInTime : List Byte → List XBeeRead → Prop
  | _, [] => True
  | _, .expired :: _ => False
  | buffer, .readPacket none :: reads => FramedInTime buffer reads
  | buffer, .readPacket (some r) :: reads =>
    r.Whole ∧
      if r.kind = .rxData ∧ BothCodes (buffer ++ r.payload) then Framed (buffer ++ r.payload)
      else FramedInTime (buffer ++ r.payload) reads

/-- `recvData` removes the codes, and nothing but the codes. -/
structure StripsCodes (dataBuffer : List Byte) (reads : List XBeeRead) : Prop where
  returns : Returns (recvData dataBuffer reads)
  succeed {buffer : List Byte}
    (hsucceed : recvData dataBuffer reads = .ok (some (.succeed, buffer))) :
    startCode :: buffer ++ [endCode] = accumulated dataBuffer reads
  timeout {buffer : List Byte}
    (htimeout : recvData dataBuffer reads = .ok (some (.timeout, buffer))) :
    buffer = accumulated dataBuffer reads
  /-- The caller goes on with two bytes at least. -/
  checked {buffer : List Byte}
    (hsucceed : recvData dataBuffer reads = .ok (some (.succeed, buffer)))
    (handshake : Handshake) :
    2 ≤ buffer.length ∨ handleAttempt handshake (.reply buffer) = .error .outOfRange

theorem bothCodes_of_framed {value : List Byte} (h : value.length + 2 < 2 ^ 31) :
    BothCodes (startCode :: value ++ [endCode]) := by
  have hvisible : visible (startCode :: value ++ [endCode]) = startCode :: value ++ [endCode] :=
    visible_of_lt (by simpa using h)
  rw [BothCodes, findStartCodeIndex, findEndCodeIndex, findCodeIndex, findCodeIndex, hvisible]
  simp [List.findIdx?_cons, startCode, endCode]

/-- One round that reads a frame: what it holds is appended, and the test is made after an
Rx frame only. -/
theorem recvLoop_frame {r : XBeeResponse} (h : r.Whole) (dataBuffer : List Byte)
    (reads : List XBeeRead) :
    recvLoop dataBuffer (.readPacket (some r) :: reads)
      = if r.kind = .rxData ∧ BothCodes (dataBuffer ++ r.payload) then
          .ok (some (.succeed, true, true, dataBuffer ++ r.payload))
        else recvLoop (dataBuffer ++ r.payload) reads := by
  rw [recvLoop]
  by_cases hrx : r.apiId = rxResponseId
  · have hkind := kind_eq_rxData_iff.mpr hrx
    simp [recvResponse, hrx, hkind, readData_of_le hkind (h hkind), BothCodes]
  · have hkind : r.kind ≠ .rxData := fun hkind => hrx (kind_eq_rxData_iff.mp hkind)
    simp [recvResponse, hrx, hkind, payload]

theorem recvLoop_of_not_whole {r : XBeeResponse} (h : ¬ r.Whole) (dataBuffer : List Byte)
    (reads : List XBeeRead) :
    recvLoop dataBuffer (.readPacket (some r) :: reads) = .error .undefinedBehaviour := by
  rw [Whole, Classical.not_imp, Nat.not_le, kind_eq_rxData_iff] at h
  simp [recvLoop, recvResponse, h.1, readData_of_lt h.2]

/-- A round in which nothing is read. -/
theorem recvLoop_none (dataBuffer : List Byte) (reads : List XBeeRead) :
    recvLoop dataBuffer (.readPacket none :: reads) = recvLoop dataBuffer reads := by
  rw [recvLoop, recvResponse, pure_bind]
  exact if_neg (by simp)

/-- How the loop ends: outside the array, not yet, at the time limit, or with both
codes. -/
theorem recvLoop_cases (dataBuffer : List Byte) (reads : List XBeeRead) :
    (recvLoop dataBuffer reads = .error .undefinedBehaviour ∧ ¬ FramedInTime dataBuffer reads)
      ∨ (recvLoop dataBuffer reads = .ok none ∧ FramedInTime dataBuffer reads)
      ∨ (recvLoop dataBuffer reads
          = .ok (some (.timeout, false, false, accumulated dataBuffer reads))
        ∧ ¬ FramedInTime dataBuffer reads)
      ∨ (recvLoop dataBuffer reads
          = .ok (some (.succeed, true, true, accumulated dataBuffer reads))
        ∧ (FramedInTime dataBuffer reads ↔ Framed (accumulated dataBuffer reads))) := by
  induction reads generalizing dataBuffer with
  | nil => exact Or.inr (Or.inl ⟨rfl, trivial⟩)
  | cons read reads ih =>
      cases read with
      | expired => exact Or.inr (Or.inr (Or.inl ⟨rfl, id⟩))
      | readPacket response =>
          cases response with
          | none =>
              rw [recvLoop_none]
              exact ih dataBuffer
          | some r =>
              by_cases hwhole : r.Whole
              · rw [recvLoop_frame hwhole, accumulated, FramedInTime, and_iff_right hwhole]
                by_cases hcodes : r.kind = .rxData ∧ BothCodes (dataBuffer ++ r.payload)
                · rw [if_pos hcodes, if_pos hcodes, if_pos hcodes]
                  exact Or.inr (Or.inr (Or.inr ⟨rfl, Iff.rfl⟩))
                · rw [if_neg hcodes, if_neg hcodes, if_neg hcodes]
                  exact ih (dataBuffer ++ r.payload)
              · exact Or.inl ⟨recvLoop_of_not_whole hwhole _ _, fun h => hwhole h.1⟩

/-- Whatever the loop has found, the first and the last byte are removed. -/
theorem recvData_of_recvLoop {dataBuffer buffer : List Byte} {reads : List XBeeRead}
    {res : RecvResult} {code : Bool}
    (h : recvLoop dataBuffer reads = .ok (some (res, code, code, buffer))) :
    recvData dataBuffer reads
      = if buffer.length < 2 then .error .undefinedBehaviour
        else .ok (some (res, buffer.tail.dropLast)) := by
  rw [recvData, h, ok_bind]
  simp only [beq_self_eq_true, if_true]
  match buffer with
  | [] => rfl
  | [_] => rfl
  | _ :: _ :: _ =>
      rw [if_neg (by simp)]
      rfl

theorem handleAttempt_reply (handshake : Handshake) (buffer : List Byte) :
    2 ≤ buffer.length ∨ handleAttempt handshake (.reply buffer) = .error .outOfRange := by
  by_cases hlength : 2 ≤ buffer.length
  · exact Or.inl hlength
  · refine Or.inr ?_
    rw [handleAttempt, vectorAt, if_pos (by omega)]
    rfl

theorem framed_length {buffer : List Byte} (h : Framed buffer) : 2 ≤ buffer.length := by
  obtain ⟨value, rfl⟩ := h
  simp

/-- A loop that has ended with both codes. -/
theorem stripsCodes_iff_framed {dataBuffer : List Byte} {reads : List XBeeRead}
    (hfound : recvLoop dataBuffer reads
      = .ok (some (.succeed, true, true, accumulated dataBuffer reads))) :
    StripsCodes dataBuffer reads ↔ Framed (accumulated dataBuffer reads) := by
  have hdata := recvData_of_recvLoop hfound
  constructor
  · intro h
    obtain ⟨outcome, hreturns⟩ := h.returns
    rw [hreturns] at hdata
    split at hdata
    · cases hdata
    · rw [hdata] at hreturns
      exact ⟨_, (h.succeed hreturns).symm⟩
  · intro hframed
    rw [if_neg (Nat.not_lt.mpr (framed_length hframed))] at hdata
    refine ⟨⟨_, hdata⟩, ?_, ?_, fun _ handshake => handleAttempt_reply handshake _⟩
    · intro buffer hsucceed
      rw [hdata] at hsucceed
      obtain ⟨-, rfl⟩ := Prod.mk.inj (Option.some.inj (Except.ok.inj hsucceed))
      obtain ⟨value, hvalue⟩ := hframed
      rw [hvalue]
      simp
    · intro buffer htimeout
      exact absurd (hdata.symm.trans htimeout) (by simp)

/-- A loop that has come to the time limit: two bytes are lost, or two too many
removed. -/
theorem not_stripsCodes_of_timeout {dataBuffer : List Byte} {reads : List XBeeRead}
    (hexpired : recvLoop dataBuffer reads
      = .ok (some (.timeout, false, false, accumulated dataBuffer reads))) :
    ¬ StripsCodes dataBuffer reads := by
  intro h
  obtain ⟨outcome, hreturns⟩ := h.returns
  have hdata := recvData_of_recvLoop hexpired
  rw [hreturns] at hdata
  split at hdata
  · cases hdata
  · rename_i hlength
    rw [hdata] at hreturns
    have heq := congrArg List.length (h.timeout hreturns)
    rw [List.length_dropLast, List.length_tail] at heq
    omega

/-- The codes are removed, and nothing else, exactly where the data completes them
before the time limit as its first and last byte. -/
theorem stripsCodes_iff (dataBuffer : List Byte) (reads : List XBeeRead) :
    StripsCodes dataBuffer reads ↔ FramedInTime dataBuffer reads := by
  rcases recvLoop_cases dataBuffer reads with
    ⟨hfault, hframed⟩ | ⟨hopen, hframed⟩ | ⟨hexpired, hframed⟩ | ⟨hfound, hframed⟩
  · refine iff_of_false (fun h => ?_) hframed
    obtain ⟨outcome, hreturns⟩ := h.returns
    rw [recvData, hfault] at hreturns
    cases hreturns
  · have hdata : recvData dataBuffer reads = .ok none := by
      rw [recvData, hopen]
      rfl
    refine iff_of_true ⟨⟨none, hdata⟩, ?_, ?_, ?_⟩ hframed
    · exact fun hsucceed => absurd (hdata.symm.trans hsucceed) (by simp)
    · exact fun htimeout => absurd (hdata.symm.trans htimeout) (by simp)
    · exact fun _ handshake => handleAttempt_reply handshake _
  · exact iff_of_false (not_stripsCodes_of_timeout hexpired) hframed
  · rw [stripsCodes_iff_framed hfound, hframed]

/-- Nothing has been received when the time limit is over. -/
theorem not_stripsCodes_expired : ¬ StripsCodes [] [.expired] := by
  intro h
  obtain ⟨outcome, hreturns⟩ := h.returns
  have hdata : recvData [] [.expired] = .error .undefinedBehaviour := by decide +kernel
  rw [hdata] at hreturns
  cases hreturns

end XBeeBrokerApiMode

end IoTRepublic
