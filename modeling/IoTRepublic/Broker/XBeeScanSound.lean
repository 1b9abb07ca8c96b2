import IoTRepublic.Broker.XBeeReceiveSound
import IoTRepublic.Broker.XBeeScan
import IoTRepublic.Lib.BigEndian

/-!
# IoTRepublic.Broker.XBeeScanSound

The discovery over any row of responses.

Every round of the discovery starts with an empty buffer, so an address is put
together from the response just received or not at all (`discoverRound_eq`). A value
too short for an address ends the scan with an exception; `scansResponses_iff` has
that it is the only thing that goes wrong.

The shifts of the source put two words together from eight bytes, and `toNat_addressIn`
has what they mean: the address is these bytes read as one number, most significant first.
What is read in front of the address, and what may follow it, does not matter. The rounds
are counted by failures, so a response that is neither an answer nor a failure prolongs
the scan (`scanned`).
-/

namespace IoTRepublic

open Cpp BigEndian

/-- The address as one number. -/
def XBeeAddress64.toNat (address : XBeeAddress64) : Nat :=
  address.msb.toNat * 2 ^ 32 + address.lsb.toNat

namespace XBeeResponse

/-- The value of an AT response: what comes after its status. -/
def value (r : XBeeResponse) : List Byte := (r.frameData.drop 4).take (r.packetLength - 5)

theorem length_value (r : XBeeResponse) : r.value.length = r.packetLength - 5 := by
  have hle := r.packetLength_le
  have hframe := r.frameData_length
  rw [XBee.maxFrameDataSize] at hle hframe
  rw [value, List.length_take, List.length_drop, hframe]
  omega

theorem getValueLength_toNat (r : XBeeResponse) :
    r.getValueLength.toNat = (r.packetLength - 1 + 252) % 256 := by
  rw [getValueLength, UInt8.toNat_sub, UInt8.toNat_ofNat']
  show (2 ^ 8 - 4 + (r.packetLength - 1) % 2 ^ 8) % 2 ^ 8 = _
  omega

theorem readValue_of_le {r : XBeeResponse} (h : 5 ≤ r.packetLength) :
    r.readValue = .ok r.value := by
  have hle := r.packetLength_le
  have hframe := r.frameData_length
  rw [XBee.maxFrameDataSize] at hle hframe
  have hlength : r.getValueLength.toNat = r.packetLength - 5 := by
    rw [getValueLength_toNat]
    omega
  rw [readValue, hlength]
  exact derefRange_eq (by omega)

/-- The length of the value wraps around where the frame is shorter than its own head, and
the loop leaves the array. -/
theorem readValue_of_lt {r : XBeeResponse} (h : r.packetLength < 5) :
    r.readValue = .error .undefinedBehaviour := by
  have hpos := r.packetLength_pos
  have hframe := r.frameData_length
  rw [XBee.maxFrameDataSize] at hframe
  have hlength : r.getValueLength.toNat = r.packetLength + 251 := by
    rw [getValueLength_toNat]
    omega
  rw [readValue, hlength]
  exact derefRange_of_lt (by omega) (by omega)

end XBeeResponse

namespace XBeeBrokerApiMode

open XBeeResponse hiding value

/-! ### An address -/

section Assemble

variable {recvBuffer : List Byte} {i k : Nat}

/-- The loop from index `i` on, `k` bytes before the last. -/
theorem assembleFrom_eq (h : i + k + 3 ≤ recvBuffer.length) (word : BitVec 32) :
    (List.range' i (k + 1)).foldlM (fun (word : BitVec 32) (j : Nat) => do
        let word := word ||| unsignedCharBits (← vectorAt recvBuffer (j + 2 : Nat))
        return if j < i + k + 1 - 1 then word <<< 8 else word) (word <<< 8)
      = .ok (pushBytes word ((recvBuffer.drop (i + 2)).take (k + 1))) := by
  induction k generalizing i word with
  | zero =>
      have hlt : i + 2 < recvBuffer.length := by omega
      rw [List.drop_eq_getElem_cons hlt, List.take_succ_cons, List.range'_succ, List.foldlM_cons,
        vectorAt_of_lt hlt, ok_bind, pure_eq_ok, ok_bind, if_neg (by omega)]
      rfl
  | succ k ih =>
      have hlt : i + 2 < recvBuffer.length := by omega
      have hrest := ih (i := i + 1) (by omega) (pushByte word recvBuffer[i + 2])
      have hstop : i + 1 + k + 1 = i + (k + 1) + 1 := by omega
      rw [hstop] at hrest
      rw [List.drop_eq_getElem_cons hlt, List.take_succ_cons, List.range'_succ, List.foldlM_cons,
        vectorAt_of_lt hlt, ok_bind, pure_eq_ok, ok_bind, if_pos (by omega)]
      exact hrest

theorem assembleFrom_of_lt (h : recvBuffer.length < i + k + 3) (stop : Nat) (word : BitVec 32) :
    (List.range' i (k + 1)).foldlM (fun (word : BitVec 32) (j : Nat) => do
        let word := word ||| unsignedCharBits (← vectorAt recvBuffer (j + 2 : Nat))
        return if j < stop then word <<< 8 else word) word
      = .error .outOfRange := by
  induction k generalizing i word with
  | zero =>
      rw [List.range'_succ, List.foldlM_cons, vectorAt_of_le (by omega), error_bind, error_bind]
  | succ k ih =>
      rw [List.range'_succ, List.foldlM_cons]
      by_cases hlt : i + 2 < recvBuffer.length
      · rw [vectorAt_of_lt hlt, ok_bind, pure_eq_ok, ok_bind]
        exact ih (by omega) _
      · rw [vectorAt_of_le (Nat.le_of_not_lt hlt), error_bind, error_bind]

theorem assembleWord_eq (h : i + k + 3 ≤ recvBuffer.length) :
    assembleWord recvBuffer i (i + k + 1)
      = .ok (pushBytes 0 ((recvBuffer.drop (i + 2)).take (k + 1))) := by
  have hzero : (0 : BitVec 32) <<< 8 = 0 := rfl
  have hloop := assembleFrom_eq h (0 : BitVec 32)
  rw [hzero] at hloop
  rw [assembleWord, show i + k + 1 - i = k + 1 by omega]
  exact hloop

theorem assembleWord_of_lt (h : recvBuffer.length < i + k + 3) :
    assembleWord recvBuffer i (i + k + 1) = .error .outOfRange := by
  rw [assembleWord, show i + k + 1 - i = k + 1 by omega]
  exact assembleFrom_of_lt h _ 0

end Assemble

/-- The address in a value, from its third byte on. -/
def addressIn (value : List Byte) : XBeeAddress64 :=
  ⟨.ofBitVec (pushBytes 0 ((value.drop 2).take 4)), .ofBitVec (pushBytes 0 ((value.drop 6).take 4))⟩

/-- It is the bytes from the third to the tenth as one number. -/
theorem toNat_addressIn {v : List Byte} (h : 10 ≤ v.length) :
    (addressIn v).toNat = value ((v.drop 2).take 8) := by
  have hlength : ((v.drop 6).take 4).length = 4 := by
    rw [List.length_take, List.length_drop]
    omega
  have hsplit : (v.drop 2).take 8 = (v.drop 2).take 4 ++ (v.drop 6).take 4 := by
    rw [show 8 = 4 + 4 from rfl, List.take_add, List.drop_drop]
  have hword : ∀ n, (pushBytes (0 : BitVec 32) ((v.drop n).take 4)).toNat
      = value ((v.drop n).take 4) := fun n => toNat_pushBytes (by rw [List.length_take]; omega)
  rw [hsplit, value_append, hlength, XBeeAddress64.toNat, addressIn, UInt32.toNat_ofBitVec,
    UInt32.toNat_ofBitVec, hword, hword]
  norm_num

/-! ### One round -/

/-- The value of a response that is an AT response with status OK. -/
def okValue : Option XBeeResponse → Option (List Byte)
  | none => none
  | some r => if r.apiId = atCommandId ∧ r.isOk then some r.value else none

/-- A round without an OK response is a failure. -/
theorem discoverRound_of_none {s : Discovery} {response : Option XBeeResponse}
    (h : okValue response = none) :
    discoverRound s response = .ok { s with failTimes := s.failTimes + 1 } := by
  cases response with
  | none => rfl
  | some r =>
      rw [okValue] at h
      split at h
      · cases h
      · rename_i hok
        rw [not_and] at hok
        by_cases hid : r.apiId = atCommandId
        · simp [discoverRound, recvResponse, hid, hok hid]
        · simp [discoverRound, recvResponse, hid]

/-- **One round with an OK response**, when nothing is left in the buffer: its address
is recorded, or the value is too short for one and the round does not end. -/
theorem discoverRound_eq {s : Discovery} {response : Option XBeeResponse} {v : List Byte}
    (hs : s.recvBuffer = []) (h : okValue response = some v) :
    (10 ≤ v.length → discoverRound s response
        = .ok { s with xbeeAddresses := s.xbeeAddresses ++ [addressIn v] }) ∧
      (v.length < 10 → ¬ Returns (discoverRound s response)) := by
  cases response with
  | none => cases h
  | some r =>
      rw [okValue] at h
      split at h
      swap
      · cases h
      rename_i hok
      cases h
      have hlength := length_value r
      have hround : discoverRound s (some r) = (do
          let value ← r.readValue
          let dh ← assembleWord value 0 4
          let dl ← assembleWord value 4 8
          return { s with recvBuffer := [], xbeeAddresses := s.xbeeAddresses ++
            [⟨.ofBitVec dh, .ofBitVec dl⟩] }) := by
        cases hread : r.readValue with
        | error fault => simp [discoverRound, recvResponse, hok, hread]
        | ok value => simp [discoverRound, recvResponse, hok, hread, hs, maxAddressLength]
      rw [hround]
      constructor
      · intro hlong
        have hdh : assembleWord r.value 0 4 = .ok (pushBytes 0 ((r.value.drop 2).take 4)) :=
          assembleWord_eq (i := 0) (k := 3) (by omega)
        have hdl : assembleWord r.value 4 8 = .ok (pushBytes 0 ((r.value.drop 6).take 4)) :=
          assembleWord_eq (i := 4) (k := 3) (by omega)
        rw [readValue_of_le (by omega), ok_bind, hdh, ok_bind, hdl, ok_bind, addressIn, ← hs]
        rfl
      · intro hshort hreturns
        obtain ⟨value, hread, hreturns⟩ := returns_bind_iff.mp hreturns
        by_cases hle : 5 ≤ r.packetLength
        · rw [readValue_of_le hle] at hread
          cases hread
          obtain ⟨dh, -, hreturns⟩ := returns_bind_iff.mp hreturns
          obtain ⟨dl, hdl, -⟩ := returns_bind_iff.mp hreturns
          exact not_returns_of_eq (assembleWord_of_lt (i := 4) (k := 3) (by omega)) ⟨dl, hdl⟩
        · rw [readValue_of_lt (by omega)] at hread
          cases hread

/-! ### The scan -/

/-- The responses the discovery reads while `n` more failures end it: a response that
is skipped does not count as one. -/
def scanned : Nat → List (Option XBeeResponse) → List (Option XBeeResponse)
  | 0, _ => []
  | _, [] => []
  | n + 1, response :: responses =>
    response :: scanned (if okValue response = none then n else n + 1) responses

/-- The values of the OK responses the discovery reads. -/
def heardValues (responses : List (Option XBeeResponse)) : List (List Byte) :=
  (scanned maxFailTimes responses).filterMap okValue

/-- The discovery returns, and what it has recorded are the addresses in the values of
at least ten bytes. -/
def ScansResponses (responses : List (Option XBeeResponse)) : Prop :=
  ∃ found, discover responses = .ok found ∧
    found.failTimes = ((scanned maxFailTimes responses).filter (okValue · = none)).length ∧
    found.xbeeAddresses.map XBeeAddress64.toNat
      = ((heardValues responses).filter (10 ≤ ·.length)).map fun v => value ((v.drop 2).take 8)

theorem scanned_zero (responses : List (Option XBeeResponse)) : scanned 0 responses = [] := by
  cases responses <;> rfl

/-- How the loop goes on from an empty buffer. -/
theorem discoverFrom_cases {n : Nat} {s : Discovery} (hs : s.recvBuffer = [])
    (hcount : s.failTimes + (n + 1) = maxFailTimes) (responses : List (Option XBeeResponse)) :
    ((∀ v ∈ (scanned (n + 1) responses).filterMap okValue, 10 ≤ v.length) →
        discoverFrom s responses = .ok
          { failTimes := s.failTimes
              + ((scanned (n + 1) responses).filter (okValue · = none)).length
            recvBuffer := []
            xbeeAddresses := s.xbeeAddresses
              ++ ((scanned (n + 1) responses).filterMap okValue).map addressIn }) ∧
      (Returns (discoverFrom s responses) →
        ∀ v ∈ (scanned (n + 1) responses).filterMap okValue, 10 ≤ v.length) := by
  induction responses generalizing n s with
  | nil =>
      refine ⟨fun _ => ?_, fun _ => by simp [scanned]⟩
      rw [discoverFrom, ← hs]
      simp [scanned]
  | cons response responses ih =>
      rw [discoverFrom, scanned]
      cases hvalue : okValue response with
      | none =>
          rw [discoverRound_of_none hvalue, ok_bind, if_pos rfl]
          simp only [List.filterMap_cons, hvalue, List.filter_cons, decide_true, if_true,
            List.length_cons]
          cases n with
          | zero =>
              rw [if_pos (by show maxFailTimes ≤ s.failTimes + 1; omega), scanned_zero]
              refine ⟨fun _ => ?_, fun _ => by simp⟩
              simp [← hs]
          | succ n =>
              rw [if_neg (by show ¬ maxFailTimes ≤ s.failTimes + 1; omega)]
              obtain ⟨hright, hleft⟩ := ih (n := n) (s := { s with failTimes := s.failTimes + 1 })
                hs (by show s.failTimes + 1 + (n + 1) = _; omega)
              refine ⟨fun hlong => ?_, hleft⟩
              rw [hright hlong, Nat.add_assoc, Nat.add_comm 1]
      | some v =>
          obtain ⟨hround, hfails⟩ := discoverRound_eq hs hvalue
          rw [if_neg (by simp)]
          simp only [List.filterMap_cons, hvalue, List.filter_cons, reduceCtorEq, decide_false,
            Bool.false_eq_true, if_false, List.forall_mem_cons, List.map_cons]
          by_cases hlong : 10 ≤ v.length
          · rw [hround hlong, ok_bind, if_neg (by show ¬ maxFailTimes ≤ s.failTimes; omega)]
            obtain ⟨hright, hleft⟩ := ih (n := n)
              (s := { s with xbeeAddresses := s.xbeeAddresses ++ [addressIn v] }) hs hcount
            refine ⟨fun hall => ?_, fun hreturns => ⟨hlong, hleft hreturns⟩⟩
            rw [hright hall.2]
            simp
          · refine ⟨fun hall => absurd hall.1 hlong, fun hreturns => ?_⟩
            obtain ⟨s', hs', -⟩ := returns_bind_iff.mp hreturns
            exact absurd ⟨s', hs'⟩ (hfails (Nat.lt_of_not_le hlong))

/-- **When the discovery reads only what it has received**: when every OK response it
comes to has a value of at least ten bytes. -/
theorem scansResponses_iff (responses : List (Option XBeeResponse)) :
    ScansResponses responses ↔ ∀ v ∈ heardValues responses, 10 ≤ v.length := by
  obtain ⟨hright, hleft⟩ := discoverFrom_cases (n := 5) (s := {}) rfl rfl responses
  constructor
  · intro h
    obtain ⟨found, hfound, -, -⟩ := h
    exact hleft ⟨found, hfound⟩
  · intro hlong
    refine ⟨_, hright hlong, Nat.zero_add _, ?_⟩
    have hfilter : (heardValues responses).filter (10 ≤ ·.length) = heardValues responses :=
      List.filter_eq_self.mpr fun v hv => decide_eq_true (hlong v hv)
    rw [hfilter]
    show (List.map addressIn (heardValues responses)).map XBeeAddress64.toNat = _
    rw [List.map_map]
    exact List.map_congr_left fun v hv => toNat_addressIn (hlong v hv)

/-- An AT response with status OK and this value. -/
def ndFrame (value : List Byte) (h : value.length ≤ 102) : XBeeResponse :=
  ofFrame atCommandId ([0x01, 0x4E, 0x44, 0x00] ++ value) (by
    rw [List.length_append]
    exact Nat.add_le_add_left h 4)

/-- An answer without a value ends the scan, and the program. -/
theorem not_scansResponses_empty : ¬ ScansResponses [some (ndFrame [] (by decide))] := by
  intro h
  obtain ⟨found, hfound, -⟩ := h
  have hrun : discover [some (ndFrame [] (by decide))] = .error .outOfRange := by decide
  rw [hrun] at hfound
  cases hfound

end XBeeBrokerApiMode

end IoTRepublic
