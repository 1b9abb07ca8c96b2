import IoTRepublic.Broker.XBeeReceiveSound

/-!
# IoTRepublic.Broker.XBeeHandshakeSound

The handshake that asks a device for its description, over any row of outcomes.

`sum` is not reset between two replies, so a retry is compared with the bytes of the
replies before it mixed in; and only a reply with a bad checksum counts as a try.

A row of attempts is taken as it is, whatever the device and the module do: a request that
is not delivered, a silence, or a reply. `reached` has the variables of the loop after a
row that does not end it, and `carried` what is left in `sum` there; the condition of
`judgesOwnBytes_iff` is about `carried` and the reply alone. The bound on the number of
transmissions is a matter of `tryTimes`, which only a reply raises (`bounded_iff`).
-/

namespace IoTRepublic

open Cpp

namespace XBeeBrokerApiMode

/-! ### One reply -/

/-- Two bytes, read big-endian. -/
def bytePair (high low : Byte) : BitVec 32 := unsignedCharBits high <<< 8 ||| unsignedCharBits low

/-- The last two bytes of a reply. -/
def trailing (reply : List Byte) : BitVec 32 :=
  bytePair (reply.getD (reply.length - 2) 0) (reply.getD (reply.length - 1) 0)

/-- What is in front of the checksum: the description of the device, if the reply is
one. -/
def description (reply : List Byte) : List Byte := reply.take (reply.length - 2)

/-- The last two bytes of the reply are the checksum of what is in front of them. -/
def FitsChecksum (reply : List Byte) : Prop :=
  ∃ front high low, reply = front ++ [high, low] ∧
    (getCheckSum front).toNat = 256 * high.toNat + low.toNat

theorem toNat_unsignedCharBits (b : Byte) : (unsignedCharBits b).toNat = b.toNat := by
  have hb := b.toNat_lt
  rw [unsignedCharBits, BitVec.toNat_setWidth, UInt8.toNat_toBitVec]
  omega

theorem toNat_bytePair (high low : Byte) :
    (bytePair high low).toNat = 256 * high.toNat + low.toNat := by
  have hhigh := high.toNat_lt
  have hshift : (unsignedCharBits high <<< 8).toNat = high.toNat <<< 8 := by
    rw [BitVec.toNat_shiftLeft, toNat_unsignedCharBits, Nat.shiftLeft_eq]
    omega
  rw [bytePair, BitVec.toNat_or, hshift, toNat_unsignedCharBits,
    ← Nat.shiftLeft_add_eq_or_of_lt low.toNat_lt, Nat.shiftLeft_eq, Nat.mul_comm]

theorem exists_eq_append {reply : List Byte} (h : 2 ≤ reply.length) :
    ∃ front high low, reply = front ++ [high, low] := by
  have hdrop : (reply.drop (reply.length - 2)).length = 2 := by
    rw [List.length_drop]
    omega
  obtain ⟨high, low, heq⟩ := List.length_eq_two.mp hdrop
  exact ⟨_, high, low, by rw [← heq, List.take_append_drop]⟩

theorem trailing_append (front : List Byte) (high low : Byte) :
    trailing (front ++ [high, low]) = bytePair high low := by
  simp [trailing]

theorem description_append (front : List Byte) (high low : Byte) :
    description (front ++ [high, low]) = front := by
  simp [description]

theorem fitsChecksum_iff {reply : List Byte} (h : 2 ≤ reply.length) :
    FitsChecksum reply ↔ trailing reply = getCheckSum (description reply) := by
  obtain ⟨front, high, low, rfl⟩ := exists_eq_append h
  rw [trailing_append, description_append, ← BitVec.toNat_inj, toNat_bytePair]
  constructor
  · intro hfits
    obtain ⟨front', high', low', heq, hsum⟩ := hfits
    obtain ⟨rfl, hpair⟩ := List.append_inj' heq rfl
    obtain ⟨rfl, hlow⟩ := List.cons.inj hpair
    obtain ⟨rfl, -⟩ := List.cons.inj hlow
    exact hsum.symm
  · exact fun hsum => ⟨front, high, low, rfl, hsum.symm⟩

theorem not_fitsChecksum_of_lt {reply : List Byte} (h : reply.length < 2) :
    ¬ FitsChecksum reply := by
  intro hfits
  obtain ⟨front, high, low, rfl, -⟩ := hfits
  rw [List.length_append] at h
  exact absurd h (by simp)

/-! ### One attempt -/

/-- `sum` once the last two bytes of a reply have been added. -/
def addTrailing (sum : BitVec 32) (reply : List Byte) : BitVec 32 := sum <<< 8 ||| trailing reply

theorem handleAttempt_of_le {reply : List Byte} (h : 2 ≤ reply.length) (handshake : Handshake) :
    handleAttempt handshake (.reply reply)
      = .ok (if addTrailing handshake.sum reply = getCheckSum (description reply) then
          .done (description reply)
        else .again ⟨handshake.tryTimes + 1, addTrailing handshake.sum reply⟩) := by
  obtain ⟨front, high, low, rfl⟩ := exists_eq_append h
  have hlength : ((front ++ [high, low]).length : Int) = front.length + 2 := by simp
  have hhigh : vectorAt (front ++ [high, low]) ((front ++ [high, low]).length - 2) = .ok high := by
    rw [vectorAt_ok_iff, hlength, Int.add_sub_cancel]
    simp
  have hlow : vectorAt (front ++ [high, low]) ((front ++ [high, low]).length - 1) = .ok low := by
    have hindex : (front.length : Int) + 2 - 1 = (front.length + 1 : Nat) := by omega
    rw [vectorAt_ok_iff, hlength, hindex]
    exact ⟨Int.natCast_nonneg _, by simp⟩
  have hsum (sum : BitVec 32) : (sum ||| unsignedCharBits high) <<< 8 ||| unsignedCharBits low
      = addTrailing sum (front ++ [high, low]) := by
    rw [addTrailing, trailing_append, bytePair, BitVec.shiftLeft_or_distrib, BitVec.or_assoc]
  rw [handleAttempt, hhigh, ok_bind, hlow, ok_bind, hsum]
  show (if _ = getCheckSum (description _) then _ else _) = _
  split <;> rfl

theorem handleAttempt_of_lt {reply : List Byte} (h : reply.length < 2) (handshake : Handshake) :
    handleAttempt handshake (.reply reply) = .error .outOfRange :=
  (handleAttempt_reply handshake reply).resolve_left (Nat.not_le.mpr h)

/-- The loop goes on after a failure to receive, and after a reply that does not fit
what is compared with it. -/
theorem again_cases {handshake handshake' : Handshake} {attempt : Attempt}
    (h : handleAttempt handshake attempt = .ok (.again handshake')) :
    (attempt = .rxFailed ∧ handshake' = handshake) ∨
    ∃ reply, attempt = .reply reply ∧ 2 ≤ reply.length ∧
      addTrailing handshake.sum reply ≠ getCheckSum (description reply) ∧
      handshake' = ⟨handshake.tryTimes + 1, addTrailing handshake.sum reply⟩ := by
  cases attempt with
  | txFailed => cases h
  | rxFailed =>
      cases h
      exact Or.inl ⟨rfl, rfl⟩
  | reply reply =>
      by_cases hlength : 2 ≤ reply.length
      · rw [handleAttempt_of_le hlength] at h
        split at h
        · cases h
        · rename_i hsum
          cases h
          exact Or.inr ⟨reply, rfl, hlength, hsum, rfl⟩
      · rw [handleAttempt_of_lt (Nat.not_le.mp hlength)] at h
        cases h

/-! ### A row of attempts -/

/-- The variables after the attempts, where the loop goes on. -/
def reached : Handshake → List Attempt → Option Handshake
  | handshake, [] => some handshake
  | handshake, attempt :: attempts =>
    match handleAttempt handshake attempt with
    | .ok (.again handshake) =>
      if handshake.tryTimes < maxReTryTimes then reached handshake attempts else none
    | _ => none

/-- What the last two bytes of the replies so far leave in `sum`. A silence leaves it
alone. -/
def carried (sum : BitVec 32) : List Attempt → BitVec 32
  | [] => sum
  | .reply reply :: attempts => carried (addTrailing sum reply) attempts
  | _ :: attempts => carried sum attempts

theorem reached_cons_iff {handshake handshake' : Handshake} {attempt : Attempt}
    {attempts : List Attempt} :
    reached handshake (attempt :: attempts) = some handshake' ↔
      ∃ next, handleAttempt handshake attempt = .ok (.again next) ∧
        next.tryTimes < maxReTryTimes ∧ reached next attempts = some handshake' := by
  rw [reached]
  constructor
  · intro h
    split at h
    · rename_i next hnext
      split at h
      · rename_i htries
        exact ⟨next, hnext, htries, h⟩
      · cases h
    · cases h
  · intro h
    obtain ⟨next, hnext, htries, h⟩ := h
    rw [hnext]
    exact (if_pos htries).trans h

/-- The loop runs through the attempts as it does from where it has come to. -/
theorem askFrom_append {handshake handshake' : Handshake} {earlier : List Attempt}
    (h : reached handshake earlier = some handshake') (later : List Attempt) :
    askFrom handshake (earlier ++ later) = askFrom handshake' later := by
  induction earlier generalizing handshake with
  | nil => rw [Option.some.inj h, List.nil_append]
  | cons attempt earlier ih =>
      obtain ⟨next, hnext, htries, h⟩ := reached_cons_iff.mp h
      rw [List.cons_append, askFrom, hnext, ok_bind, ← ih h]
      exact if_pos htries

theorem sum_of_reached {handshake handshake' : Handshake} {attempts : List Attempt}
    (h : reached handshake attempts = some handshake') :
    handshake'.sum = carried handshake.sum attempts := by
  induction attempts generalizing handshake with
  | nil => rw [← Option.some.inj h, carried]
  | cons attempt attempts ih =>
      obtain ⟨next, hnext, -, h⟩ := reached_cons_iff.mp h
      rw [ih h]
      rcases again_cases hnext with ⟨rfl, rfl⟩ | ⟨reply, rfl, -, -, rfl⟩
      · rfl
      · rfl

/-! ### Retries -/

/-- The reply is accepted after these attempts: it is returned without its last two
bytes. -/
def Accepted (handshake : Handshake) (reply : List Byte) : Prop :=
  handleAttempt handshake (.reply reply) = .ok (.done (description reply))

instance (handshake : Handshake) (reply : List Byte) : Decidable (Accepted handshake reply) :=
  inferInstanceAs (Decidable (_ = _))

/-- What is returned, once a reply has been accepted. -/
theorem askDeviceDescription_of_accepted {earlier : List Attempt} {handshake : Handshake}
    {reply : List Byte} (hreached : reached {} earlier = some handshake)
    (haccepted : Accepted handshake reply) (later : List Attempt) :
    askDeviceDescription (earlier ++ .reply reply :: later) = .ok (some (description reply)) := by
  rw [askDeviceDescription, askFrom_append hreached, askFrom, haccepted]
  rfl

/-- Every reply is judged by its own bytes. -/
def JudgesOwnBytes (attempts : List Attempt) : Prop :=
  ∀ earlier reply later handshake, attempts = earlier ++ .reply reply :: later →
    reached {} earlier = some handshake → (Accepted handshake reply ↔ FitsChecksum reply)

/-- What is carried over leaves the last two bytes of the reply as they are, or the
checksum is neither these nor what they become. In both cases the comparison comes out as
it would from zero. -/
def Undisturbed (sum : BitVec 32) (reply : List Byte) : Prop :=
  addTrailing sum reply = trailing reply ∨
    (trailing reply ≠ getCheckSum (description reply) ∧
      addTrailing sum reply ≠ getCheckSum (description reply))

theorem accepted_iff {reply : List Byte} (h : 2 ≤ reply.length) (handshake : Handshake) :
    Accepted handshake reply
      ↔ addTrailing handshake.sum reply = getCheckSum (description reply) := by
  rw [Accepted, handleAttempt_of_le h]
  split <;> simp [*]

theorem accepted_iff_fitsChecksum_iff (handshake : Handshake) (reply : List Byte) :
    (Accepted handshake reply ↔ FitsChecksum reply)
      ↔ (2 ≤ reply.length → Undisturbed handshake.sum reply) := by
  by_cases hlength : 2 ≤ reply.length
  · rw [accepted_iff hlength, fitsChecksum_iff hlength, Undisturbed]
    constructor
    · intro h _
      by_cases hfits : trailing reply = getCheckSum (description reply)
      · exact Or.inl ((h.mpr hfits).trans hfits.symm)
      · exact Or.inr ⟨hfits, fun haccepted => hfits (h.mp haccepted)⟩
    · intro h
      rcases h hlength with heq | ⟨hfits, haccepted⟩
      · rw [heq]
      · exact iff_of_false haccepted hfits
  · have hshort := Nat.not_le.mp hlength
    simp [Accepted, handleAttempt_of_lt hshort, not_fitsChecksum_of_lt hshort, hlength]

/-- Every reply is judged by its own bytes exactly where nothing carried over from the
replies before it matters. -/
theorem judgesOwnBytes_iff (attempts : List Attempt) :
    JudgesOwnBytes attempts ↔
      ∀ earlier reply later, attempts = earlier ++ .reply reply :: later →
        (reached {} earlier).isSome → 2 ≤ reply.length →
          Undisturbed (carried 0 earlier) reply := by
  constructor
  · intro h earlier reply later hattempts hsome
    obtain ⟨handshake, hreached⟩ := Option.isSome_iff_exists.mp hsome
    have hundisturbed := (accepted_iff_fitsChecksum_iff handshake reply).mp
      (h earlier reply later handshake hattempts hreached)
    rwa [sum_of_reached hreached] at hundisturbed
  · intro h earlier reply later handshake hattempts hreached
    rw [accepted_iff_fitsChecksum_iff, sum_of_reached hreached]
    exact h earlier reply later hattempts (Option.isSome_of_eq_some hreached)

/-- A reply with a bad checksum, and a good one. -/
theorem not_judgesOwnBytes_retry :
    ¬ JudgesOwnBytes [.reply [0x01, 0x02, 0x00], .reply [0x41, 0x00, 0x41]] := by
  intro h
  have hiff := h [.reply [0x01, 0x02, 0x00]] [0x41, 0x00, 0x41] [] ⟨1, 0x0200⟩ rfl
    (by decide +kernel)
  have haccepted := hiff.mpr ⟨[0x41], 0x00, 0x41, rfl, by decide +kernel⟩
  exact absurd haccepted (by decide +kernel)

/-! ### The number of transmissions -/

/-- The loop has ended after `maxReTryTimes` transmissions at the latest, as its counter
is meant to see to. -/
def Bounded (attempts : Nat → Attempt) : Prop :=
  askDeviceDescription ((List.range maxReTryTimes).map attempts) ≠ .ok none

/-- One of the attempts ends the loop: the request is not delivered, a reply is too
short for a checksum, or it fits what is compared with it. -/
def Ends : BitVec 32 → List Attempt → Prop
  | _, [] => False
  | _, .txFailed :: _ => True
  | sum, .rxFailed :: attempts => Ends sum attempts
  | sum, .reply reply :: attempts =>
    reply.length < 2 ∨ addTrailing sum reply = getCheckSum (description reply) ∨
      Ends (addTrailing sum reply) attempts

/-- The loop still runs exactly where no attempt has ended it and fewer than
`maxReTryTimes` have counted. -/
theorem askFrom_eq_none_iff {handshake : Handshake} {attempts : List Attempt}
    (h : handshake.tryTimes < maxReTryTimes) :
    askFrom handshake attempts = .ok none ↔
      ¬ Ends handshake.sum attempts ∧
        handshake.tryTimes + attempts.countP (· ≠ .rxFailed) < maxReTryTimes := by
  induction attempts generalizing handshake with
  | nil => simp [askFrom, Ends, h]
  | cons attempt attempts ih =>
      cases attempt with
      | txFailed => simp [askFrom, handleAttempt, Ends]
      | rxFailed =>
          have hround : askFrom handshake (.rxFailed :: attempts) = askFrom handshake attempts := by
            rw [askFrom, handleAttempt, ok_bind]
            exact if_pos h
          rw [hround, ih h, Ends, List.countP_cons_of_neg (by simp)]
      | reply reply =>
          rw [askFrom, Ends, List.countP_cons_of_pos (by simp), not_or, not_or, Nat.not_lt]
          by_cases hlength : 2 ≤ reply.length
          · rw [handleAttempt_of_le hlength, ok_bind]
            by_cases hsum : addTrailing handshake.sum reply = getCheckSum (description reply)
            · simp [hsum]
            · rw [if_neg hsum]
              by_cases htries : handshake.tryTimes + 1 < maxReTryTimes
              · have hrest := @ih ⟨_, addTrailing handshake.sum reply⟩ htries
                rw [Nat.add_right_comm, Nat.add_assoc] at hrest
                rw [and_iff_right hlength, and_iff_right hsum, ← hrest]
                exact iff_of_eq (congrArg (· = _) (if_pos htries))
              · have hended : ¬ handshake.tryTimes + (attempts.countP (· ≠ .rxFailed) + 1)
                    < maxReTryTimes := by omega
                refine iff_of_false ?_ fun hrest => hended hrest.2
                simp [htries]
          · rw [handleAttempt_of_lt (Nat.not_le.mp hlength)]
            simp [hlength]

/-- There are `maxReTryTimes` transmissions at most exactly where one of them ends the
loop, or none of them is followed by a failure to receive. -/
theorem bounded_iff (attempts : Nat → Attempt) :
    Bounded attempts ↔
      Ends 0 ((List.range maxReTryTimes).map attempts) ∨
        ∀ i < maxReTryTimes, attempts i ≠ .rxFailed := by
  have hnone := @askFrom_eq_none_iff {} ((List.range maxReTryTimes).map attempts) (by decide)
  have hlength : ((List.range maxReTryTimes).map attempts).length = maxReTryTimes := by simp
  have hle := List.countP_le_length (p := (· ≠ .rxFailed))
    (l := (List.range maxReTryTimes).map attempts)
  have hcount := List.countP_eq_length (p := (· ≠ .rxFailed))
    (l := (List.range maxReTryTimes).map attempts)
  rw [hlength] at hle hcount
  rw [Bounded, askDeviceDescription, ne_eq, hnone, not_and_or, not_not, Nat.zero_add, Nat.not_lt,
    hle.ge_iff_eq, hcount]
  simp

/-- A device that acknowledges the request and never answers is asked for ever. -/
theorem askDeviceDescription_rxFailed (n : Nat) :
    askDeviceDescription (List.replicate n .rxFailed) = .ok none := by
  induction n with
  | zero => rfl
  | succ n ih => exact ih

theorem not_bounded_rxFailed : ¬ Bounded fun _ => .rxFailed :=
  fun h => h (askDeviceDescription_rxFailed maxReTryTimes)

/-! ### The frames behind an outcome -/

open XBeeResponse

theorem attempt_of_delivered (rxData : List XBeeRead) :
    attempt ⟨some (txFrame 0x00), rxData⟩ = (do
      match ← recvData [] rxData with
      | none => return none
      | some (resultRx, devPackBuf) =>
        return some (if resultRx = .succeed then .reply devPackBuf else .rxFailed)) := rfl

/-- A reply that fits in a frame comes of that frame. -/
theorem attempt_rxFrame {reply : List Byte} (h : (startCode :: reply ++ [endCode]).length ≤ 95) :
    attempt ⟨some (txFrame 0x00),
        [.readPacket (some (rxFrame (startCode :: reply ++ [endCode]) h))]⟩
      = .ok (some (.reply reply)) := by
  have hcodes : BothCodes ([] ++ (rxFrame (startCode :: reply ++ [endCode]) h).payload) := by
    rw [payload_rxFrame, List.nil_append]
    apply bothCodes_of_framed
    rw [List.length_append, List.length_cons, List.length_singleton] at h
    omega
  have hloop := recvLoop_frame (whole_rxFrame h) [] []
  rw [if_pos ⟨rfl, hcodes⟩, payload_rxFrame, List.nil_append] at hloop
  have hdata := recvData_of_recvLoop hloop
  rw [if_neg (by simp)] at hdata
  rw [attempt_of_delivered, hdata, ok_bind]
  simp

/-- A part of a reply, and no more before the time limit. -/
example : attempt ⟨some (txFrame 0x00),
      [.readPacket (some (rxFrame [startCode, 0x41] (by decide))), .expired]⟩
    = .ok (some .rxFailed) := by
  decide +kernel

end XBeeBrokerApiMode

end IoTRepublic
