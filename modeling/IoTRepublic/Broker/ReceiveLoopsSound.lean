import IoTRepublic.Broker.ReceiveLoops
import IoTRepublic.IoT.SentPackage
import IoTRepublic.Lib.Transition

/-!
# IoTRepublic.Broker.ReceiveLoopsSound

What the loops do after a corrupt package.

None of them clears its buffer when `GetCompletedPackage` reports a start word or
checksum error, so the offending bytes stay in front and every later call trips
over them again (`getCompletedPackage_of_poisoned`). Only a scan, in the two
loops that drop data while scanning, empties the buffer; `dispatches_iff` says
exactly when the next package gets through.

The five loops keep their own definitions and are enumerated (`ReceiveLoop`), so that one
invariant and one theorem speak of all of them; what they differ in here is whether a
running scan drops what is received (`dropping`). Poison is a property of the bytes alone:
a wrong start word, or a complete package whose sum is wrong. It is kept under any
continuation, which is why no later package gets through.
-/

namespace IoTRepublic

open Cpp IoTUtility Transition

/-! ### Poisoned buffers -/

/-- Bytes that no continuation turns into a package. -/
inductive Poisoned (buffer : List Byte) : Prop
  | startWord (hlen : currentVersion.length ≤ buffer.length) (h : ¬ StartsRight buffer)
  | checksum {H D : Int} (h : HeaderRead buffer H D) (hin : InInt (H + D) ∧ InInt (H + D + 2))
      (hlen : H + D + 2 ≤ buffer.length) (h0 : 0 ≤ H + D)
      (hsum : computedSum buffer (H + D) ≠ announcedSum buffer (H + D))

/-- An error that is not just a missing rest leaves a poisoned buffer. -/
theorem poisoned_of_rejected {buffer rest : List Byte} {e : GetPackageError}
    (h : Rejected buffer e rest) (he : e = .startWordError ∨ e = .checksumError) :
    Poisoned rest := by
  cases h with
  | badStart hlen h =>
      refine .startWord ?_ (fun hs => h ((startsRight_append_iff hlen).mp hs))
      rw [List.length_append]
      omega
  | badSum h hin hlen h0 hsum =>
      have := toInt_le buffer.length
      exact .checksum h hin (by omega) h0 hsum
  | short | incomplete | waiting => simp at he

theorem poisoned_ne_nil {buffer : List Byte} (h : Poisoned buffer) : buffer ≠ [] := by
  rintro rfl
  cases h with
  | startWord hlen h => exact absurd hlen (by decide)
  | checksum h hin hlen h0 hsum =>
      rw [List.length_nil] at hlen
      omega

/-- Whatever follows a poisoned buffer, no package comes out. -/
theorem getCompletedPackage_of_poisoned {buffer : List Byte} (h : Poisoned buffer)
    (r : List Byte) : ∃ e rest, getCompletedPackage (buffer ++ r) = .ok ⟨none, e, rest⟩ := by
  cases h with
  | startWord hlen h =>
      refine ⟨_, _, getCompletedPackage_of_badStart ?_
        (fun hs => h ((startsRight_append_iff hlen).mp hs))⟩
      rw [List.length_append]
      omega
  | @checksum H D h hin hlen h0 hsum =>
      have hs := (startsRight_append_iff (r := r) h.starts.1).mpr h.starts
      by_cases hc : HeaderComplete (buffer ++ r)
      swap
      · exact ⟨_, _, getCompletedPackage_of_incomplete hs hc⟩
      rw [getCompletedPackage_of_headerRead (headerRead_append h hc),
        if_neg (not_not_intro hin)]
      by_cases hsize : toInt (buffer ++ r).length < H + D + 2
      · rw [if_pos hsize]
        exact ⟨_, _, rfl⟩
      · rw [if_neg hsize, if_neg (by omega), computedSum_append (by omega),
          announcedSum_append_of_le h0 hlen, if_pos hsum]
        exact ⟨_, _, rfl⟩

/-! ### Rounds -/

universe u

variable {σ : Type u} {dispatch : IoTPackage → σ → Except Fault σ}

theorem dispatchPackages_of_none {s : ReceiveState σ} {e : GetPackageError} {rest : List Byte}
    (h : getCompletedPackage s.buffer = .ok ⟨none, e, rest⟩) :
    dispatchPackages dispatch s = .ok { s with buffer := rest, error := e } := by
  rw [dispatchPackages, packageLoop_of_none h]
  rfl

/-- A buffer that holds one package and nothing else. -/
theorem dispatchPackages_of_single {s : ReceiveState σ} {p : IoTPackage}
    (h : getCompletedPackage s.buffer = .ok ⟨some p, .noError, []⟩) :
    dispatchPackages dispatch s =
      (dispatch p s.handler >>= fun handler => .ok
        { handler := handler, buffer := [], error := .lengthIsNotLongEnough
          dispatched := s.dispatched ++ [p] }) := by
  have hnil : getCompletedPackage [] = .ok ⟨none, .lengthIsNotLongEnough, []⟩ :=
    getCompletedPackage_of_short (by decide)
  rw [dispatchPackages, packageLoop_of_some h]
  cases dispatch p s.handler with
  | error fault => rfl
  | ok handler =>
      simp only [ok_bind, pure_eq_ok]
      rw [packageLoop_of_none hnil]
      rfl

/-- What `dispatchPackages` leaves is what the decoder rejected last. -/
theorem rejected_of_dispatchPackages {s s' : ReceiveState σ}
    (h : dispatchPackages dispatch s = .ok s') : ∃ last, Rejected last s'.error s'.buffer := by
  rw [dispatchPackages] at h
  obtain ⟨⟨⟨handler, dispatched⟩, error, buffer⟩, hloop, hs'⟩ := bind_ok_iff.mp h
  obtain rfl := Except.ok.inj hs'
  obtain ⟨last, -, hlast⟩ := packageLoop_induction (I := fun _ _ => True)
    (fun _ _ _ _ _ _ _ _ _ => trivial) trivial hloop
  exact ⟨last, getCompletedPackage_none hlast⟩

/-- After an error report the buffer is poisoned, or a scan has dropped it. -/
def ErrorKept (loop : ReceiveLoop) (s : ReceiveState σ) : Prop :=
  s.error = .startWordError ∨ s.error = .checksumError →
    Poisoned s.buffer ∨ s.buffer = [] ∧ loop.dropping = true

theorem errorKept_of_dispatchPackages {loop : ReceiveLoop} {s s' : ReceiveState σ}
    (h : dispatchPackages dispatch s = .ok s') : ErrorKept loop s' := by
  obtain ⟨last, hlast⟩ := rejected_of_dispatchPackages h
  exact fun he => .inl (poisoned_of_rejected hlast he)

theorem errorKept_inPlaceRound {loop : ReceiveLoop} {dropping : Bool} {s s' : ReceiveState σ}
    {r : Received} (hloop : dropping = true → loop.dropping = true) (hs : ErrorKept loop s)
    (h : inPlaceRound dispatch dropping r s = .ok s') : ErrorKept loop s' := by
  dsimp only [inPlaceRound] at h
  split at h
  · rename_i hdrop
    obtain rfl := Except.ok.inj h
    simp only [Bool.and_eq_true] at hdrop
    exact fun _ => .inr ⟨rfl, hloop hdrop.2.1⟩
  split at h
  · exact errorKept_of_dispatchPackages h
  · rename_i hempty
    obtain rfl := Except.ok.inj h
    have hnil : s.buffer = [] := by
      rw [List.length_append] at hempty
      exact List.eq_nil_of_length_eq_zero (by omega)
    intro he
    rcases hs he with hp | ⟨-, hd⟩
    · exact absurd hnil (poisoned_ne_nil hp)
    · refine .inr ⟨?_, hd⟩
      exact List.eq_nil_of_length_eq_zero (by simpa using hempty)

theorem errorKept_packageBufferRound {loop : ReceiveLoop} {s s' : ReceiveState σ} {r : Received}
    (hs : ErrorKept loop s) (h : packageBufferRound dispatch r s = .ok s') : ErrorKept loop s' := by
  unfold packageBufferRound at h
  split at h
  · exact errorKept_of_dispatchPackages h
  · obtain rfl := Except.ok.inj h
    exact hs

/-- One round of any loop keeps it: a buffer in which an error was found is not cleared,
unless by a scan. -/
theorem errorKept_round {loop : ReceiveLoop} {s s' : ReceiveState σ} {r : Received}
    (hs : ErrorKept loop s) (h : loop.round dispatch r s = .ok s') : ErrorKept loop s' := by
  cases loop with
  | loRaBroker => exact errorKept_inPlaceRound (fun _ => rfl) hs h
  | xBeeBroker => exact errorKept_inPlaceRound (fun _ => rfl) hs h
  | fakeBroker => exact errorKept_inPlaceRound (fun hf => absurd hf (by decide)) hs h
  | cloudUploader => exact errorKept_packageBufferRound hs h
  | cloudBridge => exact errorKept_packageBufferRound hs h

/-- Any number of rounds, from an empty buffer on; the induction is on the history. -/
theorem errorKept_runRounds {loop : ReceiveLoop} {handler : σ} {history : List Received}
    {s : ReceiveState σ} (h : loop.runRounds dispatch handler history = .ok s) :
    ErrorKept loop s := by
  have hfold : Run (fun s r s' => loop.round dispatch r s = .ok s')
      { handler := handler } history s :=
    run_iff_foldlM.mpr h
  refine hfold.invariant ?_ (fun _ _ _ hs hr => errorKept_round hs hr)
  rintro (he | he) <;> cases he

/-! ### The next package -/

/-- The round that receives `r` hands the package `p` to `dispatch`, and no other. -/
def Dispatches (dispatch : IoTPackage → σ → Except Fault σ) (loop : ReceiveLoop)
    (s : ReceiveState σ) (r : Received) (p : IoTPackage) : Prop :=
  match loop.round dispatch r s with
  | .ok s' => s'.dispatched = s.dispatched ++ [p]
  | .error fault => dispatch p s.handler = .error fault

theorem not_dispatches_of_kept {loop : ReceiveLoop} {s s' : ReceiveState σ} {r : Received}
    {p : IoTPackage} (h : loop.round dispatch r s = .ok s') (hd : s'.dispatched = s.dispatched) :
    ¬ Dispatches dispatch loop s r p := by
  rw [Dispatches, h]
  intro heq
  have := congrArg List.length (hd.symm.trans heq)
  simp at this

/-- A poisoned buffer keeps the package from the handler. -/
theorem not_dispatches_of_poisoned {loop : ReceiveLoop} {s : ReceiveState σ} {r : Received}
    {p : IoTPackage} (h : Poisoned s.buffer) : ¬ Dispatches dispatch loop s r p := by
  obtain ⟨e, rest, hget⟩ := getCompletedPackage_of_poisoned h r.chunk
  -- Whatever is appended, the bad bytes stay in front and stop the parser.
  have hparse : dispatchPackages dispatch { s with buffer := s.buffer ++ r.chunk }
      = .ok { s with buffer := rest, error := e } := dispatchPackages_of_none hget
  have hinPlace : ∀ dropping, ∃ s', inPlaceRound dispatch dropping r s = .ok s' ∧
      s'.dispatched = s.dispatched := by
    intro dropping
    dsimp only [inPlaceRound]
    split
    · exact ⟨_, rfl, rfl⟩
    split
    · exact ⟨_, hparse, rfl⟩
    · exact ⟨_, rfl, rfl⟩
  have hpackage : ∃ s', packageBufferRound dispatch r s = .ok s' ∧
      s'.dispatched = s.dispatched := by
    unfold packageBufferRound
    split
    · exact ⟨_, hparse, rfl⟩
    · exact ⟨_, rfl, rfl⟩
  have hround : ∃ s', loop.round dispatch r s = .ok s' ∧ s'.dispatched = s.dispatched := by
    cases loop with
    | loRaBroker => exact hinPlace true
    | xBeeBroker => exact hinPlace true
    | fakeBroker => exact hinPlace false
    | cloudUploader => exact hpackage
    | cloudBridge => exact hpackage
  obtain ⟨s', hs', hd⟩ := hround
  exact not_dispatches_of_kept hs' hd

/-- A round that starts with an empty buffer drops the chunk or parses it. -/
theorem round_of_empty {loop : ReceiveLoop} {s : ReceiveState σ} {r : Received}
    (hempty : s.buffer = []) (hpos : 0 < r.chunk.length) :
    loop.round dispatch r s =
      if loop.dropping && r.nowScanning then .ok { s with buffer := [] }
      else dispatchPackages dispatch { s with buffer := r.chunk } := by
  cases loop <;>
    simp [ReceiveLoop.round, LoRaBroker.serverLoop, XBeeBrokerApiMode.serverLoop, FakeBroker.loop,
      CloudUploader.loop, CloudBridge.cloudLoop, inPlaceRound, packageBufferRound,
      ReceiveLoop.dropping, hempty, hpos]

/-- An empty buffer lets the package through, unless the loop drops it. -/
theorem dispatches_of_empty_iff {loop : ReceiveLoop} {s : ReceiveState σ} {w : List Byte}
    {p : IoTPackage} {scanning : Bool} (hempty : s.buffer = [])
    (hw : getCompletedPackage w = .ok ⟨some p, .noError, []⟩) :
    Dispatches dispatch loop s ⟨w, scanning⟩ p ↔ (loop.dropping && scanning) = false := by
  have hpos : 0 < w.length := by
    have := length_lt_of_some hw
    omega
  have hparse : dispatchPackages dispatch { s with buffer := w } =
      (dispatch p s.handler >>= fun handler => .ok
        { handler := handler, buffer := [], error := .lengthIsNotLongEnough
          dispatched := s.dispatched ++ [p] }) := dispatchPackages_of_single hw
  have hround : loop.round dispatch ⟨w, scanning⟩ s =
      if loop.dropping && scanning then .ok { s with buffer := [] }
      else dispatchPackages dispatch { s with buffer := w } := round_of_empty hempty hpos
  by_cases hdrop : (loop.dropping && scanning) = true
  · rw [if_pos hdrop] at hround
    simp only [hdrop, Bool.true_eq_false, iff_false]
    exact not_dispatches_of_kept hround rfl
  · rw [if_neg hdrop, hparse] at hround
    simp only [Bool.not_eq_true] at hdrop
    simp only [hdrop, iff_true, Dispatches, hround]
    cases dispatch p s.handler with
    | error fault => rfl
    | ok handler => rfl

/-- **The package after a corrupt one.** After any rounds of any of the loops that
end with a start word or checksum error reported, a well-formed package received
as a chunk of its own is dispatched exactly when a scan has emptied the buffer
since and none is running; only the LoRa and XBee loops have such scans. -/
theorem dispatches_iff {loop : ReceiveLoop} {handler : σ} {history : List Received}
    {s : ReceiveState σ} (hrun : loop.runRounds dispatch handler history = .ok s)
    (herr : s.error = .startWordError ∨ s.error = .checksumError) {w : List Byte}
    {p : IoTPackage} (hw : getCompletedPackage w = .ok ⟨some p, .noError, []⟩)
    (scanning : Bool) :
    (Dispatches dispatch loop s ⟨w, scanning⟩ p ↔
        s.buffer = [] ∧ (loop.dropping && scanning) = false) ∧
      (s.buffer = [] → loop.dropping = true) := by
  rcases errorKept_runRounds hrun herr with hpoison | ⟨hempty, hdrop⟩
  · have hne := poisoned_ne_nil hpoison
    refine ⟨iff_of_false (not_dispatches_of_poisoned hpoison) (fun h => hne h.1), ?_⟩
    exact fun h => absurd h hne
  · exact ⟨(dispatches_of_empty_iff hempty hw).trans (by simp [hempty]), fun _ => hdrop⟩

/-- Bytes that do not start with the protocol version. -/
def corruptChunk : List Byte := lit "GARBAGE"

/-- A package the manager could send. -/
def soundPackage : IoTPackage := sent (lit "Master") (lit "DEV.0") (lit "ping")

theorem getCompletedPackage_soundPackage :
    getCompletedPackage soundPackage.dataVectorForSending
      = .ok ⟨some soundPackage, .noError, []⟩ := by
  decide +kernel

/-- What the corrupt chunk leaves in every loop. -/
def corruptState : ReceiveState Unit :=
  { handler := (), buffer := corruptChunk ++ [0], error := .startWordError }

theorem runRounds_corruptChunk (loop : ReceiveLoop) :
    loop.runRounds (fun _ _ => .ok ()) () [⟨corruptChunk, false⟩] = .ok corruptState := by
  have hget : getCompletedPackage corruptChunk
      = .ok ⟨none, .startWordError, corruptChunk ++ [0]⟩ := by decide
  have hround : loop.round (fun _ _ => .ok ()) ⟨corruptChunk, false⟩ { handler := () }
      = .ok corruptState := by
    rw [round_of_empty rfl (by decide), if_neg (by simp)]
    exact dispatchPackages_of_none hget
  rw [ReceiveLoop.runRounds, List.foldlM_cons, hround]
  rfl

theorem dispatches_iff_corruptChunk :
    ¬ Dispatches (fun _ _ => .ok ()) .cloudBridge corruptState
      ⟨soundPackage.dataVectorForSending, false⟩ soundPackage := by
  rw [(dispatches_iff (runRounds_corruptChunk .cloudBridge) (.inl rfl)
    getCompletedPackage_soundPackage false).1]
  exact fun h => absurd h.1 (by decide)

/-- The loop reports the corrupt chunk and then misses the package that follows. -/
def DeafAfterCorruptChunk (loop : ReceiveLoop) : Prop :=
  loop.runRounds (fun _ _ => .ok ()) () [⟨corruptChunk, false⟩] = .ok corruptState ∧
    corruptState.error = .startWordError ∧
    getCompletedPackage soundPackage.dataVectorForSending = .ok ⟨some soundPackage, .noError, []⟩ ∧
    ¬ Dispatches (fun _ _ => .ok ()) loop corruptState
      ⟨soundPackage.dataVectorForSending, false⟩ soundPackage

theorem deafAfterCorruptChunk (loop : ReceiveLoop) : DeafAfterCorruptChunk loop :=
  ⟨runRounds_corruptChunk loop, rfl, getCompletedPackage_soundPackage,
    not_dispatches_of_poisoned (.startWord (by decide) (by decide))⟩

theorem deaf_after_corruptChunk :
    DeafAfterCorruptChunk .loRaBroker ∧ DeafAfterCorruptChunk .xBeeBroker ∧
      DeafAfterCorruptChunk .fakeBroker ∧ DeafAfterCorruptChunk .cloudUploader ∧
      DeafAfterCorruptChunk .cloudBridge :=
  ⟨deafAfterCorruptChunk _, deafAfterCorruptChunk _, deafAfterCorruptChunk _,
    deafAfterCorruptChunk _, deafAfterCorruptChunk _⟩

end IoTRepublic
