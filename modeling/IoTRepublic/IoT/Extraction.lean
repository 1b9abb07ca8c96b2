import IoTRepublic.IoT.PackageLoop

/-!
# IoTRepublic.IoT.Extraction

What a call of `GetCompletedPackage` takes from the buffer.

A call that finds no package should leave the buffer alone, so that the caller can
append and try again. `keepsRejected_iff` says on which buffers it does: a bad start
word makes every further call append one more NUL.

A call that finds a package should take something, or the loop around it would not
end. `progress` has it for every buffer, and with the bound on the rounds of the
loop. There the overflow of the announced lengths matters, so the decoder is stated
once more for both outcomes of an overflow.
-/

namespace IoTRepublic

open Cpp IoTPackage

namespace IoTUtility

/-! ### No package -/

/-- The call after `n` others, each on the buffer the one before has left. -/
def extractAgain : Nat → List Byte → Except Fault Extraction
  | 0, buffer => getCompletedPackage buffer
  | n + 1, buffer => do
    let extraction ← getCompletedPackage buffer
    extractAgain n extraction.buffer

/-- A call that returns NULL leaves the buffer unchanged, so that every further call
returns the same. -/
def KeepsRejected (buffer : List Byte) : Prop :=
  ∀ e rest, getCompletedPackage buffer = .ok (notFound e rest) →
    rest = buffer ∧ ∀ n, extractAgain n buffer = .ok (notFound e buffer)

theorem extractAgain_of_unchanged {buffer : List Byte} {e : GetPackageError}
    (h : getCompletedPackage buffer = .ok (notFound e buffer)) (n : Nat) :
    extractAgain n buffer = .ok (notFound e buffer) := by
  induction n with
  | zero => exact h
  | succ n ih =>
      rw [extractAgain, h, ok_bind]
      exact ih

/-- **When a failed parse leaves the buffer as it was**: unless the buffer is long
enough for a start word and starts with another. -/
theorem keepsRejected_iff (buffer : List Byte) :
    KeepsRejected buffer ↔ buffer.length < currentVersion.length ∨ StartsRight buffer := by
  constructor
  · intro h
    by_cases hs : StartsRight buffer
    · exact .inr hs
    · refine .inl (Nat.lt_of_not_le fun hlen => ?_)
      have hrest := (h _ _ (getCompletedPackage_of_badStart hlen hs)).1
      exact absurd (congrArg List.length hrest) (by simp)
  · intro h e rest hget
    have hrest : rest = buffer := by
      cases getCompletedPackage_none hget with
      | badStart hlen hs => exact absurd h (by simp [hs, Nat.not_lt.mpr hlen])
      | _ => rfl
    subst hrest
    exact ⟨rfl, extractAgain_of_unchanged hget⟩

/-- Another protocol's bytes come back with a NUL behind them. -/
theorem not_keepsRejected_junk : ¬ KeepsRejected (lit "GET / HTTP/1.1") := by
  rw [keepsRejected_iff]
  decide

/-! ### A package -/

/-- `isValidPackage`, for either outcome of an overflow. -/
def isValidPackageWith (o : Overflow) (buffer : List Byte) :
    Except Fault (Bool × GetPackageError × List Byte) := do
  if buffer.length < currentVersion.length then
    return (false, .lengthIsNotLongEnough, buffer)
  if buffer.take currentVersion.length ≠ currentVersion then
    return (false, .startWordError, buffer ++ [0])
  if totalClumnCount (visible buffer) 0 < headerColumns then
    return (false, .headerNotCompleted, buffer)
  let package ← decodeOnlyHeader buffer
  let needed ← o.add (← o.add package.headerLength package.dataLength) 2
  if toInt buffer.length < needed then
    return (false, .packageNotCompleted, buffer)
  let totalLength ← o.add package.headerLength package.dataLength
  let sum := IoTPackage.addCarries (signedSum (← atRange buffer 0 totalLength))
  let high ← vectorAt buffer totalLength
  let low ← vectorAt buffer (← o.add totalLength 1)
  if sum = sendedSum high low then
    return (true, .noError, buffer)
  else
    return (false, .checksumError, buffer)

/-- `decodePackage`, for either outcome of an overflow. -/
def decodePackageWith (o : Overflow) (buffer : List Byte) : Except Fault IoTPackage := do
  let package ← decodeOnlyHeader buffer
  let totalLength ← o.add package.headerLength package.dataLength
  reserve package.dataLength
  let dataVector ← atRange buffer package.headerLength totalLength
  let high ← vectorAt buffer totalLength
  let low ← vectorAt buffer (← o.add totalLength 1)
  return { package with dataVector := dataVector, checksum := sendedSum high low }

/-- `GetCompletedPackage`, for either outcome of an overflow. -/
def getCompletedPackageWith (o : Overflow) (buffer : List Byte) : Except Fault Extraction := do
  let (isValid, error, buffer) ← isValidPackageWith o buffer
  if isValid then
    let package ← decodePackageWith o buffer
    let totalLength ← o.add (← o.add package.headerLength package.dataLength) 2
    let (consumed, rest) ← splitAtIter buffer totalLength
    return ⟨some { package with isCompletedPackage := true, dataVectorForSending := consumed },
      .noError, rest⟩
  else
    return ⟨none, error, buffer⟩

/-- The decoder of the other modules is the one for which an overflow is a fault. -/
theorem getCompletedPackageWith_undefined (buffer : List Byte) :
    getCompletedPackageWith .undefined buffer = getCompletedPackage buffer := rfl

/-- The loop around the decoder, with a budget: `none` when it takes more rounds. -/
def packageLoopWithin {σ : Type} (o : Overflow) (handle : IoTPackage → σ → Except Fault σ) :
    Nat → σ → List Byte → Except Fault (Option (σ × GetPackageError × List Byte))
  | 0, _, _ => .ok none
  | n + 1, s, buffer => do
    let extraction ← getCompletedPackageWith o buffer
    match extraction.package with
    | none => return some (s, extraction.error, extraction.buffer)
    | some package => packageLoopWithin o handle n (← handle package s) extraction.buffer

theorem isValidPackageWith_buffer {o : Overflow} {buffer rest : List Byte} {e : GetPackageError}
    (h : isValidPackageWith o buffer = .ok (true, e, rest)) : rest = buffer := by
  unfold isValidPackageWith at h
  split at h
  · cases h
  split at h
  · cases h
  split at h
  · cases h
  obtain ⟨package, -, h⟩ := bind_ok_iff.mp h
  obtain ⟨total, -, h⟩ := bind_ok_iff.mp h
  obtain ⟨needed, -, h⟩ := bind_ok_iff.mp h
  split at h
  · cases h
  obtain ⟨totalLength, -, h⟩ := bind_ok_iff.mp h
  obtain ⟨bytes, -, h⟩ := bind_ok_iff.mp h
  obtain ⟨high, -, h⟩ := bind_ok_iff.mp h
  obtain ⟨next, -, h⟩ := bind_ok_iff.mp h
  obtain ⟨low, -, h⟩ := bind_ok_iff.mp h
  split at h
  · cases h
    rfl
  · cases h

/-- The lengths of a header are `int`s. -/
theorem decodeOnlyHeader_inInt {buffer : List Byte} {package : IoTPackage}
    (h : decodeOnlyHeader buffer = .ok package) :
    InInt package.headerLength ∧ InInt package.dataLength := by
  rw [decodeOnlyHeader_eq] at h
  obtain ⟨H, hH, h⟩ := bind_ok_iff.mp h
  obtain ⟨D, hD, h⟩ := bind_ok_iff.mp h
  cases h
  exact ⟨stoi_inInt hH, stoi_inInt hD⟩

/-- What decoding a package has computed on the way. -/
theorem decodePackageWith_inv {o : Overflow} {buffer : List Byte} {package : IoTPackage}
    (h : decodePackageWith o buffer = .ok package) :
    ∃ header total high, decodeOnlyHeader buffer = .ok header ∧
      header.headerLength = package.headerLength ∧ header.dataLength = package.dataLength ∧
      o.add header.headerLength header.dataLength = .ok total ∧ 0 ≤ header.dataLength ∧
      vectorAt buffer total = .ok high := by
  obtain ⟨header, hheader, h⟩ := bind_ok_iff.mp h
  obtain ⟨total, htotal, h⟩ := bind_ok_iff.mp h
  obtain ⟨_, hdata, h⟩ := bind_ok_iff.mp h
  obtain ⟨bytes, -, h⟩ := bind_ok_iff.mp h
  obtain ⟨high, hhigh, h⟩ := bind_ok_iff.mp h
  obtain ⟨next, -, h⟩ := bind_ok_iff.mp h
  obtain ⟨low, -, h⟩ := bind_ok_iff.mp h
  cases h
  exact ⟨header, total, high, hheader, rfl, rfl, htotal, reserve_ok_iff.mp hdata, hhigh⟩

/-- The reads behind the payload leave no room for an overflow: its sum would be
negative. -/
theorem decodePackageWith_lengths {o : Overflow} {buffer : List Byte} {package : IoTPackage}
    (h : decodePackageWith o buffer = .ok package) :
    InInt (package.headerLength + package.dataLength)
      ∧ 0 ≤ package.headerLength + package.dataLength := by
  obtain ⟨header, total, high, hheader, hheaderLength, hdataLength, htotal, hdata, hhigh⟩ :=
    decodePackageWith_inv h
  rw [← hheaderLength, ← hdataLength]
  obtain ⟨hH, hD⟩ := decodeOnlyHeader_inInt hheader
  have hwrap := Overflow.add_ok htotal
  have hnonneg := (vectorAt_ok_iff.mp hhigh).1
  simp only [InInt, wrapInt] at hH hD hwrap ⊢
  split at hwrap <;> omega

/-- What a call that finds a package has computed on the way. -/
theorem getCompletedPackageWith_inv {o : Overflow} {buffer rest : List Byte} {p : IoTPackage}
    {e : GetPackageError} (hget : getCompletedPackageWith o buffer = .ok ⟨some p, e, rest⟩) :
    ∃ package sum total consumed, decodePackageWith o buffer = .ok package ∧
      o.add package.headerLength package.dataLength = .ok sum ∧ o.add sum 2 = .ok total ∧
      splitAtIter buffer total = .ok (consumed, rest) ∧
      p = { package with isCompletedPackage := true, dataVectorForSending := consumed } := by
  obtain ⟨⟨isValid, error, buffer'⟩, hvalid, h⟩ := bind_ok_iff.mp hget
  dsimp only at h
  split at h
  swap
  · cases h
  rename_i htrue
  subst htrue
  obtain rfl := isValidPackageWith_buffer hvalid
  obtain ⟨package, hpackage, h⟩ := bind_ok_iff.mp h
  obtain ⟨sum, hsum, h⟩ := bind_ok_iff.mp h
  obtain ⟨total, htotal, h⟩ := bind_ok_iff.mp h
  obtain ⟨⟨consumed, rest'⟩, hsplit, h⟩ := bind_ok_iff.mp h
  cases h
  exact ⟨package, sum, total, consumed, hpackage, hsum, htotal, hsplit, rfl⟩

/-- What an accepted package takes from the buffer. -/
theorem getCompletedPackageWith_some {o : Overflow} {buffer rest : List Byte} {p : IoTPackage}
    {e : GetPackageError} (hget : getCompletedPackageWith o buffer = .ok ⟨some p, e, rest⟩) :
    2 ≤ p.headerLength + p.dataLength + 2 ∧ buffer = p.dataVectorForSending ++ rest ∧
      (p.dataVectorForSending.length : Int) = p.headerLength + p.dataLength + 2 := by
  obtain ⟨package, sum, total, consumed, hpackage, hsum, htotal, hsplit, rfl⟩ :=
    getCompletedPackageWith_inv hget
  obtain ⟨hin, hnonneg⟩ := decodePackageWith_lengths hpackage
  have hsum' := Overflow.add_ok hsum
  rw [wrapInt_of_inInt hin] at hsum'
  have htotal' := Overflow.add_ok htotal
  rw [hsum'] at htotal'
  unfold splitAtIter at hsplit
  split at hsplit
  swap
  · cases hsplit
  rename_i hle
  cases hsplit
  -- The iterator is inside the buffer, so the last sum has not overflowed either.
  have hexact : total = package.headerLength + package.dataLength + 2 := by
    simp only [InInt] at hin
    simp only [wrapInt] at htotal'
    split at htotal' <;> omega
  have hleast : 2 ≤ package.headerLength + package.dataLength + 2 := by omega
  refine ⟨hleast, (List.take_append_drop _ _).symm, ?_⟩
  dsimp only
  rw [List.length_take, ← hexact]
  omega

/-- A round that finds a package costs two bytes of the buffer. -/
theorem length_div_two_lt {o : Overflow} {buffer rest : List Byte} {p : IoTPackage}
    {e : GetPackageError} {n : Nat}
    (hget : getCompletedPackageWith o buffer = .ok ⟨some p, e, rest⟩)
    (h : buffer.length / 2 < n + 1) : rest.length / 2 < n := by
  obtain ⟨hleast, hcut, hlength⟩ := getCompletedPackageWith_some hget
  have hrest : buffer.length = p.dataVectorForSending.length + rest.length := by
    rw [hcut, List.length_append]
  omega

theorem packageLoopWithin_ne_none {σ : Type} {o : Overflow}
    {handle : IoTPackage → σ → Except Fault σ} {n : Nat} {s : σ} {buffer : List Byte}
    (h : buffer.length / 2 < n) : packageLoopWithin o handle n s buffer ≠ .ok none := by
  induction n generalizing s buffer with
  | zero => cases h
  | succ n ih =>
      intro hnone
      obtain ⟨⟨package, e, rest⟩, hget, hnone⟩ := bind_ok_iff.mp hnone
      cases package with
      | none => cases hnone
      | some package =>
          obtain ⟨s', -, hnone⟩ := bind_ok_iff.mp hnone
          exact ih (length_div_two_lt hget h) hnone

/-- With a budget that suffices, the loop is the one the receivers run. -/
theorem packageLoopWithin_eq {σ : Type} {handle : IoTPackage → σ → Except Fault σ} {n : Nat}
    {s : σ} {buffer : List Byte} (h : buffer.length / 2 < n) :
    packageLoopWithin .undefined handle n s buffer = some <$> packageLoop handle s buffer := by
  induction n generalizing s buffer with
  | zero => cases h
  | succ n ih =>
      rw [packageLoopWithin, getCompletedPackageWith_undefined]
      cases hget : getCompletedPackage buffer with
      | error fault => rw [packageLoop_of_error hget]; rfl
      | ok extraction =>
          obtain ⟨package, e, rest⟩ := extraction
          rw [ok_bind]
          cases package with
          | none => rw [packageLoop_of_none hget]; rfl
          | some package =>
              rw [packageLoop_of_some hget]
              cases hhandle : handle package s with
              | error fault => simp [hhandle]
              | ok s' =>
                  simp only [hhandle, ok_bind]
                  rw [← getCompletedPackageWith_undefined] at hget
                  exact ih (length_div_two_lt hget h)

/-- What every call and every loop on the buffer comes to. -/
structure Progresses (o : Overflow) (buffer : List Byte) : Prop where
  /-- A package takes the announced bytes from the front, at least two. -/
  shrinks {p : IoTPackage} {e : GetPackageError} {rest : List Byte}
    (h : getCompletedPackageWith o buffer = .ok ⟨some p, e, rest⟩) :
    2 ≤ p.headerLength + p.dataLength + 2 ∧ buffer = p.dataVectorForSending ++ rest ∧
      (p.dataVectorForSending.length : Int) = p.headerLength + p.dataLength + 2
  /-- The loop needs no more rounds than this, whatever is done with the packages. -/
  bounded {σ : Type} (handle : IoTPackage → σ → Except Fault σ) (s : σ) :
    packageLoopWithin o handle (buffer.length / 2 + 1) s buffer ≠ .ok none
  /-- So many rounds are the loop of the receivers. -/
  whole {σ : Type} (handle : IoTPackage → σ → Except Fault σ) (s : σ) :
    packageLoopWithin .undefined handle (buffer.length / 2 + 1) s buffer
      = some <$> packageLoop handle s buffer

/-- **Extraction makes progress** on every buffer, whatever its length columns
announce, also where their sum wraps around. -/
theorem progress (o : Overflow) (buffer : List Byte) : Progresses o buffer where
  shrinks := getCompletedPackageWith_some
  bounded := fun _ _ => packageLoopWithin_ne_none (Nat.lt_succ_self _)
  whole := fun _ _ => packageLoopWithin_eq (Nat.lt_succ_self _)

end IoTUtility

end IoTRepublic
