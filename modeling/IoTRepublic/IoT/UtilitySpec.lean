import IoTRepublic.IoT.Utility
import IoTRepublic.Lib.Columns

/-!
# IoTRepublic.IoT.UtilitySpec

What `getCompletedPackage` does, said once.

A buffer is short, has a bad start word, has an incomplete header, has a header
whose length columns `std::stoi` rejects, or has a header that announces a header
length `H` and a data length `D` (`HeaderRead`). There is one equation for each of
these; the last one (`getCompletedPackage_of_headerRead`) is a decision tree over
`H`, `D` and the size of the buffer. Later modules use these equations and never
unfold the decoder.

The equations are read backwards as well: every return of the decoder comes from a
`Complete` buffer or from one of the rejections (`getCompletedPackage_cases`), which is
the case analysis an invariant of a receive loop starts with. The last section says what
of all this stays true when bytes arrive behind a buffer; the header columns do, because a
complete header ends where it ends.
-/

namespace IoTRepublic

open Cpp Columns

namespace IoTUtility

/-! ### The header -/

/-- Header column `k` of a buffer, among the bytes an `int` index comes to. -/
def headerColumn (buffer : List Byte) (k : Nat) : Text :=
  column IoTPackage.segmentSymbol k (visible buffer)

/-- The start word is there: the buffer passes the first two checks. -/
def StartsRight (buffer : List Byte) : Prop :=
  currentVersion.length ≤ buffer.length ∧ buffer.take currentVersion.length = currentVersion

instance (buffer : List Byte) : Decidable (StartsRight buffer) :=
  inferInstanceAs (Decidable (_ ∧ _))

/-- Five columns are terminated: the buffer passes the third check. -/
def HeaderComplete (buffer : List Byte) : Prop :=
  headerColumns ≤ (visible buffer).count IoTPackage.segmentSymbol

instance (buffer : List Byte) : Decidable (HeaderComplete buffer) :=
  inferInstanceAs (Decidable (_ ≤ _))

/-- The buffer starts with a complete header that announces `H` and `D`. Nothing is said
of the two numbers beyond that `std::stoi` has read them. -/
structure HeaderRead (buffer : List Byte) (H D : Int) : Prop where
  starts : StartsRight buffer
  complete : HeaderComplete buffer
  header : stoi (headerColumn buffer 1) = .ok H
  data : stoi (headerColumn buffer 2) = .ok D

theorem stoi_inInt {s : Text} {n : Int} (h : stoi s = .ok n) : InInt n :=
  (stoi_ok_iff.mp h).2

theorem popHeader_columnStart (buffer : List Byte) (k : Nat) :
    popHeader buffer (columnStart IoTPackage.segmentSymbol k (visible buffer))
      = headerColumn buffer k :=
  firstColumn_drop_columnStart IoTPackage.segmentSymbol k (visible buffer)

/-- The five calls of `popHeader` find the five columns. -/
theorem decodeOnlyHeader_eq (buffer : List Byte) :
    decodeOnlyHeader buffer = (do
      let headerLength ← stoi (headerColumn buffer 1)
      let dataLength ← stoi (headerColumn buffer 2)
      return { ver := headerColumn buffer 0, headerLength := headerLength,
               dataLength := dataLength, sorIp := headerColumn buffer 3,
               desIp := headerColumn buffer 4 }) := by
  -- The start index of a column is the end of the one before.
  have hstart : ∀ k, columnStart IoTPackage.segmentSymbol k (visible buffer)
      + ((headerColumn buffer k).length + 1)
      = columnStart IoTPackage.segmentSymbol (k + 1) (visible buffer) := by
    intro k
    rw [columnStart_succ, Nat.add_assoc]
    rfl
  have hzero : 0 + ((headerColumn buffer 0).length + 1)
      = columnStart IoTPackage.segmentSymbol 1 (visible buffer) := hstart 0
  have hfirst : popHeader buffer 0 = headerColumn buffer 0 := popHeader_columnStart buffer 0
  simp only [decodeOnlyHeader, hfirst, hzero, popHeader_columnStart, hstart]

theorem headerColumn_of_isPrefix {buffer : List Byte} {cols : List Text} {k : Nat}
    (hsep : ∀ c ∈ cols, IoTPackage.segmentSymbol ∉ c)
    (h : joinColumns IoTPackage.segmentSymbol cols <+: visible buffer) (hk : k < cols.length) :
    headerColumn buffer k = cols[k] := by
  obtain ⟨r, hr⟩ := h
  rw [headerColumn, ← hr, column_joinColumns IoTPackage.segmentSymbol hsep r hk]

theorem headerComplete_of_isPrefix {buffer : List Byte} {cols : List Text}
    (hsep : ∀ c ∈ cols, IoTPackage.segmentSymbol ∉ c) (hlen : cols.length = headerColumns)
    (h : joinColumns IoTPackage.segmentSymbol cols <+: visible buffer) : HeaderComplete buffer := by
  obtain ⟨r, hr⟩ := h
  rw [HeaderComplete, ← hr, List.count_append, count_joinColumns IoTPackage.segmentSymbol hsep]
  omega

/-- The columns of a complete header do not depend on what follows. -/
theorem headerColumn_eq_column {buffer whole : List Byte} {k : Nat} (h : HeaderComplete buffer)
    (hk : k < headerColumns) (hpre : visible buffer <+: whole) :
    headerColumn buffer k = column IoTPackage.segmentSymbol k whole := by
  obtain ⟨r, rfl⟩ := hpre
  exact (column_append IoTPackage.segmentSymbol r (Nat.lt_of_lt_of_le hk h)).symm

theorem totalClumnCount_eq {bytes : List Byte} :
    ∀ {count : Nat}, count < headerColumns →
      totalClumnCount bytes count
        = min headerColumns (count + bytes.count IoTPackage.segmentSymbol) := by
  induction bytes with
  | nil =>
      intro count h
      simp only [totalClumnCount, List.count_nil]
      omega
  | cons b rest ih =>
      intro count h
      by_cases hb : b = 0
      · subst hb
        simp only [totalClumnCount, if_true, IoTPackage.segmentSymbol, List.count_cons_self]
        split
        · omega
        · rw [ih (by omega), IoTPackage.segmentSymbol]
          omega
      · have hcount : (b :: rest).count IoTPackage.segmentSymbol
            = rest.count IoTPackage.segmentSymbol := List.count_cons_of_ne hb
        rw [totalClumnCount, if_neg hb, if_neg (by omega), ih h, hcount]

/-- The scan for NULs finds out whether the header is complete. -/
theorem totalClumnCount_lt_iff (buffer : List Byte) :
    totalClumnCount (visible buffer) 0 < headerColumns ↔ ¬ HeaderComplete buffer := by
  rw [totalClumnCount_eq (by decide), HeaderComplete]
  omega

/-! ### The checksum -/

/-- The checksum the decoder computes over the first `n` bytes. -/
def computedSum (buffer : List Byte) (n : Int) : Nat :=
  IoTPackage.addCarries (signedSum (buffer.take n.toNat))

/-- The checksum that follows the first `n` bytes. -/
def announcedSum (buffer : List Byte) (n : Int) : Nat :=
  sendedSum (buffer.getD n.toNat 0) (buffer.getD (n + 1).toNat 0)

theorem vectorAt_eq_getD {v : List Byte} {i : Int} (h0 : 0 ≤ i) (h1 : i < v.length) :
    vectorAt v i = .ok (v.getD i.toNat 0) := by
  refine vectorAt_ok_iff.mpr ⟨h0, ?_⟩
  rw [List.getD_eq_getElem?_getD, List.getElem?_eq_getElem (by omega)]
  rfl

theorem vectorAt_of_neg {v : List Byte} {i : Int} (h : i < 0) :
    vectorAt v i = .error .outOfRange := if_pos h

/-! ### The outcomes -/

/-- What is returned when no package is found. -/
def notFound (error : GetPackageError) (buffer : List Byte) : Extraction := ⟨none, error, buffer⟩

/-- The package the decoder builds from a header that announces `H` and `D`: columns,
payload, checksum and the bytes it was cut from. -/
def decoded (buffer : List Byte) (H D : Int) : IoTPackage :=
  { isCompletedPackage := true
    ver := headerColumn buffer 0, headerLength := H, dataLength := D
    sorIp := headerColumn buffer 3, desIp := headerColumn buffer 4
    checksum := announcedSum buffer (H + D)
    dataVector := (buffer.drop H.toNat).take D.toNat
    dataVectorForSending := buffer.take (H + D + 2).toNat }

/-- What is returned with that package: no error, and the bytes behind it as the rest. -/
def found (buffer : List Byte) (H D : Int) : Extraction :=
  ⟨some (decoded buffer H D), .noError, buffer.drop (H + D + 2).toNat⟩

/-- The buffer is shorter than a start word. -/
theorem getCompletedPackage_of_short {buffer : List Byte}
    (h : buffer.length < currentVersion.length) :
    getCompletedPackage buffer = .ok (notFound .lengthIsNotLongEnough buffer) := by
  simp [getCompletedPackage, isValidPackage, h, notFound]

/-- The start word is wrong. The rejected buffer comes back one NUL longer. -/
theorem getCompletedPackage_of_badStart {buffer : List Byte}
    (hlen : currentVersion.length ≤ buffer.length) (h : ¬ StartsRight buffer) :
    getCompletedPackage buffer = .ok (notFound .startWordError (buffer ++ [0])) := by
  have hne : buffer.take currentVersion.length ≠ currentVersion := fun he => h ⟨hlen, he⟩
  simp [getCompletedPackage, isValidPackage, Nat.not_lt.mpr hlen, hne, notFound]

/-- Some column is not terminated yet. -/
theorem getCompletedPackage_of_incomplete {buffer : List Byte} (hs : StartsRight buffer)
    (h : ¬ HeaderComplete buffer) :
    getCompletedPackage buffer = .ok (notFound .headerNotCompleted buffer) := by
  have hc := (totalClumnCount_lt_iff buffer).mpr h
  simp [getCompletedPackage, isValidPackage, Nat.not_lt.mpr hs.1, hs.2, hc, notFound]

/-- A complete header is decoded, whatever its columns hold. -/
theorem isValidPackage_of_complete {buffer : List Byte} (hs : StartsRight buffer)
    (hc : HeaderComplete buffer) :
    isValidPackage buffer = (do
      let headerLength ← stoi (headerColumn buffer 1)
      let dataLength ← stoi (headerColumn buffer 2)
      let needed ← addInt (← addInt headerLength dataLength) 2
      if toInt buffer.length < needed then
        return (false, .packageNotCompleted, buffer)
      let totalLength ← addInt headerLength dataLength
      let sum := IoTPackage.addCarries (signedSum (← atRange buffer 0 totalLength))
      let high ← vectorAt buffer totalLength
      let low ← vectorAt buffer (← addInt totalLength 1)
      if sum = sendedSum high low then
        return (true, .noError, buffer)
      else
        return (false, .checksumError, buffer)) := by
  have hcount : ¬ totalClumnCount (visible buffer) 0 < headerColumns := by
    rw [totalClumnCount_lt_iff]
    exact not_not_intro hc
  unfold isValidPackage
  rw [if_neg (Nat.not_lt.mpr hs.1), if_neg (not_not_intro hs.2), if_neg hcount]
  simp only [decodeOnlyHeader_eq, bind_assoc, pure_bind]

/-- A length column is not a number: `std::stoi` throws. -/
theorem getCompletedPackage_of_badColumn {buffer : List Byte} {e : Fault}
    (hs : StartsRight buffer) (hc : HeaderComplete buffer)
    (h : stoi (headerColumn buffer 1) = .error e ∨
      (∃ H, stoi (headerColumn buffer 1) = .ok H) ∧ stoi (headerColumn buffer 2) = .error e) :
    getCompletedPackage buffer = .error e := by
  unfold getCompletedPackage
  rw [isValidPackage_of_complete hs hc]
  rcases h with h | ⟨⟨H, hH⟩, h⟩
  · simp only [h, error_bind]
  · simp only [hH, h, ok_bind, error_bind]

/-- What `isValidPackage` decides once the header is read. -/
theorem isValidPackage_of_headerRead {buffer : List Byte} {H D : Int}
    (h : HeaderRead buffer H D) :
    isValidPackage buffer =
      if ¬ (InInt (H + D) ∧ InInt (H + D + 2)) then .error .signedOverflow
      else if toInt buffer.length < H + D + 2 then .ok (false, .packageNotCompleted, buffer)
      else if H + D < 0 then .error .outOfRange
      else if computedSum buffer (H + D) = announcedSum buffer (H + D) then
        .ok (true, .noError, buffer)
      else .ok (false, .checksumError, buffer) := by
  rw [isValidPackage_of_complete h.starts h.complete]
  simp only [h.header, h.data, ok_bind]
  by_cases h1 : InInt (H + D)
  · by_cases h2 : InInt (H + D + 2)
    · rw [if_neg (not_not_intro ⟨h1, h2⟩), addInt_of_inInt h1, ok_bind, addInt_of_inInt h2, ok_bind]
      by_cases hlen : toInt buffer.length < H + D + 2
      · rw [if_pos hlen, if_pos hlen, pure_eq_ok]
      · have hle := toInt_le buffer.length
        rw [if_neg hlen, if_neg hlen]
        simp only [ok_bind]
        by_cases hneg : H + D < 0
        · rw [if_pos hneg]
          -- No byte is summed up, but the checksum is then read in front of the buffer.
          have hr : atRange buffer 0 (H + D) = .ok [] := if_pos (by omega)
          rw [hr, ok_bind, vectorAt_of_neg hneg, error_bind]
        · rw [if_neg hneg, atRange_zero (by omega) (by omega), ok_bind,
            vectorAt_eq_getD (by omega) (by omega), ok_bind, addInt_of_inInt (h1.add_one h2),
            ok_bind, vectorAt_eq_getD (by omega) (by omega), ok_bind]
          rfl
    · have hne : addInt (H + D) 2 = .error .signedOverflow := if_neg h2
      rw [if_pos (fun hh => h2 hh.2), addInt_of_inInt h1, ok_bind, hne, error_bind]
  · have hne : addInt H D = .error .signedOverflow := if_neg h1
    rw [if_pos (fun hh => h1 hh.1), hne, error_bind]

/-- What `decodePackage` builds from a buffer long enough. -/
theorem decodePackage_of_headerRead {buffer : List Byte} {H D : Int}
    (h : HeaderRead buffer H D) (h1 : InInt (H + D)) (h2 : InInt (H + D + 2))
    (h0 : 0 ≤ H + D) (hlen : H + D + 2 ≤ buffer.length) :
    decodePackage buffer =
      if D < 0 then .error .lengthError
      else if H < 0 then .error .outOfRange
      else .ok { decoded buffer H D with
        isCompletedPackage := false, dataVectorForSending := [] } := by
  unfold decodePackage
  simp only [decodeOnlyHeader_eq, h.header, h.data, ok_bind, pure_eq_ok, addInt_of_inInt h1]
  by_cases hD : D < 0
  · rw [if_pos hD]
    have hr : reserve D = .error .lengthError := if_pos hD
    rw [hr, error_bind]
  · rw [if_neg hD]
    have hr : reserve D = .ok () := if_neg hD
    rw [hr, ok_bind]
    by_cases hH : H < 0
    · have hrange : atRange buffer H (H + D) = .error .outOfRange := by
        rw [atRange, if_neg (by omega), if_pos (Or.inl hH)]
      rw [if_pos hH, hrange, error_bind]
    · have hrange : atRange buffer H (H + D) = .ok ((buffer.drop H.toNat).take D.toNat) := by
        unfold atRange
        -- An empty payload is not read at all, wherever it would start.
        split
        · obtain rfl : D = 0 := by omega
          simp
        · rw [if_neg (by omega), add_sub_cancel_left]
      rw [if_neg hH, hrange, ok_bind, vectorAt_eq_getD h0 (by omega), ok_bind,
        addInt_of_inInt (h1.add_one h2), ok_bind, vectorAt_eq_getD (by omega) (by omega), ok_bind]
      rfl

/-- **The decision tree** of a buffer with a complete, numeric header. -/
theorem getCompletedPackage_of_headerRead {buffer : List Byte} {H D : Int}
    (h : HeaderRead buffer H D) :
    getCompletedPackage buffer =
      if ¬ (InInt (H + D) ∧ InInt (H + D + 2)) then .error .signedOverflow
      else if toInt buffer.length < H + D + 2 then .ok (notFound .packageNotCompleted buffer)
      else if H + D < 0 then .error .outOfRange
      else if computedSum buffer (H + D) ≠ announcedSum buffer (H + D) then
        .ok (notFound .checksumError buffer)
      else if D < 0 then .error .lengthError
      else if H < 0 then .error .outOfRange
      else .ok (found buffer H D) := by
  unfold getCompletedPackage
  rw [isValidPackage_of_headerRead h]
  -- Each failed test ends the run; behind the last one the package is built.
  by_cases hin : InInt (H + D) ∧ InInt (H + D + 2)
  swap
  · rw [if_pos hin, if_pos hin, error_bind]
  rw [if_neg (not_not_intro hin), if_neg (not_not_intro hin)]
  by_cases hlen : toInt buffer.length < H + D + 2
  · rw [if_pos hlen, if_pos hlen, ok_bind]
    rfl
  rw [if_neg hlen, if_neg hlen]
  by_cases hneg : H + D < 0
  · rw [if_pos hneg, if_pos hneg, error_bind]
  rw [if_neg hneg, if_neg hneg]
  by_cases hsum : computedSum buffer (H + D) = announcedSum buffer (H + D)
  swap
  · rw [if_neg hsum, if_pos hsum, ok_bind]
    rfl
  have hle := toInt_le buffer.length
  rw [if_pos hsum, if_neg (not_not_intro hsum), ok_bind]
  simp only [if_true]
  rw [decodePackage_of_headerRead h hin.1 hin.2 (by omega) (by omega)]
  by_cases hD : D < 0
  · rw [if_pos hD, if_pos hD, error_bind]
  rw [if_neg hD, if_neg hD]
  by_cases hH : H < 0
  · rw [if_pos hH, if_pos hH, error_bind]
  rw [if_neg hH, if_neg hH, ok_bind]
  simp only [decoded]
  rw [addInt_of_inInt hin.1, ok_bind, addInt_of_inInt hin.2, ok_bind,
    splitAtIter_of_le (by omega) (by omega), ok_bind]
  rfl

/-! ### The outcomes, read backwards -/

/-- Why a buffer holds no package: the error code and the buffer left behind. -/
inductive Rejected (buffer : List Byte) : GetPackageError → List Byte → Prop
  | short (h : buffer.length < currentVersion.length) :
      Rejected buffer .lengthIsNotLongEnough buffer
  | badStart (hlen : currentVersion.length ≤ buffer.length) (h : ¬ StartsRight buffer) :
      Rejected buffer .startWordError (buffer ++ [0])
  | incomplete (hs : StartsRight buffer) (h : ¬ HeaderComplete buffer) :
      Rejected buffer .headerNotCompleted buffer
  | waiting {H D : Int} (h : HeaderRead buffer H D) (hlen : toInt buffer.length < H + D + 2) :
      Rejected buffer .packageNotCompleted buffer
  | badSum {H D : Int} (h : HeaderRead buffer H D) (hin : InInt (H + D) ∧ InInt (H + D + 2))
      (hlen : H + D + 2 ≤ toInt buffer.length) (h0 : 0 ≤ H + D)
      (hsum : computedSum buffer (H + D) ≠ announcedSum buffer (H + D)) :
      Rejected buffer .checksumError buffer

/-- The buffer starts with a package that announces `H` and `D`: the lengths are sound,
all of its bytes are there, and the checksum is right. -/
structure Complete (buffer : List Byte) (H D : Int) : Prop where
  read : HeaderRead buffer H D
  fits : H + D + 2 ≤ toInt buffer.length
  header_nonneg : 0 ≤ H
  data_nonneg : 0 ≤ D
  sum : computedSum buffer (H + D) = announcedSum buffer (H + D)

/-- Every return of the decoder is one of these. -/
theorem getCompletedPackage_cases {buffer : List Byte} {x : Extraction}
    (h : getCompletedPackage buffer = .ok x) :
    (∃ e rest, x = notFound e rest ∧ Rejected buffer e rest) ∨
      ∃ H D, x = found buffer H D ∧ Complete buffer H D := by
  -- The cases stand in the order of the decoder's tests.
  by_cases hshort : buffer.length < currentVersion.length
  · rw [getCompletedPackage_of_short hshort] at h
    exact .inl ⟨_, _, (Except.ok.inj h).symm, .short hshort⟩
  have hlong := Nat.not_lt.mp hshort
  by_cases hs : StartsRight buffer
  swap
  · rw [getCompletedPackage_of_badStart hlong hs] at h
    exact .inl ⟨_, _, (Except.ok.inj h).symm, .badStart hlong hs⟩
  by_cases hc : HeaderComplete buffer
  swap
  · rw [getCompletedPackage_of_incomplete hs hc] at h
    exact .inl ⟨_, _, (Except.ok.inj h).symm, .incomplete hs hc⟩
  cases h1 : stoi (headerColumn buffer 1) with
  | error f =>
      rw [getCompletedPackage_of_badColumn hs hc (.inl h1)] at h
      simp at h
  | ok H =>
      cases h2 : stoi (headerColumn buffer 2) with
      | error f =>
          rw [getCompletedPackage_of_badColumn hs hc (.inr ⟨⟨H, h1⟩, h2⟩)] at h
          simp at h
      | ok D =>
          have hread : HeaderRead buffer H D := ⟨hs, hc, h1, h2⟩
          rw [getCompletedPackage_of_headerRead hread] at h
          split at h
          · simp at h
          rename_i hin
          split at h
          · exact .inl ⟨_, _, (Except.ok.inj h).symm, .waiting hread ‹_›⟩
          rename_i hlen
          split at h
          · simp at h
          rename_i h0
          split at h
          · rename_i hsum
            exact .inl ⟨_, _, (Except.ok.inj h).symm,
              .badSum hread (not_not.mp hin) (by omega) (by omega) hsum⟩
          rename_i hsum
          split at h
          · simp at h
          split at h
          · simp at h
          exact .inr ⟨H, D, (Except.ok.inj h).symm,
            ⟨hread, by omega, by omega, by omega, not_not.mp hsum⟩⟩

/-- A package comes from a complete buffer, and with `NoError`. -/
theorem getCompletedPackage_some {buffer : List Byte} {p : IoTPackage} {e : GetPackageError}
    {rest : List Byte} (h : getCompletedPackage buffer = .ok ⟨some p, e, rest⟩) :
    ∃ H D, Complete buffer H D ∧ e = .noError ∧ p = decoded buffer H D ∧
      rest = buffer.drop (H + D + 2).toNat := by
  rcases getCompletedPackage_cases h with ⟨_, _, hx, -⟩ | ⟨H, D, hx, hc⟩
  · simp [notFound] at hx
  · simp only [found, Extraction.mk.injEq, Option.some.injEq] at hx
    exact ⟨H, D, hc, hx.2.1, hx.1, hx.2.2⟩

/-- Without a package the buffer was rejected. -/
theorem getCompletedPackage_none {buffer : List Byte} {e : GetPackageError} {rest : List Byte}
    (h : getCompletedPackage buffer = .ok ⟨none, e, rest⟩) : Rejected buffer e rest := by
  rcases getCompletedPackage_cases h with ⟨_, _, hx, hr⟩ | ⟨H, D, hx, -⟩
  · simp only [notFound, Extraction.mk.injEq, true_and] at hx
    obtain ⟨rfl, rfl⟩ := hx
    exact hr
  · simp [found] at hx

/-- Extracting a package shortens the buffer. -/
theorem length_lt_of_some {buffer : List Byte} {p : IoTPackage} {e : GetPackageError}
    {rest : List Byte} (h : getCompletedPackage buffer = .ok ⟨some p, e, rest⟩) :
    rest.length < buffer.length := by
  obtain ⟨H, D, hc, -, -, rfl⟩ := getCompletedPackage_some h
  have h1 := hc.fits
  have h2 := hc.header_nonneg
  have h3 := hc.data_nonneg
  have h4 := toInt_le buffer.length
  rw [List.length_drop]
  omega

/-! ### More input -/

/-- What is behind a start word does not matter. -/
theorem startsRight_append_iff {buffer r : List Byte}
    (hlen : currentVersion.length ≤ buffer.length) :
    StartsRight (buffer ++ r) ↔ StartsRight buffer := by
  rw [StartsRight, StartsRight, List.take_append_of_le_length hlen, List.length_append]
  exact and_congr (by omega) Iff.rfl

theorem headerComplete_append {buffer r : List Byte} (h : HeaderComplete buffer)
    (hlt : (buffer ++ r).length < 2 ^ 31) : HeaderComplete (buffer ++ r) := by
  have hvisible : (visible buffer).count IoTPackage.segmentSymbol
      ≤ buffer.count IoTPackage.segmentSymbol := (visible_isPrefix buffer).sublist.count_le _
  rw [HeaderComplete, visible_of_lt hlt, List.count_append]
  exact Nat.le_add_right_of_le (Nat.le_trans h hvisible)

/-- Two buffers with the same complete header have the same columns. -/
theorem headerColumn_append {buffer r : List Byte} {k : Nat} (h : HeaderComplete buffer)
    (hc : HeaderComplete (buffer ++ r)) (hk : k < headerColumns) :
    headerColumn (buffer ++ r) k = headerColumn buffer k := by
  have hpre : visible buffer <+: buffer ++ r :=
    (visible_isPrefix buffer).trans (List.prefix_append _ _)
  rw [headerColumn_eq_column hc hk (visible_isPrefix _), headerColumn_eq_column h hk hpre]

/-- They announce the same lengths: bytes that arrive behind a complete header do not
change how it is read. -/
theorem headerRead_append {buffer r : List Byte} {H D : Int} (h : HeaderRead buffer H D)
    (hc : HeaderComplete (buffer ++ r)) : HeaderRead (buffer ++ r) H D := by
  refine ⟨(startsRight_append_iff h.starts.1).mpr h.starts, hc, ?_, ?_⟩
  · rw [headerColumn_append h.complete hc (by decide)]
    exact h.header
  · rw [headerColumn_append h.complete hc (by decide)]
    exact h.data

theorem computedSum_append {buffer r : List Byte} {n : Int} (h : n ≤ buffer.length) :
    computedSum (buffer ++ r) n = computedSum buffer n := by
  rw [computedSum, List.take_append_of_le_length (by omega), computedSum]

theorem announcedSum_append_of_le {buffer r : List Byte} {n : Int} (h0 : 0 ≤ n)
    (h : n + 2 ≤ buffer.length) : announcedSum (buffer ++ r) n = announcedSum buffer n := by
  have hget : ∀ i : Nat, i < buffer.length → (buffer ++ r).getD i 0 = buffer.getD i 0 := by
    intro i hi
    rw [List.getD_eq_getElem?_getD, List.getElem?_append_left hi, List.getD_eq_getElem?_getD]
  rw [announcedSum, hget _ (by omega), hget _ (by omega), announcedSum]

namespace Complete

variable {buffer r : List Byte} {H D : Int} (h : Complete buffer H D)

include h

theorem inInt : InInt (H + D) ∧ InInt (H + D + 2) := by
  have hfits := h.fits
  have hheader := h.header_nonneg
  have hdata := h.data_nonneg
  have hsize := (inInt_toInt buffer.length).2
  simp only [InInt]
  omega

/-- A complete package is found. -/
theorem getCompletedPackage_eq : getCompletedPackage buffer = .ok (found buffer H D) := by
  have hheader := h.header_nonneg
  have hdata := h.data_nonneg
  rw [getCompletedPackage_of_headerRead h.read, if_neg (not_not_intro h.inInt),
    if_neg (Int.not_lt.mpr h.fits), if_neg (by omega), if_neg (not_not_intro h.sum),
    if_neg (by omega), if_neg (by omega)]

/-- The announced bytes are all there. -/
theorem length_le : H + D + 2 ≤ buffer.length := Int.le_trans h.fits (toInt_le _)

/-- More bytes leave a complete package complete. -/
theorem append (hlt : (buffer ++ r).length < 2 ^ 31) : Complete (buffer ++ r) H D := by
  have hlen := h.length_le
  have hheader := h.header_nonneg
  have hdata := h.data_nonneg
  refine ⟨headerRead_append h.read (headerComplete_append h.read.complete hlt), ?_, hheader,
    hdata, ?_⟩
  · rw [toInt_of_lt hlt, List.length_append]
    omega
  · rw [computedSum_append (by omega), announcedSum_append_of_le (by omega) hlen]
    exact h.sum

/-- They leave every field of it as it is. -/
theorem decoded_append (hlt : (buffer ++ r).length < 2 ^ 31) :
    decoded (buffer ++ r) H D = decoded buffer H D := by
  have hlen := h.length_le
  have hheader := h.header_nonneg
  have hdata := h.data_nonneg
  have hc := headerComplete_append h.read.complete hlt
  have hcolumn : ∀ k, k < headerColumns → headerColumn (buffer ++ r) k = headerColumn buffer k :=
    fun _ hk => headerColumn_append h.read.complete hc hk
  -- The payload and the bytes of the package lie within the old buffer.
  have hpayload : ((buffer ++ r).drop H.toNat).take D.toNat
      = (buffer.drop H.toNat).take D.toNat := by
    rw [List.drop_append_of_le_length (by omega),
      List.take_append_of_le_length (by rw [List.length_drop]; omega)]
  have hbytes : (buffer ++ r).take (H + D + 2).toNat = buffer.take (H + D + 2).toNat :=
    List.take_append_of_le_length (by omega)
  simp only [decoded, hcolumn 0 (by decide), hcolumn 3 (by decide), hcolumn 4 (by decide),
    announcedSum_append_of_le (by omega : 0 ≤ H + D) hlen, hpayload, hbytes]

end Complete

/-- A package that is found is found with more bytes behind it, which stay behind. -/
theorem getCompletedPackage_append {buffer rest r : List Byte} {p : IoTPackage}
    {e : GetPackageError} (h : getCompletedPackage buffer = .ok ⟨some p, e, rest⟩)
    (hlt : (buffer ++ r).length < 2 ^ 31) :
    getCompletedPackage (buffer ++ r) = .ok ⟨some p, e, rest ++ r⟩ := by
  obtain ⟨H, D, hc, rfl, rfl, rfl⟩ := getCompletedPackage_some h
  have hlen := hc.length_le
  rw [(hc.append hlt).getCompletedPackage_eq, found, hc.decoded_append hlt,
    List.drop_append_of_le_length (by omega)]

end IoTUtility

end IoTRepublic
