import IoTRepublic.IoT.UtilitySound
import Mathlib.Data.List.GetD

/-!
# IoTRepublic.IoT.AcceptedPackage

What the decoder accepts. It trusts the two length columns: it neither compares
the header length with the bytes the columns take, nor asks that the numerals be
canonical. `Accepted` lists what an accepted package does guarantee, and
`accepted_sound` says when its bytes are those the encoder would write.

The difference between the two is real. A start word is only the beginning of the first
column, `std::stoi` takes white space, signs and letters behind the digits, and the
payload is cut out by the announced lengths even where these point into the header;
`lenientBuffer_accepted` has an example of each. On ASCII bytes the spelling of the two
numerals is the only thing left to ask for.
-/

namespace IoTRepublic

open Cpp Columns IoTPackage

namespace IoTUtility

/-- The guarantees of an accepted package whose length columns read `headerText`
and `dataText`. -/
structure Accepted (buffer : List Byte) (p : IoTPackage) (rest : List Byte)
    (headerText dataText : Text) : Prop where
  completed : p.isCompletedPackage = true
  /-- The buffer is cut once, after the announced number of bytes. -/
  cut : buffer = p.dataVectorForSending ++ rest
  length : (p.dataVectorForSending.length : Int) = p.headerLength + p.dataLength + 2
  fits : p.headerLength + p.dataLength + 2 < 2 ^ 31
  header_nonneg : 0 ≤ p.headerLength
  data_nonneg : 0 ≤ p.dataLength
  /-- The buffer starts with five columns. -/
  columns : joinColumns segmentSymbol [p.ver, headerText, dataText, p.sorIp, p.desIp]
    <+: visible buffer
  notMem : ∀ c ∈ [p.ver, headerText, dataText, p.sorIp, p.desIp], segmentSymbol ∉ c
  version : currentVersion <+: p.ver
  headerLength : stoi headerText = .ok p.headerLength
  dataLength : stoi dataText = .ok p.dataLength
  /-- The payload is cut out by the announced lengths, wherever the columns end. -/
  data : p.dataVector = (p.dataVectorForSending.drop p.headerLength.toNat).take p.dataLength.toNat
  /-- The last two bytes carry the checksum of those before. -/
  checksum : p.dataVectorForSending
    = p.dataVectorForSending.take (p.headerLength + p.dataLength).toNat ++ checksumBytes p.checksum
  computed : p.checksum
    = addCarries (signedSum (p.dataVectorForSending.take (p.headerLength + p.dataLength).toNat))

/-- The columns of a complete header lead the buffer. -/
theorem columns_isPrefix {buffer : List Byte} (h : HeaderComplete buffer) :
    joinColumns segmentSymbol [headerColumn buffer 0, headerColumn buffer 1, headerColumn buffer 2,
      headerColumn buffer 3, headerColumn buffer 4] <+: visible buffer :=
  ⟨_, (eq_joinColumns_append segmentSymbol h).symm⟩

theorem notMem_headerColumn (buffer : List Byte) (k : Nat) :
    segmentSymbol ∉ headerColumn buffer k :=
  sep_notMem_column segmentSymbol k (visible buffer)

/-- A start word without NUL lies within the first column. -/
theorem version_prefix_column {buffer : List Byte} (hs : StartsRight buffer)
    (hc : HeaderComplete buffer) : currentVersion <+: headerColumn buffer 0 := by
  have hver : currentVersion <+: buffer := by
    rw [← hs.2]
    exact List.take_prefix _ _
  have hcol : headerColumn buffer 0 ++ [segmentSymbol] <+: buffer := by
    refine List.IsPrefix.trans ?_ ((columns_isPrefix hc).trans (visible_isPrefix buffer))
    rw [joinColumns_cons]
    exact ⟨_, List.append_assoc _ _ _⟩
  rcases List.prefix_or_prefix_of_prefix hver hcol with h | h
  · rcases List.prefix_concat_iff.mp h with h | h
    · exact absurd (h ▸ List.mem_append_right _ List.mem_cons_self :
        segmentSymbol ∈ currentVersion) (by decide)
    · exact h
  · have hmem : segmentSymbol ∈ currentVersion :=
      h.subset (List.mem_append_right _ List.mem_cons_self)
    exact absurd hmem (by decide)

theorem accepted_of_complete {buffer : List Byte} {H D : Int} (h : Complete buffer H D) :
    Accepted buffer (decoded buffer H D) (buffer.drop (H + D + 2).toNat)
      (headerColumn buffer 1) (headerColumn buffer 2) := by
  obtain ⟨hread, hlen, hH, hD, hsum⟩ := h
  have hle := toInt_le buffer.length
  have hfit := (inInt_toInt buffer.length).2
  have htake : (buffer.take (H + D + 2).toNat).take (H + D).toNat = buffer.take (H + D).toNat := by
    rw [List.take_take, Nat.min_eq_left (by omega)]
  refine
    { completed := rfl
      cut := (List.take_append_drop _ _).symm
      length := ?_
      fits := by simp only [decoded]; omega
      header_nonneg := hH
      data_nonneg := hD
      columns := columns_isPrefix hread.complete
      notMem := ?_
      version := version_prefix_column hread.starts hread.complete
      headerLength := hread.header
      dataLength := hread.data
      data := ?_
      checksum := ?_
      computed := ?_ }
  · simp only [decoded, List.length_take]
    omega
  · intro c hc
    simp only [decoded, List.mem_cons, List.not_mem_nil, or_false] at hc
    rcases hc with rfl | rfl | rfl | rfl | rfl <;> exact notMem_headerColumn buffer _
  · simp only [decoded]
    rw [List.drop_take, List.take_take, Nat.min_eq_left (by omega)]
  · simp only [decoded]
    -- The two bytes behind the covered ones carry the checksum.
    rw [htake, announcedSum, checksumBytes_sendedSum,
      show (H + D + 2).toNat = (H + D).toNat + 1 + 1 by omega,
      show (H + D + 1).toNat = (H + D).toNat + 1 by omega,
      List.take_succ_eq_append_getElem (by omega), List.take_succ_eq_append_getElem (by omega),
      List.getD_eq_getElem _ _ (by omega), List.getD_eq_getElem _ _ (by omega), List.append_assoc]
    rfl
  · simp only [decoded]
    rw [htake, ← hsum]
    rfl

/-- Two runs of equally many columns at the front of one buffer are the same. -/
theorem columns_unique {buffer : List Byte} {cols cols' : List Text}
    (hsep : ∀ c ∈ cols, segmentSymbol ∉ c) (hsep' : ∀ c ∈ cols', segmentSymbol ∉ c)
    (hlen : cols.length = cols'.length) (h : joinColumns segmentSymbol cols <+: buffer)
    (h' : joinColumns segmentSymbol cols' <+: buffer) : cols = cols' := by
  refine List.ext_getElem hlen ?_
  intro k hk hk'
  obtain ⟨r, hr⟩ := h
  obtain ⟨r', hr'⟩ := h'
  rw [← column_joinColumns segmentSymbol hsep r hk, hr, ← hr',
    column_joinColumns segmentSymbol hsep' r' hk']

namespace Accepted

variable {buffer : List Byte} {p : IoTPackage} {rest : List Byte} {headerText dataText : Text}
  (h : Accepted buffer p rest headerText dataText)

include h

theorem column_length_lt {c : Text} (hc : c ∈ [p.ver, headerText, dataText, p.sorIp, p.desIp]) :
    c.length < 2 ^ 31 := by
  have hvis := visible_length_lt buffer
  have hle := h.columns.length_le
  have hcol : c.length + 1
      ≤ (joinColumns segmentSymbol [p.ver, headerText, dataText, p.sorIp, p.desIp]).length := by
    rw [joinColumns_length]
    exact List.single_le_sum (fun _ _ => Nat.zero_le _) _ (List.mem_map_of_mem hc)
  omega

theorem dataVector_length : (p.dataVector.length : Int) = p.dataLength := by
  have h1 := h.length
  have h2 := h.header_nonneg
  have h3 := h.data_nonneg
  rw [h.data, List.length_take, List.length_drop]
  omega

theorem toInt_dataVector : toInt p.dataVector.length = p.dataLength := by
  have h1 := h.dataVector_length
  have h2 := (stoi_inInt h.dataLength).2
  rw [toInt_of_lt (by omega), h1]

/-- The columns the encoder writes for the fields of the package. -/
theorem headerColumns_eq (H : Int) :
    IoTPackage.headerColumns p.ver H (toInt p.dataVector.length) p.sorIp p.desIp
      = [p.ver, showInt H, showInt p.dataLength, p.sorIp, p.desIp] := by
  rw [IoTPackage.headerColumns, h.toInt_dataVector,
    visible_of_lt (h.column_length_lt (by simp)), visible_of_lt (h.column_length_lt (by simp)),
    visible_of_lt (h.column_length_lt (by simp))]

theorem notMem_encoded (H : Int) :
    ∀ c ∈ [p.ver, showInt H, showInt p.dataLength, p.sorIp, p.desIp], segmentSymbol ∉ c := by
  intro c hc
  have hnum : ∀ n : Int, segmentSymbol ∉ showInt n := fun n hm => ne_zero_of_mem_showInt hm rfl
  simp only [List.mem_cons, List.not_mem_nil, or_false] at hc
  rcases hc with rfl | rfl | rfl | rfl | rfl
  · exact h.notMem _ (by simp)
  · exact hnum H
  · exact hnum p.dataLength
  · exact h.notMem _ (by simp)
  · exact h.notMem _ (by simp)

/-- The encoder's package for these fields: its columns, the payload, a checksum. -/
theorem assemble_dataVectorForSending (H : Int) :
    (assemble p.ver p.sorIp p.desIp p.dataVector H).dataVectorForSending
      = joinColumns segmentSymbol [p.ver, showInt H, showInt p.dataLength, p.sorIp, p.desIp]
        ++ p.dataVector
        ++ checksumBytes (assemble p.ver p.sorIp p.desIp p.dataVector H).checksum := by
  have hd := h.dataVector_length
  have htake : p.dataVector.take (toInt p.dataVector.length).toNat = p.dataVector := by
    rw [h.toInt_dataVector, List.take_of_length_le (by omega)]
  rw [← h.headerColumns_eq, ← headerBytes]
  conv_lhs => simp only [assemble, coveredBytes, htake]
  simp only [assemble, coveredBytes, htake]

/-- With the encoder's numerals in the length columns, the payload starts where
the columns end. -/
theorem headerLength_of_canonical {H : Int} (hH : headerText = showInt H)
    (hexact : H = columnBytes p.ver p.sorIp p.desIp p.dataLength + (showInt H).length + 1)
    (hin : InInt H) :
    p.headerLength = H ∧ p.headerLength
      = (joinColumns segmentSymbol
        [p.ver, showInt H, showInt p.dataLength, p.sorIp, p.desIp]).length
      := by
  have hread := h.headerLength
  rw [hH, stoi_showInt hin] at hread
  obtain rfl := Except.ok.inj hread
  refine ⟨rfl, ?_⟩
  rw [← h.headerColumns_eq, ← headerBytes, headerBytes_length, h.toInt_dataVector]
  omega

/-- The bytes of an ASCII package whose length columns hold the encoder's numerals
are the encoder's bytes. -/
theorem eq_assemble_of_canonical {H : Int} (hH : headerText = showInt H)
    (hD : dataText = showInt p.dataLength)
    (hexact : H = columnBytes p.ver p.sorIp p.desIp p.dataLength + (showInt H).length + 1)
    (hin : InInt H)
    (hascii : ∀ b ∈ p.dataVectorForSending.take (p.headerLength + p.dataLength).toNat,
      b.toNat < 0x80) :
    (assemble p.ver p.sorIp p.desIp p.dataVector H).dataVectorForSending
      = p.dataVectorForSending := by
  obtain ⟨rfl, hlen⟩ := h.headerLength_of_canonical hH hexact hin
  have h1 := h.length
  have h2 := h.header_nonneg
  have h3 := h.data_nonneg
  have hdata := h.dataVector_length
  -- The covered bytes are the columns and the payload behind them.
  have hcover : p.dataVectorForSending.take (p.headerLength + p.dataLength).toNat
      = joinColumns segmentSymbol
          [p.ver, showInt p.headerLength, showInt p.dataLength, p.sorIp, p.desIp]
        ++ p.dataVector := by
    have hcols := h.columns.trans (visible_isPrefix buffer)
    rw [hH, hD, h.cut] at hcols
    have htake : joinColumns segmentSymbol
        [p.ver, showInt p.headerLength, showInt p.dataLength, p.sorIp, p.desIp]
        = p.dataVectorForSending.take p.headerLength.toNat := by
      rw [List.prefix_iff_eq_take.mp hcols, List.take_append_of_le_length (by omega)]
      congr 1
      omega
    rw [htake, h.data, show (p.headerLength + p.dataLength).toNat
      = p.headerLength.toNat + p.dataLength.toNat by omega, List.take_add]
  have hsum : (assemble p.ver p.sorIp p.desIp p.dataVector p.headerLength).checksum
      = p.checksum := by
    have hcovered : coveredBytes p.ver p.headerLength p.sorIp p.desIp p.dataVector
        = p.dataVectorForSending.take (p.headerLength + p.dataLength).toNat := by
      rw [coveredBytes, headerBytes, h.headerColumns_eq, h.toInt_dataVector, hcover,
        List.take_of_length_le (by omega)]
    have hfit := h.fits
    simp only [assemble]
    rw [hcovered, visible_of_lt (by rw [List.length_take]; omega), h.computed]
    exact (addCarries_eq_iff _).mpr (checksumsAgree_of_ascii hascii)
  rw [h.assemble_dataVectorForSending, hsum, ← hcover, ← h.checksum]

/-- Equal bytes start with equal columns. -/
theorem canonical_of_eq_assemble {H : Int}
    (heq : (assemble p.ver p.sorIp p.desIp p.dataVector H).dataVectorForSending
      = p.dataVectorForSending) :
    headerText = showInt H ∧ dataText = showInt p.dataLength := by
  have hpre : joinColumns segmentSymbol
      [p.ver, showInt H, showInt p.dataLength, p.sorIp, p.desIp] <+: buffer := by
    rw [h.cut, ← heq, h.assemble_dataVectorForSending, List.append_assoc, List.append_assoc]
    exact List.prefix_append _ _
  have hcols := columns_unique h.notMem (h.notMem_encoded H) rfl
    (h.columns.trans (visible_isPrefix buffer)) hpre
  simp only [List.cons.injEq] at hcols
  exact ⟨hcols.2.1, hcols.2.2.1⟩

end Accepted

theorem accepted_of_some {buffer : List Byte} {p : IoTPackage} {e : GetPackageError}
    {rest : List Byte} (h : getCompletedPackage buffer = .ok ⟨some p, e, rest⟩) :
    e = .noError ∧ ∃ headerText dataText, Accepted buffer p rest headerText dataText := by
  obtain ⟨H, D, hc, rfl, rfl, rfl⟩ := getCompletedPackage_some h
  exact ⟨rfl, _, _, accepted_of_complete hc⟩

/-- **What the decoder accepts.** The bytes of an accepted package satisfy
`Accepted`; where the encoder gets the header length of the same fields right and
the covered bytes are ASCII, they are the encoder's bytes exactly when both length
columns hold the encoder's numerals, and then the payload starts where the columns
end. -/
theorem accepted_sound {buffer : List Byte} {p : IoTPackage} {e : GetPackageError}
    {rest : List Byte} (h : getCompletedPackage buffer = .ok ⟨some p, e, rest⟩) :
    e = .noError ∧ ∃ headerText dataText, Accepted buffer p rest headerText dataText ∧
      ∀ q, ofVector p.ver p.sorIp p.desIp (some p.dataVector) = .ok q →
        HeaderLengthExact (.ok q) →
        (∀ b ∈ p.dataVectorForSending.take (p.headerLength + p.dataLength).toNat,
          b.toNat < 0x80) →
        (q.dataVectorForSending = p.dataVectorForSending ↔
            headerText = showInt q.headerLength ∧ dataText = showInt q.dataLength) ∧
          (q.dataVectorForSending = p.dataVectorForSending →
            p.headerLength = (joinColumns segmentSymbol
              [p.ver, headerText, dataText, p.sorIp, p.desIp]).length) := by
  obtain ⟨rfl, headerText, dataText, hacc⟩ := accepted_of_some h
  refine ⟨rfl, headerText, dataText, hacc, ?_⟩
  intro q hq hexact hascii
  obtain ⟨H, -, hin, -, rfl⟩ := ofVector_ok_iff.mp hq
  rw [headerLengthExact_assemble_iff, hacc.toInt_dataVector] at hexact
  have hqD : (assemble p.ver p.sorIp p.desIp p.dataVector H).dataLength = p.dataLength :=
    hacc.toInt_dataVector
  rw [hqD]
  refine ⟨⟨hacc.canonical_of_eq_assemble, ?_⟩, ?_⟩
  · rintro ⟨h1, h2⟩
    exact hacc.eq_assemble_of_canonical h1 h2 hexact hin hascii
  · intro heq
    obtain ⟨h1, h2⟩ := hacc.canonical_of_eq_assemble heq
    rw [h1, h2]
    exact (hacc.headerLength_of_canonical h1 hexact hin).2

theorem accepted_sound_sent :
    ∃ headerText dataText,
      Accepted (sent (lit "0") (lit "0") (lit "a")).dataVectorForSending
        (sent (lit "0") (lit "0") (lit "a")) [] headerText dataText ∧
      headerText = showInt 17 ∧ dataText = showInt 1 := by
  have hrun : getCompletedPackage (sent (lit "0") (lit "0") (lit "a")).dataVectorForSending
      = .ok ⟨some (sent (lit "0") (lit "0") (lit "a")), .noError, []⟩ := by decide +kernel
  obtain ⟨-, headerText, dataText, hacc, hiff⟩ := accepted_sound hrun
  have hcanon := (hiff (sent (lit "0") (lit "0") (lit "a")) (by decide +kernel)
    (headerLengthExact_assemble_iff.mpr (by decide)) (by decide +kernel)).1.mp rfl
  exact ⟨headerText, dataText, hacc, hcanon.1, hcanon.2⟩

/-- A start word with one more letter, and a header length one short of the
columns. -/
def lenientBuffer : List Byte := lit "IUDP1.0x\x0017\x002\x000\x000\x00a\x03\x94"

/-- It is accepted: the version is wrong, the payload starts inside the header, and
the encoder writes other bytes for these fields. -/
theorem lenientBuffer_accepted :
    ∃ p q, getCompletedPackage lenientBuffer = .ok ⟨some p, .noError, []⟩ ∧
      ofVector p.ver p.sorIp p.desIp (some p.dataVector) = .ok q ∧
      q.dataVectorForSending ≠ p.dataVectorForSending ∧ p.ver ≠ protocolVersion ∧
      p.headerLength < (columnStart segmentSymbol headerColumns lenientBuffer : Int) := by
  refine ⟨decoded lenientBuffer 17 2,
    assemble (lit "IUDP1.0x") (lit "0") (lit "0") (0 :: lit "a") 18, ?_, ?_, ?_, ?_, ?_⟩ <;>
    decide +kernel

end IoTUtility

end IoTRepublic
