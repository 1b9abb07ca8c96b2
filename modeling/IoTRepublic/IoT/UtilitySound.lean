import IoTRepublic.IoT.SentPackage

/-!
# IoTRepublic.IoT.UtilitySound

The decoder against the encoder, and against arbitrary bytes.

* `getCompletedPackage_of_partial` and `getCompletedPackage_of_sent`: a buffer
  that holds part of a sent package is left alone; one that starts with a whole
  sent package gives it back. `roundTrip_iff` is the round trip for every payload.
* `answers_iff`: on which buffers the decoder returns at all.
* `accepted_sound`: what the bytes of an accepted package look like.

The two sides add up the same bytes, but one of them with and the other without the sign
of a `char`, so a package with a byte from 0x80 on is usually lost between them
(`ChecksumSound` says when not). The proof of the round trip goes by the columns: those of
a sent package are found in whatever stands behind it, the header announces what the
encoder has counted, and the decision tree of `UtilitySpec` then has one branch left.
-/

namespace IoTRepublic

open Cpp Columns IoTPackage

namespace IoTUtility

/-! ### Part of a package -/

/-- The buffer is worth keeping: the rest of the package may still come. -/
def NotCompleted (e : GetPackageError) : Prop :=
  e = .lengthIsNotLongEnough ∨ e = .headerNotCompleted ∨ e = .packageNotCompleted

section Sent

variable {soIp desIp : Text} {data : List Byte}

/-- A buffer whose columns are those of a sent package announces its lengths. -/
theorem headerRead_of_columns (h : Sendable soIp desIp data) {buffer : List Byte}
    (hs : StartsRight buffer) (hc : HeaderComplete buffer)
    (hcol : ∀ (k : Nat) (hk : k < (sentColumns soIp desIp data).length),
      headerColumn buffer k = (sentColumns soIp desIp data)[k]) :
    HeaderRead buffer (sentHeader soIp desIp data) data.length := by
  have h1 := h.sentHeader_lt
  have h2 := h.data_lt
  have hH : InInt (sentHeader soIp desIp data) := by simp only [InInt]; omega
  have hD : InInt data.length := by simp only [InInt]; omega
  refine ⟨hs, hc, ?_, ?_⟩
  · rw [hcol 1 (by simp [sentColumns])]
    exact stoi_showInt hH
  · rw [hcol 2 (by simp [sentColumns])]
    exact stoi_showInt hD

/-- Nothing happens to a buffer that shows less than a whole sent package. -/
theorem getCompletedPackage_of_partial (h : Sendable soIp desIp data) {buffer : List Byte}
    (hvis : visible buffer <+: (sent soIp desIp data).dataVectorForSending)
    (hstart : currentVersion.length ≤ buffer.length → StartsRight buffer)
    (hlt : toInt buffer.length < (sent soIp desIp data).dataVectorForSending.length) :
    ∃ e, NotCompleted e ∧ getCompletedPackage buffer = .ok (notFound e buffer) := by
  by_cases hshort : buffer.length < currentVersion.length
  · exact ⟨_, .inl rfl, getCompletedPackage_of_short hshort⟩
  have hs := hstart (Nat.not_lt.mp hshort)
  by_cases hc : HeaderComplete buffer
  swap
  · exact ⟨_, .inr (.inl rfl), getCompletedPackage_of_incomplete hs hc⟩
  -- A column that is complete already is the column that was sent.
  have hcol : ∀ (k : Nat) (hk : k < (sentColumns soIp desIp data).length),
      headerColumn buffer k = (sentColumns soIp desIp data)[k] := by
    intro k hk
    obtain ⟨r, hr⟩ := h.header_isPrefix
    rw [headerColumn_eq_column hc hk hvis, ← hr,
      column_joinColumns segmentSymbol h.notMem_sentColumns r hk]
  have hread := headerRead_of_columns h hs hc hcol
  have hfit := h.fits
  rw [h.dataVectorForSending_length_eq] at hlt
  refine ⟨_, .inr (.inr rfl), ?_⟩
  rw [getCompletedPackage_of_headerRead hread, if_neg, if_pos (by push_cast at hlt; omega)]
  simp only [InInt, not_not]
  omega

/-! ### A whole package -/

theorem startsRight_of_isPrefix {buffer whole : List Byte} (hv : currentVersion <+: whole)
    (h : whole <+: buffer) : StartsRight buffer := by
  obtain ⟨r, rfl⟩ := hv.trans h
  refine ⟨by rw [List.length_append]; omega, ?_⟩
  rw [List.take_left]

theorem prefix_visible_append {front r : List Byte}
    (h : (front.length : Int) ≤ toInt (front ++ r).length) : front <+: visible (front ++ r) := by
  rw [visible, List.prefix_take_iff]
  exact ⟨List.prefix_append _ _, by omega⟩

/-- The two bytes after the covered ones carry the checksum. -/
theorem announcedSum_append {covered r : List Byte} {sum : Nat} (hsum : sum < 2 ^ 16) :
    announcedSum (covered ++ checksumBytes sum ++ r) covered.length = sum := by
  have hnat : ((covered.length : Int) + 1).toNat = covered.length + 1 := by omega
  rw [announcedSum, hnat, Int.toNat_natCast, List.append_assoc]
  simp only [List.getD_eq_getElem?_getD, List.getElem?_append_right (Nat.le_refl _),
    List.getElem?_append_right (Nat.le_add_right _ 1), Nat.sub_self, Nat.add_sub_cancel_left]
  exact sendedSum_checksumBytes hsum

/-- The header of a buffer that shows a whole sent package. -/
theorem headerColumn_of_sent (h : Sendable soIp desIp data) {r : List Byte}
    (hlen : ((sent soIp desIp data).dataVectorForSending.length : Int)
      ≤ toInt ((sent soIp desIp data).dataVectorForSending ++ r).length) (k : Nat)
    (hk : k < (sentColumns soIp desIp data).length) :
    headerColumn ((sent soIp desIp data).dataVectorForSending ++ r) k
      = (sentColumns soIp desIp data)[k] :=
  headerColumn_of_isPrefix h.notMem_sentColumns
    (h.header_isPrefix.trans (prefix_visible_append hlen)) hk

theorem headerRead_of_sent (h : Sendable soIp desIp data) {r : List Byte}
    (hlen : ((sent soIp desIp data).dataVectorForSending.length : Int)
      ≤ toInt ((sent soIp desIp data).dataVectorForSending ++ r).length) :
    HeaderRead ((sent soIp desIp data).dataVectorForSending ++ r) (sentHeader soIp desIp data)
      data.length :=
  headerRead_of_columns h (startsRight_of_isPrefix h.version_isPrefix (List.prefix_append _ _))
    (headerComplete_of_isPrefix h.notMem_sentColumns rfl
      (h.header_isPrefix.trans (prefix_visible_append hlen)))
    (headerColumn_of_sent h hlen)

/-- The package decoded from it is the package sent, in every field. -/
theorem decoded_of_sent (h : Sendable soIp desIp data) {r : List Byte}
    (hlen : ((sent soIp desIp data).dataVectorForSending.length : Int)
      ≤ toInt ((sent soIp desIp data).dataVectorForSending ++ r).length) :
    decoded ((sent soIp desIp data).dataVectorForSending ++ r) (sentHeader soIp desIp data)
      data.length = sent soIp desIp data := by
  have hcov : ((sentHeader soIp desIp data : Int) + data.length)
      = (sentCovered soIp desIp data).length := by
    rw [h.sentCovered_length]
    push_cast
    rfl
  have hsum : announcedSum ((sent soIp desIp data).dataVectorForSending ++ r)
      (sentHeader soIp desIp data + data.length) = (sent soIp desIp data).checksum := by
    rw [hcov, sent_dataVectorForSending]
    exact announcedSum_append (addCarries_lt _)
  have htake : ((sent soIp desIp data).dataVectorForSending ++ r).take
      ((sentHeader soIp desIp data : Int) + data.length + 2).toNat
      = (sent soIp desIp data).dataVectorForSending := by
    have := h.dataVectorForSending_length_eq
    rw [List.take_left' (by omega)]
  have hdata : (((sent soIp desIp data).dataVectorForSending ++ r).drop
      (sentHeader soIp desIp data : Int).toNat).take (data.length : Int).toNat = data := by
    rw [sent_dataVectorForSending, h.sentCovered_eq, List.append_assoc, List.append_assoc,
      List.drop_left' (by rw [h.joinColumns_length_eq]; omega), List.take_left' (by omega)]
  rw [decoded, hsum, htake, hdata, headerColumn_of_sent h hlen 0 (by simp [sentColumns]),
    headerColumn_of_sent h hlen 3 (by simp [sentColumns]),
    headerColumn_of_sent h hlen 4 (by simp [sentColumns]), ← h.toInt_data]
  rfl

/-- **A buffer that starts with a whole sent package** yields that package, in all
its fields, and keeps what follows; the one exception is a checksum the two sides
compute differently. -/
theorem getCompletedPackage_of_sent (h : Sendable soIp desIp data) {r : List Byte}
    (hlen : ((sent soIp desIp data).dataVectorForSending.length : Int)
      ≤ toInt ((sent soIp desIp data).dataVectorForSending ++ r).length) :
    getCompletedPackage ((sent soIp desIp data).dataVectorForSending ++ r) =
      if ChecksumsAgree (sentCovered soIp desIp data) then
        .ok ⟨some (sent soIp desIp data), .noError, r⟩
      else
        .ok (notFound .checksumError ((sent soIp desIp data).dataVectorForSending ++ r)) := by
  have hfit := h.fits
  have htotal := h.dataVectorForSending_length_eq
  have hcov : ((sentHeader soIp desIp data : Int) + data.length).toNat
      = (sentCovered soIp desIp data).length := by
    rw [h.sentCovered_length]
    omega
  have hcomputed : computedSum ((sent soIp desIp data).dataVectorForSending ++ r)
      (sentHeader soIp desIp data + data.length)
      = addCarries (signedSum (sentCovered soIp desIp data)) := by
    rw [computedSum, hcov, sent_dataVectorForSending, List.append_assoc, List.take_left]
  have hannounced : announcedSum ((sent soIp desIp data).dataVectorForSending ++ r)
      (sentHeader soIp desIp data + data.length)
      = addCarries (unsignedSum (sentCovered soIp desIp data)) := by
    rw [← h.checksum_eq]
    exact congrArg IoTPackage.checksum (decoded_of_sent h hlen)
  rw [getCompletedPackage_of_headerRead (headerRead_of_sent h hlen), if_neg, if_neg (by omega),
    if_neg (by omega), hcomputed, hannounced]
  · by_cases hck : ChecksumsAgree (sentCovered soIp desIp data)
    · have hrest : ((sent soIp desIp data).dataVectorForSending ++ r).drop
          ((sentHeader soIp desIp data : Int) + data.length + 2).toNat = r := by
        rw [List.drop_left' (by omega)]
      rw [if_pos hck, if_neg (not_not_intro ((addCarries_eq_iff _).mpr hck).symm),
        if_neg (by omega), if_neg (by omega), found, decoded_of_sent h hlen, hrest]
    · rw [if_neg hck, if_pos (fun he => hck ((addCarries_eq_iff _).mp he.symm))]
  · simp only [InInt, not_not]
    omega

/-- The round trip of a payload between two addresses, with the bytes `r` behind
it in the buffer. -/
def RoundTrip (soIp desIp : Text) (data r : List Byte) : Prop :=
  ∃ p q, ofVector protocolVersion soIp desIp (some data) = .ok p ∧
    getCompletedPackage (p.dataVectorForSending ++ r) = .ok ⟨some q, .noError, r⟩ ∧
    q.ver = protocolVersion ∧ q.sorIp = soIp ∧ q.desIp = desIp ∧ q.dataVector = data ∧
    q.checksum = p.checksum ∧ q.dataVectorForSending = p.dataVectorForSending

theorem visible_prefix_of_lt {front r : List Byte}
    (h : toInt (front ++ r).length < front.length) : visible (front ++ r) <+: front := by
  rw [visible, List.take_append_of_le_length (by omega)]
  exact List.take_prefix _ _

/-- **When a payload survives the round trip**: the decoder's `int` sees the whole
package, and the two checksum loops agree on its bytes. -/
theorem roundTrip_iff (h : Sendable soIp desIp data) (r : List Byte) :
    RoundTrip soIp desIp data r ↔
      ((sentHeader soIp desIp data + data.length + 2 : Nat) : Int)
          ≤ toInt (sentHeader soIp desIp data + data.length + 2 + r.length) ∧
        ChecksumsAgree (joinColumns segmentSymbol (sentColumns soIp desIp data) ++ data) := by
  rw [← h.sentCovered_eq, ← h.dataVectorForSending_length_eq, ← List.length_append]
  constructor
  · rintro ⟨p, q, hp, hq, -⟩
    obtain rfl : sent soIp desIp data = p := Except.ok.inj (h.ofVector_eq.symm.trans hp)
    by_cases hlen : ((sent soIp desIp data).dataVectorForSending.length : Int)
        ≤ toInt ((sent soIp desIp data).dataVectorForSending ++ r).length
    · rw [getCompletedPackage_of_sent h hlen] at hq
      by_cases hck : ChecksumsAgree (sentCovered soIp desIp data)
      · exact ⟨hlen, hck⟩
      · rw [if_neg hck] at hq
        simp [notFound] at hq
    · have hlt := Int.not_le.mp hlen
      obtain ⟨e, -, he⟩ := getCompletedPackage_of_partial h (visible_prefix_of_lt hlt)
        (fun _ => startsRight_of_isPrefix h.version_isPrefix (List.prefix_append _ _)) hlt
      rw [he] at hq
      simp [notFound] at hq
  · rintro ⟨hlen, hck⟩
    refine ⟨_, sent soIp desIp data, h.ofVector_eq, ?_, rfl, rfl, rfl, rfl, rfl, rfl⟩
    rw [getCompletedPackage_of_sent h hlen, if_pos hck]

theorem roundTrip_hello : RoundTrip (lit "0") (lit "Master") (lit "hello") (lit "IUDP") :=
  (roundTrip_iff ⟨.unassigned, .manager, by decide⟩ (lit "IUDP")).mpr
    ⟨by decide, by decide +kernel⟩

/-- One byte from `0x80` on is enough to lose the package. -/
theorem not_roundTrip_high : ¬ RoundTrip (lit "0") (lit "Master") [0x80] [] := by
  rintro ⟨p, q, hp, hq, -⟩
  have hrun : (ofVector protocolVersion (lit "0") (lit "Master") (some [0x80]) >>= fun p =>
      (getCompletedPackage (p.dataVectorForSending ++ [])).map Extraction.error)
      = .ok .checksumError := by decide +kernel
  rw [hp, ok_bind, hq] at hrun
  exact absurd hrun (by simp [Except.map])

end Sent

/-! ### Arbitrary bytes -/

/-- The decoder returns: a package with `NoError`, or NULL with the code of the
check that failed. -/
def Answers (buffer : List Byte) : Prop :=
  (∃ p rest, getCompletedPackage buffer = .ok ⟨some p, .noError, rest⟩) ∨
    ∃ e ∈ [GetPackageError.lengthIsNotLongEnough, .startWordError, .headerNotCompleted,
        .packageNotCompleted, .checksumError],
      ∃ rest, getCompletedPackage buffer = .ok ⟨none, e, rest⟩

/-- The announced lengths do not take the decoder outside `int` or the buffer. -/
def LengthsSafe (buffer : List Byte) (H D : Int) : Prop :=
  InInt (H + D) ∧ InInt (H + D + 2) ∧
    (H + D + 2 ≤ buffer.length → 0 ≤ H + D ∧
      (computedSum buffer (H + D) = announcedSum buffer (H + D) → 0 ≤ H ∧ 0 ≤ D))

theorem answers_of_headerRead_iff {buffer : List Byte} {H D : Int} (h : HeaderRead buffer H D)
    (hlt : buffer.length < 2 ^ 31) : Answers buffer ↔ LengthsSafe buffer H D := by
  have hsize := toInt_of_lt hlt
  rw [Answers, LengthsSafe, getCompletedPackage_of_headerRead h, hsize]
  by_cases hin : InInt (H + D) ∧ InInt (H + D + 2)
  swap
  · rw [if_pos hin]
    simp only [reduceCtorEq, exists_false, and_false, or_false, false_iff]
    exact fun hs => hin ⟨hs.1, hs.2.1⟩
  rw [if_neg (not_not_intro hin)]
  by_cases hlen : (buffer.length : Int) < H + D + 2
  · rw [if_pos hlen]
    exact iff_of_true (.inr ⟨_, by simp, _, rfl⟩) ⟨hin.1, hin.2, fun hh => absurd hlen (by omega)⟩
  rw [if_neg hlen]
  by_cases hneg : H + D < 0
  · rw [if_pos hneg]
    simp only [reduceCtorEq, exists_false, and_false, or_false, false_iff]
    exact fun hs => absurd (hs.2.2 (by omega)).1 (by omega)
  rw [if_neg hneg]
  by_cases hsum : computedSum buffer (H + D) = announcedSum buffer (H + D)
  swap
  · rw [if_pos hsum]
    exact iff_of_true (.inr ⟨_, by simp, _, rfl⟩)
      ⟨hin.1, hin.2, fun _ => ⟨by omega, fun hh => absurd hh hsum⟩⟩
  rw [if_neg (not_not_intro hsum)]
  by_cases hD : D < 0
  · rw [if_pos hD]
    simp only [reduceCtorEq, exists_false, and_false, or_false, false_iff]
    exact fun hs => absurd ((hs.2.2 (by omega)).2 hsum).2 (by omega)
  rw [if_neg hD]
  by_cases hH : H < 0
  · rw [if_pos hH]
    simp only [reduceCtorEq, exists_false, and_false, or_false, false_iff]
    exact fun hs => absurd ((hs.2.2 (by omega)).2 hsum).1 (by omega)
  rw [if_neg hH]
  exact iff_of_true (.inl ⟨_, _, rfl⟩)
    ⟨hin.1, hin.2, fun _ => ⟨by omega, fun _ => ⟨by omega, by omega⟩⟩⟩

/-- **On which buffers the decoder returns**: where it does not get as far as the length
columns, or reads two lengths there that it can safely go on with. -/
theorem answers_iff {buffer : List Byte} (h : buffer.length < 2 ^ 31) :
    Answers buffer ↔ ¬ StartsRight buffer ∨ ¬ HeaderComplete buffer ∨
      ∃ H D, stoi (headerColumn buffer 1) = .ok H ∧ stoi (headerColumn buffer 2) = .ok D ∧
        LengthsSafe buffer H D := by
  by_cases hs : StartsRight buffer
  swap
  · refine iff_of_true (.inr ?_) (.inl hs)
    by_cases hlen : buffer.length < currentVersion.length
    · exact ⟨_, by simp, _, getCompletedPackage_of_short hlen⟩
    · exact ⟨_, by simp, _, getCompletedPackage_of_badStart (Nat.not_lt.mp hlen) hs⟩
  by_cases hc : HeaderComplete buffer
  swap
  · exact iff_of_true (.inr ⟨_, by simp, _, getCompletedPackage_of_incomplete hs hc⟩)
      (.inr (.inl hc))
  simp only [hs, hc, not_true, false_or]
  cases h1 : stoi (headerColumn buffer 1) with
  | error e => simp [Answers, getCompletedPackage_of_badColumn hs hc (.inl h1)]
  | ok H =>
      cases h2 : stoi (headerColumn buffer 2) with
      | error e => simp [Answers, getCompletedPackage_of_badColumn hs hc (.inr ⟨⟨H, h1⟩, h2⟩)]
      | ok D => simp [answers_of_headerRead_iff ⟨hs, hc, h1, h2⟩ h]

theorem answers_junk : Answers (lit "GET / HTTP/1.1") :=
  (answers_iff (by decide)).mpr (.inl (by decide))

/-- A header length that is not a number: `std::stoi` throws. -/
theorem not_answers_letter :
    ¬ Answers (lit "IUDP1.0\x00x\x000\x00Master\x00Master\x00") := by
  have h : getCompletedPackage (lit "IUDP1.0\x00x\x000\x00Master\x00Master\x00")
      = .error .invalidArgument := by decide +kernel
  simp [Answers, h]

end IoTUtility

end IoTRepublic
