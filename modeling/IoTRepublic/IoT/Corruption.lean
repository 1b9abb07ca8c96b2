import IoTRepublic.IoT.SentPackage

/-!
# IoTRepublic.IoT.Corruption

One wrong byte behind the header.

The header columns of a buffer do not depend on what stands behind them, so a
decoder that meets a changed byte there comes to the same checksum test. Changing
one covered byte moves the accumulator by less than 256, or by one more or less
where it wraps at `2 ^ 32`; neither is a multiple of 65535, except for the step
between `2 ^ 32 - 1` and zero, and zero folds to itself only.
-/

namespace IoTRepublic

open Cpp Columns

namespace IoTUtility

/-! ### The header is the same -/

/-- Byte `i` stands behind the five columns. -/
def BehindHeader (buffer : List Byte) (i : Nat) : Prop :=
  headerColumns ≤ (buffer.take i).count IoTPackage.segmentSymbol

instance (buffer : List Byte) (i : Nat) : Decidable (BehindHeader buffer i) :=
  inferInstanceAs (Decidable (_ ≤ _))

section Header

variable {buffer : List Byte} {i : Nat} (hi : BehindHeader buffer i) (b : Byte)

include hi

theorem headerColumn_set (hlt : buffer.length < 2 ^ 31) {k : Nat} (hk : k < headerColumns) :
    headerColumn (buffer.set i b) k = headerColumn buffer k := by
  have hfront : (buffer.set i b).take i = buffer.take i := List.take_set_of_le (le_refl i)
  have hsame : ∀ whole : List Byte, whole.take i = buffer.take i →
      column IoTPackage.segmentSymbol k whole
        = column IoTPackage.segmentSymbol k (buffer.take i) := by
    intro whole htake
    conv_lhs => rw [← List.take_append_drop i whole, htake]
    exact column_append IoTPackage.segmentSymbol _ (Nat.lt_of_lt_of_le hk hi)
  rw [headerColumn, headerColumn, visible_of_lt (by rwa [List.length_set]), visible_of_lt hlt,
    hsame _ hfront, hsame _ rfl]

theorem headerComplete_set (hlt : buffer.length < 2 ^ 31) : HeaderComplete (buffer.set i b) := by
  rw [HeaderComplete, visible_of_lt (by rwa [List.length_set])]
  refine le_trans hi ?_
  rw [← List.take_set_of_le (le_refl i) (a := b)]
  exact (List.take_sublist _ _).count_le _

/-- The start word holds no NUL, so a byte behind five NULs is behind it. -/
theorem startsRight_set (h : StartsRight buffer) : StartsRight (buffer.set i b) := by
  have hle : currentVersion.length ≤ i := by
    by_contra hshort
    have hsub : (buffer.take i).Sublist currentVersion := by
      rw [← h.2]
      exact (List.take_prefix_take_left (by omega)).sublist
    have hcount := hsub.count_le IoTPackage.segmentSymbol
    have hzero : currentVersion.count IoTPackage.segmentSymbol = 0 := by decide
    have hfive := hi
    rw [BehindHeader, headerColumns] at hfive
    omega
  refine ⟨by rw [List.length_set]; exact h.1, ?_⟩
  rw [List.take_set_of_le hle]
  exact h.2

theorem headerRead_set (hlt : buffer.length < 2 ^ 31) {H D : Int} (h : HeaderRead buffer H D) :
    HeaderRead (buffer.set i b) H D where
  starts := startsRight_set hi b h.starts
  complete := headerComplete_set hi b hlt
  header := by rw [headerColumn_set hi b hlt (by decide)]; exact h.header
  data := by rw [headerColumn_set hi b hlt (by decide)]; exact h.data

end Header

/-! ### The checksum is not -/

theorem signedChar_bounds (b : Byte) : -128 ≤ signedChar b ∧ signedChar b ≤ 127 := by
  have h := b.toNat_lt
  rw [signedChar_eq]
  split <;> omega

theorem signedChar_injective : Function.Injective signedChar := by
  intro b c h
  have hb := b.toNat_lt
  have hc := c.toNat_lt
  rw [signedChar_eq, signedChar_eq] at h
  refine UInt8.toNat.inj ?_
  split at h <;> split at h <;> omega

/-- The accumulator of the decoder, as one sum. -/
theorem signedSum_eq_sum (bytes : List Byte) :
    (signedSum bytes : Int) = (bytes.map signedChar).sum % 2 ^ 32 := by
  have htotal : ((byteTotal bytes : Int) - 256 * highBytes bytes) = (bytes.map signedChar).sum := by
    induction bytes with
    | nil => rfl
    | cons b rest ih =>
        rw [byteTotal_cons, highBytes_cons, List.map_cons, List.sum_cons, ← ih, signedChar_eq]
        split <;> split <;> omega
  rw [signedSum_eq, htotal]

/-- **One byte changes the folded checksum**, wherever the accumulator stands. -/
theorem addCarries_signedSum_ne {front back : List Byte} {b c : Byte} (hne : b ≠ c) :
    IoTPackage.addCarries (signedSum (front ++ b :: back))
      ≠ IoTPackage.addCarries (signedSum (front ++ c :: back)) := by
  intro heq
  rw [IoTPackage.addCarries, IoTPackage.addCarries, EndAroundCarry.foldCarry_eq_iff] at heq
  obtain ⟨hzero, hmod⟩ := heq
  have hvalue : signedChar b ≠ signedChar c := fun h => hne (signedChar_injective h)
  have hsum : ∀ a : Byte, (signedSum (front ++ a :: back) : Int)
      = ((front.map signedChar).sum + (back.map signedChar).sum + signedChar a) % 2 ^ 32 := by
    intro a
    rw [signedSum_eq_sum, List.map_append, List.map_cons, List.sum_append, List.sum_cons]
    congr 1
    omega
  have hb := hsum b
  have hc := hsum c
  have hrangeB := signedChar_bounds b
  have hrangeC := signedChar_bounds c
  generalize signedSum (front ++ b :: back) = x at hzero hmod hb
  generalize signedSum (front ++ c :: back) = y at hzero hmod hc
  -- The two accumulators differ as the bytes do, up to one wrap of either.
  have hwrap : ∃ q : Int, -1 ≤ q ∧ q ≤ 1 ∧
      (x : Int) - y = signedChar b - signedChar c + 2 ^ 32 * q := by
    refine ⟨(x - y - (signedChar b - signedChar c)) / 2 ^ 32, ?_, ?_, ?_⟩ <;> omega
  obtain ⟨q, hq, hq', hdiff⟩ := hwrap
  have hdvd : (65535 : Int) ∣ y - x :=
    Int.modEq_iff_dvd.mp ((Int.natCast_modEq_iff (n := 65535)).mpr hmod)
  rcases (by omega : q = -1 ∨ q = 0 ∨ q = 1) with rfl | rfl | rfl <;> omega

theorem sendedSum_eq (high low : Byte) : sendedSum high low = high.toNat * 256 + low.toNat := by
  have hlow := low.toNat_lt
  rw [sendedSum, ← Nat.shiftLeft_add_eq_or_of_lt (by omega), Nat.shiftLeft_eq]

theorem sendedSum_inj {high low high' low' : Byte} (h : sendedSum high low = sendedSum high' low') :
    high = high' ∧ low = low' := by
  have hlow := low.toNat_lt
  have hlow' := low'.toNat_lt
  rw [sendedSum_eq, sendedSum_eq] at h
  exact ⟨UInt8.toNat.inj (by omega), UInt8.toNat.inj (by omega)⟩

/-- A changed byte among the first `n`, or one of the two behind them, separates the
checksum computed from the checksum announced. -/
theorem computedSum_set_ne {buffer : List Byte} {i : Nat} {b : Byte} {n : Int} (h0 : 0 ≤ n)
    (hfit : n + 2 ≤ buffer.length) (hi : (i : Int) < n + 2) (hb : buffer[i]? ≠ some b)
    (hsum : computedSum buffer n = announcedSum buffer n) :
    computedSum (buffer.set i b) n ≠ announcedSum (buffer.set i b) n := by
  obtain ⟨m, rfl⟩ := Int.eq_ofNat_of_zero_le h0
  have hlen : i < buffer.length := by omega
  have hne : buffer[i] ≠ b := fun h => hb (by rw [List.getElem?_eq_getElem hlen, h])
  have hget : ∀ j, j ≠ i → (buffer.set i b).getD j 0 = buffer.getD j 0 := by
    intro j hj
    rw [List.getD_eq_getElem?_getD, List.getD_eq_getElem?_getD, List.getElem?_set_ne hj.symm]
  have hgetSelf : (buffer.set i b).getD i 0 = b := by
    rw [List.getD_eq_getElem?_getD, List.getElem?_set_self hlen, Option.getD_some]
  have hgetOld : buffer.getD i 0 = buffer[i] := by
    rw [List.getD_eq_getElem?_getD, List.getElem?_eq_getElem hlen, Option.getD_some]
  simp only [computedSum, announcedSum, Int.toNat_natCast,
    show ((m : Int) + 1).toNat = m + 1 by omega] at hsum ⊢
  by_cases him : i < m
  · -- A covered byte.
    rw [hget m (by omega), hget (m + 1) (by omega), ← hsum]
    have htake : buffer.take m
        = buffer.take i ++ buffer[i] :: (buffer.take m).drop (i + 1) := by
      have hi' : i < (buffer.take m).length := by rw [List.length_take]; omega
      conv_lhs => rw [← List.take_append_drop i (buffer.take m), List.drop_eq_getElem_cons hi']
      rw [List.take_take, Nat.min_eq_left him.le, List.getElem_take]
    have htakeSet : (buffer.set i b).take m
        = buffer.take i ++ b :: (buffer.take m).drop (i + 1) := by
      have hlenTake : (buffer.take i).length = i := by
        rw [List.length_take]
        omega
      conv_lhs => rw [List.take_set, htake, List.set_append_right _ _ hlenTake.le, hlenTake,
        Nat.sub_self, List.set_cons_zero]
    rw [htakeSet]
    conv_rhs => rw [htake]
    exact addCarries_signedSum_ne (Ne.symm hne)
  · -- A byte of the checksum.
    rw [List.take_set_of_le (Nat.not_lt.mp him), hsum]
    intro heq
    obtain ⟨hhigh, hlow⟩ := sendedSum_inj heq
    rcases (by omega : i = m ∨ i = m + 1) with rfl | rfl
    · rw [hgetSelf, hgetOld] at hhigh
      exact hne hhigh
    · rw [hgetSelf, hgetOld] at hlow
      exact hne hlow

/-! ### Detection -/

/-- **A single wrong byte is detected**, wherever it stands between the header and
the end of the package. -/
theorem checksumError_of_set {buffer : List Byte} {p : IoTPackage} {e : GetPackageError}
    {rest : List Byte} {i : Nat} {b : Byte} (hlt : buffer.length < 2 ^ 31)
    (h : getCompletedPackage buffer = .ok ⟨some p, e, rest⟩) (hi : BehindHeader buffer i)
    (hend : (i : Int) < p.headerLength + p.dataLength + 2) (hb : buffer[i]? ≠ some b) :
    getCompletedPackage (buffer.set i b) = .ok ⟨none, .checksumError, buffer.set i b⟩ := by
  obtain ⟨H, D, hc, -, rfl, -⟩ := getCompletedPackage_some h
  have hfits := hc.fits
  have hH := hc.header_nonneg
  have hD := hc.data_nonneg
  rw [toInt_of_lt hlt] at hfits
  have hread := headerRead_set hi b hlt hc.read
  have hsum := computedSum_set_ne (n := H + D) (by omega) hfits hend hb hc.sum
  rw [getCompletedPackage_of_headerRead hread, if_neg (not_not_intro hc.inInt), List.length_set,
    toInt_of_lt hlt, if_neg (by omega), if_neg (by omega), if_pos hsum]
  rfl

theorem checksumError_of_set_hello :
    getCompletedPackage
        ((sent (lit "0") (lit "Master") (lit "hello")).dataVectorForSending.set 22 0x48)
      = .ok ⟨none, .checksumError,
          (sent (lit "0") (lit "Master") (lit "hello")).dataVectorForSending.set 22 0x48⟩ := by
  have hrun : getCompletedPackage (sent (lit "0") (lit "Master") (lit "hello")).dataVectorForSending
      = .ok ⟨some (sent (lit "0") (lit "Master") (lit "hello")), .noError, []⟩ := by decide +kernel
  exact checksumError_of_set (by decide +kernel) hrun (by decide +kernel) (by decide +kernel)
    (by decide +kernel)

end IoTUtility

end IoTRepublic
