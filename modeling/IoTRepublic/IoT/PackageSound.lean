import IoTRepublic.IoT.Package
import IoTRepublic.Lib.Columns

/-!
# IoTRepublic.IoT.PackageSound

What the encoder writes, and when the header length it writes is right.

`packetToSendingVector_ok_iff` and `computeHeaderLength_ok_iff` describe the two
halves of a constructor; `ofVector_ok_iff` puts them together: a constructor
either raises or builds `assemble`, a closed form of the package in terms of the
joined header columns. Everything later in the development reads a built package
through `assemble`.

The header length is a fixed point: it counts its own digits. The constructors
guess the number of digits from the length of the rest of the header, and the
guess is off by one exactly where it matters (`headerLengthExact_iff`).

The proofs keep the two halves apart. Whether a constructor raises depends on sums of
`int`s only; whether the stored length is right depends on the digits of a number that is
itself the sum of their count and the rest. For the second, `HeaderSolved` lists the
ranges in which the guessed number of digits is the true one, and three more in which the
`int` sum and the true size differ and happen to meet again.
-/

namespace IoTRepublic

open Cpp Columns

namespace IoTPackage

/-! ### The closed form of a built package -/

/-- The five header columns as they go on the wire. -/
def headerColumns (ver : Text) (headerLength dataLength : Int) (soIp desIp : Text) : List Text :=
  [visible ver, showInt headerLength, showInt dataLength, visible soIp, visible desIp]

/-- The bytes of the header: every column with its terminator. -/
def headerBytes (ver : Text) (headerLength dataLength : Int) (soIp desIp : Text) : List Byte :=
  joinColumns segmentSymbol (headerColumns ver headerLength dataLength soIp desIp)

/-- The bytes the checksum covers. -/
def coveredBytes (ver : Text) (headerLength : Int) (soIp desIp : Text) (data : List Byte) :
    List Byte :=
  headerBytes ver headerLength (toInt data.length) soIp desIp
    ++ data.take (toInt data.length).toNat

/-- The package a constructor builds once the header length is known. -/
def assemble (ver soIp desIp : Text) (data : List Byte) (headerLength : Int) : IoTPackage :=
  let covered := coveredBytes ver headerLength soIp desIp data
  let sum := addCarries (unsignedSum (visible covered))
  { isCompletedPackage := true, ver := ver, sorIp := soIp, desIp := desIp
    headerLength := headerLength, dataLength := toInt data.length, dataVector := data
    checksum := sum, dataVectorForSending := covered ++ checksumBytes sum }

/-- The sums `PacketToSendingVector` takes before it reserves fit an `int`, and
the result is a legal capacity. -/
def Reservable (headerLength dataLength : Int) : Prop :=
  InInt (headerLength + dataLength) ∧ InInt (headerLength + dataLength + 2) ∧
    0 ≤ headerLength + dataLength + 2

theorem packetToSendingVector_ok_iff {ver soIp desIp : Text} {data : List Byte}
    {headerLength : Int} {p : IoTPackage} :
    packetToSendingVector
        { isCompletedPackage := true, ver := ver, sorIp := soIp, desIp := desIp
          dataLength := toInt data.length, headerLength := headerLength, dataVector := data }
        = .ok p ↔
      Reservable headerLength (toInt data.length) ∧
        p = assemble ver soIp desIp data headerLength := by
  have hheader : ([] : List Byte) ++ visible ver ++ [segmentSymbol] ++ showInt headerLength
      ++ [segmentSymbol] ++ showInt (toInt data.length) ++ [segmentSymbol] ++ visible soIp
      ++ [segmentSymbol] ++ visible desIp ++ [segmentSymbol]
      = headerBytes ver headerLength (toInt data.length) soIp desIp := by
    simp [headerBytes, headerColumns]
  simp only [packetToSendingVector, bind_ok_iff, addInt_ok_iff, atRange_toInt, hheader,
    reserve_ok_iff, ok_bind, pure_eq_ok, Except.ok.injEq]
  constructor
  · rintro ⟨_, ⟨h1, rfl⟩, _, ⟨h2, rfl⟩, _, h3, rfl⟩
    exact ⟨⟨h1, h2, h3⟩, rfl⟩
  · rintro ⟨⟨h1, h2, h3⟩, rfl⟩
    exact ⟨_, ⟨h1, rfl⟩, _, ⟨h2, rfl⟩, (), h3, rfl⟩

/-! ### The header length -/

/-- The running sum of the constructors: the lengths of the four columns other
than the header length's own, with their terminators. -/
def columnSum (ver soIp desIp : Text) (dataLength : Int) : Int :=
  toInt (ver.length + soIp.length + desIp.length + (showInt dataLength).length + 4)

/-- The bytes these four columns take on the wire. -/
def columnBytes (ver soIp desIp : Text) (dataLength : Int) : Nat :=
  (visible ver).length + (visible soIp).length + (visible desIp).length
    + (showInt dataLength).length + 4

/-- The length the constructors store for a running sum `h`. -/
def paddedLength (h : Int) : Int :=
  if h ≤ 8 then h + 2 else if h ≤ 97 then h + 3 else h + 4

theorem paddedLength_of_le_eight {h : Int} (h8 : h ≤ 8) : paddedLength h = h + 2 := by
  rw [paddedLength, if_pos h8]

theorem paddedLength_of_le_ninetySeven {h : Int} (h8 : 8 < h) (h97 : h ≤ 97) :
    paddedLength h = h + 3 := by
  rw [paddedLength, if_neg (by omega), if_pos h97]

theorem paddedLength_of_long {h : Int} (h97 : 97 < h) : paddedLength h = h + 4 := by
  rw [paddedLength, if_neg (by omega), if_neg (by omega)]

theorem computeHeaderLength_ok_iff {ver soIp desIp : Text} {dataLength headerLength : Int} :
    computeHeaderLength ver soIp desIp dataLength = .ok headerLength ↔
      headerLength = paddedLength (columnSum ver soIp desIp dataLength) ∧ InInt headerLength := by
  have hsum : addSize (addSize (addSize (addSize 0 (ver.length + 1)) (soIp.length + 1))
      (desIp.length + 1)) ((showInt dataLength).length + 1)
      = columnSum ver soIp desIp dataLength := by
    rw [addSize_addSize, addSize_addSize, addSize_addSize, addSize_zero, columnSum]
    congr 1
    omega
  have hin : InInt (columnSum ver soIp desIp dataLength) := inInt_toInt _
  simp only [computeHeaderLength, hsum, paddedLength]
  generalize columnSum ver soIp desIp dataLength = h at hin
  obtain ⟨hlo, hhi⟩ := hin
  -- The two additions of one branch are one addition of their total.
  have htwo : ∀ k : Int, 0 ≤ k →
      ((addInt h k >>= fun g => addInt g 1) = .ok headerLength ↔
        headerLength = h + (k + 1) ∧ InInt headerLength) := by
    intro k hk
    simp only [bind_ok_iff, addInt_ok_iff]
    constructor
    · rintro ⟨_, ⟨-, rfl⟩, h2, rfl⟩
      exact ⟨by omega, h2⟩
    · rintro ⟨rfl, h2⟩
      rw [← Int.add_assoc] at h2 ⊢
      refine ⟨_, ⟨⟨?_, ?_⟩, rfl⟩, h2, rfl⟩ <;> simp only [InInt] at h2 <;> omega
  split
  · exact htwo 1 (by norm_num)
  · split
    · exact htwo 2 (by norm_num)
    · exact htwo 3 (by norm_num)

/-! ### The constructors -/

theorem ofVector_ok_iff {ver soIp desIp : Text} {data : List Byte} {p : IoTPackage} :
    ofVector ver soIp desIp (some data) = .ok p ↔
      ∃ headerLength,
        headerLength = paddedLength (columnSum ver soIp desIp (toInt data.length)) ∧
        InInt headerLength ∧ Reservable headerLength (toInt data.length) ∧
        p = assemble ver soIp desIp data headerLength := by
  simp only [ofVector, Option.getD_some, bind_ok_iff, computeHeaderLength_ok_iff,
    packetToSendingVector_ok_iff, and_assoc]

/-- The package has a size the constructors can reserve. -/
def Packable (ver soIp desIp : Text) (data : List Byte) : Prop :=
  let headerLength := paddedLength (columnSum ver soIp desIp (toInt data.length))
  InInt headerLength ∧ Reservable headerLength (toInt data.length)

theorem returns_ofVector_iff {ver soIp desIp : Text} {data : List Byte} :
    Returns (ofVector ver soIp desIp (some data)) ↔ Packable ver soIp desIp data := by
  constructor
  · rintro ⟨p, h⟩
    obtain ⟨headerLength, rfl, hin, hr, -⟩ := ofVector_ok_iff.mp h
    exact ⟨hin, hr⟩
  · rintro ⟨hin, hr⟩
    exact ⟨_, ofVector_ok_iff.mpr ⟨_, rfl, hin, hr, rfl⟩⟩

/-- The null pointer stands for an empty payload. -/
theorem ofVector_none (ver soIp desIp : Text) :
    ofVector ver soIp desIp none = ofVector ver soIp desIp (some []) := rfl

/-- The string constructors differ only in reserving `DataLength` first. -/
theorem ofString_ok_iff {ver soIp desIp data : Text} {p : IoTPackage} :
    ofString ver soIp desIp data = .ok p ↔
      ofVector ver soIp desIp (some data) = .ok p ∧ 0 ≤ toInt data.length := by
  simp only [ofString, ofVector, Option.getD_some, bind_ok_iff, reserve_ok_iff]
  constructor
  · rintro ⟨h, hh, _, hd, hp⟩
    exact ⟨⟨h, hh, hp⟩, hd⟩
  · rintro ⟨⟨h, hh, hp⟩, hd⟩
    exact ⟨h, hh, (), hd, hp⟩

theorem returns_ofString_iff {ver soIp desIp data : Text} :
    Returns (ofString ver soIp desIp data) ↔
      Packable ver soIp desIp data ∧ 0 ≤ toInt data.length := by
  rw [← returns_ofVector_iff]
  constructor
  · rintro ⟨p, h⟩
    obtain ⟨hp, hd⟩ := ofString_ok_iff.mp h
    exact ⟨⟨p, hp⟩, hd⟩
  · rintro ⟨⟨p, hp⟩, hd⟩
    exact ⟨p, ofString_ok_iff.mpr ⟨hp, hd⟩⟩

/-- The checksum alone makes two bytes. -/
theorem dataVectorForSending_ne_nil {ver soIp desIp : Text} {data : List Byte} {p : IoTPackage}
    (h : ofVector ver soIp desIp (some data) = .ok p) : p.dataVectorForSending ≠ [] := by
  obtain ⟨headerLength, -, -, -, rfl⟩ := ofVector_ok_iff.mp h
  simp [assemble, checksumBytes]

/-! ### When the header length is right -/

/-- The payload argument of the constructors. -/
inductive Payload
  /-- The null pointer. -/
  | null
  | vector (data : List Byte)
  | string (data : Text)

/-- The bytes a constructor packs. -/
def Payload.bytes : Payload → List Byte
  | null => []
  | vector data => data
  | string data => data

/-- The constructor the payload's type selects. -/
def construct (ver soIp desIp : Text) : Payload → Except Fault IoTPackage
  | .null => ofVector ver soIp desIp none
  | .vector data => ofVector ver soIp desIp (some data)
  | .string data => ofString ver soIp desIp data

/-- The call builds a package whose `HeaderLength` is the number of bytes that
precede the payload in `DataVectorForSending`; two checksum bytes follow it. -/
def HeaderLengthExact (built : Except Fault IoTPackage) : Prop :=
  ∃ p header checksum, built = .ok p ∧
    p.dataVectorForSending = header ++ p.dataVector.take p.dataLength.toNat ++ checksum ∧
    checksum.length = 2 ∧ p.headerLength = header.length

/-- The fixed-point equation is solved for a header whose other four columns
take `w` bytes, when the running sum is `h` and the payload length is `d`. The
two numbers agree (`h = w`) unless a string of 2 GiB or more wraps its length;
the last three cases are the accidents this makes possible. -/
inductive HeaderSolved (w : Nat) (h d : Int) : Prop
  | oneDigit (hw : h = w) (hi : w ≤ 7) (hr : Reservable (w + 2) d)
  | twoDigits (hw : h = w) (lo : 9 ≤ w) (hi : w ≤ 96) (hr : Reservable (w + 3) d)
  | threeDigits (hw : h = w) (lo : 98 ≤ w) (hi : w ≤ 995) (hr : Reservable (w + 4) d)
  | wrappedEight (hh : h = 8) (hw : w = 7) (hr : Reservable 10 d)
  | wrappedNinetySeven (hh : h = 97) (hw : w = 96) (hr : Reservable 100 d)
  | wrappedLong (lo : 996 ≤ h) (hi : InInt (h + 4)) (hw : (showInt (h + 4)).length + w = h + 3)
      (hr : Reservable (h + 4) d)

theorem headerBytes_length (ver soIp desIp : Text) (headerLength dataLength : Int) :
    (headerBytes ver headerLength dataLength soIp desIp).length
      = columnBytes ver soIp desIp dataLength + (showInt headerLength).length + 1 := by
  simp only [headerBytes, headerColumns, joinColumns_length, List.map_cons, List.map_nil,
    List.sum_cons, List.sum_nil, columnBytes]
  omega

theorem dataVectorForSending_length {ver soIp desIp : Text} {data : List Byte} {H : Int} :
    (assemble ver soIp desIp data H).dataVectorForSending.length
      = (headerBytes ver H (toInt data.length) soIp desIp).length
        + (data.take (toInt data.length).toNat).length + 2 := by
  simp only [assemble, coveredBytes, List.length_append, checksumBytes, List.length_cons,
    List.length_nil]

theorem headerLengthExact_assemble_iff {ver soIp desIp : Text} {data : List Byte} {H : Int} :
    HeaderLengthExact (.ok (assemble ver soIp desIp data H)) ↔
      H = columnBytes ver soIp desIp (toInt data.length) + (showInt H).length + 1 := by
  have hlen := headerBytes_length ver soIp desIp H (toInt data.length)
  constructor
  · rintro ⟨_, header, checksum, hp, hsend, hck, hH⟩
    obtain rfl := Except.ok.inj hp
    have := congrArg List.length hsend
    rw [dataVectorForSending_length, List.length_append, List.length_append] at this
    simp only [assemble] at hH this
    omega
  · intro hH
    refine ⟨_, headerBytes ver H (toInt data.length) soIp desIp, _, rfl, rfl, rfl, ?_⟩
    simp only [assemble]
    omega

theorem headerLengthExact_ofVector_iff {ver soIp desIp : Text} {data : List Byte} :
    HeaderLengthExact (ofVector ver soIp desIp (some data)) ↔
      ∃ H, H = paddedLength (columnSum ver soIp desIp (toInt data.length)) ∧
        InInt H ∧ Reservable H (toInt data.length) ∧
        H = columnBytes ver soIp desIp (toInt data.length) + (showInt H).length + 1 := by
  constructor
  · rintro ⟨p, header, checksum, hp, hrest⟩
    obtain ⟨H, h1, h2, h3, rfl⟩ := ofVector_ok_iff.mp hp
    exact ⟨H, h1, h2, h3, headerLengthExact_assemble_iff.mp ⟨_, header, checksum, rfl, hrest⟩⟩
  · rintro ⟨H, h1, h2, h3, h4⟩
    rw [ofVector_ok_iff.mpr ⟨H, h1, h2, h3, rfl⟩]
    exact headerLengthExact_assemble_iff.mpr h4

/-- The number of digits of a numeral, for the sizes the thresholds tell apart. -/
theorem showInt_length_cases {n : Int} (h : 0 ≤ n) :
    ((showInt n).length ≤ 1 ↔ n < 10) ∧ ((showInt n).length ≤ 2 ↔ n < 100) ∧
      ((showInt n).length ≤ 3 ↔ n < 1000) := by
  rw [showInt_of_nonneg h]
  have h1 := showNat_length_le_iff (n := n.toNat) (k := 1) (by norm_num)
  have h2 := showNat_length_le_iff (n := n.toNat) (k := 2) (by norm_num)
  have h3 := showNat_length_le_iff (n := n.toNat) (k := 3) (by norm_num)
  omega

/-- A guess that solves the equation is one of the cases of `HeaderSolved`. -/
theorem headerSolved_of_fixed {w : Nat} {h d : Int} (hw : 5 ≤ w) (hin : InInt (paddedLength h))
    (hr : Reservable (paddedLength h) d)
    (hfix : paddedLength h = w + (showInt (paddedLength h)).length + 1) : HeaderSolved w h d := by
  obtain ⟨h1, h2, h3⟩ := showInt_length_cases (n := paddedLength h) (by omega)
  have hpos := showInt_length_pos (paddedLength h)
  rcases le_or_gt h 8 with h8 | h8
  · rw [paddedLength_of_le_eight h8] at hin hr hfix h1 h2 h3 hpos
    by_cases he : h = 8
    · subst he
      exact .wrappedEight rfl (by omega) hr
    · have hw' : h = w := by omega
      exact .oneDigit hw' (by omega) (hw' ▸ hr)
  rcases le_or_gt h 97 with h97 | h97
  · rw [paddedLength_of_le_ninetySeven h8 h97] at hin hr hfix h1 h2 h3 hpos
    by_cases he : h = 97
    · subst he
      exact .wrappedNinetySeven rfl (by omega) hr
    · have hw' : h = w := by omega
      exact .twoDigits hw' (by omega) (by omega) (hw' ▸ hr)
  · rw [paddedLength_of_long h97] at hin hr hfix h1 h2 h3 hpos
    by_cases he : h ≤ 995
    · have hw' : h = w := by omega
      exact .threeDigits hw' (by omega) (by omega) (hw' ▸ hr)
    · exact .wrappedLong (by omega) hin (by omega) hr

/-- In these cases the guess solves it: each of them fixes the branch of `paddedLength`,
then the digit count. -/
theorem fixed_of_headerSolved {w : Nat} {h d : Int} (hw : 5 ≤ w) (hs : HeaderSolved w h d) :
    InInt (paddedLength h) ∧ Reservable (paddedLength h) d ∧
      paddedLength h = w + (showInt (paddedLength h)).length + 1 := by
  have key : ∀ H : Int, paddedLength h = H → InInt H → 0 ≤ H → Reservable H d →
      H = w + (showInt H).length + 1 →
      InInt (paddedLength h) ∧ Reservable (paddedLength h) d ∧
        paddedLength h = w + (showInt (paddedLength h)).length + 1 := by
    rintro H rfl hin - hr hfix
    exact ⟨hin, hr, hfix⟩
  cases hs with
  | oneDigit hw hi hr =>
      subst hw
      have := showInt_length_cases (n := (w : Int) + 2) (by omega)
      have := showInt_length_pos ((w : Int) + 2)
      refine key _ (paddedLength_of_le_eight (by omega)) ?_ (by omega) hr (by omega)
      simp only [InInt]; omega
  | twoDigits hw lo hi hr =>
      subst hw
      have := showInt_length_cases (n := (w : Int) + 3) (by omega)
      have := showInt_length_pos ((w : Int) + 3)
      refine key _ (paddedLength_of_le_ninetySeven (by omega) (by omega)) ?_ (by omega) hr
        (by omega)
      simp only [InInt]; omega
  | threeDigits hw lo hi hr =>
      subst hw
      have := showInt_length_cases (n := (w : Int) + 4) (by omega)
      have := showInt_length_pos ((w : Int) + 4)
      refine key _ (paddedLength_of_long (by omega)) ?_ (by omega) hr (by omega)
      simp only [InInt]; omega
  | wrappedEight hh hw hr =>
      subst hh hw
      exact key 10 rfl (by decide) (by norm_num) hr (by decide)
  | wrappedNinetySeven hh hw hr =>
      subst hh hw
      exact key 100 rfl (by decide) (by norm_num) hr (by decide)
  | wrappedLong lo hi hw hr =>
      exact key _ (paddedLength_of_long (by omega)) hi (by omega) hr (by omega)

/-- The thresholds solve the equation exactly in the cases of `HeaderSolved`. -/
theorem paddedLength_fixed_iff {w : Nat} {h d : Int} (hw : 5 ≤ w) :
    (InInt (paddedLength h) ∧ Reservable (paddedLength h) d ∧
        paddedLength h = w + (showInt (paddedLength h)).length + 1) ↔ HeaderSolved w h d :=
  ⟨fun ⟨hin, hr, hfix⟩ => headerSolved_of_fixed hw hin hr hfix, fixed_of_headerSolved hw⟩

theorem five_le_columnBytes (ver soIp desIp : Text) (dataLength : Int) :
    5 ≤ columnBytes ver soIp desIp dataLength := by
  have := showInt_length_pos dataLength
  simp only [columnBytes]
  omega

/-- **When the stored header length is the true one**, for every constructor and
all arguments. -/
theorem headerLengthExact_iff (ver soIp desIp : Text) (payload : Payload) :
    HeaderLengthExact (construct ver soIp desIp payload) ↔
      HeaderSolved (columnBytes ver soIp desIp (toInt payload.bytes.length))
        (columnSum ver soIp desIp (toInt payload.bytes.length)) (toInt payload.bytes.length) ∧
      ∀ data, payload = .string data → 0 ≤ toInt data.length := by
  have key : ∀ data, HeaderLengthExact (ofVector ver soIp desIp (some data)) ↔
      HeaderSolved (columnBytes ver soIp desIp (toInt data.length))
        (columnSum ver soIp desIp (toInt data.length)) (toInt data.length) := by
    intro data
    rw [headerLengthExact_ofVector_iff,
      ← paddedLength_fixed_iff (five_le_columnBytes ver soIp desIp (toInt data.length))]
    simp only [exists_eq_left]
  cases payload with
  | null => simpa [construct, Payload.bytes, ofVector_none] using key []
  | vector data => simpa [construct, Payload.bytes] using key data
  | string data =>
      simp only [construct, Payload.bytes, Payload.string.injEq, forall_eq', ← key]
      constructor
      · rintro ⟨p, header, checksum, hp, hrest⟩
        obtain ⟨hv, hd⟩ := ofString_ok_iff.mp hp
        exact ⟨⟨p, header, checksum, hv, hrest⟩, hd⟩
      · rintro ⟨⟨p, header, checksum, hv, hrest⟩, hd⟩
        exact ⟨p, header, checksum, ofString_ok_iff.mpr ⟨hv, hd⟩, hrest⟩

/-- The 97-byte boundary: with a 79-byte source address the constructor stores
100 for a header of 101 bytes. -/
theorem headerLength_wrong_at_97 :
    ¬ HeaderLengthExact
      (construct protocolVersion (List.replicate 79 'x'.toUInt8) (lit "Master") .null) := by
  rw [construct, ofVector_none, headerLengthExact_ofVector_iff]
  rintro ⟨_, rfl, -, -, hfix⟩
  revert hfix
  decide

/-- For strings of ordinary size the running sum is the length on the wire. -/
theorem columnSum_eq_columnBytes {ver soIp desIp : Text} {dataLength : Int} (hd : InInt dataLength)
    (h : ver.length + soIp.length + desIp.length + 15 < 2 ^ 31) :
    columnSum ver soIp desIp dataLength = columnBytes ver soIp desIp dataLength := by
  have hdig := showInt_length_le hd
  rw [columnSum, toInt_of_lt (by omega), columnBytes, visible_of_lt (by omega),
    visible_of_lt (by omega), visible_of_lt (by omega)]

end IoTPackage

end IoTRepublic
