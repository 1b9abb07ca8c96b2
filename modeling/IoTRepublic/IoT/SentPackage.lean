import IoTRepublic.IoT.PackageSound
import IoTRepublic.IoT.ChecksumSound

/-!
# IoTRepublic.IoT.SentPackage

The packages the network sends: those between two addresses in use. Their header
always takes between 10 and 99 bytes, so the constructors get its length right,
and everything the decoder needs to know about their bytes is collected in
`Sendable`.

An address in use has at most fifteen characters and no NUL, and a payload is small enough
for an `int` to count the package. That is all `Sendable` asks, and what every later
statement about packages of the network has for its hypothesis; the closed form `sent` is
the one package the constructors then build, with its columns (`sentColumns`), its header
length and the bytes the checksum covers named once.
-/

namespace IoTRepublic

open Cpp Columns IoTPackage

/-! ### Addresses -/

/-- The addresses in use: a device without address, the manager, and the
addresses the manager hands out. -/
inductive Address : Text → Prop
  | unassigned : Address (lit "0")
  | manager : Address (lit "Master")
  | device (n : Int) (h : InInt n) : Address (lit "DEV." ++ showInt n)

theorem Address.notMem_zero {a : Text} (h : Address a) : segmentSymbol ∉ a := by
  cases h with
  | unassigned => decide
  | manager => decide
  | device n h =>
      rw [List.mem_append]
      rintro (hm | hm)
      · exact absurd hm (by decide)
      · exact ne_zero_of_mem_showInt hm rfl

theorem Address.length_le {a : Text} (h : Address a) : a.length ≤ 15 := by
  cases h with
  | unassigned => decide
  | manager => decide
  | device n h =>
      have := showInt_length_le h
      rw [List.length_append]
      have : (lit "DEV.").length = 4 := by decide
      omega

theorem Address.ascii {a : Text} (h : Address a) : ∀ b ∈ a, b.toNat < 0x80 := by
  cases h with
  | unassigned => exact forall_mem_of_all (by decide)
  | manager => exact forall_mem_of_all (by decide)
  | device n h =>
      have hdev : ∀ b ∈ lit "DEV.", b.toNat < 0x80 := forall_mem_of_all (by decide)
      intro b hb
      cases List.mem_append.mp hb with
      | inl hb => exact hdev b hb
      | inr hb => exact ascii_of_mem_showInt hb

namespace IoTUtility

/-! ### Packages between two addresses -/

/-- The header length of a package between two addresses. -/
def sentHeader (soIp desIp : Text) (data : List Byte) : Nat :=
  columnBytes protocolVersion soIp desIp (toInt data.length) + 3

/-- The package the constructors build between two addresses. -/
def sent (soIp desIp : Text) (data : List Byte) : IoTPackage :=
  assemble protocolVersion soIp desIp data (sentHeader soIp desIp data)

/-- The bytes of that package which the checksum covers. -/
def sentCovered (soIp desIp : Text) (data : List Byte) : List Byte :=
  coveredBytes protocolVersion (sentHeader soIp desIp data) soIp desIp data

/-- Its header columns. -/
def sentColumns (soIp desIp : Text) (data : List Byte) : List Text :=
  [protocolVersion, showInt (sentHeader soIp desIp data), showInt data.length, soIp, desIp]

/-- The arguments of a constructor the network uses: two addresses, and a payload
whose package fits an `int`. -/
structure Sendable (soIp desIp : Text) (data : List Byte) : Prop where
  sor : Address soIp
  des : Address desIp
  fits : sentHeader soIp desIp data + data.length + 2 < 2 ^ 31

/-- The header of such a package is short. -/
theorem sendable_of_short {soIp desIp : Text} {data : List Byte} (hsor : Address soIp)
    (hdes : Address desIp) (hdata : data.length + 100 < 2 ^ 31) : Sendable soIp desIp data := by
  refine ⟨hsor, hdes, ?_⟩
  have h1 := hsor.length_le
  have h2 := hdes.length_le
  have h3 := showInt_length_le (inInt_toInt data.length)
  have h4 : (visible protocolVersion).length = 7 := by decide
  have h5 := (visible_isPrefix soIp).length_le
  have h6 := (visible_isPrefix desIp).length_le
  rw [sentHeader, columnBytes, h4]
  omega

theorem sent_dataVectorForSending (soIp desIp : Text) (data : List Byte) :
    (sent soIp desIp data).dataVectorForSending
      = sentCovered soIp desIp data ++ checksumBytes (sent soIp desIp data).checksum := rfl

namespace Sendable

variable {soIp desIp : Text} {data : List Byte} (h : Sendable soIp desIp data)

include h

theorem data_lt : data.length < 2 ^ 31 := by
  have := h.fits
  omega

theorem toInt_data : toInt data.length = data.length := toInt_of_lt h.data_lt

theorem visible_sor : visible soIp = soIp := by
  have := h.sor.length_le
  exact visible_of_lt (by omega)

theorem visible_des : visible desIp = desIp := by
  have := h.des.length_le
  exact visible_of_lt (by omega)

/-- The four other columns of the header take between 9 and 96 bytes. -/
theorem columnBytes_bounds :
    9 ≤ columnBytes protocolVersion soIp desIp (toInt data.length) ∧
      columnBytes protocolVersion soIp desIp (toInt data.length) ≤ 96 := by
  have h1 := h.sor.length_le
  have h2 := h.des.length_le
  have h3 := showInt_length_le (inInt_toInt data.length)
  have h4 : (visible protocolVersion).length = 7 := by decide
  have h5 := showInt_length_pos (toInt data.length)
  rw [columnBytes, h.visible_sor, h.visible_des, h4]
  omega

theorem sentHeader_lt : sentHeader soIp desIp data < 100 := by
  have := h.columnBytes_bounds
  rw [sentHeader]
  omega

theorem paddedLength_eq :
    paddedLength (columnSum protocolVersion soIp desIp (toInt data.length))
      = sentHeader soIp desIp data := by
  have h1 := h.sor.length_le
  have h2 := h.des.length_le
  have h3 : protocolVersion.length = 7 := by decide
  have h4 := h.columnBytes_bounds
  rw [columnSum_eq_columnBytes (inInt_toInt _) (by omega),
    paddedLength_of_le_ninetySeven (by omega) (by omega), sentHeader]
  omega

theorem showInt_header_length : (showInt (sentHeader soIp desIp data)).length = 2 := by
  have h1 := h.sentHeader_lt
  have h2 := h.columnBytes_bounds
  have h3 := showInt_length_cases (n := (sentHeader soIp desIp data : Int)) (by omega)
  simp only [sentHeader] at h1 h3 ⊢
  omega

theorem reservable : Reservable (sentHeader soIp desIp data) (toInt data.length) := by
  have h1 := h.fits
  rw [h.toInt_data]
  simp only [Reservable, InInt]
  omega

/-- The constructor returns the package. -/
theorem ofVector_eq :
    ofVector protocolVersion soIp desIp (some data) = .ok (sent soIp desIp data) := by
  refine ofVector_ok_iff.mpr ⟨_, h.paddedLength_eq.symm, ?_, h.reservable, rfl⟩
  have := h.sentHeader_lt
  simp only [InInt]
  omega

/-- So does the constructor from a string. -/
theorem ofString_eq : ofString protocolVersion soIp desIp data = .ok (sent soIp desIp data) := by
  refine ofString_ok_iff.mpr ⟨h.ofVector_eq, ?_⟩
  rw [h.toInt_data]
  omega

/-! #### The bytes of the package -/

/-- No string of an address wraps, so the header is the joined columns. -/
theorem headerBytes_eq :
    headerBytes protocolVersion (sentHeader soIp desIp data) (toInt data.length) soIp desIp
      = joinColumns segmentSymbol (sentColumns soIp desIp data) := by
  have hv : visible protocolVersion = protocolVersion := by decide
  rw [headerBytes, IoTPackage.headerColumns, hv, h.visible_sor, h.visible_des, h.toInt_data]
  rfl

theorem notMem_sentColumns : ∀ c ∈ sentColumns soIp desIp data, segmentSymbol ∉ c := by
  intro c hc
  simp only [sentColumns, List.mem_cons, List.not_mem_nil, or_false] at hc
  rcases hc with rfl | rfl | rfl | rfl | rfl
  · decide
  · exact fun hm => ne_zero_of_mem_showInt hm rfl
  · exact fun hm => ne_zero_of_mem_showInt hm rfl
  · exact h.sor.notMem_zero
  · exact h.des.notMem_zero

theorem joinColumns_length_eq :
    (joinColumns segmentSymbol (sentColumns soIp desIp data)).length
      = sentHeader soIp desIp data := by
  rw [← h.headerBytes_eq, headerBytes_length, h.showInt_header_length, sentHeader]

theorem sentCovered_eq :
    sentCovered soIp desIp data
      = joinColumns segmentSymbol (sentColumns soIp desIp data) ++ data := by
  rw [sentCovered, coveredBytes, h.headerBytes_eq, h.toInt_data, Int.toNat_natCast,
    List.take_length]

theorem sentCovered_length :
    (sentCovered soIp desIp data).length = sentHeader soIp desIp data + data.length := by
  rw [h.sentCovered_eq, List.length_append, h.joinColumns_length_eq]

theorem checksum_eq :
    (sent soIp desIp data).checksum = addCarries (unsignedSum (sentCovered soIp desIp data)) := by
  have h1 := h.sentCovered_length
  have h2 := h.fits
  rw [← visible_of_lt (v := sentCovered soIp desIp data) (by omega)]
  rfl

theorem ascii_sentCovered (hdata : ∀ b ∈ data, b.toNat < 0x80) :
    ∀ b ∈ sentCovered soIp desIp data, b.toNat < 0x80 := by
  have hcolumn : ∀ c ∈ sentColumns soIp desIp data, ∀ b ∈ c, b.toNat < 0x80 := by
    intro c hc
    simp only [sentColumns, List.mem_cons, List.not_mem_nil, or_false] at hc
    rcases hc with rfl | rfl | rfl | rfl | rfl
    · exact forall_mem_of_all (by decide)
    · exact fun b => ascii_of_mem_showInt
    · exact fun b => ascii_of_mem_showInt
    · exact h.sor.ascii
    · exact h.des.ascii
  intro b hb
  rw [h.sentCovered_eq, joinColumns, List.mem_append, List.mem_flatMap] at hb
  rcases hb with ⟨c, hc, hb⟩ | hb
  · rcases List.mem_append.mp hb with hb | hb
    · exact hcolumn c hc b hb
    · obtain rfl := List.mem_singleton.mp hb
      decide
  · exact hdata b hb

theorem dataVectorForSending_length_eq :
    (sent soIp desIp data).dataVectorForSending.length
      = sentHeader soIp desIp data + data.length + 2 := by
  rw [sent_dataVectorForSending, List.length_append, h.sentCovered_length]
  rfl

theorem header_isPrefix :
    joinColumns segmentSymbol (sentColumns soIp desIp data)
      <+: (sent soIp desIp data).dataVectorForSending := by
  rw [sent_dataVectorForSending, h.sentCovered_eq, List.append_assoc]
  exact List.prefix_append _ _

theorem version_isPrefix : currentVersion <+: (sent soIp desIp data).dataVectorForSending := by
  refine List.IsPrefix.trans ?_ h.header_isPrefix
  rw [sentColumns, joinColumns_cons]
  exact List.prefix_append _ _

end Sendable

end IoTUtility

end IoTRepublic
