import IoTRepublic.IoT.Extraction

/-!
# IoTRepublic.IoT.MoreInput

What bytes that arrive early change about a package that is already complete:
nothing. A receiver calls `GetCompletedPackage` when something has arrived, so any
number of bytes may be there behind the package when it is looked at.

`accepted_append` has it for one call, whatever the length columns announce,
`Handles.append` and `packageLoop_append` for the loop around the call.
-/

namespace IoTRepublic

open Cpp IoTPackage

namespace IoTUtility

/-! ### One call -/

theorem decodeOnlyHeader_of_headerRead {buffer : List Byte} {H D : Int}
    (h : HeaderRead buffer H D) :
    ∃ header, decodeOnlyHeader buffer = .ok header ∧ header.headerLength = H ∧
      header.dataLength = D := by
  simp [decodeOnlyHeader_eq, h.header, h.data]

/-- The lengths of the header stand in the package found. -/
theorem getCompletedPackageWith_header {o : Overflow} {buffer rest : List Byte} {p : IoTPackage}
    {e : GetPackageError} (h : getCompletedPackageWith o buffer = .ok ⟨some p, e, rest⟩) :
    ∃ header, decodeOnlyHeader buffer = .ok header ∧ header.headerLength = p.headerLength ∧
      header.dataLength = p.dataLength := by
  obtain ⟨package, _, _, _, hpackage, -, -, -, rfl⟩ := getCompletedPackageWith_inv h
  obtain ⟨header, _, _, hheader, hH, hD, -⟩ := decodePackageWith_inv hpackage
  exact ⟨header, hheader, hH, hD⟩

section Agreement

variable {o : Overflow} {buffer : List Byte} {header : IoTPackage}
  (hheader : decodeOnlyHeader buffer = .ok header)
  (hin : InInt (header.headerLength + header.dataLength))
  (htotal : InInt (header.headerLength + header.dataLength + 2))

include hheader hin htotal

/-- Where the announced lengths do not overflow, it does not matter what an overflow
would do. -/
theorem isValidPackageWith_eq : isValidPackageWith o buffer = isValidPackage buffer := by
  simp only [isValidPackageWith, isValidPackage, hheader, ok_bind, Overflow.add_of_inInt hin,
    Overflow.add_of_inInt htotal, Overflow.add_of_inInt (hin.add_one htotal), addInt_of_inInt hin,
    addInt_of_inInt htotal, addInt_of_inInt (hin.add_one htotal)]

theorem decodePackageWith_eq : decodePackageWith o buffer = decodePackage buffer := by
  simp only [decodePackageWith, decodePackage, hheader, ok_bind, Overflow.add_of_inInt hin,
    Overflow.add_of_inInt (hin.add_one htotal), addInt_of_inInt hin,
    addInt_of_inInt (hin.add_one htotal)]

theorem getCompletedPackageWith_eq :
    getCompletedPackageWith o buffer = getCompletedPackage buffer := by
  rw [getCompletedPackageWith, getCompletedPackage, isValidPackageWith_eq hheader hin htotal]
  cases hvalid : isValidPackage buffer with
  | error fault => rfl
  | ok verdict =>
      obtain ⟨isValid, error, buffer'⟩ := verdict
      cases isValid with
      | false => rfl
      | true =>
          rw [isValidPackageWith_buffer (o := .undefined) hvalid]
          simp only [ok_bind, if_true, decodePackageWith_eq hheader hin htotal]
          cases hpackage : decodePackage buffer with
          | error fault => rfl
          | ok package =>
              -- Decoding the payload leaves the lengths as the header has them.
              obtain ⟨header', _, _, hheader', hH, hD, -⟩ :=
                decodePackageWith_inv (o := .undefined) hpackage
              obtain rfl := Except.ok.inj (hheader'.symm.trans hheader)
              rw [hH, hD] at hin htotal
              simp only [ok_bind, Overflow.add_of_inInt hin, Overflow.add_of_inInt htotal,
                addInt_of_inInt hin, addInt_of_inInt htotal]

end Agreement

/-- No package is found because a sum has overflowed. -/
theorem getCompletedPackageWith_some_iff {o : Overflow} {buffer rest : List Byte}
    {p : IoTPackage} {e : GetPackageError} (hlt : buffer.length < 2 ^ 31) :
    getCompletedPackageWith o buffer = .ok ⟨some p, e, rest⟩ ↔
      getCompletedPackage buffer = .ok ⟨some p, e, rest⟩ := by
  constructor
  · intro h
    obtain ⟨header, hheader, hH, hD⟩ := getCompletedPackageWith_header h
    -- The package was cut off the buffer, so it is no longer than that.
    obtain ⟨hleast, hcut, hlength⟩ := getCompletedPackageWith_some h
    have hfits : p.dataVectorForSending.length ≤ buffer.length := by
      rw [hcut, List.length_append]
      exact Nat.le_add_right _ _
    rw [← hH, ← hD] at hleast hlength
    rw [← getCompletedPackageWith_eq hheader (o := o) ⟨by omega, by omega⟩ ⟨by omega, by omega⟩]
    exact h
  · intro h
    obtain ⟨H, D, hc, -, -, -⟩ := getCompletedPackage_some h
    obtain ⟨header, hheader, rfl, rfl⟩ := decodeOnlyHeader_of_headerRead hc.read
    rw [getCompletedPackageWith_eq hheader hc.inInt.1 hc.inInt.2]
    exact h

/-- **Acceptance is stable under more input.** What is found in a buffer is found, in
every field, in the buffer with any bytes behind it, and these are left behind the rest.
This holds for either outcome of an overflow of the announced lengths, thus for
`getCompletedPackage` (`getCompletedPackageWith_undefined`). -/
theorem accepted_append {o : Overflow} {buffer rest r : List Byte} {p : IoTPackage}
    {e : GetPackageError} (h : getCompletedPackageWith o buffer = .ok ⟨some p, e, rest⟩)
    (hlt : (buffer ++ r).length < 2 ^ 31) :
    getCompletedPackageWith o (buffer ++ r) = .ok ⟨some p, e, rest ++ r⟩ := by
  have hshort : buffer.length < 2 ^ 31 := by
    rw [List.length_append] at hlt
    omega
  rw [getCompletedPackageWith_some_iff hshort] at h
  rw [getCompletedPackageWith_some_iff hlt]
  exact getCompletedPackage_append h hlt

/-- A package of twelve bytes that ends within the second column: the checksum is read
behind the digits of the header length, and the other columns follow the package. -/
def overlappingBuffer : List Byte := lit "IUDP1.0\x0010\x02\x22\x000\x00\x00\x00"

theorem accepted_append_overlapping :
    getCompletedPackageWith .undefined (overlappingBuffer ++ lit "9")
      = .ok ⟨some (decoded overlappingBuffer 10 0), .noError,
          lit "\x000\x00\x00\x00" ++ lit "9"⟩ :=
  accepted_append (by decide +kernel) (by decide)

/-! ### The loop -/

universe u

variable {σ : Type u} {handle : IoTPackage → σ → Except Fault σ}

/-- Every package the loop comes to handle it also comes to handle, in the same state,
with more bytes in the buffer. -/
theorem Handles.append {s s' : σ} {buffer : List Byte} {package : IoTPackage}
    (h : Handles handle s buffer package s') {r : List Byte}
    (hlt : (buffer ++ r).length < 2 ^ 31) : Handles handle s (buffer ++ r) package s' := by
  induction h with
  | here hget => exact .here (getCompletedPackage_append hget hlt)
  | later hget hs _ ih =>
      have hrest := length_lt_of_some hget
      rw [List.length_append] at hlt
      refine .later (getCompletedPackage_append hget ?_) hs (ih ?_)
      · rw [List.length_append]
        exact hlt
      · rw [List.length_append]
        omega

/-- **The loop does not depend on when bytes arrive**: run on all of them it does what
it does on the first, and then goes on with what these have left. A bad start word is
left out because it changes the buffer. -/
theorem packageLoop_append {s s' : σ} {buffer left r : List Byte} {e : GetPackageError}
    (h : packageLoop handle s buffer = .ok (s', e, left)) (he : e ≠ .startWordError)
    (hlt : (buffer ++ r).length < 2 ^ 31) :
    packageLoop handle s (buffer ++ r) = packageLoop handle s' (left ++ r) := by
  refine packageLoop_rec (motive := fun s buffer => (buffer ++ r).length < 2 ^ 31 →
    packageLoop handle s (buffer ++ r) = packageLoop handle s' (left ++ r)) ?_ ?_ h hlt
  · intro buffer hget _
    cases getCompletedPackage_none hget with
    | badStart => exact absurd rfl he
    | _ => rfl
  · intro s s₁ buffer package e rest hget hs₁ ih hlt
    rw [packageLoop_of_some (getCompletedPackage_append hget hlt), hs₁, ok_bind]
    have hrest := length_lt_of_some hget
    rw [List.length_append] at hlt
    exact ih (by rw [List.length_append]; omega)

end IoTUtility

end IoTRepublic
