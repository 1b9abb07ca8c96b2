import IoTRepublic.Broker.LoRaReceive
import IoTRepublic.Utility.Base64Sound

/-!
# IoTRepublic.Broker.LoRaReceiveSound

What becomes of the answer of a node, in three steps: what is polled from the port
(`recvLoop_poll`), what the decoder makes of it (`decodesReceived_iff`), and what is
left when the codes are removed (`removesMarkers_iff`). `delivers_iff` puts them
together for the readings a node sends.

Nothing terminates what has been received, so the bytes behind the vector are part of
every statement about the decoder; a result that is to be relied on must be the same for
all of them. The frame of a payload ends with a carriage return, which would do, but only
40 characters of a frame are ever read, and those of a payload of more than 27 bytes have
no end among them.

`handleForwardingPackage_of_le` and `handleForwardingPackage_of_lt` carry the two cases to
the packages the manager gets.

What lies in memory behind the vector is a parameter (`behind`), as are the polls of the
port. The results about reading are stated for all of it: a node's answer is decoded to
the payload whatever is behind, or there is something behind with which it is not. So a
counterexample needs no luck with the memory, and a positive result relies on none.
-/

namespace IoTRepublic

open Cpp Base64 Sextets

namespace LoRaBroker

/-! ### Two erasures -/

section Erase

variable {α : Type} [DecidableEq α] {a b : α} {v : List α}

/-- The second index is one less behind the first erasure. -/
theorem eraseIdx_eraseIdx_idxOf (hb : b ∈ v) (h : v.idxOf a < v.idxOf b) :
    (v.eraseIdx (v.idxOf a)).eraseIdx (v.idxOf b - 1) = (v.erase a).erase b := by
  induction v with
  | nil => cases hb
  | cons c v ih =>
      have hcb : c ≠ b := by
        rintro rfl
        rw [List.idxOf_cons_self] at h
        omega
      by_cases hca : c = a
      · cases hca
        simp [List.idxOf_cons_ne v hcb]
      · rw [List.idxOf_cons_ne v hca, List.idxOf_cons_ne v hcb] at h ⊢
        have hmem : b ∈ v := (List.mem_cons.mp hb).resolve_left (Ne.symm hcb)
        have hlt : v.idxOf a < v.idxOf b := by omega
        have hpred : v.idxOf b = v.idxOf b - 1 + 1 := by omega
        rw [List.erase_cons_tail (by simpa using hca), List.erase_cons_tail (by simpa using hcb),
          ← ih hmem hlt, List.eraseIdx_cons_succ]
        show (c :: v.eraseIdx (v.idxOf a)).eraseIdx (v.idxOf b) = _
        conv_lhs => rw [hpred, List.eraseIdx_cons_succ]

/-- When `b` comes first, the element in front of it goes in its place. -/
theorem eraseIdx_eraseIdx_idxOf_ne (ha : a ∈ v) (h : v.idxOf b < v.idxOf a)
    (hpos : 0 < v.idxOf b) :
    (v.eraseIdx (v.idxOf a)).eraseIdx (v.idxOf b - 1) ≠ (v.erase a).erase b := by
  have hlt := List.idxOf_lt_length_of_mem ha
  have hb : v[v.idxOf b]? = some b := by
    rw [List.getElem?_eq_getElem (by omega), List.getElem_idxOf]
  have hbefore : v[v.idxOf b - 1]? ≠ some b := by
    have hearlier : v.idxOf b - 1 < v.findIdx (· == b) := by
      rw [← List.idxOf]
      omega
    rw [List.getElem?_eq_getElem (by omega)]
    simpa using List.not_of_lt_findIdx hearlier
  intro heq
  -- The two lists, at the index of the element that is gone.
  have hat := congrArg (·[v.idxOf b - 1]?) heq
  rw [List.erase_comm, ← eraseIdx_eraseIdx_idxOf ha h, List.getElem?_eraseIdx_of_ge (le_refl _),
    List.getElem?_eraseIdx_of_lt (by omega), List.getElem?_eraseIdx_of_lt (by omega),
    List.getElem?_eraseIdx_of_lt (by omega), Nat.sub_add_cancel hpos, hb] at hat
  exact hbefore hat.symm

end Erase

/-! ### The codes -/

section Markers

variable {result : RecvResult} {buffer : List Byte} {code : Byte}

/-- The index of a code is where it first stands, if that is among the bytes an `int`
index comes to. -/
theorem findCodeIndex_of_mem (h : code ∈ visible buffer) :
    XBeeBrokerApiMode.findCodeIndex code buffer = buffer.idxOf code := by
  obtain ⟨rest, hrest⟩ := visible_isPrefix buffer
  have hindex : buffer.idxOf code = (visible buffer).idxOf code := by
    conv_lhs => rw [← hrest, List.idxOf_append_of_mem h]
  have hfound : (visible buffer).findIdx? (· = code) = some ((visible buffer).idxOf code) :=
    List.findIdx?_eq_some_iff_findIdx_eq.mpr ⟨List.idxOf_lt_length_of_mem h, rfl⟩
  rw [XBeeBrokerApiMode.findCodeIndex, hfound, hindex]

theorem findCodeIndex_of_notMem (h : code ∉ visible buffer) :
    XBeeBrokerApiMode.findCodeIndex code buffer = -1 := by
  have hfound : (visible buffer).findIdx? (· = code) = none := by
    rw [List.findIdx?_eq_none_iff]
    intro b hb
    simpa using fun heq : b = code => h (heq ▸ hb)
  rw [XBeeBrokerApiMode.findCodeIndex, hfound]

theorem findCodeIndex_eq_iff :
    XBeeBrokerApiMode.findCodeIndex code buffer = -1 ↔ code ∉ visible buffer := by
  constructor
  · intro h hmem
    rw [findCodeIndex_of_mem hmem] at h
    omega
  · exact findCodeIndex_of_notMem

theorem eraseAt_of_lt {v : List Byte} {i : Nat} (h : i < v.length) :
    eraseAt v i = .ok (v.eraseIdx i) := by
  rw [eraseAt, if_pos ⟨Int.natCast_nonneg i, by exact_mod_cast h⟩, Int.toNat_natCast]

/-- Both codes are found, wherever they stand and in whichever order. -/
def BothCodes (buffer : List Byte) : Prop :=
  startCode ∈ visible buffer ∧ endCode ∈ visible buffer

/-- Both codes are found, the end code in front of the start code. -/
def EndCodeFirst (buffer : List Byte) : Prop :=
  BothCodes buffer ∧ buffer.idxOf endCode < buffer.idxOf startCode

theorem removeMarkers_of_ne (h : result ≠ .succeed) (buffer : List Byte) :
    removeMarkers result buffer = .ok (result, buffer) := if_neg h

theorem removeMarkers_of_not_bothCodes (h : ¬ BothCodes buffer) :
    removeMarkers .succeed buffer = .ok (.failed, []) := by
  have hmissing : findStartCodeIndex buffer = -1 ∨ findEndCodeIndex buffer = -1 := by
    rw [findStartCodeIndex, findEndCodeIndex, findCodeIndex_eq_iff, findCodeIndex_eq_iff]
    exact not_and_or.mp h
  rw [removeMarkers, if_pos rfl]
  dsimp only
  rw [if_pos hmissing]
  rfl

theorem removeMarkers_of_bothCodes (h : BothCodes buffer) :
    removeMarkers .succeed buffer = (do
      let buffer' ← eraseAt buffer (buffer.idxOf startCode)
      let buffer' ← eraseAt buffer' (buffer.idxOf endCode - 1 : Int)
      return (.succeed, buffer')) := by
  rw [removeMarkers, if_pos rfl, findStartCodeIndex, findEndCodeIndex,
    findCodeIndex_of_mem h.1, findCodeIndex_of_mem h.2]
  dsimp only
  rw [if_neg (by omega)]

/-- The start code first: what is erased are the codes. -/
theorem removeMarkers_of_lt (h : BothCodes buffer)
    (hlt : buffer.idxOf startCode < buffer.idxOf endCode) :
    removeMarkers .succeed buffer = .ok (.succeed, (buffer.erase startCode).erase endCode) := by
  have hend := (visible_isPrefix buffer).subset h.2
  have hsize := List.idxOf_lt_length_of_mem hend
  have hpred : (buffer.idxOf endCode - 1 : Int) = (buffer.idxOf endCode - 1 : Nat) := by omega
  have herased : (buffer.eraseIdx (buffer.idxOf startCode)).length = buffer.length - 1 :=
    List.length_eraseIdx_of_lt (by omega)
  rw [removeMarkers_of_bothCodes h, eraseAt_of_lt (by omega), ok_bind, hpred,
    eraseAt_of_lt (by omega), ok_bind, eraseIdx_eraseIdx_idxOf hend hlt, pure_eq_ok]

/-- The end code first: the position in front of it is erased instead. -/
theorem removeMarkers_of_endCodeFirst (h : EndCodeFirst buffer) :
    (buffer.idxOf endCode = 0 → removeMarkers .succeed buffer = .error .undefinedBehaviour) ∧
      (0 < buffer.idxOf endCode →
        ∃ buffer', removeMarkers .succeed buffer = .ok (.succeed, buffer') ∧
          buffer' ≠ (buffer.erase startCode).erase endCode) := by
  obtain ⟨hboth, hlt⟩ := h
  have hstart := (visible_isPrefix buffer).subset hboth.1
  have hsize := List.idxOf_lt_length_of_mem hstart
  have herased : (buffer.eraseIdx (buffer.idxOf startCode)).length = buffer.length - 1 :=
    List.length_eraseIdx_of_lt hsize
  rw [removeMarkers_of_bothCodes hboth, eraseAt_of_lt hsize, ok_bind]
  constructor
  · intro hzero
    rw [eraseAt, if_neg (by omega), error_bind]
  · intro hpos
    have hpred : (buffer.idxOf endCode - 1 : Int) = (buffer.idxOf endCode - 1 : Nat) := by omega
    rw [hpred, eraseAt_of_lt (by omega), ok_bind]
    exact ⟨_, rfl, eraseIdx_eraseIdx_idxOf_ne hstart hlt hpos⟩

/-- `getResponse` removes the first of either code and nothing else, or fails. -/
structure RemovesMarkers (result : RecvResult) (buffer : List Byte) : Prop where
  /-- Every position that is erased is one of the buffer. -/
  returns : Returns (removeMarkers result buffer)
  succeed {buffer' : List Byte} (h : removeMarkers result buffer = .ok (.succeed, buffer')) :
    startCode ∈ buffer ∧ endCode ∈ buffer ∧ buffer' = (buffer.erase startCode).erase endCode
  otherwise {result' : RecvResult} {buffer' : List Byte} (hne : result' ≠ .succeed)
    (h : removeMarkers result buffer = .ok (result', buffer')) : buffer' = [] ∨ buffer' = buffer

theorem removesMarkers_of_eq {result' : RecvResult} {buffer' : List Byte}
    (h : removeMarkers result buffer = .ok (result', buffer'))
    (hsucceed : result' = .succeed → startCode ∈ buffer ∧ endCode ∈ buffer ∧
      buffer' = (buffer.erase startCode).erase endCode)
    (hotherwise : result' ≠ .succeed → buffer' = [] ∨ buffer' = buffer) :
    RemovesMarkers result buffer where
  returns := ⟨_, h⟩
  succeed h' := by
    obtain ⟨rfl, rfl⟩ := Prod.mk.inj (Except.ok.inj (h.symm.trans h'))
    exact hsucceed rfl
  otherwise hne h' := by
    obtain ⟨rfl, rfl⟩ := Prod.mk.inj (Except.ok.inj (h.symm.trans h'))
    exact hotherwise hne

theorem removesMarkers_of_bothCodes (hboth : BothCodes buffer) (h : ¬ EndCodeFirst buffer) :
    RemovesMarkers .succeed buffer := by
  have hstart := (visible_isPrefix buffer).subset hboth.1
  have hend := (visible_isPrefix buffer).subset hboth.2
  have hne : buffer.idxOf startCode ≠ buffer.idxOf endCode := by
    intro heq
    exact absurd ((List.idxOf_inj hstart).mp heq) (by decide)
  have hle : buffer.idxOf startCode ≤ buffer.idxOf endCode :=
    Nat.le_of_not_lt fun hlt => h ⟨hboth, hlt⟩
  exact removesMarkers_of_eq (removeMarkers_of_lt hboth (lt_of_le_of_ne hle hne))
    (fun _ => ⟨hstart, hend, rfl⟩) (fun hne' => absurd rfl hne')

/-- **When the codes are removed**: unless an answer has its end code in front of its
start code. -/
theorem removesMarkers_iff (result : RecvResult) (buffer : List Byte) :
    RemovesMarkers result buffer ↔ ¬ (result = .succeed ∧ EndCodeFirst buffer) := by
  constructor
  · intro h hfirst
    obtain ⟨rfl, hfirst⟩ := hfirst
    obtain ⟨hzero, hpos⟩ := removeMarkers_of_endCodeFirst hfirst
    cases Nat.eq_zero_or_pos (buffer.idxOf endCode) with
    | inl hend => exact not_returns_of_eq (hzero hend) h.returns
    | inr hend =>
        obtain ⟨buffer', hremoved, hne⟩ := hpos hend
        exact hne (h.succeed hremoved).2.2
  · intro h
    by_cases hresult : result = .succeed
    · cases hresult
      by_cases hboth : BothCodes buffer
      · exact removesMarkers_of_bothCodes hboth fun hfirst => h ⟨rfl, hfirst⟩
      · exact removesMarkers_of_eq (removeMarkers_of_not_bothCodes hboth) (by simp) (by simp)
    · exact removesMarkers_of_eq (removeMarkers_of_ne hresult buffer)
        (fun hsucceed => absurd hsucceed hresult) (fun _ => .inr rfl)

/-- `AwI=` decodes to the two codes in the other order; the second erasure is in front
of the first byte. -/
theorem not_removesMarkers_swapped :
    recvData responseCapacity [] [] [.poll (lit "AwI=") []] = .ok (some (.succeed, [0x03, 0x02])) ∧
      ¬ RemovesMarkers .succeed [0x03, 0x02] := by
  have hfault : removeMarkers .succeed [0x03, 0x02] = .error .undefinedBehaviour := by decide
  exact ⟨by decide +kernel, fun h => not_returns_of_eq hfault h.returns⟩

end Markers

/-! ### Polling -/

section Polling

variable {capacity : Nat} {pending recvBuffer arrived later : List Byte} {reads : List SerialRead}

/-- A poll delivers no more than the array holds. -/
theorem pollComport_length {size : Nat} {got left : List Byte}
    (h : pollComport size pending = .ok (got, left)) : got.length ≤ tempBufSize := by
  unfold pollComport at h
  split at h
  · cases h
  · rename_i hfits
    cases h
    exact Nat.le_of_not_lt hfits

/-- What is received comes from two polls. -/
theorem recvLoop_length (h : recvLoop capacity pending reads = .ok (some (.succeed, recvBuffer))) :
    recvBuffer.length ≤ 2 * tempBufSize := by
  induction reads generalizing pending with
  | nil => cases h
  | cons read reads ih =>
      cases read with
      | expired => cases h
      | poll arrived later =>
          rw [recvLoop] at h
          obtain ⟨⟨first, left⟩, hfirst, h⟩ := bind_ok_iff.mp h
          dsimp only at h
          split at h
          · exact ih h
          · obtain ⟨⟨second, left'⟩, hsecond, h⟩ := bind_ok_iff.mp h
            cases h
            have hlength : first.length ≤ tempBufSize := pollComport_length hfirst
            have hlength' : second.length ≤ tempBufSize := pollComport_length hsecond
            show (first ++ second).length ≤ _
            rw [List.length_append]
            omega

/-- Nothing arrives for a while: rounds without bytes leave the loop where it is. -/
theorem recvLoop_waiting (waiting : Nat) :
    recvLoop capacity [] (List.replicate waiting (.poll [] []) ++ reads)
      = recvLoop capacity [] reads := by
  induction waiting with
  | zero => rfl
  | succ waiting ih =>
      rw [List.replicate_succ, List.cons_append, recvLoop]
      simpa [pollComport] using ih

/-- Two polls, one behind the other, read the first `2 * capacity` bytes of what is
there, and as much of what comes later as there is room for. -/
theorem take_append_take_drop (capacity : Nat) (arrived later : List Byte) :
    arrived.take capacity ++ (arrived.drop capacity ++ later).take capacity
      = arrived.take (capacity + capacity)
        ++ later.take (capacity - (arrived.length - capacity)) := by
  rw [List.take_append, List.length_drop, ← List.append_assoc, List.take_add]

/-- The loop, when something arrives: it polls once more and is done, so what it returns
is two polls of the capacity at most. -/
theorem recvLoop_poll (hcapacity : capacity ≤ tempBufSize) (hpos : 0 < capacity)
    (harrived : arrived ≠ []) : recvLoop capacity [] (.poll arrived later :: reads)
      = .ok (some (.succeed, arrived.take (capacity + capacity)
          ++ later.take (capacity - (arrived.length - capacity)))) := by
  have hpoll (pending : List Byte) : pollComport capacity pending
      = .ok (pending.take capacity, pending.drop capacity) := by
    rw [pollComport, if_neg (by rw [List.length_take]; omega)]
  have hfirst : arrived.take capacity ≠ [] := by simp [harrived, hpos.ne']
  rw [recvLoop, List.nil_append, hpoll, ok_bind]
  dsimp only
  rw [if_neg hfirst, hpoll, ok_bind, pure_eq_ok]
  dsimp only
  rw [take_append_take_drop]

end Polling

/-! ### Decoding -/

section Decoding

variable {capacity : Nat} {pending recvBuffer : List Byte} {reads : List SerialRead}

/-- The decoder reads nothing but what has been received. -/
def DecodesReceived (recvBuffer : List Byte) : Prop :=
  Returns (base64decode recvBuffer) ∧
    ∀ behind, base64decode (recvBuffer ++ behind) = base64decode recvBuffer

/-- The characters in front of the first byte that is not one. -/
theorem exists_terminator (h : ∃ b ∈ recvBuffer, b ∉ basis64) :
    ∃ cs terminator rest, recvBuffer = cs ++ terminator :: rest ∧ (∀ c ∈ cs, c ∈ basis64) ∧
      terminator ∉ basis64 := by
  have hsome : (recvBuffer.find? (· ∉ basis64)).isSome := by
    rw [List.find?_isSome]
    simpa using h
  obtain ⟨terminator, hfind⟩ := Option.isSome_iff_exists.mp hsome
  obtain ⟨hterminator, cs, rest, heq, hcs⟩ := List.find?_eq_some_iff_append.mp hfind
  exact ⟨cs, terminator, rest, heq, by simpa using hcs, by simpa using hterminator⟩

/-- **When the decoder stops in time**: when some byte of the answer is not in the
alphabet. -/
theorem decodesReceived_iff
    (h : recvLoop capacity pending reads = .ok (some (.succeed, recvBuffer))) :
    DecodesReceived recvBuffer ↔ ∃ b ∈ recvBuffer, b ∉ basis64 := by
  constructor
  · intro hdecodes
    by_contra hall
    have hchars : ∀ b ∈ recvBuffer, b ∈ basis64 := by
      intro b hb
      by_contra hout
      exact hall ⟨b, hb, hout⟩
    have hfault : base64decode recvBuffer = .error .undefinedBehaviour := by
      rw [base64decode, codedChars_of_forall hchars, error_bind]
    exact not_returns_of_eq hfault hdecodes.1
  · intro hexists
    obtain ⟨cs, terminator, rest, rfl, hcs, hterminator⟩ := exists_terminator hexists
    have hlength := recvLoop_length h
    rw [List.length_append, tempBufSize] at hlength
    have hdecode := base64decode_eq hcs (by omega) hterminator
    refine ⟨⟨_, hdecode rest⟩, fun behind => ?_⟩
    rw [List.append_assoc, List.cons_append, hdecode, hdecode]

/-- The answer `YW55` with its line end. -/
theorem decodesReceived_line : DecodesReceived (lit "YW55\r") := by
  have hrecv : recvLoop responseCapacity [] [.poll (lit "YW55\r") []]
      = .ok (some (.succeed, lit "YW55\r")) := by decide +kernel
  exact (decodesReceived_iff hrecv).mpr ⟨0x0D, by decide, by decide⟩

/-- Without it the decoder leaves the vector. -/
theorem not_decodesReceived_unterminated :
    recvLoop responseCapacity [] [.poll (lit "YW55") []] = .ok (some (.succeed, lit "YW55")) ∧
      ¬ DecodesReceived (lit "YW55") := by
  have hfault : base64decode (lit "YW55") = .error .undefinedBehaviour := by decide
  exact ⟨by decide +kernel, fun h => not_returns_of_eq hfault h.1⟩

end Decoding

/-! ### Readings -/

section Readings

variable {p : List Byte} {later behind recvBuffer : List Byte} {reads : List SerialRead}
  {capacity waiting : Nat}

/-- A payload between its codes. -/
def framed (p : List Byte) : List Byte := startCode :: p ++ [endCode]

/-- A framed payload on the serial line. -/
def serialFrame (p : List Byte) : List Byte :=
  dataChars (framed p) ++ padding (framed p) ++ cmdEndSymbol

theorem length_framed (p : List Byte) : (framed p).length = p.length + 2 := by
  simp [framed]

theorem length_dataChars_framed (p : List Byte) :
    (dataChars (framed p)).length = (4 * (p.length + 2) + 2) / 3 := by
  rw [dataChars, List.length_map, length_sextets, length_framed]

/-- What ends the characters of a frame is not one of them. -/
theorem serialFrame_eq (p : List Byte) : ∃ terminator rest, terminator ∉ basis64 ∧
    serialFrame p = dataChars (framed p) ++ terminator :: rest := by
  have hpad : (0x3D : Byte) ∉ basis64 := by decide
  have hend : (0x0D : Byte) ∉ basis64 := by decide
  rw [serialFrame, List.append_assoc, padding]
  cases missing (framed p).length with
  | zero => exact ⟨0x0D, [], hend, rfl⟩
  | succ n => exact ⟨0x3D, List.replicate n 0x3D ++ cmdEndSymbol, hpad, rfl⟩

/-- It is what `sendData` writes behind its command. -/
theorem sendData_eq (address : Text) (h : (serialFrame p).length ≤ maxRecvBufferSize) :
    sendData address p
      = .ok (cmdSendData ++ lit " " ++ address ++ lit " " ++ serialFrame p) := by
  have hsize := length_sextets_add_missing (framed p)
  have hlength : (dataChars (framed p) ++ padding (framed p)).length
      = 4 * (((framed p).length + 2) / 3) := by
    simpa [dataChars, padding] using hsize
  rw [serialFrame, List.length_append, hlength, cmdEndSymbol, List.length_singleton,
    maxRecvBufferSize] at h
  have hshort : (framed p).length < 2 ^ 31 := by omega
  have hencode := base64encode_eq hshort
  have hint : wrapInt (4 * (((framed p).length + 2) / 3 : Nat))
      = (4 * (((framed p).length + 2) / 3) : Nat) := by
    rw [wrapInt_of_inInt (by simp only [InInt]; omega)]
    rfl
  have hfits : ¬ maxRecvBufferSize
      < (dataChars (framed p) ++ padding (framed p) ++ [0]).length := by
    rw [List.length_append, hlength, List.length_singleton, maxRecvBufferSize]
    omega
  rw [sendData]
  dsimp only
  rw [← framed, hencode, ok_bind]
  dsimp only
  rw [if_neg hfits, hint, Int.toNat_natCast, ← hlength, List.take_left, serialFrame, pure_eq_ok,
    List.append_assoc]

/-- The decoded bytes go to the vector of the caller. -/
theorem recvData_of_decoded {data source : List Byte}
    (hrecv : recvLoop capacity [] reads = .ok (some (.succeed, recvBuffer)))
    (hdecode : base64decode (recvBuffer ++ behind) = .ok (source ++ [0], source.length))
    (hsize : source.length < tempBufSize) :
    recvData capacity data behind reads = .ok (some (.succeed, data ++ source)) := by
  have hfits : ¬ tempBufSize < (source ++ [0]).length := by simp; omega
  have hreserve : reserve (source.length : Int) = .ok () :=
    reserve_ok_iff.mpr (Int.natCast_nonneg _)
  rw [recvData, hrecv, ok_bind]
  dsimp only
  rw [hdecode, ok_bind]
  dsimp only
  rw [if_neg hfits, hreserve, ok_bind, Int.toNat_natCast, List.append_assoc, List.take_left]
  rfl

/-- What an answer adds to a vector does not depend on what is there. -/
theorem recvData_append {res : RecvResult} {source : List Byte}
    (h : recvData capacity [] behind reads = .ok (some (res, source))) (data : List Byte) :
    recvData capacity data behind reads = .ok (some (res, data ++ source)) := by
  obtain ⟨received, hrecv, h⟩ := bind_ok_iff.mp h
  rw [recvData, hrecv, ok_bind]
  cases received with
  | none => cases h
  | some received =>
      obtain ⟨result, recvBuffer⟩ := received
      cases result with
      | succeed =>
          obtain ⟨⟨decoded, n⟩, hdecode, h⟩ := bind_ok_iff.mp h
          dsimp only at h ⊢
          rw [hdecode, ok_bind]
          dsimp only
          split at h
          · cases h
          · rename_i hfits
            obtain ⟨_, hreserve, h⟩ := bind_ok_iff.mp h
            cases h
            rw [if_neg hfits, hreserve]
            rfl
      | timeout =>
          cases h
          simp
      | failed =>
          cases h
          simp

/-- The codes around a payload without an end code. -/
theorem removeMarkers_framed (hend : endCode ∉ p) (hsize : p.length + 2 < 2 ^ 31) :
    removeMarkers .succeed (framed p) = .ok (.succeed, p) := by
  have hvisible : visible (framed p) = framed p := visible_of_lt (by rw [length_framed]; omega)
  have hboth : BothCodes (framed p) := by
    rw [BothCodes, hvisible]
    simp [framed]
  have hne : startCode ≠ endCode := by decide
  have hlt : (framed p).idxOf startCode < (framed p).idxOf endCode := by
    simp [framed, List.idxOf_cons_ne _ hne]
  have herase : ((framed p).erase startCode).erase endCode = p := by
    simp [framed, List.erase_append_right _ hend]
  rw [removeMarkers_of_lt hboth hlt, herase]

/-- What arrives when the port is polled: nothing for a while, and then the whole frame. -/
def arrival (p : List Byte) (waiting : Nat) (later : List Byte) (reads : List SerialRead) :
    List SerialRead :=
  List.replicate waiting (.poll [] []) ++ .poll (serialFrame p) later :: reads

/-- The answer is delivered, whatever lies behind it in memory. -/
def Delivers (p : List Byte) (waiting : Nat) (later : List Byte) (reads : List SerialRead) : Prop :=
  ∀ behind, getResponse responseCapacity [] behind (arrival p waiting later reads)
    = .ok (some (.succeed, p))

/-- The two polls for an answer ask for 20 bytes each. -/
theorem recvLoop_arrival (p : List Byte) (waiting : Nat) (later : List Byte)
    (reads : List SerialRead) : recvLoop responseCapacity [] (arrival p waiting later reads)
      = .ok (some (.succeed, (serialFrame p).take 40
          ++ later.take (20 - ((serialFrame p).length - 20)))) := by
  have harrived : serialFrame p ≠ [] := by simp [serialFrame, cmdEndSymbol]
  rw [arrival, recvLoop_waiting,
    recvLoop_poll (by decide) (by decide) harrived]
  rfl

/-- The frame of 27 bytes is the longest whose characters end within the two polls. -/
theorem getResponse_of_le (hend : endCode ∉ p) (h : p.length ≤ 27) :
    getResponse responseCapacity [] behind (arrival p waiting later reads)
      = .ok (some (.succeed, p)) := by
  obtain ⟨terminator, rest, hterminator, hframe⟩ := serialFrame_eq p
  have hchars := length_dataChars_framed p
  have hlength := length_framed p
  have hrecv := recvLoop_arrival p waiting later reads
  have htake : (serialFrame p).take 40
      = dataChars (framed p) ++ terminator :: rest.take (39 - (dataChars (framed p)).length) := by
    have hroom : 40 - (dataChars (framed p)).length
        = 39 - (dataChars (framed p)).length + 1 := by omega
    rw [hframe, List.take_append, List.take_of_length_le (by omega), hroom, List.take_succ_cons]
  rw [htake, List.append_assoc, List.cons_append] at hrecv
  have hshort : 4 * (((framed p).length + 2) / 3) < 2 ^ 31 := by omega
  have hdecode := base64decode_dataChars hshort hterminator
    (rest.take (39 - (dataChars (framed p)).length)
      ++ later.take (20 - ((serialFrame p).length - 20)) ++ behind)
  have hdata : recvData responseCapacity [] behind (arrival p waiting later reads)
      = .ok (some (.succeed, [] ++ framed p)) := by
    refine recvData_of_decoded hrecv ?_ (by rw [hlength, tempBufSize]; omega)
    rw [List.append_assoc, List.cons_append]
    exact hdecode
  rw [getResponse, hdata, ok_bind]
  dsimp only
  rw [List.nil_append, removeMarkers_framed hend (by omega)]
  rfl

/-- Of a longer frame the two polls read 40 characters, and nothing that ends them. -/
theorem recvLoop_arrival_of_lt (h : 27 < p.length) :
    recvLoop responseCapacity [] (arrival p waiting later reads)
      = .ok (some (.succeed, (dataChars (framed p)).take 40)) := by
  obtain ⟨terminator, rest, -, hframe⟩ := serialFrame_eq p
  have hchars := length_dataChars_framed p
  have hlater : 20 - ((serialFrame p).length - 20) = 0 := by
    rw [hframe, List.length_append, List.length_cons]
    omega
  rw [recvLoop_arrival, hlater, List.take_zero, List.append_nil, hframe,
    List.take_append_of_le_length (by omega)]

/-- They are those of the first 30 bytes, which are whole groups. -/
theorem take_dataChars_framed (h : 28 < p.length) :
    (dataChars (framed p)).take 40 = dataChars (startCode :: p.take 29) := by
  have hthirty : (startCode :: p.take 29).length = 30 := by
    rw [List.length_cons, List.length_take]
    omega
  have hsplit : framed p = (startCode :: p.take 29) ++ (p.drop 29 ++ [endCode]) := by
    rw [framed, List.cons_append, List.cons_append, ← List.append_assoc, List.take_append_drop]
  rw [hsplit, dataChars, sextets_append (by rw [hthirty]), List.map_append, dataChars]
  exact List.take_left' (by rw [List.length_map, length_sextets, hthirty])

theorem getResponse_of_lt (h : 27 < p.length) :
    getResponse responseCapacity [] [] (arrival p waiting later reads)
      = .error .undefinedBehaviour := by
  have hall : ∀ c ∈ (dataChars (framed p)).take 40, c ∈ basis64 :=
    fun c hc => mem_basis64_of_mem_dataChars (List.mem_of_mem_take hc)
  rw [getResponse, recvData, recvLoop_arrival_of_lt h, ok_bind]
  dsimp only
  rw [List.append_nil, base64decode, codedChars_of_forall hall]
  rfl

/-- Where the memory behind them happens to end the characters, a reading of more than
28 bytes is cut, and given up without its end code. -/
theorem getResponse_of_ended (hend : endCode ∉ p) (h : 28 < p.length) {terminator : Byte}
    (hterminator : terminator ∉ basis64) :
    getResponse responseCapacity [] (terminator :: behind) (arrival p waiting later reads)
      = .ok (some (.failed, [])) := by
  have hlength : (startCode :: p.take 29).length ≤ 30 :=
    Nat.succ_le_succ (List.length_take_le _ _)
  have hshort : 4 * (((startCode :: p.take 29).length + 2) / 3) < 2 ^ 31 := by omega
  have hdata : recvData responseCapacity [] (terminator :: behind) (arrival p waiting later reads)
      = .ok (some (.succeed, [] ++ startCode :: p.take 29)) := by
    refine recvData_of_decoded (recvLoop_arrival_of_lt (by omega)) ?_
      (by rw [tempBufSize]; omega)
    rw [take_dataChars_framed h]
    exact base64decode_dataChars hshort hterminator behind
  have hnone : ¬ BothCodes (startCode :: p.take 29) := by
    intro hboth
    have hmem := (visible_isPrefix _).subset hboth.2
    cases List.mem_cons.mp hmem with
    | inl heq => exact absurd heq (by decide)
    | inr htail => exact hend (List.mem_of_mem_take htail)
  rw [getResponse, hdata, ok_bind]
  dsimp only
  rw [List.nil_append, removeMarkers_of_not_bothCodes hnone]
  rfl

/-- **When a reading is delivered**: when it has no more than 27 bytes. -/
theorem delivers_iff (hend : endCode ∉ p) (waiting : Nat) (later : List Byte)
    (reads : List SerialRead) : Delivers p waiting later reads ↔ p.length ≤ 27 := by
  constructor
  · intro hdelivers
    by_contra hlong
    have hget := hdelivers []
    rw [getResponse_of_lt (Nat.lt_of_not_le hlong)] at hget
    cases hget
  · intro h behind
    exact getResponse_of_le hend h

theorem delivers_any : Delivers (lit "any") 1 [] [] :=
  (delivers_iff (by decide) 1 [] []).mpr (by decide)

/-- 29 bytes, with a zero behind what is received: the answer is given up. -/
theorem not_delivers_long :
    startCode ∉ List.replicate 29 0x41 ∧ endCode ∉ List.replicate 29 0x41 ∧
      (serialFrame (List.replicate 29 0x41)).length ≤ maxRecvBufferSize ∧
      ¬ Delivers (List.replicate 29 0x41) 0 [] [] := by
  refine ⟨by decide, by decide, by decide +kernel, fun h => ?_⟩
  have hget := h [0]
  rw [getResponse_of_ended (by decide) (by simp) (by decide)] at hget
  cases hget

/-- The packages a node's answer becomes, where the command was read, the node found and
its frame sent whole. -/
theorem handleForwardingPackage_eq {J : Jansson} {loRaDevices : List DeviceInfo}
    {package : IoTPackage} {cmd : IoTCommand} {device : DeviceInfo} {res : RecvResult}
    {buffer : List Byte} (hcmd : IoTCommand.ofContent J package.dataVector = .ok cmd)
    (hdevice : vectorAt loRaDevices (findDeviceIndex loRaDevices package.desIp) = .ok device)
    (hfits : (serialFrame cmd.id).length ≤ maxRecvBufferSize)
    (hget : getResponse responseCapacity [] behind reads = .ok (some (res, buffer))) :
    handleForwardingPackage J loRaDevices package behind reads = (do
      let packages ← forwardResponse J package cmd res buffer
      return some packages) := by
  have hindex := (vectorAt_ok_iff.mp hdevice).1
  rw [handleForwardingPackage, hcmd, ok_bind]
  show (if _ then _ else _) = _
  rw [if_pos hindex, hdevice, ok_bind, sendData_eq _ hfits, ok_bind, hget, ok_bind]

/-- A reading of at most 27 bytes goes back to the manager as the answer to the command. -/
theorem handleForwardingPackage_of_le {J : Jansson} {loRaDevices : List DeviceInfo}
    {package : IoTPackage} {cmd : IoTCommand} {device : DeviceInfo}
    (hcmd : IoTCommand.ofContent J package.dataVector = .ok cmd)
    (hdevice : vectorAt loRaDevices (findDeviceIndex loRaDevices package.desIp) = .ok device)
    (hfits : (serialFrame cmd.id).length ≤ maxRecvBufferSize) (hend : endCode ∉ p)
    (h : p.length ≤ 27) :
    handleForwardingPackage J loRaDevices package behind (arrival p waiting later reads) = (do
      let packages ← forwardResponse J package cmd .succeed p
      return some packages) :=
  handleForwardingPackage_eq hcmd hdevice hfits (getResponse_of_le hend h)

/-- Of a longer one, nothing is sent to the manager. -/
theorem handleForwardingPackage_of_lt {J : Jansson} {loRaDevices : List DeviceInfo}
    {package : IoTPackage} {cmd : IoTCommand} {device : DeviceInfo}
    (hcmd : IoTCommand.ofContent J package.dataVector = .ok cmd)
    (hdevice : vectorAt loRaDevices (findDeviceIndex loRaDevices package.desIp) = .ok device)
    (hfits : (serialFrame cmd.id).length ≤ maxRecvBufferSize) (hend : endCode ∉ p)
    (h : 28 < p.length) {terminator : Byte} (hterminator : terminator ∉ basis64) :
    handleForwardingPackage J loRaDevices package (terminator :: behind)
      (arrival p waiting later reads) = .ok (some []) := by
  rw [handleForwardingPackage_eq hcmd hdevice hfits (getResponse_of_ended hend h hterminator)]
  rfl

end Readings

end LoRaBroker

end IoTRepublic
