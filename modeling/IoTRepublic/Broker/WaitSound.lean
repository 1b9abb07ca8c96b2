import IoTRepublic.Broker.CloudUploader
import IoTRepublic.IoT.SentPackage
import IoTRepublic.IoT.UtilitySpec

/-!
# IoTRepublic.Broker.WaitSound

Waiting for a reply that arrives in pieces.

The loop goes on only while a header announces more bytes than there are. A buffer
without a whole header ends it, and what has been received so far is lost, so a
reply is found only where the header comes in one piece.

`waitsRight_iff` holds for any row of events, pieces and timeouts alike. What makes it
exact is that the loop can be right about a row only where it looks at nothing but whole
headers: the first buffer that has less ends the wait with an error
(`waitFrom_of_not_looksAtHeaders`), though the package may be on its way.
`looksAtHeaders_iff_first` has what this means for the program: once the first read has
brought a whole header, the later ones cannot go wrong, as long as an `int` counts the
bytes.
-/

namespace IoTRepublic

open Cpp IoTUtility

namespace CloudUploader

/-- There is a header, and it announces more bytes than there are. -/
def AwaitsRest (buffer : List Byte) : Prop :=
  ∃ H D, HeaderRead buffer H D ∧ InInt (H + D) ∧ InInt (H + D + 2) ∧
    toInt buffer.length < H + D + 2

/-- There is a whole header, or something that is no package. -/
def WholeHeader (buffer : List Byte) : Prop :=
  currentVersion.length ≤ buffer.length ∧ (StartsRight buffer → HeaderComplete buffer)

instance (buffer : List Byte) : Decidable (WholeHeader buffer) :=
  inferInstanceAs (Decidable (_ ∧ _))

/-- Whatever the loop looks at, from this buffer on, has a whole header. -/
def LooksAtHeaders : List Byte → List WaitEvent → Prop
  | buffer, .received chunk :: events =>
    WholeHeader (buffer ++ chunk) ∧
      (AwaitsRest (buffer ++ chunk) → LooksAtHeaders (buffer ++ chunk) events)
  | _, _ => True

/-- Waiting is right about a row of events. -/
structure WaitsRight (events : List WaitEvent) : Prop where
  /-- A package that has arrived is returned, however it was cut. -/
  delivers {chunks : List (List Byte)} {later : List WaitEvent} {package : IoTPackage}
    {error : GetPackageError} (hevents : events = chunks.map .received ++ later)
    (hchunks : ∀ chunk ∈ chunks, chunk ≠ [])
    (haccepted : getCompletedPackage chunks.flatten = .ok ⟨some package, error, []⟩) :
    ∃ ending, waitIoTPackage events = .ok (some ending) ∧ ending.package = some package
  /-- NULL means that the time was up or the bytes were bad. -/
  explains {ending : WaitEnd} (hending : waitIoTPackage events = .ok (some ending))
    (hnull : ending.package = none) :
    ending.error = none ∨ ending.error = some .startWordError ∨ ending.error = some .checksumError

/-! ### One round -/

section Round

variable {buffer chunk : List Byte} {package : Option IoTPackage} {events : List WaitEvent}

theorem getCompletedPackage_of_awaitsRest (h : AwaitsRest buffer) :
    getCompletedPackage buffer = .ok (notFound .packageNotCompleted buffer) := by
  obtain ⟨H, D, hread, hsum, htotal, hlen⟩ := h
  rw [getCompletedPackage_of_headerRead hread, if_neg (not_not_intro ⟨hsum, htotal⟩), if_pos hlen]

/-- The error code the loop goes on with tells that the rest is missing. -/
theorem awaitsRest_of_notCompleted {x : Extraction} (h : getCompletedPackage buffer = .ok x)
    (herror : x.error = .packageNotCompleted) : AwaitsRest buffer := by
  rcases getCompletedPackage_cases h with ⟨e, rest, rfl, hrejected⟩ | ⟨H, D, rfl, -⟩
  · obtain rfl : e = .packageNotCompleted := herror
    cases hrejected with
    | @waiting H D hread hlen =>
        rw [getCompletedPackage_of_headerRead hread] at h
        by_cases hin : InInt (H + D) ∧ InInt (H + D + 2)
        · exact ⟨H, D, hread, hin.1, hin.2, hlen⟩
        · rw [if_pos hin] at h
          cases h
  · cases herror

theorem waitFrom_of_awaitsRest (h : AwaitsRest (buffer ++ chunk)) :
    waitFrom package buffer (.received chunk :: events)
      = waitFrom none (buffer ++ chunk) events := by
  rw [waitFrom, getCompletedPackage_of_awaitsRest h]
  rfl

theorem waitFrom_of_not_awaitsRest (h : ¬ AwaitsRest (buffer ++ chunk)) :
    waitFrom package buffer (.received chunk :: events)
      = (do
        let x ← getCompletedPackage (buffer ++ chunk)
        return some ⟨x.package, some x.error⟩) := by
  rw [waitFrom]
  cases hget : getCompletedPackage (buffer ++ chunk) with
  | error fault => rfl
  | ok x =>
      have herror : x.error ≠ .packageNotCompleted := fun herror =>
        h (awaitsRest_of_notCompleted hget herror)
      rw [ok_bind, if_neg herror]
      rfl

end Round

/-! ### NULL -/

/-- A buffer without a whole header ends the wait at once. -/
theorem waitFrom_of_not_looksAtHeaders {package : Option IoTPackage} {buffer : List Byte}
    {events : List WaitEvent} (h : ¬ LooksAtHeaders buffer events) :
    ∃ error, waitFrom package buffer events = .ok (some ⟨none, some error⟩) ∧
      (error = .lengthIsNotLongEnough ∨ error = .headerNotCompleted) := by
  induction events generalizing package buffer with
  | nil => exact absurd trivial h
  | cons event events ih =>
      cases event with
      | timeOut => exact absurd trivial h
      | received chunk =>
          rw [LooksAtHeaders, not_and_or] at h
          by_cases hawaits : AwaitsRest (buffer ++ chunk)
          · rw [waitFrom_of_awaitsRest hawaits]
            cases h with
            | inl hwhole =>
                obtain ⟨H, D, hread, -⟩ := hawaits
                exact absurd ⟨hread.starts.1, fun _ => hread.complete⟩ hwhole
            | inr hlater => exact ih (fun hlooks => hlater fun _ => hlooks)
          · rw [waitFrom_of_not_awaitsRest hawaits]
            have hwhole := h.resolve_right (fun hlater => hlater (absurd · hawaits))
            by_cases hlen : currentVersion.length ≤ (buffer ++ chunk).length
            · rw [WholeHeader, not_and, Classical.not_imp] at hwhole
              obtain ⟨hstarts, hincomplete⟩ := hwhole hlen
              rw [getCompletedPackage_of_incomplete hstarts hincomplete]
              exact ⟨.headerNotCompleted, rfl, .inr rfl⟩
            · rw [getCompletedPackage_of_short (not_le.mp hlen)]
              exact ⟨.lengthIsNotLongEnough, rfl, .inl rfl⟩

theorem explains_of_looksAtHeaders {buffer : List Byte} {events : List WaitEvent} {ending : WaitEnd}
    (hlooks : LooksAtHeaders buffer events)
    (hending : waitFrom none buffer events = .ok (some ending)) (hnull : ending.package = none) :
    ending.error = none ∨ ending.error = some .startWordError ∨
      ending.error = some .checksumError := by
  induction events generalizing buffer with
  | nil => cases hending
  | cons event events ih =>
      cases event with
      | timeOut =>
          obtain rfl := Option.some.inj (Except.ok.inj hending)
          exact .inl rfl
      | received chunk =>
          by_cases hawaits : AwaitsRest (buffer ++ chunk)
          · rw [waitFrom_of_awaitsRest hawaits] at hending
            exact ih (hlooks.2 hawaits) hending
          · rw [waitFrom_of_not_awaitsRest hawaits] at hending
            obtain ⟨⟨package, error, rest⟩, hget, hending⟩ := bind_ok_iff.mp hending
            obtain rfl := Option.some.inj (Except.ok.inj hending)
            obtain rfl : package = none := hnull
            cases getCompletedPackage_none hget with
            | short h => exact absurd hlooks.1.1 (not_le.mpr h)
            | badStart hlen h => exact .inr (.inl rfl)
            | incomplete hs h => exact absurd (hlooks.1.2 hs) h
            | waiting h hlen => exact absurd (awaitsRest_of_notCompleted hget rfl) hawaits
            | badSum h hin hlen h0 hsum => exact .inr (.inr rfl)

/-! ### Packages in pieces -/

section Pieces

variable {bytes front : List Byte} {package : IoTPackage} {error : GetPackageError}

/-- A front of a package awaits the rest, once it has the header. -/
theorem awaitsRest_of_front
    (haccepted : getCompletedPackage bytes = .ok ⟨some package, error, []⟩)
    (hpre : front <+: bytes) (hne : front ≠ bytes) (hwhole : WholeHeader front) :
    AwaitsRest front := by
  obtain ⟨H, D, hcomplete, -, -, hrest⟩ := getCompletedPackage_some haccepted
  obtain ⟨behind, rfl⟩ := hpre
  have hstarts : StartsRight front := (startsRight_append_iff hwhole.1).mp hcomplete.read.starts
  have hheader := hwhole.2 hstarts
  have hcolumn (k : Nat) (hk : k < headerColumns) :
      headerColumn front k = headerColumn (front ++ behind) k :=
    (headerColumn_append hheader hcomplete.read.complete hk).symm
  refine ⟨H, D, ⟨hstarts, hheader, ?_, ?_⟩, hcomplete.inInt.1, hcomplete.inInt.2, ?_⟩
  · rw [hcolumn 1 (by decide)]
    exact hcomplete.read.header
  · rw [hcolumn 2 (by decide)]
    exact hcomplete.read.data
  · -- The package takes all of the bytes, and some are still missing.
    have hbytes : (front ++ behind).length ≤ (H + D + 2).toNat :=
      List.drop_eq_nil_iff.mp hrest.symm
    have hbehind : behind.length ≠ 0 := by
      intro hlen
      exact hne (by simp [List.length_eq_zero_iff.mp hlen])
    have hle := toInt_le front.length
    rw [List.length_append] at hbytes
    omega

/-- A whole package ends the wait, and is what the caller gets. -/
theorem waitFrom_of_accepted {buffer chunk : List Byte} {events : List WaitEvent}
    (haccepted : getCompletedPackage (buffer ++ chunk) = .ok ⟨some package, error, []⟩) :
    waitFrom none buffer (.received chunk :: events) = .ok (some ⟨some package, some error⟩) := by
  have hwhole : ¬ AwaitsRest (buffer ++ chunk) := by
    intro hawaits
    rw [getCompletedPackage_of_awaitsRest hawaits] at haccepted
    cases haccepted
  rw [waitFrom_of_not_awaitsRest hwhole, haccepted]
  rfl

/-- Piece by piece, from the buffer on that holds the pieces before. -/
theorem waitFrom_of_pieces {buffer chunk : List Byte} {chunks : List (List Byte)}
    {later : List WaitEvent}
    (haccepted : getCompletedPackage bytes = .ok ⟨some package, error, []⟩)
    (hbytes : buffer ++ (chunk :: chunks).flatten = bytes)
    (hlooks : LooksAtHeaders buffer ((chunk :: chunks).map .received ++ later)) :
    ∃ ending, waitFrom none buffer ((chunk :: chunks).map .received ++ later) = .ok (some ending) ∧
      ending.package = some package := by
  induction chunks generalizing buffer chunk with
  | nil =>
      rw [List.flatten_singleton] at hbytes
      subst hbytes
      exact ⟨_, waitFrom_of_accepted haccepted, rfl⟩
  | cons next chunks ih =>
      by_cases hlast : buffer ++ chunk = bytes
      · subst hlast
        exact ⟨_, waitFrom_of_accepted haccepted, rfl⟩
      · have hpre : buffer ++ chunk <+: bytes :=
          ⟨(next :: chunks).flatten, by rw [← hbytes, List.append_assoc]; rfl⟩
        have hawaits := awaitsRest_of_front haccepted hpre hlast hlooks.1
        rw [List.map_cons, List.cons_append, waitFrom_of_awaitsRest hawaits]
        exact ih (by rw [← hbytes, List.append_assoc]; rfl) (hlooks.2 hawaits)

end Pieces

/-- **When waiting is right**: where no buffer the loop looks at ends in a header. -/
theorem waitsRight_iff (events : List WaitEvent) :
    WaitsRight events ↔ LooksAtHeaders [] events := by
  constructor
  · intro h
    by_contra hlooks
    have hlost : ∃ error, waitFrom none [] events = .ok (some ⟨none, some error⟩) ∧
        (error = .lengthIsNotLongEnough ∨ error = .headerNotCompleted) :=
      waitFrom_of_not_looksAtHeaders hlooks
    obtain ⟨error, hending, herror⟩ := hlost
    have hexplained := h.explains hending rfl
    rcases herror with rfl | rfl
    · simp at hexplained
    · simp at hexplained
  · intro hlooks
    refine ⟨?_, explains_of_looksAtHeaders hlooks⟩
    intro chunks later package error hevents hchunks haccepted
    subst hevents
    cases chunks with
    | nil =>
        have hshort : getCompletedPackage [] = .ok (notFound .lengthIsNotLongEnough []) :=
          getCompletedPackage_of_short (by decide)
        cases hshort.symm.trans haccepted
    | cons chunk chunks => exact waitFrom_of_pieces haccepted rfl hlooks

/-- The bytes of a short package. -/
def reply : List Byte := (sent (lit "0") (lit "0") (lit "a")).dataVectorForSending

/-- Cut within the version, it is lost. -/
theorem not_waitsRight_cutVersion :
    ¬ WaitsRight [.received (reply.take 3), .received (reply.drop 3)] := by
  intro h
  have haccepted : getCompletedPackage [reply.take 3, reply.drop 3].flatten
      = .ok ⟨some (sent (lit "0") (lit "0") (lit "a")), .noError, []⟩ := by
    decide +kernel
  have hlost : waitIoTPackage [.received (reply.take 3), .received (reply.drop 3)]
      = .ok (some ⟨none, some .lengthIsNotLongEnough⟩) := by
    decide +kernel
  obtain ⟨ending, hending, hpackage⟩ := h.delivers
    (show [.received (reply.take 3), .received (reply.drop 3)]
      = [reply.take 3, reply.drop 3].map WaitEvent.received ++ [] from rfl)
    (by decide +kernel) haccepted
  obtain rfl := Option.some.inj (Except.ok.inj (hlost.symm.trans hending))
  cases hpackage

/-! ### The first read -/

/-- The bytes that arrive before the time is up. -/
def receivedBytes : List WaitEvent → List Byte
  | .received chunk :: events => chunk ++ receivedBytes events
  | _ => []

theorem looksAtHeaders_of_awaitsRest {buffer : List Byte} {events : List WaitEvent}
    (hlt : (buffer ++ receivedBytes events).length < 2 ^ 31) (h : AwaitsRest buffer) :
    LooksAtHeaders buffer events := by
  induction events generalizing buffer with
  | nil => trivial
  | cons event events ih =>
      cases event with
      | timeOut => trivial
      | received chunk =>
          rw [receivedBytes, ← List.append_assoc] at hlt
          obtain ⟨H, D, hread, -⟩ := h
          have hstarts := hread.starts.1
          refine ⟨⟨?_, fun _ => ?_⟩, ih hlt⟩
          · rw [List.length_append]
            omega
          · have hcomplete := hread.complete
            simp only [List.length_append] at hlt
            rw [HeaderComplete, visible_of_lt (by omega)] at hcomplete
            rw [HeaderComplete, visible_of_lt (by rw [List.length_append]; omega),
              List.count_append]
            omega

/-- As long as an `int` counts the bytes, only the first read matters. -/
theorem looksAtHeaders_iff_first {chunk : List Byte} {events : List WaitEvent}
    (hlt : (chunk ++ receivedBytes events).length < 2 ^ 31) :
    LooksAtHeaders [] (.received chunk :: events) ↔ WholeHeader chunk := by
  constructor
  · intro h
    exact h.1
  · intro h
    exact ⟨h, looksAtHeaders_of_awaitsRest hlt⟩

end CloudUploader

end IoTRepublic
