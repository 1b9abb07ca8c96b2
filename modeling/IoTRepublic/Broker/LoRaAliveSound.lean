import IoTRepublic.Broker.LoRaReceiveSound

/-!
# IoTRepublic.Broker.LoRaAliveSound

The alive check over any row of replies and timeouts.

The buffer of the check is never cleared, and the test looks at its beginning, so the
first reply that comes decides (`checkAliveFrom_cases`); what comes later is appended
behind it and goes unnoticed. `honoursRetries_iff` says when that does no harm.
`checkAliveOn_eq` has that the replies are what `recvData` decodes on its own.
-/

namespace IoTRepublic

open Cpp

namespace LoRaBroker

section Alive

variable {replies : NodeReplies} {recvBuffer : List Byte} {attempts i : Nat}

/-- The replies that are decoded, in the order of the attempts. -/
def delivered (replies : NodeReplies) : List (List Byte) :=
  (List.range' 0 maxRetryTimes).filterMap replies.aliveResponse

/-- The buffers `memcmp` reads three bytes of, in the attempts from the `i`-th on. -/
def comparedFrom (replies : NodeReplies) : Nat → Nat → List Byte → List (List Byte)
  | 0, _, _ => []
  | attempts + 1, i, recvBuffer =>
    match replies.aliveResponse i with
    | none => comparedFrom replies attempts (i + 1) recvBuffer
    | some data =>
      let recvBuffer := recvBuffer ++ data
      if isAck replies.heap recvBuffer then
        [recvBuffer]
      else
        recvBuffer :: comparedFrom replies attempts (i + 1) recvBuffer

/-- The buffers that are compared in the whole check. -/
def compared (replies : NodeReplies) : List (List Byte) :=
  comparedFrom replies maxRetryTimes 0 []

/-- The check returns whether one of the replies acknowledges, and reads nothing but
received bytes. -/
structure HonoursRetries (replies : NodeReplies) : Prop where
  alive : checkAlive replies = .ok (decide (∃ reply ∈ delivered replies, msgAck <+: reply))
  bounded : ∀ buffer ∈ compared replies, 3 ≤ buffer.length

/-- The first reply has three bytes, and acknowledges if any does. -/
def FirstDecides : List (List Byte) → Prop
  | [] => True
  | first :: later =>
    3 ≤ first.length ∧ (msgAck <+: first ∨ ∀ reply ∈ later, ¬ msgAck <+: reply)

/-- Three received bytes are compared as they are. -/
theorem isAck_eq (h : 3 ≤ recvBuffer.length) (heap : Nat → Byte) :
    isAck heap recvBuffer = decide (msgAck <+: recvBuffer) := by
  match recvBuffer, h with
  | a :: b :: c :: rest, _ =>
    have hack : msgAck = [0x41, 0x43, 0x4B] := by decide
    simp [isAck, hack, List.range_succ, List.cons_prefix_cons, eq_comm]

/-- What has once failed to begin with an acknowledgement goes on failing: later replies
come behind it. -/
theorem checkAliveFrom_of_not (hlong : 3 ≤ recvBuffer.length) (hack : ¬ msgAck <+: recvBuffer) :
    checkAliveFrom replies attempts i recvBuffer = .ok false ∧
      ∀ buffer ∈ comparedFrom replies attempts i recvBuffer, 3 ≤ buffer.length := by
  induction attempts generalizing i recvBuffer with
  | zero => exact ⟨rfl, by simp [comparedFrom]⟩
  | succ attempts ih =>
      rw [checkAliveFrom, comparedFrom]
      cases replies.aliveResponse i with
      | none => exact ih hlong hack
      | some data =>
          have hlong' : 3 ≤ (recvBuffer ++ data).length := by
            rw [List.length_append]
            omega
          have hack' : ¬ msgAck <+: recvBuffer ++ data := by
            intro hprefix
            exact hack (List.prefix_of_prefix_length_le hprefix (List.prefix_append _ _) hlong)
          obtain ⟨b, hb⟩ := returns_vectorAt_iff.mpr (show 0 < (recvBuffer ++ data).length by omega)
          obtain ⟨hfalse, hbounded⟩ := ih (i := i + 1) hlong' hack'
          dsimp only
          rw [isAck_eq hlong', decide_eq_false hack']
          rw [if_neg Bool.false_ne_true]
          exact ⟨bind_ok_iff.mpr ⟨b, hb, hfalse⟩, List.forall_mem_cons.mpr ⟨hlong', hbounded⟩⟩

/-- **The first reply decides.** The buffer is never cleared, so every later comparison
starts with the bytes of the first reply; with three bytes in it or more, all of them come
out alike. -/
theorem checkAliveFrom_cases (replies : NodeReplies) (attempts i : Nat) :
    match (List.range' i attempts).filterMap replies.aliveResponse with
    | [] => checkAliveFrom replies attempts i [] = .ok false ∧
        comparedFrom replies attempts i [] = []
    | first :: _ => first ∈ comparedFrom replies attempts i [] ∧
        (3 ≤ first.length →
          checkAliveFrom replies attempts i [] = .ok (decide (msgAck <+: first)) ∧
            ∀ buffer ∈ comparedFrom replies attempts i [], 3 ≤ buffer.length) := by
  induction attempts generalizing i with
  | zero => exact ⟨rfl, rfl⟩
  | succ attempts ih =>
      rw [List.range'_succ, List.filterMap_cons, checkAliveFrom, comparedFrom]
      cases replies.aliveResponse i with
      | none => exact ih (i + 1)
      | some first =>
          dsimp only
          rw [List.nil_append]
          refine ⟨by split <;> simp, fun hlong => ?_⟩
          obtain ⟨b, hb⟩ := returns_vectorAt_iff.mpr (show 0 < first.length by omega)
          rw [isAck_eq hlong]
          by_cases hack : msgAck <+: first
          · rw [decide_eq_true hack]
            exact ⟨bind_ok_iff.mpr ⟨b, hb, rfl⟩, by simpa using hlong⟩
          · rw [decide_eq_false hack]
            obtain ⟨hfalse, hbounded⟩ : checkAliveFrom replies attempts (i + 1) first = .ok false ∧
                ∀ buffer ∈ comparedFrom replies attempts (i + 1) first, 3 ≤ buffer.length :=
              checkAliveFrom_of_not hlong hack
            rw [if_neg Bool.false_ne_true]
            exact ⟨bind_ok_iff.mpr ⟨b, hb, hfalse⟩, List.forall_mem_cons.mpr ⟨hlong, hbounded⟩⟩

/-- **When every retry counts**: when the first reply has three bytes at least and
acknowledges if any does, or none comes. -/
theorem honoursRetries_iff (replies : NodeReplies) :
    HonoursRetries replies ↔ FirstDecides (delivered replies) := by
  have hcases := checkAliveFrom_cases replies maxRetryTimes 0
  rw [← delivered, ← checkAlive, ← compared] at hcases
  cases hdelivered : delivered replies with
  | nil =>
      rw [hdelivered] at hcases
      obtain ⟨hfalse, hnone⟩ := hcases
      refine ⟨fun _ => trivial, fun _ => ⟨?_, ?_⟩⟩
      · simpa [hdelivered] using hfalse
      · simp [hnone]
  | cons first later =>
      rw [hdelivered] at hcases
      obtain ⟨hfirst, hlong⟩ := hcases
      constructor
      · intro h
        have hthree := h.bounded first hfirst
        have halive := (hlong hthree).1.symm.trans h.alive
        have heq := decide_eq_decide.mp (Except.ok.inj halive)
        rw [hdelivered, List.exists_mem_cons_iff] at heq
        refine ⟨hthree, or_iff_not_imp_left.mpr fun hnot reply hreply hack => ?_⟩
        exact hnot (heq.mpr (.inr ⟨reply, hreply, hack⟩))
      · intro h
        obtain ⟨hthree, hdecides⟩ := h
        obtain ⟨halive, hbounded⟩ := hlong hthree
        refine ⟨halive.trans (congrArg Except.ok (decide_eq_decide.mpr ?_)), hbounded⟩
        rw [hdelivered, List.exists_mem_cons_iff]
        refine (or_iff_left_of_imp fun hlater => ?_).symm
        obtain ⟨reply, hreply, hack⟩ := hlater
        exact hdecides.resolve_right fun hnone => hnone reply hreply hack

/-- A node that answers wrongly, and then as it should. -/
def corrected : NodeReplies where
  joinResponse := fun _ => lit "JoinOK"
  aliveResponse := fun i => if i = 0 then some (lit "NAK") else some msgAck
  heap := fun _ => 0

/-- It is dropped from the network. -/
theorem not_honoursRetries_corrected :
    checkAlive corrected = .ok false ∧ ¬ HonoursRetries corrected := by
  have hfalse : checkAlive corrected = .ok false := by decide
  refine ⟨hfalse, fun h => ?_⟩
  have halive := Except.ok.inj (hfalse.symm.trans h.alive)
  exact absurd halive (by decide)

end Alive

/-! ### The check on the serial port -/

/-- What an attempt decodes, into a buffer of its own. -/
def AliveReads.Decodes (attempt : AliveReads) : Option (List Byte) → Prop
  | none => recvData attempt.capacity [] attempt.behind attempt.reads = .ok (some (.timeout, []))
  | some reply =>
    recvData attempt.capacity [] attempt.behind attempt.reads = .ok (some (.succeed, reply))

/-- The check depends on what each attempt decodes on its own. -/
theorem checkAliveOn_eq {replies : NodeReplies} {attempts : List AliveReads} {i : Nat}
    (h : ∀ (k : Nat) (attempt : AliveReads), attempts[k]? = some attempt →
      attempt.Decodes (replies.aliveResponse (i + k))) (recvBuffer : List Byte) :
    checkAliveOn replies.heap attempts recvBuffer
      = some <$> checkAliveFrom replies attempts.length i recvBuffer := by
  induction attempts generalizing i recvBuffer with
  | nil => rfl
  | cons attempt attempts ih =>
      have hfirst : attempt.Decodes (replies.aliveResponse i) := h 0 attempt rfl
      have hrest := ih (i := i + 1) fun k attempt' hk => by
        rw [Nat.add_assoc, Nat.add_comm 1]
        exact h (k + 1) attempt' hk
      rw [checkAliveOn, List.length_cons, checkAliveFrom]
      cases hreply : replies.aliveResponse i with
      | none =>
          rw [hreply] at hfirst
          rw [recvData_append hfirst, ok_bind, List.append_nil]
          exact hrest recvBuffer
      | some reply =>
          rw [hreply] at hfirst
          rw [recvData_append hfirst, ok_bind]
          dsimp only
          cases hat : vectorAt (recvBuffer ++ reply) 0 with
          | error fault => rfl
          | ok b =>
              rw [ok_bind, ok_bind]
              split
              · rfl
              · exact hrest _

end LoRaBroker

end IoTRepublic
