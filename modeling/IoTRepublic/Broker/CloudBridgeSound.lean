import IoTRepublic.Broker.CloudBridge
import IoTRepublic.IoT.StreamSound

/-!
# IoTRepublic.Broker.CloudBridgeSound

Where the keep-alive bytes of the cloud bridge end up.

The lock keeps a keep-alive byte out of a chunk, and a chunk is whatever one `recv`
returned. So the bytes stay out of the packages exactly when every chunk ends with
a package (`betweenPackages_iff`), which nothing in the bridge sees to.
-/

namespace IoTRepublic

open Cpp IoTUtility Transition

/-! ### Every interleaving -/

/-- A keep-alive byte has whole packages before it. -/
def BetweenPackages (packages : List IoTPackage) (past : List CloudSend) : CloudSend → Prop
  | .keptAlive => ∃ done, done <+: packages ∧ past.flatMap (·.packageBytes) = streamBytes done
  | .forwarded _ => True

/-- The chunks end where packages end: whatever has been received by the end of a chunk is
a row of whole packages. -/
def CutBetweenPackages (packages : List IoTPackage) (chunks : List (List Byte)) : Prop :=
  ∀ front, front <+: chunks → ∃ done, done <+: packages ∧ front.flatten = streamBytes done

section Runs

variable {es : List BridgeEvent} {s : CloudBridge}

theorem receivedChunks_concat (es : List BridgeEvent) (e : BridgeEvent) :
    receivedChunks (es ++ [e]) = receivedChunks es ++ e.chunk?.toList := by
  rw [receivedChunks, List.filterMap_append, receivedChunks]
  cases e <;> rfl

theorem packageBytes_concat (s : CloudBridge) (send : CloudSend) (recvBuffer : List Byte) :
    CloudBridge.packageBytes ⟨recvBuffer, s.sentToCloud ++ [send]⟩
      = s.packageBytes ++ send.packageBytes := by
  simp [CloudBridge.packageBytes]

/-- What `managerLoop` has received is sent or about to be, and what it has sent is whole
chunks. This is the invariant of the bridge; nothing in it depends on what the bytes
mean. -/
structure Forwards (es : List BridgeEvent) (s : CloudBridge) : Prop where
  bytes : s.packageBytes ++ s.recvBuffer = (receivedChunks es).flatten
  chunks : ∃ front, front <+: receivedChunks es ∧ s.packageBytes = front.flatten

theorem forwards_step {s' : CloudBridge} {e : BridgeEvent} (hs : Forwards es s)
    (h : e.Step s s') : Forwards (es ++ [e]) s' := by
  obtain ⟨hpossible, rfl⟩ := h
  obtain ⟨front, hfront, hchunks⟩ := hs.chunks
  cases e with
  | received chunk =>
      refine ⟨?_, front, ?_, hchunks⟩
      · rw [receivedChunks_concat]
        show s.packageBytes ++ (s.recvBuffer ++ chunk) = (receivedChunks es ++ [chunk]).flatten
        rw [← List.append_assoc, hs.bytes, List.flatten_append, List.flatten_singleton]
      · rw [receivedChunks_concat]
        exact hfront.trans (List.prefix_append _ _)
  | forwarded =>
      have hsent : CloudBridge.packageBytes (BridgeEvent.forwarded.step s)
          = s.packageBytes ++ s.recvBuffer := packageBytes_concat s _ _
      have hes : receivedChunks (es ++ [.forwarded]) = receivedChunks es := by
        rw [receivedChunks_concat]
        exact List.append_nil _
      refine ⟨?_, receivedChunks es, ?_, hsent.trans hs.bytes⟩
      · rw [hes, hsent]
        show s.packageBytes ++ s.recvBuffer ++ [] = _
        rw [List.append_nil, hs.bytes]
      · rw [hes]
  | keptAlive =>
      have hsent : CloudBridge.packageBytes (BridgeEvent.keptAlive.step s) = s.packageBytes :=
        (packageBytes_concat s _ _).trans (List.append_nil _)
      have hes : receivedChunks (es ++ [.keptAlive]) = receivedChunks es := by
        rw [receivedChunks_concat]
        exact List.append_nil _
      refine ⟨?_, front, ?_, hsent.trans hchunks⟩
      · rw [hes, hsent]
        exact hs.bytes
      · rw [hes]
        exact hfront

/-- Without its keep-alive bytes the stream to the cloud is the stream from the
manager. -/
theorem forwards_run (h : Run BridgeEvent.Step {} es s) : Forwards es s :=
  h.invariant_history (I := Forwards) ⟨rfl, [], List.nil_prefix, rfl⟩
    fun _ _ _ _ hs hstep => forwards_step hs hstep

/-- Each chunk is passed on before the next one arrives. -/
theorem exists_run_of_chunks (chunks : List (List Byte)) :
    ∃ es s, Run BridgeEvent.Step {} es s ∧ receivedChunks es = chunks ∧ s.recvBuffer = [] := by
  induction chunks using List.reverseRecOn with
  | nil => exact ⟨[], {}, .nil, rfl, rfl⟩
  | append_singleton chunks chunk ih =>
      obtain ⟨es, s, hrun, hes, hempty⟩ := ih
      have hreceive : BridgeEvent.Step s (.received chunk) ⟨chunk, s.sentToCloud⟩ :=
        ⟨by simp [BridgeEvent.Possible, hempty], by simp [BridgeEvent.step, hempty]⟩
      have hchunks : receivedChunks (es ++ [.received chunk]) = chunks ++ [chunk] := by
        rw [receivedChunks_concat, hes]
        rfl
      by_cases hchunk : chunk = []
      · exact ⟨_, _, .snoc hrun hreceive, hchunks, hchunk⟩
      · have hforward : BridgeEvent.Step ⟨chunk, s.sentToCloud⟩ .forwarded
            ⟨[], s.sentToCloud ++ [.forwarded chunk]⟩ := ⟨List.length_pos_of_ne_nil hchunk, rfl⟩
        refine ⟨_, _, .snoc (.snoc hrun hreceive) hforward, ?_, rfl⟩
        rw [receivedChunks_concat, hchunks]
        exact List.append_nil _

/-- **Keep-alive bytes stay between packages**, whatever the threads do, if and only
if every chunk `managerLoop` receives ends with a package. Apart from them nothing
is added, lost or reordered. -/
theorem betweenPackages_iff {packages : List IoTPackage} {chunks : List (List Byte)}
    (hcut : chunks.flatten = streamBytes packages) :
    (∀ es s, Run BridgeEvent.Step {} es s → receivedChunks es <+: chunks →
      s.packageBytes <+: streamBytes packages ∧
        (receivedChunks es = chunks → s.recvBuffer = [] →
          s.packageBytes = streamBytes packages) ∧
        AtEach (BetweenPackages packages) s.sentToCloud) ↔
      CutBetweenPackages packages chunks := by
  constructor
  · intro hall front hfront
    obtain ⟨es, s, hrun, hes, hempty⟩ := exists_run_of_chunks front
    have hkept : receivedChunks (es ++ [.keptAlive]) = front := by
      rw [receivedChunks_concat, hes]
      exact List.append_nil _
    have hkeepAlive : BridgeEvent.Step s .keptAlive (BridgeEvent.keptAlive.step s) :=
      ⟨trivial, rfl⟩
    obtain ⟨-, -, hbetween⟩ := hall _ _ (.snoc hrun hkeepAlive) (hkept.symm ▸ hfront)
    obtain ⟨done, hdone, hbytes⟩ := (atEach_concat_iff.mp hbetween).2
    refine ⟨done, hdone, ?_⟩
    have hforwards := (forwards_run hrun).bytes
    rw [hempty, List.append_nil, hes] at hforwards
    rw [← hforwards]
    exact hbytes
  · intro hcuts es s hrun hes
    have hforwards := forwards_run hrun
    obtain ⟨front, hfront, hchunks⟩ := hforwards.chunks
    refine ⟨?_, ?_, ?_⟩
    · rw [hchunks, ← hcut]
      exact (hfront.trans hes).flatten
    · intro hall hempty
      rw [← hcut, ← hall, ← hforwards.bytes, hempty, List.append_nil]
    · refine hrun.invariant_history (I := fun es s => receivedChunks es <+: chunks →
        Forwards es s ∧ AtEach (BetweenPackages packages) s.sentToCloud) ?_ ?_ hes |>.2
      · exact fun _ => ⟨forwards_run .nil, atEach_nil⟩
      · intro es s e s' ih hstep hes
        have hold : receivedChunks es <+: chunks := by
          rw [receivedChunks_concat] at hes
          exact (List.prefix_append _ _).trans hes
        obtain ⟨hforwards, hbetween⟩ := ih hold
        refine ⟨forwards_step hforwards hstep, ?_⟩
        obtain ⟨-, rfl⟩ := hstep
        cases e with
        | received chunk => exact hbetween
        | forwarded => exact atEach_concat_iff.mpr ⟨hbetween, trivial⟩
        | keptAlive =>
            -- So far whole chunks were sent, and those are whole packages.
            obtain ⟨front, hfront, hchunks⟩ := hforwards.chunks
            obtain ⟨done, hdone, hbytes⟩ := hcuts front (hfront.trans hold)
            exact atEach_concat_iff.mpr ⟨hbetween, done, hdone, hchunks.trans hbytes⟩

end Runs

/-! ### A package in one piece, and in two -/

/-- A chunk arrives and is passed on, a keep-alive byte is sent, and again. -/
def passOn (first second : List Byte) : List BridgeEvent :=
  [.received first, .forwarded, .keptAlive, .received second, .forwarded]

theorem run_passOn {first second : List Byte} (hfirst : 0 < first.length)
    (hsecond : 0 < second.length) :
    Run BridgeEvent.Step {} (passOn first second)
      ⟨[], [.forwarded first, .keptAlive, .forwarded second]⟩ := by
  have h₁ : Run BridgeEvent.Step {} [.received first] ⟨first, []⟩ := .snoc .nil ⟨rfl, rfl⟩
  have h₂ : Run BridgeEvent.Step {} [.received first, .forwarded] ⟨[], [.forwarded first]⟩ :=
    .snoc h₁ ⟨hfirst, rfl⟩
  have h₃ : Run BridgeEvent.Step {} [.received first, .forwarded, .keptAlive]
      ⟨[], [.forwarded first, .keptAlive]⟩ := .snoc h₂ ⟨trivial, rfl⟩
  have h₄ : Run BridgeEvent.Step {} [.received first, .forwarded, .keptAlive, .received second]
      ⟨second, [.forwarded first, .keptAlive]⟩ := .snoc h₃ ⟨rfl, rfl⟩
  exact .snoc h₄ ⟨hsecond, rfl⟩

/-- Two packages, a chunk each. -/
theorem betweenPackages_whole :
    AtEach (BetweenPackages [ping, ping])
      [.forwarded ping.dataVectorForSending, .keptAlive,
        .forwarded ping.dataVectorForSending] := by
  have hcut : CutBetweenPackages [ping, ping]
      [ping.dataVectorForSending, ping.dataVectorForSending] := by
    intro front hfront
    refine ⟨[ping, ping].take front.length, List.take_prefix _ _, ?_⟩
    conv_lhs => rw [List.prefix_iff_eq_take.mp hfront]
    rw [streamBytes_eq_flatten, List.map_take]
    rfl
  have hlen : 0 < ping.dataVectorForSending.length := by decide +kernel
  exact ((betweenPackages_iff (by decide +kernel)).mpr hcut _ _ (run_passOn hlen hlen)
    (List.prefix_refl _)).2.2

/-- One package in two chunks, and a keep-alive byte in the middle of it. -/
theorem not_betweenPackages_cut :
    Run BridgeEvent.Step {}
        (passOn (ping.dataVectorForSending.take 8) (ping.dataVectorForSending.drop 8))
        ⟨[], [.forwarded (ping.dataVectorForSending.take 8), .keptAlive,
          .forwarded (ping.dataVectorForSending.drop 8)]⟩ ∧
      [ping.dataVectorForSending.take 8, ping.dataVectorForSending.drop 8].flatten
        = streamBytes [ping] ∧
      CloudBridge.cloudBytes ⟨[], [.forwarded (ping.dataVectorForSending.take 8), .keptAlive,
          .forwarded (ping.dataVectorForSending.drop 8)]⟩
        = ping.dataVectorForSending.take 8 ++ 0x05 :: ping.dataVectorForSending.drop 8 ∧
      ¬ AtEach (BetweenPackages [ping])
        [.forwarded (ping.dataVectorForSending.take 8), .keptAlive,
          .forwarded (ping.dataVectorForSending.drop 8)] := by
  refine ⟨run_passOn (by decide +kernel) (by decide +kernel), by decide +kernel,
    by decide +kernel, fun hbetween => ?_⟩
  obtain ⟨done, hdone, hbytes⟩ := hbetween 1 .keptAlive rfl
  -- Eight bytes are neither no package nor the whole one.
  have hlength : (streamBytes done).length = 8 := by
    rw [← hbytes]
    decide +kernel
  rcases done with _ | ⟨p, done⟩
  · simp [streamBytes] at hlength
  · obtain ⟨rfl, hrest⟩ := List.cons_prefix_cons.mp hdone
    obtain rfl := List.prefix_nil.mp hrest
    exact absurd hlength (by decide +kernel)

end IoTRepublic
