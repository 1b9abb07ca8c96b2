import IoTRepublic.Broker.ReceiveLoops
import IoTRepublic.IoT.StreamSound

/-!
# IoTRepublic.Broker.ReceiveStreamSound

What the loops that never drop anything do with a stream of packages they know how to
handle.

`round_of_stream` is one round and `rounds_of_stream` a run: the packages that have come
in whole are handled, once and in order, however the stream is cut into chunks. The
loops of the cloud uploader, the cloud bridge and the fake broker are of this kind.
`runRounds_of_items` says the same of things that are sent as packages.
-/

namespace IoTRepublic

open Cpp IoTUtility Framing

universe u v

variable {σ : Type u} {dispatch : IoTPackage → σ → Except Fault σ}

theorem streamBytes_append (packages packages' : List IoTPackage) :
    streamBytes (packages ++ packages') = streamBytes packages ++ streamBytes packages' :=
  List.flatMap_append

/-! ### One round -/

theorem foldlM_dispatched (packages : List IoTPackage) (handler : σ)
    (dispatched : List IoTPackage) :
    packages.foldlM (fun (state : σ × List IoTPackage) package => do
        return (← dispatch package state.1, state.2 ++ [package])) (handler, dispatched)
      = (packages.foldlM (fun s p => dispatch p s) handler
          >>= fun handler => .ok (handler, dispatched ++ packages)) := by
  induction packages generalizing handler dispatched with
  | nil =>
      rw [List.append_nil]
      rfl
  | cons p packages ih =>
      rw [List.foldlM_cons, List.foldlM_cons]
      cases hp : dispatch p handler with
      | error fault => rfl
      | ok handler₁ =>
          rw [ok_bind, ok_bind]
          show packages.foldlM _ (handler₁, dispatched ++ [p]) = _
          rw [ih, List.append_assoc]
          rfl

theorem returns_foldlM {packages : List IoTPackage}
    (h : ∀ p ∈ packages, ∀ handler, Returns (dispatch p handler)) (handler : σ) :
    Returns (packages.foldlM (fun handler p => dispatch p handler) handler) := by
  induction packages generalizing handler with
  | nil => exact ⟨handler, rfl⟩
  | cons p packages ih =>
      obtain ⟨hp, hps⟩ := List.forall_mem_cons.mp h
      obtain ⟨handler₁, hhandler⟩ := hp handler
      rw [List.foldlM_cons, hhandler, ok_bind]
      exact ih hps handler₁

/-- The front of a stream, parsed and handled. -/
theorem dispatchPackages_of_stream {packages : List IoTPackage} {buffer : List Byte}
    {s : ReceiveState σ} (hall : ∀ p ∈ packages, Transmitted p)
    (hreturns : ∀ p ∈ packages, ∀ handler, Returns (dispatch p handler))
    (hpre : buffer <+: streamBytes packages) (hlt : buffer.length < 2 ^ 31) :
    ∃ done left s', packages = done ++ left ∧
      dispatchPackages dispatch { s with buffer := buffer } = .ok s' ∧
      buffer = streamBytes done ++ s'.buffer ∧
      Pending (left.map (·.dataVectorForSending)) s'.buffer ∧
      done.foldlM (fun handler p => dispatch p handler) s.handler = .ok s'.handler := by
  obtain ⟨done, left, front, e, rfl, rfl, hfront, -, hget⟩ := front_of_stream hall hpre
  have hdone : ∀ p ∈ done, Transmitted p := fun p hp => hall p (List.mem_append_left _ hp)
  obtain ⟨handler, hhandler⟩ : Returns (done.foldlM (fun handler p => dispatch p handler)
      s.handler) :=
    returns_foldlM (fun p hp => hreturns p (List.mem_append_left _ hp)) _
  refine ⟨done, left, ⟨handler, front, e, s.dispatched ++ done⟩, rfl, ?_, rfl, hfront, hhandler⟩
  rw [dispatchPackages, packageLoop_of_packages hdone hlt hget, foldlM_dispatched, hhandler]
  rfl

/-- A round of a loop that never drops anything. -/
theorem round_of_stream {loop : ReceiveLoop} (hloop : loop.dropping = false)
    {packages : List IoTPackage} {r : Received} {s : ReceiveState σ}
    (hall : ∀ p ∈ packages, Transmitted p)
    (hreturns : ∀ p ∈ packages, ∀ handler, Returns (dispatch p handler))
    (hpending : Pending (packages.map (·.dataVectorForSending)) s.buffer)
    (hpre : s.buffer ++ r.chunk <+: streamBytes packages)
    (hlt : (s.buffer ++ r.chunk).length < 2 ^ 31) :
    ∃ done left s', packages = done ++ left ∧ loop.round dispatch r s = .ok s' ∧
      s.buffer ++ r.chunk = streamBytes done ++ s'.buffer ∧
      Pending (left.map (·.dataVectorForSending)) s'.buffer ∧
      done.foldlM (fun handler p => dispatch p handler) s.handler = .ok s'.handler := by
  have hparse := dispatchPackages_of_stream (s := s) hall hreturns hpre hlt
  have hpackageBuffer : ∃ done left s', packages = done ++ left ∧
      packageBufferRound dispatch r s = .ok s' ∧
      s.buffer ++ r.chunk = streamBytes done ++ s'.buffer ∧
      Pending (left.map (·.dataVectorForSending)) s'.buffer ∧
      done.foldlM (fun handler p => dispatch p handler) s.handler = .ok s'.handler := by
    unfold packageBufferRound
    split
    · exact hparse
    · rename_i hchunk
      have hnil : r.chunk = [] := List.eq_nil_of_length_eq_zero (by omega)
      refine ⟨[], packages, s, rfl, rfl, ?_, hpending, rfl⟩
      rw [hnil, List.append_nil]
      rfl
  cases loop with
  | loRaBroker | xBeeBroker => cases hloop
  | cloudUploader | cloudBridge => exact hpackageBuffer
  | fakeBroker =>
      show ∃ done left s', packages = done ++ left ∧ inPlaceRound dispatch false r s = .ok s' ∧ _
      dsimp only [inPlaceRound]
      rw [if_neg (by simp)]
      split
      · exact hparse
      · rename_i hempty
        have hnil : s.buffer ++ r.chunk = [] := List.eq_nil_of_length_eq_zero (by omega)
        refine ⟨[], packages, { s with buffer := s.buffer ++ r.chunk }, rfl, rfl, rfl, ?_, rfl⟩
        exact hnil ▸ pending_nil (sending_ne_nil hall)

/-! ### A run -/

/-- No chunk makes a buffer outgrow an `int`: what is kept between two rounds is shorter
than a package. -/
def ChunksFit (packages : List IoTPackage) (rounds : List Received) : Prop :=
  ∀ p ∈ packages, ∀ r ∈ rounds, p.dataVectorForSending.length + r.chunk.length ≤ 2 ^ 31

theorem length_lt_of_pending {packages : List IoTPackage} {buffer chunk : List Byte}
    (hpending : Pending (packages.map (·.dataVectorForSending)) buffer)
    (hpre : buffer ++ chunk <+: streamBytes packages)
    (hfit : ∀ p ∈ packages, p.dataVectorForSending.length + chunk.length ≤ 2 ^ 31) :
    (buffer ++ chunk).length < 2 ^ 31 := by
  cases packages with
  | nil =>
      have hlen := hpre.length_le
      simp only [streamBytes, List.flatMap_nil, List.length_nil] at hlen
      omega
  | cons p packages =>
      have hshort : buffer.length < p.dataVectorForSending.length := hpending.2
      have hp := hfit p (List.mem_cons_self ..)
      rw [List.length_append]
      omega

/-- The packages that have come in whole are handled, once and in order, and what is left is
the front of the next. -/
theorem rounds_of_stream {loop : ReceiveLoop} (hloop : loop.dropping = false)
    {rounds : List Received} {packages : List IoTPackage} {s : ReceiveState σ}
    (hall : ∀ p ∈ packages, Transmitted p)
    (hreturns : ∀ p ∈ packages, ∀ handler, Returns (dispatch p handler))
    (hpending : Pending (packages.map (·.dataVectorForSending)) s.buffer)
    (hpre : s.buffer ++ rounds.flatMap (·.chunk) <+: streamBytes packages)
    (hfit : ChunksFit packages rounds) :
    ∃ done left s', packages = done ++ left ∧
      rounds.foldlM (fun s r => loop.round dispatch r s) s = .ok s' ∧
      s.buffer ++ rounds.flatMap (·.chunk) = streamBytes done ++ s'.buffer ∧
      Pending (left.map (·.dataVectorForSending)) s'.buffer ∧
      done.foldlM (fun handler p => dispatch p handler) s.handler = .ok s'.handler := by
  -- From a round to the next the stream loses the packages that were handled.
  induction rounds generalizing packages s with
  | nil => exact ⟨[], packages, s, rfl, rfl, by simp [streamBytes], hpending, rfl⟩
  | cons r rounds ih =>
      rw [List.flatMap_cons, ← List.append_assoc] at hpre
      have hpre₁ : s.buffer ++ r.chunk <+: streamBytes packages :=
        (List.prefix_append _ _).trans hpre
      have hlt := length_lt_of_pending hpending hpre₁
        fun p hp => hfit p hp r (List.mem_cons_self ..)
      obtain ⟨done₁, left₁, s₁, rfl, hround, hbuffer, hpending₁, hdone₁⟩ :=
        round_of_stream hloop hall hreturns hpending hpre₁ hlt
      rw [hbuffer, List.append_assoc, streamBytes_append] at hpre
      have hleft : ∀ p ∈ left₁, p ∈ done₁ ++ left₁ := fun p => List.mem_append_right _
      obtain ⟨done₂, left₂, s₂, rfl, hrounds, hrest, hpending₂, hdone₂⟩ :=
        ih (fun p hp => hall p (hleft p hp)) (fun p hp => hreturns p (hleft p hp)) hpending₁
          ((List.prefix_append_right_inj _).mp hpre)
          fun p hp r' hr' => hfit p (hleft p hp) r' (List.mem_cons_of_mem _ hr')
      refine ⟨done₁ ++ done₂, left₂, s₂, (List.append_assoc ..).symm, ?_, ?_, hpending₂, ?_⟩
      · rw [List.foldlM_cons, hround, ok_bind, hrounds]
      · rw [List.flatMap_cons, ← List.append_assoc, hbuffer, List.append_assoc, hrest,
          streamBytes_append, List.append_assoc]
      · rw [List.foldlM_append, hdone₁, ok_bind, hdone₂]

/-! ### Things that are sent as packages -/

section Items

variable {α : Type v} {package : α → IoTPackage}

/-- A run of a loop on the packages of some things. -/
theorem runRounds_of_items {loop : ReceiveLoop} (hloop : loop.dropping = false)
    {items : List α} {rounds : List Received} (handler : σ)
    (hall : ∀ a ∈ items, Transmitted (package a))
    (hreturns : ∀ a ∈ items, ∀ handler, Returns (dispatch (package a) handler))
    (hstream : rounds.flatMap (·.chunk) <+: streamBytes (items.map package))
    (hfit : ChunksFit (items.map package) rounds) :
    ∃ done left s, items = done ++ left ∧ loop.runRounds dispatch handler rounds = .ok s ∧
      rounds.flatMap (·.chunk) = streamBytes (done.map package) ++ s.buffer ∧
      Pending (left.map fun a => (package a).dataVectorForSending) s.buffer ∧
      (done.map package).foldlM (fun handler p => dispatch p handler) handler = .ok s.handler := by
  have hpackages : ∀ p ∈ items.map package, Transmitted p := List.forall_mem_map.mpr hall
  obtain ⟨donePackages, leftPackages, s, hsplit, hrun, hbytes, hpending, hdone⟩ :=
    rounds_of_stream hloop (s := { handler := handler }) hpackages
      (List.forall_mem_map.mpr hreturns) (pending_nil (sending_ne_nil hpackages))
      (by rwa [List.nil_append]) hfit
  obtain ⟨done, left, rfl, rfl, rfl⟩ := List.map_eq_append_iff.mp hsplit
  rw [List.nil_append] at hbytes
  rw [List.map_map] at hpending
  exact ⟨done, left, s, rfl, hrun, hbytes, hpending, hdone⟩

/-- When all of the stream has come in, nothing of it is left. -/
theorem nothing_left {done left : List α} {buffer : List Byte}
    (hall : ∀ a ∈ left, Transmitted (package a))
    (hbytes : streamBytes ((done ++ left).map package) = streamBytes (done.map package) ++ buffer)
    (hpending : Pending (left.map fun a => (package a).dataVectorForSending) buffer) :
    left = [] ∧ buffer = [] := by
  have hne : ∀ f ∈ left.map fun a => (package a).dataVectorForSending, f ≠ [] :=
    List.forall_mem_map.mpr fun a ha => (hall a ha).sending_ne_nil
  rw [List.map_append, streamBytes_append] at hbytes
  obtain ⟨hleft, hbuffer⟩ := hpending.eq_nil_of_flatten hne
    (by rw [← List.append_cancel_left hbytes, streamBytes_eq_flatten, List.map_map]; rfl)
  exact ⟨List.map_eq_nil_iff.mp hleft, hbuffer⟩

end Items

end IoTRepublic
