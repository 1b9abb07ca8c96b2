import IoTRepublic.IoT.Reassembly
import IoTRepublic.IoT.UtilitySound
import IoTRepublic.Lib.Framing

/-!
# IoTRepublic.IoT.StreamSound

Streams of packages, cut into chunks and interleaved.

`packageLoop_of_packages` is the step: on any front of a stream of packages the loop
handles the packages that are complete, in order, and leaves the front of the next
one. `receiveAll_reassembles` carries it over every order of calls: each client's
packages are found exactly as they were sent. The one condition is that no buffer
outgrows an `int`, in which the decoder keeps its size
(`not_reassembled_of_wrapped`).

The statement about runs is by a simulation. `Expects` relates a state between two calls
to the packages that are still to be found in each slot, those the buffer has the front of
included. A call on a slot finds the first of these and leaves the rest expected, and what
happens in the other slots is not touched (`Expects.step`); after the last call nothing is
expected any more. A handler that raises ends the run, which `DispatchRaises` records with
the package it raised at.
-/

namespace IoTRepublic

open Cpp IoTPackage IoTUtility Framing

/-! ### The packages of a stream -/

/-- A package between two addresses, with an ASCII payload: one the two sides compute the
same checksum of. -/
def Transmitted (package : IoTPackage) : Prop :=
  ∃ soIp desIp, ∃ payload : Payload, Sendable soIp desIp payload.bytes ∧
    (∀ b ∈ payload.bytes, b.toNat < 0x80) ∧
    construct protocolVersion soIp desIp payload = .ok package

theorem transmitted_sent {soIp desIp : Text} {data : List Byte} (h : Sendable soIp desIp data)
    (hascii : ∀ b ∈ data, b.toNat < 0x80) : Transmitted (sent soIp desIp data) :=
  ⟨soIp, desIp, .vector data, h, hascii, h.ofVector_eq⟩

/-- The bytes of packages sent one after the other, without anything between them. -/
def streamBytes (packages : List IoTPackage) : List Byte :=
  packages.flatMap (·.dataVectorForSending)

theorem streamBytes_eq_flatten (packages : List IoTPackage) :
    streamBytes packages = (packages.map (·.dataVectorForSending)).flatten := rfl

theorem streamBytes_cons_append (p : IoTPackage) (packages : List IoTPackage) (front : List Byte) :
    streamBytes (p :: packages) ++ front
      = p.dataVectorForSending ++ (streamBytes packages ++ front) := by
  rw [streamBytes, List.flatMap_cons, List.append_assoc]
  rfl

namespace Transmitted

variable {package : IoTPackage} (h : Transmitted package)

include h

theorem exists_sent : ∃ soIp desIp data, Sendable soIp desIp data ∧
    (∀ b ∈ data, b.toNat < 0x80) ∧ package = sent soIp desIp data := by
  obtain ⟨soIp, desIp, payload, hs, hascii, hbuilt⟩ := h
  refine ⟨soIp, desIp, payload.bytes, hs, hascii, ?_⟩
  cases payload with
  | null => exact Except.ok.inj (hbuilt.symm.trans ((ofVector_none _ _ _).trans hs.ofVector_eq))
  | vector data => exact Except.ok.inj (hbuilt.symm.trans hs.ofVector_eq)
  | string data => exact Except.ok.inj (hbuilt.symm.trans hs.ofString_eq)

theorem sending_ne_nil : package.dataVectorForSending ≠ [] := by
  obtain ⟨soIp, desIp, data, hs, -, rfl⟩ := h.exists_sent
  apply List.ne_nil_of_length_pos
  rw [hs.dataVectorForSending_length_eq]
  omega

theorem sending_length_lt : package.dataVectorForSending.length < 2 ^ 31 := by
  obtain ⟨soIp, desIp, data, hs, -, rfl⟩ := h.exists_sent
  have hfits := hs.fits
  rw [hs.dataVectorForSending_length_eq]
  omega

/-- At the front of a buffer of at most `INT_MAX` bytes the package is found. -/
theorem getCompletedPackage_eq {r : List Byte}
    (hlt : (package.dataVectorForSending ++ r).length < 2 ^ 31) :
    getCompletedPackage (package.dataVectorForSending ++ r) = .ok ⟨some package, .noError, r⟩ := by
  obtain ⟨soIp, desIp, data, hs, hascii, rfl⟩ := h.exists_sent
  have hlen : ((sent soIp desIp data).dataVectorForSending.length : Int)
      ≤ toInt ((sent soIp desIp data).dataVectorForSending ++ r).length := by
    rw [toInt_of_lt hlt, List.length_append]
    omega
  rw [getCompletedPackage_of_sent hs hlen,
    if_pos (checksumsAgree_of_ascii (hs.ascii_sentCovered hascii))]

theorem version_isPrefix : currentVersion <+: package.dataVectorForSending := by
  obtain ⟨soIp, desIp, data, hs, -, rfl⟩ := h.exists_sent
  exact hs.version_isPrefix

/-- Nothing is taken from a buffer that shows less than the package. -/
theorem getCompletedPackage_partial {buffer : List Byte}
    (hvis : visible buffer <+: package.dataVectorForSending)
    (hstart : currentVersion.length ≤ buffer.length → StartsRight buffer)
    (hlt : toInt buffer.length < package.dataVectorForSending.length) :
    ∃ e, NotCompleted e ∧ getCompletedPackage buffer = .ok (notFound e buffer) := by
  obtain ⟨soIp, desIp, data, hs, -, rfl⟩ := h.exists_sent
  exact getCompletedPackage_of_partial hs hvis hstart hlt

theorem getCompletedPackage_front {front : List Byte}
    (hpre : front <+: package.dataVectorForSending)
    (hlt : front.length < package.dataVectorForSending.length) :
    ∃ e, NotCompleted e ∧ getCompletedPackage front = .ok (notFound e front) := by
  refine h.getCompletedPackage_partial ((visible_isPrefix front).trans hpre) (fun hlen => ?_) ?_
  · exact startsRight_of_isPrefix (List.prefix_refl _)
      (List.prefix_of_prefix_length_le h.version_isPrefix hpre hlen)
  · have := toInt_le front.length
    omega

/-- Nor from one that has the package and more, once its size has wrapped. -/
theorem getCompletedPackage_wrapped {r : List Byte}
    (hlt : toInt (package.dataVectorForSending ++ r).length < package.dataVectorForSending.length) :
    ∃ e, NotCompleted e ∧ getCompletedPackage (package.dataVectorForSending ++ r)
      = .ok (notFound e (package.dataVectorForSending ++ r)) :=
  h.getCompletedPackage_partial (visible_prefix_of_lt hlt)
    (fun _ => startsRight_of_isPrefix h.version_isPrefix (List.prefix_append _ _)) hlt

end Transmitted

theorem sending_ne_nil {packages : List IoTPackage} (h : ∀ p ∈ packages, Transmitted p) :
    ∀ f ∈ packages.map (·.dataVectorForSending), f ≠ [] := by
  intro f hf
  obtain ⟨p, hp, rfl⟩ := List.mem_map.mp hf
  exact (h p hp).sending_ne_nil

/-! ### One call -/

/-- Nothing is taken from what is pending. -/
theorem getCompletedPackage_of_pending {packages : List IoTPackage} {front : List Byte}
    (hall : ∀ p ∈ packages, Transmitted p)
    (h : Pending (packages.map (·.dataVectorForSending)) front) :
    ∃ e, NotCompleted e ∧ getCompletedPackage front = .ok (notFound e front) := by
  cases packages with
  | nil =>
      obtain rfl : front = [] := h
      exact ⟨_, .inl rfl, getCompletedPackage_of_short (by decide)⟩
  | cons p packages =>
      exact (hall p (List.mem_cons_self ..)).getCompletedPackage_front h.1 h.2

section Loop

variable {σ : Type*} {handle : IoTPackage → σ → Except Fault σ}

/-- The loop on some packages and a rest it takes nothing from. -/
theorem packageLoop_of_packages {packages : List IoTPackage} {front : List Byte}
    {e : GetPackageError} (hall : ∀ p ∈ packages, Transmitted p)
    (hlt : (streamBytes packages ++ front).length < 2 ^ 31)
    (hfront : getCompletedPackage front = .ok (notFound e front)) (s : σ) :
    packageLoop handle s (streamBytes packages ++ front)
      = (packages.foldlM (fun s p => handle p s) s >>= fun s => .ok (s, e, front)) := by
  induction packages generalizing s with
  | nil => exact packageLoop_of_none hfront
  | cons p packages ih =>
      obtain ⟨hp, hps⟩ := List.forall_mem_cons.mp hall
      rw [streamBytes_cons_append] at hlt ⊢
      have hrest : (streamBytes packages ++ front).length < 2 ^ 31 := by
        rw [List.length_append] at hlt
        omega
      rw [packageLoop_of_some (hp.getCompletedPackage_eq hlt), List.foldlM_cons, bind_assoc]
      exact bind_congr fun s => ih hps hrest s

/-- When a handler fails in there, the loop has come to its package. -/
theorem handles_of_packages {packages : List IoTPackage} {front : List Byte} {fault : Fault}
    (hall : ∀ p ∈ packages, Transmitted p)
    (hlt : (streamBytes packages ++ front).length < 2 ^ 31) {s : σ}
    (h : packages.foldlM (fun s p => handle p s) s = .error fault) :
    ∃ p ∈ packages, ∃ s', Handles handle s (streamBytes packages ++ front) p s' ∧
      handle p s' = .error fault := by
  induction packages generalizing s with
  | nil => simp at h
  | cons p packages ih =>
      obtain ⟨hp, hps⟩ := List.forall_mem_cons.mp hall
      rw [streamBytes_cons_append] at hlt ⊢
      have hget := hp.getCompletedPackage_eq hlt
      cases hs : handle p s with
      | error fault' =>
          rw [List.foldlM_cons, hs, error_bind] at h
          obtain rfl := Except.error.inj h
          exact ⟨p, List.mem_cons_self .., s, .here hget, hs⟩
      | ok s₁ =>
          rw [List.foldlM_cons, hs, ok_bind] at h
          have hrest : (streamBytes packages ++ front).length < 2 ^ 31 := by
            rw [List.length_append] at hlt
            omega
          obtain ⟨p', hp', s', hhandles, hfault⟩ := ih hps hrest h
          exact ⟨p', List.mem_cons_of_mem _ hp', s', .later hget hs hhandles, hfault⟩

end Loop

/-- Any front of a stream is some whole packages and a rest nothing is taken from. -/
theorem front_of_stream {packages : List IoTPackage} {buffer : List Byte}
    (hall : ∀ p ∈ packages, Transmitted p) (hpre : buffer <+: streamBytes packages) :
    ∃ done rest front e, packages = done ++ rest ∧ buffer = streamBytes done ++ front ∧
      Pending (rest.map (·.dataVectorForSending)) front ∧ NotCompleted e ∧
      getCompletedPackage front = .ok (notFound e front) := by
  obtain ⟨doneFrames, restFrames, front, hframes, rfl, hpending⟩ :=
    split_front (sending_ne_nil hall) hpre
  obtain ⟨done, rest, rfl, rfl, rfl⟩ := List.map_eq_append_iff.mp hframes
  obtain ⟨e, he, hfront⟩ := getCompletedPackage_of_pending
    (fun p hp => hall p (List.mem_append_right _ hp)) hpending
  exact ⟨done, rest, front, e, rfl, rfl, hpending, he, hfront⟩

theorem foldlM_remember (packages : List IoTPackage) (found : List Outcome) :
    packages.foldlM (fun found p => remember p found) found
      = .ok (found ++ packages.map .package) := by
  induction packages generalizing found with
  | nil => simp
  | cons p packages ih =>
      rw [List.foldlM_cons, remember, ok_bind, ih, List.append_assoc]
      rfl

/-- **A chunk of a stream**: the packages that have arrived whole are found, in order, and
what is left is the front of the next. How much of the stream had come before, and how it
was cut, is not seen. -/
theorem feed_of_stream {packages : List IoTPackage} {buffer chunk : List Byte}
    (hall : ∀ p ∈ packages, Transmitted p) (hpre : buffer ++ chunk <+: streamBytes packages)
    (hlt : (buffer ++ chunk).length < 2 ^ 31) (found : List Outcome) :
    ∃ done rest front, packages = done ++ rest ∧ buffer ++ chunk = streamBytes done ++ front ∧
      Pending (rest.map (·.dataVectorForSending)) front ∧
      feed (found, buffer) chunk = .ok (found ++ done.map .package, front) := by
  obtain ⟨done, rest, front, e, rfl, hbuffer, hpending, he, hfront⟩ := front_of_stream hall hpre
  refine ⟨done, rest, front, rfl, hbuffer, hpending, ?_⟩
  have hdone : ∀ p ∈ done, Transmitted p := fun p hp => hall p (List.mem_append_left _ hp)
  have hloop : packageLoop remember found (streamBytes done ++ front) = _ :=
    packageLoop_of_packages hdone (hbuffer ▸ hlt) hfront found
  rw [foldlM_remember, ok_bind] at hloop
  rw [feed, hbuffer, hloop, ok_bind]
  -- None of the three errors that leave a buffer alone clears it.
  rcases he with rfl | rfl | rfl <;> rfl

/-! ### Any order of calls -/

variable {J : Jansson} {server : TcpServer}

/-- The calls of `Event_ReceivedData`: a slot and a chunk each. -/
def receiveAll (J : Jansson) (server : TcpServer) (s : ManagerState)
    (calls : List (Nat × List Byte)) : Except Fault ManagerState :=
  calls.foldlM (fun s call => ManagerState.eventReceivedData J server call.1 call.2 s) s

/-- The bytes the calls deliver for slot `i`. -/
def delivered (i : Nat) : List (Nat × List Byte) → List Byte
  | [] => []
  | (socketIndex, chunk) :: calls =>
    if socketIndex = i then chunk ++ delivered i calls else delivered i calls

/-- The calls deliver every client's stream, cut and interleaved somehow. -/
structure Delivers (slots : Nat) (streams : Nat → List IoTPackage)
    (calls : List (Nat × List Byte)) : Prop where
  transmitted : ∀ i, ∀ p ∈ streams i, Transmitted p
  connected : ∀ call ∈ calls, call.1 < slots
  bytes : ∀ i, delivered i calls = streamBytes (streams i)

/-- No call makes a buffer longer than `INT_MAX`. -/
def BuffersFit (J : Jansson) (server : TcpServer) :
    ManagerState → List (Nat × List Byte) → Prop
  | _, [] => True
  | s, (socketIndex, chunk) :: calls =>
    (s.manager.packageBuffer.getD socketIndex [] ++ chunk).length < 2 ^ 31 ∧
      match ManagerState.eventReceivedData J server socketIndex chunk s with
      | .ok s => BuffersFit J server s calls
      | .error _ => True

/-- The condition can be evaluated along the calls. -/
instance decidableBuffersFit : ∀ (s : ManagerState) (calls : List (Nat × List Byte)),
    Decidable (BuffersFit J server s calls)
  | _, [] => isTrue trivial
  | s, (socketIndex, chunk) :: calls =>
    match hcall : ManagerState.eventReceivedData J server socketIndex chunk s with
    | .ok s' =>
      have := decidableBuffersFit s' calls
      decidable_of_iff
        ((s.manager.packageBuffer.getD socketIndex [] ++ chunk).length < 2 ^ 31 ∧
          BuffersFit J server s' calls) (by rw [BuffersFit, hcall])
    | .error _ =>
      decidable_of_iff ((s.manager.packageBuffer.getD socketIndex [] ++ chunk).length < 2 ^ 31)
        (by rw [BuffersFit, hcall, and_true])

/-- During the calls, `handlePackage` dispatches a package and the dispatch raises. -/
inductive DispatchRaises (J : Jansson) (server : TcpServer) (fault : Fault) :
    ManagerState → List (Nat × List Byte) → Prop
  | now {s s' : ManagerState} {socketIndex : Nat} {old chunk : List Byte}
      {calls : List (Nat × List Byte)} {package : IoTPackage}
      (hold : s.manager.packageBuffer[socketIndex]? = some old)
      (hhandles : Handles (ManagerState.dispatchPackage J server socketIndex)
        (s.buffered socketIndex old chunk) (old ++ chunk) package s')
      (hraise : IoTManager.dispatch J server socketIndex package s'.manager = .error fault) :
      DispatchRaises J server fault s ((socketIndex, chunk) :: calls)
  | later {s s' : ManagerState} {socketIndex : Nat} {chunk : List Byte}
      {calls : List (Nat × List Byte)}
      (hcall : ManagerState.eventReceivedData J server socketIndex chunk s = .ok s')
      (hlater : DispatchRaises J server fault s' calls) :
      DispatchRaises J server fault s ((socketIndex, chunk) :: calls)

theorem dispatch_raises {socketIndex : Nat} {package : IoTPackage} {s : ManagerState}
    {fault : Fault}
    (h : ManagerState.dispatchPackage J server socketIndex package s = .error fault) :
    IoTManager.dispatch J server socketIndex package s.manager = .error fault := by
  rcases bind_error_iff.mp h with h | ⟨_, -, h⟩
  · exact h
  · simp at h

/-- A call that fails on a front of a stream fails in a dispatch. -/
theorem raises_of_stream {packages : List IoTPackage} {socketIndex : Nat} {old chunk : List Byte}
    {calls : List (Nat × List Byte)} {s : ManagerState} {fault : Fault}
    (hold : s.manager.packageBuffer[socketIndex]? = some old)
    (hall : ∀ p ∈ packages, Transmitted p) (hpre : old ++ chunk <+: streamBytes packages)
    (hlt : (old ++ chunk).length < 2 ^ 31)
    (h : ManagerState.eventReceivedData J server socketIndex chunk s = .error fault) :
    DispatchRaises J server fault s ((socketIndex, chunk) :: calls) := by
  obtain ⟨done, rest, front, e, rfl, hbuffer, -, -, hfront⟩ := front_of_stream hall hpre
  have hdone : ∀ p ∈ done, Transmitted p := fun p hp => hall p (List.mem_append_left _ hp)
  rw [hbuffer] at hlt
  rw [ManagerState.eventReceivedData_eq hold, hbuffer, packageLoop_of_packages hdone hlt hfront,
    bind_assoc] at h
  rcases bind_error_iff.mp h with h | ⟨_, -, h⟩
  · obtain ⟨package, -, s', hhandles, hraise⟩ := handles_of_packages hdone hlt h
    rw [← hbuffer] at hhandles
    exact .now hold hhandles (dispatch_raises hraise)
  · simp at h

/-- Between two calls: what is in the buffers and what the calls still bring are
the packages `expected`. -/
structure Expects (s : ManagerState) (expected : Nat → List IoTPackage)
    (calls : List (Nat × List Byte)) : Prop where
  transmitted : ∀ i, ∀ p ∈ expected i, Transmitted p
  connected : ∀ call ∈ calls, call.1 < s.manager.packageBuffer.length
  bytes : ∀ i, s.manager.packageBuffer.getD i [] ++ delivered i calls = streamBytes (expected i)
  pending : ∀ i, Pending ((expected i).map (·.dataVectorForSending))
    (s.manager.packageBuffer.getD i [])

namespace Expects

variable {s s' : ManagerState} {expected : Nat → List IoTPackage} {k : Nat} {chunk : List Byte}
  {calls : List (Nat × List Byte)}

/-- After the last call nothing is expected. -/
theorem expected_eq_nil (h : Expects s expected []) (i : Nat) :
    expected i = [] ∧ s.manager.packageBuffer.getD i [] = [] := by
  have hbytes := h.bytes i
  rw [delivered, List.append_nil, streamBytes_eq_flatten] at hbytes
  obtain ⟨hnone, hempty⟩ :=
    (h.pending i).eq_nil_of_flatten (sending_ne_nil (h.transmitted i)) hbytes
  exact ⟨List.map_eq_nil_iff.mp hnone, hempty⟩

theorem buffer_eq (h : Expects s expected ((k, chunk) :: calls)) :
    s.manager.packageBuffer[k]? = some (s.manager.packageBuffer.getD k []) := by
  have hk : k < s.manager.packageBuffer.length := h.connected _ (List.mem_cons_self ..)
  rw [List.getD_eq_getElem?_getD, List.getElem?_eq_getElem hk, Option.getD_some]

theorem own_bytes (h : Expects s expected ((k, chunk) :: calls)) :
    s.manager.packageBuffer.getD k [] ++ chunk ++ delivered k calls = streamBytes (expected k) := by
  have hbytes := h.bytes k
  rwa [delivered, if_pos rfl, ← List.append_assoc] at hbytes

/-- A call finds the first of the packages its slot expects. -/
theorem step (h : Expects s expected ((k, chunk) :: calls))
    (hlt : (s.manager.packageBuffer.getD k [] ++ chunk).length < 2 ^ 31)
    (hcall : ManagerState.eventReceivedData J server k chunk s = .ok s') :
    ∃ expected', Expects s' expected' calls ∧
      ∀ i, (session i s'.log).found ++ (expected' i).map .package
        = (session i s.log).found ++ (expected i).map .package := by
  have hadv := ManagerState.eventReceivedData_advanced hcall
  have hbytes := h.own_bytes
  obtain ⟨done, rest, front, hsplit, hbuffer, hfront, hfeed⟩ :=
    feed_of_stream (h.transmitted k) ⟨_, hbytes⟩ hlt (session k s.log).found
  obtain ⟨hfound, hleft⟩ := Prod.mk.inj (Except.ok.inj (hadv.own.symm.trans hfeed))
  have hother : ∀ i, i ≠ k → Function.update expected k rest i = expected i :=
    fun i hi => Function.update_of_ne hi _ _
  have hown : Function.update expected k rest k = rest := Function.update_self ..
  -- Only the list of the client the chunk comes from gets shorter.
  refine ⟨Function.update expected k rest,
    { transmitted := fun i p hp => ?_
      connected := fun call hmem => ?_
      bytes := fun i => ?_
      pending := fun i => ?_ }, fun i => ?_⟩
  · by_cases hi : i = k
    · subst hi
      rw [hown] at hp
      exact h.transmitted i p (hsplit ▸ List.mem_append_right _ hp)
    · exact h.transmitted i p (hother i hi ▸ hp)
  · rw [hadv.buffers]
    exact h.connected call (List.mem_cons_of_mem _ hmem)
  · by_cases hi : i = k
    · subst hi
      rw [hown, hleft]
      rw [hbuffer, hsplit, streamBytes, streamBytes, List.flatMap_append,
        List.append_assoc] at hbytes
      exact List.append_cancel_left hbytes
    · rw [hother i hi, (hadv.others i hi).1, ← h.bytes i, delivered, if_neg (Ne.symm hi)]
  · by_cases hi : i = k
    · subst hi
      rw [hown, hleft]
      exact hfront
    · rw [hother i hi, (hadv.others i hi).1]
      exact h.pending i
  · by_cases hi : i = k
    · subst hi
      rw [hown, hfound, hsplit, List.map_append, List.append_assoc]
    · rw [hother i hi, (hadv.others i hi).2]

end Expects

theorem receiveAll_cons (s : ManagerState) (k : Nat) (chunk : List Byte)
    (calls : List (Nat × List Byte)) :
    receiveAll J server s ((k, chunk) :: calls)
      = ManagerState.eventReceivedData J server k chunk s
          >>= fun s => receiveAll J server s calls := by
  rw [receiveAll, List.foldlM_cons]
  rfl

/-- From any moment on, the calls find what is expected. -/
theorem receiveAll_of_expects {calls : List (Nat × List Byte)} {s : ManagerState}
    {expected : Nat → List IoTPackage} (h : Expects s expected calls)
    (hfit : BuffersFit J server s calls) :
    (∃ s', receiveAll J server s calls = .ok s' ∧
        (∀ i, (session i s'.log).found
          = (session i s.log).found ++ (expected i).map .package) ∧
        ∀ i, s'.manager.packageBuffer.getD i [] = []) ∨
      ∃ fault, receiveAll J server s calls = .error fault ∧
        DispatchRaises J server fault s calls := by
  -- The invariant is `Expects`: what the buffers hold and the calls still bring is
  -- what the clients are still to be heard of.
  induction calls generalizing s expected with
  | nil =>
      refine .inl ⟨s, rfl, fun i => ?_, fun i => (h.expected_eq_nil i).2⟩
      simp [(h.expected_eq_nil i).1]
  | cons call calls ih =>
      obtain ⟨k, chunk⟩ := call
      obtain ⟨hlt, hfit⟩ := hfit
      rw [receiveAll_cons]
      cases hcall : ManagerState.eventReceivedData J server k chunk s with
      | error fault =>
          exact .inr ⟨fault, rfl,
            raises_of_stream h.buffer_eq (h.transmitted k) ⟨_, h.own_bytes⟩ hlt hcall⟩
      | ok s₁ =>
          obtain ⟨expected', h', hfound⟩ := h.step hlt hcall
          rw [hcall] at hfit
          rw [ok_bind]
          rcases ih h' hfit with ⟨s', hs', hfinal, hempty⟩ | ⟨fault, hfault, hraises⟩
          · exact .inl ⟨s', hs', fun i => (hfinal i).trans (hfound i), hempty⟩
          · exact .inr ⟨fault, hfault, .later hcall hraises⟩

/-- **Every client's packages are found, once and in order**, however the streams
are cut and interleaved, or the dispatch of a package raises. -/
theorem receiveAll_reassembles {m : IoTManager} {streams : Nat → List IoTPackage}
    {calls : List (Nat × List Byte)} (hempty : ∀ b ∈ m.packageBuffer, b = [])
    (h : Delivers m.packageBuffer.length streams calls) (hfit : BuffersFit J server ⟨m, []⟩ calls) :
    (∃ s, receiveAll J server ⟨m, []⟩ calls = .ok s ∧
        (∀ i, (session i s.log).found = (streams i).map .package) ∧
        ∀ i, s.manager.packageBuffer.getD i [] = []) ∨
      ∃ fault, receiveAll J server ⟨m, []⟩ calls = .error fault ∧
        DispatchRaises J server fault ⟨m, []⟩ calls := by
  have hbuffer : ∀ i, m.packageBuffer.getD i [] = [] := by
    intro i
    rw [List.getD_eq_getElem?_getD]
    cases hi : m.packageBuffer[i]? with
    | none => rfl
    | some b => exact hempty b (List.mem_of_getElem? hi)
  have hexpects : Expects ⟨m, []⟩ streams calls :=
    { transmitted := h.transmitted
      connected := h.connected
      bytes := fun i => by rw [hbuffer, List.nil_append]; exact h.bytes i
      pending := fun i => by rw [hbuffer]; exact pending_nil (sending_ne_nil (h.transmitted i)) }
  exact receiveAll_of_expects hexpects hfit

/-! ### Two clients -/

theorem transmitted_ping : Transmitted ping :=
  transmitted_sent ⟨.device 1 (by decide), .device 0 (by decide), by decide⟩ (by decide +kernel)

/-- Client 0 sends one package and client 1 sends two. -/
def twoStreams : Nat → List IoTPackage
  | 0 => [ping]
  | 1 => [ping, ping]
  | _ => []

/-- The cuts fall into the version word, the header and the payload. -/
def twoClients : List (Nat × List Byte) :=
  [(0, ping.dataVectorForSending.take 3), (1, ping.dataVectorForSending.take 12),
    (0, (ping.dataVectorForSending.drop 3).take 22),
    (1, ping.dataVectorForSending.drop 12 ++ ping.dataVectorForSending),
    (0, ping.dataVectorForSending.drop 25)]

def twoSockets : TcpServer :=
  { listener := 3, clientSockets := [4, 5], master := {3, 4, 5} }

theorem delivers_twoClients :
    Delivers (ManagerState.initial 2 1000).manager.packageBuffer.length twoStreams twoClients where
  transmitted := by
    rintro (_ | _ | i) p hp
    · obtain rfl := List.mem_singleton.mp hp
      exact transmitted_ping
    · obtain rfl : p = ping := by simpa [twoStreams] using hp
      exact transmitted_ping
    · exact absurd hp List.not_mem_nil
  connected := by decide
  bytes := by
    rintro (_ | _ | i)
    · decide +kernel
    · decide +kernel
    · rfl

theorem receiveAll_reassembles_twoClients : ∃ s,
    receiveAll noJson twoSockets (.initial 2 1000) twoClients = .ok s ∧
      (∀ i, (session i s.log).found = (twoStreams i).map .package) ∧
      ∀ i, s.manager.packageBuffer.getD i [] = [] := by
  have hfit : BuffersFit noJson twoSockets ⟨(ManagerState.initial 2 1000).manager, []⟩
      twoClients := by
    decide +kernel
  rcases receiveAll_reassembles (by decide) delivers_twoClients hfit with h | ⟨fault, hfault, -⟩
  · exact h
  · have hok : (receiveAll noJson twoSockets ⟨(ManagerState.initial 2 1000).manager, []⟩
        twoClients).isOk = true := by decide +kernel
    rw [hfault] at hok
    simp [Except.isOk, Except.toBool] at hok

/-! ### A buffer that grows too long -/

/-- A call after which the decoder waits for more changes nothing but the buffer. -/
theorem eventReceivedData_of_notFound (J : Jansson) (server : TcpServer) {k : Nat}
    {old chunk : List Byte} {s : ManagerState}
    {e : GetPackageError} (hold : s.manager.packageBuffer[k]? = some old) (he : NotCompleted e)
    (hget : getCompletedPackage (old ++ chunk) = .ok (notFound e (old ++ chunk))) :
    ∃ s', ManagerState.eventReceivedData J server k chunk s = .ok s' ∧
      s'.manager.packageBuffer[k]? = some (old ++ chunk) ∧
      (session k s'.log).found = (session k s.log).found := by
  have hk := (List.getElem?_eq_some_iff.mp hold).1
  refine ⟨(s.buffered k old chunk).settled k e (old ++ chunk), ?_, ?_, ?_⟩
  · rw [ManagerState.eventReceivedData_eq hold, packageLoop_of_none hget]
    rfl
  · rcases he with rfl | rfl | rfl <;>
      simp [ManagerState.settled, ManagerState.buffered, hk]
  · rcases he with rfl | rfl | rfl <;>
      simp [ManagerState.settled, ManagerState.buffered, Session.record]

/-- The calls that deliver a package twice: all of it but one byte, and the rest. -/
def twice (package : IoTPackage) : List (Nat × List Byte) :=
  let w := package.dataVectorForSending
  [(0, w.take (w.length - 1)), (0, w.drop (w.length - 1) ++ w)]

theorem take_append_drop_append (w : List Byte) :
    [] ++ w.take (w.length - 1) ++ (w.drop (w.length - 1) ++ w) = w ++ w := by
  rw [List.nil_append, ← List.append_assoc, List.take_append_drop]

theorem delivers_twice {package : IoTPackage} (h : Transmitted package) :
    Delivers 1 (fun i => if i = 0 then [package, package] else []) (twice package) where
  transmitted := by
    intro i p hp
    split at hp
    · obtain rfl : p = package := by simpa using hp
      exact h
    · exact absurd hp List.not_mem_nil
  connected := by simp [twice]
  bytes := by
    intro i
    by_cases hi : i = 0
    · subst hi
      simpa [twice, delivered, streamBytes] using
        take_append_drop_append package.dataVectorForSending
    · simp [twice, delivered, hi, Ne.symm hi, streamBytes]

/-- Between them, two packages of 1 GiB or more are lost. -/
theorem receiveAll_twice (J : Jansson) (server : TcpServer) {package : IoTPackage}
    (h : Transmitted package)
    (hlo : 2 ^ 30 ≤ package.dataVectorForSending.length)
    (hhi : package.dataVectorForSending.length < 2 ^ 31) {s : ManagerState}
    (hs : s.manager.packageBuffer[0]? = some []) :
    ∃ s', receiveAll J server s (twice package) = .ok s' ∧
      (session 0 s'.log).found = (session 0 s.log).found := by
  rw [twice]
  have hfront := @h.getCompletedPackage_front
  have hwrapped := @h.getCompletedPackage_wrapped
  generalize package.dataVectorForSending = w at hlo hhi hfront hwrapped ⊢
  obtain ⟨e₁, he₁, hget₁⟩ := hfront (List.take_prefix (w.length - 1) w)
    (by rw [List.length_take]; omega)
  obtain ⟨s₁, hs₁, hbuffer₁, hfound₁⟩ :=
    eventReceivedData_of_notFound J server hs he₁ hget₁
  -- Now the buffer holds both packages, and shows nothing.
  have hneg : toInt (w ++ w).length < w.length := by
    simp only [toInt, wrapInt, List.length_append]
    split <;> omega
  obtain ⟨e₂, he₂, hget₂⟩ := hwrapped hneg
  rw [← take_append_drop_append] at hget₂
  obtain ⟨s₂, hs₂, -, hfound₂⟩ :=
    eventReceivedData_of_notFound J server hbuffer₁ he₂ hget₂
  refine ⟨s₂, ?_, hfound₂.trans hfound₁⟩
  rw [receiveAll_cons, hs₁, ok_bind, receiveAll_cons, hs₂, ok_bind]
  rfl

/-- There is a package with a payload of 1 GiB. -/
theorem exists_transmitted_long : ∃ package, Transmitted package ∧
    2 ^ 30 ≤ package.dataVectorForSending.length ∧
    package.dataVectorForSending.length + 1 < 2 ^ 31 := by
  obtain ⟨data, hlen, hascii⟩ : ∃ data : List Byte, data.length = 2 ^ 30 ∧
      ∀ b ∈ data, b.toNat < 0x80 := by
    refine ⟨List.replicate (2 ^ 30) 65, List.length_replicate, fun b hb => ?_⟩
    obtain rfl := List.eq_of_mem_replicate hb
    decide
  have hs : Sendable (lit "0") (lit "Master") data :=
    sendable_of_short .unassigned .manager (by omega)
  have hlength := hs.dataVectorForSending_length_eq
  have hheader := hs.sentHeader_lt
  exact ⟨_, transmitted_sent hs hascii, by omega, by omega⟩

/-- A server with one slot, which is taken. -/
def oneSocket : TcpServer := { listener := 3, clientSockets := [4], master := {3, 4} }

/-- Two packages of 1 GiB each, the second of which arrives with the last byte of
the first: the size of the buffer wraps, and neither is ever found. -/
theorem not_reassembled_of_wrapped : ∃ package calls s,
    Delivers 1 (fun i => if i = 0 then [package, package] else []) calls ∧
      (∀ call ∈ calls, call.2 ≠ [] ∧ call.2.length < 2 ^ 31) ∧
      receiveAll noJson oneSocket (.initial 1 1000) calls = .ok s ∧
      (session 0 s.log).found = [] := by
  obtain ⟨package, h, hlo, hhi⟩ := exists_transmitted_long
  obtain ⟨s, hs, hfound⟩ := receiveAll_twice noJson oneSocket h hlo (by omega)
    (s := .initial 1 1000) rfl
  refine ⟨package, twice package, s, delivers_twice h, ?_, hs, hfound⟩
  intro call hcall
  simp only [twice, List.mem_cons, List.not_mem_nil, or_false] at hcall
  rcases hcall with rfl | rfl
  all_goals
    refine ⟨List.ne_nil_of_length_pos ?_, ?_⟩
    all_goals
      simp only [List.length_append, List.length_take, List.length_drop]
      omega

end IoTRepublic
