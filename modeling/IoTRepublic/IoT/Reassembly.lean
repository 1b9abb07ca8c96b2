import IoTRepublic.IoT.ManagerSpec
import IoTRepublic.IoT.MoreInput
import IoTRepublic.IoT.SentPackage
import IoTRepublic.Network.TcpServerSound

/-!
# IoTRepublic.IoT.Reassembly

What the manager makes of the bytes of one connection.

`feed` is the receiver without the manager: a buffer, and the list of what was
found in it; how the bytes are cut into chunks does not matter to it as long as they
are good (`packageLoop_of_feedAll`). A `Session` is what the time line says about
the connection that occupies a slot: the chunks it sent and what `handlePackage`
reported. Every event keeps the two in step (`eventReceivedData_advanced`), as long
as a connection starts on an empty buffer; nothing in the program makes sure of
that, so `isolated_run` has the condition and `not_isolated_after_reuse` the run
that violates it.
-/

namespace IoTRepublic

open Cpp IoTUtility Transition

/-- What `handlePackage` finds in a buffer: a package, or an error for which it clears the
buffer. -/
inductive Outcome
  | package (package : IoTPackage)
  /-- The buffer was cleared. -/
  | corrupt (error : GetPackageError)
  deriving DecidableEq

/-! ### The receiver of one stream -/

/-- A handler that only remembers the package. -/
def remember (package : IoTPackage) (found : List Outcome) : Except Fault (List Outcome) :=
  .ok (found ++ [.package package])

/-- The receiver after one more chunk: what it has found, and its buffer. -/
def feed (receiver : List Outcome × List Byte) (chunk : List Byte) :
    Except Fault (List Outcome × List Byte) := do
  let (found, error, rest) ← packageLoop remember receiver.1 (receiver.2 ++ chunk)
  if error = .startWordError ∨ error = .checksumError then
    return (found ++ [.corrupt error], [])
  else
    return (found, rest)

/-- A receiver that starts on an empty buffer. -/
def feedAll (chunks : List (List Byte)) : Except Fault (List Outcome × List Byte) :=
  chunks.foldlM feed ([], [])

theorem feedAll_concat (chunks : List (List Byte)) (chunk : List Byte) :
    feedAll (chunks ++ [chunk]) = feedAll chunks >>= fun receiver => feed receiver chunk :=
  foldlM_concat feed _ chunks chunk

/-- What was found before is not forgotten. -/
theorem isPrefix_of_packageLoop {found found' : List Outcome} {buffer rest : List Byte}
    {e : GetPackageError} (h : packageLoop remember found buffer = .ok (found', e, rest)) :
    found <+: found' := by
  refine packageLoop_invariant (I := fun t => found <+: t) ?_ (List.prefix_refl _) h
  intro package t t' ht hstep
  obtain rfl := Except.ok.inj hstep
  exact ht.trans (List.prefix_append _ _)

/-- **How the bytes were cut does not matter** as long as none of them were bad: a
receiver that has cleared nothing has found what it finds in all of the bytes at
once. -/
theorem packageLoop_of_feedAll {chunks : List (List Byte)} {found : List Outcome}
    {rest : List Byte} (h : feedAll chunks = .ok (found, rest))
    (hclean : ∀ e, .corrupt e ∉ found) (hlt : chunks.flatten.length < 2 ^ 31) :
    ∃ e, e ≠ .startWordError ∧ packageLoop remember [] chunks.flatten = .ok (found, e, rest) := by
  induction chunks using List.reverseRecOn generalizing found rest with
  | nil =>
      obtain ⟨rfl, rfl⟩ := Prod.mk.inj (Except.ok.inj h)
      refine ⟨.lengthIsNotLongEnough, by simp, packageLoop_of_none ?_⟩
      exact getCompletedPackage_of_short (by decide)
  | append_singleton chunks chunk ih =>
      rw [feedAll_concat] at h
      obtain ⟨⟨found₁, rest₁⟩, h₁, h⟩ := bind_ok_iff.mp h
      obtain ⟨⟨found', e, rest'⟩, hloop, h⟩ := bind_ok_iff.mp h
      rw [List.flatten_concat] at hlt ⊢
      dsimp only at h
      split at h
      · -- Something was cleared.
        obtain ⟨rfl, -⟩ := Prod.mk.inj (Except.ok.inj h)
        exact absurd (by simp) (hclean e)
      · rename_i hgood
        obtain ⟨rfl, rfl⟩ := Prod.mk.inj (Except.ok.inj h)
        have hclean₁ : ∀ e, .corrupt e ∉ found₁ :=
          fun e he => hclean e ((isPrefix_of_packageLoop hloop).subset he)
        have hlt₁ : chunks.flatten.length < 2 ^ 31 := by
          rw [List.length_append] at hlt
          omega
        obtain ⟨e₁, he₁, hwhole⟩ := ih h₁ hclean₁ hlt₁
        exact ⟨e, fun he => hgood (.inl he), (packageLoop_append hwhole he₁ hlt).trans hloop⟩

/-! ### The connection in a slot -/

/-- The connection that occupies a slot: the chunks received on it and what was found in
them, since it was accepted. -/
structure Session where
  chunks : List (List Byte) := []
  found : List Outcome := []
  deriving DecidableEq

/-- One action of the time line, as seen from slot `i`. -/
def Session.record (i : Nat) (session : Session) : Action → Session
  | .newConnection socketIndex _ => if socketIndex = i then {} else session
  | .receivedData socketIndex buffer =>
    if socketIndex = i then { session with chunks := session.chunks ++ [buffer] } else session
  | .extracted socketIndex package =>
    if socketIndex = i then { session with found := session.found ++ [.package package] }
    else session
  | .parseError socketIndex error =>
    if socketIndex = i then { session with found := session.found ++ [.corrupt error] }
    else session
  | .connectionDenied _ => session
  | .scanned => session
  | .effect _ => session

/-- The latest connection in slot `i`. -/
def session (i : Nat) (log : List Action) : Session := log.foldl (Session.record i) {}

theorem session_append (i : Nat) (log log' : List Action) :
    session i (log ++ log') = log'.foldl (Session.record i) (session i log) :=
  List.foldl_append

@[simp] theorem session_concat (i : Nat) (log : List Action) (action : Action) :
    session i (log ++ [action]) = Session.record i (session i log) action :=
  session_append i log [action]

theorem foldl_record_effects (i : Nat) (session : Session) (done : List Effect) :
    (done.map Action.effect).foldl (Session.record i) session = session := by
  induction done with
  | nil => rfl
  | cons effect done ih => exact ih

namespace ManagerState

variable {J : Jansson} {server : TcpServer}

/-- Dispatching a package touches no buffer, and is found by its own slot only. -/
theorem dispatchPackage_frame {socketIndex : Nat} {package : IoTPackage} {s s' : ManagerState}
    (h : dispatchPackage J server socketIndex package s = .ok s') :
    s'.manager.packageBuffer = s.manager.packageBuffer ∧
      ∀ i, session i s'.log
        = Session.record i (session i s.log) (.extracted socketIndex package) := by
  obtain ⟨⟨manager, done⟩, hdispatch, h⟩ := bind_ok_iff.mp h
  obtain rfl := Except.ok.inj h
  refine ⟨IoTManager.dispatch_packageBuffer hdispatch, fun i => ?_⟩
  rw [session_append, List.foldl_cons, foldl_record_effects]

/-- So does the loop over the packages. -/
theorem packageLoop_frame {socketIndex : Nat} {buffer rest : List Byte} {error : GetPackageError}
    {s s' : ManagerState}
    (h : packageLoop (dispatchPackage J server socketIndex) s buffer = .ok (s', error, rest)) :
    s'.manager.packageBuffer = s.manager.packageBuffer ∧
      (session socketIndex s'.log).chunks = (session socketIndex s.log).chunks ∧
      ∀ i ≠ socketIndex, session i s'.log = session i s.log := by
  refine packageLoop_invariant (I := fun t =>
    t.manager.packageBuffer = s.manager.packageBuffer ∧
      (session socketIndex t.log).chunks = (session socketIndex s.log).chunks ∧
      ∀ i ≠ socketIndex, session i t.log = session i s.log) ?_ ⟨rfl, rfl, fun _ _ => rfl⟩ h
  intro package t t' hkept ht
  obtain ⟨hb, hc, ho⟩ := hkept
  obtain ⟨hb', hrec⟩ := dispatchPackage_frame ht
  refine ⟨hb'.trans hb, ?_, fun i hi => ?_⟩
  · rw [hrec]
    simpa [Session.record] using hc
  · rw [hrec, ← ho i hi]
    simp [Session.record, hi.symm]

/-- The packages it finds are those `remember` finds. -/
theorem packageLoop_found {socketIndex : Nat} {buffer rest : List Byte} {error : GetPackageError}
    {s s' : ManagerState}
    (h : packageLoop (dispatchPackage J server socketIndex) s buffer = .ok (s', error, rest)) :
    packageLoop remember (session socketIndex s.log).found buffer
      = .ok ((session socketIndex s'.log).found, error, rest) := by
  refine packageLoop_map (f := fun t : ManagerState => (session socketIndex t.log).found) ?_ h
  intro package t t' ht
  rw [(dispatchPackage_frame ht).2]
  simp [remember, Session.record]

/-- The chunk has been put into the buffer of its slot. -/
def buffered (socketIndex : Nat) (old chunk : List Byte) (s : ManagerState) : ManagerState :=
  { manager := { s.manager with
      packageBuffer := s.manager.packageBuffer.set socketIndex (old ++ chunk) }
    log := s.log ++ [.receivedData socketIndex chunk] }

theorem session_buffered_self (socketIndex : Nat) (old chunk : List Byte) (s : ManagerState) :
    session socketIndex (s.buffered socketIndex old chunk).log
      = { session socketIndex s.log with
          chunks := (session socketIndex s.log).chunks ++ [chunk] } := by
  simp [buffered, Session.record]

theorem session_buffered_of_ne {socketIndex i : Nat} (old chunk : List Byte) (s : ManagerState)
    (hi : i ≠ socketIndex) :
    session i (s.buffered socketIndex old chunk).log = session i s.log := by
  simp [buffered, Session.record, hi.symm]

/-- The loop of `handlePackage` has ended with `error`. -/
def settled (socketIndex : Nat) (error : GetPackageError) (rest : List Byte) (s : ManagerState) :
    ManagerState :=
  let corrupt := error = .startWordError ∨ error = .checksumError
  let packageBuffer := s.manager.packageBuffer.set socketIndex (if corrupt then [] else rest)
  { manager := { s.manager with packageBuffer := packageBuffer }
    log := if corrupt then s.log ++ [.parseError socketIndex error] else s.log }

/-- A chunk is put into its buffer, and the loop runs on the buffer. -/
theorem eventReceivedData_eq {socketIndex : Nat} {old chunk : List Byte} {s : ManagerState}
    (hold : s.manager.packageBuffer[socketIndex]? = some old) :
    eventReceivedData J server socketIndex chunk s = (do
      let (s, error, rest) ← packageLoop (dispatchPackage J server socketIndex)
        (s.buffered socketIndex old chunk) (old ++ chunk)
      return s.settled socketIndex error rest) := by
  have hlt := (List.getElem?_eq_some_iff.mp hold).1
  have hset : vectorAt (s.manager.packageBuffer.set socketIndex (old ++ chunk)) socketIndex
      = .ok (old ++ chunk) := by
    rw [vectorAt_nat_ok_iff, List.getElem?_set_self hlt]
  simp only [eventReceivedData, vectorAt_nat_ok_iff.mpr hold, ok_bind, handlePackage, hset]
  rfl

theorem settled_frame {socketIndex i : Nat} (error : GetPackageError) (rest : List Byte)
    (s : ManagerState) (hi : i ≠ socketIndex) :
    (s.settled socketIndex error rest).manager.packageBuffer[i]? = s.manager.packageBuffer[i]? ∧
      session i (s.settled socketIndex error rest).log = session i s.log := by
  constructor
  · rw [settled, List.getElem?_set_ne hi.symm]
  · simp only [settled]
    split
    · simp [Session.record, hi.symm]
    · rfl

/-- What a chunk does to the connections: its own advances by `feed`, the others
are left alone. -/
structure Advanced (socketIndex : Nat) (chunk : List Byte) (s s' : ManagerState) : Prop where
  buffers : s'.manager.packageBuffer.length = s.manager.packageBuffer.length
  own : feed ((session socketIndex s.log).found, s.manager.packageBuffer.getD socketIndex []) chunk
    = .ok ((session socketIndex s'.log).found, s'.manager.packageBuffer.getD socketIndex [])
  chunks : (session socketIndex s'.log).chunks = (session socketIndex s.log).chunks ++ [chunk]
  others : ∀ i ≠ socketIndex,
    s'.manager.packageBuffer.getD i [] = s.manager.packageBuffer.getD i [] ∧
      session i s'.log = session i s.log

theorem eventReceivedData_advanced {socketIndex : Nat} {chunk : List Byte} {s s' : ManagerState}
    (h : eventReceivedData J server socketIndex chunk s = .ok s') :
    Advanced socketIndex chunk s s' := by
  have hold : ∃ old, s.manager.packageBuffer[socketIndex]? = some old := by
    obtain ⟨old, hold, -⟩ := bind_ok_iff.mp h
    exact ⟨old, vectorAt_nat_ok_iff.mp hold⟩
  obtain ⟨old, hold⟩ := hold
  have hlt := (List.getElem?_eq_some_iff.mp hold).1
  rw [eventReceivedData_eq hold] at h
  obtain ⟨⟨s₁, error, rest⟩, hloop, h⟩ := bind_ok_iff.mp h
  obtain rfl := Except.ok.inj h
  obtain ⟨hbuffer, hchunks, hother⟩ := packageLoop_frame hloop
  have hfound := packageLoop_found hloop
  rw [session_buffered_self] at hfound hchunks
  dsimp only at hfound hchunks
  have hlen : socketIndex < s₁.manager.packageBuffer.length := by
    rw [hbuffer]
    simpa [buffered] using hlt
  refine
    { buffers := ?_
      own := ?_
      chunks := ?_
      others := ?_ }
  · simp [settled, hbuffer, buffered]
  · simp only [feed, List.getD_eq_getElem?_getD, hold, Option.getD_some]
    rw [hfound, ok_bind]
    dsimp only [settled]
    rw [List.getElem?_set_self hlen]
    split <;> simp [Session.record]
  · rw [← hchunks]
    simp only [settled]
    split <;> simp [Session.record]
  · intro i hi
    obtain ⟨hb, hs⟩ := settled_frame error rest s₁ hi
    rw [hs, hother i hi, session_buffered_of_ne old chunk s hi, List.getD_eq_getElem?_getD, hb,
      hbuffer, List.getD_eq_getElem?_getD, buffered, List.getElem?_set_ne hi.symm]
    exact ⟨rfl, rfl⟩

end ManagerState

/-! ### Successive connections in a slot -/

/-- What was found for the connection in a slot is what its own chunks, and nothing
else, make an empty receiver find. -/
def Isolated (s : ManagerState) : Prop :=
  ∀ i, ∃ rest, feedAll (session i s.log).chunks = .ok ((session i s.log).found, rest)

/-- A connection the event accepts is stored in a slot whose buffer is empty. -/
def FreshSlot (s : ServerState ManagerState) : ServerEvent → Prop
  | .accepted _ => ∀ i, s.server.nextSlot = some i → s.sub.manager.packageBuffer.getD i [] = []
  | .received _ _ => True
  | .disconnected _ => True

instance (s : ServerState ManagerState) (e : ServerEvent) : Decidable (FreshSlot s e) :=
  match e with
  | .accepted _ => inferInstanceAs (Decidable (∀ i ∈ s.server.nextSlot, _ = _))
  | .received _ _ => inferInstanceAs (Decidable True)
  | .disconnected _ => inferInstanceAs (Decidable True)

/-- `Isolated`, with the buffer the receiver is left with. -/
def InStep (s : ManagerState) : Prop :=
  ∀ i, feedAll (session i s.log).chunks
    = .ok ((session i s.log).found, s.manager.packageBuffer.getD i [])

section Runs

variable {J : Jansson}

theorem inStep_initial (maxClient : Nat) (actionFrequency : Int) :
    InStep (ManagerState.initial maxClient actionFrequency) := by
  intro i
  rw [List.getD_eq_getElem?_getD, ManagerState.initial, List.getElem?_replicate]
  split <;> rfl

theorem inStep_newConnection {server : TcpServer} {socketIndex : Nat} {s s' : ManagerState}
    (hs : InStep s) (hfresh : s.manager.packageBuffer.getD socketIndex [] = [])
    (h : s.eventNewConnection server socketIndex = .ok s') : InStep s' := by
  obtain ⟨socket, -, h⟩ := bind_ok_iff.mp h
  obtain rfl := Except.ok.inj h
  intro i
  rw [session_concat]
  by_cases hi : socketIndex = i
  · subst hi
    simp only [Session.record, if_true, hfresh]
    rfl
  · simpa [Session.record, hi] using hs i

theorem inStep_receivedData {server : TcpServer} {socketIndex : Nat} {chunk : List Byte}
    {s s' : ManagerState} (hs : InStep s)
    (h : ManagerState.eventReceivedData J server socketIndex chunk s = .ok s') : InStep s' := by
  have hadv := ManagerState.eventReceivedData_advanced h
  intro i
  by_cases hi : i = socketIndex
  · subst hi
    rw [hadv.chunks, feedAll_concat, hs i, ok_bind]
    exact hadv.own
  · obtain ⟨hbuffer, hsession⟩ := hadv.others i hi
    rw [hbuffer, hsession]
    exact hs i

theorem inStep_connectionDenied {socketIndex : Nat} {s s' : ManagerState} (hs : InStep s)
    (h : s.eventConnectionDenied socketIndex = .ok s') : InStep s' := by
  obtain ⟨rules, -, rfl⟩ := ManagerState.eventConnectionDenied_cases h
  intro i
  rw [session_concat]
  exact hs i

theorem inStep_step {s s' : ServerState ManagerState} {e : ServerEvent} (hs : InStep s.sub)
    (h : e.Step (ManagerState.events J) s s') (hfresh : FreshSlot s e) : InStep s'.sub := by
  cases e with
  | accepted newSocket =>
      rcases acceptConnection_cases h.2 with ⟨-, rfl⟩ | ⟨i, sub, hnext, hsub, rfl⟩
      · exact hs
      · exact inStep_newConnection hs (hfresh i hnext) hsub
  | received socketIndex buffer =>
      obtain ⟨sub, hsub, rfl⟩ := receiveData_cases h.2
      exact inStep_receivedData hs hsub
  | disconnected socketIndex =>
      obtain ⟨fd, sub, -, hsub, rfl⟩ := cutConnection_cases h.2
      exact inStep_connectionDenied hs hsub

/-- **Isolation of the connections of a slot**, in every run in which each
connection is stored in a slot with an empty buffer. -/
theorem isolated_run {fdSet : FdSet} {listener : Int} {maxClient : Nat} {opened : Finset Int}
    {actionFrequency : Int} {es : List ServerEvent} {s : ServerState ManagerState}
    (h : Run (fun s e s' => e.Step (ManagerState.events J) s s' ∧ FreshSlot s e)
      (.start fdSet listener maxClient opened (.initial maxClient actionFrequency)) es s) :
    Isolated s.sub := by
  have hs : InStep s.sub := h.invariant (I := fun s => InStep s.sub)
    (inStep_initial maxClient actionFrequency)
    (fun _ _ _ hs hstep => inStep_step hs hstep.1 hstep.2)
  exact fun i => ⟨_, hs i⟩

end Runs

/-! ### A slot used twice -/

/-- A package from one device to another. -/
def ping : IoTPackage := sent (lit "DEV.1") (lit "DEV.0") (lit "ping")

/-- The first connection breaks off after `front`, the second sends a package. -/
def reuse (front : List Byte) : List ServerEvent :=
  [.accepted 4, .received 0 front, .disconnected 0, .accepted 4,
    .received 0 ping.dataVectorForSending]

/-- A manager with one slot, whose listener has descriptor 3. -/
def oneSlot : ServerState ManagerState := .start (.bits 1024) 3 1 {0, 1, 2} (.initial 1 1000)

/-- No package of these runs is for the manager, so no text is parsed. -/
def noJson : Jansson := ⟨fun _ => none, fun _ => none, fun _ => true⟩

theorem isolated_run_reuse : ∃ s : ServerState ManagerState,
    (session 0 s.sub.log).found = [.package ping] ∧ Isolated s.sub := by
  obtain ⟨s, hs, hfound⟩ := Option.map_eq_some_iff.mp
    (show (execute (fun s e => e.Possible s ∧ FreshSlot s e)
        (fun s e => e.step (ManagerState.events noJson) s) oneSlot
        (reuse ping.dataVectorForSending)).map (fun s => (session 0 s.sub.log).found)
      = some [.package ping] by decide +kernel)
  have hrun := (run_of_execute hs).mono fun _ _ _ h => And.intro (And.intro h.1.1 h.2) h.1.2
  exact ⟨s, hfound, isolated_run hrun⟩

/-- The first connection leaves one byte behind, and the package of the second is
lost. -/
theorem not_isolated_after_reuse : ∃ s : ServerState ManagerState,
    Run (fun s e s' => e.Step (ManagerState.events noJson) s s') oneSlot (reuse (lit "I")) s ∧
      feedAll (session 0 s.sub.log).chunks = .ok ([.package ping], []) ∧
      (session 0 s.sub.log).found = [.corrupt .startWordError] ∧ ¬ Isolated s.sub := by
  obtain ⟨s, hs, hsession⟩ := Option.map_eq_some_iff.mp
    (show (execute ServerEvent.Possible
        (fun s e => e.step (ManagerState.events noJson) s) oneSlot (reuse (lit "I"))).map
          (fun s => session 0 s.sub.log)
      = some ⟨[ping.dataVectorForSending], [.corrupt .startWordError]⟩ by decide +kernel)
  have hfeed : feedAll [ping.dataVectorForSending] = .ok ([.package ping], []) := by decide +kernel
  refine ⟨s, run_of_execute hs, by rw [hsession]; exact hfeed, by rw [hsession], ?_⟩
  intro hisolated
  obtain ⟨rest, hrest⟩ := hisolated 0
  rw [hsession, hfeed] at hrest
  simp at hrest

end IoTRepublic
