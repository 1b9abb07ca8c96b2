import IoTRepublic.Broker.CloudBridgeRelay
import IoTRepublic.IoT.StreamSound

/-!
# IoTRepublic.Broker.CloudBridgeRelaySound

What the bridge passes on when it reconnects.

To the manager it passes on the packages of the cloud in their order, however they
arrive. It drops one only while it has no connection, and `discon` is the only one it
keeps for itself (`relayed_run`). Whole rounds of `cloudLoop` are runs of its steps
(`run_of_packageLoop`). To the cloud it passes on every chunk of the manager
once if the old thread is not ended, but not always in order; if it is ended, a chunk may
get lost, and the rest stays in order (`forwarded_run`, `inOrder_iff`).

The two directions share the threads and little else, and are proved apart. Towards the
manager the invariant has the connection (`SocketKnown`: whether it is live can be read
off the time line) and the stream (`StreamKnown`: what is dealt with, and what is in the
buffer). Towards the cloud it has the chunks: what was received is what has been sent
together with what some thread still holds, as a permutation where the old thread lives,
and as a subsequence where it is ended with what it held.

`Thread_kill` is a no-op on one platform and ends the thread on the other, and both are
covered by a parameter (`kills`). An old thread that lives may send the chunk it holds
after a later one; one that is ended loses it. `inOrder_iff` has that this decides the
order of the stream to the cloud: it is kept in all runs exactly where the old thread is
ended.
-/

namespace IoTRepublic

open Cpp IoTUtility Transition Framing

namespace CloudBridge

/-! ### To the manager -/

/-- The package an action deals with: one that was sent to the manager, dropped, or obeyed
as a `discon`. -/
def RelayAction.package? : RelayAction → Option IoTPackage
  | relayed package => some package
  | dropped package => some package
  | restarted package => some package
  | _ => none

/-- The packages `cloudLoop` has dealt with so far, whichever way, in the order of the
time line. -/
def handled (log : List RelayAction) : List IoTPackage := log.filterMap (·.package?)

/-- The connection is left as it is. -/
def RelayAction.KeepsSocket : RelayAction → Prop
  | relayed _ => True
  | dropped _ => True
  | _ => False

/-- `socketToManager` has been connected, and no other client and no `discon` has come
since. -/
def Live (past : List RelayAction) : Prop :=
  ∃ before after, past = before ++ .connected :: after ∧ ∀ a ∈ after, a.KeepsSocket

/-- Packages are sent on a live connection, and dropped only without one. -/
def RelaysRightly (past : List RelayAction) : RelayAction → Prop
  | .relayed package => Live past ∧ package.dataVector ≠ lit "discon"
  | .dropped package => ¬ Live past ∧ package.dataVector ≠ lit "discon"
  | .restarted package => package.dataVector = lit "discon"
  | _ => True

theorem handled_concat (log : List RelayAction) (a : RelayAction) :
    handled (log ++ [a]) = handled log ++ a.package?.toList := by
  rw [handled, List.filterMap_append, handled]
  cases a <;> rfl

theorem not_live_nil : ¬ Live [] := by
  rintro ⟨before, after, h, -⟩
  simp at h

theorem live_concat_iff {log : List RelayAction} {a : RelayAction} :
    Live (log ++ [a]) ↔ a = .connected ∨ a.KeepsSocket ∧ Live log := by
  constructor
  · rintro ⟨before, after, h, hafter⟩
    rcases List.eq_nil_or_concat after with rfl | ⟨after, b, rfl⟩
    · exact .inl (List.append_inj_right' h rfl |> List.singleton_inj.mp)
    · have h' : log ++ [a] = (before ++ .connected :: after) ++ [b] := by simpa using h
      obtain ⟨rfl, hab⟩ := List.append_inj' h' rfl
      obtain rfl := List.singleton_inj.mp hab
      exact .inr ⟨hafter a (by simp), before, after, rfl, fun b hb => hafter b (by simp [hb])⟩
  · rintro (rfl | ⟨ha, before, after, rfl, hafter⟩)
    · exact ⟨log, [], rfl, by simp⟩
    · refine ⟨before, after ++ [a], by simp, fun b hb => ?_⟩
      rcases List.mem_append.mp hb with hb | hb
      · exact hafter b hb
      · exact List.mem_singleton.mp hb ▸ ha

end CloudBridge

open CloudBridge

/-- What an event receives from the cloud. -/
def RelayEvent.fromCloud : RelayEvent → List Byte
  | cloudReceived chunk => chunk
  | _ => []

/-- The bytes that have come from the cloud. -/
def bytesFromCloud (es : List RelayEvent) : List Byte := es.flatMap (·.fromCloud)

/-- The buffer is not longer than an `int` can tell. -/
def CloudBridge.Relay.Fits (s : Relay) : Prop := s.packageBuffer.length < 2 ^ 31

instance CloudBridge.Relay.decidableFits (s : Relay) : Decidable s.Fits :=
  inferInstanceAs (Decidable (_ < _))

namespace CloudBridge

/-- What is known of the connection: whether it is live or unset can be read off the time
line, and every action so far was right for it. -/
structure SocketKnown (s : Relay) : Prop where
  live : s.socketToManager = some .connected ↔ Live s.log
  unset : s.socketToManager = none ↔ .opened ∉ s.log
  rightly : AtEach RelaysRightly s.log

/-- What is known of the stream from the cloud. -/
structure StreamKnown (packages : List IoTPackage) (bytes : List Byte) (s : Relay) : Prop where
  bytes : bytes = streamBytes (handled s.log) ++ s.packageBuffer
  rest : ∃ rest, packages = handled s.log ++ rest ∧
    (s.parsing = false → Pending (rest.map (·.dataVectorForSending)) s.packageBuffer)

section Steps

variable {kills : Bool} {s s' : Relay} {packages : List IoTPackage} {bytes : List Byte}

/-- What a round of `cloudLoop` does: it waits for more bytes, reconnects on a `discon`,
or passes a package on or drops it. These are all the cases of the loop where nothing
faults. -/
inductive CloudRound (kills : Bool) (s s' : Relay) : Prop
  | waited {e : GetPackageError} {rest : List Byte}
      (hget : getCompletedPackage s.packageBuffer = .ok ⟨none, e, rest⟩)
      (hs' : s' = { s with packageBuffer := rest, parsing := false })
  | restarted {package : IoTPackage} {e : GetPackageError} {rest : List Byte}
      (hget : getCompletedPackage s.packageBuffer = .ok ⟨some package, e, rest⟩)
      (hdata : package.dataVector = lit "discon")
      (hsocket : s.socketToManager ≠ none)
      (hs' : s' = { s with
        packageBuffer := rest
        socketToManager := some .disconnected
        managerThreads := threadKill kills s.managerThreads ++ [.created]
        log := s.log ++ [.restarted package] })
  | relayed {package : IoTPackage} {e : GetPackageError} {rest : List Byte}
      (hget : getCompletedPackage s.packageBuffer = .ok ⟨some package, e, rest⟩)
      (hdata : package.dataVector ≠ lit "discon")
      (hsocket : s.socketToManager = some .connected)
      (hs' : s' = { s with packageBuffer := rest, log := s.log ++ [.relayed package] })
  | dropped {package : IoTPackage} {e : GetPackageError} {rest : List Byte}
      (hget : getCompletedPackage s.packageBuffer = .ok ⟨some package, e, rest⟩)
      (hdata : package.dataVector ≠ lit "discon")
      (hsocket : s.socketToManager ≠ none ∧ s.socketToManager ≠ some .connected)
      (hs' : s' = { s with packageBuffer := rest, log := s.log ++ [.dropped package] })

section Calls

variable {package : IoTPackage}

theorem relayPackage_of_discon (hdata : package.dataVector = lit "discon")
    (hsocket : s.socketToManager ≠ none) :
    relayPackage kills package s = .ok { s with
      socketToManager := some .disconnected
      managerThreads := threadKill kills s.managerThreads ++ [.created]
      log := s.log ++ [.restarted package] } := by
  obtain ⟨socket, hsocket⟩ := Option.ne_none_iff_exists'.mp hsocket
  rw [relayPackage, reconnectToManager, if_pos (by rw [hdata]; rfl), if_pos hdata, hsocket]
  rfl

theorem relayPackage_of_ne (hdata : package.dataVector ≠ lit "discon") :
    relayPackage kills package s = sendToManager package s := by
  rw [relayPackage, reconnectToManager, if_neg hdata, ite_self]
  rfl

theorem sendToManager_of_connected (hsocket : s.socketToManager = some .connected) :
    sendToManager package s = .ok { s with log := s.log ++ [.relayed package] } := by
  rw [sendToManager, hsocket]
  rfl

theorem sendToManager_of_ne (hsocket : s.socketToManager ≠ none)
    (hne : s.socketToManager ≠ some .connected) :
    sendToManager package s = .ok { s with log := s.log ++ [.dropped package] } := by
  obtain ⟨socket, hsocket⟩ := Option.ne_none_iff_exists'.mp hsocket
  rw [hsocket, ne_eq, Option.some.injEq] at hne
  simp only [sendToManager, hsocket, if_neg hne]

/-- Without a client both calls go through an unset pointer. -/
theorem relayPackage_of_unset (hsocket : s.socketToManager = none) :
    relayPackage kills package s = .error .undefinedBehaviour := by
  by_cases hdata : package.dataVector = lit "discon"
  · rw [relayPackage, reconnectToManager, if_pos (by rw [hdata]; rfl), if_pos hdata, hsocket]
    rfl
  · rw [relayPackage_of_ne hdata, sendToManager, hsocket]

/-- Where `cloudLoop` is plays no part in it. -/
theorem relayPackage_frame (kills : Bool) (package : IoTPackage) (s : Relay) (buffer : List Byte)
    (parsing : Bool) :
    relayPackage kills package { s with packageBuffer := buffer, parsing := parsing }
      = (fun s => { s with packageBuffer := buffer, parsing := parsing }) <$>
        relayPackage kills package s := by
  by_cases hsocket : s.socketToManager = none
  · rw [relayPackage_of_unset hsocket]
    exact relayPackage_of_unset hsocket
  by_cases hdata : package.dataVector = lit "discon"
  · rw [relayPackage_of_discon hdata hsocket]
    exact relayPackage_of_discon hdata hsocket
  rw [relayPackage_of_ne hdata, relayPackage_of_ne hdata]
  by_cases hconnected : s.socketToManager = some .connected
  · rw [sendToManager_of_connected hconnected]
    exact sendToManager_of_connected hconnected
  · rw [sendToManager_of_ne hsocket hconnected]
    exact sendToManager_of_ne hsocket hconnected

end Calls

theorem cloudRound_cases (h : cloudRound kills s = .ok s') : CloudRound kills s s' := by
  obtain ⟨⟨package, e, rest⟩, hget, h⟩ := bind_ok_iff.mp h
  cases package with
  | none => exact .waited hget (Except.ok.inj h).symm
  | some package =>
      dsimp only at h
      rw [relayPackage_frame kills package s rest s.parsing] at h
      by_cases hsocket : s.socketToManager = none
      · rw [relayPackage_of_unset hsocket] at h
        cases h
      by_cases hdata : package.dataVector = lit "discon"
      · rw [relayPackage_of_discon hdata hsocket] at h
        exact .restarted hget hdata hsocket (Except.ok.inj h).symm
      rw [relayPackage_of_ne hdata] at h
      by_cases hconnected : s.socketToManager = some .connected
      · rw [sendToManager_of_connected hconnected] at h
        exact .relayed hget hdata hconnected (Except.ok.inj h).symm
      · rw [sendToManager_of_ne hsocket hconnected] at h
        exact .dropped hget hdata ⟨hsocket, hconnected⟩ (Except.ok.inj h).symm

/-- A round cannot fail once there is a client. -/
theorem returns_cloudRound (hsocket : s.socketToManager ≠ none)
    (hget : Returns (getCompletedPackage s.packageBuffer)) : Returns (cloudRound kills s) := by
  obtain ⟨⟨package, e, rest⟩, hget⟩ := hget
  rw [cloudRound, hget, ok_bind]
  cases package with
  | none => exact ⟨_, rfl⟩
  | some package =>
      dsimp only
      rw [relayPackage_frame kills package s rest s.parsing]
      by_cases hdata : package.dataVector = lit "discon"
      · rw [relayPackage_of_discon hdata hsocket]
        exact ⟨_, rfl⟩
      rw [relayPackage_of_ne hdata]
      by_cases hconnected : s.socketToManager = some .connected
      · rw [sendToManager_of_connected hconnected]
        exact ⟨_, rfl⟩
      · rw [sendToManager_of_ne hsocket hconnected]
        exact ⟨_, rfl⟩

/-- The loop over the packages is some rounds with nothing between them. -/
theorem run_of_packageLoop {buffer rest : List Byte} {error : GetPackageError}
    (h : packageLoop (relayPackage kills) s buffer = .ok (s', error, rest)) :
    ∃ n, Run (fun s e s' => RelayEvent.Possible s e ∧ e.step kills s = .ok s')
      { s with packageBuffer := buffer, parsing := true } (List.replicate n .cloudRound)
      { s' with packageBuffer := rest, parsing := false } := by
  refine packageLoop_rec (motive := fun s buffer => ∃ n,
    Run (fun s e s' => RelayEvent.Possible s e ∧ e.step kills s = .ok s')
      { s with packageBuffer := buffer, parsing := true } (List.replicate n .cloudRound)
      { s' with packageBuffer := rest, parsing := false }) ?_ ?_ h
  · intro buffer hget
    refine ⟨1, .snoc .nil ⟨rfl, ?_⟩⟩
    show cloudRound kills _ = _
    rw [cloudRound, hget]
    rfl
  · rintro s s₁ buffer package e left hget hs₁ ⟨n, hrun⟩
    refine ⟨1 + n, ?_⟩
    rw [List.replicate_add]
    refine Run.trans (.snoc .nil ⟨rfl, ?_⟩) hrun
    show cloudRound kills _ = _
    rw [cloudRound, hget]
    have hframe := relayPackage_frame kills package s left true
    rw [hs₁] at hframe
    exact hframe

/-! ### What a step keeps -/

theorem SocketKnown.of_same (h : SocketKnown s) (hsocket : s'.socketToManager = s.socketToManager)
    (hlog : s'.log = s.log) : SocketKnown s' :=
  ⟨by rw [hsocket, hlog, h.live], by rw [hsocket, hlog, h.unset], hlog ▸ h.rightly⟩

theorem SocketKnown.log_concat (h : SocketKnown s) {a : RelayAction}
    (hsocket : s'.socketToManager = s.socketToManager) (hlog : s'.log = s.log ++ [a])
    (hkeeps : a.KeepsSocket) (hrightly : RelaysRightly s.log a) : SocketKnown s' where
  live := by
    rw [hsocket, hlog, live_concat_iff, h.live]
    constructor
    · exact fun hlive => .inr ⟨hkeeps, hlive⟩
    · rintro (rfl | ⟨-, hlive⟩)
      · exact hkeeps.elim
      · exact hlive
  unset := by
    have hopened : RelayAction.opened ≠ a := by
      rintro rfl
      exact hkeeps
    rw [hsocket, hlog, h.unset, List.mem_append, List.mem_singleton]
    simp [hopened]
  rightly := hlog ▸ atEach_concat_iff.mpr ⟨h.rightly, hrightly⟩

/-- An action that changes `socketToManager`. The value it leaves agrees with what the
time line says once the action is on it. -/
theorem SocketKnown.log_change (h : SocketKnown s) {a : RelayAction} {socket : ManagerSocket}
    (hsocket : s'.socketToManager = some socket) (hlog : s'.log = s.log ++ [a])
    (hkeeps : ¬ a.KeepsSocket) (hrightly : RelaysRightly s.log a)
    (hconnected : socket = .connected ↔ a = .connected)
    (hopened : a = .opened ∨ s.socketToManager ≠ none) : SocketKnown s' where
  live := by
    rw [hsocket, hlog, live_concat_iff, Option.some.injEq, hconnected]
    simp [hkeeps]
  unset := by
    rw [hsocket, hlog, List.mem_append, List.mem_singleton]
    have hset : RelayAction.opened ∈ s.log ∨ RelayAction.opened = a := by
      rcases hopened with rfl | hne
      · exact .inr rfl
      · exact .inl (not_not.mp fun hnot => hne (h.unset.mpr hnot))
    simp [hset]
  rightly := hlog ▸ atEach_concat_iff.mpr ⟨h.rightly, hrightly⟩

/-- What a step does to the connection and to the stream. -/
inductive CloudSide (kills : Bool) (s s' : Relay) (e : RelayEvent) : Prop
  | quiet (hfrom : e.fromCloud = []) (hsocket : s'.socketToManager = s.socketToManager)
      (hlog : s'.log = s.log) (hbuffer : s'.packageBuffer = s.packageBuffer)
      (hparsing : s'.parsing = s.parsing)
  | opened (hfrom : e.fromCloud = []) (hsocket : s'.socketToManager = some .made)
      (hlog : s'.log = s.log ++ [.opened]) (hbuffer : s'.packageBuffer = s.packageBuffer)
      (hparsing : s'.parsing = s.parsing)
  | connected (hfrom : e.fromCloud = []) (hmade : s.socketToManager = some .made)
      (hsocket : s'.socketToManager = some .connected) (hlog : s'.log = s.log ++ [.connected])
      (hbuffer : s'.packageBuffer = s.packageBuffer) (hparsing : s'.parsing = s.parsing)
  | arrived (chunk : List Byte) (hfrom : e.fromCloud = chunk)
      (hsocket : s'.socketToManager = s.socketToManager) (hlog : s'.log = s.log)
      (hbuffer : s'.packageBuffer = s.packageBuffer ++ chunk) (hparsing : s'.parsing = true)
  | round (hfrom : e.fromCloud = []) (hparsing : s.parsing = true)
      (hround : cloudRound kills s = .ok s')

theorem cloudSide_of_step {e : RelayEvent} (hposs : e.Possible s)
    (hstep : e.step kills s = .ok s') : CloudSide kills s s' e := by
  cases e with
  | opened k =>
      obtain rfl := Except.ok.inj hstep
      exact .opened rfl rfl rfl rfl rfl
  | connected k success =>
      cases success with
      | true =>
          obtain rfl := Except.ok.inj hstep
          exact .connected rfl (hposs.2 rfl) rfl rfl rfl rfl
      | false =>
          obtain rfl := Except.ok.inj hstep
          exact .quiet rfl rfl rfl rfl rfl
  | received k chunk =>
      obtain rfl := Except.ok.inj hstep
      exact .quiet rfl rfl rfl rfl rfl
  | forwarded k =>
      simp only [RelayEvent.step] at hstep
      split at hstep
      · obtain rfl := Except.ok.inj hstep
        exact .quiet rfl rfl rfl rfl rfl
      · obtain rfl := Except.ok.inj hstep
        exact .quiet rfl rfl rfl rfl rfl
  | keptAlive =>
      obtain rfl := Except.ok.inj hstep
      exact .quiet rfl rfl rfl rfl rfl
  | cloudReceived chunk =>
      simp only [RelayEvent.step] at hstep
      split at hstep
      · obtain rfl := Except.ok.inj hstep
        exact .arrived chunk rfl rfl rfl rfl rfl
      · rename_i hempty
        obtain rfl := Except.ok.inj hstep
        obtain rfl : chunk = [] := List.eq_nil_of_length_eq_zero (by omega)
        exact .quiet rfl rfl rfl rfl rfl
  | cloudRound => exact .round rfl hposs hstep

theorem SocketKnown.step {e : RelayEvent} (h : SocketKnown s) (hstep : CloudSide kills s s' e) :
    SocketKnown s' := by
  cases hstep with
  | quiet _ hsocket hlog _ _ => exact h.of_same hsocket hlog
  | arrived _ _ hsocket hlog _ _ => exact h.of_same hsocket hlog
  | opened _ hsocket hlog _ _ =>
      exact h.log_change hsocket hlog (by simp [RelayAction.KeepsSocket]) trivial (by simp)
        (.inl rfl)
  | connected _ hmade hsocket hlog _ _ =>
      exact h.log_change hsocket hlog (by simp [RelayAction.KeepsSocket]) trivial (by simp)
        (.inr (by simp [hmade]))
  | round _ _ hround =>
      cases cloudRound_cases hround with
      | waited hget hs' =>
          subst hs'
          exact h.of_same rfl rfl
      | restarted hget hdata hsocket hs' =>
          subst hs'
          exact h.log_change rfl rfl (by simp [RelayAction.KeepsSocket]) hdata (by simp)
            (.inr hsocket)
      | relayed hget hdata hsocket hs' =>
          subst hs'
          exact h.log_concat rfl rfl trivial ⟨h.live.mp hsocket, hdata⟩
      | dropped hget hdata hsocket hs' =>
          subst hs'
          exact h.log_concat rfl rfl trivial ⟨fun hlive => hsocket.2 (h.live.mpr hlive), hdata⟩

/-! ### The stream from the cloud -/

theorem StreamKnown.of_same (h : StreamKnown packages bytes s)
    (hlog : handled s'.log = handled s.log) (hbuffer : s'.packageBuffer = s.packageBuffer)
    (hparsing : s'.parsing = s.parsing) : StreamKnown packages bytes s' where
  bytes := by rw [hlog, hbuffer, h.bytes]
  rest := by
    rw [hlog, hbuffer, hparsing]
    exact h.rest

/-- A round waits, or deals with a package. -/
theorem CloudRound.waited_or_handled (h : CloudRound kills s s') :
    (∃ e rest, getCompletedPackage s.packageBuffer = .ok ⟨none, e, rest⟩ ∧
      s' = { s with packageBuffer := rest, parsing := false }) ∨
    ∃ package e a, getCompletedPackage s.packageBuffer = .ok ⟨some package, e, s'.packageBuffer⟩ ∧
      a.package? = some package ∧ s'.log = s.log ++ [a] ∧ s'.parsing = s.parsing := by
  cases h with
  | waited hget hs' => exact .inl ⟨_, _, hget, hs'⟩
  | restarted hget _ _ hs' =>
      subst hs'
      exact .inr ⟨_, _, .restarted _, hget, rfl, rfl, rfl⟩
  | relayed hget _ _ hs' =>
      subst hs'
      exact .inr ⟨_, _, .relayed _, hget, rfl, rfl, rfl⟩
  | dropped hget _ _ hs' =>
      subst hs'
      exact .inr ⟨_, _, .dropped _, hget, rfl, rfl, rfl⟩

/-- What `GetCompletedPackage` finds in the buffer: nothing yet, and the buffer is the
front of the next package, or the next package of the stream. -/
theorem StreamKnown.extraction (hpackages : ∀ p ∈ packages, Transmitted p)
    (hstarts : bytes <+: streamBytes packages) (hfits : s.Fits)
    (h : StreamKnown packages bytes s) :
    ∃ rest, packages = handled s.log ++ rest ∧
      ((∃ e, getCompletedPackage s.packageBuffer = .ok (notFound e s.packageBuffer) ∧
          Pending (rest.map (·.dataVectorForSending)) s.packageBuffer) ∨
        ∃ p left later, rest = p :: later ∧
          s.packageBuffer = p.dataVectorForSending ++ left ∧
          getCompletedPackage s.packageBuffer = .ok ⟨some p, .noError, left⟩) := by
  obtain ⟨rest, hrest, -⟩ := h.rest
  refine ⟨rest, hrest, ?_⟩
  have hfront : s.packageBuffer <+: streamBytes rest := by
    simp only [hrest, streamBytes, List.flatMap_append, h.bytes] at hstarts ⊢
    exact (List.prefix_append_right_inj _).mp hstarts
  have hall : ∀ p ∈ rest, Transmitted p := fun p hp =>
    hpackages p (hrest ▸ List.mem_append_right _ hp)
  obtain ⟨done, left, front, e, rfl, hbuffer, hpending, -, hget⟩ := front_of_stream hall hfront
  cases done with
  | nil =>
      obtain rfl : s.packageBuffer = front := hbuffer
      exact .inl ⟨e, hget, hpending⟩
  | cons p done =>
      rw [streamBytes_cons_append] at hbuffer
      refine .inr ⟨p, streamBytes done ++ front, done ++ left, rfl, hbuffer, ?_⟩
      rw [hbuffer]
      exact (hall p (by simp)).getCompletedPackage_eq (hbuffer ▸ hfits)

theorem streamKnown_cloudRound (hpackages : ∀ p ∈ packages, Transmitted p)
    (hstarts : bytes <+: streamBytes packages) (hfits : s.Fits) (hparsing : s.parsing = true)
    (h : StreamKnown packages bytes s) (hstep : cloudRound kills s = .ok s') :
    StreamKnown packages bytes s' := by
  obtain ⟨rest, hrest, hextract⟩ := h.extraction hpackages hstarts hfits
  have hround := (cloudRound_cases hstep).waited_or_handled
  rcases hextract with ⟨e, hget, hpending⟩ | ⟨p, left, later, rfl, hbuffer, hget⟩
  · rcases hround with ⟨e', left, hget', rfl⟩ | ⟨package, e', a, hget', -⟩
    · obtain ⟨-, -, rfl⟩ := Extraction.mk.inj (Except.ok.inj (hget.symm.trans hget'))
      exact ⟨h.bytes, rest, hrest, fun _ => hpending⟩
    · simp [hget, notFound] at hget'
  · rcases hround with ⟨e', left', hget', -⟩ | ⟨package, e', a, hget', ha, hlog, hkept⟩
    · simp [hget] at hget'
    · obtain ⟨hpackage, -, hleft⟩ := Extraction.mk.inj (Except.ok.inj (hget.symm.trans hget'))
      obtain rfl := Option.some.inj hpackage
      have hhandled : handled s'.log = handled s.log ++ [p] := by
        rw [hlog, handled_concat, ha]
        rfl
      refine ⟨?_, later, by simp [hhandled, hrest], fun hstopped => ?_⟩
      · rw [hhandled, ← hleft, h.bytes, hbuffer]
        simp [streamBytes]
      · rw [hkept, hparsing] at hstopped
        cases hstopped

theorem StreamKnown.step (hpackages : ∀ p ∈ packages, Transmitted p) {e : RelayEvent}
    (hstarts : bytes ++ e.fromCloud <+: streamBytes packages) (hfits : s.Fits)
    (h : StreamKnown packages bytes s) (hstep : CloudSide kills s s' e) :
    StreamKnown packages (bytes ++ e.fromCloud) s' := by
  cases hstep with
  | quiet hfrom _ hlog hbuffer hparsing =>
      rw [hfrom, List.append_nil]
      exact h.of_same (by rw [hlog]) hbuffer hparsing
  | opened hfrom _ hlog hbuffer hparsing =>
      rw [hfrom, List.append_nil]
      exact h.of_same (by rw [hlog, handled_concat]; exact List.append_nil _) hbuffer hparsing
  | connected hfrom _ _ hlog hbuffer hparsing =>
      rw [hfrom, List.append_nil]
      exact h.of_same (by rw [hlog, handled_concat]; exact List.append_nil _) hbuffer hparsing
  | arrived chunk hfrom _ hlog hbuffer hparsing =>
      obtain ⟨rest, hrest, -⟩ := h.rest
      refine ⟨?_, rest, hlog ▸ hrest, fun hstopped => ?_⟩
      · rw [hfrom, hlog, hbuffer, h.bytes, List.append_assoc]
      · rw [hparsing] at hstopped
        cases hstopped
  | round hfrom hparsing hround =>
      rw [hfrom, List.append_nil] at hstarts ⊢
      exact streamKnown_cloudRound hpackages hstarts hfits hparsing h hround

/-- **What the manager gets from the cloud**, whatever the threads do and however the
bytes arrive: the packages dealt with are the first of the stream, in order, and the rest
of the bytes is in the buffer; each of them was sent on a live connection, or dropped
without one, or is a `discon`. Once there is a client nothing can fail. -/
theorem relayed_run {es : List RelayEvent} (hpackages : ∀ p ∈ packages, Transmitted p)
    (hstream : bytesFromCloud es <+: streamBytes packages)
    (h : Run (fun s e s' => e.Possible s ∧ s.Fits ∧ e.step kills s = .ok s') {} es s) :
    bytesFromCloud es = streamBytes (handled s.log) ++ s.packageBuffer ∧
    (∃ rest, packages = handled s.log ++ rest ∧
      (s.parsing = false → Pending (rest.map (·.dataVectorForSending)) s.packageBuffer)) ∧
    AtEach RelaysRightly s.log ∧
    (.opened ∈ s.log → s.Fits → Returns (cloudRound kills s)) := by
  have hsocket : SocketKnown s := by
    refine h.invariant (I := SocketKnown) ?_ fun _ _ _ hs hstep =>
      hs.step (cloudSide_of_step hstep.1 hstep.2.2)
    exact ⟨by simp [not_live_nil], by simp, atEach_nil⟩
  have hcloud : ∀ (es : List RelayEvent) (e : RelayEvent),
      bytesFromCloud (es ++ [e]) = bytesFromCloud es ++ e.fromCloud := by simp [bytesFromCloud]
  have hknown : StreamKnown packages (bytesFromCloud es) s := by
    refine h.invariant_history (I := fun es s => bytesFromCloud es <+: streamBytes packages →
      StreamKnown packages (bytesFromCloud es) s) ?_ ?_ hstream
    · exact fun _ => ⟨rfl, packages, rfl, fun _ => pending_nil (sending_ne_nil hpackages)⟩
    · rintro es s e s' ih ⟨hposs, hfits, hstep⟩ hstarts
      rw [hcloud] at hstarts ⊢
      exact StreamKnown.step hpackages hstarts hfits
        (ih ((List.prefix_append _ _).trans hstarts)) (cloudSide_of_step hposs hstep)
  refine ⟨hknown.bytes, hknown.rest, hsocket.rightly, fun hopened hfits => ?_⟩
  refine returns_cloudRound (fun hnone => hsocket.unset.mp hnone hopened) ?_
  obtain ⟨-, -, ⟨e, hget, -⟩ | ⟨p, left, later, -, -, hget⟩⟩ :=
    hknown.extraction hpackages hstream hfits
  · exact ⟨_, hget⟩
  · exact ⟨_, hget⟩

end Steps

/-- A package that makes the bridge reconnect. -/
def discon : IoTPackage := sent (lit "0") (lit "DEV.0") (lit "discon")

theorem transmitted_discon : Transmitted discon :=
  transmitted_sent (sendable_of_short .unassigned (.device 0 (by decide)) (by decide))
    (forall_mem_of_all (by decide))

/-- A package before the bridge reconnects, one while it does and one after. -/
def reconnecting : List RelayEvent :=
  [.opened 0, .connected 0 true,
    .cloudReceived (ping.dataVectorForSending ++ discon.dataVectorForSending.take 20),
    .cloudRound, .cloudRound,
    .cloudReceived (discon.dataVectorForSending.drop 20 ++ ping.dataVectorForSending),
    .cloudRound, .cloudRound, .cloudRound, .opened 0, .connected 0 true,
    .cloudReceived ping.dataVectorForSending, .cloudRound]

theorem relayed_run_reconnecting : ∃ s : Relay,
    s.log = [.opened, .connected, .relayed ping, .restarted discon, .dropped ping, .opened,
      .connected, .relayed ping] ∧ AtEach RelaysRightly s.log := by
  obtain ⟨s, hs, hlog⟩ := Option.map_eq_some_iff.mp
    (show (execute (fun s e => RelayEvent.Possible s e ∧ s.Fits) (fun s e => e.step true s) {}
        reconnecting).map (fun s => s.log)
      = some [.opened, .connected, .relayed ping, .restarted discon, .dropped ping, .opened,
        .connected, .relayed ping] by decide +kernel)
  have hrun := (run_of_execute hs).mono fun _ _ _ h => And.intro h.1.1 (And.intro h.1.2 h.2)
  have hpackages : ∀ p ∈ [ping, discon, ping, ping], Transmitted p := by
    simp [transmitted_ping, transmitted_discon]
  have hstream : bytesFromCloud reconnecting <+: streamBytes [ping, discon, ping, ping] := by
    decide +kernel
  exact ⟨s, hlog, (relayed_run hpackages hstream hrun).2.2.1⟩

end CloudBridge

/-! ### To the cloud -/

/-- The chunk an event receives from the manager. -/
def RelayEvent.fromManager : RelayEvent → List (List Byte)
  | received _ chunk => if chunk = [] then [] else [chunk]
  | _ => []

/-- The chunks that have come from the manager. -/
def chunksFromManager (es : List RelayEvent) : List (List Byte) := es.flatMap (·.fromManager)

/-- The chunk a send has passed on. -/
def CloudSend.chunk : CloudSend → List (List Byte)
  | forwarded recvBuffer => [recvBuffer]
  | keptAlive => []

/-- The chunks passed on to the cloud. -/
def CloudBridge.Relay.sentChunks (s : Relay) : List (List Byte) := s.sentToCloud.flatMap (·.chunk)

namespace CloudBridge

/-- The chunk a thread is about to pass on. -/
def ManagerThread.held (thread : ManagerThread) : List (List Byte) :=
  if thread.recvBuffer = [] then [] else [thread.recvBuffer]

/-- The chunks the threads are about to pass on. -/
def Relay.heldChunks (s : Relay) : List (List Byte) := s.managerThreads.flatMap (·.held)

/-- How often the bridge has reconnected; each time there is one more thread. -/
def restarts (log : List RelayAction) : Nat := log.countP fun
  | .restarted _ => true
  | _ => false

section Chunks

variable {kills : Bool} {s s' : Relay} {received : List (List Byte)}

/-- One thread among the others: what it holds stands at its own place among what all
hold, and nothing else moves when it changes. -/
theorem heldChunks_set {k : Nat} {thread : ManagerThread}
    (hk : s.managerThreads[k]? = some thread) :
    ∃ before after, s.heldChunks = before ++ thread.held ++ after ∧
      ∀ thread', (s.managerThreads.set k thread').flatMap (·.held)
        = before ++ thread'.held ++ after := by
  obtain ⟨hlt, rfl⟩ := List.getElem?_eq_some_iff.mp hk
  refine ⟨(s.managerThreads.take k).flatMap (·.held),
    (s.managerThreads.drop (k + 1)).flatMap (·.held), ?_, fun thread' => ?_⟩
  · rw [List.append_assoc, ← List.flatMap_cons, ← List.drop_eq_getElem_cons hlt,
      ← List.flatMap_append, List.take_append_drop]
    rfl
  · rw [List.set_eq_take_append_cons_drop, if_pos hlt]
    simp

/-- What an event does to the chunks. -/
inductive ChunkStep (kills : Bool) (s s' : Relay) (e : RelayEvent) : Prop
  | quiet (hfrom : e.fromManager = []) (hsent : s'.sentChunks = s.sentChunks)
      (hheld : s'.heldChunks = s.heldChunks)
      (hcount : s'.managerThreads.length = s.managerThreads.length)
      (hlog : restarts s'.log = restarts s.log)
  | received (chunk : List Byte) (before after : List (List Byte))
      (hfrom : e.fromManager = [chunk])
      (hsent : s'.sentChunks = s.sentChunks) (hheld : s.heldChunks = before ++ after)
      (hheld' : s'.heldChunks = before ++ chunk :: after)
      (hcount : s'.managerThreads.length = s.managerThreads.length)
      (hlog : restarts s'.log = restarts s.log)
  | forwarded (chunk : List Byte) (before after : List (List Byte)) (hfrom : e.fromManager = [])
      (hsent : s'.sentChunks = s.sentChunks ++ [chunk])
      (hheld : s.heldChunks = before ++ chunk :: after)
      (hheld' : s'.heldChunks = before ++ after)
      (hcount : s'.managerThreads.length = s.managerThreads.length)
      (hlog : restarts s'.log = restarts s.log)
  | restarted (hfrom : e.fromManager = []) (hsent : s'.sentChunks = s.sentChunks)
      (hthreads : s'.managerThreads = threadKill kills s.managerThreads ++ [.created])
      (hlog : restarts s'.log = restarts s.log + 1)

theorem chunkStep_of_step {e : RelayEvent} (hposs : e.Possible s)
    (hstep : e.step kills s = .ok s') : ChunkStep kills s s' e := by
  cases e with
  | opened k =>
      obtain rfl := Except.ok.inj hstep
      obtain ⟨before, after, hheld, hset⟩ := heldChunks_set hposs
      exact .quiet rfl rfl ((hset _).trans hheld.symm) (by simp) (by simp [restarts])
  | connected k success =>
      obtain ⟨before, after, hheld, hset⟩ := heldChunks_set hposs.1
      cases success with
      | true =>
          obtain rfl := Except.ok.inj hstep
          exact .quiet rfl rfl ((hset _).trans hheld.symm) (by simp) (by simp [restarts])
      | false =>
          obtain rfl := Except.ok.inj hstep
          exact .quiet rfl rfl ((hset _).trans hheld.symm) (by simp) rfl
  | received k chunk =>
      obtain rfl := Except.ok.inj hstep
      obtain ⟨before, after, hheld, hset⟩ := heldChunks_set hposs
      by_cases hchunk : chunk = []
      · subst hchunk
        exact .quiet rfl rfl ((hset _).trans hheld.symm) (by simp) rfl
      · refine .received chunk before after
          (by simp [RelayEvent.fromManager, hchunk]) rfl ?_ ?_ (by simp) rfl
        · simpa [ManagerThread.held, ManagerThread.recvBuffer] using hheld
        · refine (hset _).trans ?_
          simp [ManagerThread.held, ManagerThread.recvBuffer, hchunk]
  | forwarded k =>
      obtain ⟨thread, hk, hthread⟩ := (Option.any_eq_true _ _).mp hposs
      simp only [RelayEvent.step, hk] at hstep
      obtain rfl := Except.ok.inj hstep
      obtain ⟨before, after, hheld, hset⟩ := heldChunks_set hk
      have hne : thread.recvBuffer ≠ [] := List.ne_nil_of_length_pos (of_decide_eq_true hthread)
      refine .forwarded thread.recvBuffer before after rfl ?_ ?_ ?_ (by simp) rfl
      · simp [Relay.sentChunks, CloudSend.chunk]
      · simpa [ManagerThread.held, hne] using hheld
      · refine (hset _).trans ?_
        simp [ManagerThread.held, ManagerThread.recvBuffer]
  | keptAlive =>
      obtain rfl := Except.ok.inj hstep
      exact .quiet rfl (by simp [Relay.sentChunks, CloudSend.chunk]) rfl rfl rfl
  | cloudReceived chunk =>
      simp only [RelayEvent.step] at hstep
      split at hstep
      · obtain rfl := Except.ok.inj hstep
        exact .quiet rfl rfl rfl rfl rfl
      · obtain rfl := Except.ok.inj hstep
        exact .quiet rfl rfl rfl rfl rfl
  | cloudRound =>
      cases cloudRound_cases hstep with
      | waited hget hs' =>
          subst hs'
          exact .quiet rfl rfl rfl rfl rfl
      | restarted hget hdata hsocket hs' =>
          subst hs'
          exact .restarted rfl rfl rfl (by simp [restarts])
      | relayed hget hdata hsocket hs' =>
          subst hs'
          exact .quiet rfl rfl rfl rfl (by simp [restarts])
      | dropped hget hdata hsocket hs' =>
          subst hs'
          exact .quiet rfl rfl rfl rfl (by simp [restarts])

theorem heldChunks_concat_created (threads : List ManagerThread) :
    (threads ++ [ManagerThread.created]).flatMap (·.held) = threads.flatMap (·.held) := by
  rw [List.flatMap_append]
  exact List.append_nil _

/-- Nothing is lost if the old thread goes on. -/
def AllKept (received : List (List Byte)) (s : Relay) : Prop :=
  (s.sentChunks ++ s.heldChunks).Perm received

theorem allKept_step {e : RelayEvent} (h : AllKept received s) (hstep : ChunkStep false s s' e) :
    AllKept (received ++ e.fromManager) s' := by
  unfold AllKept at h ⊢
  cases hstep with
  | quiet hfrom hsent hheld hcount hlog =>
      rw [hfrom, hsent, hheld, List.append_nil]
      exact h
  | received chunk before after hfrom hsent hheld hheld' hcount hlog =>
      rw [hfrom, hsent, hheld']
      rw [hheld] at h
      refine List.Perm.trans ?_ (h.append_right [chunk])
      rw [← List.append_assoc, ← List.append_assoc]
      exact (List.perm_middle.trans (List.perm_append_singleton chunk _).symm)
  | forwarded chunk before after hfrom hsent hheld hheld' hcount hlog =>
      rw [hfrom, hsent, hheld', List.append_nil]
      rw [hheld] at h
      refine List.Perm.trans ?_ h
      rw [List.append_assoc, List.singleton_append]
      exact List.perm_middle.symm.append_left _
  | restarted hfrom hsent hthreads hlog =>
      rw [hfrom, hsent, Relay.heldChunks, hthreads, heldChunks_concat_created, List.append_nil]
      exact h

/-- If the old thread is ended there is only one, and what is lost is what an ended one
was about to pass on. -/
structure InOrder (received : List (List Byte)) (s : Relay) : Prop where
  single : s.managerThreads.length = 1
  order : (s.sentChunks ++ s.heldChunks).Sublist received
  lost : received.length ≤ (s.sentChunks ++ s.heldChunks).length + restarts s.log

theorem length_heldChunks_le (s : Relay) : s.heldChunks.length ≤ s.managerThreads.length := by
  rw [Relay.heldChunks]
  induction s.managerThreads with
  | nil => simp
  | cons thread threads ih =>
      have hthread : thread.held.length ≤ 1 := by
        unfold ManagerThread.held
        split <;> simp
      simp only [List.flatMap_cons, List.length_append, List.length_cons]
      omega

theorem inOrder_step {e : RelayEvent} (h : InOrder received s) (hstep : ChunkStep true s s' e) :
    InOrder (received ++ e.fromManager) s' := by
  have hone := length_heldChunks_le s
  rw [h.single] at hone
  have hlost := h.lost
  cases hstep with
  | quiet hfrom hsent hheld hcount hlog =>
      rw [hfrom, List.append_nil]
      exact ⟨hcount.trans h.single, by rw [hsent, hheld]; exact h.order,
        by rw [hsent, hheld, hlog]; exact hlost⟩
  | received chunk before after hfrom hsent hheld hheld' hcount hlog =>
      have hnil : before = [] ∧ after = [] := by
        have hone' := length_heldChunks_le s'
        rw [hheld', hcount, h.single] at hone'
        simp only [List.length_append, List.length_cons] at hone'
        exact ⟨List.eq_nil_of_length_eq_zero (by omega), List.eq_nil_of_length_eq_zero (by omega)⟩
      obtain ⟨rfl, rfl⟩ := hnil
      have hmore : s'.sentChunks ++ s'.heldChunks = (s.sentChunks ++ s.heldChunks) ++ [chunk] := by
        rw [hsent, hheld, hheld']
        simp
      rw [hfrom]
      refine ⟨hcount.trans h.single, ?_, ?_⟩
      · rw [hmore]
        exact h.order.append_right [chunk]
      · rw [List.length_append] at hlost
        simp only [hmore, hlog, List.length_append, List.length_singleton]
        omega
  | forwarded chunk before after hfrom hsent hheld hheld' hcount hlog =>
      -- The one thread holds this chunk and no other.
      have hnil : before = [] ∧ after = [] := by
        rw [hheld] at hone
        simp only [List.length_append, List.length_cons] at hone
        exact ⟨List.eq_nil_of_length_eq_zero (by omega), List.eq_nil_of_length_eq_zero (by omega)⟩
      obtain ⟨rfl, rfl⟩ := hnil
      have hsame : s'.sentChunks ++ s'.heldChunks = s.sentChunks ++ s.heldChunks := by
        rw [hsent, hheld, hheld']
        simp
      rw [hfrom, List.append_nil]
      exact ⟨hcount.trans h.single, hsame ▸ h.order, by rw [hsame, hlog]; exact hlost⟩
  | restarted hfrom hsent hthreads hlog =>
      obtain ⟨thread, hthread⟩ := List.length_eq_one_iff.mp h.single
      have hheld : s'.heldChunks = [] := by
        rw [Relay.heldChunks, hthreads, heldChunks_concat_created, hthread]
        rfl
      rw [hfrom, List.append_nil]
      refine ⟨by rw [hthreads, hthread]; rfl, ?_, ?_⟩
      · rw [hheld, hsent, List.append_nil]
        exact (List.sublist_append_left _ _).trans h.order
      · rw [List.length_append] at hlost
        rw [hheld, hsent, hlog, List.append_nil]
        omega

/-- The runs of the bridge. -/
abbrev RelayRun (kills : Bool) (es : List RelayEvent) (s : Relay) : Prop :=
  Run (fun s e s' => RelayEvent.Possible s e ∧ e.step kills s = .ok s') {} es s

theorem chunksFromManager_concat (es : List RelayEvent) (e : RelayEvent) :
    chunksFromManager (es ++ [e]) = chunksFromManager es ++ e.fromManager := by
  simp [chunksFromManager]

theorem allKept_run {es : List RelayEvent} (h : RelayRun false es s) :
    AllKept (chunksFromManager es) s := by
  refine h.invariant_history (I := fun es s => AllKept (chunksFromManager es) s) ?_ ?_
  · exact .nil
  · rintro es s e s' hs ⟨hposs, hstep⟩
    rw [chunksFromManager_concat]
    exact allKept_step hs (chunkStep_of_step hposs hstep)

theorem inOrder_run {es : List RelayEvent} (h : RelayRun true es s) :
    InOrder (chunksFromManager es) s := by
  refine h.invariant_history (I := fun es s => InOrder (chunksFromManager es) s) ?_ ?_
  · exact ⟨rfl, .slnil, Nat.le_refl _⟩
  · rintro es s e s' hs ⟨hposs, hstep⟩
    rw [chunksFromManager_concat]
    exact inOrder_step hs (chunkStep_of_step hposs hstep)

/-- **What the cloud gets from the manager**, whatever the threads do. Without
`Thread_kill` every chunk is passed on once, or is about to be. With it the chunks stay in
order, and at most one is lost each time the bridge reconnects. -/
theorem forwarded_run {es : List RelayEvent} (h : RelayRun kills es s) :
    (kills = false → (s.sentChunks ++ s.heldChunks).Perm (chunksFromManager es)) ∧
    (kills = true → (s.sentChunks ++ s.heldChunks).Sublist (chunksFromManager es) ∧
      (chunksFromManager es).length
        ≤ (s.sentChunks ++ s.heldChunks).length + restarts s.log) := by
  constructor
  · rintro rfl
    exact allKept_run h
  · rintro rfl
    exact ⟨(inOrder_run h).order, (inOrder_run h).lost⟩

end Chunks

/-! ### Two loops on one connection -/

/-- The old loop comes to its critical section after the new one. -/
def overtaken : List RelayEvent :=
  [.opened 0, .connected 0 true, .cloudReceived discon.dataVectorForSending, .cloudRound,
    .cloudRound, .opened 1, .connected 1 true, .received 0 [1], .received 1 [2], .forwarded 1,
    .forwarded 0]

theorem run_overtaken : ∃ s, RelayRun false overtaken s ∧ s.sentChunks = [[2], [1]] := by
  obtain ⟨s, hs, hsent⟩ := Option.map_eq_some_iff.mp
    (show (execute RelayEvent.Possible (fun s e => e.step false s) {} overtaken).map
        (fun s => s.sentChunks) = some [[2], [1]] by decide +kernel)
  exact ⟨s, run_of_execute hs, hsent⟩

theorem forwarded_run_overtaken : ∃ s : Relay, s.sentChunks = [[2], [1]] ∧
    (s.sentChunks ++ s.heldChunks).Perm (chunksFromManager overtaken) := by
  obtain ⟨s, hrun, hsent⟩ := run_overtaken
  exact ⟨s, hsent, (forwarded_run hrun).1 rfl⟩

/-- **The stream to the cloud stays in order**, in every run, if and only if
`Thread_kill` ends the old thread. -/
theorem inOrder_iff (kills : Bool) :
    (∀ es s, RelayRun kills es s → s.sentChunks.Sublist (chunksFromManager es)) ↔
      kills = true := by
  constructor
  · intro hall
    cases kills with
    | true => rfl
    | false =>
        obtain ⟨s, hrun, hsent⟩ := run_overtaken
        have horder := hall _ s hrun
        rw [hsent] at horder
        exact absurd horder (by decide)
  · rintro rfl es s hrun
    exact (List.sublist_append_left _ _).trans (inOrder_run hrun).order

end CloudBridge

end IoTRepublic
