import IoTRepublic.Broker.IBroker
import IoTRepublic.IoT.StreamSound
import IoTRepublic.Lib.Allotment

/-!
# IoTRepublic.Broker.IBrokerSound

Every broker that has asked for an address has one of its own.

The manager's side of the network is a `Ledger`: a broker whose request has arrived has
been given a number, and the manager's count is the next one. `Follows` says where each
asker stands (`Phase`), and every event keeps it, whatever else is going on
(`follows_step`). So no two brokers ever get the same address, none gets what was meant
for another, and a broker to which nothing is on the way any more has its address
(`askedAddresses_run`).

The proof is by frames. An event belongs to one connection, so it leaves every asker on
another one as it was: the buffer of its slot, its descriptor, and what is under way in
both directions (`Undisturbed`). For the asker it belongs to, the two streams are followed
byte by byte; the request is complete in the manager's buffer exactly when a number is
given out, and the reply is complete in the asker's exactly when the loop ends.

What an asker has is its number in the ledger, so that two askers have different addresses
is the ledger's own invariant and is not proved here again. What has to be proved is that
the network follows the ledger: the manager's count is its next number, and a reply that
is under way or has arrived is the one for the number its asker was given.
-/

namespace IoTRepublic

open Cpp IoTUtility Transition Allotment

namespace IBroker

/-! ### The two packages -/

/-- The request for an address, from `0` to `0` and without a payload, as every broker
sends it. -/
def request : IoTPackage := sent (lit "0") (lit "0") []

/-- The `n`-th address, as `getNewIoTIP` puts it together from the prefix and the
count. -/
def address (n : Nat) : Text := IoTManager.addressPrefix ++ showInt n

/-- The reply with the `n`-th address, which is the destination of the package and not its
payload. -/
def reply (n : Nat) : IoTPackage := sent IoTManager.serverIoTIP (address n) []

theorem sendable_request : Sendable (lit "0") (lit "0") [] :=
  sendable_of_short .unassigned .unassigned (by decide)

theorem sendable_reply {n : Nat} (h : InInt n) :
    Sendable IoTManager.serverIoTIP (address n) [] :=
  sendable_of_short .manager (.device n h) (by decide)

theorem ipRequest_eq : ipRequest = .ok request :=
  (IoTPackage.ofVector_none _ _ _).trans sendable_request.ofVector_eq

theorem transmitted_request : Transmitted request := transmitted_sent sendable_request (by simp)

theorem transmitted_reply {n : Nat} (h : InInt n) : Transmitted (reply n) :=
  transmitted_sent (sendable_reply h) (by simp)

theorem address_ne_nil (n : Nat) : address n ≠ [] := by
  rw [address, ne_eq, List.append_eq_nil_iff]
  exact fun h => absurd h.1 (by decide)

theorem address_inj {m n : Nat} (h : address m = address n) : m = n := by
  have hread := strtol_showInt m
  rw [List.append_cancel_left h, strtol_showInt] at hread
  exact Int.ofNat.inj (Option.some.inj hread).symm

/-! ### The broker's side -/

/-- The address of the manager, once the reply is there. -/
def managerAddress (known : Text) : Text :=
  if known.length = 0 then IoTManager.serverIoTIP else known

theorem managerAddress_length_pos (known : Text) : 0 < (managerAddress known).length := by
  unfold managerAddress
  split
  · decide
  · omega

/-- Before the reply is complete, its bytes are collected. -/
theorem askRound_front {known : Text} {front chunk rest : List Byte} {n : Nat} (hn : InInt n)
    (hbytes : front ++ chunk ++ rest = (reply n).dataVectorForSending) (hrest : rest ≠ []) :
    askRound chunk { managerIoTIp := known, recvBuffer := front }
      = .ok { managerIoTIp := known, recvBuffer := front ++ chunk } := by
  unfold askRound
  dsimp only
  split
  · have hlt : (front ++ chunk).length < (reply n).dataVectorForSending.length := by
      have := List.length_pos_of_ne_nil hrest
      simp only [← hbytes, List.length_append]
      omega
    obtain ⟨e, -, hget⟩ := (transmitted_reply hn).getCompletedPackage_front ⟨rest, hbytes⟩ hlt
    simp [parseReceivedBuffer, hget, notFound]
  · rfl

/-- With its last byte the loop ends. -/
theorem askRound_whole {known : Text} {front chunk : List Byte} {n : Nat} (hn : InInt n)
    (hbytes : front ++ chunk = (reply n).dataVectorForSending) :
    askRound chunk { managerIoTIp := known, recvBuffer := front }
      = .ok { managerIoTIp := managerAddress known, iotIp := address n, recvBuffer := []
              finished := true } := by
  have hne : 0 < (front ++ chunk).length :=
    List.length_pos_of_ne_nil (hbytes ▸ (transmitted_reply hn).sending_ne_nil)
  have hget := (transmitted_reply hn).getCompletedPackage_eq (r := [])
    (by rw [List.append_nil]; exact (transmitted_reply hn).sending_length_lt)
  rw [List.append_nil, ← hbytes] at hget
  have haddress : (reply n).desIp = address n := rfl
  have hmanager : (reply n).sorIp = IoTManager.serverIoTIP := rfl
  have hfinished : 0 < (address n).length ∧ 0 < (managerAddress known).length :=
    ⟨List.length_pos_of_ne_nil (address_ne_nil n), managerAddress_length_pos known⟩
  rw [managerAddress] at hfinished ⊢
  simp only [askRound, hne, if_true, parseReceivedBuffer, hget, ok_bind, pure_eq_ok, haddress,
    hmanager, hfinished, decide_true, Bool.and_self]

/-! ### The manager's side -/

section Manager

variable {J : Jansson} {server : TcpServer} {k : Nat} {s s' : ManagerState}
  {old chunk : List Byte}

theorem vectorAt_of_getD {buffers : List (List Byte)} {b : List Byte}
    (h : vectorAt buffers k = .ok b) :
    buffers[k]? = some (buffers.getD k []) := by
  rw [List.getD_eq_getElem?_getD, vectorAt_nat_ok_iff.mp h, Option.getD_some]

/-- A part of a request: the manager collects it and does nothing else. No number is given
out, no device changes and nothing is sent. -/
theorem receivedData_front {package : IoTPackage} (hpackage : Transmitted package)
    {rest : List Byte} (hold : s.manager.packageBuffer.getD k [] = old)
    (hbytes : old ++ chunk ++ rest = package.dataVectorForSending) (hrest : rest ≠ [])
    (h : s.eventReceivedData J server k chunk = .ok s') :
    s'.manager.packageBuffer.getD k [] = old ++ chunk ∧
      s'.manager.ipCount = s.manager.ipCount ∧
      s'.manager.registedDevices = s.manager.registedDevices ∧
      ∃ tail, s'.log = s.log ++ tail ∧ ∀ fd, sentOn J fd tail = [] := by
  have hbuffer : s.manager.packageBuffer[k]? = some old := by
    obtain ⟨b, hb, -⟩ := bind_ok_iff.mp h
    rw [vectorAt_of_getD hb, hold]
  have hlt : (old ++ chunk).length < package.dataVectorForSending.length := by
    have := List.length_pos_of_ne_nil hrest
    simp only [← hbytes, List.length_append]
    omega
  obtain ⟨e, he, hget⟩ := hpackage.getCompletedPackage_front ⟨rest, hbytes⟩ hlt
  rw [ManagerState.eventReceivedData_eq hbuffer, packageLoop_of_none hget] at h
  obtain rfl := Except.ok.inj h
  have hk := (List.getElem?_eq_some_iff.mp hbuffer).1
  -- None of the three errors that leave a buffer alone clears it.
  rcases he with rfl | rfl | rfl
  all_goals
    refine ⟨?_, rfl, rfl, _, rfl, fun fd => rfl⟩
    simp [ManagerState.settled, ManagerState.buffered, hk]

theorem answerIpRequest_eq {m m' : IoTManager} {done : List Effect} {fd : Int} {n : Nat}
    (hk : server.clientSockets[k]? = some fd) (hfd : 0 < fd) (hn : m.ipCount = n)
    (hint : InInt m.ipCount)
    (h : IoTManager.answerIpRequest server k m = .ok (m', done)) :
    m' = { m with ipCount := n + 1 } ∧
      done = [.answered k (some fd) (reply n).dataVectorForSending] := by
  rw [hn] at hint
  obtain ⟨⟨newIp, m₁⟩, hnew, h⟩ := bind_ok_iff.mp h
  obtain ⟨ipCount, hcount, hnew⟩ := bind_ok_iff.mp hnew
  obtain ⟨rfl, rfl⟩ := Prod.mk.inj (Except.ok.inj hnew)
  obtain ⟨-, rfl⟩ := addInt_ok_iff.mp hcount
  have hreply : IoTPackage.ofVector IoTPackage.protocolVersion IoTManager.serverIoTIP
      (IoTManager.addressPrefix ++ showInt m.ipCount) none = .ok (reply n) := by
    rw [hn]
    exact (IoTPackage.ofVector_none _ _ _).trans (sendable_reply hint).ofVector_eq
  have hsent : server.sendDataToExistsConnection k (reply n).dataVectorForSending
      = .ok (some fd) := by
    obtain ⟨b, hb⟩ := returns_vectorAt_iff.mpr
      (List.length_pos_of_ne_nil (transmitted_reply hint).sending_ne_nil)
    rw [TcpServer.sendDataToExistsConnection, vectorAt_nat_ok_iff.mpr hk, ok_bind, if_pos hfd]
    exact congrArg (· >>= fun _ => Except.ok (some fd)) hb
  dsimp only at h
  rw [hreply, ok_bind, hsent] at h
  obtain ⟨rfl, rfl⟩ := Prod.mk.inj (Except.ok.inj h)
  exact ⟨by rw [hn], rfl⟩

/-- With the last byte of a request an address is handed out. -/
theorem receivedData_request {fd : Int} {n : Nat} (hk : server.clientSockets[k]? = some fd)
    (hfd : 0 < fd) (hn : s.manager.ipCount = n) (hint : InInt s.manager.ipCount)
    (hold : s.manager.packageBuffer.getD k [] = old)
    (hbytes : old ++ chunk = request.dataVectorForSending)
    (h : s.eventReceivedData J server k chunk = .ok s') :
    s'.manager.packageBuffer.getD k [] = [] ∧
      s'.manager.ipCount = n + 1 ∧
      s'.manager.registedDevices = s.manager.registedDevices ∧
      ∃ tail, s'.log = s.log ++ tail ∧ sentOn J fd tail = (reply n).dataVectorForSending := by
  have hbuffer : s.manager.packageBuffer[k]? = some old := by
    obtain ⟨b, hb, -⟩ := bind_ok_iff.mp h
    rw [vectorAt_of_getD hb, hold]
  have hempty : getCompletedPackage [] = .ok (notFound .lengthIsNotLongEnough []) :=
    getCompletedPackage_of_short (by decide)
  have hloop : packageLoop (ManagerState.dispatchPackage J server k) (s.buffered k old chunk)
      (streamBytes [request] ++ []) = _ :=
    packageLoop_of_packages (by simpa using transmitted_request)
      (by simpa [streamBytes] using transmitted_request.sending_length_lt) hempty _
  rw [streamBytes, List.flatMap_singleton, List.append_nil, ← hbytes] at hloop
  rw [ManagerState.eventReceivedData_eq hbuffer, hloop, bind_assoc] at h
  obtain ⟨s₁, hfold, h⟩ := bind_ok_iff.mp h
  obtain ⟨s₂, hdispatch, hnil⟩ := bind_ok_iff.mp hfold
  obtain rfl := Except.ok.inj hnil
  obtain rfl := Except.ok.inj h
  obtain ⟨⟨manager, done⟩, hanswer, hdispatch⟩ := bind_ok_iff.mp hdispatch
  obtain rfl := Except.ok.inj hdispatch
  rw [IoTManager.dispatch, if_pos (by exact ⟨rfl, rfl⟩)] at hanswer
  obtain ⟨rfl, rfl⟩ := answerIpRequest_eq (m := (s.buffered k old chunk).manager)
    hk hfd hn hint hanswer
  have hlt := (List.getElem?_eq_some_iff.mp hbuffer).1
  refine ⟨?_, rfl, rfl, [.receivedData k chunk, .extracted k request,
    .effect (.answered k (some fd) (reply n).dataVectorForSending)], ?_, ?_⟩
  · simp [ManagerState.settled, ManagerState.buffered, hlt]
  · simp [ManagerState.settled, ManagerState.buffered]
  · simp [Action.sentOn, Effect.sent]

end Manager

/-! ### Where an asker stands -/

/-- An asker with its number, if it has been given one, and the buffer of its slot. The
phases are those of a single exchange: request under way, reply under way, done, or
left. -/
inductive Phase (buffer : List Byte) (asker : Asker) : Option Nat → Prop
  /-- The request has not arrived. -/
  | waiting (hasking : asker.asking = { managerIoTIp := asker.known }) (hreply : asker.reply = [])
      (hrequest : asker.connected = true →
        buffer ++ asker.request = request.dataVectorForSending ∧ asker.request ≠ []) :
      Phase buffer asker none
  /-- The reply has not arrived. -/
  | answered (n : Nat) (front : List Byte) (hn : InInt n)
      (hasking : asker.asking = { managerIoTIp := asker.known, recvBuffer := front })
      (hreply : front ++ asker.reply = (reply n).dataVectorForSending) (hne : asker.reply ≠ [])
      (hrequest : asker.request = []) : Phase buffer asker (some n)
  | finished (n : Nat)
      (hasking : asker.asking = { managerIoTIp := managerAddress asker.known, iotIp := address n
                                  recvBuffer := [], finished := true })
      (hreply : asker.reply = []) (hrequest : asker.request = []) : Phase buffer asker (some n)

theorem Phase.of_left {buffer buffer' : List Byte} {asker : Asker} {number : Option Nat}
    (h : Phase buffer asker number) : Phase buffer' { asker with connected := false } number := by
  cases h with
  | waiting hasking hreply hrequest => exact .waiting hasking hreply nofun
  | answered n front hn hasking hreply hne hrequest =>
      exact .answered n front hn hasking hreply hne hrequest
  | finished n hasking hreply hrequest => exact .finished n hasking hreply hrequest

/-- For an asker that has left, the buffer of the slot is somebody else's. -/
theorem Phase.of_not_connected {buffer buffer' : List Byte} {asker : Asker} {number : Option Nat}
    (h : Phase buffer asker number) (hleft : asker.connected = false) :
    Phase buffer' asker number := by
  have h' : Phase buffer' { asker with connected := false } number := h.of_left
  rwa [← hleft] at h'

/-- Bytes of the reply reach the asker. -/
theorem Phase.replied {buffer : List Byte} {asker : Asker} {number : Option Nat}
    (h : Phase buffer asker number) (hopen : asker.asking.finished = false) {n : Nat}
    {asking : Asking}
    (hround : askRound (asker.reply.take n) asker.asking = .ok asking) :
    Phase buffer { asker with reply := asker.reply.drop n, asking := asking } number := by
  cases h with
  | waiting hasking hreply hrequest =>
      rw [hreply, hasking, List.take_nil] at hround
      obtain rfl := Except.ok.inj hround
      exact .waiting rfl (by simp [hreply]) hrequest
  | answered m front hm hasking hreply hne hrequest =>
      rw [hasking] at hround
      rw [← List.take_append_drop n asker.reply, ← List.append_assoc] at hreply
      by_cases hrest : asker.reply.drop n = []
      · rw [hrest, List.append_nil] at hreply
        rw [askRound_whole hm hreply] at hround
        obtain rfl := Except.ok.inj hround
        exact .finished m rfl hrest hrequest
      · rw [askRound_front hm hreply hrest] at hround
        obtain rfl := Except.ok.inj hround
        exact .answered m _ hm rfl hreply hrest hrequest
  | finished m hasking hreply hrequest =>
      rw [hasking] at hopen
      cases hopen

end IBroker

open IBroker

/-! ### The network -/

/-- An asker is where its number says, and its connection is its own. -/
structure Stands (server : ServerState ManagerState) (asker : Asker) (number : Option Nat) :
    Prop where
  live : asker.connected = true →
    server.server.Connected asker.socketIndex asker.socket ∧ 0 < asker.socket ∧
      ∀ device ∈ server.sub.manager.registedDevices, device.socketIndex ≠ asker.socketIndex
  phase : Phase (server.sub.manager.packageBuffer.getD asker.socketIndex []) asker number

/-- No two askers have the same slot. -/
def Apart (askers : List Asker) : Prop :=
  ∀ (k l : Nat) (asker asker' : Asker), askers[k]? = some asker → askers[l]? = some asker' →
    asker.connected = true → asker'.connected = true →
    asker.socketIndex = asker'.socketIndex → k = l

/-- The device list is in order, and as long as an `int` can tell. -/
structure Listed (server : ServerState ManagerState) : Prop where
  fits : server.sub.DevicesFit
  registry : RegistryOf server.server server.sub

theorem Listed.step {J : Jansson} {server server' : ServerState ManagerState} {e : ServerEvent}
    (h : Listed server) (ht : SocketTable server.server server.opened)
    (hstep : e.Step (ManagerState.events J) server server') (hfits : server'.sub.DevicesFit) :
    Listed server' := ⟨hfits, registry_step ht h.fits hfits h.registry hstep⟩

/-- The network keeps to the ledger: every asker stands where its number says, and the
manager's count is the ledger's. -/
structure Follows (net : Network) (ledger : Ledger Nat) : Prop where
  table : SocketTable net.server.server net.server.opened
  listed : Listed net.server
  count : net.server.sub.manager.ipCount = ledger.next
  countInt : InInt net.server.sub.manager.ipCount
  apart : Apart net.askers
  stands : ∀ (k : Nat) (asker : Asker), net.askers[k]? = some asker →
    Stands net.server asker (ledger.given k)
  unlisted : ∀ k, net.askers.length ≤ k → ledger.given k = none

/-- What an asker's own connection has nothing to do with. -/
def Undisturbed (J : Jansson) (server server' : ServerState ManagerState) (asker : Asker) : Prop :=
  asker.connected = true →
    LeftAlone J asker.socketIndex asker.socket server.sub server'.sub ∧
      server'.server.Connected asker.socketIndex asker.socket

section Steps

variable {J : Jansson} {server server' : ServerState ManagerState} {asker : Asker}
  {number : Option Nat} {net : Network} {ledger : Ledger Nat}

theorem Undisturbed.hear (h : Undisturbed J server server' asker) :
    asker.hear J (server'.sub.log.drop server.sub.log.length) = asker := by
  unfold Asker.hear
  split
  · rename_i hconn
    obtain ⟨tail, hlog, hsilent⟩ := (h hconn).1.silent
    rw [hlog, List.drop_left, hsilent, List.append_nil]
  · rfl

theorem Stands.undisturbed (hs : Stands server asker number)
    (h : Undisturbed J server server' asker) : Stands server' asker number := by
  cases hconn : asker.connected with
  | true =>
      obtain ⟨halone, hconnected⟩ := h hconn
      exact ⟨fun _ => ⟨hconnected, (hs.live hconn).2.1, halone.unregistered⟩,
        halone.buffer ▸ hs.phase⟩
  | false =>
      exact ⟨fun hopen => absurd hopen (by simp [hconn]), hs.phase.of_not_connected hconn⟩

/-- An event of another connection does not disturb an asker. -/
theorem Stands.undisturbed_step (hs : Stands server asker number)
    (ht : SocketTable server.server server.opened) {e : ServerEvent}
    (hother : asker.connected = true → e.slot? ≠ some asker.socketIndex)
    (h : e.step (ManagerState.events J) server = .ok server') :
    Undisturbed J server server' asker := by
  intro hconn
  obtain ⟨hconnected, -, hfree⟩ := hs.live hconn
  exact leftAlone_step ht hconnected hfree (hother hconn) h

theorem Follows.stands_of_mem (h : Follows net ledger) (hmem : asker ∈ net.askers) :
    ∃ number, Stands net.server asker number := by
  obtain ⟨k, hk⟩ := List.mem_iff_getElem?.mp hmem
  exact ⟨_, h.stands k asker hk⟩

/-- If no asker is disturbed, the count may have gone up. -/
theorem Follows.serve (h : Follows net ledger) (server' : ServerState ManagerState)
    (htable : SocketTable server'.server server'.opened)
    (hlisted : Listed server')
    (hcounted : Counted net.server.sub server'.sub)
    (hundisturbed : ∀ asker ∈ net.askers, Undisturbed J net.server server' asker) :
    ∃ ledger', Follows (net.serve J server') ledger' ∧ (net.serve J server').askers = net.askers ∧
      ledger'.given = ledger.given := by
  have haskers : (net.serve J server').askers = net.askers :=
    (List.map_congr_left fun asker hmem => (hundisturbed asker hmem).hear).trans (List.map_id' _)
  have hcount : (server'.sub.manager.ipCount.toNat : Int) = server'.sub.manager.ipCount := by
    have hle := hcounted.1
    rw [h.count] at hle
    omega
  have hle : ledger.next ≤ server'.sub.manager.ipCount.toNat := by
    have hle := hcounted.1
    rw [h.count] at hle
    omega
  refine ⟨ledger.skip _ hle, ?_, haskers, rfl⟩
  refine
    { table := htable
      listed := hlisted
      count := hcount.symm
      countInt := hcounted.2 h.countInt
      apart := haskers ▸ h.apart
      stands := fun k asker hk => ?_
      unlisted := fun k hk => h.unlisted k (haskers ▸ hk) }
  rw [haskers] at hk
  exact (h.stands k asker hk).undisturbed (hundisturbed asker (List.mem_of_getElem? hk))

/-! ### One asker and the others -/

/-- What an event does to an asker and its slot, the others being left alone. -/
theorem Follows.set {ledger' : Ledger Nat} (h : Follows net ledger) {k : Nat}
    (hk : net.askers[k]? = some asker) {asker' : Asker}
    (htable : SocketTable server'.server server'.opened)
    (hlisted : Listed server')
    (hcount : server'.sub.manager.ipCount = ledger'.next)
    (hint : InInt server'.sub.manager.ipCount)
    (hundisturbed : ∀ (l : Nat) (other : Asker), net.askers[l]? = some other → l ≠ k →
      Undisturbed J net.server server' other)
    (hgiven : ∀ l, l ≠ k → ledger'.given l = ledger.given l)
    (hslot : asker'.socketIndex = asker.socketIndex)
    (hopen : asker'.connected = true → asker.connected = true)
    (hstands : Stands server' asker' (ledger'.given k)) :
    Follows ⟨server', net.askers.set k asker'⟩ ledger' := by
  have hlt := (List.getElem?_eq_some_iff.mp hk).1
  -- Every asker has the slot it had, and is connected only if it was.
  have hold : ∀ (l : Nat) (a : Asker), (net.askers.set k asker')[l]? = some a →
      ∃ b, net.askers[l]? = some b ∧ a.socketIndex = b.socketIndex ∧
        (a.connected = true → b.connected = true) := by
    intro l a ha
    by_cases hlk : l = k
    · subst hlk
      rw [List.getElem?_set_self hlt] at ha
      obtain rfl := Option.some.inj ha
      exact ⟨asker, hk, hslot, hopen⟩
    · rw [List.getElem?_set_ne (Ne.symm hlk)] at ha
      exact ⟨a, ha, rfl, id⟩
  refine
    { table := htable
      listed := hlisted
      count := hcount
      countInt := hint
      apart := ?_
      stands := ?_
      unlisted := ?_ }
  · intro l m a b ha hb hca hcb hsame
    obtain ⟨a', ha', hslota, hopena⟩ := hold l a ha
    obtain ⟨b', hb', hslotb, hopenb⟩ := hold m b hb
    exact h.apart l m a' b' ha' hb' (hopena hca) (hopenb hcb) (hslota ▸ hslotb ▸ hsame)
  · intro l a ha
    by_cases hlk : l = k
    · subst hlk
      rw [List.getElem?_set_self hlt] at ha
      obtain rfl := Option.some.inj ha
      exact hstands
    · rw [List.getElem?_set_ne (Ne.symm hlk)] at ha
      rw [hgiven l hlk]
      exact (h.stands l a ha).undisturbed (hundisturbed l a ha hlk)
  · intro l hl
    rw [List.length_set] at hl
    rw [hgiven l (by omega)]
    exact h.unlisted l hl

/-- Only the asker in question hears anything. -/
theorem serve_set {k : Nat} {asker' : Asker}
    (hundisturbed : ∀ (l : Nat) (other : Asker), net.askers[l]? = some other → l ≠ k →
      Undisturbed J net.server server' other) :
    Network.serve J server' { net with askers := net.askers.set k asker' } =
      ⟨server', net.askers.set k
        (asker'.hear J (server'.sub.log.drop net.server.sub.log.length))⟩ := by
  rw [Network.serve, List.map_set, Network.mk.injEq]
  refine ⟨rfl, List.ext_getElem? fun l => ?_⟩
  by_cases hlk : l = k
  · subst hlk
    simp [List.getElem?_set]
  · rw [List.getElem?_set_ne (Ne.symm hlk), List.getElem?_set_ne (Ne.symm hlk), List.getElem?_map]
    cases hl : net.askers[l]? with
    | none => rfl
    | some other => exact congrArg some (hundisturbed l other hl hlk).hear

/-- What happens on the connection of one asker does not disturb the others. -/
theorem Follows.undisturbed (h : Follows net ledger) {k : Nat} (hk : net.askers[k]? = some asker)
    (hconn : asker.connected = true) {e : ServerEvent} (he : e.slot? = some asker.socketIndex)
    (hstep : e.step (ManagerState.events J) net.server = .ok server') (l : Nat) (other : Asker)
    (hl : net.askers[l]? = some other) (hne : l ≠ k) : Undisturbed J net.server server' other := by
  refine (h.stands l other hl).undisturbed_step h.table (fun hother hslot => hne ?_) hstep
  exact h.apart l k other asker hl hk hother hconn (Option.some.inj (hslot.symm.trans he))

/-! ### The events -/

/-- A connection ends. The asker keeps its number, if it has one, and its slot is free for
somebody else. -/
theorem Follows.left (h : Follows net ledger) {k : Nat} (hk : net.askers[k]? = some asker)
    (hconn : asker.connected = true)
    (hstep : ServerEvent.step (ManagerState.events J) net.server (.disconnected asker.socketIndex)
      = .ok server') (hfits : server'.sub.DevicesFit) :
    ∃ ledger', Follows (Network.serve J server'
      { net with askers := net.askers.set k { asker with connected := false } }) ledger' := by
  have hs := h.stands k asker hk
  have hposs : (ServerEvent.disconnected asker.socketIndex).Step (ManagerState.events J)
      net.server server' := ⟨⟨_, (hs.live hconn).1⟩, hstep⟩
  have hothers := h.undisturbed hk hconn rfl hstep
  have hcounted := counted_step hstep
  have hle := hcounted.1
  rw [h.count] at hle
  rw [serve_set hothers]
  refine ⟨ledger.skip server'.sub.manager.ipCount.toNat (by omega),
    h.set (J := J) hk (socketTable_step h.table hposs) (h.listed.step h.table hposs hfits)
      (by rw [Ledger.skip_next]; omega) (hcounted.2 h.countInt) hothers (fun _ _ => rfl) rfl
      nofun ?_⟩
  exact ⟨nofun, hs.phase.of_left⟩

/-- A broker with bytes still to send has no number yet. -/
theorem IBroker.Phase.request {buffer : List Byte} (h : Phase buffer asker number)
    (hconn : asker.connected = true) (hne : asker.request ≠ []) :
    asker.asking = { managerIoTIp := asker.known } ∧ asker.reply = [] ∧
      buffer ++ asker.request = IBroker.request.dataVectorForSending ∧ number = none := by
  cases h with
  | waiting hasking hreply hrequest => exact ⟨hasking, hreply, (hrequest hconn).1, rfl⟩
  | answered n front hn hasking hreply hreplyNe hrequest => exact absurd hrequest hne
  | finished n hasking hreply hrequest => exact absurd hrequest hne

/-- Bytes of a request arrive. With the last of them the manager gives out a number, and
the reply is on its way. -/
theorem Follows.requested (h : Follows net ledger) {k n : Nat}
    (hk : net.askers[k]? = some asker) (hconn : asker.connected = true) (hpos : 0 < n)
    (hle : n ≤ asker.request.length)
    (hstep : ServerEvent.step (ManagerState.events J) net.server
      (.received asker.socketIndex (asker.request.take n)) = .ok server')
    (hfits : server'.sub.DevicesFit) :
    ∃ ledger', Follows (Network.serve J server'
      { net with askers := net.askers.set k { asker with request := asker.request.drop n } })
      ledger' := by
  have hs := h.stands k asker hk
  obtain ⟨hconnected, hsocket, hfree⟩ := hs.live hconn
  have hne : asker.request ≠ [] := List.ne_nil_of_length_pos (Nat.lt_of_lt_of_le hpos hle)
  have hposs : ServerEvent.Step (ManagerState.events J) net.server
      (.received asker.socketIndex (asker.request.take n)) server' :=
    ⟨⟨by simp [hne, hpos.ne'], _, hconnected⟩, hstep⟩
  have hothers := h.undisturbed hk hconn rfl hstep
  rw [serve_set hothers]
  have htable := socketTable_step h.table hposs
  have hlisted := h.listed.step h.table hposs hfits
  have hint := (counted_step hstep).2 h.countInt
  obtain ⟨hasking, hreply, hrequest, hnumber⟩ := hs.phase.request hconn hne
  rw [← List.take_append_drop n asker.request, ← List.append_assoc] at hrequest
  obtain ⟨sub, hsub, rfl⟩ := receiveData_cases hstep
  by_cases hrest : asker.request.drop n = []
  · -- The manager has the whole request: the broker gets the next number.
    rw [hrest, List.append_nil] at hrequest
    obtain ⟨hbuffer, hcount, hdevices, tail, hlog, hsent⟩ := receivedData_request
      hconnected.1 hsocket h.count h.countInt rfl hrequest hsub
    refine ⟨ledger.grant k, h.set (J := J) hk htable hlisted ?_ hint hothers
      (fun l hl => ledger.grant_of_ne hl) ?_ ?_ ?_⟩
    · rw [Ledger.grant_next]
      exact_mod_cast hcount
    · simp only [Asker.hear, hconn, if_true]
    · exact fun _ => hconn
    · rw [Ledger.grant_self, hlog, List.drop_left]
      simp only [Asker.hear, hconn, if_true, hreply, List.nil_append, hsent]
      refine ⟨fun _ => ⟨hconnected, hsocket, hdevices ▸ hfree⟩, ?_⟩
      exact .answered _ [] (h.count ▸ h.countInt) hasking rfl
        (transmitted_reply (h.count ▸ h.countInt)).sending_ne_nil hrest
  · -- It waits for the rest.
    obtain ⟨hbuffer, hcount, hdevices, tail, hlog, hsilent⟩ := receivedData_front
      transmitted_request rfl hrequest hrest hsub
    refine ⟨ledger, h.set (J := J) hk htable hlisted (hcount.trans h.count) hint hothers
      (fun _ _ => rfl) ?_ ?_ ?_⟩
    · simp only [Asker.hear, hconn, if_true]
    · exact fun _ => hconn
    · rw [hnumber, hlog, List.drop_left]
      simp only [Asker.hear, hconn, if_true, hreply, List.nil_append, hsilent]
      refine ⟨fun _ => ⟨hconnected, hsocket, hdevices ▸ hfree⟩, ?_⟩
      exact .waiting hasking rfl fun _ => ⟨by rw [hbuffer, hrequest], hrest⟩

/-- Bytes of a reply arrive. With the last of them the loop of `askIoTIp` ends, and the
asker has its address. -/
theorem Follows.replied (h : Follows net ledger) {k n : Nat}
    (hk : net.askers[k]? = some asker) (hopen : asker.asking.finished = false) {asking : Asking}
    (hround : askRound (asker.reply.take n) asker.asking = .ok asking) :
    Follows ⟨net.server, net.askers.set k
      { asker with reply := asker.reply.drop n, asking := asking }⟩ ledger := by
  have hs := h.stands k asker hk
  refine h.set (J := noJson) hk h.table h.listed h.count h.countInt ?_ (fun _ _ => rfl) rfl
    id ?_
  · intro l other hl _ hconn
    obtain ⟨hconnected, -, hfree⟩ := (h.stands l other hl).live hconn
    exact ⟨.refl hfree, hconnected⟩
  · exact ⟨hs.live, hs.phase.replied hopen hround⟩

/-- A device list entry is not on a free slot. -/
theorem Follows.free (h : Follows net ledger) {i : Nat} (hi : net.server.server.nextSlot = some i) :
    (∀ fd, ¬ net.server.server.Connected i fd) ∧
      ∀ device ∈ net.server.sub.manager.registedDevices, device.socketIndex ≠ i := by
  have hfree : ∀ fd, ¬ net.server.server.Connected i fd := fun fd hconn =>
    hconn.2 (Option.some.inj (hconn.1.symm.trans (getElem?_of_nextSlot hi)))
  refine ⟨hfree, fun device hdevice hslot => ?_⟩
  obtain ⟨fd, during, hconn, -⟩ := h.listed.registry.present device hdevice
  exact hfree fd (hslot ▸ hconn)

/-- A broker that finds a slot waits. -/
theorem Follows.append (h : Follows net ledger) {newAsker : Asker}
    (hslot : ∀ asker ∈ net.askers, asker.connected = true →
      asker.socketIndex ≠ newAsker.socketIndex)
    (hnew : Stands net.server newAsker none) :
    Follows { net with askers := net.askers ++ [newAsker] } ledger := by
  have hcases : ∀ (k : Nat) (a : Asker), (net.askers ++ [newAsker])[k]? = some a →
      net.askers[k]? = some a ∨ (k = net.askers.length ∧ a = newAsker) := by
    intro k a hk
    rcases Nat.lt_or_ge k net.askers.length with hlt | hge
    · rw [List.getElem?_append_left hlt] at hk
      exact .inl hk
    · rw [List.getElem?_append_right hge, List.getElem?_singleton] at hk
      split at hk
      · exact .inr ⟨by omega, (Option.some.inj hk).symm⟩
      · cases hk
  refine
    { table := h.table
      listed := h.listed
      count := h.count
      countInt := h.countInt
      apart := ?_
      stands := ?_
      unlisted := ?_ }
  · intro k l a b hk hl ha hb hsame
    rcases hcases k a hk with hk' | ⟨rfl, rfl⟩
    · rcases hcases l b hl with hl' | ⟨rfl, rfl⟩
      · exact h.apart k l a b hk' hl' ha hb hsame
      · exact absurd hsame (hslot a (List.mem_of_getElem? hk') ha)
    · rcases hcases l b hl with hl' | ⟨rfl, -⟩
      · exact absurd hsame.symm (hslot b (List.mem_of_getElem? hl') hb)
      · rfl
  · intro k a hk
    rcases hcases k a hk with hk | ⟨rfl, rfl⟩
    · exact h.stands k a hk
    · rw [h.unlisted _ le_rfl]
      exact hnew
  · intro k hk
    rw [List.length_append] at hk
    exact h.unlisted k (by omega)

/-- A broker connects, in a slot that nothing has been left in, and is one more asker
without a number. -/
theorem Follows.asked (h : Follows net ledger) {newSocket : Int} {managerIoTIp : Text}
    (hpos : 0 < newSocket) (hnew : (ServerEvent.accepted newSocket).Possible net.server)
    (hfresh : FreshSlot net.server (.accepted newSocket)) {net' : Network}
    (hstep : net.ask J newSocket managerIoTIp = .ok net') (hfits : net'.server.sub.DevicesFit) :
    ∃ ledger', Follows net' ledger' := by
  rw [Network.ask, ipRequest_eq, ok_bind] at hstep
  obtain ⟨server', hserver, hstep⟩ := bind_ok_iff.mp hstep
  have hposs : (ServerEvent.accepted newSocket).Step (ManagerState.events J) net.server server' :=
    ⟨hnew, hserver⟩
  have hsame : net'.server = server' := by
    dsimp only at hstep
    split at hstep
    · obtain rfl := Except.ok.inj hstep
      rfl
    · obtain rfl := Except.ok.inj hstep
      rfl
  obtain ⟨ledger', hserved, haskers, hgiven⟩ := h.serve (J := J) server'
    (socketTable_step h.table hposs) (h.listed.step h.table hposs (hsame ▸ hfits))
    (counted_step hserver) fun asker hmem => by
      obtain ⟨number, hs⟩ := h.stands_of_mem hmem
      exact hs.undisturbed_step h.table (by simp [ServerEvent.slot?]) hserver
  dsimp only at hstep
  split at hstep
  · obtain rfl := Except.ok.inj hstep
    exact ⟨ledger', hserved⟩
  · rename_i i hnext
    obtain rfl := Except.ok.inj hstep
    obtain ⟨hfree, hdevices⟩ := h.free hnext
    refine ⟨ledger', hserved.append ?_ ?_⟩
    · rw [haskers]
      rintro asker hmem hconn rfl
      obtain ⟨number, hs⟩ := h.stands_of_mem hmem
      exact hfree _ (hs.live hconn).1
    · have h0 := getElem?_of_nextSlot hnext
      rcases acceptConnection_cases hserver with ⟨hnone, -⟩ | ⟨j, sub, hj, hsub, rfl⟩
      · exact absurd h0 (hnone i)
      · obtain rfl := Option.some.inj (hj.symm.trans hnext)
        obtain ⟨socket, -, hsub⟩ := bind_ok_iff.mp hsub
        obtain rfl := Except.ok.inj hsub
        have hconnected : (net.server.server.fillSlot j newSocket).Connected j newSocket :=
          (connected_fillSlot_iff h0 hpos.ne' j newSocket).mpr (.inl ⟨rfl, rfl⟩)
        refine ⟨fun _ => ⟨hconnected, hpos, hdevices⟩, .waiting rfl rfl fun _ => ⟨?_, ?_⟩⟩
        · exact congrArg (· ++ _) (hfresh j hnext)
        · exact transmitted_request.sending_ne_nil

/-- Something else happens: an event on a slot that no asker is connected in leaves all of
them as they were. -/
theorem Follows.other (h : Follows net ledger) {e : ServerEvent} (hposs : e.Possible net.server)
    (hother : ∀ asker ∈ net.askers, asker.connected = true → e.slot? ≠ some asker.socketIndex)
    (hstep : e.step (ManagerState.events J) net.server = .ok server')
    (hfits : server'.sub.DevicesFit) : ∃ ledger', Follows (net.serve J server') ledger' := by
  obtain ⟨ledger', hserved, -⟩ := h.serve (J := J) server' (socketTable_step h.table ⟨hposs, hstep⟩)
    (h.listed.step h.table ⟨hposs, hstep⟩ hfits) (counted_step hstep) fun asker hmem => by
      obtain ⟨number, hs⟩ := h.stands_of_mem hmem
      exact hs.undisturbed_step h.table (hother asker hmem) hstep
  exact ⟨ledger', hserved⟩

/-- The rules are scanned. The manager may send to devices, which no asker's slot has. -/
theorem Follows.scanned (h : Follows net ledger) {sub : ManagerState}
    (hscan : net.server.sub.scan J net.server.server = .ok sub) :
    ∃ ledger', Follows (net.serve J { net.server with sub := sub }) ledger' := by
  have hdevices := (scan_devices hscan).1
  have hregistry : RegistryOf net.server.server sub := by
    rw [RegistryOf, hdevices]
    obtain ⟨⟨manager, done⟩, hrules, hsub⟩ := bind_ok_iff.mp hscan
    obtain rfl := Except.ok.inj hsub
    refine Registry.append_neutral h.listed.registry
      (forall_mem_cons_effects trivial fun e he => ?_)
    rw [(IoTManager.scanRules_eq hrules).2] at he
    obtain ⟨r, -, -, rfl⟩ := IoTManager.mem_requests_iff.mp he
    trivial
  have hfits : sub.DevicesFit := by
    rw [ManagerState.DevicesFit, hdevices]
    exact h.listed.fits
  obtain ⟨ledger', hserved, -⟩ := h.serve (J := J) { net.server with sub := sub }
    h.table ⟨hfits, hregistry⟩ (counted_scan hscan) fun asker hmem hconn => by
      obtain ⟨number, hs⟩ := h.stands_of_mem hmem
      obtain ⟨hconnected, -, hfree⟩ := hs.live hconn
      exact ⟨leftAlone_scan h.table hconnected hfree hscan, hconnected⟩
  exact ⟨ledger', hserved⟩

/-! ### Runs -/

variable {net' : Network}

/-- **Every event** keeps to the ledger, whoever it belongs to. -/
theorem follows_step {e : NetworkEvent} (h : Follows net ledger) (hposs : e.Possible net)
    (hstep : e.step J net = .ok net') (hfits : net'.server.sub.DevicesFit) :
    ∃ ledger', Follows net' ledger' := by
  cases e with
  | asked newSocket managerIoTIp =>
      obtain ⟨hpos, hnew, hfresh⟩ := hposs
      exact h.asked hpos hnew hfresh hstep hfits
  | requested k n =>
      obtain ⟨asker, hk, hasker⟩ := (Option.any_eq_true _ _).mp hposs
      obtain ⟨hconn, hn⟩ := Bool.and_eq_true_iff.mp hasker
      obtain ⟨hpos, hle⟩ := of_decide_eq_true hn
      simp only [NetworkEvent.step, hk] at hstep
      obtain ⟨server', hserver, hstep⟩ := bind_ok_iff.mp hstep
      obtain rfl := Except.ok.inj hstep
      exact h.requested hk hconn hpos hle hserver hfits
  | replied k n =>
      obtain ⟨asker, hk, hasker⟩ := (Option.any_eq_true _ _).mp hposs
      obtain ⟨hopen, -⟩ := Bool.and_eq_true_iff.mp hasker
      simp only [NetworkEvent.step, hk] at hstep
      obtain ⟨asking, hround, hstep⟩ := bind_ok_iff.mp hstep
      obtain rfl := Except.ok.inj hstep
      exact ⟨ledger, h.replied hk (by simpa using hopen) hround⟩
  | left k =>
      obtain ⟨asker, hk, hconn⟩ := (Option.any_eq_true _ _).mp hposs
      simp only [NetworkEvent.step, hk] at hstep
      obtain ⟨server', hserver, hstep⟩ := bind_ok_iff.mp hstep
      obtain rfl := Except.ok.inj hstep
      exact h.left hk hconn hserver hfits
  | other e =>
      obtain ⟨server', hserver, hstep⟩ := bind_ok_iff.mp hstep
      obtain rfl := Except.ok.inj hstep
      exact h.other hposs.1 hposs.2 hserver hfits
  | scanned =>
      obtain ⟨sub, hscan, hstep⟩ := bind_ok_iff.mp hstep
      obtain rfl := Except.ok.inj hstep
      exact h.scanned hscan

theorem follows_start {listener : Int} {opened : Finset Int} (hstart : Startable listener opened)
    (fdSet : FdSet) (maxClient : Nat) (actionFrequency : Int) :
    Follows ⟨.start fdSet listener maxClient opened (.initial maxClient actionFrequency), []⟩
      .empty where
  table := socketTable_start hstart ..
  listed := ⟨ManagerState.devicesFit_initial maxClient actionFrequency,
    registry_initial rfl actionFrequency⟩
  count := rfl
  countInt := show InInt 0 by decide
  apart := by simp [Apart]
  stands := by simp
  unlisted := fun _ _ => rfl

/-- What an asker has, given its number. -/
theorem IBroker.Phase.asking_cases {buffer : List Byte} (h : Phase buffer asker number) :
    (asker.asking.finished = false ∧ asker.asking.iotIp = [] ∧
        (asker.connected = true → asker.request ≠ [] ∨ asker.reply ≠ [])) ∨
      ∃ n, number = some n ∧ asker.asking.finished = true ∧ asker.asking.iotIp = address n ∧
        asker.asking.managerIoTIp = managerAddress asker.known := by
  cases h with
  | waiting hasking hreply hrequest =>
      exact .inl ⟨by rw [hasking], by rw [hasking], fun hconn => .inl (hrequest hconn).2⟩
  | answered n front hn hasking hreply hne hrequest =>
      exact .inl ⟨by rw [hasking], by rw [hasking], fun _ => .inr hne⟩
  | finished n hasking hreply hrequest =>
      exact .inr ⟨n, rfl, by rw [hasking], by rw [hasking], by rw [hasking]⟩

/-- **The addresses brokers have asked for**, whatever happens and however the bytes
arrive: a broker that has finished has an address the manager has handed out, and no
other broker has it; one that has not finished has none, and something is still on the
way unless its connection has ended. The devices on the list are fewer than an `int`
can tell. -/
theorem askedAddresses_run {fdSet : FdSet} {listener : Int} {opened : Finset Int}
    (hstart : Startable listener opened) {maxClient : Nat} {actionFrequency : Int}
    {es : List NetworkEvent}
    (h : Run (fun net e net' => (e.Possible net ∧ e.step J net = .ok net') ∧
        net'.server.sub.DevicesFit)
      ⟨.start fdSet listener maxClient opened (.initial maxClient actionFrequency), []⟩ es net) :
    (∀ asker ∈ net.askers, asker.asking.finished = true →
      ∃ n : Nat, (n : Int) < net.server.sub.manager.ipCount ∧ asker.asking.iotIp = address n ∧
        asker.asking.managerIoTIp = managerAddress asker.known) ∧
    (∀ (k l : Nat) (asker asker' : Asker), net.askers[k]? = some asker →
      net.askers[l]? = some asker' → asker.asking.finished = true →
      asker'.asking.finished = true → asker.asking.iotIp = asker'.asking.iotIp → k = l) ∧
    ∀ asker ∈ net.askers, asker.asking.finished = false →
      asker.asking.iotIp = [] ∧
        (asker.connected = true → asker.request ≠ [] ∨ asker.reply ≠ []) := by
  obtain ⟨ledger, hfollows⟩ := h.invariant (I := fun net => ∃ ledger, Follows net ledger)
    ⟨_, follows_start hstart fdSet maxClient actionFrequency⟩
    fun _ _ _ ⟨ledger, hfollows⟩ ⟨⟨hposs, hstep⟩, hfits⟩ =>
      follows_step hfollows hposs hstep hfits
  have hcases := fun (k : Nat) (asker : Asker) (hk : net.askers[k]? = some asker) =>
    (hfollows.stands k asker hk).phase.asking_cases
  refine ⟨?_, ?_, ?_⟩
  · intro asker hmem hfinished
    obtain ⟨k, hk⟩ := List.mem_iff_getElem?.mp hmem
    rcases hcases k asker hk with ⟨hopen, -⟩ | ⟨n, hgiven, -, haddress, hmanager⟩
    · rw [hfinished] at hopen
      cases hopen
    · refine ⟨n, ?_, haddress, hmanager⟩
      rw [hfollows.count]
      exact_mod_cast ledger.below hgiven
  · intro k l asker asker' hk hl hfinished hfinished' hsame
    rcases hcases k asker hk with ⟨hopen, -⟩ | ⟨n, hgiven, -, haddress, -⟩
    · rw [hfinished] at hopen
      cases hopen
    rcases hcases l asker' hl with ⟨hopen, -⟩ | ⟨n', hgiven', -, haddress', -⟩
    · rw [hfinished'] at hopen
      cases hopen
    obtain rfl := address_inj (haddress.symm.trans (hsame.trans haddress'))
    exact ledger.distinct hgiven hgiven'
  · intro asker hmem hopen
    obtain ⟨k, hk⟩ := List.mem_iff_getElem?.mp hmem
    rcases hcases k asker hk with ⟨-, hrest⟩ | ⟨n, -, hfinished, -⟩
    · exact hrest
    · rw [hopen] at hfinished
      cases hfinished

end Steps

/-! ### Two brokers -/

/-- Their requests arrive in pieces, one between the other, and one leaves early. -/
def twoAskers : List NetworkEvent :=
  [.asked 5 [], .asked 6 (lit "M"), .requested 0 10, .requested 1 19, .requested 0 9, .scanned,
    .replied 1 28, .replied 0 7, .left 1, .replied 0 21]

theorem askedAddresses_run_two : ∃ net : Network,
    net.askers.map (·.asking.iotIp) = [address 1, address 0] ∧
      ∀ (k l : Nat) (asker asker' : Asker), net.askers[k]? = some asker →
        net.askers[l]? = some asker' → asker.asking.finished = true →
        asker'.asking.finished = true → asker.asking.iotIp = asker'.asking.iotIp → k = l := by
  obtain ⟨net, hnet, hq⟩ := Option.map_eq_some_iff.mp
    (show (execute (fun net e => net.server.sub.DevicesFit ∧ NetworkEvent.Possible net e)
        (fun net e => e.step noJson net)
        ⟨.start (.bits 1024) 3 2 {0, 1, 2} (.initial 2 1000), []⟩ twoAskers).map
          (fun net => (decide net.server.sub.DevicesFit, net.askers.map (·.asking.iotIp)))
      = some (true, [address 1, address 0]) by decide +kernel)
  obtain ⟨hfits, haddresses⟩ := Prod.mk.inj hq
  have hrun := ((run_of_execute hnet).mono fun _ _ _ h =>
    And.intro h.1.1 (And.intro h.1.2 h.2)).after_each (of_decide_eq_true hfits)
  exact ⟨net, haddresses, (askedAddresses_run ⟨by decide, by decide⟩ hrun).2.1⟩

end IoTRepublic
