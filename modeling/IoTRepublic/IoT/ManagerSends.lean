import IoTRepublic.IoT.Registration
import IoTRepublic.IoT.RegistrySound

/-!
# IoTRepublic.IoT.ManagerSends

What the manager sends, and on which connections.

The time line has the calls; `sentOn` reads off it the bytes that went out on one
descriptor. What a package or a scan sends goes to the client the package came from
or to devices on the list (`Effect.GoesTo`). So nothing but what a client sends itself
has to do with a client that has no device (`LeftAlone`), and its bytes, its answers
and its slot are its own.

Effects carry the device and the descriptor that were found, but not the bytes of a rule's
packages: those are built again from the rule (`readPackage`, `writePackage`), and the
lemmas about `excuteReadRule` and `excuteWriteRule` say that they are what was sent.
-/

namespace IoTRepublic

open Cpp JsonUtility IoTUtility Transition

namespace IoTManager

variable {J : Jansson} {server : TcpServer}

/-- The package `excuteReadRule` sends: a read request for the rule's component, from the
manager to the device. -/
def readPackage (J : Jansson) (rule : IoTRule) : Except Fault IoTPackage := do
  let cmd ← IoTCommand.ofValues J .readRequest rule.readID rule.readValue
  IoTPackage.ofString IoTPackage.protocolVersion serverIoTIP rule.readFrom cmd.sendedData

/-- The package `excuteWriteRule` sends: the value, as a response from the device the rule
reads to the one it writes. -/
def writePackage (J : Jansson) (rule : IoTRule) (writeValue : Text) : Except Fault IoTPackage := do
  let cmd ← IoTCommand.ofValues J .readResponse rule.writeID writeValue
  IoTPackage.ofString IoTPackage.protocolVersion rule.readFrom rule.writeTo cmd.sendedData

/-- Reading a rule sends this package, and nothing else. -/
theorem excuteReadRule_sends {m : IoTManager} {r r' : RuleInstance} {done : List Effect}
    (h : excuteReadRule J server m r = .ok (r', done)) (hfrom : 0 < r.rule.readFrom.length) :
    ∃ package sent, readPackage J r.rule = .ok package ∧
      sendToDevice server r.rule.readFrom package.dataVectorForSending m = .ok sent ∧
      done = [.readRequested r' sent] := by
  have hr := (excuteReadRule_eq h).1
  have hrule : r'.rule = r.rule := by rw [hr, Ruler.askedRule_rule]
  unfold excuteReadRule at h
  rw [if_pos hfrom] at h
  dsimp only at h
  obtain ⟨cmd, hcmd, h⟩ := bind_ok_iff.mp h
  obtain ⟨package, hpackage, h⟩ := bind_ok_iff.mp h
  obtain ⟨sent, hsent, h⟩ := bind_ok_iff.mp h
  obtain ⟨rfl, rfl⟩ := Prod.mk.inj (Except.ok.inj h)
  rw [hrule] at hcmd hpackage hsent
  refine ⟨package, sent, ?_, hsent, rfl⟩
  rw [readPackage, hcmd, ok_bind, hpackage]

/-- So does writing one. -/
theorem excuteWriteRule_sends {m : IoTManager} {r : RuleInstance} {writeValue : Text}
    {done : List Effect} (h : excuteWriteRule J server m r writeValue = .ok done)
    (hto : 0 < r.rule.writeTo.length) :
    ∃ package sent, writePackage J r.rule writeValue = .ok package ∧
      sendToDevice server r.rule.writeTo package.dataVectorForSending m = .ok sent ∧
      done = [.ruleWritten r writeValue sent] := by
  unfold excuteWriteRule at h
  rw [if_pos hto] at h
  obtain ⟨cmd, hcmd, h⟩ := bind_ok_iff.mp h
  obtain ⟨package, hpackage, h⟩ := bind_ok_iff.mp h
  obtain ⟨sent, hsent, h⟩ := bind_ok_iff.mp h
  refine ⟨package, sent, ?_, hsent, (Except.ok.inj h).symm⟩
  rw [writePackage, hcmd, ok_bind, hpackage]

end IoTManager

open IoTManager

/-! ### The bytes on a descriptor -/

/-- The descriptor an effect has sent on, and the bytes. -/
def Effect.sent (J : Jansson) : Effect → Option (Int × List Byte)
  | answered _ socket buffer => socket.map (·, buffer)
  | registered _ => none
  | forwarded _ socket buffer => socket.map (·, buffer)
  | readRequested ruleInstance target => do
    let package ← (readPackage J ruleInstance.rule).toOption
    let (_, socket) ← target
    return (socket, package.dataVectorForSending)
  | ruleWritten ruleInstance writeValue target => do
    let package ← (writePackage J ruleInstance.rule writeValue).toOption
    let (_, socket) ← target
    return (socket, package.dataVectorForSending)

/-- What one action has sent on a descriptor. -/
def Action.sentOn (J : Jansson) (socket : Int) : Action → List Byte
  | effect e =>
    match e.sent J with
    | some (fd, buffer) => if fd = socket then buffer else []
    | none => []
  | _ => []

/-- What has been sent on a descriptor. -/
def sentOn (J : Jansson) (socket : Int) (log : List Action) : List Byte :=
  log.flatMap (·.sentOn J socket)

section SentOn

variable {J : Jansson} {socket : Int}

@[simp] theorem sentOn_nil : sentOn J socket [] = [] := rfl

@[simp] theorem sentOn_cons (a : Action) (log : List Action) :
    sentOn J socket (a :: log) = a.sentOn J socket ++ sentOn J socket log := rfl

@[simp] theorem sentOn_append (log log' : List Action) :
    sentOn J socket (log ++ log') = sentOn J socket log ++ sentOn J socket log' :=
  List.flatMap_append

end SentOn

/-! ### Where it goes -/

/-- What is sent goes out on one of the slots. -/
def Effect.GoesTo (J : Jansson) (server : TcpServer) (slots : Nat → Prop) (e : Effect) : Prop :=
  ∀ fd buffer, e.sent J = some (fd, buffer) →
    ∃ i, slots i ∧ server.clientSockets[i]? = some fd

/-- The slots a manager sends on when a package has come in on `socketIndex`. -/
def IoTManager.Addressed (m : IoTManager) (socketIndex i : Nat) : Prop :=
  i = socketIndex ∨ ∃ device ∈ m.registedDevices, device.socketIndex = i

namespace IoTManager

variable {J : Jansson} {server : TcpServer} {m m' : IoTManager} {done : List Effect}

theorem target_slot {iotIp : Text} {device : IoTDeviceInfo} {fd : Int}
    (h : target server iotIp m = some (device, fd)) :
    device ∈ m.registedDevices ∧ server.clientSockets[device.socketIndex]? = some fd := by
  obtain ⟨targetIndex, -, h⟩ := Option.bind_eq_some_iff.mp h
  obtain ⟨device', hdevice, h⟩ := Option.bind_eq_some_iff.mp h
  obtain ⟨socket, hsocket, h⟩ := Option.bind_eq_some_iff.mp h
  split at h
  · obtain ⟨rfl, rfl⟩ := Prod.mk.inj (Option.some.inj h)
    exact ⟨List.mem_of_getElem? hdevice, hsocket⟩
  · cases h

theorem goesTo_answered {i : Nat} {socket : Option Int} {buffer : List Byte} {slots : Nat → Prop}
    (hsent : server.sendDataToExistsConnection i buffer = .ok socket) (hi : slots i) :
    (Effect.answered i socket buffer).GoesTo J server slots := by
  intro fd bytes h
  obtain ⟨fd', rfl, heq⟩ := Option.map_eq_some_iff.mp h
  obtain ⟨rfl, -⟩ := Prod.mk.inj heq
  exact ⟨i, hi, getElem?_of_sent hsent⟩

theorem goesTo_ruleWritten {r : RuleInstance} {writeValue iotIp : Text}
    {sent : Option (IoTDeviceInfo × Int)} (hsent : ∀ t ∈ sent, target server iotIp m = some t)
    {socketIndex : Nat} :
    (Effect.ruleWritten r writeValue sent).GoesTo J server (m.Addressed socketIndex) := by
  intro fd bytes h
  obtain ⟨package, -, h⟩ := Option.bind_eq_some_iff.mp h
  obtain ⟨⟨device, fd'⟩, ht, h⟩ := Option.bind_eq_some_iff.mp h
  obtain ⟨rfl, -⟩ := Prod.mk.inj (Option.some.inj h)
  obtain ⟨hmem, hslot⟩ := target_slot (hsent _ ht)
  exact ⟨device.socketIndex, .inr ⟨device, hmem, rfl⟩, hslot⟩

theorem excuteWriteRule_goesTo {r : RuleInstance} {writeValue : Text}
    (h : excuteWriteRule J server m r writeValue = .ok done) {socketIndex : Nat} :
    ∀ e ∈ done, e.GoesTo J server (m.Addressed socketIndex) := by
  by_cases hto : 0 < r.rule.writeTo.length
  · obtain ⟨package, sent, -, hsent, rfl⟩ := excuteWriteRule_sends h hto
    intro e he
    obtain rfl := List.mem_singleton.mp he
    exact goesTo_ruleWritten fun t ht => (sendToDevice_eq_target hsent).symm.trans ht
  · rw [excuteWriteRule, if_neg hto] at h
    obtain rfl := Except.ok.inj h
    intro e he
    obtain rfl := List.mem_singleton.mp he
    have hnone : ∀ t ∈ (none : Option (IoTDeviceInfo × Int)),
        target server r.rule.writeTo m = some t := nofun
    exact goesTo_ruleWritten hnone

theorem handleRulePackage_goesTo {package : IoTPackage}
    (h : handleRulePackage J server package m = .ok (m', done)) {socketIndex : Nat} :
    ∀ e ∈ done, e.GoesTo J server (m.Addressed socketIndex) := by
  obtain ⟨⟨ruler, done'⟩, hruler, h⟩ := bind_ok_iff.mp h
  obtain ⟨rfl, rfl⟩ := Prod.mk.inj (Except.ok.inj h)
  cases Ruler.handleRulePackage_cases hruler with
  | ignored hsame hdone => simp [hdone]
  | added rule hadd hdone => simp [hdone]
  | command cmd rules hroot hcmd hrules hrest =>
      rcases Ruler.handleRulerCommand_cases hrules with
        ⟨-, -, rfl⟩ | ⟨_, _, _, -, -, -, -, hwrite⟩
      · simp
      · exact excuteWriteRule_goesTo hwrite

/-- A package for the manager hands out no address. -/
theorem handleManagerPackage_sends {socketIndex : Nat} {package : IoTPackage}
    (h : handleManagerPackage J server socketIndex package m = .ok (m', done)) :
    m'.ipCount = m.ipCount ∧ ∀ e ∈ done, e.GoesTo J server (m.Addressed socketIndex) := by
  have hrule : ∀ {m' done}, handleRulePackage J server package m = .ok (m', done) →
      m'.ipCount = m.ipCount ∧ ∀ e ∈ done, e.GoesTo J server (m.Addressed socketIndex) := by
    intro m' done h
    refine ⟨?_, handleRulePackage_goesTo h⟩
    obtain ⟨⟨ruler, done'⟩, -, h⟩ := bind_ok_iff.mp h
    obtain ⟨rfl, -⟩ := Prod.mk.inj (Except.ok.inj h)
    rfl
  unfold handleManagerPackage at h
  split at h
  · obtain ⟨rfl, rfl⟩ := Prod.mk.inj (Except.ok.inj h)
    exact ⟨rfl, by simp⟩
  obtain ⟨rootName, -, h⟩ := bind_ok_iff.mp h
  split at h
  · obtain ⟨deviceID, -, h⟩ := bind_ok_iff.mp h
    obtain ⟨functionGroup, -, h⟩ := bind_ok_iff.mp h
    obtain ⟨deviceDescription, -, h⟩ := bind_ok_iff.mp h
    dsimp only at h
    obtain ⟨m₁, hm₁, h⟩ := bind_ok_iff.mp h
    obtain ⟨rfl, rfl⟩ := Prod.mk.inj (Except.ok.inj h)
    obtain ⟨rules, -, rfl⟩ := reloadRules_eq hm₁
    refine ⟨rfl, fun e he fd buffer hsent => ?_⟩
    obtain rfl := List.mem_singleton.mp he
    cases hsent
  split at h
  · obtain ⟨cmd, -, h⟩ := bind_ok_iff.mp h
    unfold commandHandler at h
    split at h
    · obtain ⟨buffer, -, h⟩ := bind_ok_iff.mp h
      obtain ⟨sendPackage, -, h⟩ := bind_ok_iff.mp h
      obtain ⟨socket, hsent, h⟩ := bind_ok_iff.mp h
      obtain ⟨rfl, rfl⟩ := Prod.mk.inj (Except.ok.inj h)
      exact ⟨rfl, fun e he => List.mem_singleton.mp he ▸ goesTo_answered hsent (.inl rfl)⟩
    · exact hrule h
  split at h
  · exact hrule h
  · obtain ⟨rfl, rfl⟩ := Prod.mk.inj (Except.ok.inj h)
    exact ⟨rfl, by simp⟩

/-- A package passed on goes to a device. -/
theorem forwardPackage_sends {socketIndex : Nat} {package : IoTPackage}
    (h : forwardPackage server package m = .ok (m', done)) :
    m' = m ∧ ∀ e ∈ done, e.GoesTo J server (m.Addressed socketIndex) := by
  unfold forwardPackage at h
  split at h
  · obtain ⟨rfl, rfl⟩ := Prod.mk.inj (Except.ok.inj h)
    exact ⟨rfl, by simp⟩
  · obtain ⟨device, hdevice, h⟩ := bind_ok_iff.mp h
    obtain ⟨socket, hsent, h⟩ := bind_ok_iff.mp h
    obtain ⟨rfl, rfl⟩ := Prod.mk.inj (Except.ok.inj h)
    refine ⟨rfl, fun e he fd buffer hfd => ?_⟩
    obtain rfl := List.mem_singleton.mp he
    obtain ⟨fd', rfl, heq⟩ := Option.map_eq_some_iff.mp hfd
    obtain ⟨rfl, -⟩ := Prod.mk.inj heq
    have hmem := List.mem_of_getElem? (vectorAt_ok_iff.mp hdevice).2
    exact ⟨device.socketIndex, .inr ⟨device, hmem, rfl⟩, getElem?_of_sent hsent⟩

/-- **A package** is answered, or sends something to devices on the list. -/
theorem dispatch_goesTo {socketIndex : Nat} {package : IoTPackage}
    (h : dispatch J server socketIndex package m = .ok (m', done)) :
    ∀ e ∈ done, e.GoesTo J server (m.Addressed socketIndex) := by
  unfold dispatch at h
  split at h
  · obtain ⟨⟨newIp, m₁⟩, -, h⟩ := bind_ok_iff.mp h
    obtain ⟨responsePackage, -, h⟩ := bind_ok_iff.mp h
    obtain ⟨socket, hsent, h⟩ := bind_ok_iff.mp h
    obtain ⟨-, rfl⟩ := Prod.mk.inj (Except.ok.inj h)
    exact fun e he => List.mem_singleton.mp he ▸ goesTo_answered hsent (.inl rfl)
  split at h
  · exact (handleManagerPackage_sends h).2
  · exact (forwardPackage_sends h).2

/-- The count of addresses goes up, if at all, and stays an `int`. -/
theorem dispatch_ipCount {socketIndex : Nat} {package : IoTPackage}
    (h : dispatch J server socketIndex package m = .ok (m', done)) :
    m.ipCount ≤ m'.ipCount ∧ (InInt m.ipCount → InInt m'.ipCount) := by
  unfold dispatch at h
  split at h
  · obtain ⟨⟨newIp, m₁⟩, hnew, h⟩ := bind_ok_iff.mp h
    obtain ⟨ipCount, hcount, hnew⟩ := bind_ok_iff.mp hnew
    obtain ⟨rfl, rfl⟩ := Prod.mk.inj (Except.ok.inj hnew)
    obtain ⟨responsePackage, -, h⟩ := bind_ok_iff.mp h
    obtain ⟨socket, -, h⟩ := bind_ok_iff.mp h
    obtain ⟨rfl, -⟩ := Prod.mk.inj (Except.ok.inj h)
    obtain ⟨hint, rfl⟩ := addInt_ok_iff.mp hcount
    refine ⟨?_, fun _ => hint⟩
    dsimp only
    omega
  split at h
  · rw [(handleManagerPackage_sends h).1]
    exact ⟨le_refl _, id⟩
  · have hsame : m' = m ∧ ∀ e ∈ done, e.GoesTo J server (m.Addressed socketIndex) :=
      forwardPackage_sends h
    rw [hsame.1]
    exact ⟨le_refl _, id⟩

/-- **A scan** asks devices on the list. -/
theorem scanRules_goesTo (h : scanRules J server m = .ok (m', done)) :
    ∀ e ∈ done, e.GoesTo J server fun i =>
      ∃ device ∈ m.registedDevices, device.socketIndex = i := by
  obtain ⟨-, rfl⟩ := scanRules_eq h
  intro e he fd buffer hsent
  obtain ⟨r, -, -, rfl⟩ := mem_requests_iff.mp he
  obtain ⟨package, -, hsent⟩ := Option.bind_eq_some_iff.mp hsent
  obtain ⟨⟨device, fd'⟩, ht, hsent⟩ := Option.bind_eq_some_iff.mp hsent
  obtain ⟨rfl, -⟩ := Prod.mk.inj (Option.some.inj hsent)
  obtain ⟨hmem, hslot⟩ := target_slot ht
  exact ⟨device.socketIndex, ⟨device, hmem, rfl⟩, hslot⟩

end IoTManager

/-- Nothing goes out on the descriptor of a slot that is not among them. -/
theorem sentOn_eq_nil {J : Jansson} {server : TcpServer} {opened : Finset Int}
    (ht : SocketTable server opened) {i : Nat} {fd : Int} (hi : server.Connected i fd)
    {slots : Nat → Prop} (hslots : ¬ slots i) {done : List Effect}
    (hdone : ∀ e ∈ done, e.GoesTo J server slots) : sentOn J fd (done.map .effect) = [] := by
  refine List.flatMap_eq_nil_iff.mpr fun a ha => ?_
  obtain ⟨e, he, rfl⟩ := List.mem_map.mp ha
  simp only [Action.sentOn]
  split
  · rename_i fd' buffer hsent
    rw [if_neg]
    rintro rfl
    obtain ⟨j, hj, hslot⟩ := hdone e he _ _ hsent
    exact hslots (ht.distinct j i fd' ⟨hslot, hi.2⟩ hi ▸ hj)
  · rfl

/-! ### Other clients -/

/-- Nothing has come in on slot `i`, nothing has been sent to it, and no device has
been registered on it. -/
structure LeftAlone (J : Jansson) (i : Nat) (fd : Int) (s s' : ManagerState) : Prop where
  buffer : s'.manager.packageBuffer.getD i [] = s.manager.packageBuffer.getD i []
  unregistered : ∀ device ∈ s'.manager.registedDevices, device.socketIndex ≠ i
  silent : ∃ tail, s'.log = s.log ++ tail ∧ sentOn J fd tail = []

namespace LeftAlone

variable {J : Jansson} {i : Nat} {fd : Int} {s s₁ s' : ManagerState}

theorem refl (hfree : ∀ device ∈ s.manager.registedDevices, device.socketIndex ≠ i) :
    LeftAlone J i fd s s := ⟨rfl, hfree, [], by simp, rfl⟩

theorem trans (h : LeftAlone J i fd s s₁) (h' : LeftAlone J i fd s₁ s') :
    LeftAlone J i fd s s' := by
  obtain ⟨tail, hlog, hsilent⟩ := h.silent
  obtain ⟨tail', hlog', hsilent'⟩ := h'.silent
  refine ⟨h'.buffer.trans h.buffer, h'.unregistered, tail ++ tail', ?_, ?_⟩
  · rw [hlog', hlog, List.append_assoc]
  · rw [sentOn_append, hsilent, hsilent', List.append_nil]

end LeftAlone

section Others

variable {J : Jansson} {server : TcpServer} {opened : Finset Int} {i k : Nat} {fd : Int}
  {s s' : ManagerState}

theorem leftAlone_dispatchPackage (ht : SocketTable server opened) (hi : server.Connected i fd)
    (hfree : ∀ device ∈ s.manager.registedDevices, device.socketIndex ≠ i) (hk : k ≠ i)
    {package : IoTPackage} (h : s.dispatchPackage J server k package = .ok s') :
    LeftAlone J i fd s s' := by
  have hbuffer := (ManagerState.dispatchPackage_frame h).1
  have hdevices := dispatchPackage_forall_devices (P := fun device => device.socketIndex ≠ i) h
    hfree fun root device _ hregisters => hregisters.slot ▸ hk
  obtain ⟨⟨manager, done⟩, hdispatch, h⟩ := bind_ok_iff.mp h
  obtain rfl := Except.ok.inj h
  refine ⟨by rw [hbuffer], hdevices, _, rfl, ?_⟩
  have hgoes := dispatch_goesTo hdispatch
  refine sentOn_eq_nil ht hi ?_ hgoes
  rintro (rfl | ⟨device, hmem, hslot⟩)
  · exact hk rfl
  · exact hfree device hmem hslot

theorem leftAlone_receivedData (ht : SocketTable server opened) (hi : server.Connected i fd)
    (hfree : ∀ device ∈ s.manager.registedDevices, device.socketIndex ≠ i) (hk : k ≠ i)
    {chunk : List Byte} (h : s.eventReceivedData J server k chunk = .ok s') :
    LeftAlone J i fd s s' := by
  obtain ⟨old, hold, -⟩ := bind_ok_iff.mp h
  rw [ManagerState.eventReceivedData_eq (vectorAt_nat_ok_iff.mp hold)] at h
  obtain ⟨⟨s₁, error, rest⟩, hloop, h⟩ := bind_ok_iff.mp h
  obtain rfl := Except.ok.inj h
  have hbuffered : LeftAlone J i fd s (s.buffered k old chunk) := by
    refine ⟨?_, hfree, _, rfl, rfl⟩
    simp only [ManagerState.buffered, List.getD_eq_getElem?_getD, List.getElem?_set_ne hk]
  have hs₁ : LeftAlone J i fd s s₁ := packageLoop_invariant (I := fun t => LeftAlone J i fd s t)
    (fun _ _ _ ht₁ h => ht₁.trans (leftAlone_dispatchPackage ht hi ht₁.unregistered hk h))
    hbuffered hloop
  refine hs₁.trans ⟨?_, hs₁.unregistered, ?_⟩
  · simp only [ManagerState.settled, List.getD_eq_getElem?_getD, List.getElem?_set_ne hk]
  · simp only [ManagerState.settled]
    split
    · exact ⟨_, rfl, rfl⟩
    · exact ⟨[], by simp, rfl⟩

theorem leftAlone_newConnection {server : TcpServer}
    (hfree : ∀ device ∈ s.manager.registedDevices, device.socketIndex ≠ i)
    (h : s.eventNewConnection server k = .ok s') : LeftAlone J i fd s s' := by
  obtain ⟨socket, -, h⟩ := bind_ok_iff.mp h
  obtain rfl := Except.ok.inj h
  exact ⟨rfl, hfree, _, rfl, rfl⟩

theorem leftAlone_connectionDenied
    (hfree : ∀ device ∈ s.manager.registedDevices, device.socketIndex ≠ i)
    (h : s.eventConnectionDenied k = .ok s') : LeftAlone J i fd s s' := by
  obtain ⟨rules, -, rfl⟩ := ManagerState.eventConnectionDenied_cases h
  exact ⟨rfl, fun device hd =>
    hfree device ((IoTManager.removeDeviceBySocketIndex_sublist _ _).subset hd), _, rfl, rfl⟩

theorem leftAlone_scan (ht : SocketTable server opened) (hi : server.Connected i fd)
    (hfree : ∀ device ∈ s.manager.registedDevices, device.socketIndex ≠ i)
    (h : s.scan J server = .ok s') : LeftAlone J i fd s s' := by
  have hdevices := (scan_devices h).1
  obtain ⟨⟨manager, done⟩, hscan, h⟩ := bind_ok_iff.mp h
  obtain rfl := Except.ok.inj h
  have hbuffer : manager.packageBuffer = s.manager.packageBuffer := by rw [(scanRules_eq hscan).1]
  refine ⟨by rw [hbuffer], fun device hd => hfree device (hdevices ▸ hd), _, rfl, ?_⟩
  refine sentOn_eq_nil ht hi ?_ (scanRules_goesTo hscan)
  rintro ⟨device, hmem, hslot⟩
  exact hfree device hmem hslot

/-- The slot of the connection an event is about; an accepted one has none yet. -/
def ServerEvent.slot? : ServerEvent → Option Nat
  | accepted _ => none
  | received socketIndex _ => some socketIndex
  | disconnected socketIndex => some socketIndex

/-- **Every event of another connection** leaves the one in slot `i` alone. -/
theorem leftAlone_step {s s' : ServerState ManagerState} {e : ServerEvent}
    (ht : SocketTable s.server s.opened) (hi : s.server.Connected i fd)
    (hfree : ∀ device ∈ s.sub.manager.registedDevices, device.socketIndex ≠ i)
    (hother : e.slot? ≠ some i)
    (h : e.step (ManagerState.events J) s = .ok s') :
    LeftAlone J i fd s.sub s'.sub ∧ s'.server.Connected i fd := by
  cases e with
  | accepted newSocket =>
      rcases acceptConnection_cases h with ⟨-, rfl⟩ | ⟨k, sub, hnext, hsub, rfl⟩
      · exact ⟨.refl hfree, hi⟩
      · refine ⟨leftAlone_newConnection hfree hsub, ?_⟩
        have hk : k ≠ i := by
          rintro rfl
          exact hi.2 (Option.some.inj (hi.1.symm.trans (getElem?_of_nextSlot hnext)))
        refine ⟨?_, hi.2⟩
        rw [TcpServer.fillSlot, List.getElem?_set_ne hk]
        exact hi.1
  | received k chunk =>
      obtain ⟨sub, hsub, rfl⟩ := receiveData_cases h
      exact ⟨leftAlone_receivedData ht hi hfree (fun hk => hother (congrArg some hk)) hsub, hi⟩
  | disconnected k =>
      obtain ⟨x, sub, -, hsub, rfl⟩ := cutConnection_cases h
      refine ⟨leftAlone_connectionDenied hfree hsub, ?_⟩
      exact (connected_freeSlot_iff i fd).mpr ⟨fun hk => hother (congrArg some hk.symm), hi⟩

end Others

/-! ### The count of addresses -/

/-- The count goes up, if at all, and stays an `int`. -/
def Counted (s s' : ManagerState) : Prop :=
  s.manager.ipCount ≤ s'.manager.ipCount ∧ (InInt s.manager.ipCount → InInt s'.manager.ipCount)

section Count

variable {J : Jansson} {s s₁ s' : ManagerState}

theorem Counted.of_eq (h : s'.manager.ipCount = s.manager.ipCount) : Counted s s' :=
  ⟨h.ge, fun hint => h ▸ hint⟩

theorem Counted.trans (h : Counted s s₁) (h' : Counted s₁ s') : Counted s s' :=
  ⟨h.1.trans h'.1, fun hint => h'.2 (h.2 hint)⟩

theorem counted_receivedData {server : TcpServer} {k : Nat} {chunk : List Byte}
    (h : s.eventReceivedData J server k chunk = .ok s') : Counted s s' := by
  obtain ⟨old, hold, -⟩ := bind_ok_iff.mp h
  rw [ManagerState.eventReceivedData_eq (vectorAt_nat_ok_iff.mp hold)] at h
  obtain ⟨⟨s₁, error, rest⟩, hloop, h⟩ := bind_ok_iff.mp h
  obtain rfl := Except.ok.inj h
  have hs₁ : Counted s s₁ := by
    have hbuffered : Counted s (s.buffered k old chunk) := .of_eq rfl
    refine packageLoop_invariant (I := fun t => Counted s t) ?_ hbuffered hloop
    intro package t t' hkept ht
    obtain ⟨⟨manager, done⟩, hdispatch, ht⟩ := bind_ok_iff.mp ht
    obtain rfl := Except.ok.inj ht
    exact hkept.trans (dispatch_ipCount hdispatch)
  exact hs₁.trans (.of_eq rfl)

theorem counted_step {s s' : ServerState ManagerState} {e : ServerEvent}
    (h : e.step (ManagerState.events J) s = .ok s') : Counted s.sub s'.sub := by
  cases e with
  | accepted newSocket =>
      rcases acceptConnection_cases h with ⟨-, rfl⟩ | ⟨k, sub, hnext, hsub, rfl⟩
      · exact .of_eq rfl
      · obtain ⟨socket, -, hsub⟩ := bind_ok_iff.mp hsub
        obtain rfl := Except.ok.inj hsub
        exact .of_eq rfl
  | received k chunk =>
      obtain ⟨sub, hsub, rfl⟩ := receiveData_cases h
      exact counted_receivedData hsub
  | disconnected k =>
      obtain ⟨x, sub, -, hsub, rfl⟩ := cutConnection_cases h
      obtain ⟨rules, -, rfl⟩ := ManagerState.eventConnectionDenied_cases hsub
      exact .of_eq rfl

theorem counted_scan {server : TcpServer} (h : s.scan J server = .ok s') : Counted s s' := by
  obtain ⟨⟨manager, done⟩, hscan, h⟩ := bind_ok_iff.mp h
  obtain rfl := Except.ok.inj h
  exact .of_eq (by rw [(scanRules_eq hscan).1])

end Count

end IoTRepublic
