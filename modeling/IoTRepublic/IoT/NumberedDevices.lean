import IoTRepublic.IoT.StreamSound
import IoTRepublic.Utility.JsonSpec

/-!
# IoTRepublic.IoT.NumberedDevices

Registries of any size.

The messages of devices are JSON texts, so to run a manager on them takes a library
that knows these texts: `jansson` does, for any list of messages. With it a single
client can register as many devices as there are numerals for (`numberedServer_run`):
every registration carries a device ID of its own, and no slot and no address is used
up by it. This is how the sizes are reached at which the manager's `int`s give out.
-/

namespace IoTRepublic

open Cpp JsonUtility IoTUtility IoTManager Transition

/-! ### Messages -/

/-- A string in quotes; nothing in it needs an escape. -/
def quoted (text : Text) : Text := lit "\"" ++ text ++ lit "\""

/-- `json_dumps` on an object of strings in an object of its own. -/
def dumpStrings : Json → Option Text
  | .object [(key, .object members)] =>
    let shown := members.map fun (name, value) =>
      quoted name ++ lit ":" ++ quoted (value.stringValue.getD [])
    some (lit "\x7b" ++ quoted key ++ lit ":\x7b" ++ (shown.intersperse (lit ",")).flatten
      ++ lit "\x7d\x7d")
  | _ => none

/-- A JSON library that knows the texts these messages are written as. -/
def jansson (messages : List JsonRoot) : Jansson where
  loads := fun text => messages.find? fun message => dumpStrings message.value = some text
  dumps := dumpStrings
  isText := fun _ => true

/-- The message a device registers with. -/
def deviceMessage (deviceID : Text) : JsonRoot :=
  .object [(lit "IOTDEV",
    .object [(lit "DeviceID", .string deviceID), (lit "FunctionGroup", .string (lit "UI"))])]

/-- The package that carries a message. -/
def carrying (soIp desIp : Text) (message : JsonRoot) : IoTPackage :=
  sent soIp desIp ((dumpStrings message.value).getD [])

def registration (address deviceID : Text) : IoTPackage :=
  carrying address IoTManager.serverIoTIP (deviceMessage deviceID)

/-! ### Numbered devices -/

/-- The message of a numbered device, as it is written. -/
def numberedText (n : Nat) : Text :=
  lit "\x7b\"IOTDEV\":\x7b\"DeviceID\":\"" ++ showInt n
    ++ lit "\",\"FunctionGroup\":\"UI\"\x7d\x7d"

theorem dumpStrings_numbered (n : Nat) :
    dumpStrings (deviceMessage (showInt n)).value = some (numberedText n) := by
  simp [numberedText, dumpStrings, deviceMessage, JsonRoot.object, quoted, lit, Json.stringValue]

/-- A library that knows some messages, and those of so many numbered devices. -/
def numberedJansson (messages : List JsonRoot) (count : Nat) : Jansson :=
  jansson (messages ++ (List.range count).map fun n : Nat => deviceMessage (showInt n))

/-- The registration of a numbered device, and its entry. All of them come from one
slot and one address. -/
def numbered (n : Nat) : IoTPackage := registration (lit "DEV.0") (showInt n)

def numberedDevice (n : Nat) : IoTDeviceInfo :=
  ⟨lit "DEV.0", lit "UI", showInt n, numberedText n, 0⟩

/-- The first `n` of them. -/
def numberedDevices (n : Nat) : List IoTDeviceInfo := (List.range n).map numberedDevice

theorem length_numberedDevices (n : Nat) : (numberedDevices n).length = n := by
  rw [numberedDevices, List.length_map, List.length_range]

theorem numberedDevices_succ (n : Nat) :
    numberedDevices (n + 1) = numberedDevices n ++ [numberedDevice n] := by
  rw [numberedDevices, List.range_succ, List.map_append]
  rfl

theorem numbered_eq (n : Nat) : numbered n = sent (lit "DEV.0") serverIoTIP (numberedText n) := by
  rw [numbered, registration, carrying, dumpStrings_numbered]
  rfl

theorem ascii_numberedText {n : Nat} : ∀ b ∈ numberedText n, b.toNat < 0x80 ∧ b ≠ 0 := by
  have hfront : ∀ b ∈ lit "\x7b\"IOTDEV\":\x7b\"DeviceID\":\"", b.toNat < 0x80 ∧ b ≠ 0 :=
    forall_mem_of_all (by decide)
  have hback : ∀ b ∈ lit "\",\"FunctionGroup\":\"UI\"\x7d\x7d", b.toNat < 0x80 ∧ b ≠ 0 :=
    forall_mem_of_all (by decide)
  intro b hb
  rcases List.mem_append.mp hb with hb | hb
  · rcases List.mem_append.mp hb with hb | hb
    · exact hfront b hb
    · exact ⟨ascii_of_mem_showInt hb, ne_zero_of_mem_showInt hb⟩
  · exact hback b hb

theorem transmitted_numbered {n : Nat} (hn : n < 2 ^ 31) : Transmitted (numbered n) := by
  rw [numbered_eq]
  have hlength := showInt_length_le (n := n) ⟨by omega, by omega⟩
  have hfront : (lit "\x7b\"IOTDEV\":\x7b\"DeviceID\":\"").length = 23 := by decide
  have hback : (lit "\",\"FunctionGroup\":\"UI\"\x7d\x7d").length = 24 := by decide
  refine transmitted_sent (sendable_of_short (Address.device 0 (by decide)) .manager ?_)
    fun b hb => (ascii_numberedText b hb).1
  rw [numberedText, List.length_append, List.length_append, hfront, hback]
  omega

/-- No other message is written like a numbered one. -/
def NotNumbered (messages : List JsonRoot) : Prop :=
  ∀ message ∈ messages, ∀ n, dumpStrings message.value ≠ some (numberedText n)

theorem loadJsonData_numbered {messages : List JsonRoot} (hother : NotNumbered messages)
    {count n : Nat} (hn : n < count) :
    loadJsonData (numberedJansson messages count) (numberedText n)
      = some (deviceMessage (showInt n)) := by
  have hcStr : cStr (numberedText n) = numberedText n :=
    List.takeWhile_eq_self_iff.mpr fun b hb => by simpa using (ascii_numberedText b hb).2
  have hnone : messages.find? (fun message => dumpStrings message.value = some (numberedText n))
      = none :=
    List.find?_eq_none.mpr fun message hmessage => by simpa using hother message hmessage n
  have hmem : deviceMessage (showInt n)
      ∈ (List.range count).map fun n : Nat => deviceMessage (showInt n) :=
    List.mem_map_of_mem (List.mem_range.mpr hn)
  obtain ⟨message, hmessage⟩ := Option.isSome_iff_exists.mp
    (List.find?_isSome.mpr ⟨_, hmem, by simpa using dumpStrings_numbered n⟩ :
      (((List.range count).map fun n : Nat => deviceMessage (showInt n)).find?
        fun message => dumpStrings message.value = some (numberedText n)).isSome = true)
  -- The number is read off the text.
  obtain ⟨k, -, rfl⟩ := List.mem_map.mp (List.mem_of_find?_eq_some hmessage)
  have htext : dumpStrings (deviceMessage (showInt k)).value = some (numberedText n) := by
    simpa using List.find?_some hmessage
  rw [dumpStrings_numbered, Option.some.injEq, numberedText, numberedText,
    List.append_left_inj, List.append_right_inj] at htext
  rw [loadJsonData, hcStr]
  show (messages ++ _).find? _ = _
  rw [List.find?_append, hnone, Option.none_or, hmessage, htext]

/-- Numerals differ, so the next device is a new one. -/
theorem withoutDevice_numbered {n : Nat} (hn : n < 2 ^ 31) :
    withoutDevice (showInt n) (numberedDevices n) = numberedDevices n := by
  rw [withoutDevice_eq (by rwa [length_numberedDevices])]
  refine List.eraseP_of_forall_not fun d hd => ?_
  obtain ⟨k, hk, rfl⟩ := List.mem_map.mp hd
  rw [List.mem_range] at hk
  rw [decide_eq_true_eq]
  intro hsame
  exact absurd (showInt_natCast_injective hsame) (by omega)

/-! ### Their registration -/

section Registration

variable {messages : List JsonRoot} {count n : Nat}

/-- The list with the numbered device registered. -/
def withNumbered (n : Nat) (devices : List IoTDeviceInfo) : List IoTDeviceInfo :=
  withoutDevice (showInt n) devices ++ [numberedDevice n]

theorem withNumbered_numberedDevices (hn : n < 2 ^ 31) :
    withNumbered n (numberedDevices n) = numberedDevices (n + 1) := by
  rw [withNumbered, withoutDevice_numbered hn, numberedDevices_succ]

/-- The loop keeps every rule, as both ends of each are found among the devices. -/
def KeepsRules (devices : List IoTDeviceInfo) (rules : List RuleInstance) : Prop :=
  ∀ r ∈ rules, addressKnown r.rule.readFrom devices && addressKnown r.rule.writeTo devices

theorem dispatchPackage_numbered (hother : NotNumbered messages) (hn : n < count)
    (server : TcpServer) {s : ManagerState}
    (hrules : KeepsRules (withNumbered n s.manager.registedDevices) s.manager.ruler.rules) :
    ∃ s', s.dispatchPackage (numberedJansson messages count) server 0 (numbered n) = .ok s' ∧
      s'.manager = { s.manager with
        registedDevices := withNumbered n s.manager.registedDevices } := by
  obtain ⟨hdata, hsor, hdes⟩ : (numbered n).dataVector = numberedText n ∧
      (numbered n).sorIp = lit "DEV.0" ∧ (numbered n).desIp = serverIoTIP := by
    rw [numbered_eq]
    exact ⟨rfl, rfl, rfl⟩
  have hid : getValueInFirstObject (some (deviceMessage (showInt n))) (lit "DeviceID")
      = .ok (showInt n) := rfl
  have hgroup : getValueInFirstObject (some (deviceMessage (showInt n))) (lit "FunctionGroup")
      = .ok (lit "UI") := rfl
  have hdescription : exportJsonContent (numberedJansson messages count)
      (deviceMessage (showInt n)) = .ok (numberedText n) :=
    exportJsonContent_ok_iff.mpr (dumpStrings_numbered n)
  have hreload : reloadRules { s.manager with
        registedDevices := withNumbered n s.manager.registedDevices }
      = .ok { s.manager with registedDevices := withNumbered n s.manager.registedDevices } := by
    rw [reloadRules, noticeReloadDeviceList_of_known (Nat.zero_add _) hrules, ok_bind]
    rfl
  have hadded : addNewDevice (numberedJansson messages count) (lit "DEV.0")
      (deviceMessage (showInt n)) 0 s.manager
      = .ok ({ s.manager with registedDevices := withNumbered n s.manager.registedDevices },
          [.registered (numberedDevice n)]) := by
    rw [addNewDevice, hid, ok_bind, hgroup, ok_bind, hdescription, ok_bind]
    exact congrArg (· >>= _) hreload
  have hhandled : handleManagerPackage (numberedJansson messages count) server 0 (numbered n)
      s.manager = .ok ({ s.manager with
        registedDevices := withNumbered n s.manager.registedDevices },
          [.registered (numberedDevice n)]) := by
    unfold handleManagerPackage
    rw [hdata, hsor, loadJsonData_numbered hother hn]
    exact hadded
  have hnew : ¬ ((numbered n).sorIp = lit "0" ∧ (numbered n).desIp = lit "0") := fun h =>
    absurd (hsor.symm.trans h.1) (by decide)
  rw [ManagerState.dispatchPackage, IoTManager.dispatch, if_neg hnew, if_pos hdes, hhandled,
    ok_bind]
  exact ⟨_, rfl, rfl⟩

end Registration

/-! ### A server they have registered with -/

/-- A server with one client, no rules and these devices. -/
structure Serves (devices : List IoTDeviceInfo) (s : ServerState ManagerState) : Prop where
  sockets : s.server.clientSockets = [4]
  buffers : s.sub.manager.packageBuffer = [[]]
  rules : s.sub.manager.ruler.rules = []
  devices : s.sub.manager.registedDevices = devices

section Server

variable {count n : Nat} {actionFrequency : Int}

/-- The client registers one more device. -/
theorem received_numbered (hn : n < count) (hlt : n < 2 ^ 31) {devices : List IoTDeviceInfo}
    {s : ServerState ManagerState} (hs : Serves devices s) :
    ∃ s', (ServerEvent.received 0 (numbered n).dataVectorForSending).Step
        (ManagerState.events (numberedJansson [] count)) s s' ∧
      Serves (withNumbered n devices) s' := by
  have htransmitted := transmitted_numbered hlt
  have hold : s.sub.manager.packageBuffer[0]? = some [] := by
    rw [hs.buffers]
    rfl
  have hrules : KeepsRules (withNumbered n s.sub.manager.registedDevices)
      (s.sub.buffered 0 [] (numbered n).dataVectorForSending).manager.ruler.rules := by
    rw [KeepsRules, ManagerState.buffered]
    dsimp only
    rw [hs.rules]
    exact List.forall_mem_nil _
  have hother : NotNumbered [] := List.forall_mem_nil _
  obtain ⟨s₁, hdispatch, hs₁⟩ := dispatchPackage_numbered hother hn s.server
    (s := s.sub.buffered 0 [] (numbered n).dataVectorForSending) hrules
  have hloop : packageLoop (ManagerState.dispatchPackage (numberedJansson [] count) s.server 0)
      (s.sub.buffered 0 [] (numbered n).dataVectorForSending)
      ([] ++ (numbered n).dataVectorForSending) = .ok (s₁, .lengthIsNotLongEnough, []) := by
    have hget := htransmitted.getCompletedPackage_eq (r := [])
      (by rw [List.append_nil]; exact htransmitted.sending_length_lt)
    have hend : getCompletedPackage [] = .ok (notFound .lengthIsNotLongEnough []) :=
      getCompletedPackage_of_short (by decide)
    rw [List.append_nil] at hget
    rw [List.nil_append, packageLoop_of_some hget, hdispatch, ok_bind, packageLoop_of_none hend]
  have hreceived : s.sub.eventReceivedData (numberedJansson [] count) s.server 0
      (numbered n).dataVectorForSending = .ok (s₁.settled 0 .lengthIsNotLongEnough []) := by
    rw [ManagerState.eventReceivedData_eq hold, hloop, ok_bind]
    rfl
  refine ⟨{ s with sub := s₁.settled 0 .lengthIsNotLongEnough [] }, ⟨?_, ?_⟩, ?_⟩
  · exact ⟨htransmitted.sending_ne_nil, 4, by rw [hs.sockets]; rfl, by decide⟩
  · exact bind_ok_iff.mpr ⟨_, hreceived, rfl⟩
  · refine ⟨hs.sockets, ?_, ?_, ?_⟩
    · rw [ManagerState.settled, hs₁, ManagerState.buffered, hs.buffers]
      rfl
    · rw [ManagerState.settled, hs₁]
      exact hs.rules
    · rw [ManagerState.settled, hs₁]
      exact congrArg (withNumbered n) hs.devices

/-- The client they all come from is accepted. -/
theorem accepted_numbered (count : Nat) (actionFrequency : Int) :
    ∃ s, (ServerEvent.accepted 4).Step (ManagerState.events (numberedJansson [] count))
        (.start (.bits 1024) 3 1 {0, 1, 2} (.initial 1 actionFrequency)) s ∧
      Serves (numberedDevices 0) s :=
  ⟨_, ⟨(by decide : (4 : Int) ∉ ({3, 0, 1, 2} : Finset Int)), rfl⟩, rfl, rfl, rfl, rfl⟩

/-- **A registry can be of any size** there are numerals for. -/
theorem numberedServer_run (actionFrequency : Int) (hcount : count ≤ 2 ^ 31) (hn : n ≤ count) :
    ∃ (es : List ServerEvent) (s : ServerState ManagerState),
      Run (fun s e s' => e.Step (ManagerState.events (numberedJansson [] count)) s s')
        (.start (.bits 1024) 3 1 {0, 1, 2} (.initial 1 actionFrequency)) es s ∧
      Serves (numberedDevices n) s := by
  induction n with
  | zero =>
      obtain ⟨s, hstep, hs⟩ := accepted_numbered count actionFrequency
      exact ⟨_, s, .snoc .nil hstep, hs⟩
  | succ n ih =>
      obtain ⟨es, s, hrun, hs⟩ := ih (by omega)
      obtain ⟨s', hstep, hs'⟩ := received_numbered hn (by omega) hs
      rw [withNumbered_numberedDevices (by omega)] at hs'
      exact ⟨_, s', .snoc hrun hstep, hs'⟩

end Server

end IoTRepublic
