import IoTRepublic.Broker.XBeeReceiveSound
import IoTRepublic.Broker.XBeeSendSound
import IoTRepublic.IoT.MessageSound
import IoTRepublic.IoT.PackageSound

/-!
# IoTRepublic.Broker.XBeeForwardSound

What a device's reply becomes on its way to the manager.

The first and the last byte of the reply are dropped unseen, and what is left is
written into a JSON string, which holds UTF-8 only.

`Collected` is where a reply comes from: the command was read from the package, the device
was found, the request was written and `getResponse` returned this buffer. From there on
`reportsFramed_iff` is exact, and its condition has three parts for the three things that
happen to a reply: two bytes at least, or the iterators cross; the codes at both ends, or
other bytes are dropped in their place; and text in between, or the printer fails and the
default value is sent. Where no package can be built at all, nothing wrong is sent either
(`Sends`).
-/

namespace IoTRepublic

open Cpp JsonUtility

/-! ### The constructors of a package -/

section Defined

variable {α β : Type} {x : Except Fault α} {f : α → Except Fault β}

/-- A sequence of calls is defined when each of them is. -/
theorem bind_ne_undefinedBehaviour (hx : x ≠ .error .undefinedBehaviour)
    (hf : ∀ a, f a ≠ .error .undefinedBehaviour) : x >>= f ≠ .error .undefinedBehaviour := by
  intro h
  cases bind_error_iff.mp h with
  | inl h => exact hx h
  | inr h =>
      obtain ⟨a, -, h⟩ := h
      exact hf a h

theorem addInt_ne_undefinedBehaviour (a b : Int) : addInt a b ≠ .error .undefinedBehaviour := by
  unfold addInt
  split <;> simp

theorem reserve_ne_undefinedBehaviour (n : Int) : reserve n ≠ .error .undefinedBehaviour := by
  unfold reserve
  split <;> simp

end Defined

namespace IoTPackage

theorem computeHeaderLength_ne_undefinedBehaviour (ver soIp desIp : Text) (dataLength : Int) :
    computeHeaderLength ver soIp desIp dataLength ≠ .error .undefinedBehaviour := by
  have htwo (h k : Int) : (addInt h k >>= fun g => addInt g 1) ≠ .error .undefinedBehaviour :=
    bind_ne_undefinedBehaviour (addInt_ne_undefinedBehaviour _ _) fun _ =>
      addInt_ne_undefinedBehaviour _ _
  unfold computeHeaderLength
  dsimp only
  split
  · exact htwo _ 1
  · split
    · exact htwo _ 2
    · exact htwo _ 3

/-- A constructor raises an exception or overflows; nothing else goes wrong in it. -/
theorem ofVector_ne_undefinedBehaviour (ver soIp desIp : Text) (data : List Byte) :
    ofVector ver soIp desIp (some data) ≠ .error .undefinedBehaviour := by
  unfold ofVector
  refine bind_ne_undefinedBehaviour (computeHeaderLength_ne_undefinedBehaviour _ _ _ _) ?_
  intro headerLength
  unfold packetToSendingVector
  refine bind_ne_undefinedBehaviour (addInt_ne_undefinedBehaviour _ _) fun _ => ?_
  refine bind_ne_undefinedBehaviour (addInt_ne_undefinedBehaviour _ _) fun _ => ?_
  refine bind_ne_undefinedBehaviour (reserve_ne_undefinedBehaviour _) fun _ => ?_
  show (atRange data 0 (toInt data.length) >>= _) ≠ _
  rw [atRange_toInt]
  exact bind_ne_undefinedBehaviour (by simp) (by simp)

end IoTPackage

namespace XBeeBrokerApiMode

variable {J : Jansson} {xbeeDevices : List DeviceInfo} {package : IoTPackage}
  {reads : List XBeeRead} {cmd : IoTCommand} {res : RecvResult} {buffer : List Byte}

/-- The bytes that are left of a reply when its first and its last one are dropped,
whatever these are. -/
def between (buffer : List Byte) : List Byte := (buffer.drop 1).dropLast

/-- A command for a device of this broker has been sent to it, and this is what has
come back. -/
structure Collected (J : Jansson) (xbeeDevices : List DeviceInfo) (package : IoTPackage)
    (reads : List XBeeRead) (cmd : IoTCommand) (res : RecvResult) (buffer : List Byte) : Prop where
  command : IoTCommand.ofContent J package.dataVector = .ok cmd
  sent : ∃ device, 0 ≤ findDeviceIndex xbeeDevices package.desIp ∧
    vectorAt xbeeDevices (findDeviceIndex xbeeDevices package.desIp) = .ok device ∧
    Returns (sendData device.address cmd.id)
  response : getResponse [] reads = .ok (some (res, buffer))

/-- What is sent to the manager is what has come between the codes. -/
structure ReportsFramed (J : Jansson) (xbeeDevices : List DeviceInfo) (package : IoTPackage)
    (reads : List XBeeRead) (buffer : List Byte) : Prop where
  defined : handleForwardingPackage J xbeeDevices package reads ≠ .error .undefinedBehaviour
  framed {packages : List IoTPackage} {response : IoTPackage}
    (hsent : handleForwardingPackage J xbeeDevices package reads = .ok (some packages))
    (hresponse : response ∈ packages) :
    ∃ command, IoTCommand.ofContent J response.dataVector = .ok command ∧
      buffer = startCode :: command.value ++ [endCode]

/-- The response can be built and fits a package. Otherwise the constructor throws, and
the manager is told nothing. -/
def Sends (J : Jansson) (package : IoTPackage) (cmd : IoTCommand) (buffer : List Byte) : Prop :=
  ∃ command, IoTCommand.ofValues J .readResponse cmd.id (between buffer) = .ok command ∧
    IoTPackage.Packable package.ver package.desIp package.sorIp command.sendedData

/-- The reply is framed, and what it frames can be a JSON value. This is what the manager
is told rightly. -/
def Reportable (buffer : List Byte) : Prop := Framed buffer ∧ IsJsonString (between buffer)

theorem handleForwardingPackage_eq
    (h : Collected J xbeeDevices package reads cmd res buffer) :
    handleForwardingPackage J xbeeDevices package reads = (do
      let packages ← forwardResponse J package cmd res buffer
      return some packages) := by
  obtain ⟨device, hindex, hdevice, written, hwritten⟩ := h.sent
  rw [handleForwardingPackage, h.command, ok_bind]
  show (if _ then _ else _) = _
  rw [if_pos hindex, hdevice, ok_bind, hwritten, ok_bind, h.response, ok_bind]

/-! ### The response -/

theorem forwardResponse_of_not (h : ¬ (res = .succeed ∧ 0 < buffer.length)) :
    forwardResponse J package cmd res buffer = .ok [] := if_neg h

/-- For a reply of one byte the iterators cross: the begin of the copy is behind its
end. -/
theorem forwardResponse_of_single (h : buffer.length = 1) :
    forwardResponse J package cmd .succeed buffer = .error .undefinedBehaviour := by
  rw [forwardResponse, if_pos ⟨rfl, by omega⟩, if_pos (by omega)]

theorem forwardResponse_of_le (h : 2 ≤ buffer.length) :
    forwardResponse J package cmd .succeed buffer = (do
      let cmdToManager ← IoTCommand.ofValues J .readResponse cmd.id (between buffer)
      let responsePackage ← IoTPackage.ofVector package.ver package.desIp package.sorIp
        (some cmdToManager.sendedData)
      return [responsePackage]) := by
  rw [forwardResponse, if_pos ⟨rfl, by omega⟩, if_neg (by omega)]
  rfl

/-- The codes around a reply are what is dropped. -/
theorem framed_iff (h : 2 ≤ buffer.length) :
    Framed buffer ↔ buffer = startCode :: between buffer ++ [endCode] := by
  constructor
  · intro hframed
    obtain ⟨value, rfl⟩ := hframed
    simp [between]
  · exact fun heq => ⟨_, heq⟩

/-- What is sent in answer to a reply of two bytes or more, and what is read there. -/
theorem forwardResponse_sent (hJ : J.Faithful) (hlength : 2 ≤ buffer.length)
    {packages : List IoTPackage} {response : IoTPackage}
    (hsent : forwardResponse J package cmd .succeed buffer = .ok packages)
    (hresponse : response ∈ packages) :
    Sends J package cmd buffer ∧
      ∃ command, IoTCommand.ofContent J response.dataVector = .ok command ∧
        command.value = written J (lit "0") (between buffer) := by
  obtain ⟨text, hvalues, hread⟩ :=
    IoTCommand.ofContent_ofValues hJ .readResponse cmd.id (between buffer)
  rw [forwardResponse_of_le hlength, hvalues, ok_bind, bind_ok_iff] at hsent
  obtain ⟨response', hvector, hpackages⟩ := hsent
  obtain rfl := Except.ok.inj hpackages
  obtain rfl := List.mem_singleton.mp hresponse
  refine ⟨⟨_, hvalues, IoTPackage.returns_ofVector_iff.mp ⟨_, hvector⟩⟩, ?_⟩
  obtain ⟨headerLength, -, -, -, rfl⟩ := IoTPackage.ofVector_ok_iff.mp hvector
  exact ⟨_, hread, rfl⟩

theorem forwardResponse_sends (hlength : 2 ≤ buffer.length) (h : Sends J package cmd buffer) :
    ∃ response, forwardResponse J package cmd .succeed buffer = .ok [response] := by
  obtain ⟨command, hcommand, hpackable⟩ := h
  obtain ⟨response, hresponse⟩ := IoTPackage.returns_ofVector_iff.mpr hpackable
  exact ⟨response, by rw [forwardResponse_of_le hlength, hcommand, ok_bind, hresponse]; rfl⟩

theorem forwardResponse_defined (hJ : J.Faithful) (hlength : 2 ≤ buffer.length) :
    forwardResponse J package cmd .succeed buffer ≠ .error .undefinedBehaviour := by
  obtain ⟨text, hvalues, -⟩ :=
    IoTCommand.ofContent_ofValues hJ .readResponse cmd.id (between buffer)
  rw [forwardResponse_of_le hlength, hvalues, ok_bind]
  exact bind_ne_undefinedBehaviour (IoTPackage.ofVector_ne_undefinedBehaviour _ _ _ _) (by simp)

/-! ### Whole replies -/

theorem handleForwardingPackage_ok_iff (h : Collected J xbeeDevices package reads cmd res buffer)
    {packages : List IoTPackage} :
    handleForwardingPackage J xbeeDevices package reads = .ok (some packages)
      ↔ forwardResponse J package cmd res buffer = .ok packages := by
  rw [handleForwardingPackage_eq h]
  cases forwardResponse J package cmd res buffer with
  | error fault => simp
  | ok packages' => simp

theorem handleForwardingPackage_error_iff
    (h : Collected J xbeeDevices package reads cmd res buffer) {fault : Fault} :
    handleForwardingPackage J xbeeDevices package reads = .error fault
      ↔ forwardResponse J package cmd res buffer = .error fault := by
  rw [handleForwardingPackage_eq h]
  cases forwardResponse J package cmd res buffer with
  | error fault' => simp
  | ok packages => simp

theorem reportable_of_reportsFramed (hJ : J.Faithful)
    (h : Collected J xbeeDevices package reads cmd .succeed buffer)
    (hreports : ReportsFramed J xbeeDevices package reads buffer) (hlength : 2 ≤ buffer.length)
    (hsends : Sends J package cmd buffer) : Reportable buffer := by
  obtain ⟨response, hresponse⟩ := forwardResponse_sends hlength hsends
  obtain ⟨command, hcommand, hframed⟩ := hreports.framed
    ((handleForwardingPackage_ok_iff h).mpr hresponse) List.mem_cons_self
  obtain ⟨-, command', hcommand', hvalue⟩ :=
    forwardResponse_sent hJ hlength hresponse List.mem_cons_self
  obtain rfl := Except.ok.inj (hcommand.symm.trans hcommand')
  have hbetween : between buffer = command.value := by
    rw [hframed]
    simp [between]
  refine ⟨⟨_, hframed⟩, ?_⟩
  rw [← IoTCommand.written_zero_iff hJ, ← hvalue, hbetween]

theorem reportsFramed_of_reportable (hJ : J.Faithful)
    (h : Collected J xbeeDevices package reads cmd .succeed buffer) (hlength : 2 ≤ buffer.length)
    (hreportable : Sends J package cmd buffer → Reportable buffer) :
    ReportsFramed J xbeeDevices package reads buffer where
  defined := fun hfault =>
    forwardResponse_defined hJ hlength ((handleForwardingPackage_error_iff h).mp hfault)
  framed := by
    intro packages response hsent hresponse
    rw [handleForwardingPackage_ok_iff h] at hsent
    obtain ⟨hsends, command, hcommand, hvalue⟩ := forwardResponse_sent hJ hlength hsent hresponse
    obtain ⟨hframed, hstring⟩ := hreportable hsends
    refine ⟨command, hcommand, ?_⟩
    rw [hvalue, (IoTCommand.written_zero_iff hJ).mpr hstring]
    exact (framed_iff hlength).mp hframed

/-- The manager is told what has come between the codes exactly where the codes are
there, and a JSON string can hold what is between them. -/
theorem reportsFramed_iff (hJ : J.Faithful)
    (h : Collected J xbeeDevices package reads cmd res buffer) :
    ReportsFramed J xbeeDevices package reads buffer ↔
      (res = .succeed → buffer ≠ [] →
        2 ≤ buffer.length ∧ (Sends J package cmd buffer → Reportable buffer)) := by
  by_cases hsent : res = .succeed ∧ 0 < buffer.length
  · obtain ⟨rfl, hpos⟩ := hsent
    constructor
    · intro hreports _ _
      have hlength : 2 ≤ buffer.length := by
        by_contra hshort
        have hfault : forwardResponse J package cmd .succeed buffer
            = .error .undefinedBehaviour := forwardResponse_of_single (by omega)
        exact hreports.defined ((handleForwardingPackage_error_iff h).mpr hfault)
      exact ⟨hlength, reportable_of_reportsFramed hJ h hreports hlength⟩
    · intro hreportable
      obtain ⟨hlength, hreportable⟩ := hreportable rfl (List.ne_nil_of_length_pos hpos)
      exact reportsFramed_of_reportable hJ h hlength hreportable
  · have hnone := (handleForwardingPackage_ok_iff h).mpr (forwardResponse_of_not hsent)
    refine iff_of_true ⟨by rw [hnone]; simp, ?_⟩ ?_
    · intro packages response hpackages hresponse
      obtain rfl := Option.some.inj (Except.ok.inj (hnone.symm.trans hpackages))
      cases hresponse
    · exact fun hres hne => absurd ⟨hres, List.length_pos_iff.mpr hne⟩ hsent

/-! ### One device -/

open XBeeResponse

/-- The device with the IoT IP `10.0.0.4`. -/
def fan : DeviceInfo := ⟨lit "10.0.0.4", ⟨0x0013A200, 0x40B0A1C2⟩⟩

/-- A request of the manager for its ID `temp`. -/
def request : IoTPackage where
  ver := IoTPackage.protocolVersion
  sorIp := lit "10.0.0.1"
  desIp := lit "10.0.0.4"
  dataVector := lit "\x7b\"IOTCMD\":\x7b\"Type\":\"Req\",\"ID\":\"temp\",\"Value\":\"0\"\x7d\x7d"

/-- The request is delivered, and the device answers with this data. -/
def answer (data : List Byte) (h : data.length ≤ 95) : List XBeeRead :=
  [.readPacket (some (txFrame 0x00)),
    .readPacket (some (rxFrame data h))]

theorem getResponse_answer {data : List Byte} (h : data.length ≤ 95) :
    getResponse [] (answer data h) = .ok (some (.succeed, data)) := by
  have hstatus : (txFrame 0x00).Whole := by decide
  rw [getResponse, answer, getResponseFrom_frame hstatus, if_neg (by decide),
    getResponseFrom_frame (whole_rxFrame h), payload_rxFrame]
  rfl

/-- What is asked for. -/
def requested : IoTCommand := ⟨some .readRequest, lit "temp", lit "0", request.dataVector⟩

/-- Whatever the device answers may be collected. -/
theorem collected_answer {data : List Byte} (h : data.length ≤ 95) :
    Collected jsonPrinter [fan] request (answer data h) requested .succeed data where
  command := by decide +kernel
  sent := ⟨fan, by decide +kernel, by decide +kernel, _,
    sendData_of_nonneg (by decide +kernel) fan.address⟩
  response := getResponse_answer h

/-- `02 32 31 03`. -/
theorem reportsFramed_iff_framed :
    ReportsFramed jsonPrinter [fan] request (answer [0x02, 0x32, 0x31, 0x03] (by decide))
        [0x02, 0x32, 0x31, 0x03] ↔
      (RecvResult.succeed = .succeed → [0x02, 0x32, 0x31, 0x03] ≠ ([] : List Byte) →
        2 ≤ [0x02, 0x32, 0x31, 0x03].length ∧
          (Sends jsonPrinter request requested [0x02, 0x32, 0x31, 0x03] →
            Reportable [0x02, 0x32, 0x31, 0x03])) :=
  reportsFramed_iff jsonPrinter_faithful (collected_answer (by decide))

theorem sends_unframed : Sends jsonPrinter request requested (lit "A1B2") := by
  refine ⟨⟨some .readResponse, lit "temp", lit "1B",
    lit "\x7b\"IOTCMD\":\x7b\"Type\":\"Res\",\"ID\":\"temp\",\"Value\":\"1B\"\x7d\x7d"⟩, ?_, ?_⟩
  · decide +kernel
  · unfold IoTPackage.Packable IoTPackage.Reservable InInt
    decide +kernel

/-- A reply of one byte, and one without codes. -/
theorem not_reportsFramed :
    ¬ ReportsFramed jsonPrinter [fan] request (answer (lit "A") (by decide)) (lit "A") ∧
      ¬ ReportsFramed jsonPrinter [fan] request (answer (lit "A1B2") (by decide)) (lit "A1B2") := by
  constructor
  · intro h
    exact h.defined (by decide +kernel)
  · intro h
    have hreportable := reportable_of_reportsFramed jsonPrinter_faithful
      (collected_answer (by decide)) h (by decide) sends_unframed
    exact absurd ((framed_iff (by decide)).mp hreportable.1) (by decide)

end XBeeBrokerApiMode

end IoTRepublic
