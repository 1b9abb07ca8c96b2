import IoTRepublic.Broker.CloudUpload
import IoTRepublic.Broker.ReceiveStreamSound
import IoTRepublic.IoT.ManagerSends
import IoTRepublic.IoT.MessageSound

/-!
# IoTRepublic.Broker.CloudUploadSound

What is posted for the values the manager writes.

What happens to the stream is in `rounds_of_stream`, and here is what happens to one
package: a value comes back from its command, and the address the package comes from
leads to the device the rule was sent for (`posts_report`).

A value makes a round trip between two programs. The uploader sends a rule; the manager
writes the rule with a value; the uploader finds the value in the command, and the device
by the address the package comes from. For each of these steps there is one lemma
(`sendSubscriptRule_rules`, `writePackage_read`, `getUploadDeviceId_eq`), and `PostedAs`
has the bytes of the request that come of them.

The request is no form in the usual sense: the value stands in it without escapes. That is
how the program posts it, so that is what is stated.
-/

namespace IoTRepublic

open Cpp IoTUtility Framing

namespace CloudUploader

variable {J : Jansson} {identity : Identity} {uploader : CloudUploader}

/-! ### The rules that are sent -/

/-- The rule asks for the component of a subscription, on a device that has it. -/
structure RuleFor (identity : Identity) (uploader : CloudUploader) (sub : SubscriptObj)
    (device : IoTDevice) (rule : IoTRule) : Prop where
  subscribed : sub ∈ subscriptObjs
  listed : device ∈ visible uploader.allDevices
  named : device.deviceID = sub.devId
  component : ∃ com ∈ device.component, com.id = sub.comId
  /-- `Packet` has set `JsonData`. -/
  packed : ∃ jsonData, rule = { subscriptRule identity device sub with jsonData := jsonData }

theorem findComponentIndex_found {devId comId : Text} {deviceIndex : Nat} {device : IoTDevice}
    (h : findComponentIndex uploader devId comId = some (deviceIndex, device)) :
    device ∈ visible uploader.allDevices ∧ device.deviceID = devId ∧
      ∃ com ∈ device.component, com.id = comId := by
  obtain ⟨i, hindex, h⟩ := Option.bind_eq_some_iff.mp h
  obtain ⟨device', hdevice, h⟩ := Option.bind_eq_some_iff.mp h
  split at h
  · rename_i hany
    obtain ⟨rfl, rfl⟩ := Prod.mk.inj (Option.some.inj h)
    obtain ⟨com, hcom, hid⟩ := List.any_eq_true.mp hany
    obtain ⟨hlt, hname, -⟩ := List.findIdx?_eq_some_iff_getElem.mp hindex
    -- The index is one of the visible part, where the list has the same device.
    have hvisible : (visible uploader.allDevices)[i] = device' := by
      have hsame := (visible_isPrefix uploader.allDevices).getElem hlt
      rw [hsame]
      exact (List.getElem?_eq_some_iff.mp hdevice).2
    rw [hvisible] at hname
    exact ⟨hvisible ▸ List.getElem_mem hlt, of_decide_eq_true hname, com,
      (visible_isPrefix _).subset hcom, of_decide_eq_true hid⟩
  · cases h

theorem packet_eq {rule rule' : IoTRule} (h : rule.packet J = .ok rule') :
    ∃ jsonData, rule' = { rule with jsonData := jsonData } := by
  unfold IoTRule.packet at h
  split at h
  · cases h
  · obtain ⟨jsonData, -, h⟩ := bind_ok_iff.mp h
    exact ⟨jsonData, (Except.ok.inj h).symm⟩

/-- The rule for a subscription, if its component is on the list. -/
def wantedRule (identity : Identity) (uploader : CloudUploader) (sub : SubscriptObj) :
    Option IoTRule :=
  (findComponentIndex uploader sub.devId sub.comId).map fun found =>
    subscriptRule identity found.2 sub

/-- A rule without what `Packet` sets. -/
def unpacked (rule : IoTRule) : IoTRule := { rule with jsonData := [] }

theorem sendSubscription_rules {sent sent' : List (IoTRule × IoTPackage)} {sub : SubscriptObj}
    (h : sendSubscription J identity uploader sent sub = .ok sent') :
    sent'.map (unpacked ·.1)
      = sent.map (unpacked ·.1) ++ (wantedRule identity uploader sub).toList := by
  unfold sendSubscription at h
  rw [wantedRule]
  split at h
  · rename_i hfind
    obtain rfl := Except.ok.inj h
    rw [hfind, Option.map_none, Option.toList_none, List.append_nil]
  · rename_i deviceIndex device hfind
    obtain ⟨rule, hrule, h⟩ := bind_ok_iff.mp h
    obtain ⟨package, -, h⟩ := bind_ok_iff.mp h
    obtain rfl := Except.ok.inj h
    obtain ⟨jsonData, rfl⟩ := packet_eq hrule
    rw [hfind, Option.map_some, Option.toList_some, List.map_append]
    rfl

/-- A rule is sent for every subscription whose component is on the list, in their order. -/
theorem sendSubscriptRule_rules {sent : List (IoTRule × IoTPackage)}
    (h : sendSubscriptRule J identity uploader = .ok sent) :
    sent.map (unpacked ·.1) = subscriptObjs.filterMap (wantedRule identity uploader) := by
  have hall : ∀ (subs : List SubscriptObj) (before : List (IoTRule × IoTPackage)),
      subs.foldlM (sendSubscription J identity uploader) before = .ok sent →
      sent.map (unpacked ·.1)
        = before.map (unpacked ·.1) ++ subs.filterMap (wantedRule identity uploader) := by
    intro subs
    induction subs with
    | nil =>
        intro before h
        obtain rfl := Except.ok.inj h
        rw [List.filterMap_nil, List.append_nil]
    | cons sub subs ih =>
        intro before h
        rw [List.foldlM_cons] at h
        obtain ⟨next, hnext, h⟩ := bind_ok_iff.mp h
        rw [ih next h, sendSubscription_rules hnext, List.append_assoc, List.filterMap_cons]
        cases wantedRule identity uploader sub <;> rfl
  exact hall subscriptObjs [] h

theorem ruleFor_of_sent {sent : List (IoTRule × IoTPackage)}
    (h : sendSubscriptRule J identity uploader = .ok sent) {rule : IoTRule}
    (hrule : rule ∈ sent.map Prod.fst) :
    ∃ sub device, RuleFor identity uploader sub device rule := by
  obtain ⟨x, hx, rfl⟩ := List.mem_map.mp hrule
  have hmem : unpacked x.1 ∈ subscriptObjs.filterMap (wantedRule identity uploader) :=
    sendSubscriptRule_rules h ▸ List.mem_map_of_mem hx
  obtain ⟨sub, hsub, hwanted⟩ := List.mem_filterMap.mp hmem
  obtain ⟨⟨deviceIndex, device⟩, hfind, heq⟩ := Option.map_eq_some_iff.mp hwanted
  obtain ⟨hlisted, hnamed, hcomponent⟩ := findComponentIndex_found hfind
  have hpacked : x.1 = { subscriptRule identity device sub with jsonData := x.1.jsonData } := by
    rw [heq]
    rfl
  exact ⟨sub, device, hsub, hlisted, hnamed, hcomponent, x.1.jsonData, hpacked⟩

/-! ### The values that come back -/

/-- A value the manager writes for one of the rules. -/
structure Report (J : Jansson) (rules : List IoTRule) where
  rule : IoTRule
  value : Text
  package : IoTPackage
  asked : rule ∈ rules
  written : IoTManager.writePackage J rule value = .ok package
  transmitted : Transmitted package

/-- The value is posted under the names of the device and its component: this is the body of
the request, byte for byte. The value is not escaped, so that a `&` or a `+` in it stands as it
is. What is no JSON string has been sent as `"0"`. -/
def PostedAs {rules : List IoTRule} (identity : Identity) (uploader : CloudUploader)
    (report : Report J rules) (request : Text) : Prop :=
  ∃ sub device, RuleFor identity uploader sub device report.rule ∧
    request = lit "deviceId=" ++ sub.devId ++ lit "." ++ sub.comId
      ++ lit "&value=" ++ JsonUtility.written J (lit "0") report.value
      -- The credentials come last, and the web library stops at the first zero byte.
      ++ lit "&loginId=" ++ cStr (identity.loginId ++ lit "&password=" ++ identity.loginPw)

theorem cStr_append {front : Text} (h : 0 ∉ front) (back : Text) :
    cStr (front ++ back) = front ++ cStr back := by
  have hall : ∀ b ∈ front, decide (b ≠ 0) = true := by
    intro b hb
    have hne : b ≠ 0 := fun hzero => h (hzero ▸ hb)
    simpa using hne
  exact List.takeWhile_append_of_pos hall

/-- Only the credentials can cut the request short. -/
theorem uploadData_eq {deviceId value : Text} (hdevice : 0 ∉ deviceId) (hvalue : 0 ∉ value) :
    uploadData identity deviceId value = lit "deviceId=" ++ deviceId ++ lit "&value=" ++ value
      ++ lit "&loginId=" ++ cStr (identity.loginId ++ lit "&password=" ++ identity.loginPw) := by
  have hfront : 0 ∉ lit "deviceId=" ++ deviceId ++ lit "&value=" ++ value ++ lit "&loginId=" := by
    have hlits : 0 ∉ lit "deviceId=" ∧ 0 ∉ lit "&value=" ∧ 0 ∉ lit "&loginId=" := by decide
    simp only [List.mem_append, not_or]
    exact ⟨⟨⟨⟨hlits.1, hdevice⟩, hlits.2.1⟩, hvalue⟩, hlits.2.2⟩
  rw [uploadData, ← cStr_append hfront]
  simp only [List.append_assoc]

/-- The address of a device leads to its name, if no other device has it. -/
theorem getUploadDeviceId_eq {device : IoTDevice} {comId : Text}
    (hdistinct : ((visible uploader.allDevices).map (·.iotIP)).Nodup)
    (hlisted : device ∈ visible uploader.allDevices) :
    getUploadDeviceId uploader device.iotIP comId = device.deviceID ++ lit "." ++ comId := by
  rw [getUploadDeviceId]
  cases hfind : (visible uploader.allDevices).find? (·.iotIP = device.iotIP) with
  | none => exact absurd (decide_eq_true rfl) (List.find?_eq_none.mp hfind device hlisted)
  | some other =>
      have hsame : other.iotIP = device.iotIP := by simpa using List.find?_some hfind
      rw [List.inj_on_of_nodup_map hdistinct (List.mem_of_find?_eq_some hfind) hlisted hsame]

theorem isJsonString_comId {sub : SubscriptObj} (h : sub ∈ subscriptObjs) :
    IsJsonString sub.comId := by
  have hall : ∀ sub ∈ subscriptObjs, IsJsonString sub.comId := by decide
  exact hall sub h

theorem zero_notMem_name {sub : SubscriptObj} (h : sub ∈ subscriptObjs) :
    0 ∉ sub.devId ++ lit "." ++ sub.comId := by
  have hall : ∀ sub ∈ subscriptObjs, 0 ∉ sub.devId ++ lit "." ++ sub.comId := by decide
  exact hall sub h

theorem zero_notMem_written (value : Text) : 0 ∉ JsonUtility.written J (lit "0") value := by
  rw [JsonUtility.written]
  split
  · exact zero_notMem_cStr value
  · decide

/-- What the uploader finds in a package the manager has written. -/
theorem writePackage_read (hJ : J.Faithful) {rule : IoTRule} {value : Text} {package : IoTPackage}
    (h : IoTManager.writePackage J rule value = .ok package) (hid : IsJsonString rule.writeID) :
    package.sorIp = rule.readFrom ∧ ∃ cmd, IoTCommand.ofContent J package.dataVector = .ok cmd ∧
      cmd.id = rule.writeID ∧ cmd.value = JsonUtility.written J (lit "0") value := by
  obtain ⟨text, hsent, hread⟩ :=
    IoTCommand.ofContent_ofValues hJ .readResponse rule.writeID value
  rw [IoTManager.writePackage, hsent, ok_bind] at h
  obtain ⟨headerLength, -, -, -, rfl⟩ :=
    IoTPackage.ofVector_ok_iff.mp (IoTPackage.ofString_ok_iff.mp h).1
  exact ⟨rfl, _, hread, (IoTCommand.written_zero_iff hJ).mpr hid, rfl⟩

/-- One value, one request. The handler does not fail on the package, and what it adds to
the requests is what the report says. -/
theorem posts_report (hJ : J.Faithful) {sent : List (IoTRule × IoTPackage)}
    (hsent : sendSubscriptRule J identity uploader = .ok sent)
    (hdistinct : ((visible uploader.allDevices).map (·.iotIP)).Nodup)
    (report : Report J (sent.map Prod.fst)) (posted : List Text) :
    ∃ request,
      handleRecvPackage J identity uploader report.package posted = .ok (posted ++ [request]) ∧
        PostedAs identity uploader report request := by
  obtain ⟨sub, device, hfor⟩ := ruleFor_of_sent hsent report.asked
  obtain ⟨jsonData, hpacked⟩ := hfor.packed
  have hid : report.rule.writeID = sub.comId := by rw [hpacked]; rfl
  have hfrom : report.rule.readFrom = device.iotIP := by rw [hpacked]; rfl
  obtain ⟨hsor, cmd, hcmd, hcmdId, hvalue⟩ :=
    writePackage_read hJ report.written (hid ▸ isJsonString_comId hfor.subscribed)
  refine ⟨_, ?_, sub, device, hfor, rfl⟩
  rw [handleRecvPackage, hcmd, ok_bind, hsor, hfrom, hcmdId, hid, hvalue,
    getUploadDeviceId_eq hdistinct hfor.listed, hfor.named]
  dsimp only
  rw [uploadData_eq (zero_notMem_name hfor.subscribed) (zero_notMem_written _)]
  simp only [List.append_assoc]
  rfl

/-- Many values, as many requests in the same order, by induction along the packages. -/
theorem posts_reports {rules : List IoTRule}
    (hposts : ∀ (report : Report J rules) (posted : List Text), ∃ request,
      handleRecvPackage J identity uploader report.package posted = .ok (posted ++ [request]) ∧
        PostedAs identity uploader report request)
    {reports : List (Report J rules)} {posted posted' : List Text}
    (h : (reports.map (·.package)).foldlM
      (fun posted p => handleRecvPackage J identity uploader p posted) posted = .ok posted') :
    ∃ requests, posted' = posted ++ requests ∧
      List.Forall₂ (PostedAs identity uploader) reports requests := by
  induction reports generalizing posted with
  | nil =>
      obtain rfl := Except.ok.inj h
      exact ⟨[], (List.append_nil _).symm, .nil⟩
  | cons report reports ih =>
      obtain ⟨request, hhandle, hposted⟩ := hposts report posted
      rw [List.map_cons, List.foldlM_cons, hhandle, ok_bind] at h
      obtain ⟨requests, rfl, hrequests⟩ := ih h
      exact ⟨request :: requests, by simp, .cons hposted hrequests⟩

/-- **Every value is posted once, in order and under its own name**, however the stream
of the manager's packages is cut. -/
theorem listen_run (hJ : J.Faithful) {sent : List (IoTRule × IoTPackage)}
    (hsent : sendSubscriptRule J identity uploader = .ok sent)
    (hdistinct : ((visible uploader.allDevices).map (·.iotIP)).Nodup)
    {reports : List (Report J (sent.map Prod.fst))} {rounds : List Received}
    (hstream : rounds.flatMap (·.chunk) <+: streamBytes (reports.map (·.package)))
    (hfit : ChunksFit (reports.map (·.package)) rounds) :
    ∃ done left s, reports = done ++ left ∧ listen J identity uploader rounds = .ok s ∧
      rounds.flatMap (·.chunk) = streamBytes (done.map (·.package)) ++ s.buffer ∧
      Pending (left.map (·.package.dataVectorForSending)) s.buffer ∧
      List.Forall₂ (PostedAs identity uploader) done s.handler := by
  have hposts := posts_report hJ hsent hdistinct
  have hreturns : ∀ report ∈ reports, ∀ posted,
      Returns (handleRecvPackage J identity uploader report.package posted) := by
    intro report _ posted
    obtain ⟨request, hhandle, -⟩ := hposts report posted
    exact ⟨_, hhandle⟩
  have hloop : ReceiveLoop.cloudUploader.dropping = false := rfl
  obtain ⟨done, left, s, hsplit, hrun, hbytes, hpending, hdone⟩ :=
    runRounds_of_items hloop [] (fun report _ => report.transmitted) hreturns hstream hfit
  obtain ⟨requests, hposted, hrequests⟩ := posts_reports hposts hdone
  rw [List.nil_append] at hposted
  exact ⟨done, left, s, hsplit, hrun, hbytes, hpending, hposted ▸ hrequests⟩

/-! ### One lamp -/

/-- Between two addresses in use such a package is found in the stream. -/
theorem transmitted_written {rule : IoTRule} {value : Text} {package : IoTPackage}
    (h : IoTManager.writePackage J rule value = .ok package) (hfrom : Address rule.readFrom)
    (hto : Address rule.writeTo) (hshort : package.dataVector.length + 100 < 2 ^ 31)
    (hascii : ∀ b ∈ package.dataVector, b.toNat < 0x80) : Transmitted package := by
  obtain ⟨cmd, -, hbuilt⟩ := bind_ok_iff.mp h
  obtain ⟨headerLength, -, -, -, rfl⟩ :=
    IoTPackage.ofVector_ok_iff.mp (IoTPackage.ofString_ok_iff.mp hbuilt).1
  exact ⟨rule.readFrom, rule.writeTo, .string cmd.sendedData,
    sendable_of_short hfrom hto hshort, hascii, hbuilt⟩

def lampIdentity : Identity := ⟨lit "user", lit "secret", lit "DEV.1", lit "Master"⟩

def lamp : IoTDevice where
  iotIP := lit "DEV.3"
  deviceID := lit "arduino.grove.dl01"
  component := [⟨lit "lux", [], [], .content, some 5⟩]

def lampUploader : CloudUploader := ⟨[lamp]⟩

/-- The rules that are sent for the lamp. -/
def lampRules : List (IoTRule × IoTPackage) :=
  (sendSubscriptRule jsonPrinter lampIdentity lampUploader).toOption.getD []

theorem sendSubscriptRule_lamp :
    sendSubscriptRule jsonPrinter lampIdentity lampUploader = .ok lampRules := by
  have hreturns : Returns (sendSubscriptRule jsonPrinter lampIdentity lampUploader) := by
    decide +kernel
  obtain ⟨sent, hsent⟩ := hreturns
  rw [lampRules, hsent]
  rfl

/-- One of the two. -/
def lampRule : IoTRule :=
  let rule := subscriptRule lampIdentity lamp ⟨lit "arduino.grove.dl01", lit "lux", 60 * 1000⟩
  { rule with jsonData := ((rule.packet jsonPrinter).toOption.map (·.jsonData)).getD [] }

def lampPackage (value : Text) : IoTPackage :=
  (IoTManager.writePackage jsonPrinter lampRule value).toOption.getD {}

/-- What the manager writes when the lamp answers. -/
def lampReport (value : Text)
    (hreturns : Returns (IoTManager.writePackage jsonPrinter lampRule value))
    (hshort : (lampPackage value).dataVector.length + 100 < 2 ^ 31)
    (hascii : ∀ b ∈ (lampPackage value).dataVector, b.toNat < 0x80) :
    Report jsonPrinter (lampRules.map Prod.fst) :=
  have hwritten : IoTManager.writePackage jsonPrinter lampRule value = .ok (lampPackage value) := by
    obtain ⟨package, hpackage⟩ := hreturns
    rw [lampPackage, hpackage]
    rfl
  have hfrom : lampRule.readFrom = lit "DEV." ++ showInt 3 := by decide
  have hto : lampRule.writeTo = lit "DEV." ++ showInt 1 := by decide
  { rule := lampRule
    value := value
    package := lampPackage value
    asked := by decide +kernel
    written := hwritten
    transmitted := transmitted_written hwritten (hfrom ▸ .device 3 (by decide))
      (hto ▸ .device 1 (by decide)) hshort hascii }

/-- The lamp answers with a number, and with a byte that is no text. -/
def lampReports : List (Report jsonPrinter (lampRules.map Prod.fst)) :=
  [lampReport (lit "120") (by decide +kernel) (by decide +kernel) (by decide +kernel),
    lampReport [0xFF] (by decide +kernel) (by decide +kernel) (by decide +kernel)]

/-- The cut falls into the second package. -/
def lampRounds : List Received :=
  let bytes := streamBytes (lampReports.map (·.package))
  [⟨bytes.take 100, false⟩, ⟨bytes.drop 100, false⟩]

theorem lampRounds_bytes :
    lampRounds.flatMap (·.chunk) = streamBytes (lampReports.map (·.package)) := by
  simp [lampRounds]

/-- Whatever rule was sent, it is about the lamp. -/
theorem postedAs_lamp {report : Report jsonPrinter (lampRules.map Prod.fst)} {request : Text}
    (h : PostedAs lampIdentity lampUploader report request) :
    request = lit "deviceId=arduino.grove.dl01.lux&value="
      ++ JsonUtility.written jsonPrinter (lit "0") report.value
      ++ lit "&loginId=user&password=secret" := by
  have hlux : ∀ sub ∈ subscriptObjs, sub.devId = lamp.deviceID →
      lit "deviceId=" ++ sub.devId ++ lit "." ++ sub.comId ++ lit "&value="
        = lit "deviceId=arduino.grove.dl01.lux&value=" := by decide
  obtain ⟨sub, device, hfor, rfl⟩ := h
  obtain rfl : device = lamp :=
    List.mem_singleton.mp ((visible_isPrefix lampUploader.allDevices).subset hfor.listed)
  have hlogin : lit "&loginId="
      ++ cStr (lampIdentity.loginId ++ lit "&password=" ++ lampIdentity.loginPw)
      = lit "&loginId=user&password=secret" := by decide
  rw [hlux sub hfor.subscribed hfor.named.symm, List.append_assoc, hlogin]

theorem listen_run_lamp : ∃ s,
    listen jsonPrinter lampIdentity lampUploader lampRounds = .ok s ∧ s.buffer = [] ∧
      s.handler =
        [lit "deviceId=arduino.grove.dl01.lux&value=120&loginId=user&password=secret",
          lit "deviceId=arduino.grove.dl01.lux&value=0&loginId=user&password=secret"] := by
  have hfit : ChunksFit (lampReports.map (·.package)) lampRounds := by
    unfold ChunksFit
    decide +kernel
  have hstream : lampRounds.flatMap (·.chunk) <+: streamBytes (lampReports.map (·.package)) :=
    lampRounds_bytes ▸ List.prefix_refl _
  obtain ⟨done, left, s, hsplit, hrun, hbytes, hpending, hposted⟩ :=
    listen_run jsonPrinter_faithful sendSubscriptRule_lamp (by decide) hstream hfit
  rw [lampRounds_bytes, hsplit] at hbytes
  obtain ⟨rfl, hbuffer⟩ := nothing_left (fun report _ => report.transmitted) hbytes hpending
  rw [List.append_nil] at hsplit
  subst hsplit
  obtain ⟨request, requests, hrequest, hrequests, hhandler⟩ := List.forall₂_cons_left_iff.mp hposted
  obtain ⟨request', requests', hrequest', hnone, rfl⟩ := List.forall₂_cons_left_iff.mp hrequests
  obtain rfl := List.forall₂_nil_left_iff.mp hnone
  refine ⟨s, hrun, hbuffer, hhandler.trans ?_⟩
  rw [postedAs_lamp hrequest, postedAs_lamp hrequest']
  have hwritten : JsonUtility.written jsonPrinter (lit "0") (lit "120") = lit "120" ∧
      JsonUtility.written jsonPrinter (lit "0") [0xFF] = lit "0" := by decide
  have hrequests := congrArg₂ (fun v w =>
    [lit "deviceId=arduino.grove.dl01.lux&value=" ++ v ++ lit "&loginId=user&password=secret",
      lit "deviceId=arduino.grove.dl01.lux&value=" ++ w ++ lit "&loginId=user&password=secret"])
    hwritten.1 hwritten.2
  exact hrequests.trans (by decide)

end CloudUploader

end IoTRepublic
