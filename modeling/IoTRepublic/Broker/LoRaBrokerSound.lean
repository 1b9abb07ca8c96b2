import IoTRepublic.Broker.LoRaBroker
import IoTRepublic.Lib.Transition

/-!
# IoTRepublic.Broker.LoRaBrokerSound

Scans for LoRa nodes, one after the other.

A scan appends the configured nodes to whatever the last one has left and then
erases what does not answer, so it leaves the nodes that answered twice over if
they had answered before. `scannedOnce_iff` says when it does not.

The loop erases from the vector it runs over, with an unsigned index that may step below
zero. `visitDevices_eq` says what it amounts to: the entries kept so far, in front of
those not visited yet, and the index between the two. So a scan is a filter of what was
left over and what was loaded (`completedScan_eq`), and every later statement is about the
two lists.
-/

namespace IoTRepublic

open Cpp Transition

/-- The node joins, and acknowledges. -/
def NodeReplies.Answers (replies : NodeReplies) : Prop :=
  LoRaBroker.addNode replies = true ∧ LoRaBroker.checkAlive replies = .ok true

instance (replies : NodeReplies) : Decidable replies.Answers :=
  inferInstanceAs (Decidable (_ ∧ _))

namespace LoRaBroker

/-- What the configuration says about an entry. -/
def node (device : DeviceInfo) : Text × Text := (device.loRaAddress, device.deviceDescription)

/-- The entries that answered when they were visited. -/
def answering (devices : List DeviceInfo) (replies : List NodeReplies) : List DeviceInfo :=
  ((devices.zip replies).filter (·.2.Answers)).map (·.1)

/-! ### The two loops -/

section Loops

theorem visitDevice_cases {replies : NodeReplies} {i i' : UInt64}
    {kept rest devices : List DeviceInfo} {device : DeviceInfo} (hi : i.toNat = kept.length)
    (h : visitDevice replies i (kept ++ device :: rest) = .ok (i', devices)) :
    replies.Answers ∧ i' = i ∧ devices = kept ++ device :: rest ∨
      ¬ replies.Answers ∧ i' = i - 1 ∧ devices = kept ++ rest := by
  have herase : (kept ++ device :: rest).eraseIdx i.toNat = kept ++ rest := by
    rw [hi, List.eraseIdx_append_of_length_le (le_refl _), Nat.sub_self, List.eraseIdx_cons_zero]
  obtain ⟨_, -, h⟩ := bind_ok_iff.mp h
  rw [herase] at h
  split at h
  · rename_i hadd
    obtain ⟨targetAlive, halive, h⟩ := bind_ok_iff.mp h
    split at h
    · rename_i htrue
      obtain ⟨rfl, rfl⟩ := Prod.mk.inj (Except.ok.inj h)
      exact .inl ⟨⟨hadd, by rw [halive, htrue]⟩, rfl, rfl⟩
    · rename_i hfalse
      obtain ⟨rfl, rfl⟩ := Prod.mk.inj (Except.ok.inj h)
      refine .inr ⟨fun hanswers => hfalse ?_, rfl, rfl⟩
      exact Except.ok.inj (halive.symm.trans hanswers.2)
  · rename_i hadd
    obtain ⟨rfl, rfl⟩ := Prod.mk.inj (Except.ok.inj h)
    exact .inr ⟨fun hanswers => hadd hanswers.1, rfl, rfl⟩

/-- The loop keeps the entries that answer, in order, and comes to the end. -/
theorem visitDevices_eq {replies : List NodeReplies} {i i' : UInt64}
    {kept rest devices : List DeviceInfo} (hi : i.toNat = kept.length)
    (hreplies : replies.length = rest.length) (hsize : (kept ++ rest).length < 2 ^ 64)
    (h : visitDevices replies i (kept ++ rest) = .ok (i', devices)) :
    devices = kept ++ answering rest replies ∧ i'.toNat = devices.length := by
  -- Everything before the index answered; the entries from it on are still to be visited.
  induction replies generalizing i kept rest with
  | nil =>
      obtain rfl := List.length_eq_zero_iff.mp hreplies.symm
      obtain ⟨rfl, rfl⟩ := Prod.mk.inj (Except.ok.inj h)
      exact ⟨rfl, by simpa using hi⟩
  | cons reply later ih =>
      cases rest with
      | nil => cases hreplies
      | cons device rest =>
          rw [List.length_append, List.length_cons] at hsize
          rw [visitDevices, if_pos (by rw [hi, List.length_append, List.length_cons]; omega)] at h
          obtain ⟨⟨i₁, devices₁⟩, hvisit, h⟩ := bind_ok_iff.mp h
          dsimp only at h
          rcases visitDevice_cases hi hvisit with ⟨hanswers, rfl, rfl⟩ | ⟨hsilent, rfl, rfl⟩
          · have hnext : (i₁ + 1).toNat = (kept ++ [device]).length := by
              rw [UInt64.toNat_add, hi, List.length_append, List.length_singleton]
              exact Nat.mod_eq_of_lt (by simp; omega)
            rw [List.append_cons] at h
            obtain ⟨hdevices, hend⟩ := ih hnext (Nat.succ.inj hreplies)
              (by rw [List.length_append, List.length_append, List.length_singleton]; omega) h
            refine ⟨?_, hend⟩
            rw [hdevices, answering, answering, List.zip_cons_cons,
              List.filter_cons_of_pos (by simpa using hanswers), List.map_cons, List.append_assoc]
            rfl
          · rw [UInt64.sub_add_cancel] at h
            obtain ⟨hdevices, hend⟩ := ih hi (Nat.succ.inj hreplies)
              (by rw [List.length_append]; omega) h
            refine ⟨?_, hend⟩
            rw [hdevices, answering, answering, List.zip_cons_cons,
              List.filter_cons_of_neg (by simpa using hsilent)]

/-- Every entry is registered once, under the address it asked for. -/
theorem registerDevices_eq {managerIoTIp : Text} {askIoTIp : Nat → Text} {i : Nat}
    {devices devices' : List DeviceInfo} {packages : List IoTPackage}
    (h : registerDevices managerIoTIp askIoTIp i devices = .ok (devices', packages)) :
    devices'.map node = devices.map node ∧
      List.Forall₂ (fun device package => IoTPackage.ofString IoTPackage.protocolVersion
        device.iotIp managerIoTIp device.deviceDescription = .ok package) devices' packages := by
  induction devices generalizing i devices' packages with
  | nil =>
      obtain ⟨rfl, rfl⟩ := Prod.mk.inj (Except.ok.inj h)
      exact ⟨rfl, .nil⟩
  | cons device devices ih =>
      obtain ⟨package, hpackage, h⟩ := bind_ok_iff.mp h
      obtain ⟨⟨devices₁, packages₁⟩, hrest, h⟩ := bind_ok_iff.mp h
      obtain ⟨rfl, rfl⟩ := Prod.mk.inj (Except.ok.inj h)
      obtain ⟨hnodes, hregistered⟩ := ih hrest
      exact ⟨by rw [List.map_cons, List.map_cons, hnodes]; rfl, .cons hpackage hregistered⟩

end Loops

/-! ### One scan -/

/-- The visits of a scan: those of the entries left over, then the others. -/
theorem visits_eq {left devices : List DeviceInfo} {replies : List NodeReplies}
    (h : replies.length = (left ++ devices).length) :
    left.length = (replies.take left.length).length ∧
      devices.length = (replies.drop left.length).length ∧
      (left ++ devices).zip replies
        = left.zip (replies.take left.length) ++ devices.zip (replies.drop left.length) := by
  rw [List.length_append] at h
  have hleft : left.length = (replies.take left.length).length := by
    rw [List.length_take]
    omega
  have hdevices : devices.length = (replies.drop left.length).length := by
    rw [List.length_drop]
    omega
  refine ⟨hleft, hdevices, ?_⟩
  conv_lhs => rw [← List.take_append_drop left.length replies]
  exact List.zip_append hleft

theorem answering_append {left devices : List DeviceInfo} {replies : List NodeReplies}
    (h : replies.length = (left ++ devices).length) :
    answering (left ++ devices) replies
      = answering left (replies.take left.length)
        ++ answering devices (replies.drop left.length) := by
  rw [answering, (visits_eq h).2.2, List.filter_append, List.map_append, answering, answering]

theorem answering_eq_nil {devices : List DeviceInfo} {replies : List NodeReplies}
    (h : ∀ reply ∈ replies, ¬ reply.Answers) : answering devices replies = [] := by
  rw [answering, List.map_eq_nil_iff, List.filter_eq_nil_iff]
  intro x hx
  simpa using h x.2 (List.of_mem_zip hx).2

theorem mem_answering_of {devices : List DeviceInfo} {replies : List NodeReplies}
    {x : DeviceInfo × NodeReplies} (hx : x ∈ devices.zip replies) (hanswers : x.2.Answers) :
    x.1 ∈ answering devices replies :=
  List.mem_map_of_mem (List.mem_filter.mpr ⟨hx, decide_eq_true hanswers⟩)

theorem answering_subset (devices : List DeviceInfo) (replies : List NodeReplies) :
    answering devices replies ⊆ devices := by
  intro device hdevice
  obtain ⟨x, hx, rfl⟩ := List.mem_map.mp hdevice
  exact (List.of_mem_zip (List.mem_of_mem_filter hx)).1

/-- One of the visits to the address was answered. -/
def AnsweredAt (visits : List (DeviceInfo × NodeReplies)) (loRaAddress : Text) : Prop :=
  ∃ x ∈ visits, x.1.loRaAddress = loRaAddress ∧ x.2.Answers

instance (visits : List (DeviceInfo × NodeReplies)) (loRaAddress : Text) :
    Decidable (AnsweredAt visits loRaAddress) := inferInstanceAs (Decidable (∃ x ∈ _, _ ∧ _))

theorem answeredAt_cons_iff {x : DeviceInfo × NodeReplies}
    {visits : List (DeviceInfo × NodeReplies)} {loRaAddress : Text} :
    AnsweredAt (x :: visits) loRaAddress ↔
      (x.1.loRaAddress = loRaAddress ∧ x.2.Answers) ∨ AnsweredAt visits loRaAddress := by
  simp [AnsweredAt]

theorem answeredAt_append_iff {visits visits' : List (DeviceInfo × NodeReplies)}
    {loRaAddress : Text} : AnsweredAt (visits ++ visits') loRaAddress ↔
      AnsweredAt visits loRaAddress ∨ AnsweredAt visits' loRaAddress := by
  simp only [AnsweredAt, List.mem_append, or_and_right, exists_or]

theorem AnsweredAt.mem_addresses {devices : List DeviceInfo} {replies : List NodeReplies}
    {loRaAddress : Text} (h : AnsweredAt (devices.zip replies) loRaAddress) :
    loRaAddress ∈ devices.map (·.loRaAddress) := by
  obtain ⟨x, hx, rfl, -⟩ := h
  exact List.mem_map_of_mem (List.of_mem_zip hx).1

/-- With distinct addresses, the entries that answered are those whose address
answered. -/
theorem answering_eq_filter {devices : List DeviceInfo} {replies : List NodeReplies}
    (hdistinct : (devices.map (·.loRaAddress)).Nodup) (hlen : devices.length = replies.length) :
    answering devices replies
      = devices.filter (fun device => AnsweredAt (devices.zip replies) device.loRaAddress) := by
  induction devices generalizing replies with
  | nil => rfl
  | cons device devices ih =>
      cases replies with
      | nil => cases hlen
      | cons reply replies =>
          rw [List.map_cons, List.nodup_cons] at hdistinct
          have hhere : AnsweredAt ((device :: devices).zip (reply :: replies)) device.loRaAddress ↔
              reply.Answers := by
            rw [List.zip_cons_cons, answeredAt_cons_iff, and_iff_right rfl]
            exact or_iff_left fun hlater => hdistinct.1 hlater.mem_addresses
          have hlater : devices.filter (fun d =>
                AnsweredAt ((device :: devices).zip (reply :: replies)) d.loRaAddress)
              = answering devices replies := by
            rw [ih hdistinct.2 (Nat.succ.inj hlen)]
            refine List.filter_congr fun d hd => decide_eq_decide.mpr ?_
            rw [List.zip_cons_cons, answeredAt_cons_iff]
            refine or_iff_right fun hhere => ?_
            exact hdistinct.1 (hhere.1 ▸ List.mem_map_of_mem hd)
          by_cases hanswers : reply.Answers
          · rw [List.filter_cons, if_pos (decide_eq_true (hhere.mpr hanswers)), hlater, answering,
              List.zip_cons_cons, List.filter_cons_of_pos (by simpa using hanswers), List.map_cons,
              answering]
          · have hsilent : ¬ decide (AnsweredAt ((device :: devices).zip (reply :: replies))
                device.loRaAddress) = true := fun h => hanswers (hhere.mp (of_decide_eq_true h))
            rw [List.filter_cons, if_neg hsilent, hlater, answering, List.zip_cons_cons,
              List.filter_cons_of_neg (by simpa using hanswers), answering]

/-- What a scan that completes leaves behind. -/
theorem completedScan_eq {file : List Byte} {s : LoRaBroker} {scan : Scan}
    {result : LoRaBroker × List IoTPackage} {entries : List DeviceInfo}
    (hentries : configDevices file = .ok entries) (h : CompletedScan file s scan result) :
    scan.replies.length = (s.loRaDevices ++ entries).length ∧
      result.1.loRaDevices.map node
        = (answering (s.loRaDevices ++ entries) scan.replies).map node ∧
      List.Forall₂ (fun device package => IoTPackage.ofString IoTPackage.protocolVersion
        device.iotIp scan.managerIoTIp device.deviceDescription = .ok package)
        result.1.loRaDevices result.2 := by
  obtain ⟨loaded, hload, hreplies, hscan⟩ := h
  have hloaded : loaded = s.loRaDevices ++ entries ∧ loaded.length < 2 ^ 64 := by
    rw [loadLoRaConfigFile, hentries, ok_bind] at hload
    dsimp only at hload
    split at hload
    · rename_i hsize
      obtain rfl := Except.ok.inj hload
      exact ⟨rfl, hsize⟩
    · cases hload
  rw [scanAllDevice, hload, ok_bind] at hscan
  obtain ⟨⟨i, devices⟩, hvisit, hscan⟩ := bind_ok_iff.mp hscan
  obtain ⟨⟨devices', packages⟩, hregister, hscan⟩ := bind_ok_iff.mp hscan
  obtain rfl := Except.ok.inj hscan
  have hsize : ([] ++ loaded).length < 2 ^ 64 := hloaded.2
  obtain ⟨rfl, -⟩ := visitDevices_eq rfl hreplies hsize hvisit
  obtain ⟨hnodes, hregistered⟩ := registerDevices_eq hregister
  rw [hloaded.1] at hreplies hnodes
  exact ⟨hreplies, hnodes, hregistered⟩

/-! ### Scan after scan -/

/-- After the scan there is exactly one entry for each configured address that answered,
in the order of the configuration, and each was registered once, under an address of its
own. -/
structure ScannedOnce (entries : List DeviceInfo) (s : LoRaBroker) (scan : Scan)
    (result : LoRaBroker × List IoTPackage) : Prop where
  devices : result.1.loRaDevices.map node = (entries.filter fun device =>
    AnsweredAt ((s.loRaDevices ++ entries).zip scan.replies) device.loRaAddress).map node
  distinct : (result.1.loRaDevices.map (·.loRaAddress)).Nodup
  registered : List.Forall₂ (fun device package =>
    IoTPackage.ofString IoTPackage.protocolVersion device.iotIp scan.managerIoTIp
      device.deviceDescription = .ok package) result.1.loRaDevices result.2

/-- No entry left over from the last scan answers. -/
def NoneLeftOver (s : LoRaBroker) (scan : Scan) : Prop :=
  ∀ reply ∈ scan.replies.take s.loRaDevices.length, ¬ reply.Answers

/-- An address that is visited twice answers both times, or never. -/
def AnswersAgree (entries : List DeviceInfo) (s : LoRaBroker) (scan : Scan) : Prop :=
  ∀ x ∈ (s.loRaDevices ++ entries).zip scan.replies,
    ∀ y ∈ (s.loRaDevices ++ entries).zip scan.replies,
      x.1.loRaAddress = y.1.loRaAddress → (x.2.Answers ↔ y.2.Answers)

section Runs

variable {file : List Byte} {entries : List DeviceInfo} {s : LoRaBroker} {scan : Scan}
  {result : LoRaBroker × List IoTPackage}

theorem map_loRaAddress_of_node {devices devices' : List DeviceInfo}
    (h : devices.map node = devices'.map node) :
    devices.map (·.loRaAddress) = devices'.map (·.loRaAddress) := by
  have := congrArg (List.map Prod.fst) h
  simpa [node, Function.comp_def] using this

theorem scannedOnce_of_noneLeftOver (hentries : configDevices file = .ok entries)
    (hdistinct : (entries.map (·.loRaAddress)).Nodup) (h : CompletedScan file s scan result)
    (hnone : NoneLeftOver s scan) : ScannedOnce entries s scan result := by
  obtain ⟨hreplies, hnodes, hregistered⟩ := completedScan_eq hentries h
  obtain ⟨hleft, hright, hvisits⟩ := visits_eq hreplies
  -- The visits of the left-over entries contribute nothing.
  have hanswered : ∀ address, AnsweredAt ((s.loRaDevices ++ entries).zip scan.replies) address ↔
      AnsweredAt (entries.zip (scan.replies.drop s.loRaDevices.length)) address := by
    intro address
    rw [hvisits, answeredAt_append_iff]
    refine or_iff_right fun hanswered => ?_
    obtain ⟨x, hx, -, hanswers⟩ := hanswered
    exact hnone x.2 (List.of_mem_zip hx).2 hanswers
  have hdevices : answering (s.loRaDevices ++ entries) scan.replies = entries.filter fun device =>
      AnsweredAt ((s.loRaDevices ++ entries).zip scan.replies) device.loRaAddress := by
    rw [answering_append hreplies, answering_eq_nil hnone, List.nil_append,
      answering_eq_filter hdistinct hright]
    exact List.filter_congr fun device _ => decide_eq_decide.mpr (hanswered _).symm
  rw [hdevices] at hnodes
  refine ⟨hnodes, ?_, hregistered⟩
  rw [map_loRaAddress_of_node hnodes]
  exact (List.filter_sublist.map _).nodup hdistinct

/-- Every entry has a configured address. -/
theorem configured_run (hentries : configDevices file = .ok entries) {scans : List Scan}
    (h : Run (fun s scan s' => ∃ packages, CompletedScan file s scan (s', packages)) {} scans s) :
    ∀ device ∈ s.loRaDevices, device.loRaAddress ∈ entries.map (·.loRaAddress) := by
  refine h.invariant (I := fun s => ∀ device ∈ s.loRaDevices,
    device.loRaAddress ∈ entries.map (·.loRaAddress)) (by simp) ?_
  rintro s scan s' hs ⟨packages, hscan⟩ device hdevice
  obtain ⟨-, hnodes, -⟩ := completedScan_eq hentries hscan
  have hmem : device.loRaAddress ∈ (answering (s.loRaDevices ++ entries) scan.replies).map
      (·.loRaAddress) := by
    rw [← map_loRaAddress_of_node hnodes]
    exact List.mem_map_of_mem hdevice
  obtain ⟨device', hdevice', haddress⟩ := List.mem_map.mp hmem
  rcases List.mem_append.mp (answering_subset _ _ hdevice') with hleft | hnew
  · exact haddress ▸ hs device' hleft
  · exact haddress ▸ List.mem_map_of_mem hnew

/-- A left-over entry that answers is there twice. -/
theorem noneLeftOver_of_scannedOnce (hentries : configDevices file = .ok entries)
    (hs : ∀ device ∈ s.loRaDevices, device.loRaAddress ∈ entries.map (·.loRaAddress))
    (h : CompletedScan file s scan result) (hagree : AnswersAgree entries s scan)
    (honce : ScannedOnce entries s scan result) : NoneLeftOver s scan := by
  intro reply hreply hanswers
  obtain ⟨hreplies, hnodes, -⟩ := completedScan_eq hentries h
  obtain ⟨hleft, hright, hvisits⟩ := visits_eq hreplies
  -- The visit that was answered, and the one of the configured entry with its address.
  rw [← List.map_snd_zip hleft.ge] at hreply
  obtain ⟨x, hx, rfl⟩ := List.mem_map.mp hreply
  obtain ⟨entry, hentry, haddress⟩ := List.mem_map.mp (hs x.1 (List.of_mem_zip hx).1)
  rw [← List.map_fst_zip hright.le] at hentry
  obtain ⟨y, hy, rfl⟩ := List.mem_map.mp hentry
  have hagain : y.2.Answers := by
    refine (hagree y ?_ x ?_ haddress).mpr hanswers
    · rw [hvisits]
      exact List.mem_append_right _ hy
    · rw [hvisits]
      exact List.mem_append_left _ hx
  have hnodup := honce.distinct
  rw [map_loRaAddress_of_node hnodes, answering_append hreplies, List.map_append,
    List.nodup_append] at hnodup
  exact hnodup.2.2 _ (List.mem_map_of_mem (mem_answering_of hx hanswers)) _
    (List.mem_map_of_mem (mem_answering_of hy hagain)) haddress.symm

/-- **A rescan duplicates no node**, after any number of scans, when no entry the
last scan has left answers again; and, as long as a node answers the second visit
as it has answered the first, only then. -/
theorem scannedOnce_iff (hentries : configDevices file = .ok entries)
    (hdistinct : (entries.map (·.loRaAddress)).Nodup) {scans : List Scan}
    (h : Run (fun s scan s' => ∃ packages, CompletedScan file s scan (s', packages)) {} scans s)
    (hscan : CompletedScan file s scan result) :
    (NoneLeftOver s scan → ScannedOnce entries s scan result) ∧
      (AnswersAgree entries s scan →
        (ScannedOnce entries s scan result ↔ NoneLeftOver s scan)) := by
  have hright := scannedOnce_of_noneLeftOver hentries hdistinct hscan
  exact ⟨hright, fun hagree => ⟨noneLeftOver_of_scannedOnce hentries (configured_run hentries h)
    hscan hagree, hright⟩⟩

end Runs

/-! ### One node, scanned twice -/

/-- `N1@{}`. -/
def oneNode : List Byte := lit "N1@\x7b\x7d"

/-- The node joins and acknowledges at once. -/
def prompt : NodeReplies where
  joinResponse := fun _ => lit "JoinOK"
  aliveResponse := fun _ => some msgAck
  heap := fun _ => 0

/-- The node does not join. -/
def silent : NodeReplies where
  joinResponse := fun _ => []
  aliveResponse := fun _ => none
  heap := fun _ => 0

def scanWith (replies : List NodeReplies) : Scan where
  replies := replies
  managerIoTIp := lit "Master"
  askIoTIp := fun i => lit "DEV." ++ showInt i

/-- The entry the scan makes of the node. -/
def entryN1 (iotIp : Text) : DeviceInfo := ⟨iotIp, lit "N1", lit "\x7b\x7d"⟩

theorem completedScan_of {file : List Byte} {s s' : LoRaBroker} {scan : Scan}
    (hload : (loadLoRaConfigFile file s.loRaDevices).toOption.map List.length
      = some scan.replies.length)
    (hscan : (scanAllDevice file scan s).toOption.map Prod.fst = some s') :
    ∃ packages, CompletedScan file s scan (s', packages) := by
  cases hloaded : loadLoRaConfigFile file s.loRaDevices with
  | error fault => simp [hloaded, Except.toOption] at hload
  | ok loaded =>
      cases hresult : scanAllDevice file scan s with
      | error fault => simp [hresult, Except.toOption] at hscan
      | ok result =>
          rw [hloaded] at hload
          rw [hresult] at hscan
          obtain rfl : result.1 = s' := Option.some.inj hscan
          exact ⟨result.2, loaded, hloaded, (Option.some.inj hload).symm, hresult⟩

/-- The first scan finds the node. -/
theorem run_prompt :
    Run (fun s scan s' => ∃ packages, CompletedScan oneNode s scan (s', packages)) {}
      [scanWith [prompt]] ⟨[entryN1 (lit "DEV.0")]⟩ :=
  .snoc .nil (completedScan_of (by decide +kernel) (by decide +kernel))

/-- The entry left over does not answer, the new one does. -/
theorem scannedOnce_prompt : ∃ packages,
    ScannedOnce [entryN1 []] ⟨[entryN1 (lit "DEV.0")]⟩ (scanWith [silent, prompt])
      (⟨[entryN1 (lit "DEV.0")]⟩, packages) := by
  have hnone : NoneLeftOver ⟨[entryN1 (lit "DEV.0")]⟩ (scanWith [silent, prompt]) := by
    intro reply hreply
    obtain rfl : reply = silent := by simpa [scanWith] using hreply
    decide +kernel
  obtain ⟨packages, hscan⟩ : ∃ packages, CompletedScan oneNode ⟨[entryN1 (lit "DEV.0")]⟩
      (scanWith [silent, prompt]) (⟨[entryN1 (lit "DEV.0")]⟩, packages) :=
    completedScan_of (by decide +kernel) (by decide +kernel)
  exact ⟨packages,
    (scannedOnce_iff (by decide +kernel) (by decide +kernel) run_prompt hscan).1 hnone⟩

/-- A node that answers both scans is there twice after the second. -/
theorem not_scannedOnce_again : ∃ s s' packages,
    Run (fun s scan s' => ∃ packages, CompletedScan oneNode s scan (s', packages)) {}
      [scanWith [prompt]] s ∧
    CompletedScan oneNode s (scanWith [prompt, prompt]) (s', packages) ∧
    s'.loRaDevices = [entryN1 (lit "DEV.0"), entryN1 (lit "DEV.1")] ∧
    ¬ ScannedOnce [entryN1 []] s (scanWith [prompt, prompt]) (s', packages) := by
  obtain ⟨packages, hscan⟩ : ∃ packages, CompletedScan oneNode ⟨[entryN1 (lit "DEV.0")]⟩
      (scanWith [prompt, prompt])
      (⟨[entryN1 (lit "DEV.0"), entryN1 (lit "DEV.1")]⟩, packages) :=
    completedScan_of (by decide +kernel) (by decide +kernel)
  have htwice : ¬ ([lit "N1", lit "N1"] : List Text).Nodup := by decide
  exact ⟨_, _, packages, run_prompt, hscan, rfl, fun honce => htwice honce.distinct⟩

end LoRaBroker

end IoTRepublic
