import IoTRepublic.Broker.FakeBroker
import IoTRepublic.Broker.ReceiveStreamSound
import IoTRepublic.IoT.MessageSound

/-!
# IoTRepublic.Broker.FakeBrokerSound

Every command gets its answer.

`answer_request` is one package: what comes back has the addresses the other way round
and the ID of the command, and says `OK` or the next random number. `serve_run` carries
it over a stream that is cut into chunks.

An answer is described from the other side (`AnsweredBy`): the bytes that are sent are a
package for whoever decodes them, with the addresses, the ID and the value it should have.
The conditions are those on any package of the network: addresses in use, ASCII, and a
length an `int` can count; they are asked of the answer, which is not of the broker's
choosing but of the command's.
-/

namespace IoTRepublic

open Cpp IoTUtility Framing JsonUtility

namespace FakeBroker

variable {J : Jansson} {rand : Nat → Nat}

/-- A command on its way to a device. The type `None` has no word of its own and is never
sent. -/
structure Request (J : Jansson) where
  cmdType : CommandType
  id : Text
  value : Text
  soIp : Text
  desIp : Text
  cmd : IoTCommand
  package : IoTPackage
  known : cmdType ≠ .none
  command : IoTCommand.ofValues J cmdType id value = .ok cmd
  built : IoTPackage.ofString IoTPackage.protocolVersion soIp desIp cmd.sendedData = .ok package
  transmitted : Transmitted package

namespace Request

/-- The ID as the device reads it. -/
def readId (request : Request J) : Text := written J (lit "0") request.id

/-- The answer with the value is ASCII, as `JSON_ENSURE_ASCII` makes it, and an `int` can count
the package it is sent in. -/
def AnswerFits (request : Request J) (value : Text) : Prop :=
  ∀ responseCmd ∈ (IoTCommand.ofValues J .readResponse request.readId value).toOption,
    responseCmd.sendedData.length + 100 < 2 ^ 31 ∧ ∀ b ∈ responseCmd.sendedData, b.toNat < 0x80

instance (request : Request J) (value : Text) : Decidable (request.AnswerFits value) :=
  inferInstanceAs (Decidable (∀ responseCmd ∈ _, _ ∧ _))

/-- No answer is too long for a package. -/
def Answerable (rand : Nat → Nat) (request : Request J) : Prop :=
  request.AnswerFits (lit "OK") ∧ ∀ k, request.AnswerFits (valueInt rand k)

/-- The package answers the command with the value, and the other side gets it: it reads the
bytes that are sent as this package, and has the bytes behind them left. -/
structure AnsweredBy (request : Request J) (value : Text) (package : IoTPackage) : Prop where
  sor : package.sorIp = request.desIp
  des : package.desIp = request.soIp
  read : IoTCommand.ofContent J package.dataVector
    = .ok ⟨some .readResponse, request.readId, value, package.dataVector⟩
  received : ∀ rest, (package.dataVectorForSending ++ rest).length < 2 ^ 31 →
    getCompletedPackage (package.dataVectorForSending ++ rest) = .ok ⟨some package, .noError, rest⟩

end Request

/-- The packages answer the commands one by one; the first number is the `k`-th. -/
inductive Answered (rand : Nat → Nat) : Nat → List (Request J) → List IoTPackage → Prop
  | nil {k : Nat} : Answered rand k [] []
  | number {k : Nat} {request : Request J} {requests : List (Request J)} {package : IoTPackage}
      {packages : List IoTPackage} (hread : request.cmdType = .readRequest)
      (hanswer : request.AnsweredBy (valueInt rand k) package)
      (hrest : Answered rand (k + 1) requests packages) :
      Answered rand k (request :: requests) (package :: packages)
  | ok {k : Nat} {request : Request J} {requests : List (Request J)} {package : IoTPackage}
      {packages : List IoTPackage} (hother : request.cmdType ≠ .readRequest)
      (hanswer : request.AnsweredBy (lit "OK") package)
      (hrest : Answered rand k requests packages) :
      Answered rand k (request :: requests) (package :: packages)

/-! ### One package -/

theorem isJsonString_written (hJ : J.Faithful) (value : Text) :
    IsJsonString (written J (lit "0") value) := by
  rw [written, hJ.isText_eq]
  split
  · rename_i htext
    exact ⟨zero_notMem_cStr value, htext⟩
  · decide

theorem isJsonString_ok : IsJsonString (lit "OK") := by decide

theorem readType_text {cmdType : CommandType} (h : cmdType ≠ .none) :
    IoTCommand.readType cmdType.text = some cmdType := by
  cases cmdType with
  | none => exact absurd rfl h
  | readRequest | readResponse | write | management => decide

/-- What the broker finds in the package. -/
theorem Request.read (hJ : J.Faithful) (request : Request J) :
    request.package.sorIp = request.soIp ∧ request.package.desIp = request.desIp ∧
      ∃ recvCmd, IoTCommand.ofContent J request.package.dataVector = .ok recvCmd ∧
        recvCmd.cmdType = some request.cmdType ∧ recvCmd.id = request.readId := by
  obtain ⟨text, hsent, hread⟩ :=
    IoTCommand.ofContent_ofValues hJ request.cmdType request.id request.value
  obtain ⟨headerLength, -, -, -, hpackage⟩ :=
    IoTPackage.ofVector_ok_iff.mp (IoTPackage.ofString_ok_iff.mp request.built).1
  have htext : request.cmd.sendedData = text := by
    rw [Except.ok.inj (request.command.symm.trans hsent)]
  rw [← htext] at hread
  rw [hpackage]
  exact ⟨rfl, rfl, _, hread, readType_text request.known, rfl⟩

/-- The command has come between two addresses in use. -/
theorem Request.addresses (request : Request J) : Address request.soIp ∧ Address request.desIp := by
  obtain ⟨soIp, desIp, data, hsendable, -, heq⟩ := request.transmitted.exists_sent
  obtain ⟨headerLength, -, -, -, hpackage⟩ :=
    IoTPackage.ofVector_ok_iff.mp (IoTPackage.ofString_ok_iff.mp request.built).1
  have hsor : request.soIp = soIp := congrArg IoTPackage.sorIp (hpackage.symm.trans heq)
  have hdes : request.desIp = desIp := congrArg IoTPackage.desIp (hpackage.symm.trans heq)
  exact ⟨hsor ▸ hsendable.sor, hdes ▸ hsendable.des⟩

/-- An answer that fits is sent, and this is what is found in it. -/
theorem Request.exists_respond (hJ : J.Faithful) {request : Request J} {value : Text}
    (hvalue : IsJsonString value) (hfits : request.AnswerFits value) :
    ∃ package, respond J request.package request.readId value = .ok package ∧
      request.AnsweredBy value package := by
  obtain ⟨hsor, hdes, -⟩ := request.read hJ
  obtain ⟨text, hsent, hread⟩ :=
    IoTCommand.ofContent_ofValues hJ .readResponse request.readId value
  have hid : written J (lit "0") request.readId = request.readId :=
    (IoTCommand.written_zero_iff hJ).mpr (isJsonString_written hJ request.id)
  rw [(IoTCommand.written_zero_iff hJ).mpr hvalue, hid] at hread
  obtain ⟨hshort, hascii⟩ := hfits _ (by rw [hsent]; rfl)
  have hsendable : Sendable request.desIp request.soIp text :=
    sendable_of_short request.addresses.2 request.addresses.1 hshort
  have htransmitted := transmitted_sent hsendable hascii
  refine ⟨_, ?_, rfl, rfl, hread, fun rest hlt => htransmitted.getCompletedPackage_eq hlt⟩
  rw [respond, hsent, ok_bind, hsor, hdes]
  exact hsendable.ofString_eq

/-- One command, one answer. A read request draws the next random number; any other
command leaves the numbers alone and is answered with OK. -/
theorem answer_request (hJ : J.Faithful) {request : Request J} (hfit : request.Answerable rand)
    (s : Answering) :
    ∃ package, (request.cmdType = .readRequest ∧
        answer J rand request.package s = .ok ⟨s.drawn + 1, s.sent ++ [package]⟩ ∧
        request.AnsweredBy (valueInt rand s.drawn) package) ∨
      (request.cmdType ≠ .readRequest ∧
        answer J rand request.package s = .ok ⟨s.drawn, s.sent ++ [package]⟩ ∧
        request.AnsweredBy (lit "OK") package) := by
  obtain ⟨-, -, recvCmd, hrecv, htype, hid⟩ := request.read hJ
  by_cases hread : request.cmdType = .readRequest
  · have hnumber : IsJsonString (valueInt rand s.drawn) := isJsonString_showInt _
    obtain ⟨package, hpackage, hanswered⟩ := Request.exists_respond hJ hnumber (hfit.2 s.drawn)
    refine ⟨package, .inl ⟨hread, ?_, hanswered⟩⟩
    rw [answer, hrecv, ok_bind, htype, hread, hid]
    dsimp only
    rw [hpackage]
    rfl
  · obtain ⟨package, hpackage, hanswered⟩ :=
      Request.exists_respond hJ isJsonString_ok hfit.1
    refine ⟨package, .inr ⟨hread, ?_, hanswered⟩⟩
    rw [answer, hrecv, ok_bind, htype, hid]
    split
    · rename_i heq
      exact absurd (Option.some.inj heq) hread
    · rw [hpackage]
      rfl
    · rename_i heq
      cases heq

/-! ### The stream -/

/-- Many commands, as many answers. The numbers are drawn in the order of the read
requests among them. -/
theorem answered_of_foldlM (hJ : J.Faithful) {requests : List (Request J)}
    (hfit : ∀ request ∈ requests, request.Answerable rand) {s s' : Answering}
    (h : (requests.map (·.package)).foldlM (fun s p => answer J rand p s) s = .ok s') :
    ∃ packages, s'.sent = s.sent ++ packages ∧ Answered rand s.drawn requests packages := by
  induction requests generalizing s with
  | nil =>
      obtain rfl := Except.ok.inj h
      exact ⟨[], (List.append_nil _).symm, .nil⟩
  | cons request requests ih =>
      obtain ⟨hrequest, hrequests⟩ := List.forall_mem_cons.mp hfit
      rw [List.map_cons, List.foldlM_cons] at h
      obtain ⟨package, ⟨hread, hanswer, hby⟩ | ⟨hother, hanswer, hby⟩⟩ :=
        answer_request hJ hrequest s
      · rw [hanswer, ok_bind] at h
        obtain ⟨packages, hsent, hanswered⟩ := ih hrequests h
        exact ⟨package :: packages, by rw [hsent, List.append_assoc]; rfl,
          .number hread hby hanswered⟩
      · rw [hanswer, ok_bind] at h
        obtain ⟨packages, hsent, hanswered⟩ := ih hrequests h
        exact ⟨package :: packages, by rw [hsent, List.append_assoc]; rfl,
          .ok hother hby hanswered⟩

/-- **Every command is answered once and in order**, however the stream is cut. -/
theorem serve_run (hJ : J.Faithful) {requests : List (Request J)} {rounds : List Received}
    (hanswerable : ∀ request ∈ requests, request.Answerable rand)
    (hstream : rounds.flatMap (·.chunk) <+: streamBytes (requests.map (·.package)))
    (hfit : ChunksFit (requests.map (·.package)) rounds) :
    ∃ done left s, requests = done ++ left ∧ serve J rand rounds = .ok s ∧
      rounds.flatMap (·.chunk) = streamBytes (done.map (·.package)) ++ s.buffer ∧
      Pending (left.map (·.package.dataVectorForSending)) s.buffer ∧
      Answered rand 0 done s.handler.sent := by
  have hreturns : ∀ request ∈ requests, ∀ s, Returns (answer J rand request.package s) := by
    intro request hrequest s
    obtain ⟨package, ⟨-, hanswer, -⟩ | ⟨-, hanswer, -⟩⟩ :=
      answer_request hJ (hanswerable request hrequest) s
    · exact ⟨_, hanswer⟩
    · exact ⟨_, hanswer⟩
  have hloop : ReceiveLoop.fakeBroker.dropping = false := rfl
  obtain ⟨done, left, s, rfl, hrun, hbytes, hpending, hdone⟩ :=
    runRounds_of_items hloop {} (fun request _ => request.transmitted) hreturns hstream hfit
  obtain ⟨packages, hsent, hanswered⟩ :=
    answered_of_foldlM hJ (fun request hrequest =>
      hanswerable request (List.mem_append_left _ hrequest)) hdone
  rw [List.nil_append] at hsent
  exact ⟨done, left, s, rfl, hrun, hbytes, hpending, hsent ▸ hanswered⟩

/-! ### A sensor and a fan -/

def managerCommand (cmdType : CommandType) (id : Text) : IoTCommand :=
  (IoTCommand.ofValues jsonPrinter cmdType id (lit "0")).toOption.getD ⟨none, [], [], []⟩

/-- A command of the manager to a device. -/
def managerRequest (cmdType : CommandType) (id : Text) (hknown : cmdType ≠ .none)
    (hshort : (managerCommand cmdType id).sendedData.length + 100 < 2 ^ 31)
    (hascii : ∀ b ∈ (managerCommand cmdType id).sendedData, b.toNat < 0x80) :
    Request jsonPrinter :=
  have hsendable : Sendable (lit "Master") (lit "DEV." ++ showInt 3)
      (managerCommand cmdType id).sendedData :=
    sendable_of_short .manager (.device 3 (by decide)) hshort
  have hcommand : IoTCommand.ofValues jsonPrinter cmdType id (lit "0")
      = .ok (managerCommand cmdType id) := by
    obtain ⟨text, hsent, -⟩ :=
      IoTCommand.ofContent_ofValues jsonPrinter_faithful cmdType id (lit "0")
    rw [managerCommand, hsent]
    rfl
  { cmdType := cmdType
    id := id
    value := lit "0"
    soIp := lit "Master"
    desIp := lit "DEV." ++ showInt 3
    cmd := managerCommand cmdType id
    package := sent (lit "Master") (lit "DEV." ++ showInt 3) (managerCommand cmdType id).sendedData
    known := hknown
    command := hcommand
    built := hsendable.ofString_eq
    transmitted := transmitted_sent hsendable hascii }

def readLux : Request jsonPrinter :=
  managerRequest .readRequest (lit "lux") (by decide) (by decide +kernel) (by decide +kernel)

def fanOn : Request jsonPrinter :=
  managerRequest .write (lit "FON") (by decide) (by decide +kernel) (by decide +kernel)

/-- Two numbers in turn. -/
def alternating (k : Nat) : Nat := 41 + k % 2

theorem answerable_alternating {request : Request jsonPrinter}
    (hok : request.AnswerFits (lit "OK")) (heven : request.AnswerFits (showInt 41))
    (hodd : request.AnswerFits (showInt 42)) : request.Answerable alternating := by
  refine ⟨hok, fun k => ?_⟩
  rw [valueInt, alternating]
  rcases Nat.mod_two_eq_zero_or_one k with h | h
  · rw [h]
    exact heven
  · rw [h]
    exact hodd

def commands : List (Request jsonPrinter) := [readLux, fanOn, readLux]

/-- The cut falls into the second command. -/
def commandRounds : List Received :=
  let bytes := streamBytes (commands.map (·.package))
  [⟨bytes.take 100, false⟩, ⟨bytes.drop 100, false⟩]

theorem serve_run_commands : ∃ s,
    serve jsonPrinter alternating commandRounds = .ok s ∧ s.buffer = [] ∧
      Answered alternating 0 commands s.handler.sent := by
  have hlux : readLux.Answerable alternating :=
    answerable_alternating (by decide +kernel) (by decide +kernel) (by decide +kernel)
  have hfan : fanOn.Answerable alternating :=
    answerable_alternating (by decide +kernel) (by decide +kernel) (by decide +kernel)
  have hanswerable : ∀ request ∈ commands, request.Answerable alternating := by
    intro request hrequest
    simp only [commands, List.mem_cons, List.not_mem_nil, or_false] at hrequest
    rcases hrequest with rfl | rfl | rfl
    · exact hlux
    · exact hfan
    · exact hlux
  have hcut : commandRounds.flatMap (·.chunk) = streamBytes (commands.map (·.package)) := by
    simp [commandRounds]
  have hfit : ChunksFit (commands.map (·.package)) commandRounds := by
    unfold ChunksFit
    decide +kernel
  obtain ⟨done, left, s, hsplit, hrun, hbytes, hpending, hanswered⟩ :=
    serve_run jsonPrinter_faithful hanswerable (hcut ▸ List.prefix_refl _) hfit
  rw [hcut, hsplit] at hbytes
  obtain ⟨rfl, hbuffer⟩ := nothing_left (fun request _ => request.transmitted) hbytes hpending
  rw [List.append_nil] at hsplit
  exact ⟨s, hrun, hbuffer, hsplit ▸ hanswered⟩

end FakeBroker

end IoTRepublic
