import IoTRepublic.IoT.Command
import IoTRepublic.Utility.JsonPrinter

/-!
# IoTRepublic.IoT.MessageSound

What a device reads from the messages it is sent.

A rule comes back field for field. A command comes back only if its type is not
`None`, which the reader has no word for, and if the ID and the value are UTF-8:
where they are not, the template's `"0"` is sent in their place.

The library appears as `J.Faithful`: texts it has printed are parsed to the same members.
Nothing is assumed of the order of members, and the messages are read by name. So a
message is a list of members that are set one after the other in a template
(`templateMembers`, `memberKeys`), and what comes back is read off the last one that was
set under each name.
-/

namespace IoTRepublic

open Cpp JsonUtility

variable {J : Jansson}

/-! ### Commands -/

namespace IoTCommand

/-- The members of the template. -/
def templateMembers : List (Text × Text) :=
  [(lit "Type", lit "None"), (lit "ID", lit "0"), (lit "Value", lit "0")]

/-- What is written to them. -/
def writes (cmdType : CommandType) (id value : Text) : List (Text × Text) :=
  [(lit "Type", cmdType.text), (lit "ID", id), (lit "Value", value)]

theorem templete_eq : templete = objectText (lit "IOTCMD") templateMembers := by decide

theorem ofContent_eq {content id value type : Text} {root : JsonRoot}
    (hload : loadJsonData J content = some root) (hroot : root.firstKey = some (lit "IOTCMD"))
    (hid : root.firstText? (lit "ID") = some id)
    (hvalue : root.firstText? (lit "Value") = some value)
    (htype : root.firstText? (lit "Type") = some type) :
    ofContent J content = .ok ⟨readType type, id, value, content⟩ := by
  rw [ofContent, hload, getFirstKeyName_ok_iff.mpr hroot, ok_bind, if_pos rfl,
    getValueInFirstObject_ok_iff.mpr hid, ok_bind, getValueInFirstObject_ok_iff.mpr hvalue, ok_bind,
    getValueInFirstObject_ok_iff.mpr htype, ok_bind, pure_eq_ok]

theorem isText_text (hJ : J.Faithful) (cmdType : CommandType) :
    J.isText (cStr cmdType.text) = true := by
  rw [hJ.isText_eq]
  cases cmdType <;> decide

/-- What is read where a command has been sent. -/
theorem ofContent_ofValues (hJ : J.Faithful) (cmdType : CommandType) (id value : Text) :
    ∃ text, ofValues J cmdType id value = .ok ⟨some cmdType, id, value, text⟩ ∧
      ofContent J text = .ok ⟨readType cmdType.text, written J (lit "0") id,
        written J (lit "0") value, text⟩ := by
  have hkeys : (keys (writes cmdType id value)).Nodup := by
    show [lit "Type", lit "ID", lit "Value"].Nodup
    decide
  obtain ⟨root, text, root', hload, hprint, hread, hroot, hmembers⟩ :=
    hJ.message (lit "IOTCMD") templateMembers (writes cmdType id value) (by decide) (by decide)
      (by decide) (by decide) hkeys
  have htype := hmembers (lit "Type") cmdType.text (lit "None") (by simp [writes])
    (by simp [templateMembers])
  rw [written, if_pos (isText_text hJ cmdType)] at htype
  have hsent : ofValues J cmdType id value = .ok ⟨some cmdType, id, value, text⟩ := by
    rw [ofValues, templete_eq, hload]
    show exportJsonContent J (setAll J root (writes cmdType id value)) >>= _ = _
    rw [hprint]
    rfl
  have hreceived := ofContent_eq hread hroot
    (hmembers (lit "ID") id (lit "0") (by simp [writes]) (by simp [templateMembers]))
    (hmembers (lit "Value") value (lit "0") (by simp [writes]) (by simp [templateMembers])) htype
  have hnonul : cStr cmdType.text = cmdType.text := by cases cmdType <;> decide
  rw [hnonul] at hreceived
  exact ⟨text, hsent, hreceived⟩

/-- What is sent comes back: the command is built, and whoever reads its text has the same
type, ID and value. -/
def RoundTrip (J : Jansson) (cmdType : CommandType) (id value : Text) : Prop :=
  ∃ sent read, ofValues J cmdType id value = .ok sent ∧ ofContent J sent.sendedData = .ok read ∧
    read.cmdType = some cmdType ∧ read.id = id ∧ read.value = value

theorem readType_text_iff (cmdType : CommandType) :
    readType cmdType.text = some cmdType ↔ cmdType ≠ .none := by
  cases cmdType <;> decide

/-- A string is sent as it is exactly if it can be a JSON value. -/
theorem written_zero_iff (hJ : J.Faithful) {value : Text} :
    written J (lit "0") value = value ↔ IsJsonString value := by
  rw [written, hJ.isText_eq, IsJsonString]
  split
  · rename_i htext
    rw [cStr_eq_self_iff]
    constructor
    · intro hnul
      rw [cStr_of_noNul hnul] at htext
      exact ⟨hnul, htext⟩
    · exact fun hstring => hstring.1
  · rename_i htext
    constructor
    · intro hzero
      subst hzero
      exact absurd (by decide) htext
    · intro hstring
      rw [cStr_of_noNul hstring.1] at htext
      exact absurd hstring.2 htext

/-- The three parts come back one by one. -/
theorem roundTrip_iff_each (hJ : J.Faithful) (cmdType : CommandType) (id value : Text) :
    RoundTrip J cmdType id value ↔ readType cmdType.text = some cmdType ∧
      written J (lit "0") id = id ∧ written J (lit "0") value = value := by
  obtain ⟨text, hsent, hread⟩ := ofContent_ofValues hJ cmdType id value
  constructor
  · intro h
    obtain ⟨sent, read, hsent', hread', hsame⟩ := h
    obtain rfl := Except.ok.inj (hsent.symm.trans hsent')
    obtain rfl := Except.ok.inj (hread.symm.trans hread')
    exact hsame
  · intro hsame
    exact ⟨_, _, hsent, hread, hsame⟩

theorem roundTrip_iff_utf8 (hJ : J.Faithful) (cmdType : CommandType) {id value : Text}
    (hid : 0 ∉ id) (hvalue : 0 ∉ value) :
    RoundTrip J cmdType id value ↔
      cmdType ≠ .none ∧ utf8CheckString id = true ∧ utf8CheckString value = true := by
  rw [roundTrip_iff_each hJ, readType_text_iff, written_zero_iff hJ, written_zero_iff hJ,
    IsJsonString, IsJsonString, and_iff_right hid, and_iff_right hvalue]

theorem roundTrip_iff_celsius :
    RoundTrip jsonPrinter .readResponse (lit "temp") [0x32, 0x31, 0xC2, 0xB0] ↔
      CommandType.readResponse ≠ .none ∧ utf8CheckString (lit "temp") = true ∧
        utf8CheckString [0x32, 0x31, 0xC2, 0xB0] = true :=
  roundTrip_iff_utf8 jsonPrinter_faithful .readResponse (by decide) (by decide)

/-- A command of type `None` comes back without a type, and the byte 255 as `"0"`. -/
theorem not_roundTrip : ¬ ∃ J : Jansson, J.Faithful ∧
    (RoundTrip J .none (lit "1") (lit "1") ∨ RoundTrip J .readResponse (lit "1") [0xFF]) := by
  intro h
  obtain ⟨J, hJ, h⟩ := h
  cases h with
  | inl h =>
      have htype := ((roundTrip_iff_each hJ .none _ _).mp h).1
      exact absurd htype (by decide)
  | inr h =>
      have hsame := ((roundTrip_iff_each hJ .readResponse _ _).mp h).2.2
      exact absurd ((written_zero_iff hJ).mp hsame) (by decide)

end IoTCommand

/-! ### Rules -/

namespace IoTRule

/-- The keys of the members, all of them empty in the template. -/
def memberKeys : List Text :=
  [lit "Type", lit "Name", lit "ReadFrom", lit "ReadID", lit "ReadValue", lit "WriteTo",
    lit "WriteID", lit "WriteValue", lit "WriteRul", lit "ActionFrequency"]

def templateMembers : List (Text × Text) := memberKeys.map fun key => (key, [])

/-- The strings of a rule, its frequency apart. -/
def texts (rule : IoTRule) : List Text :=
  [rule.type, rule.name, rule.readFrom, rule.readID, rule.readValue, rule.writeTo, rule.writeID,
    rule.writeValue, rule.writeRul]

/-- What is written to the members. -/
def writes (rule : IoTRule) : List (Text × Text) :=
  memberKeys.zip (rule.texts ++ [showInt rule.actionFrequency])

theorem ruleTemplate_eq : ruleTemplate = objectText (lit "IOTRUL") templateMembers := by
  decide +kernel

theorem keys_writes (rule : IoTRule) : keys (writes rule) = memberKeys := rfl

/-- Every field comes back as itself, whatever order the members come in. -/
theorem ofContent_packet (hJ : J.Faithful) (rule : IoTRule) (hfreq : InInt rule.actionFrequency)
    (htexts : ∀ text ∈ rule.texts, IsJsonString text) :
    ∃ jsonData, rule.packet J = .ok { rule with jsonData := jsonData } ∧
      IoTRule.ofContent J jsonData = .ok { rule with jsonData := jsonData } := by
  have hstrings : ∀ write ∈ writes rule, IsJsonString write.2 := by
    intro write hwrite
    have hmem := (List.of_mem_zip (a := write.1) (b := write.2) hwrite).2
    cases List.mem_append.mp hmem with
    | inl hmem => exact htexts _ hmem
    | inr hmem => exact List.mem_singleton.mp hmem ▸ isJsonString_showInt rule.actionFrequency
  obtain ⟨root, text, root', hload, hprint, hread, -, hmembers⟩ :=
    hJ.message (lit "IOTRUL") templateMembers (writes rule) (by decide) (by decide +kernel)
      (by decide +kernel) (by decide +kernel) (keys_writes rule ▸ by decide +kernel)
  have hget : ∀ write ∈ writes rule, getValueInFirstObject (some root') write.1 = .ok write.2 := by
    intro write hwrite
    have hkey : write.1 ∈ memberKeys := keys_writes rule ▸ mem_keys hwrite
    have hmember := hmembers write.1 write.2 [] hwrite (List.mem_map.mpr ⟨write.1, hkey, rfl⟩)
    obtain ⟨hnul, hutf8⟩ := hstrings write hwrite
    rw [written, cStr_of_noNul hnul, hJ.isText_eq, if_pos hutf8] at hmember
    exact getValueInFirstObject_ok_iff.mpr hmember
  refine ⟨text, ?_, ?_⟩
  · rw [packet, ruleTemplate_eq, hload]
    show exportJsonContent J (setAll J root (writes rule)) >>= _ = _
    rw [hprint]
    rfl
  · unfold IoTRule.ofContent
    rw [hread]
    dsimp only
    rw [hget (lit "Type", rule.type) (by simp [writes, memberKeys, texts]), ok_bind,
      hget (lit "Name", rule.name) (by simp [writes, memberKeys, texts]), ok_bind,
      hget (lit "ReadFrom", rule.readFrom) (by simp [writes, memberKeys, texts]), ok_bind,
      hget (lit "ReadID", rule.readID) (by simp [writes, memberKeys, texts]), ok_bind,
      hget (lit "ReadValue", rule.readValue) (by simp [writes, memberKeys, texts]), ok_bind,
      hget (lit "WriteTo", rule.writeTo) (by simp [writes, memberKeys, texts]), ok_bind,
      hget (lit "WriteID", rule.writeID) (by simp [writes, memberKeys, texts]), ok_bind,
      hget (lit "WriteValue", rule.writeValue) (by simp [writes, memberKeys, texts]), ok_bind,
      hget (lit "WriteRul", rule.writeRul) (by simp [writes, memberKeys, texts]), ok_bind,
      hget (lit "ActionFrequency", showInt rule.actionFrequency)
        (by simp [writes, memberKeys, texts]), ok_bind]
    dsimp only
    rw [cStr_of_noNul (isJsonString_showInt rule.actionFrequency).1, atoi_showInt hfreq, ok_bind]
    rfl

/-- A rule with a quoted name and a negative frequency. -/
def cooler : IoTRule where
  type := lit "Ge"
  name := lit "cooler \"1\""
  readFrom := lit "10.0.0.3"
  readID := lit "temp"
  readValue := lit "30"
  writeTo := lit "10.0.0.4"
  writeID := lit "fan"
  writeValue := lit "1"
  actionFrequency := -30

theorem ofContent_packet_cooler : ∃ jsonData,
    cooler.packet jsonPrinter = .ok { cooler with jsonData := jsonData } ∧
      IoTRule.ofContent jsonPrinter jsonData = .ok { cooler with jsonData := jsonData } :=
  ofContent_packet jsonPrinter_faithful cooler (by decide) (by decide)

end IoTRule

end IoTRepublic
