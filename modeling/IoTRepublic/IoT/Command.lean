import IoTRepublic.Utility.Json

/-!
# IoTRepublic.IoT.Command

`IoT/IoTCommand.h` and `IoT/IoTRule.h`: the two JSON messages the manager and the
ruler exchange with devices.

Both are objects with a single member, whose name tells which message it is (`IOTCMD` or
`IOTRUL`) and whose value is an object of strings. They are written by setting the members
of a template and read member by member; a member that is missing reads as a null pointer,
and building a `std::string` of that is undefined. The JSON library is a parameter
(`Jansson`): what it must do for a message to survive the trip is stated where it is used.
-/

namespace IoTRepublic

open Cpp JsonUtility

/-- `IoTCommand::CommandType`: a request for a value, the response to it, a write, and a
message for the manager itself. `None` is never read from a message. -/
inductive CommandType
  | none
  | readRequest
  | readResponse
  | write
  | management
  deriving DecidableEq, Repr

/-- How a command type is written into the `Type` member; `readType` is the way back, with
no branch for `None`. -/
def CommandType.text : CommandType → Text
  | none => lit "None"
  | readRequest => lit "Req"
  | readResponse => lit "Res"
  | write => lit "Wri"
  | management => lit "Man"

/-- `IoTCommand`: what a command asks or answers, and the text it was read from or is sent
as (`sendedData`). -/
structure IoTCommand where
  /-- `none` when no branch of the constructor has set it. -/
  cmdType : Option CommandType
  id : Text
  value : Text
  sendedData : Text
  deriving DecidableEq, Repr

namespace IoTCommand

variable (J : Jansson)

/-- The template a command is made from; the three members are then set one by one, so the
order of the members on the wire is the template's. -/
def templete : Text :=
  lit "\x7b\"IOTCMD\":\x7b\"Type\":\"None\",\"ID\":\"0\",\"Value\":\"0\"\x7d\x7d"

/-- `IoTCommand(CommandType cmdType, string id, string value)`. Where the template cannot
be parsed the constructor goes on without a text to send. -/
def ofValues (cmdType : CommandType) (id value : Text) : Except Fault IoTCommand := do
  match loadJsonData J templete with
  | none => return ⟨some cmdType, id, value, []⟩
  | some root =>
    let root := setValueInFirstObject J root (lit "Type") cmdType.text
    let root := setValueInFirstObject J root (lit "ID") id
    let root := setValueInFirstObject J root (lit "Value") value
    return ⟨some cmdType, id, value, ← exportJsonContent J root⟩

/-- How a command type is read. A text no branch knows leaves the member as it was, which
is to say unset. -/
def readType (type : Text) : Option CommandType :=
  if type = lit "Req" then some .readRequest
  else if type = lit "Res" then some .readResponse
  else if type = lit "Wri" then some .write
  else if type = lit "Man" then some .management
  else Option.none

/-- `IoTCommand(string content)` and `IoTCommand(vector<char> *contentVector)`: reads the
members of an `IOTCMD` object, and leaves id and value empty for any other. -/
def ofContent (content : Text) : Except Fault IoTCommand := do
  let root := loadJsonData J content
  let jsonRootName ← getFirstKeyName root
  if jsonRootName = lit "IOTCMD" then
    let id ← getValueInFirstObject root (lit "ID")
    let value ← getValueInFirstObject root (lit "Value")
    let type ← getValueInFirstObject root (lit "Type")
    return ⟨readType type, id, value, content⟩
  else
    return ⟨Option.none, [], [], content⟩

end IoTCommand

/-- `IoTRule`: read the component `readID` of the device `readFrom` every
`actionFrequency` milliseconds, and write what it answers to the component `writeID` of
the device `writeTo`. -/
structure IoTRule where
  type : Text := []
  name : Text := []
  readFrom : Text := []
  readID : Text := []
  readValue : Text := []
  writeTo : Text := []
  writeID : Text := []
  writeValue : Text := []
  writeRul : Text := []
  actionFrequency : Int
  jsonData : Text := []
  deriving DecidableEq, Repr

/-- The template a rule is made from: an `IOTRUL` object with every member a rule has, all
of them empty. -/
def IoTRule.ruleTemplate : Text :=
  lit "\x7b\"IOTRUL\":\x7b\"Type\":\"\",\"Name\":\"\",\"ReadFrom\":\"\",\"ReadID\":\"\","
    ++ lit "\"ReadValue\":\"\",\"WriteTo\":\"\",\"WriteID\":\"\",\"WriteValue\":\"\","
    ++ lit "\"WriteRul\":\"\",\"ActionFrequency\":\"\"\x7d\x7d"

/-- `Packet` writes the rule into the template and keeps the text in `jsonData`. A null
`root` is left alone and prints as a null pointer. -/
def IoTRule.packet (J : Jansson) (rule : IoTRule) : Except Fault IoTRule := do
  match loadJsonData J ruleTemplate with
  | none => .error .logicError
  | some root =>
    let set := fun root key value => setValueInFirstObject J root (lit key) value
    let root := set root "Type" rule.type
    let root := set root "Name" rule.name
    let root := set root "ReadFrom" rule.readFrom
    let root := set root "ReadID" rule.readID
    let root := set root "ReadValue" rule.readValue
    let root := set root "WriteTo" rule.writeTo
    let root := set root "WriteID" rule.writeID
    let root := set root "WriteValue" rule.writeValue
    let root := set root "WriteRul" rule.writeRul
    let root := set root "ActionFrequency" (showInt rule.actionFrequency)
    return { rule with jsonData := ← exportJsonContent J root }

/-- `IoTRule(string jsonContent)` reads the members of a rule; the frequency goes through
`atoi`. Without JSON the frequency stays unset; the one caller has parsed the text
before. -/
def IoTRule.ofContent (J : Jansson) (jsonContent : Text) : Except Fault IoTRule := do
  match loadJsonData J jsonContent with
  | none => .error .undefinedBehaviour
  | some root =>
    let get := fun key => getValueInFirstObject (some root) (lit key)
    let type ← get "Type"
    let name ← get "Name"
    let readFrom ← get "ReadFrom"
    let readID ← get "ReadID"
    let readValue ← get "ReadValue"
    let writeTo ← get "WriteTo"
    let writeID ← get "WriteID"
    let writeValue ← get "WriteValue"
    let writeRul ← get "WriteRul"
    let actionFrequency ← atoi (cStr (← get "ActionFrequency"))
    return { type := type, name := name, readFrom := readFrom, readID := readID
             readValue := readValue, writeTo := writeTo, writeID := writeID
             writeValue := writeValue, writeRul := writeRul
             actionFrequency := actionFrequency, jsonData := jsonContent }

end IoTRepublic
