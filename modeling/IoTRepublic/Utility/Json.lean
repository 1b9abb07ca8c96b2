import IoTRepublic.Cpp.Decimal

/-!
# IoTRepublic.Utility.Json

`Utility/JsonUtility.cpp` on top of the JSON library.

The parser and the printer of the library are the parameters of `Jansson`; its
accessors are modelled here. A null pointer returned by an accessor ends up in
the constructor of `std::string`, which raises `std::logic_error`.

Objects are hash tables. They are printed in the order in which their keys were
added, which a text that was printed and parsed again keeps; but iteration visits them
in an order that depends on the hash function and its seed, and may differ from one
process to the next. Of that order the program sees one thing: with which member of
the root it starts. A `JsonRoot` has it beside the value.
-/

namespace IoTRepublic

open Cpp

/-- `json_t`, as far as the program looks into it. Numbers are never read as numbers, so
their text is all there is to them. -/
inductive Json
  /-- The members, in the order in which their keys were added. -/
  | object (members : List (Text × Json))
  | array (elements : List Json)
  | string (value : Text)
  /-- A number, `true`, `false` or `null`. -/
  | scalar (literal : Text)

namespace Json

/-- `json_object_get`: the value under a key, and NULL where there is no object. -/
def objectGet : Json → Text → Option Json
  | object members, key => (members.find? (·.1 = key)).map (·.2)
  | _, _ => none

/-- `json_string_value`: the text of a string, and NULL for every other value. -/
def stringValue : Json → Option Text
  | string value => some value
  | _ => none

/-- The keys of an object, in the order of addition; none for anything else. -/
def keys : Json → List Text
  | object members => members.map (·.1)
  | _ => []

end Json

/-- What `json_loads` returns: a value, and where `json_object_iter` starts on it. The two
last fields keep the first key among those of the value. -/
@[ext]
structure JsonRoot where
  value : Json
  /-- `json_object_iter_key(json_object_iter(root))`: the hash table decides whose key it is.
  `none` is the null pointer, for a root that is no object or has no members. -/
  firstKey : Option Text
  firstKey_mem : ∀ key, firstKey = some key → key ∈ value.keys
  keys_eq_nil : firstKey = none → value.keys = []

/-- An object on which iteration happens to start with the member that was added first. -/
def JsonRoot.object (members : List (Text × Json)) : JsonRoot where
  value := .object members
  firstKey := members.head?.map (·.1)
  firstKey_mem := by
    intro key hkey
    obtain ⟨member, hmember, rfl⟩ := Option.map_eq_some_iff.mp hkey
    exact List.mem_map_of_mem (List.mem_of_head? hmember)
  keys_eq_nil := by
    intro hnone
    rw [Option.map_eq_none_iff, List.head?_eq_none_iff] at hnone
    rw [hnone]
    rfl

/-- The functions of the JSON library, in one process. That it is one process matters:
where iteration starts is decided by a seed drawn when the library is first used. -/
structure Jansson where
  /-- `json_loads(text, 0, &error)`, for a C string. `none` is NULL, for a text that is no
  JSON document. -/
  loads : Text → Option JsonRoot
  /-- `json_dumps(root, JSON_ENSURE_ASCII | JSON_COMPACT | JSON_PRESERVE_ORDER)`; `none`
  is NULL, which the caller takes for a text all the same. -/
  dumps : Json → Option Text
  /-- Does `json_string` accept the C string? It wants UTF-8. -/
  isText : Text → Bool

/-- `std::string(const char *)`. What an accessor did not find arrives here as a null
pointer. -/
def stringOfPointer : Option Text → Except Fault Text
  | some text => .ok text
  | none => .error .logicError

namespace JsonUtility

variable (J : Jansson)

/-- `LoadJsonData`. The library is handed a C string, so what stands behind the first NUL
of a payload is never seen. -/
def loadJsonData (text : Text) : Option JsonRoot := J.loads (cStr text)

/-- `ExportJsonContent`: the printed text, as a `std::string`. -/
def exportJsonContent (root : JsonRoot) : Except Fault Text := stringOfPointer (J.dumps root.value)

/-- `GetFirstKeyName`: by this name the program tells the kinds of messages apart. `none`
is the null pointer. -/
def getFirstKeyName (root : Option JsonRoot) : Except Fault Text :=
  stringOfPointer (root.bind (·.firstKey))

/-- `GetValueInFirstObject`: the string under a key of the member iteration starts
with. -/
def getValueInFirstObject (root : Option JsonRoot) (keyName : Text) : Except Fault Text := do
  let rootName ← getFirstKeyName root
  let firstObj := root.bind (·.value.objectGet rootName)
  let value := firstObj.bind (·.objectGet keyName)
  stringOfPointer (value.bind (·.stringValue))

/-- `GetArrayValueInFirstObject`: the string under a key of one element of an array in
that member. -/
def getArrayValueInFirstObject (root : Option JsonRoot) (arrayName : Text) (arrayIndex : Nat)
    (keyName : Text) : Except Fault Text := do
  let rootName ← getFirstKeyName root
  let firstObj := root.bind (·.value.objectGet rootName)
  let arr := firstObj.bind (·.objectGet arrayName)
  match arr with
  | some (.array elements) =>
    let value := (elements[arrayIndex]?).bind (·.objectGet keyName)
    stringOfPointer (value.bind (·.stringValue))
  | _ => stringOfPointer none

/-- `GetArrayLengthInFirstObject`: the number of elements as an `int`, and zero for what
is no array. -/
def getArrayLengthInFirstObject (root : Option JsonRoot) (arrayName : Text) : Except Fault Int := do
  let rootName ← getFirstKeyName root
  let firstObj := root.bind (·.value.objectGet rootName)
  let arr := firstObj.bind (·.objectGet arrayName)
  match arr with
  | some (.array elements) => return toInt elements.length
  | _ => return 0

/-- The first member of the name is changed, where it is. -/
def updateMember (change : Json → Json) (keyName : Text) : List (Text × Json) → List (Text × Json)
  | [] => []
  | (key, old) :: members =>
    if key = keyName then (key, change old) :: members
    else (key, old) :: updateMember change keyName members

theorem map_fst_updateMember (change : Json → Json) (keyName : Text)
    (members : List (Text × Json)) :
    (updateMember change keyName members).map (·.1) = members.map (·.1) := by
  induction members with
  | nil => rfl
  | cons member members ih =>
      rw [updateMember]
      split
      · rfl
      · rw [List.map_cons, List.map_cons, ih]

/-- The first member of the name gets the value; `json_object_set` leaves the
object alone when `json_string` has failed. -/
def setMember (keyName value : Text) (members : List (Text × Json)) : List (Text × Json) :=
  updateMember (fun old => if J.isText (cStr value) then .string (cStr value) else old) keyName
    members

/-- The loop of `SetValueInFirstObject` over the members of the first object. -/
def setInObject (keyName value : Text) : Json → Json
  | .object members => .object (setMember J keyName value members)
  | firstObj => firstObj

/-- The value, with the member iteration starts with changed in place. -/
def updateFirst (change : Json → Json) : Option Text → Json → Json
  | some rootKey, .object members => .object (updateMember change rootKey members)
  | _, root => root

theorem keys_updateFirst (change : Json → Json) (firstKey : Option Text) (value : Json) :
    (updateFirst change firstKey value).keys = value.keys := by
  cases firstKey with
  | none => rfl
  | some rootKey =>
      cases value with
      | object members => exact map_fst_updateMember change rootKey members
      | _ => rfl

/-- `SetValueInFirstObject` replaces a string that is there; of a key that is not it takes
no notice. No key is added, so iteration starts where it did. -/
def setValueInFirstObject (root : JsonRoot) (keyName value : Text) : JsonRoot where
  value := updateFirst (setInObject J keyName value) root.firstKey root.value
  firstKey := root.firstKey
  firstKey_mem := by
    rw [keys_updateFirst]
    exact root.firstKey_mem
  keys_eq_nil := by
    rw [keys_updateFirst]
    exact root.keys_eq_nil

end JsonUtility

end IoTRepublic
