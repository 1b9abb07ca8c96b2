import IoTRepublic.Jansson.Hashtable
import IoTRepublic.Jansson.Parser
import IoTRepublic.Jansson.Dump

/-!
# IoTRepublic.Jansson.Value

The values of `jansson2.7/value.c`: trees whose objects are hash tables. What the
functions return for a value of another type is kept; references, memory that runs out
and an array's capacity are left out.

Every member of an object has a serial beside its value, which counts the calls of
`json_object_set`. Replacing a member gives it no new serial, so that sorting by the
serials brings the members into the order in which their keys were first added.
-/

namespace IoTRepublic

open Cpp

namespace LibJansson

/-! ### Objects -/

/-- `json_object_t`: the hash table with the members, and the serial of the next one. -/
structure Object (α : Type) where
  hashtable : Hashtable α
  /-- Goes up with every `json_object_set`, also where a member is replaced. -/
  serial : Nat

namespace Object

variable {α : Type}

/-- `json_object`: an object without members. -/
def create : Object α := { hashtable := .init, serial := 0 }

/-- `json_object_size`. -/
def size (object : Object α) : Nat := object.hashtable.size

/-- `json_object_clear`. -/
def clear (object : Object α) : Object α := { hashtable := object.hashtable.clear, serial := 0 }

/-- The serials and the keys, from `json_object_iter` on by `json_object_iter_next`. -/
def iter (object : Object α) : List (Nat × Text) :=
  object.hashtable.list.map fun pair => (pair.serial, pair.key)

section Hash

variable (hashStr : Text → Nat)

/-- `json_object_get`. -/
def get (object : Object α) (key : Text) : Option α := object.hashtable.get hashStr key

/-- `json_object_set_new_nocheck`. -/
def setNocheck (object : Object α) (key : Text) (value : α) : Object α :=
  { hashtable := object.hashtable.set hashStr key object.serial value
    serial := object.serial + 1 }

/-- `json_object_set_new`: the key has to be UTF-8; `none` is -1. -/
def set (object : Object α) (key : Text) (value : α) : Option (Object α) :=
  if utf8CheckString key then some (setNocheck hashStr object key value) else none

/-- `json_object_del`; `none` is -1. -/
def del (object : Object α) (key : Text) : Option (Object α) :=
  (object.hashtable.doDel hashStr key).map fun hashtable => { object with hashtable }

end Hash

end Object

/-! ### Values -/

/-- `json_t`, a tree: the parser never makes a value refer to itself. -/
inductive Value (F : Floats)
  | object (object : Object (Value F))
  /-- The entries of the array. -/
  | array (table : List (Value F))
  | string (value : Text)
  | integer (value : Int)
  | real (value : F.Double)
  | true
  | false
  | null

namespace Value

variable {F : Floats} (hashStr : Text → Nat)

/-- `json_object_get`. -/
def objectGet : Value F → Text → Option (Value F)
  | .object json, key => json.get hashStr key
  | _, _ => none

/-- `json_object_set_nocheck`; what is no object is left alone. -/
def objectSetNocheck : Value F → Text → Value F → Value F
  | .object json, key, value => .object (json.setNocheck hashStr key value)
  | json, _, _ => json

/-- `json_array_append`. -/
def arrayAppend : Value F → Value F → Value F
  | .array json, value => .array (json ++ [value])
  | json, _ => json

variable (F) in
/-- The functions the parser calls, on values whose objects are hash tables. -/
def builder : Builder F (Value F) where
  object := .object .create
  objectSet := objectSetNocheck hashStr
  array := .array []
  arrayAppend := arrayAppend
  string := .string
  integer := .integer
  real := .real
  jsonTrue := .true
  jsonFalse := .false
  jsonNull := .null

/-- The functions the printer calls, on such values. -/
def view : Value F → View F (Value F)
  | .object json => .object json.iter (json.get hashStr)
  | .array json => .array json
  | .string value => .string value
  | .integer value => .integer value
  | .real value => .real value
  | .true => .true
  | .false => .false
  | .null => .null

end Value

end LibJansson

end IoTRepublic
