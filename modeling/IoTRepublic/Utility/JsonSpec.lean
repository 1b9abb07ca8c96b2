import IoTRepublic.Utility.Json

/-!
# IoTRepublic.Utility.JsonSpec

What the accessors of `JsonUtility` read, in terms of the value they are given.

All of them look at the member iteration starts with and want an object there. They
fault where they find something else, with one exception: the length of something
that is no array is zero.

What the program needs of the library beyond its accessors is stated as properties of
`Jansson`: that another process reads what this one has printed (`RereadBy`), and that
printing does not fail (`Prints`). They are hypotheses where the library is a parameter,
and theorems about the vendored one in `Jansson/Library`.
-/

namespace IoTRepublic

open Cpp

/-- What one process has parsed it can print, and another one gets the same value from the
text if an `int` counts its bytes. Iteration may start elsewhere there. -/
def Jansson.RereadBy (J J' : Jansson) : Prop :=
  ∀ text root, J.loads text = some root → ∃ desc, J.dumps root.value = some desc ∧
    (desc.length < 2 ^ 31 → ∃ root', J'.loads (cStr desc) = some root' ∧ root'.value = root.value)

/-- The values the program prints: what was parsed, with strings replaced. It builds no
value in any other way. -/
inductive Jansson.Built (J : Jansson) : JsonRoot → Prop
  | loaded {text : Text} {root : JsonRoot} (h : J.loads text = some root) : Built J root
  | set {root : JsonRoot} (h : Built J root) (keyName value : Text) :
      Built J (JsonUtility.setValueInFirstObject J root keyName value)

/-- Printing a value the program has built succeeds, so that no null pointer comes of
it. -/
def Jansson.Prints (J : Jansson) : Prop :=
  ∀ root, J.Built root → ∃ desc, J.dumps root.value = some desc

/-- The string under a key, where there is an object with the key and a string under
it. -/
def Json.text? (value : Json) (key : Text) : Option Text :=
  (value.objectGet key).bind (·.stringValue)

namespace JsonRoot

/-- The value of the member iteration starts with. -/
def firstObject (root : JsonRoot) : Option Json := root.firstKey.bind root.value.objectGet

/-- The string under a key of that member. -/
def firstText? (root : JsonRoot) (key : Text) : Option Text := root.firstObject.bind (·.text? key)

/-- That member has a string under each of the keys. -/
def HasTexts (root : JsonRoot) (keys : List Text) : Prop :=
  ∀ key ∈ keys, (root.firstText? key).isSome

instance (root : JsonRoot) (keys : List Text) : Decidable (root.HasTexts keys) :=
  inferInstanceAs (Decidable (∀ key ∈ keys, _))

/-- What is under a key of that member. -/
def firstGet (root : JsonRoot) (key : Text) : Option Json :=
  root.firstObject.bind (·.objectGet key)

end JsonRoot

theorem stringOfPointer_ok_iff {pointer : Option Text} {text : Text} :
    stringOfPointer pointer = .ok text ↔ pointer = some text := by
  cases pointer with
  | none => simp [stringOfPointer]
  | some text' => simp [stringOfPointer]

namespace JsonUtility

variable {J : Jansson} {root : JsonRoot} {key : Text}

theorem exportJsonContent_ok_iff {text : Text} :
    exportJsonContent J root = .ok text ↔ J.dumps root.value = some text := stringOfPointer_ok_iff

/-- The first key, if there is one. -/
theorem getFirstKeyName_eq : getFirstKeyName (some root) = stringOfPointer root.firstKey := rfl

theorem getFirstKeyName_ok_iff {rootName : Text} :
    getFirstKeyName (some root) = .ok rootName ↔ root.firstKey = some rootName := by
  rw [getFirstKeyName_eq, stringOfPointer_ok_iff]

/-- The member the accessors look up by its name is the first one. -/
theorem firstObject_of_firstKey {rootName : Text} (h : root.firstKey = some rootName) :
    root.value.objectGet rootName = root.firstObject := by
  rw [JsonRoot.firstObject, h]
  rfl

theorem firstObject_eq_none (h : root.firstKey = none) : root.firstObject = none := by
  rw [JsonRoot.firstObject, h]
  rfl

theorem getValueInFirstObject_eq :
    getValueInFirstObject (some root) key = stringOfPointer (root.firstText? key) := by
  rw [getValueInFirstObject, getFirstKeyName_eq]
  cases hkey : root.firstKey with
  | none =>
      rw [JsonRoot.firstText?, firstObject_eq_none hkey]
      rfl
  | some rootName =>
      rw [stringOfPointer, ok_bind, Option.bind_some, firstObject_of_firstKey hkey]
      dsimp only
      rw [Option.bind_assoc]
      rfl

theorem getValueInFirstObject_ok_iff {value : Text} :
    getValueInFirstObject (some root) key = .ok value ↔ root.firstText? key = some value := by
  rw [getValueInFirstObject_eq, stringOfPointer_ok_iff]

/-- Reading goes on with the string, if it is there. -/
theorem returns_getValue_bind_iff {α : Type} {f : Text → Except Fault α} :
    Returns (getValueInFirstObject (some root) key >>= f) ↔
      ∃ value, root.firstText? key = some value ∧ Returns (f value) := by
  rw [returns_bind_iff]
  exact exists_congr fun value => and_congr_left fun _ => getValueInFirstObject_ok_iff

section Arrays

variable {elements : List Json}

theorem firstKey_of_firstGet {value : Json} (h : root.firstGet key = some value) :
    ∃ rootName, root.firstKey = some rootName := by
  cases hkey : root.firstKey with
  | none =>
      rw [JsonRoot.firstGet, firstObject_eq_none hkey] at h
      cases h
  | some rootName => exact ⟨rootName, rfl⟩

theorem getArrayValueInFirstObject_eq {arrayName : Text}
    (h : root.firstGet arrayName = some (.array elements)) (i : Nat) :
    getArrayValueInFirstObject (some root) arrayName i key
      = stringOfPointer ((elements[i]?).bind (·.text? key)) := by
  obtain ⟨rootName, hkey⟩ := firstKey_of_firstGet h
  rw [JsonRoot.firstGet] at h
  rw [getArrayValueInFirstObject, getFirstKeyName_ok_iff.mpr hkey, ok_bind, Option.bind_some,
    firstObject_of_firstKey hkey]
  dsimp only
  rw [h]
  dsimp only
  rw [Option.bind_assoc]
  rfl

theorem getArrayLengthInFirstObject_eq {arrayName : Text}
    (h : root.firstGet arrayName = some (.array elements)) :
    getArrayLengthInFirstObject (some root) arrayName = .ok (toInt elements.length) := by
  obtain ⟨rootName, hkey⟩ := firstKey_of_firstGet h
  rw [JsonRoot.firstGet] at h
  rw [getArrayLengthInFirstObject, getFirstKeyName_ok_iff.mpr hkey, ok_bind, Option.bind_some,
    firstObject_of_firstKey hkey]
  dsimp only
  rw [h]
  rfl

/-- What is no array has no elements. -/
theorem getArrayLengthInFirstObject_of_ne {arrayName rootName : Text}
    (hkey : root.firstKey = some rootName)
    (h : ∀ elements, root.firstGet arrayName ≠ some (.array elements)) :
    getArrayLengthInFirstObject (some root) arrayName = .ok 0 := by
  rw [getArrayLengthInFirstObject, getFirstKeyName_ok_iff.mpr hkey, ok_bind, Option.bind_some,
    firstObject_of_firstKey hkey]
  dsimp only
  split
  · rename_i elements harray
    exact absurd harray (h elements)
  · rfl

end Arrays

end JsonUtility

end IoTRepublic
