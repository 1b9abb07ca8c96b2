import IoTRepublic.Utility.JsonSpec
import IoTRepublic.Utility.Utf8

/-!
# IoTRepublic.Utility.JsonTexts

Objects of strings within one object: the shape of every message the program makes.

A message is a template whose strings are replaced one at a time
(`setValueInFirstObject`) and which is then printed. The library may visit the
members of an object in any order, and another one after each parse, so what is
said here is said up to the order of the members.

Two things make this more than bookkeeping. A string that JSON cannot hold is not refused
by the program: the old value stays, and is sent in its place (`written`). And the program
sets its values by key in whichever member comes first, so there must be one member only
for it to be sure which.
-/

namespace IoTRepublic

open Cpp

/-- The object with one member, the object of the strings. -/
def textObject (rootKey : Text) (members : List (Text × Text)) : JsonRoot :=
  .object [(rootKey, .object (members.map fun member => (member.1, .string member.2)))]

/-! ### What is asked of the library -/

/-- A string that can be a JSON value. -/
def IsJsonString (text : Text) : Prop := 0 ∉ text ∧ utf8CheckString text = true

instance (text : Text) : Decidable (IsJsonString text) := inferInstanceAs (Decidable (_ ∧ _))

/-- A string that JSON writes as it is: printable ASCII without quotes and backslashes. -/
def Plain (text : Text) : Prop := ∀ b ∈ text, 0x20 ≤ b ∧ b < 0x7F ∧ b ≠ 0x22 ∧ b ≠ 0x5C

instance (text : Text) : Decidable (Plain text) := List.decidableBAll _ text

/-- A string in quotes. -/
def inQuotes (text : Text) : Text := 0x22 :: text ++ [0x22]

/-- Members, with commas between them. -/
def membersText : List (Text × Text) → Text
  | [] => []
  | [member] => inQuotes member.1 ++ 0x3A :: inQuotes member.2
  | member :: members =>
    inQuotes member.1 ++ 0x3A :: inQuotes member.2 ++ 0x2C :: membersText members

/-- The JSON text of an object of plain strings within another, without white space. -/
def objectText (rootKey : Text) (members : List (Text × Text)) : Text :=
  0x7B :: inQuotes rootKey ++ 0x3A :: 0x7B :: membersText members ++ [0x7D, 0x7D]

/-- The keys of an object. -/
def keys (members : List (Text × Text)) : List Text := members.map (·.1)

/-- What the program relies on: the library accepts UTF-8, it parses JSON, and
parsing what it has printed gives the same object. Members may come in any order.

Parsing is asked of some texts only: a reader with an `int` for its position gets to the
end of those it can count. -/
structure Jansson.FaithfulOn (J : Jansson) (Short : Text → Prop) : Prop where
  isText_eq : J.isText = utf8CheckString
  loads_objectText {rootKey : Text} {members : List (Text × Text)} (hroot : Plain rootKey)
    (hplain : ∀ member ∈ members, Plain member.1 ∧ Plain member.2) (hkeys : (keys members).Nodup)
    (hshort : Short (objectText rootKey members)) :
    ∃ members', members'.Perm members ∧
      J.loads (objectText rootKey members) = some (textObject rootKey members')
  loads_dumps {rootKey : Text} {members : List (Text × Text)} (hroot : IsJsonString rootKey)
    (hstrings : ∀ member ∈ members, IsJsonString member.1 ∧ IsJsonString member.2)
    (hkeys : (keys members).Nodup) :
    ∃ text members', J.dumps (textObject rootKey members).value = some text ∧
      members'.Perm members ∧
      (Short text → J.loads (cStr text) = some (textObject rootKey members'))

/-- The same, of all texts. -/
abbrev Jansson.Faithful (J : Jansson) : Prop := J.FaithfulOn fun _ => True

/-! ### Strings -/

theorem cStr_of_noNul {text : Text} (h : 0 ∉ text) : cStr text = text :=
  List.takeWhile_eq_self_iff.mpr fun b hb => by
    have hne : b ≠ 0 := fun hzero => h (hzero ▸ hb)
    simpa using hne

theorem zero_notMem_cStr (text : Text) : 0 ∉ cStr text := by
  intro hmem
  have hne := List.mem_takeWhile_imp hmem
  simp at hne

theorem cStr_eq_self_iff {text : Text} : cStr text = text ↔ 0 ∉ text :=
  ⟨fun heq => heq ▸ zero_notMem_cStr text, cStr_of_noNul⟩

theorem isJsonString_of_ascii {text : Text} (h : ∀ b ∈ text, b ≠ 0 ∧ b.toNat < 0x80) :
    IsJsonString text :=
  ⟨fun hmem => (h 0 hmem).1 rfl, utf8CheckString_of_ascii fun b hb => (h b hb).2⟩

theorem Plain.isJsonString {text : Text} (h : Plain text) : IsJsonString text := by
  refine isJsonString_of_ascii fun b hb => ?_
  obtain ⟨hlow, hhigh, -, -⟩ := h b hb
  rw [UInt8.le_iff_toNat_le] at hlow
  rw [UInt8.lt_iff_toNat_lt] at hhigh
  refine ⟨?_, lt_trans hhigh (by decide)⟩
  intro hzero
  subst hzero
  exact absurd hlow (by decide)

theorem isJsonString_showInt (n : Int) : IsJsonString (showInt n) :=
  isJsonString_of_ascii fun _ hb => ⟨ne_zero_of_mem_showInt hb, ascii_of_mem_showInt hb⟩

/-! ### Reading -/

section Reading

variable {rootKey key value : Text} {members members' : List (Text × Text)}

@[simp] theorem firstKey_textObject : (textObject rootKey members).firstKey = some rootKey := rfl

theorem firstObject_textObject : (textObject rootKey members).firstObject
    = some (.object (members.map fun member => (member.1, .string member.2))) := by
  simp [JsonRoot.firstObject, textObject, JsonRoot.object, Json.objectGet]

theorem mem_keys (h : (key, value) ∈ members) : key ∈ keys members :=
  List.mem_map.mpr ⟨(key, value), h, rfl⟩

theorem firstText?_textObject : (textObject rootKey members).firstText? key
    = (members.find? (·.1 = key)).map (·.2) := by
  rw [JsonRoot.firstText?, firstObject_textObject, Option.bind_some]
  simp only [Json.text?, Json.objectGet, List.find?_map, Function.comp_def, Option.map_map]
  cases members.find? (·.1 = key) with
  | none => rfl
  | some member => rfl

/-- With distinct keys, the member there is is the one found. -/
theorem firstText?_of_mem (hkeys : (keys members).Nodup) (h : (key, value) ∈ members) :
    (textObject rootKey members).firstText? key = some value := by
  rw [firstText?_textObject]
  induction members with
  | nil => cases h
  | cons member members ih =>
      obtain ⟨hmember, hkeys⟩ := List.nodup_cons.mp hkeys
      cases List.mem_cons.mp h with
      | inl h =>
          subst h
          rw [List.find?_cons_of_pos (by simp)]
          rfl
      | inr h =>
          have hne : member.1 ≠ key := by
            intro heq
            subst heq
            exact hmember (mem_keys h)
          rw [List.find?_cons_of_neg (by simpa using hne)]
          exact ih hkeys h

/-- The order of the members is of no account. -/
theorem firstText?_textObject_perm (hkeys : (keys members).Nodup) (hperm : members'.Perm members)
    (h : (key, value) ∈ members) :
    (textObject rootKey members').firstText? key = some value :=
  firstText?_of_mem ((hperm.map _).nodup_iff.mpr hkeys) (hperm.mem_iff.mpr h)

end Reading

/-! ### Writing -/

namespace JsonUtility

variable (J : Jansson)

/-- What a member holds after it is set: the library keeps the old string where it
does not accept the new one. -/
def written (old value : Text) : Text := if J.isText (cStr value) then cStr value else old

/-- The members of the name get the value. -/
def assign (members : List (Text × Text)) (write : Text × Text) : List (Text × Text) :=
  members.map fun member =>
    (member.1, if member.1 = write.1 then written J member.2 write.2 else member.2)

/-- The values are set one after the other. -/
def setAll (root : JsonRoot) (writes : List (Text × Text)) : JsonRoot :=
  writes.foldl (fun root write => setValueInFirstObject J root write.1 write.2) root

variable {J} {rootKey : Text} {members writes : List (Text × Text)}

@[simp] theorem keys_assign (members : List (Text × Text)) (write : Text × Text) :
    keys (assign J members write) = keys members := by
  simp [keys, assign]

theorem assign_of_not_mem {write : Text × Text} (h : write.1 ∉ keys members) :
    assign J members write = members := by
  have hsame : ∀ member ∈ members,
      (member.1, if member.1 = write.1 then written J member.2 write.2 else member.2) = member := by
    intro member hmember
    have hne : member.1 ≠ write.1 := fun heq => h (heq ▸ List.mem_map_of_mem hmember)
    rw [if_neg hne]
  rw [assign, List.map_congr_left hsame, List.map_id']

/-- The first member of the name is the only one. -/
theorem setMember_eq (write : Text × Text) (hkeys : (keys members).Nodup) :
    setMember J write.1 write.2 (members.map fun member => (member.1, .string member.2))
      = (assign J members write).map fun member => (member.1, .string member.2) := by
  induction members with
  | nil => rfl
  | cons member members ih =>
      obtain ⟨hmember, hkeys⟩ := List.nodup_cons.mp hkeys
      by_cases heq : member.1 = write.1
      · have hrest : assign J members write = members :=
          assign_of_not_mem (heq ▸ hmember)
        have hhere : assign J (member :: members) write
            = (member.1, written J member.2 write.2) :: members := by
          rw [assign, List.map_cons, if_pos heq, ← assign, hrest]
        rw [hhere, List.map_cons, List.map_cons, setMember, updateMember, if_pos heq, written]
        split
        · rfl
        · rfl
      · have hhere : assign J (member :: members) write = member :: assign J members write := by
          rw [assign, List.map_cons, if_neg heq, ← assign]
        rw [hhere, List.map_cons, List.map_cons, setMember, updateMember, if_neg heq, ← setMember,
          ih hkeys]

theorem setAll_textObject (hkeys : (keys members).Nodup) :
    setAll J (textObject rootKey members) writes
      = textObject rootKey (writes.foldl (assign J) members) := by
  induction writes generalizing members with
  | nil => rfl
  | cons write writes ih =>
      have hset : setValueInFirstObject J (textObject rootKey members) write.1 write.2
          = textObject rootKey (assign J members write) := by
        have hinner := setMember_eq (J := J) write hkeys
        simp only [setValueInFirstObject, textObject, JsonRoot.object, updateFirst, updateMember,
          setInObject, List.head?_cons, Option.map_some, if_true, hinner]
      rw [setAll, List.foldl_cons, hset, List.foldl_cons, ← setAll]
      exact ih (by rwa [keys_assign])

theorem keys_foldl_assign (writes members : List (Text × Text)) :
    keys (writes.foldl (assign J) members) = keys members := by
  induction writes generalizing members with
  | nil => rfl
  | cons write writes ih => rw [List.foldl_cons, ih, keys_assign]

theorem mem_assign_of_ne {write : Text × Text} {key old : Text} (hne : key ≠ write.1)
    (h : (key, old) ∈ members) : (key, old) ∈ assign J members write :=
  List.mem_map.mpr ⟨(key, old), h, by rw [if_neg hne]⟩

theorem mem_foldl_assign_of_not_mem {key old : Text} (hkey : key ∉ keys writes)
    (h : (key, old) ∈ members) : (key, old) ∈ writes.foldl (assign J) members := by
  induction writes generalizing members with
  | nil => exact h
  | cons write writes ih =>
      rw [keys, List.map_cons, List.mem_cons, not_or] at hkey
      exact ih hkey.2 (mem_assign_of_ne hkey.1 h)

/-- Each member holds what was written to it. -/
theorem mem_foldl_assign {key value old : Text} (hwrites : (keys writes).Nodup)
    (hwrite : (key, value) ∈ writes) (h : (key, old) ∈ members) :
    (key, written J old value) ∈ writes.foldl (assign J) members := by
  induction writes generalizing members with
  | nil => cases hwrite
  | cons write writes ih =>
      obtain ⟨hfresh, hwrites⟩ := List.nodup_cons.mp hwrites
      cases List.mem_cons.mp hwrite with
      | inl hwrite =>
          subst hwrite
          have hset : (key, written J old value) ∈ assign J members (key, value) :=
            List.mem_map.mpr ⟨(key, old), h, by rw [if_pos rfl]⟩
          have hkey : key ∉ keys writes := hfresh
          rw [List.foldl_cons]
          exact mem_foldl_assign_of_not_mem hkey hset
      | inr hwrite =>
          have hne : key ≠ write.1 := by
            intro heq
            subst heq
            exact hfresh (mem_keys hwrite)
          exact ih hwrites hwrite (mem_assign_of_ne hne h)

/-- What the library does not accept as a string never gets into the object. -/
theorem isJsonString_foldl_assign (hJ : J.Faithful)
    (h : ∀ member ∈ members, IsJsonString member.1 ∧ IsJsonString member.2) :
    ∀ member ∈ writes.foldl (assign J) members, IsJsonString member.1 ∧ IsJsonString member.2 := by
  induction writes generalizing members with
  | nil => exact h
  | cons write writes ih =>
      refine ih fun member hmember => ?_
      obtain ⟨old, hold, rfl⟩ := List.mem_map.mp hmember
      obtain ⟨hkey, hvalue⟩ := h old hold
      refine ⟨hkey, ?_⟩
      dsimp only
      split
      · rw [written, hJ.isText_eq]
        split
        · rename_i htext
          exact ⟨zero_notMem_cStr write.2, htext⟩
        · exact hvalue
      · exact hvalue

end JsonUtility

/-! ### Messages -/

section Messages

open JsonUtility

/-- A message made from a template, sent and parsed, has the values written to it. -/
theorem Jansson.Faithful.message {J : Jansson} (hJ : J.Faithful) (rootKey : Text)
    (members writes : List (Text × Text)) (hroot : Plain rootKey)
    (hplain : ∀ member ∈ members, Plain member.1 ∧ Plain member.2) (hkeys : (keys members).Nodup)
    (htemplate : 0 ∉ objectText rootKey members) (hwrites : (keys writes).Nodup) :
    ∃ root text root', loadJsonData J (objectText rootKey members) = some root ∧
      exportJsonContent J (setAll J root writes) = .ok text ∧ loadJsonData J text = some root' ∧
      root'.firstKey = some rootKey ∧
      ∀ key value old, (key, value) ∈ writes → (key, old) ∈ members →
        root'.firstText? key = some (written J old value) := by
  obtain ⟨loaded, hloaded, hloads⟩ := hJ.loads_objectText hroot hplain hkeys trivial
  have hloadedKeys : (keys loaded).Nodup := (hloaded.map _).nodup_iff.mpr hkeys
  have hsetKeys : (keys (writes.foldl (assign J) loaded)).Nodup := by
    rwa [keys_foldl_assign]
  have hstrings : ∀ member ∈ loaded, IsJsonString member.1 ∧ IsJsonString member.2 := by
    intro member hmember
    obtain ⟨hkey, hvalue⟩ := hplain member (hloaded.mem_iff.mp hmember)
    exact ⟨hkey.isJsonString, hvalue.isJsonString⟩
  obtain ⟨text, read, hdumps, hread, hloads'⟩ :=
    hJ.loads_dumps hroot.isJsonString (isJsonString_foldl_assign hJ hstrings) hsetKeys
  refine ⟨textObject rootKey loaded, text, textObject rootKey read, ?_, ?_, hloads' trivial, rfl,
    ?_⟩
  · rw [loadJsonData, cStr_of_noNul htemplate, hloads]
  · rw [setAll_textObject hloadedKeys, exportJsonContent_ok_iff, hdumps]
  · intro key value old hwrite hmember
    exact firstText?_textObject_perm hsetKeys hread
      (mem_foldl_assign hwrites hwrite (hloaded.mem_iff.mpr hmember))

end Messages

end IoTRepublic
