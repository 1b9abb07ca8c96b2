import IoTRepublic.Utility.JsonTexts

/-!
# IoTRepublic.Utility.JsonPrinter

A JSON library for the messages of the program: objects of strings within one
object, printed with quotes and backslashes escaped.

It is what is asked of the library in its smallest form (`jsonPrinter_faithful`), and
prints and parses ASCII messages as the real one does.

It is here for the concrete runs of other modules: with it the messages of the program are
printed and parsed by evaluation. The general results are about any library that does what
is asked (`Jansson.Faithful`), of which it is an instance; the vendored library is
modelled apart from it.
-/

namespace IoTRepublic

open Cpp

namespace JsonPrinter

/-! ### Printing -/

def escape : Text → Text
  | [] => []
  | b :: text => if b = 0x22 ∨ b = 0x5C then 0x5C :: b :: escape text else b :: escape text

def escapeMember (member : Text × Text) : Text × Text := (escape member.1, escape member.2)

def print (rootKey : Text) (members : List (Text × Text)) : Text :=
  objectText (escape rootKey) (members.map escapeMember)

/-- The members of an object of strings. -/
def strings (members : List (Text × Json)) : Option (List (Text × Text)) :=
  members.mapM fun member => member.2.stringValue.map fun value => (member.1, value)

def dumps : Json → Option Text
  | .object [(rootKey, .object members)] => (strings members).map (print rootKey)
  | _ => none

/-! ### Parsing -/

/-- What is in front of the closing quote, and what is behind it. -/
def readString : Text → Option (Text × Text)
  | [] => none
  | [b] => if b = 0x22 then some ([], []) else none
  | b :: c :: text =>
    if b = 0x22 then some ([], c :: text)
    else if b = 0x5C then (readString text).map fun read => (c :: read.1, read.2)
    else (readString (c :: text)).map fun read => (b :: read.1, read.2)

/-- The members in front of the closing brace. -/
def readMembers : Nat → Text → Option (List (Text × Text) × Text)
  | fuel + 1, 0x22 :: text => do
    let (key, text) ← readString text
    match text with
    | 0x3A :: 0x22 :: text =>
      let (value, text) ← readString text
      let (members, text) ← readMembers fuel text
      return ((key, value) :: members, text)
    | _ => none
  | fuel + 1, 0x2C :: text => readMembers fuel text
  | _, 0x7D :: text => some ([], text)
  | _, _ => none

def loads (text : Text) : Option JsonRoot := do
  match text with
  | 0x7B :: 0x22 :: text =>
    let (rootKey, text) ← readString text
    match text with
    | 0x3A :: 0x7B :: text =>
      let (members, text) ← readMembers text.length text
      if text = [0x7D] then some (textObject rootKey members) else none
    | _ => none
  | _ => none

end JsonPrinter

/-- The library made of the two. -/
def jsonPrinter : Jansson where
  loads := JsonPrinter.loads
  dumps := JsonPrinter.dumps
  isText := utf8CheckString

namespace JsonPrinter

variable {rootKey : Text} {members : List (Text × Text)}

/-- Parsing stops at the closing quote. -/
theorem readString_escape (text rest : Text) :
    readString (escape text ++ 0x22 :: rest) = some (text, rest) := by
  induction text with
  | nil => cases rest <;> simp [escape, readString]
  | cons b text ih =>
      rw [escape]
      split
      · rename_i hspecial
        have hne : (0x5C : Byte) ≠ 0x22 := by decide
        rw [List.cons_append, List.cons_append, readString, if_neg hne, if_pos rfl, ih]
        rfl
      · rename_i hplain
        obtain ⟨hquote, hbackslash⟩ := not_or.mp hplain
        obtain ⟨c, tail, htail⟩ := List.exists_cons_of_ne_nil
          (show escape text ++ 0x22 :: rest ≠ [] by simp)
        rw [List.cons_append, htail, readString, if_neg hquote, if_neg hbackslash, ← htail, ih]
        rfl

theorem readMembers_member (fuel : Nat) (member : Text × Text) (rest : Text) :
    readMembers (fuel + 1)
      (inQuotes (escapeMember member).1 ++ 0x3A :: inQuotes (escapeMember member).2 ++ rest)
      = (readMembers fuel rest).map fun read => (member :: read.1, read.2) := by
  simp only [inQuotes, escapeMember, List.cons_append, List.append_assoc, List.nil_append]
  rw [readMembers, readString_escape]
  simp only [Option.bind_eq_bind, Option.bind_some]
  rw [readString_escape]
  simp only [Option.bind_some]
  cases readMembers fuel rest with
  | none => rfl
  | some read => rfl

theorem readMembers_membersText (rest : Text) {fuel : Nat} (h : 2 * members.length < fuel) :
    readMembers fuel (membersText (members.map escapeMember) ++ 0x7D :: rest)
      = some (members, rest) := by
  induction members generalizing fuel with
  | nil =>
      obtain ⟨fuel, rfl⟩ := Nat.exists_eq_succ_of_ne_zero (Nat.ne_of_gt h)
      rfl
  | cons member members ih =>
      rw [List.length_cons] at h
      obtain ⟨fuel, rfl⟩ := Nat.exists_eq_add_of_le' (show 2 ≤ fuel by omega)
      cases members with
      | nil =>
          rw [List.map_singleton, membersText, readMembers_member]
          rfl
      | cons next members =>
          have hnext : (next :: members).map escapeMember ≠ [] := List.cons_ne_nil _ _
          rw [List.map_cons, membersText, List.append_assoc, List.cons_append, readMembers_member,
            readMembers, ih (by omega)]
          · rfl
          · exact hnext

theorem length_membersText (members : List (Text × Text)) :
    2 * members.length ≤ (membersText members).length := by
  induction members with
  | nil => exact le_refl 0
  | cons member members ih =>
      cases members with
      | nil =>
          simp only [membersText, inQuotes, List.length_cons, List.length_append, List.length_nil]
          omega
      | cons next members =>
          rw [membersText]
          · simp only [inQuotes, List.length_cons, List.length_append, List.length_nil] at ih ⊢
            omega
          · exact List.cons_ne_nil _ _

theorem loads_print : loads (print rootKey members) = some (textObject rootKey members) := by
  have hfuel : 2 * members.length
      < (membersText (members.map escapeMember) ++ [0x7D, 0x7D]).length := by
    have hlen := length_membersText (members.map escapeMember)
    rw [List.length_map] at hlen
    rw [List.length_append]
    exact Nat.lt_of_le_of_lt hlen (Nat.lt_add_of_pos_right (by decide))
  rw [print, objectText]
  simp only [inQuotes, List.cons_append, List.append_assoc, List.nil_append]
  rw [loads, readString_escape]
  simp only [Option.bind_eq_bind, Option.bind_some]
  rw [readMembers_membersText [0x7D] hfuel]
  rfl

/-! ### The library -/

theorem escape_of_plain {text : Text} (h : Plain text) : escape text = text := by
  induction text with
  | nil => rfl
  | cons b text ih =>
      obtain ⟨-, -, hquote, hbackslash⟩ := h b List.mem_cons_self
      rw [escape, if_neg (not_or.mpr ⟨hquote, hbackslash⟩),
        ih (fun c hc => h c (List.mem_cons_of_mem b hc))]

theorem zero_notMem_escape {text : Text} (h : 0 ∉ text) : 0 ∉ escape text := by
  induction text with
  | nil => exact h
  | cons b text ih =>
      rw [List.mem_cons, not_or] at h
      have htext := ih h.2
      rw [escape]
      split
      · simp [h.1, htext]
      · simp [h.1, htext]

theorem zero_notMem_membersText {members : List (Text × Text)}
    (h : ∀ member ∈ members, 0 ∉ member.1 ∧ 0 ∉ member.2) : 0 ∉ membersText members := by
  induction members with
  | nil => simp [membersText]
  | cons member members ih =>
      obtain ⟨hkey, hvalue⟩ := h member List.mem_cons_self
      have hrest := ih (fun m hm => h m (List.mem_cons_of_mem member hm))
      cases members with
      | nil => simp [membersText, inQuotes, hkey, hvalue]
      | cons next members =>
          rw [membersText]
          · simp [inQuotes, hkey, hvalue, hrest]
          · exact List.cons_ne_nil _ _

theorem strings_texts (members : List (Text × Text)) :
    strings (members.map fun member => (member.1, .string member.2)) = some members := by
  induction members with
  | nil => rfl
  | cons member members ih =>
      rw [strings] at ih
      rw [strings, List.map_cons, List.mapM_cons, ih]
      rfl

theorem zero_notMem_print (hroot : 0 ∉ rootKey)
    (h : ∀ member ∈ members, 0 ∉ member.1 ∧ 0 ∉ member.2) : 0 ∉ print rootKey members := by
  have hmembers : 0 ∉ membersText (members.map escapeMember) := by
    refine zero_notMem_membersText fun escaped hescaped => ?_
    obtain ⟨member, hmember, rfl⟩ := List.mem_map.mp hescaped
    exact ⟨zero_notMem_escape (h member hmember).1, zero_notMem_escape (h member hmember).2⟩
  simp [print, objectText, inQuotes, zero_notMem_escape hroot, hmembers]

end JsonPrinter

open JsonPrinter

theorem jsonPrinter_faithful : jsonPrinter.Faithful where
  isText_eq := rfl
  loads_objectText := by
    intro rootKey members hroot hplain _ _
    refine ⟨members, .refl members, ?_⟩
    have hmembers : ∀ member ∈ members, escapeMember member = member := by
      intro member hmember
      obtain ⟨hkey, hvalue⟩ := hplain member hmember
      rw [escapeMember, escape_of_plain hkey, escape_of_plain hvalue]
    have hprint : print rootKey members = objectText rootKey members := by
      rw [print, escape_of_plain hroot, List.map_congr_left hmembers, List.map_id']
    rw [← hprint]
    exact loads_print
  loads_dumps := by
    intro rootKey members hroot hstrings _
    refine ⟨print rootKey members, members, ?_, .refl members, fun _ => ?_⟩
    · show (strings _).map _ = _
      rw [strings_texts]
      rfl
    · have hnul := zero_notMem_print hroot.1
        (fun member hmember => ⟨(hstrings member hmember).1.1, (hstrings member hmember).2.1⟩)
      rw [cStr_of_noNul hnul]
      exact loads_print

end IoTRepublic
