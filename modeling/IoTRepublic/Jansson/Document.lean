import IoTRepublic.Jansson.ObjectSound

/-!
# IoTRepublic.Jansson.Document

What the values of the library stand for: documents, whose objects are lists of
members in the order of addition. Parsing and printing values is parsing and printing
documents, so that neither shows the hash function or its seed.

Main results: `loads_stands`, `dumps_stands`, `loads_dumps_seed`.

A document has no hash table in it. `Stands` relates a value to the document it stands
for: the pairs of its tables, sorted by their serials, are the members. The constructors
of the parser respect the relation and so do the accessors of the printer, so the two runs
go side by side (`Builder.Related`, `View.Related`), and a second process with another
hash function has the same document in the middle.
-/

namespace IoTRepublic

open Cpp

namespace LibJansson

/-- A JSON document: a value of the library without its tables, with the members in the
order of addition. -/
inductive Doc (F : Floats)
  | object (members : List (Text × Doc F))
  | array (elements : List (Doc F))
  | string (value : Text)
  | integer (value : Int)
  | real (value : F.Double)
  | true
  | false
  | null

namespace Doc

variable {F : Floats}

/-- A member is replaced where it is, or added behind the others: `json_object_set`, of
which the order of printing is all that is left. -/
def objectSet : Doc F → Text → Doc F → Doc F
  | .object members, key, value => .object (KeyedTable.put Prod.fst members (key, value))
  | doc, _, _ => doc

def arrayAppend : Doc F → Doc F → Doc F
  | .array elements, value => .array (elements ++ [value])
  | doc, _ => doc

def builder (F : Floats) : Builder F (Doc F) where
  object := .object []
  objectSet := objectSet
  array := .array []
  arrayAppend := arrayAppend
  string := .string
  integer := .integer
  real := .real
  jsonTrue := .true
  jsonFalse := .false
  jsonNull := .null

/-- The serials count the members. -/
def view : Doc F → View F (Doc F)
  | .object members =>
    .object ((members.map (·.1)).zipIdx.map Prod.swap) (lookup members)
  | .array elements => .array elements
  | .string value => .string value
  | .integer value => .integer value
  | .real value => .real value
  | .true => .true
  | .false => .false
  | .null => .null

end Doc

section

variable {F : Floats}

mutual

/-- A value stands for a document: the same tree, with a hash table that holds the members
in place of each list of them. -/
def Stands (hashStr : Text → Nat) : Doc F → Value F → Prop
  | .object members, .object object =>
    ∃ pairs, object.Holds hashStr pairs ∧ StandMembers hashStr members pairs
  | .array elements, .array table => StandElements hashStr elements table
  | .string value, .string value' => value = value'
  | .integer value, .integer value' => value = value'
  | .real value, .real value' => value = value'
  | .true, .true => True
  | .false, .false => True
  | .null, .null => True
  | _, _ => False

def StandMembers (hashStr : Text → Nat) : List (Text × Doc F) → List (Pair (Value F)) → Prop
  | [], [] => True
  | (key, doc) :: members, pair :: pairs =>
    (key = pair.key ∧ Stands hashStr doc pair.value) ∧ StandMembers hashStr members pairs
  | _, _ => False

def StandElements (hashStr : Text → Nat) : List (Doc F) → List (Value F) → Prop
  | [], [] => True
  | doc :: elements, value :: table =>
    Stands hashStr doc value ∧ StandElements hashStr elements table
  | _, _ => False

end

variable {hashStr : Text → Nat}

theorem standMembers_iff {members : List (Text × Doc F)} {pairs : List (Pair (Value F))} :
    StandMembers hashStr members pairs
      ↔ List.Forall₂ (fun m p => m.1 = p.key ∧ Stands hashStr m.2 p.value) members pairs := by
  induction members generalizing pairs with
  | nil => cases pairs <;> simp [StandMembers]
  | cons m members ih => cases pairs <;> simp [StandMembers, ih]

theorem standElements_iff {elements : List (Doc F)} {table : List (Value F)} :
    StandElements hashStr elements table ↔ List.Forall₂ (Stands hashStr) elements table := by
  induction elements generalizing table with
  | nil => cases table <;> simp [StandElements]
  | cons e elements ih => cases table <;> simp [StandElements, ih]

/-! ### Building -/

theorem map_fst_of_forall₂ {members : List (Text × Doc F)} {pairs : List (Pair (Value F))}
    (h : List.Forall₂ (fun m p => m.1 = p.key ∧ Stands hashStr m.2 p.value) members pairs) :
    members.map (·.1) = pairs.map (·.key) := by
  induction h with
  | nil => rfl
  | cons hm _ ih => rw [List.map_cons, List.map_cons, hm.1, ih]

theorem forall₂_put {members : List (Text × Doc F)} {pairs : List (Pair (Value F))} {key : Text}
    {doc : Doc F} {value : Value F} (serial : Nat) (hnodup : (pairs.map (·.key)).Nodup)
    (h : List.Forall₂ (fun m p => m.1 = p.key ∧ Stands hashStr m.2 p.value) members pairs)
    (hvalue : Stands hashStr doc value) :
    List.Forall₂ (fun m p => m.1 = p.key ∧ Stands hashStr m.2 p.value)
      (KeyedTable.put Prod.fst members (key, doc))
      (Object.addPair hashStr pairs key serial value) := by
  have hkeys := map_fst_of_forall₂ h
  rw [Object.addPair]
  split
  · rename_i hmem
    rw [KeyedTable.put_eq_map (by rwa [hkeys]) (by rwa [hkeys]), Hashtable.replace,
      List.forall₂_map_left_iff, List.forall₂_map_right_iff]
    refine h.imp fun m p hm => ?_
    by_cases hkey : m.1 = key
    · rw [if_pos hkey, if_pos (hm.1.symm.trans hkey)]
      exact ⟨hkey ▸ hm.1, hvalue⟩
    · rw [if_neg hkey, if_neg fun heq => hkey (hm.1.trans heq)]
      exact hm
  · rename_i hnew
    rw [KeyedTable.put_eq_append (by rwa [hkeys])]
    exact List.rel_append h (.cons ⟨rfl, hvalue⟩ .nil)

theorem related_builder (hashStr : Text → Nat) :
    (Doc.builder F).Related (Value.builder F hashStr) (Stands hashStr) where
  object := ⟨[], Object.holds_create, trivial⟩
  objectSet := by
    intro doc doc' value value' key h hvalue
    cases doc with
    | object members =>
        cases value with
        | object object =>
            obtain ⟨pairs, hholds, hmembers⟩ := h
            have hmembers := standMembers_iff.mp hmembers
            exact ⟨_, hholds.setNocheck key value',
              standMembers_iff.mpr (forall₂_put _ hholds.nodup hmembers hvalue)⟩
        | _ => cases h
    | _ => cases value with
      | object => cases h
      | _ => exact h
  array := trivial
  arrayAppend := by
    intro doc doc' value value' h hvalue
    cases doc with
    | array elements =>
        cases value with
        | array table =>
            exact standElements_iff.mpr
              (List.rel_append (standElements_iff.mp h) (.cons hvalue .nil))
        | _ => cases h
    | _ => cases value with
      | array => cases h
      | _ => exact h
  string _ := rfl
  integer _ := rfl
  real _ := rfl
  jsonTrue := trivial
  jsonFalse := trivial
  jsonNull := trivial

/-- Parsing values is parsing documents: both fail on the same texts, and where they do
not the value stands for the document. -/
theorem loads_stands (F : Floats) (hashStr : Text → Nat) (text : Text) :
    Option.Rel (Stands hashStr) (loads (Doc.builder F) text)
      (loads (Value.builder F hashStr) text) :=
  loads_related (related_builder hashStr) text

/-! ### Printing -/

theorem rel_lookup {members : List (Text × Doc F)} {pairs : List (Pair (Value F))}
    (h : List.Forall₂ (fun m p => m.1 = p.key ∧ Stands hashStr m.2 p.value) members pairs)
    (key : Text) :
    Option.Rel (Stands hashStr) (lookup members key) (lookup (entries pairs) key) := by
  rw [lookup_entries, lookup]
  induction h with
  | nil => exact .none
  | @cons m p members pairs hm _ ih =>
      rw [List.find?_cons, List.find?_cons, hm.1]
      cases decide (p.key = key) with
      | true => exact .some hm.2
      | false => exact ih

theorem sort_zipIdx (keys : List Text) :
    ((keys.zipIdx.map Prod.swap).mergeSort fun a b => a.1 ≤ b.1).map (·.2) = keys := by
  have hsorted : (keys.zipIdx.map Prod.swap).Pairwise fun a b => decide (a.1 ≤ b.1) = true := by
    rw [List.pairwise_map]
    have hindices : ((keys.zipIdx).map (·.2)).Pairwise (· < ·) := by
      rw [List.zipIdx_map_snd]
      exact List.pairwise_lt_range'
    exact (List.pairwise_map.mp hindices).imp fun hlt => by simpa using Nat.le_of_lt hlt
  rw [List.mergeSort_of_pairwise hsorted, List.map_map]
  exact List.zipIdx_map_fst 0 keys

theorem related_view {doc : Doc F} {value : Value F} (h : Stands hashStr doc value) :
    View.Related (Stands hashStr) doc.view (value.view hashStr) := by
  cases doc with
  | object members =>
      cases value with
      | object object =>
          obtain ⟨pairs, hholds, hmembers⟩ := h
          have hmembers := standMembers_iff.mp hmembers
          refine .object ?_ fun key => ?_
          · rw [sort_zipIdx, hholds.sort_iter, List.map_map, map_fst_of_forall₂ hmembers]
            rfl
          · rw [hholds.get_eq]
            exact rel_lookup hmembers key
      | _ => cases h
  | array elements =>
      cases value with
      | array table => exact .array (standElements_iff.mp h)
      | _ => cases h
  | string text =>
      cases value with
      | string => cases h; exact .string text
      | _ => cases h
  | integer number =>
      cases value with
      | integer => cases h; exact .integer number
      | _ => cases h
  | real number =>
      cases value with
      | real => cases h; exact .real number
      | _ => cases h
  | «true» =>
      cases value with
      | «true» => exact .true
      | _ => cases h
  | «false» =>
      cases value with
      | «false» => exact .false
      | _ => cases h
  | null =>
      cases value with
      | null => exact .null
      | _ => cases h

/-- Printing values is printing documents, with the same fuel. -/
theorem dumps_stands {doc : Doc F} {value : Value F} (h : Stands hashStr doc value) (fuel : Nat) :
    dumps Doc.view fuel doc = dumps (Value.view hashStr) fuel value :=
  dumps_related (fun _ _ => related_view) fuel h

/-- A text that is parsed and printed does not show the hash function or its seed. -/
theorem loads_dumps_seed (F : Floats) (hashStr hashStr' : Text → Nat) (text : Text) (fuel : Nat) :
    (loads (Value.builder F hashStr) text).bind (dumps (Value.view hashStr) fuel)
      = (loads (Value.builder F hashStr') text).bind (dumps (Value.view hashStr') fuel) := by
  have hdoc : ∀ hashStr : Text → Nat,
      (loads (Doc.builder F) text).bind (dumps Doc.view fuel)
        = (loads (Value.builder F hashStr) text).bind (dumps (Value.view hashStr) fuel) := by
    intro hashStr
    have hloads := loads_stands F hashStr text
    generalize loads (Doc.builder F) text = doc at hloads
    generalize loads (Value.builder F hashStr) text = value at hloads
    cases hloads with
    | none => rfl
    | some h => exact dumps_stands h fuel
  rw [← hdoc, ← hdoc]

end

end LibJansson

end IoTRepublic
