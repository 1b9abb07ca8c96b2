import IoTRepublic.Jansson.Accepted

/-!
# IoTRepublic.Jansson.Library

The vendored library, as the JSON library that `JsonUtility` is on top of: what is
asked of that one holds of this one.

`JsonUtility` sees a hash table as its members in the order of addition, and the key
`json_object_iter` starts with, which the buckets decide (`Value.toRoot`). A scalar is
seen as what is printed of it. Printing takes the members back into a hash table
(`Doc.toValue`). Neither loses anything of a document that is well formed, and only the
first key depends on the hash function.

Main result: `library_sound`.

The program never sees a value's hash tables. It sees what is printed, what a key holds
and which key comes first; the last is all that is left of the order of the buckets, and a
program that takes the first member of an object with several has no promise which it
gets. `Jansson.FaithfulOn` restricts what is asked to texts that `string_get` can count:
on longer ones the source overflows an `int`.

Reading and printing go through documents in both directions: what `json_loads` has made
stands for a document (`exists_doc_of_loads`), what the program makes of it by replacing
strings is seen as one again (`exists_doc_of_built`), and documents are what the round
trip is about. The C library enters through `Floats.Exact` only.
-/

namespace IoTRepublic

open Cpp

namespace LibJansson

variable {F : Floats}

/-! ### The values `JsonUtility` sees -/

mutual

/-- A document as `JsonUtility` sees it: the numbers and the constants are only their
texts. -/
def Doc.toJson : Doc F → Json
  | .object members => .object (toJsonMembers members)
  | .array elements => .array (toJsonElements elements)
  | .string value => .string value
  | .integer value => .scalar (showInt value)
  | .real value => .scalar ((dtostr F value).getD [])
  | .true => .scalar (lit "true")
  | .false => .scalar (lit "false")
  | .null => .scalar (lit "null")

def toJsonMembers : List (Text × Doc F) → List (Text × Json)
  | [] => []
  | (key, value) :: members => (key, value.toJson) :: toJsonMembers members

def toJsonElements : List (Doc F) → List Json
  | [] => []
  | elem :: elements => elem.toJson :: toJsonElements elements

end

mutual

/-- What is seen of a value: of an object its members, sorted by their serials, which is
the order of printing. -/
def Value.toJson : Value F → Json
  | .object ⟨⟨_, _, _, list⟩, _⟩ =>
    .object (((pairsToJson list).mergeSort fun a b => a.1 ≤ b.1).map (·.2))
  | .array table => .array (tableToJson table)
  | .string value => .string value
  | .integer value => .scalar (showInt value)
  | .real value => .scalar ((dtostr F value).getD [])
  | .true => .scalar (lit "true")
  | .false => .scalar (lit "false")
  | .null => .scalar (lit "null")

def pairsToJson : List (Pair (Value F)) → List (Nat × Text × Json)
  | [] => []
  | ⟨_, key, value, serial⟩ :: list => (serial, key, value.toJson) :: pairsToJson list

def tableToJson : List (Value F) → List Json
  | [] => []
  | value :: table => value.toJson :: tableToJson table

end

/-- `json_object_iter_key(json_object_iter(json))`: the first pair on the list, wherever
the hash function has put it. -/
def Value.firstKey : Value F → Option Text
  | .object json => json.iter.head?.map (·.2)
  | _ => none

theorem pairsToJson_eq (list : List (Pair (Value F))) :
    pairsToJson list = list.map fun p => (p.serial, p.key, p.value.toJson) := by
  induction list with
  | nil => rfl
  | cons p list ih =>
      obtain ⟨hash, key, value, serial⟩ := p
      rw [pairsToJson, ih, List.map_cons]

theorem Value.toJson_object (object : Object (Value F)) :
    (Value.object object).toJson = .object (((object.hashtable.list.map fun p =>
      (p.serial, p.key, p.value.toJson)).mergeSort fun a b => a.1 ≤ b.1).map (·.2)) := by
  obtain ⟨⟨size, buckets, order, list⟩, serial⟩ := object
  rw [Value.toJson, pairsToJson_eq]

/-- Iteration visits the keys of the members, each of them once, in an order of its
own. -/
theorem Value.keys_perm (object : Object (Value F)) :
    (Value.object object).toJson.keys.Perm (object.iter.map (·.2)) := by
  have hperm := ((List.mergeSort_perm (object.hashtable.list.map fun p =>
    (p.serial, p.key, p.value.toJson)) fun a b => a.1 ≤ b.1).map (·.2)).map (·.1)
  rw [Value.toJson_object, Json.keys]
  refine hperm.trans (.of_eq ?_)
  rw [Object.iter, List.map_map, List.map_map, List.map_map]
  rfl

/-- A value as `JsonUtility` sees the root: what is seen of it, and where iteration
starts. -/
def Value.toRoot (value : Value F) : JsonRoot where
  value := value.toJson
  firstKey := value.firstKey
  firstKey_mem := by
    intro key hkey
    cases value with
    | object object =>
        obtain ⟨pair, hpair, rfl⟩ := Option.map_eq_some_iff.mp hkey
        exact (Value.keys_perm object).mem_iff.mpr
          (List.mem_map_of_mem (List.mem_of_head? hpair))
    | _ => cases hkey
  keys_eq_nil := by
    intro hnone
    cases value with
    | object object =>
        rw [Value.firstKey, Option.map_eq_none_iff, List.head?_eq_none_iff] at hnone
        have hperm := Value.keys_perm object
        rw [hnone] at hperm
        exact hperm.eq_nil
    | _ => simp [Value.toJson, Json.keys]

theorem toJsonMembers_eq (members : List (Text × Doc F)) :
    toJsonMembers members = members.map fun m => (m.1, m.2.toJson) := by
  induction members with
  | nil => rfl
  | cons m members ih => rw [toJsonMembers, ih, List.map_cons]

theorem map_toJson_of_forall₂ {hashStr : Text → Nat} {members : List (Text × Doc F)}
    {pairs : List (Pair (Value F))}
    (hstand : List.Forall₂ (fun m p => m.1 = p.key ∧ Stands hashStr m.2 p.value) members pairs)
    (ih : ∀ m ∈ members, ∀ value, Stands hashStr m.2 value → value.toJson = m.2.toJson) :
    pairs.map (fun p => (p.key, p.value.toJson)) = toJsonMembers members := by
  induction hstand with
  | nil => rfl
  | @cons m p members pairs hm _ ihmembers =>
      rw [toJsonMembers, List.map_cons, ← hm.1, ih m List.mem_cons_self _ hm.2,
        ihmembers fun m' hm' => ih m' (List.mem_cons_of_mem m hm')]

theorem tableToJson_of_forall₂ {hashStr : Text → Nat} {elements : List (Doc F)}
    {table : List (Value F)} (hstand : List.Forall₂ (Stands hashStr) elements table)
    (ih : ∀ e ∈ elements, ∀ value, Stands hashStr e value → value.toJson = e.toJson) :
    tableToJson table = toJsonElements elements := by
  induction hstand with
  | nil => rfl
  | @cons e value elements table he _ ihelements =>
      rw [tableToJson, toJsonElements, ih e List.mem_cons_self _ he,
        ihelements fun e' he' => ih e' (List.mem_cons_of_mem e he')]

/-- A value is seen as the document it stands for, whatever its hash tables look like. -/
theorem toJson_of_stands {hashStr : Text → Nat} {doc : Doc F} (h : doc.WellFormed)
    {value : Value F} (hvalue : Stands hashStr doc value) : value.toJson = doc.toJson := by
  induction h generalizing value with
  | object _ _ _ ih =>
      cases value with
      | object object =>
          obtain ⟨pairs, hholds, hstand⟩ := hvalue
          have hjson := map_toJson_of_forall₂ (standMembers_iff.mp hstand) fun m hm _ => ih m hm
          rw [Value.toJson_object, hholds.sort_map, List.map_map, Doc.toJson, ← hjson]
          rfl
      | _ => cases hvalue
  | array _ ih =>
      cases value with
      | array table =>
          have hjson := tableToJson_of_forall₂ (standElements_iff.mp hvalue) fun e he _ => ih e he
          rw [Value.toJson, Doc.toJson, hjson]
      | _ => cases hvalue
  | string =>
      cases value with
      | string => cases hvalue; rfl
      | _ => cases hvalue
  | integer =>
      cases value with
      | integer => cases hvalue; rfl
      | _ => cases hvalue
  | real =>
      cases value with
      | real => cases hvalue; rfl
      | _ => cases hvalue
  | «true» =>
      cases value with
      | «true» => rfl
      | _ => cases hvalue
  | «false» =>
      cases value with
      | «false» => rfl
      | _ => cases hvalue
  | null =>
      cases value with
      | null => rfl
      | _ => cases hvalue

/-! ### Back again -/

/-- The document of a token. -/
def Token.toDoc : Token F → Option (Doc F)
  | .integer value => some (.integer value)
  | .real value => some (.real value)
  | .true => some .true
  | .false => some .false
  | .null => some .null
  | _ => none

/-- A stream that has the text at hand, with nothing left to read of the string. -/
def Stream.ofLiteral (literal : Text) : Stream :=
  { buffer := literal, data := { rest := [], pos := 0 }, state := .ok }

mutual

/-- The document of which this is seen; a scalar is read. -/
def toDoc (F : Floats) : Json → Option (Doc F)
  | .object members => (toDocMembers F members).map .object
  | .array elements => (toDocElements F elements).map .array
  | .string value => some (.string value)
  | .scalar literal => (lexScan F (Stream.ofLiteral literal)).1.toDoc

def toDocMembers (F : Floats) : List (Text × Json) → Option (List (Text × Doc F))
  | [] => some []
  | (key, value) :: members => do
    let doc ← toDoc F value
    let docs ← toDocMembers F members
    return (key, doc) :: docs

def toDocElements (F : Floats) : List Json → Option (List (Doc F))
  | [] => some []
  | elem :: elements => do
    let doc ← toDoc F elem
    let docs ← toDocElements F elements
    return doc :: docs

end

mutual

/-- A value for a document, with its members added one after the other. -/
def Doc.toValue (hashStr : Text → Nat) : Doc F → Value F
  | .object members => .object (addMembers hashStr members .create)
  | .array elements => .array (toValues hashStr elements)
  | .string value => .string value
  | .integer value => .integer value
  | .real value => .real value
  | .true => .true
  | .false => .false
  | .null => .null

def addMembers (hashStr : Text → Nat) :
    List (Text × Doc F) → Object (Value F) → Object (Value F)
  | [], object => object
  | (key, doc) :: members, object =>
    addMembers hashStr members (object.setNocheck hashStr key (doc.toValue hashStr))

def toValues (hashStr : Text → Nat) : List (Doc F) → List (Value F)
  | [] => []
  | elem :: elements => elem.toValue hashStr :: toValues hashStr elements

end

theorem Lexes.toDoc {text : Text} {token : Token F} (h : Lexes F text [] token) :
    LibJansson.toDoc F (.scalar text) = token.toDoc := by
  have hat : (Stream.ofLiteral text).At (text ++ []) := ⟨rfl, Nat.two_pow_pos 31, Or.inl rfl⟩
  rw [LibJansson.toDoc, (h _ hat).1]

/-- Nothing is lost: of the texts of numbers and constants the same tokens are read
again. -/
theorem toDoc_toJson (hF : F.Exact) {doc : Doc F} (h : doc.WellFormed) :
    toDoc F doc.toJson = some doc := by
  have hends : EndsNumber [] := ⟨by simp [Readable], by simp⟩
  have hword : ∀ {word : Text}, word ≠ [] → (∀ b ∈ word, isAlpha b = true) →
      toDoc F (.scalar word) = (identifier F word).toDoc :=
    fun hne hletters => (lexes_identifier F hne hletters (by simp [Readable]) (by simp)).toDoc
  induction h with
  | object hnodup hkeys hmembers ih =>
      rename_i members
      have hmembers : toDocMembers F (toJsonMembers members) = some members := by
        clear hnodup hkeys hmembers
        induction members with
        | nil => rfl
        | cons m members ihmembers =>
            rw [toJsonMembers, toDocMembers, ih m List.mem_cons_self,
              ihmembers fun m' hm' => ih m' (List.mem_cons_of_mem m hm')]
            rfl
      rw [Doc.toJson, toDoc, hmembers]
      rfl
  | array helements ih =>
      rename_i elements
      have helements : toDocElements F (toJsonElements elements) = some elements := by
        clear helements
        induction elements with
        | nil => rfl
        | cons e elements ihelements =>
            rw [toJsonElements, toDocElements, ih e List.mem_cons_self,
              ihelements fun e' he' => ih e' (List.mem_cons_of_mem e he')]
            rfl
      rw [Doc.toJson, toDoc, helements]
      rfl
  | string h => rfl
  | @integer value h =>
      have hlexes := (lexes_number F (Numeral.valid_ofInt value) hends).toDoc
      rw [Numeral.text_ofInt, Numeral.token_ofInt F h] at hlexes
      exact hlexes
  | real h =>
      obtain ⟨n, hn, hreal, hprint, hread⟩ := dtostr_eq hF h
      have hlexes := (lexes_number F hn hends).toDoc
      rw [Numeral.token, if_pos hreal, realToken, hread] at hlexes
      rw [Doc.toJson, hprint]
      exact hlexes
  | «true» => exact hword (by decide) (forall_mem_of_all (by decide))
  | «false» => exact hword (by decide) (forall_mem_of_all (by decide))
  | null => exact hword (by decide) (forall_mem_of_all (by decide))

/-- The members that are added are the ones the object stands for. -/
theorem holds_addMembers {hashStr : Text → Nat} {members : List (Text × Doc F)}
    (added : List (Text × Doc F))
    (hvalues : ∀ m ∈ members, Stands hashStr m.2 (m.2.toValue hashStr))
    (hnodup : ((added ++ members).map (·.1)).Nodup) {object : Object (Value F)}
    {pairs : List (Pair (Value F))} (hholds : object.Holds hashStr pairs)
    (hstand : List.Forall₂ (fun m p => m.1 = p.key ∧ Stands hashStr m.2 p.value) added pairs) :
    ∃ pairs', (addMembers hashStr members object).Holds hashStr pairs'
      ∧ List.Forall₂ (fun m p => m.1 = p.key ∧ Stands hashStr m.2 p.value) (added ++ members)
          pairs' := by
  induction members generalizing added object pairs with
  | nil =>
      rw [addMembers, List.append_nil]
      exact ⟨pairs, hholds, hstand⟩
  | cons m members ih =>
      obtain ⟨key, doc⟩ := m
      obtain ⟨hvalue, hvalues⟩ := List.forall_mem_cons.mp hvalues
      have hsplit : added ++ (key, doc) :: members = added ++ [(key, doc)] ++ members := by simp
      rw [hsplit] at hnodup ⊢
      have hnew : key ∉ added.map (·.1) := by
        intro hmem
        rw [List.map_append, List.map_append, List.map_singleton, List.append_assoc,
          List.singleton_append, List.nodup_middle, List.nodup_cons] at hnodup
        exact hnodup.1 (List.mem_append_left _ hmem)
      have hput : List.Forall₂ (fun m p => m.1 = p.key ∧ Stands hashStr m.2 p.value)
          (added ++ [(key, doc)])
          (Object.addPair hashStr pairs key object.serial (doc.toValue hashStr)) := by
        rw [← KeyedTable.put_eq_append hnew]
        exact forall₂_put object.serial hholds.nodup hstand hvalue
      rw [addMembers]
      exact ih _ hvalues hnodup (hholds.setNocheck key _) hput

theorem stands_toValue (hashStr : Text → Nat) {doc : Doc F} (h : doc.WellFormed) :
    Stands hashStr doc (doc.toValue hashStr) := by
  induction h with
  | object hnodup _ _ ih =>
      obtain ⟨pairs, hholds, hstand⟩ :=
        holds_addMembers [] ih hnodup Object.holds_create .nil
      exact ⟨pairs, hholds, standMembers_iff.mpr hstand⟩
  | array helements ih =>
      rename_i elements
      refine standElements_iff.mpr ?_
      clear helements
      induction elements with
      | nil => exact .nil
      | cons e elements ihelements =>
          exact .cons (ih e List.mem_cons_self)
            (ihelements fun e' he' => ih e' (List.mem_cons_of_mem e he'))
  | string => rfl
  | integer => rfl
  | real => rfl
  | «true» => trivial
  | «false» => trivial
  | null => trivial

/-! ### The library -/

/-- The vendored library, in a process with a hash function. `loads` is none for NULL, and
where `string_get` overflows. -/
def library (F : Floats) (hashStr : Text → Nat) : Jansson where
  loads text := (loads (Value.builder F hashStr) text).map Value.toRoot
  dumps root := (toDoc F root).bind fun doc =>
    dumps (Value.view hashStr) doc.depth (doc.toValue hashStr)
  isText := utf8CheckString

section Library

variable {hashStr : Text → Nat}

/-- What has been read stands for a document. -/
theorem exists_doc_of_loads {text : Text} {root : JsonRoot}
    (h : (library F hashStr).loads text = some root) :
    ∃ doc : Doc F, root.value = doc.toJson ∧ doc.WellFormed ∧ doc.isContainer = true := by
  obtain ⟨value, hvalue, rfl⟩ := Option.map_eq_some_iff.mp h
  have hstands := loads_stands F hashStr text
  rw [hvalue] at hstands
  generalize hresult : loads (Doc.builder F) text = result at hstands
  cases hstands with
  | @some doc _ hstand =>
      obtain ⟨hdoc, hcontainer⟩ := wellFormed_of_loads hresult
      exact ⟨doc, toJson_of_stands hdoc hstand, hdoc, hcontainer⟩

/-- What is printed is what `json_dumps` prints of any value that is seen so. -/
theorem dumps_eq_of_stands (hF : F.Exact) {doc : Doc F} (h : doc.WellFormed) {value : Value F}
    {hashStr' : Text → Nat} (hvalue : Stands hashStr' doc value) :
    (library F hashStr).dumps value.toJson = dumps (Value.view hashStr') doc.depth value := by
  have hdumps : (library F hashStr).dumps value.toJson = (toDoc F value.toJson).bind fun doc =>
      dumps (Value.view hashStr) doc.depth (doc.toValue hashStr) := rfl
  rw [hdumps, toJson_of_stands h hvalue, toDoc_toJson hF h, Option.bind_some,
    ← dumps_stands (stands_toValue hashStr h), dumps_stands hvalue]

/-- A document is printed, and what is printed can be read again, as a C string. -/
theorem library_dumps (hF : F.Exact) (hashStr : Text → Nat) {doc : Doc F} (h : doc.WellFormed)
    (hdoc : doc.isContainer = true) :
    ∃ text, (library F hashStr).dumps doc.toJson = some text
      ∧ dumps Doc.view doc.depth doc = some text
      ∧ (text.length < 2 ^ 31 → ∀ hashStr', ∃ root,
        (library F hashStr').loads (cStr text) = some root ∧ root.value = doc.toJson) := by
  have hvalue := stands_toValue hashStr h
  obtain ⟨text, hascii, hdump, hback⟩ := loads_dumps_stands hF hashStr h hdoc hvalue
  have hnul : 0 ∉ text := fun hmem => absurd (hascii 0 hmem).1 (by decide)
  have hprinted := hdump doc.depth (Nat.le_refl _)
  refine ⟨text, ?_, by rw [dumps_stands hvalue, hprinted], fun hlength hashStr' => ?_⟩
  · rw [← toJson_of_stands h hvalue, dumps_eq_of_stands hF h hvalue, hprinted]
  · obtain ⟨value', hloads, hvalue'⟩ := hback hlength hashStr'
    refine ⟨value'.toRoot, ?_, toJson_of_stands h hvalue'⟩
    rw [cStr_of_noNul hnul]
    exact congrArg (Option.map Value.toRoot) hloads

theorem rereadBy_library (hF : F.Exact) (hashStr hashStr' : Text → Nat) :
    (library F hashStr).RereadBy (library F hashStr') := by
  intro text root h
  obtain ⟨doc, hroot, hdoc, hcontainer⟩ := exists_doc_of_loads h
  obtain ⟨desc, hdump, -, hback⟩ := library_dumps hF hashStr hdoc hcontainer
  rw [hroot]
  exact ⟨desc, hdump, fun hlength => hback hlength hashStr'⟩

/-! ### Values that have been changed -/

/-- A member that is changed stays in its place, and what is well formed stays so. -/
theorem exists_updateMember {change : Json → Json}
    (hchange : ∀ doc : Doc F, doc.WellFormed →
      ∃ doc' : Doc F, doc'.toJson = change doc.toJson ∧ doc'.WellFormed)
    (keyName : Text) {members : List (Text × Doc F)} (h : ∀ m ∈ members, m.2.WellFormed) :
    ∃ members' : List (Text × Doc F),
      toJsonMembers members' = JsonUtility.updateMember change keyName (toJsonMembers members)
      ∧ members'.map (·.1) = members.map (·.1) ∧ ∀ m ∈ members', m.2.WellFormed := by
  induction members with
  | nil => exact ⟨[], rfl, rfl, by simp⟩
  | cons m members ih =>
      obtain ⟨key, doc⟩ := m
      obtain ⟨hdoc, hmembers⟩ := List.forall_mem_cons.mp h
      by_cases hkey : key = keyName
      · obtain ⟨doc', hdoc', hwell⟩ := hchange doc hdoc
        refine ⟨(key, doc') :: members, ?_, rfl, List.forall_mem_cons.mpr ⟨hwell, hmembers⟩⟩
        rw [toJsonMembers, toJsonMembers, JsonUtility.updateMember, if_pos hkey, hdoc']
      · obtain ⟨members', hset, hkeys, hall⟩ := ih hmembers
        refine ⟨(key, doc) :: members', ?_, by simp [hkeys], List.forall_mem_cons.mpr ⟨hdoc, hall⟩⟩
        rw [toJsonMembers, toJsonMembers, JsonUtility.updateMember, if_neg hkey, hset]

theorem wellFormed_of_keys {members members' : List (Text × Doc F)}
    (h : (Doc.object members).WellFormed) (hkeys : members'.map (·.1) = members.map (·.1))
    (hmembers : ∀ m ∈ members', m.2.WellFormed) : (Doc.object members').WellFormed := by
  cases h with
  | object hnodup hstrings _ =>
      refine .object (by rwa [hkeys]) (fun m hm => ?_) hmembers
      have hmem : m.1 ∈ members.map (·.1) := hkeys ▸ List.mem_map_of_mem hm
      obtain ⟨m', hm', heq⟩ := List.mem_map.mp hmem
      exact heq ▸ hstrings m' hm'

/-- A member of an object is changed; what is no object is left alone. The keys stay, so
no two of them become equal. -/
theorem exists_doc_of_update (change : Json → Json)
    (hchange : ∀ doc : Doc F, doc.WellFormed →
      ∃ doc' : Doc F, doc'.toJson = change doc.toJson ∧ doc'.WellFormed)
    (keyName : Text) {doc : Doc F} (h : doc.WellFormed) :
    ∃ doc' : Doc F, doc'.toJson = JsonUtility.updateFirst change (some keyName) doc.toJson
      ∧ doc'.WellFormed ∧ doc'.isContainer = doc.isContainer := by
  cases doc with
  | object members =>
      have hmembers : ∀ m ∈ members, m.2.WellFormed := by
        cases h with
        | object _ _ hall => exact hall
      obtain ⟨members', hset, hkeys, hall⟩ := exists_updateMember hchange keyName hmembers
      refine ⟨.object members', ?_, wellFormed_of_keys h hkeys hall, rfl⟩
      rw [Doc.toJson, Doc.toJson, JsonUtility.updateFirst, hset]
  | array elements => exact ⟨_, by simp [Doc.toJson, JsonUtility.updateFirst], h, rfl⟩
  | _ => exact ⟨_, by simp [Doc.toJson, JsonUtility.updateFirst], h, rfl⟩

/-- A string that is set is UTF-8. -/
theorem exists_doc_of_setInObject (hashStr : Text → Nat) (keyName value : Text) {doc : Doc F}
    (h : doc.WellFormed) :
    ∃ doc' : Doc F,
      doc'.toJson = JsonUtility.setInObject (library F hashStr) keyName value doc.toJson
        ∧ doc'.WellFormed := by
  have hset : ∀ doc : Doc F, doc.WellFormed → ∃ doc' : Doc F,
      doc'.toJson = (if (library F hashStr).isText (cStr value) then .string (cStr value)
        else doc.toJson) ∧ doc'.WellFormed := by
    intro doc hdoc
    by_cases htext : (library F hashStr).isText (cStr value) = true
    · rw [if_pos htext]
      exact ⟨.string (cStr value), by rw [Doc.toJson], .string ⟨zero_notMem_cStr value, htext⟩⟩
    · rw [if_neg htext]
      exact ⟨doc, rfl, hdoc⟩
  obtain ⟨doc', hdoc', hwell, -⟩ := exists_doc_of_update
    (fun old => if (library F hashStr).isText (cStr value) then .string (cStr value) else old)
    hset keyName h
  refine ⟨doc', ?_, hwell⟩
  rw [hdoc']
  cases doc with
  | object members =>
      rw [Doc.toJson, JsonUtility.updateFirst, JsonUtility.setInObject, JsonUtility.setMember]
  | _ => simp [Doc.toJson, JsonUtility.updateFirst, JsonUtility.setInObject]

/-- Whatever the program makes of what it has read is well formed. -/
theorem exists_doc_of_built {root : JsonRoot} (h : (library F hashStr).Built root) :
    ∃ doc : Doc F, root.value = doc.toJson ∧ doc.WellFormed ∧ doc.isContainer = true := by
  induction h with
  | loaded h => exact exists_doc_of_loads h
  | @set root _ keyName value ih =>
      obtain ⟨doc, hroot, hdoc, hcontainer⟩ := ih
      have hset : (JsonUtility.setValueInFirstObject (library F hashStr) root keyName value).value
          = JsonUtility.updateFirst
              (JsonUtility.setInObject (library F hashStr) keyName value) root.firstKey
              root.value :=
        rfl
      rw [hset]
      cases hkey : root.firstKey with
      | none => exact ⟨doc, hroot, hdoc, hcontainer⟩
      | some rootKey =>
          obtain ⟨doc', hdoc', hwell, hsame⟩ := exists_doc_of_update _
            (fun doc hdoc => exists_doc_of_setInObject hashStr keyName value hdoc) rootKey hdoc
          exact ⟨doc', by rw [hroot, hdoc'], hwell, hsame.trans hcontainer⟩

theorem prints_library (hF : F.Exact) (hashStr : Text → Nat) : (library F hashStr).Prints := by
  intro root h
  obtain ⟨doc, hroot, hdoc, hcontainer⟩ := exists_doc_of_built h
  obtain ⟨desc, hdump, -⟩ := library_dumps hF hashStr hdoc hcontainer
  rw [hroot]
  exact ⟨desc, hdump⟩

end Library

/-! ### Objects of strings -/

/-- The object with one member, the object of the strings. -/
def textDoc (F : Floats) (rootKey : Text) (members : List (Text × Text)) : Doc F :=
  .object [(rootKey, .object (members.map fun m => (m.1, .string m.2)))]

theorem toJson_textDoc (rootKey : Text) (members : List (Text × Text)) :
    (textDoc F rootKey members).toJson = (textObject rootKey members).value := by
  simp [textDoc, textObject, JsonRoot.object, Doc.toJson, toJsonMembers_eq, Function.comp_def]

theorem wellFormed_textDoc {rootKey : Text} {members : List (Text × Text)}
    (hroot : IsJsonString rootKey)
    (hstrings : ∀ member ∈ members, IsJsonString member.1 ∧ IsJsonString member.2)
    (hkeys : (keys members).Nodup) : (textDoc F rootKey members).WellFormed := by
  have hinner : (Doc.object (members.map fun m => (m.1, (.string m.2 : Doc F)))).WellFormed := by
    refine .object ?_ (fun m hm => ?_) (fun m hm => ?_)
    · rw [List.map_map]
      exact hkeys
    · obtain ⟨member, hmember, rfl⟩ := List.mem_map.mp hm
      exact (hstrings member hmember).1
    · obtain ⟨member, hmember, rfl⟩ := List.mem_map.mp hm
      exact .string (hstrings member hmember).2
  refine .object (by simp) (fun m hm => ?_) (fun m hm => ?_)
  · rw [List.mem_singleton.mp hm]
    exact hroot
  · rw [List.mem_singleton.mp hm]
    exact hinner

/-- Plain strings are printed as they are. -/
theorem dumpString_plain {text : Text} (h : Plain text) :
    dumpString text = (inQuotes text, true) := by
  obtain ⟨chars, rfl⟩ := (utf8CheckString_iff text).mp h.isJsonString.2
  have hchars : chars.flatMap escapeChar = encode chars := by
    refine List.flatMap_congr fun c hc => ?_
    obtain ⟨b, bytes, hbytes⟩ :=
      List.exists_cons_of_ne_nil (List.ne_nil_of_length_pos (encodeChar_length_pos c))
    have hb : b ∈ encode chars := List.mem_flatMap.mpr ⟨c, hc, by rw [hbytes]; simp⟩
    obtain ⟨hlow, hhigh, hquote, hbackslash⟩ := h b hb
    simp only [UInt8.le_iff_toNat_le, UInt8.lt_iff_toNat_lt, UInt8.reduceToNat] at hlow hhigh
    have hsettled := settled_encodeChar c
    rw [hbytes] at hsettled
    have hnil : bytes = [] := hsettled.eq_nil (by simp [UInt8.lt_iff_toNat_lt]; omega)
    subst hnil
    have hcode : c.toNat = b.toNat := by
      have hsingle : [b] = String.utf8EncodeChar c ++ [] := by rw [List.append_nil, hbytes]
      have hiterate := iterate_of_encode hsingle
      rw [iterate_one (by omega)] at hiterate
      exact (Prod.mk.inj (Option.some.inj hiterate)).1.symm
    have hplain : mustEscape c.toNat = false := by
      have hne : b.toNat ≠ 0x22 ∧ b.toNat ≠ 0x5C :=
        ⟨fun heq => hquote (UInt8.toNat_inj.mp heq), fun heq => hbackslash (UInt8.toNat_inj.mp heq)⟩
      rw [hcode]
      simp [mustEscape, hne]
      omega
    rw [escapeChar, hplain]
    rfl
  rw [dumpString_encode, literal, hchars, inQuotes]

theorem dumpElements_strings (fuel : Nat) {members : List (Text × Text)}
    (h : ∀ member ∈ members, Plain member.1 ∧ Plain member.2) :
    dumpElements (dumpEntry (fuel + 1)) (members.map fun m => (m.1, (.string m.2 : Doc F)))
      = some (membersText members) := by
  induction members with
  | nil => rfl
  | cons member members ih =>
      obtain ⟨hmember, hmembers⟩ := List.forall_mem_cons.mp h
      have hfirst : dumpEntry (fuel + 1) (member.1, (.string member.2 : Doc F))
          = some (inQuotes member.1 ++ 0x3A :: inQuotes member.2) := by
        rw [dumpEntry, doDump, Doc.view]
        dsimp only
        rw [dumpString_plain hmember.1, dumpString_plain hmember.2]
        rfl
      cases members with
      | nil => exact hfirst
      | cons next members =>
          have htext : membersText (member :: next :: members)
              = inQuotes member.1 ++ 0x3A :: inQuotes member.2
                ++ 0x2C :: membersText (next :: members) := by
            rw [membersText]
            simp
          rw [List.map_cons, dumpElements_cons _ _ (by simp), hfirst, ih hmembers, htext]
          rfl

theorem dumps_textDoc {rootKey : Text} {members : List (Text × Text)} (hroot : Plain rootKey)
    (h : ∀ member ∈ members, Plain member.1 ∧ Plain member.2) (hkeys : (keys members).Nodup)
    (fuel : Nat) :
    dumps Doc.view (fuel + 3) (textDoc F rootKey members) = some (objectText rootKey members) := by
  have hnodup : ((members.map fun m => (m.1, (.string m.2 : Doc F))).map (·.1)).Nodup := by
    rw [List.map_map]
    exact hkeys
  have hinner : doDump Doc.view (fuel + 2)
      (.object (members.map fun m => (m.1, (.string m.2 : Doc F))))
      = some (0x7B :: membersText members ++ [0x7D]) := by
    rw [doDump, Doc.view]
    dsimp only
    rw [sort_zipIdx, dumpElements_members hnodup, dumpElements_strings fuel h]
    rfl
  show doDump Doc.view (fuel + 3) (textDoc F rootKey members) = _
  rw [textDoc, doDump, Doc.view]
  dsimp only
  rw [sort_zipIdx, dumpElements_members (by simp), dumpElements, dumpEntry, hinner,
    dumpString_plain hroot]
  simp [objectText, inQuotes]

/-- Iteration over one member starts with it. -/
theorem eq_textObject {root : JsonRoot} {rootKey : Text} {members : List (Text × Text)}
    (h : root.value = (textObject rootKey members).value) : root = textObject rootKey members := by
  refine JsonRoot.ext h ?_
  have hkeys : root.value.keys = [rootKey] := by
    rw [h]
    rfl
  cases hkey : root.firstKey with
  | none =>
      have hnil := root.keys_eq_nil hkey
      rw [hkeys] at hnil
      cases hnil
  | some key =>
      have hmem := root.firstKey_mem key hkey
      rw [hkeys, List.mem_singleton] at hmem
      rw [hmem]
      rfl

theorem faithfulOn_library (hF : F.Exact) (hashStr : Text → Nat) :
    (library F hashStr).FaithfulOn fun text => text.length < 2 ^ 31 where
  isText_eq := rfl
  loads_objectText {rootKey members} hroot hplain hkeys hshort := by
    have hdoc : (textDoc F rootKey members).WellFormed :=
      wellFormed_textDoc hroot.isJsonString
        (fun member hmember => ⟨(hplain member hmember).1.isJsonString,
          (hplain member hmember).2.isJsonString⟩) hkeys
    obtain ⟨text, hascii, hdump, hloads⟩ := loads_dumps hF hdoc rfl
    have htext := hdump ((textDoc F rootKey members).depth + 3) (Nat.le_add_right _ _)
    rw [dumps_textDoc hroot hplain hkeys] at htext
    obtain rfl := Option.some.inj htext
    obtain ⟨value, hvalue, hstand⟩ : ∃ value,
        loads (Value.builder F hashStr) (objectText rootKey members) = some value
          ∧ Stands hashStr (textDoc F rootKey members) value := by
      have hstands := loads_stands F hashStr (objectText rootKey members)
      rw [hloads hshort] at hstands
      generalize hresult : loads (Value.builder F hashStr) (objectText rootKey members) = result
        at hstands
      cases hstands with
      | some hvalue => exact ⟨_, rfl, hvalue⟩
    refine ⟨members, .refl _, (congrArg (Option.map Value.toRoot) hvalue).trans ?_⟩
    have hroot := (toJson_of_stands hdoc hstand).trans (toJson_textDoc rootKey members)
    exact congrArg some (eq_textObject hroot)
  loads_dumps {rootKey members} hroot hstrings hkeys := by
    obtain ⟨text, hdump, -, hloads⟩ := library_dumps hF hashStr
      (wellFormed_textDoc (F := F) hroot hstrings hkeys) rfl
    rw [toJson_textDoc] at hdump
    refine ⟨text, members, hdump, .refl _, fun hshort => ?_⟩
    obtain ⟨root, hback, hvalue⟩ := hloads hshort hashStr
    rw [toJson_textDoc] at hvalue
    rw [hback, eq_textObject hvalue]

/-- The vendored library does what the program relies on, whatever the hash function of the
process, and of another one that reads what it has printed. -/
theorem library_sound (hF : F.Exact) (hashStr : Text → Nat) :
    (library F hashStr).FaithfulOn (fun text => text.length < 2 ^ 31)
      ∧ (∀ hashStr', (library F hashStr).RereadBy (library F hashStr'))
      ∧ (library F hashStr).Prints :=
  ⟨faithfulOn_library hF hashStr, rereadBy_library hF hashStr, prints_library hF hashStr⟩

theorem library_sound_halves :
    (library Floats.halves List.length).FaithfulOn (fun text => text.length < 2 ^ 31)
      ∧ (∀ hashStr', (library Floats.halves List.length).RereadBy (library Floats.halves hashStr'))
      ∧ (library Floats.halves List.length).Prints :=
  library_sound exact_halves List.length

end LibJansson

end IoTRepublic
