import IoTRepublic.Jansson.Document
import IoTRepublic.Jansson.LexerSound
import IoTRepublic.Utility.JsonTexts

/-!
# IoTRepublic.Jansson.RoundTrip

What `json_dumps` prints, `json_loads` reads back, as long as `string_get` can count it.

A document is printed as a text that is read as the document wherever the parser meets
it (`Spelled`): a value in front of a comma, a closing bracket or the end.

Main result: `loads_dumps`.

The induction is on the document, with the text behind it left open: `ReadAs` is about a
text wherever it stands, so that a member can be read in front of the next one. Printing
looks a member up again by its key, which is where distinct keys are needed. The fuel of
the printer is the depth of the document, the one of the parser whatever the text can
need.

`loads_dumps` is about documents, in which members are a list; `loads_dumps_stands`
carries it to the values of the library, whose members are in hash tables.
-/

namespace IoTRepublic

open Cpp

namespace LibJansson

variable {F : Floats}

/-! ### Well-formed documents -/

/-- The documents that can be printed and read back: no key comes twice, strings are UTF-8
without zero bytes, integers have 64 bits and reals are ones that `strtod` reads. -/
inductive Doc.WellFormed : Doc F → Prop
  | object {members : List (Text × Doc F)} (hnodup : (members.map (·.1)).Nodup)
      (hkeys : ∀ m ∈ members, IsJsonString m.1) (hmembers : ∀ m ∈ members, WellFormed m.2) :
      WellFormed (.object members)
  | array {elements : List (Doc F)} (helements : ∀ e ∈ elements, WellFormed e) :
      WellFormed (.array elements)
  | string {value : Text} (h : IsJsonString value) : WellFormed (.string value)
  | integer {value : Int} (h : InInt64 value) : WellFormed (.integer value)
  /-- A double that can be read. -/
  | real {value : F.Double} (h : F.Reads value) : WellFormed (.real value)
  | true : WellFormed .true
  | false : WellFormed .false
  | null : WellFormed .null

mutual

/-- How deep a document is. -/
def Doc.depth : Doc F → Nat
  | .object members => depthMembers members + 1
  | .array elements => depthElements elements + 1
  | _ => 1

def depthMembers : List (Text × Doc F) → Nat
  | [] => 0
  | (_, value) :: members => max value.depth (depthMembers members)

def depthElements : List (Doc F) → Nat
  | [] => 0
  | elem :: elements => max elem.depth (depthElements elements)

end

/-- An array or an object. -/
def Doc.isContainer : Doc F → Bool
  | .object _ => Bool.true
  | .array _ => Bool.true
  | _ => Bool.false

/-! ### Values within a text -/

/-- What stands behind a value. -/
def EndsValue (rest : Text) : Prop := ∀ b ∈ rest.head?, b = 0x2C ∨ b = 0x5D ∨ b = 0x7D

theorem endsValue_cons {b : Byte} (h : b = 0x2C ∨ b = 0x5D ∨ b = 0x7D) (rest : Text) :
    EndsValue (b :: rest) := by
  intro c hc
  obtain rfl : b = c := Option.some.inj hc
  exact h

theorem EndsValue.readable {rest : Text} (h : EndsValue rest) : Readable rest := by
  intro b hb
  rcases h b hb with rfl | rfl | rfl <;> decide

theorem EndsValue.number {rest : Text} (h : EndsValue rest) : EndsNumber rest := by
  refine ⟨h.readable, fun b hb => ?_⟩
  rcases h b hb with rfl | rfl | rfl <;> decide

/-- Wherever the text stands as a value, it is read as the document. -/
def ReadAs (text : Text) (doc : Doc F) : Prop :=
  ∀ (stream : Stream) (rest : Text), EndsValue rest → stream.At (text ++ rest) →
    ∃ s', Parses (Doc.builder F) (.value (lexScan F stream).1) (lexScan F stream).2 doc s'
      ∧ s'.At rest

/-- The document is printed, in ASCII, and what is printed is read back. -/
def Spelled (doc : Doc F) : Prop :=
  ∃ text, Printable text ∧ (∀ fuel, doc.depth ≤ fuel → doDump Doc.view fuel doc = some text)
    ∧ ReadAs text doc

/-- Nothing that is parsed starts with a closing bracket. -/
theorem Parses.token_ne_close {V : Type} {B : Builder F V} {task : Task F V} {s s' : Stream}
    {v : V} (h : Parses B task s v s') :
    task.token ≠ .punct 0x5D ∧ task.token ≠ .punct 0x7D := by
  induction h with
  | lastElement _ _ ih => exact ih
  | nextElement _ _ _ ih _ => exact ih
  | _ => simp [Task.token]

/-! ### Scalars -/

theorem spelled_string {value : Text} (h : IsJsonString value) :
    Spelled (.string value : Doc F) := by
  obtain ⟨hnul, hutf⟩ := h
  obtain ⟨chars, rfl⟩ := (utf8CheckString_iff value).mp hutf
  refine ⟨literal chars, printable_literal chars, fun fuel hfuel => ?_,
    fun stream rest _ hat => ?_⟩
  · obtain ⟨fuel, rfl⟩ := Nat.exists_eq_add_of_le' (show 1 ≤ fuel from hfuel)
    simp [doDump, Doc.view, dumpString_encode]
  · obtain ⟨htoken, hnext⟩ := lexes_literal F chars rest stream hat
    rw [htoken]
    exact ⟨_, .string hnul, hnext⟩

theorem spelled_integer {value : Int} (h : InInt64 value) : Spelled (.integer value : Doc F) := by
  have hprintable := (Numeral.valid_ofInt value).printable
  rw [Numeral.text_ofInt] at hprintable
  refine ⟨showInt value, hprintable, fun fuel hfuel => ?_, fun stream rest hrest hat => ?_⟩
  · obtain ⟨fuel, rfl⟩ := Nat.exists_eq_add_of_le' (show 1 ≤ fuel from hfuel)
    rfl
  · rw [← Numeral.text_ofInt] at hat
    obtain ⟨htoken, hnext⟩ := lexes_number F (Numeral.valid_ofInt value) hrest.number stream hat
    rw [htoken, Numeral.token_ofInt F h]
    exact ⟨_, .integer, hnext⟩

theorem spelled_real (hF : F.Exact) {value : F.Double} (h : F.Reads value) :
    Spelled (.real value : Doc F) := by
  obtain ⟨n, hn, hreal, hprint, hread⟩ := dtostr_eq hF h
  refine ⟨n.text, hn.printable, fun fuel hfuel => ?_, fun stream rest hrest hat => ?_⟩
  · obtain ⟨fuel, rfl⟩ := Nat.exists_eq_add_of_le' (show 1 ≤ fuel from hfuel)
    exact hprint
  · obtain ⟨htoken, hnext⟩ := lexes_number F hn hrest.number stream hat
    rw [htoken, Numeral.token, if_pos hreal, realToken, hread]
    exact ⟨_, .real, hnext⟩

/-- `true`, `false` and `null`. -/
theorem spelled_word {doc : Doc F} {word : Text} (hdepth : doc.depth = 1)
    (hprint : ∀ fuel, doDump Doc.view (fuel + 1) doc = some word) (hne : word ≠ [])
    (hword : ∀ b ∈ word, isAlpha b = true)
    (hparses : ∀ s, Parses (Doc.builder F) (.value (identifier F word)) s doc s) : Spelled doc := by
  refine ⟨word, fun b hb => ascii_isAlpha (hword b hb), fun fuel hfuel => ?_,
    fun stream rest hrest hat => ?_⟩
  · obtain ⟨fuel, rfl⟩ := Nat.exists_eq_add_of_le' (hdepth ▸ hfuel)
    exact hprint fuel
  · have hletter : ∀ b ∈ rest.head?, isAlpha b = false := by
      intro b hb
      rcases hrest b hb with rfl | rfl | rfl <;> decide
    obtain ⟨htoken, hnext⟩ := lexes_identifier F hne hword hrest.readable hletter stream hat
    rw [htoken]
    exact ⟨_, hparses _, hnext⟩

/-! ### Arrays -/

theorem lexes_at {c : Byte} {rest : Text} {stream : Stream} (hpunct : isPunct c = true)
    (hat : stream.At (c :: rest)) :
    (lexScan F stream).1 = .punct c ∧ (lexScan F stream).2.At rest :=
  lexes_punct F hpunct rest stream hat

/-- The elements behind the bracket, or behind those that have been read. -/
theorem spelled_elements {elements : List (Doc F)} (h : ∀ e ∈ elements, Spelled e) :
    ∃ text, Printable text
      ∧ (∀ fuel, depthElements elements ≤ fuel →
        dumpElements (doDump Doc.view fuel) elements = some text)
      ∧ (elements ≠ [] → ∀ (acc : List (Doc F)) (stream : Stream) (rest : Text),
        stream.At (text ++ 0x5D :: rest) →
        ∃ s', Parses (Doc.builder F) (.elements (.array acc) (lexScan F stream).1)
          (lexScan F stream).2 (.array (acc ++ elements)) s' ∧ s'.At rest)
      ∧ (elements = [] → text = []) := by
  induction elements with
  | nil => exact ⟨[], by simp [Printable], fun _ _ => rfl, fun hne => absurd rfl hne, fun _ => rfl⟩
  | cons e elements ih =>
      obtain ⟨first, hascii, hfirst, hreads⟩ := h e List.mem_cons_self
      obtain ⟨behind, hmore, hbehind, hrest, hnil⟩ :=
        ih fun e' he' => h e' (List.mem_cons_of_mem e he')
      cases elements with
      | nil =>
          refine ⟨first, hascii, fun fuel hfuel => ?_, fun _ acc stream rest hat => ?_,
            fun hne => ?_⟩
          · exact hfirst fuel (Nat.le_trans (Nat.le_max_left _ _) hfuel)
          · obtain ⟨s', hparses, hs'⟩ := hreads stream _ (endsValue_cons (by decide) _) hat
            obtain ⟨hclose, hs''⟩ := lexes_at (F := F) rfl hs'
            exact ⟨_, .lastElement hparses hclose, hs''⟩
          · cases hne
      | cons next elements =>
          refine ⟨first ++ 0x2C :: behind, hascii.append (.cons (by decide) hmore),
            fun fuel hfuel => ?_, fun _ acc stream rest hat => ?_, fun hne => ?_⟩
          · have hmax := max_le_iff.mp hfuel
            rw [dumpElements_cons _ _ (List.cons_ne_nil _ _), hfirst fuel hmax.1,
              hbehind fuel hmax.2]
            rfl
          · rw [List.append_assoc, List.cons_append] at hat
            obtain ⟨s', hparses, hs'⟩ := hreads stream _ (endsValue_cons (by decide) _) hat
            obtain ⟨hcomma, hs''⟩ := lexes_at (F := F) rfl hs'
            obtain ⟨last, hlater, hlast⟩ :=
              hrest (List.cons_ne_nil _ _) (acc ++ [e]) _ rest hs''
            rw [List.append_assoc] at hlater
            exact ⟨last, .nextElement hparses hcomma hlater, hlast⟩
          · cases hne

theorem spelled_array {elements : List (Doc F)} (h : ∀ e ∈ elements, Spelled e) :
    Spelled (.array elements) := by
  obtain ⟨text, hascii, hdump, hreads, hnil⟩ := spelled_elements h
  refine ⟨0x5B :: text ++ [0x5D], (Printable.cons (by decide) hascii).append (by decide),
    fun fuel hfuel => ?_, fun stream rest hrest hat => ?_⟩
  · obtain ⟨fuel, rfl⟩ := Nat.exists_eq_add_of_le'
      (Nat.le_trans (Nat.succ_le_succ (Nat.zero_le _)) hfuel)
    rw [doDump, Doc.view]
    dsimp only
    rw [hdump fuel (Nat.le_of_succ_le_succ hfuel)]
    rfl
  · have hat : stream.At (0x5B :: (text ++ 0x5D :: rest)) := by
      rw [List.cons_append, List.cons_append, List.append_assoc] at hat
      exact hat
    obtain ⟨hopen, hs⟩ := lexes_at (F := F) rfl hat
    rw [hopen]
    cases elements with
    | nil =>
        rw [hnil rfl] at hs
        obtain ⟨hclose, hs'⟩ := lexes_at (F := F) rfl hs
        exact ⟨_, .emptyArray hclose, hs'⟩
    | cons e elements =>
        obtain ⟨s', helements, hs'⟩ := hreads (List.cons_ne_nil _ _) [] _ rest hs
        exact ⟨s', .array helements.token_ne_close.1 helements, hs'⟩

/-! ### Objects -/

/-- A member as `do_dump` prints it. -/
def dumpEntry (fuel : Nat) (m : Text × Doc F) : Option Text :=
  (doDump Doc.view fuel m.2).map fun text => (dumpString m.1).1 ++ 0x3A :: text

/-- It is looked up by its key, and found, as no other member has it. -/
theorem dumpElements_members {members : List (Text × Doc F)}
    (hnodup : (members.map (·.1)).Nodup) (fuel : Nat) :
    dumpElements (dumpMember (doDump Doc.view fuel) (lookup members)) (members.map (·.1))
      = dumpElements (dumpEntry fuel) members := by
  refine dumpElements_congr ?_
  rw [List.forall₂_map_left_iff, List.forall₂_same]
  intro m hm
  rw [dumpMember, lookup_of_mem hnodup hm, dumpEntry]
  cases hdump : doDump Doc.view fuel m.2 with
  | none => simp [hdump]
  | some text => simp [hdump]

/-- The members behind the brace, or behind those that have been read. -/
theorem spelled_members {members : List (Text × Doc F)} (hkeys : ∀ m ∈ members, IsJsonString m.1)
    (h : ∀ m ∈ members, Spelled m.2) :
    ∃ text, Printable text
      ∧ (∀ fuel, depthMembers members ≤ fuel →
        dumpElements (dumpEntry fuel) members = some text)
      ∧ (members ≠ [] → ∀ (acc : List (Text × Doc F)) (stream : Stream) (rest : Text),
        ((acc ++ members).map (·.1)).Nodup → stream.At (text ++ 0x7D :: rest) →
        ∃ s', Parses (Doc.builder F) (.members (.object acc) (lexScan F stream).1)
          (lexScan F stream).2 (.object (acc ++ members)) s' ∧ s'.At rest)
      ∧ (members = [] → text = []) := by
  induction members with
  | nil => exact ⟨[], by simp [Printable], fun _ _ => rfl, fun hne => absurd rfl hne, fun _ => rfl⟩
  | cons m members ih =>
      obtain ⟨key, doc⟩ := m
      obtain ⟨value, hascii, hvalue, hreads⟩ := h _ List.mem_cons_self
      obtain ⟨hnul, hutf⟩ := hkeys _ List.mem_cons_self
      obtain ⟨chars, hchars⟩ := (utf8CheckString_iff _).mp hutf
      obtain ⟨behind, hmore, hbehind, hrest, hnil⟩ := ih
        (fun m' hm' => hkeys m' (List.mem_cons_of_mem _ hm'))
        (fun m' hm' => h m' (List.mem_cons_of_mem _ hm'))
      dsimp only at hnul hchars
      subst hchars
      have hentry : ∀ fuel, doc.depth ≤ fuel → dumpEntry fuel (encode chars, doc)
          = some (literal chars ++ 0x3A :: value) := by
        intro fuel hfuel
        rw [dumpEntry, hvalue fuel hfuel, dumpString_encode]
        rfl
      have hmemberAscii : Printable (literal chars ++ 0x3A :: value) :=
        (printable_literal chars).append (.cons (by decide) hascii)
      -- The key, the colon and the value.
      have hmember : ∀ (stream : Stream) (rest : Text),
          EndsValue rest → stream.At (literal chars ++ 0x3A :: value ++ rest) →
          ∃ s s', (lexScan F stream).1 = .string (encode chars)
            ∧ (lexScan F (lexScan F stream).2).1 = .punct 0x3A
            ∧ (lexScan F (lexScan F stream).2).2 = s
            ∧ Parses (Doc.builder F) (.value (lexScan F s).1) (lexScan F s).2 doc s'
            ∧ s'.At rest := by
        intro stream rest hends hat
        rw [List.append_assoc, List.cons_append] at hat
        obtain ⟨hkey, hs⟩ := lexes_literal F chars _ stream hat
        obtain ⟨hcolon, hs⟩ := lexes_at (F := F) rfl hs
        obtain ⟨s', hparses, hs'⟩ := hreads _ rest hends hs
        exact ⟨_, s', hkey, hcolon, rfl, hparses, hs'⟩
      have hset : ∀ acc : List (Text × Doc F),
          ((acc ++ (encode chars, doc) :: members).map (·.1)).Nodup →
          (Doc.builder F).objectSet (.object acc) (encode chars) doc
            = .object (acc ++ [(encode chars, doc)]) := by
        intro acc hnodup
        rw [List.map_append, List.map_cons, List.nodup_middle, List.nodup_cons] at hnodup
        have hnew : encode chars ∉ acc.map (·.1) :=
          fun hmem => hnodup.1 (List.mem_append_left _ hmem)
        exact congrArg Doc.object (KeyedTable.put_eq_append hnew)
      cases members with
      | nil =>
          refine ⟨literal chars ++ 0x3A :: value, hmemberAscii, fun fuel hfuel => ?_,
            fun _ acc stream rest hnodup hat => ?_, fun hne => ?_⟩
          · exact hentry fuel (Nat.le_trans (Nat.le_max_left _ _) hfuel)
          · obtain ⟨s, s', hkey, hcolon, rfl, hparses, hs'⟩ :=
              hmember stream _ (endsValue_cons (by decide) _) hat
            obtain ⟨hclose, hs''⟩ := lexes_at (F := F) rfl hs'
            rw [hkey, ← hset acc hnodup]
            exact ⟨_, .lastMember hnul hcolon hparses hclose, hs''⟩
          · cases hne
      | cons next members =>
          refine ⟨literal chars ++ 0x3A :: value ++ 0x2C :: behind,
            hmemberAscii.append (.cons (by decide) hmore), fun fuel hfuel => ?_,
            fun _ acc stream rest hnodup hat => ?_, fun hne => ?_⟩
          · have hmax := max_le_iff.mp hfuel
            rw [dumpElements_cons _ _ (List.cons_ne_nil _ _), hentry fuel hmax.1,
              hbehind fuel hmax.2]
            rfl
          · rw [List.append_assoc, List.cons_append] at hat
            obtain ⟨s, s', hkey, hcolon, rfl, hparses, hs'⟩ :=
              hmember stream _ (endsValue_cons (by decide) _) hat
            obtain ⟨hcomma, hs''⟩ := lexes_at (F := F) rfl hs'
            have hassoc : acc ++ (encode chars, doc) :: next :: members
                = acc ++ [(encode chars, doc)] ++ next :: members := by
              rw [List.append_assoc]
              rfl
            obtain ⟨last, hlater, hlast⟩ := hrest (List.cons_ne_nil _ _)
              (acc ++ [(encode chars, doc)]) _ rest (by rwa [← hassoc]) hs''
            rw [← hset acc hnodup, ← hassoc] at hlater
            rw [hkey]
            exact ⟨last, .nextMember hnul hcolon hparses hcomma hlater, hlast⟩
          · cases hne

theorem spelled_object {members : List (Text × Doc F)} (hnodup : (members.map (·.1)).Nodup)
    (hkeys : ∀ m ∈ members, IsJsonString m.1) (h : ∀ m ∈ members, Spelled m.2) :
    Spelled (.object members) := by
  obtain ⟨text, hascii, hdump, hreads, hnil⟩ := spelled_members hkeys h
  refine ⟨0x7B :: text ++ [0x7D], (Printable.cons (by decide) hascii).append (by decide),
    fun fuel hfuel => ?_, fun stream rest hrest hat => ?_⟩
  · obtain ⟨fuel, rfl⟩ := Nat.exists_eq_add_of_le'
      (Nat.le_trans (Nat.succ_le_succ (Nat.zero_le _)) hfuel)
    rw [doDump, Doc.view]
    dsimp only
    rw [sort_zipIdx, dumpElements_members hnodup, hdump fuel (Nat.le_of_succ_le_succ hfuel)]
    rfl
  · have hat : stream.At (0x7B :: (text ++ 0x7D :: rest)) := by
      rw [List.cons_append, List.cons_append, List.append_assoc] at hat
      exact hat
    obtain ⟨hopen, hs⟩ := lexes_at (F := F) rfl hat
    rw [hopen]
    cases members with
    | nil =>
        rw [hnil rfl] at hs
        obtain ⟨hclose, hs'⟩ := lexes_at (F := F) rfl hs
        exact ⟨_, .emptyObject hclose, hs'⟩
    | cons m members =>
        obtain ⟨s', hmembers, hs'⟩ := hreads (List.cons_ne_nil _ _) [] _ rest hnodup hs
        exact ⟨s', .object hmembers.token_ne_close.2 hmembers, hs'⟩

/-! ### Documents -/

theorem Doc.WellFormed.spelled (hF : F.Exact) {doc : Doc F} (h : doc.WellFormed) :
    Spelled doc := by
  induction h with
  | object hnodup hkeys _ ih => exact spelled_object hnodup hkeys ih
  | array _ ih => exact spelled_array ih
  | string h => exact spelled_string h
  | integer h => exact spelled_integer h
  | real h => exact spelled_real hF h
  | «true» =>
      exact spelled_word rfl (fun _ => rfl) (by decide) (forall_mem_of_all (by decide))
        fun _ => .jsonTrue
  | «false» =>
      exact spelled_word rfl (fun _ => rfl) (by decide) (forall_mem_of_all (by decide))
        fun _ => .jsonFalse
  | null =>
      exact spelled_word rfl (fun _ => rfl) (by decide) (forall_mem_of_all (by decide))
        fun _ => .jsonNull

/-- An array or an object starts with its bracket. -/
theorem Parses.token_of_isContainer {token : Token F} {s s' : Stream} {doc : Doc F}
    (h : Parses (Doc.builder F) (.value token) s doc s') (hdoc : doc.isContainer = true) :
    token = .punct 0x5B ∨ token = .punct 0x7B := by
  cases h with
  | emptyObject => exact Or.inr rfl
  | object => exact Or.inr rfl
  | emptyArray => exact Or.inl rfl
  | array => exact Or.inl rfl
  | _ => cases hdoc

/-- A document is printed, and what is printed is read back, if an `int` counts its bytes. -/
theorem loads_dumps (hF : F.Exact) {doc : Doc F} (h : doc.WellFormed)
    (hdoc : doc.isContainer = true) :
    ∃ text, Printable text ∧ (∀ fuel, doc.depth ≤ fuel → dumps Doc.view fuel doc = some text)
      ∧ (text.length < 2 ^ 31 → loads (Doc.builder F) text = some doc) := by
  obtain ⟨text, hascii, hdump, hreads⟩ := h.spelled hF
  refine ⟨text, hascii, fun fuel hfuel => ?_, fun hlength => ?_⟩
  · rw [← hdump fuel hfuel]
    cases doc with
    | object => rfl
    | array => rfl
    | _ => cases hdoc
  · obtain ⟨s', hparses, hs'⟩ := hreads (Stream.init text) [] (by simp [EndsValue])
      (by rw [List.append_nil]; exact Stream.at_init hlength)
    exact loads_eq_some_iff.mpr
      ⟨_, s', rfl, hparses.token_of_isContainer hdoc, hparses, (lexScan_nil F hs').1⟩

/-- A value is printed as what it stands for. If an `int` counts the bytes, a value that stands
for the same is read back, under any hash function. -/
theorem loads_dumps_stands (hF : F.Exact) (hashStr : Text → Nat) {doc : Doc F} {value : Value F}
    (h : doc.WellFormed) (hdoc : doc.isContainer = true) (hvalue : Stands hashStr doc value) :
    ∃ text, Printable text
      ∧ (∀ fuel, doc.depth ≤ fuel → dumps (Value.view hashStr) fuel value = some text)
      ∧ (text.length < 2 ^ 31 → ∀ hashStr', ∃ value',
        loads (Value.builder F hashStr') text = some value' ∧ Stands hashStr' doc value') := by
  obtain ⟨text, hascii, hdump, hloads⟩ := loads_dumps hF h hdoc
  refine ⟨text, hascii, fun fuel hfuel => by rw [← dumps_stands hvalue, hdump fuel hfuel],
    fun hlength hashStr' => ?_⟩
  have hstands := loads_stands F hashStr' text
  rw [hloads hlength] at hstands
  generalize hresult : loads (Value.builder F hashStr') text = result at hstands
  cases hstands with
  | some hvalue' => exact ⟨_, rfl, hvalue'⟩

/-- The document `[-0.5, -7]` under the key `é`. -/
def exampleDoc : Doc Floats.halves :=
  .object [([0xC3, 0xA9], .array [.real (true, 1), .integer (-7)])]

theorem reads_exampleReal : Floats.halves.Reads (true, 1) :=
  ⟨Numeral.ofHalves true 1, 0x65, (Numeral.printed_ofHalves true (by decide)).valid, Or.inl rfl,
    Floats.halves_ofHalves true (by decide)⟩

theorem wellFormed_exampleDoc : exampleDoc.WellFormed := by
  refine .object (by decide) (fun m hm => ?_) (fun m hm => ?_)
  · obtain rfl := List.mem_singleton.mp hm
    decide
  · obtain rfl := List.mem_singleton.mp hm
    refine .array fun e he => ?_
    cases List.mem_cons.mp he with
    | inl he => exact he ▸ .real reads_exampleReal
    | inr he => exact List.mem_singleton.mp he ▸ .integer (by decide)

/-- Under a hash function that takes all keys for the same. -/
theorem loads_dumps_stands_example :
    ∃ text, Printable text
      ∧ (∀ fuel, 3 ≤ fuel →
        dumps (Value.view fun _ => 0) fuel
          ((Value.builder Floats.halves fun _ => 0).objectSet (.object .create) [0xC3, 0xA9]
            (.array [.real (true, 1), .integer (-7)])) = some text)
      ∧ (text.length < 2 ^ 31 → ∀ hashStr', ∃ value',
        loads (Value.builder Floats.halves hashStr') text = some value'
          ∧ Stands hashStr' exampleDoc value') := by
  have hvalue : Stands (F := Floats.halves) (fun _ => 0) exampleDoc
      ((Value.builder Floats.halves fun _ => 0).objectSet (.object .create) [0xC3, 0xA9]
        (.array [.real (true, 1), .integer (-7)])) :=
    (related_builder _).objectSet _ (related_builder _).object ⟨rfl, rfl, trivial⟩
  exact loads_dumps_stands exact_halves _ wellFormed_exampleDoc rfl hvalue

end LibJansson

end IoTRepublic
