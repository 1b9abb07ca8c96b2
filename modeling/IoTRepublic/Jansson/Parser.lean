import IoTRepublic.Jansson.Lexer

/-!
# IoTRepublic.Jansson.Parser

The parser of `jansson2.7/load.c`, without flags. It makes its values through the
functions of `jansson2.7/value.c`, which are the parameter `Builder`; the recursion
is by fuel, and `loads` gives as much as the text can need.

Main results: `parse_fuel`, that more fuel changes nothing, and
`loads_related`, that values built in two ways stay related.

The functions of the source call each other recursively, so a value, a list of members and
a list of elements are three tasks of one induction. `Parses` says without fuel what a
task reads and makes; `parse_fuel` connects it to the functions, in both directions. What
is proved of the parser elsewhere is proved by induction on `Parses`.

What has been read up to an error is thrown away with the error: nothing of a rejected
text is seen by a caller, so a failure is `none`, without its message.

What the parser is proved to do is proved for all builders at once. `Builder.Related`
compares two of them, constructor by constructor, and `loads_related` carries the
comparison to whole texts: that is how values with hash tables, whatever the hash
function, are compared with documents.
-/

namespace IoTRepublic

open Cpp

namespace LibJansson

/-- The constructors of `value.c` the parser calls. With hash tables in them the parser is
the library's; with lists it makes documents. -/
structure Builder (F : Floats) (V : Type) where
  /-- `json_object`. -/
  object : V
  /-- `json_object_set_nocheck`. -/
  objectSet : V → Text → V → V
  /-- `json_array`. -/
  array : V
  /-- `json_array_append`. -/
  arrayAppend : V → V → V
  /-- `jsonp_stringn_nocheck_own`. -/
  string : Text → V
  /-- `json_integer`. -/
  integer : Int → V
  /-- `json_real`. -/
  real : F.Double → V
  /-- `json_true`. -/
  jsonTrue : V
  /-- `json_false`. -/
  jsonFalse : V
  /-- `json_null`. -/
  jsonNull : V

/-- Is `lex->token` the character? A string of the same single character is not. -/
def Token.isPunct {F : Floats} (c : Byte) : Token F → Bool
  | .punct b => b = c
  | _ => Bool.false

section Parsing

variable {F : Floats} {V : Type} (B : Builder F V)

mutual

/-- `parse_object`, behind the opening brace: an empty object, or the loop over the
members. -/
def parseObject : Nat → Stream → Option (V × Stream)
  | 0, _ => none
  | fuel + 1, stream =>
    let first := lexScan F stream
    if first.1.isPunct 0x7D then some (B.object, first.2)
    else parseMembers fuel B.object first.1 first.2

/-- The loop of `parse_object`: a key without NUL, a colon, a value, and a comma or the
closing brace. A comma in front of the brace is an error. -/
def parseMembers : Nat → V → Token F → Stream → Option (V × Stream)
  | fuel + 1, object, .string key, stream =>
    if 0 ∈ key then none
    else
      let colon := lexScan F stream
      if colon.1.isPunct 0x3A then
        let first := lexScan F colon.2
        match parseValue fuel first.1 first.2 with
        | none => none
        | some (value, stream) =>
          let object := B.objectSet object key value
          let next := lexScan F stream
          if next.1.isPunct 0x2C then
            let first := lexScan F next.2
            parseMembers fuel object first.1 first.2
          else if next.1.isPunct 0x7D then some (object, next.2)
          else none
      else none
  | _, _, _, _ => none

/-- `parse_array`, behind the opening bracket: an empty array, or the loop over the
elements. -/
def parseArray : Nat → Stream → Option (V × Stream)
  | 0, _ => none
  | fuel + 1, stream =>
    let first := lexScan F stream
    if first.1.isPunct 0x5D then some (B.array, first.2)
    else parseElements fuel B.array first.1 first.2

/-- The loop of `parse_array`: a value, and a comma or the closing bracket. -/
def parseElements : Nat → V → Token F → Stream → Option (V × Stream)
  | 0, _, _, _ => none
  -- `while(lex->token)`: at the end of the file the bracket is missing.
  | _, _, .eof, _ => none
  | fuel + 1, array, token, stream =>
    match parseValue fuel token stream with
    | none => none
    | some (elem, stream) =>
      let array := B.arrayAppend array elem
      let next := lexScan F stream
      if next.1.isPunct 0x2C then
        let first := lexScan F next.2
        parseElements fuel array first.1 first.2
      else if next.1.isPunct 0x5D then some (array, next.2)
      else none

/-- `parse_value`, for the token that has been read. A string with a NUL in it is
refused. -/
def parseValue : Nat → Token F → Stream → Option (V × Stream)
  | 0, _, _ => none
  | fuel + 1, token, stream =>
    match token with
    | .string value => if 0 ∈ value then none else some (B.string value, stream)
    | .integer value => some (B.integer value, stream)
    | .real value => some (B.real value, stream)
    | .true => some (B.jsonTrue, stream)
    | .false => some (B.jsonFalse, stream)
    | .null => some (B.jsonNull, stream)
    | .punct c =>
      if c = 0x7B then parseObject fuel stream
      else if c = 0x5B then parseArray fuel stream
      else none
    | .invalid => none
    | .eof => none

end

/-- `parse_json`: an array or an object, and nothing behind it. -/
def parseJson (fuel : Nat) (stream : Stream) : Option V :=
  let first := lexScan F stream
  if first.1.isPunct 0x5B || first.1.isPunct 0x7B then
    match parseValue B fuel first.1 first.2 with
    | none => none
    | some (result, stream) =>
      match (lexScan F stream).1 with
      | .eof => some result
      | _ => none
  else none

/-- As much fuel as can be needed. -/
def enough (stream : Stream) : Nat := 3 * stream.size + 3

/-- `json_loads`, without flags; `none` is NULL. The fuel is the most the text can
need. -/
def loads (text : Text) : Option V :=
  parseJson B (enough (Stream.init text)) (Stream.init text)

/-! ### Derivations -/

/-- What is parsed: a value, the rest of an object or the rest of an array, from a token on. -/
inductive Task (F : Floats) (V : Type)
  | value (token : Token F)
  | members (object : V) (token : Token F)
  | elements (array : V) (token : Token F)

/-- Runs of the parser, without fuel: a task that begins with a token and a stream ends
with a value and the rest of the stream. -/
inductive Parses : Task F V → Stream → V → Stream → Prop
  | string {value : Text} {s : Stream} (h : 0 ∉ value) :
      Parses (.value (.string value)) s (B.string value) s
  | integer {value : Int} {s : Stream} : Parses (.value (.integer value)) s (B.integer value) s
  | real {value : F.Double} {s : Stream} : Parses (.value (.real value)) s (B.real value) s
  | jsonTrue {s : Stream} : Parses (.value .true) s B.jsonTrue s
  | jsonFalse {s : Stream} : Parses (.value .false) s B.jsonFalse s
  | jsonNull {s : Stream} : Parses (.value .null) s B.jsonNull s
  | emptyObject {s : Stream} (hclose : (lexScan F s).1 = .punct 0x7D) :
      Parses (.value (.punct 0x7B)) s B.object (lexScan F s).2
  | object {s s' : Stream} {v : V} (hopen : (lexScan F s).1 ≠ .punct 0x7D)
      (hmembers : Parses (.members B.object (lexScan F s).1) (lexScan F s).2 v s') :
      Parses (.value (.punct 0x7B)) s v s'
  | emptyArray {s : Stream} (hclose : (lexScan F s).1 = .punct 0x5D) :
      Parses (.value (.punct 0x5B)) s B.array (lexScan F s).2
  | array {s s' : Stream} {v : V} (hopen : (lexScan F s).1 ≠ .punct 0x5D)
      (helements : Parses (.elements B.array (lexScan F s).1) (lexScan F s).2 v s') :
      Parses (.value (.punct 0x5B)) s v s'
  | lastMember {s s' : Stream} {object v : V} {key : Text} (hkey : 0 ∉ key)
      (hcolon : (lexScan F s).1 = .punct 0x3A)
      (hvalue : Parses (.value (lexScan F (lexScan F s).2).1) (lexScan F (lexScan F s).2).2 v s')
      (hclose : (lexScan F s').1 = .punct 0x7D) :
      Parses (.members object (.string key)) s (B.objectSet object key v) (lexScan F s').2
  | nextMember {s s' s'' : Stream} {object v w : V} {key : Text} (hkey : 0 ∉ key)
      (hcolon : (lexScan F s).1 = .punct 0x3A)
      (hvalue : Parses (.value (lexScan F (lexScan F s).2).1) (lexScan F (lexScan F s).2).2 v s')
      (hcomma : (lexScan F s').1 = .punct 0x2C)
      (hrest : Parses (.members (B.objectSet object key v) (lexScan F (lexScan F s').2).1)
        (lexScan F (lexScan F s').2).2 w s'') :
      Parses (.members object (.string key)) s w s''
  | lastElement {s s' : Stream} {array v : V} {token : Token F}
      (hvalue : Parses (.value token) s v s') (hclose : (lexScan F s').1 = .punct 0x5D) :
      Parses (.elements array token) s (B.arrayAppend array v) (lexScan F s').2
  | nextElement {s s' s'' : Stream} {array v w : V} {token : Token F}
      (hvalue : Parses (.value token) s v s') (hcomma : (lexScan F s').1 = .punct 0x2C)
      (hrest : Parses (.elements (B.arrayAppend array v) (lexScan F (lexScan F s').2).1)
        (lexScan F (lexScan F s').2).2 w s'') :
      Parses (.elements array token) s w s''

variable {B}

theorem isPunct_iff {token : Token F} {c : Byte} : token.isPunct c = true ↔ token = .punct c := by
  cases token <;> simp [Token.isPunct]

theorem size_lexScan_le (s : Stream) : (lexScan F s).2.size ≤ s.size := (size_lexScan F s).1

theorem size_lexScan_lt {s : Stream} {c : Byte} (h : (lexScan F s).1 = .punct c) :
    (lexScan F s).2.size < s.size := (size_lexScan F s).2 (by simp [h]) (by simp [h])

theorem Parses.size_le {task : Task F V} {s s' : Stream} {v : V} (h : Parses B task s v s') :
    s'.size ≤ s.size := by
  have hscan := size_lexScan_le (F := F)
  induction h with
  | emptyObject => exact hscan _
  | emptyArray => exact hscan _
  | object _ _ ih => exact ih.trans (hscan _)
  | array _ _ ih => exact ih.trans (hscan _)
  | lastMember _ _ _ _ ih =>
      exact (hscan _).trans (ih.trans ((hscan _).trans (hscan _)))
  | nextMember _ _ _ _ _ ih ihrest =>
      exact ihrest.trans (((hscan _).trans (hscan _)).trans
        (ih.trans ((hscan _).trans (hscan _))))
  | lastElement _ _ ih => exact (hscan _).trans ih
  | nextElement _ _ _ ih ihrest => exact ihrest.trans (((hscan _).trans (hscan _)).trans ih)
  | _ => exact Nat.le_refl _

variable (B) in
/-- The function that does a task. -/
def parse (fuel : Nat) : Task F V → Stream → Option (V × Stream)
  | .value token, s => parseValue B fuel token s
  | .members object token, s => parseMembers B fuel object token s
  | .elements array token, s => parseElements B fuel array token s

/-- The token a task starts with. A task that has a run starts with a real token. -/
def Task.token : Task F V → Token F
  | .value token => token
  | .members _ token => token
  | .elements _ token => token

theorem Parses.token_ne {task : Task F V} {s s' : Stream} {v : V} (h : Parses B task s v s') :
    task.token ≠ .eof ∧ task.token ≠ .invalid := by
  induction h with
  | lastElement _ _ ih => exact ih
  | nextElement _ _ _ ih _ => exact ih
  | _ => simp [Task.token]

/-- How much fuel a task can need. -/
def Task.fuel (s : Stream) : Task F V → Nat
  | .value _ => 3 * s.size + 3
  | _ => 3 * s.size + 4

/-- What has a derivation is parsed, with as much fuel as is needed. The induction is on
the derivation; every token read makes the stream shorter. -/
theorem Parses.parse_eq {task : Task F V} {s s' : Stream} {v : V} (h : Parses B task s v s')
    {fuel : Nat} (hfuel : task.fuel s ≤ fuel) : parse B fuel task s = some (v, s') := by
  induction h generalizing fuel with
  | emptyObject hclose =>
      simp only [Task.fuel] at hfuel
      obtain ⟨fuel, rfl⟩ := Nat.exists_eq_add_of_le' (show 2 ≤ fuel by omega)
      simp [parse, parseValue, parseObject, Token.isPunct, hclose]
  | emptyArray hclose =>
      simp only [Task.fuel] at hfuel
      obtain ⟨fuel, rfl⟩ := Nat.exists_eq_add_of_le' (show 2 ≤ fuel by omega)
      simp [parse, parseValue, parseArray, Token.isPunct, hclose]
  | object hopen hmembers ih =>
      simp only [Task.fuel] at hfuel ih
      obtain ⟨fuel, rfl⟩ := Nat.exists_eq_add_of_le' (show 2 ≤ fuel by omega)
      have hlt := (size_lexScan F _).2 hmembers.token_ne.1 hmembers.token_ne.2
      have hrest := @ih fuel (by omega)
      rw [parse] at hrest
      simp [parse, parseValue, parseObject, isPunct_iff, hopen, hrest]
  | array hopen helements ih =>
      simp only [Task.fuel] at hfuel ih
      obtain ⟨fuel, rfl⟩ := Nat.exists_eq_add_of_le' (show 2 ≤ fuel by omega)
      have hlt := (size_lexScan F _).2 helements.token_ne.1 helements.token_ne.2
      have hrest := @ih fuel (by omega)
      rw [parse] at hrest
      simp [parse, parseValue, parseArray, isPunct_iff, hopen, hrest]
  | lastMember hkey hcolon hvalue hclose ih =>
      simp only [Task.fuel] at hfuel ih
      obtain ⟨fuel, rfl⟩ := Nat.exists_eq_add_of_le' (show 1 ≤ fuel by omega)
      have hlt := size_lexScan_lt hcolon
      have hle := (size_lexScan_le (F := F) _).trans_lt hlt
      have hvalue := @ih fuel (by omega)
      rw [parse] at hvalue
      simp [parse, parseMembers, Token.isPunct, hkey, hcolon, hvalue, hclose]
  | nextMember hkey hcolon hvalue hcomma hrest ih ihrest =>
      simp only [Task.fuel] at hfuel ih ihrest
      obtain ⟨fuel, rfl⟩ := Nat.exists_eq_add_of_le' (show 1 ≤ fuel by omega)
      have hlt := size_lexScan_lt hcolon
      have hle := (size_lexScan_le (F := F) _).trans_lt hlt
      have hnext := (size_lexScan_le (F := F) _).trans_lt
        ((size_lexScan_lt hcomma).trans_le hvalue.size_le)
      have hvalue := @ih fuel (by omega)
      have hrest := @ihrest fuel (by omega)
      rw [parse] at hvalue
      rw [parse] at hrest
      simp [parse, parseMembers, Token.isPunct, hkey, hcolon, hvalue, hcomma, hrest]
  | lastElement hvalue hclose ih =>
      simp only [Task.fuel] at hfuel ih
      obtain ⟨fuel, rfl⟩ := Nat.exists_eq_add_of_le' (show 1 ≤ fuel by omega)
      have htoken := hvalue.token_ne.1
      have hvalue := @ih fuel (by omega)
      rw [parse] at hvalue
      show parseElements B (fuel + 1) _ _ _ = _
      rw [parseElements]
      · simp [Token.isPunct, hvalue, hclose]
      · exact htoken
  | nextElement hvalue hcomma hrest ih ihrest =>
      simp only [Task.fuel] at hfuel ih ihrest
      obtain ⟨fuel, rfl⟩ := Nat.exists_eq_add_of_le' (show 1 ≤ fuel by omega)
      have hnext := (size_lexScan_le (F := F) _).trans_lt
        ((size_lexScan_lt hcomma).trans_le hvalue.size_le)
      have htoken := hvalue.token_ne.1
      have hvalue := @ih fuel (by omega)
      have hrest := @ihrest fuel (by omega)
      rw [parse] at hvalue
      rw [parse] at hrest
      show parseElements B (fuel + 1) _ _ _ = _
      rw [parseElements]
      · simp [Token.isPunct, hvalue, hcomma, hrest]
      · exact htoken
  | _ =>
      simp only [Task.fuel] at hfuel
      obtain ⟨fuel, rfl⟩ := Nat.exists_eq_add_of_le' (show 1 ≤ fuel by omega)
      simp_all [parse, parseValue]

/-- What is parsed has a derivation. The induction is on the fuel, with the three kinds of
tasks together. -/
theorem parses_of_parse {fuel : Nat} {task : Task F V} {s s' : Stream} {v : V}
    (h : parse B fuel task s = some (v, s')) : Parses B task s v s' := by
  induction fuel using Nat.strong_induction_on generalizing task s v s' with
  | _ fuel ih =>
      have hvalue : ∀ {f : Nat} {token : Token F} {s : Stream} {v : V} {s' : Stream}, f < fuel →
          parseValue B f token s = some (v, s') → Parses B (.value token) s v s' :=
        fun hlt h => ih _ hlt h
      cases fuel with
      | zero => cases task <;> cases h
      | succ fuel =>
          cases task with
          | value token =>
              cases token with
              | string value =>
                  simp only [parse, parseValue] at h
                  split at h
                  · cases h
                  · cases h
                    exact .string ‹_›
              | punct c =>
                  simp only [parse, parseValue] at h
                  split at h
                  · rename_i hc
                    subst hc
                    cases fuel with
                    | zero => cases h
                    | succ fuel =>
                        simp only [parseObject] at h
                        split at h
                        · cases h
                          exact .emptyObject (isPunct_iff.mp ‹_›)
                        · exact .object (mt isPunct_iff.mpr ‹_›) (ih fuel (by omega) h)
                  · split at h
                    · rename_i hc
                      subst hc
                      cases fuel with
                      | zero => cases h
                      | succ fuel =>
                          simp only [parseArray] at h
                          split at h
                          · cases h
                            exact .emptyArray (isPunct_iff.mp ‹_›)
                          · exact .array (mt isPunct_iff.mpr ‹_›) (ih fuel (by omega) h)
                    · cases h
              | integer => cases h; exact .integer
              | real => cases h; exact .real
              | «true» => cases h; exact .jsonTrue
              | «false» => cases h; exact .jsonFalse
              | null => cases h; exact .jsonNull
              | invalid => cases h
              | eof => cases h
          | members object token =>
              cases token with
              | string key =>
                  simp only [parse, parseMembers] at h
                  split at h
                  · cases h
                  · split at h
                    · split at h
                      · cases h
                      · rename_i hkey hcolon _ value s1 hmember
                        have hcolon := isPunct_iff.mp hcolon
                        have hmember := hvalue (Nat.lt_succ_self fuel) hmember
                        split at h
                        · exact .nextMember hkey hcolon hmember (isPunct_iff.mp ‹_›)
                            (ih fuel (by omega) h)
                        · split at h
                          · cases h
                            exact .lastMember hkey hcolon hmember (isPunct_iff.mp ‹_›)
                          · cases h
                    · cases h
              | _ => cases h
          | elements array token =>
              have hne : token ≠ .eof := by
                intro heof
                subst heof
                cases h
              change parseElements B (fuel + 1) array token s = _ at h
              rw [parseElements] at h
              · split at h
                · cases h
                · rename_i elem s1 helement
                  have helement := hvalue (Nat.lt_succ_self fuel) helement
                  dsimp only at h
                  split at h
                  · exact .nextElement helement (isPunct_iff.mp ‹_›) (ih fuel (by omega) h)
                  · split at h
                    · cases h
                      exact .lastElement helement (isPunct_iff.mp ‹_›)
                    · cases h
              · exact hne

/-- More fuel than enough changes nothing: both sides have the same derivations. -/
theorem parse_fuel {task : Task F V} {s : Stream} {fuel : Nat} (h : task.fuel s ≤ fuel) :
    parse B fuel task s = parse B (task.fuel s) task s := by
  apply Option.ext
  intro result
  exact ⟨fun hparse => (parses_of_parse hparse).parse_eq (Nat.le_refl _),
    fun hparse => (parses_of_parse hparse).parse_eq h⟩

theorem loads_eq_some_iff {text : Text} {v : V} :
    loads B text = some v ↔ ∃ first s', lexScan F (Stream.init text) = first
      ∧ (first.1 = .punct 0x5B ∨ first.1 = .punct 0x7B) ∧ Parses B (.value first.1) first.2 v s'
      ∧ (lexScan F s').1 = .eof := by
  rw [loads, parseJson]
  have hfuel : (Task.value (lexScan F (Stream.init text)).1 : Task F V).fuel
      (lexScan F (Stream.init text)).2 ≤ enough (Stream.init text) := by
    have hle := size_lexScan_le (F := F) (Stream.init text)
    simp only [Task.fuel, enough]
    omega
  constructor
  · intro h
    split at h
    · split at h
      · cases h
      · rename_i hfirst _ result s' hparse
        split at h
        · cases h
          have hparse : parse B (enough (Stream.init text)) (.value _) _ = some (v, s') := hparse
          refine ⟨_, s', rfl, ?_, parses_of_parse hparse, ‹_›⟩
          simpa [isPunct_iff] using hfirst
        · cases h
    · cases h
  · intro h
    obtain ⟨first, s', rfl, hfirst, hparses, heof⟩ := h
    have hparse := hparses.parse_eq hfuel
    rw [parse] at hparse
    rw [if_pos (by simpa [isPunct_iff] using hfirst), hparse]
    dsimp only
    rw [heof]

end Parsing

/-! ### Two ways to build values -/

section Related

variable {F : Floats} {V W : Type}

/-- The constructors respect a relation between the values: each of them, called on
related values, makes related ones. -/
structure Builder.Related (B : Builder F V) (C : Builder F W) (R : V → W → Prop) : Prop where
  object : R B.object C.object
  objectSet {v v' : V} {w w' : W} (key : Text) (h : R v w) (hvalue : R v' w') :
    R (B.objectSet v key v') (C.objectSet w key w')
  array : R B.array C.array
  arrayAppend {v v' : V} {w w' : W} (h : R v w) (hvalue : R v' w') :
    R (B.arrayAppend v v') (C.arrayAppend w w')
  string (value : Text) : R (B.string value) (C.string value)
  integer (value : Int) : R (B.integer value) (C.integer value)
  real (value : F.Double) : R (B.real value) (C.real value)
  jsonTrue : R B.jsonTrue C.jsonTrue
  jsonFalse : R B.jsonFalse C.jsonFalse
  jsonNull : R B.jsonNull C.jsonNull

/-- The same task, on related values. -/
inductive Task.Related (R : V → W → Prop) : Task F V → Task F W → Prop
  | value (token : Token F) : Related R (.value token) (.value token)
  | members {v : V} {w : W} (h : R v w) (token : Token F) :
      Related R (.members v token) (.members w token)
  | elements {v : V} {w : W} (h : R v w) (token : Token F) :
      Related R (.elements v token) (.elements w token)

variable {B : Builder F V} {C : Builder F W} {R : V → W → Prop}

theorem Builder.Related.flip (h : B.Related C R) : C.Related B (Function.swap R) where
  object := h.object
  objectSet key hobject hvalue := h.objectSet key hobject hvalue
  array := h.array
  arrayAppend harray hvalue := h.arrayAppend harray hvalue
  string := h.string
  integer := h.integer
  real := h.real
  jsonTrue := h.jsonTrue
  jsonFalse := h.jsonFalse
  jsonNull := h.jsonNull

theorem Parses.related (hrel : B.Related C R) {task : Task F V} {s s' : Stream} {v : V}
    (h : Parses B task s v s') {task' : Task F W} (htask : Task.Related R task task') :
    ∃ w, Parses C task' s w s' ∧ R v w := by
  induction h generalizing task' with
  | string h => cases htask; exact ⟨_, .string h, hrel.string _⟩
  | integer => cases htask; exact ⟨_, .integer, hrel.integer _⟩
  | real => cases htask; exact ⟨_, .real, hrel.real _⟩
  | jsonTrue => cases htask; exact ⟨_, .jsonTrue, hrel.jsonTrue⟩
  | jsonFalse => cases htask; exact ⟨_, .jsonFalse, hrel.jsonFalse⟩
  | jsonNull => cases htask; exact ⟨_, .jsonNull, hrel.jsonNull⟩
  | emptyObject hclose => cases htask; exact ⟨_, .emptyObject hclose, hrel.object⟩
  | emptyArray hclose => cases htask; exact ⟨_, .emptyArray hclose, hrel.array⟩
  | object hopen _ ih =>
      cases htask
      obtain ⟨w, hmembers, hw⟩ := ih (.members hrel.object _)
      exact ⟨w, .object hopen hmembers, hw⟩
  | array hopen _ ih =>
      cases htask
      obtain ⟨w, helements, hw⟩ := ih (.elements hrel.array _)
      exact ⟨w, .array hopen helements, hw⟩
  | lastMember hkey hcolon _ hclose ih =>
      cases htask with
      | members hobject =>
          obtain ⟨w, hvalue, hw⟩ := ih (.value _)
          exact ⟨_, .lastMember hkey hcolon hvalue hclose, hrel.objectSet _ hobject hw⟩
  | nextMember hkey hcolon _ hcomma _ ih ihrest =>
      cases htask with
      | members hobject =>
          obtain ⟨w, hvalue, hw⟩ := ih (.value _)
          obtain ⟨w', hrest, hw'⟩ := ihrest (.members (hrel.objectSet _ hobject hw) _)
          exact ⟨w', .nextMember hkey hcolon hvalue hcomma hrest, hw'⟩
  | lastElement _ hclose ih =>
      cases htask with
      | elements harray =>
          obtain ⟨w, hvalue, hw⟩ := ih (.value _)
          exact ⟨_, .lastElement hvalue hclose, hrel.arrayAppend harray hw⟩
  | nextElement _ hcomma _ ih ihrest =>
      cases htask with
      | elements harray =>
          obtain ⟨w, hvalue, hw⟩ := ih (.value _)
          obtain ⟨w', hrest, hw'⟩ := ihrest (.elements (hrel.arrayAppend harray hw) _)
          exact ⟨w', .nextElement hvalue hcomma hrest, hw'⟩

/-- Related constructors make related values of the same texts, and both fail on the
same. -/
theorem loads_related (hrel : B.Related C R) (text : Text) :
    Option.Rel R (loads B text) (loads C text) := by
  cases hloads : loads B text with
  | some v =>
      obtain ⟨first, s', rfl, hfirst, hparses, heof⟩ := loads_eq_some_iff.mp hloads
      obtain ⟨w, hw, hrelated⟩ := hparses.related hrel (.value _)
      rw [loads_eq_some_iff.mpr ⟨_, s', rfl, hfirst, hw, heof⟩]
      exact .some hrelated
  | none =>
      cases hother : loads C text with
      | none => exact .none
      | some w =>
          obtain ⟨first, s', rfl, hfirst, hparses, heof⟩ := loads_eq_some_iff.mp hother
          obtain ⟨v, hv, -⟩ := hparses.related hrel.flip (.value _)
          rw [loads_eq_some_iff.mpr ⟨_, s', rfl, hfirst, hv, heof⟩] at hloads
          cases hloads

end Related

end LibJansson

end IoTRepublic
