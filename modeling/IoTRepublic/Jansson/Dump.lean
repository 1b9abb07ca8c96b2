import IoTRepublic.Jansson.Utf
import IoTRepublic.Jansson.StrConv

/-!
# IoTRepublic.Jansson.Dump

`jansson2.7/dump.c` with the flags of `ExportJsonContent`, that is `JSON_ENSURE_ASCII`,
`JSON_COMPACT` and `JSON_PRESERVE_ORDER`: no indentation, no escaped slashes, members
in the order of addition. Values are trees, so that no reference is circular.

The callback with which the source collects what it prints cannot fail here, and neither
can memory. Printing fails on a string that is no UTF-8, and on a real that does not fit
into the buffer for it. What becomes of a key is not looked at in the source: a key that
is no UTF-8 is printed up to where it fails, and printing goes on behind it.

The printer sees a value through `View`, as the source sees it through the accessors of
`value.c`. The same definition prints the library's values and the documents of the
specification, and `doDump_related` compares the two.
-/

namespace IoTRepublic

open Cpp

namespace LibJansson

/-! ### Strings -/

/-- A digit of `%X`, in upper case. -/
def hexDigit (digit : Nat) : Byte := if digit < 10 then (0x30 + digit).toUInt8
  else (0x41 + (digit - 10)).toUInt8

/-- `\u%04X`, for sixteen bits. -/
def unicodeEscape (value : Nat) : Text :=
  [0x5C, 0x75, hexDigit (value / 4096 % 16), hexDigit (value / 256 % 16),
    hexDigit (value / 16 % 16), hexDigit (value % 16)]

/-- Is the character escaped? The quote, the backslash, control characters, and, as the
output is to be ASCII, everything above it. -/
def mustEscape (codepoint : Nat) : Bool :=
  codepoint = 0x5C || codepoint = 0x22 || codepoint < 0x20 || 0x7F < codepoint

/-- The `switch` of `dump_string`: two characters where there is a short escape, else one
or two groups of four digits, a surrogate pair for what is above sixteen bits. -/
def escapeText (codepoint : Nat) : Text :=
  if codepoint = 0x5C then [0x5C, 0x5C]
  else if codepoint = 0x22 then [0x5C, 0x22]
  else if codepoint = 0x08 then [0x5C, 0x62]
  else if codepoint = 0x0C then [0x5C, 0x66]
  else if codepoint = 0x0A then [0x5C, 0x6E]
  else if codepoint = 0x0D then [0x5C, 0x72]
  else if codepoint = 0x09 then [0x5C, 0x74]
  else if codepoint < 0x10000 then unicodeEscape codepoint
  else
    -- A surrogate pair.
    let codepoint := codepoint - 0x10000
    unicodeEscape (0xD800 + codepoint / 1024) ++ unicodeEscape (0xDC00 + codepoint % 1024)

/-- The loops of `dump_string`: what is written, and whether all of it is. `plain` is what
has been passed and is written with the next escape or at the end. -/
def dumpRun : Nat → Text → Text → Text × Bool
  | _, plain, [] => (plain, true)
  | 0, _, _ => ([], false)
  | fuel + 1, plain, byte :: text =>
    match utf8Iterate byte text with
    | none => ([], false)
    | some (codepoint, rest) =>
      if mustEscape codepoint then
        let behind := dumpRun fuel [] rest
        (plain ++ escapeText codepoint ++ behind.1, behind.2)
      else dumpRun fuel (plain ++ (byte :: text).take (text.length + 1 - rest.length)) rest

/-- `dump_string`: what it writes, and whether it succeeds. Of a text that is no UTF-8
some may have been written by then, without the closing quote. -/
def dumpString (str : Text) : Text × Bool :=
  let body := dumpRun str.length [] str
  if body.2 then (0x22 :: body.1 ++ [0x22], true) else (0x22 :: body.1, false)

/-! ### Values -/

/-- What the accessors of `value.c` tell about a value. Printing asks for nothing else, so
two kinds of values that look alike are printed alike. -/
inductive View (F : Floats) (V : Type)
  /-- The serials and the keys as `json_object_iter` visits them, and `json_object_get`. -/
  | object (keys : List (Nat × Text)) (get : Text → Option V)
  | array (elements : List V)
  | string (value : Text)
  | integer (value : Int)
  | real (value : F.Double)
  | true
  | false
  | null

section Dumping

variable {F : Floats} {V : Type} (view : V → View F V)

/-- The elements of an array, with commas between them. -/
def dumpElements (dump : V → Option Text) : List V → Option Text
  | [] => some []
  | [elem] => dump elem
  | elem :: elems => do
    let first ← dump elem
    let behind ← dumpElements dump elems
    return first ++ 0x2C :: behind

/-- A member: the key, a colon and the value. What becomes of the key is not looked at. -/
def dumpMember (dump : V → Option Text) (get : Text → Option V) (key : Text) : Option Text := do
  let value ← get key
  let text ← dump value
  return (dumpString key).1 ++ 0x3A :: text

/-- `do_dump`. The members of an object are sorted by their serials first. -/
def doDump : Nat → V → Option Text
  | 0, _ => none
  | fuel + 1, json =>
    match view json with
    | .null => some (lit "null")
    | .true => some (lit "true")
    | .false => some (lit "false")
    | .integer value => some (showInt value)
    | .real value => dtostr F value
    | .string value => if (dumpString value).2 then some (dumpString value).1 else none
    | .array elements => do
      let text ← dumpElements (doDump fuel) elements
      return 0x5B :: text ++ [0x5D]
    | .object keys get => do
      let keys := keys.mergeSort fun a b => a.1 ≤ b.1
      let text ← dumpElements (dumpMember (doDump fuel) get) (keys.map (·.2))
      return 0x7B :: text ++ [0x7D]

/-- `json_dumps`: only arrays and objects are printed; `none` is NULL. -/
def dumps (fuel : Nat) (json : V) : Option Text :=
  match view json with
  | .array _ => doDump view fuel json
  | .object _ _ => doDump view fuel json
  | _ => none

end Dumping

/-! ### Two ways to see values -/

section Related

variable {F : Floats} {V W : Type}

/-- The same is seen, up to a relation between the values. Of an object it is the sorted
members that must agree, not the order of iteration. -/
inductive View.Related (R : V → W → Prop) : View F V → View F W → Prop
  | object {keys keys' : List (Nat × Text)} {get : Text → Option V} {get' : Text → Option W}
      (hkeys : (keys.mergeSort fun a b => a.1 ≤ b.1).map (·.2)
        = (keys'.mergeSort fun a b => a.1 ≤ b.1).map (·.2))
      (hget : ∀ key, Option.Rel R (get key) (get' key)) :
      Related R (.object keys get) (.object keys' get')
  | array {elements : List V} {elements' : List W} (h : List.Forall₂ R elements elements') :
      Related R (.array elements) (.array elements')
  | string (value : Text) : Related R (.string value) (.string value)
  | integer (value : Int) : Related R (.integer value) (.integer value)
  | real (value : F.Double) : Related R (.real value) (.real value)
  | true : Related R .true .true
  | false : Related R .false .false
  | null : Related R .null .null

variable {view : V → View F V} {view' : W → View F W} {R : V → W → Prop}

theorem dumpElements_cons {α : Type} (dump : α → Option Text) (elem : α) {elems : List α}
    (h : elems ≠ []) :
    dumpElements dump (elem :: elems)
      = (dump elem).bind fun first =>
          (dumpElements dump elems).map fun behind => first ++ 0x2C :: behind := by
  cases elems with
  | nil => exact absurd rfl h
  | cons next elems =>
      rw [dumpElements]
      · cases dump elem with
        | none => rfl
        | some first => cases dumpElements dump (next :: elems) <;> rfl
      · simp

theorem dumpElements_congr {α β : Type} {dump : α → Option Text} {dump' : β → Option Text}
    {elems : List α} {elems' : List β}
    (h : List.Forall₂ (fun a b => dump a = dump' b) elems elems') :
    dumpElements dump elems = dumpElements dump' elems' := by
  induction h with
  | nil => rfl
  | cons hfirst hrest ih =>
      cases hrest with
      | nil => exact hfirst
      | cons =>
          rw [dumpElements_cons _ _ (List.cons_ne_nil _ _),
            dumpElements_cons _ _ (List.cons_ne_nil _ _), hfirst, ih]

/-- What is seen alike is printed alike, by induction on the fuel. -/
theorem doDump_related (hview : ∀ v w, R v w → View.Related R (view v) (view' w)) (fuel : Nat)
    {v : V} {w : W} (h : R v w) : doDump view fuel v = doDump view' fuel w := by
  induction fuel generalizing v w with
  | zero => rfl
  | succ fuel ih =>
      have hrelated := hview v w h
      rw [doDump, doDump]
      cases hv : view v with
      | object keys get =>
          rw [hv] at hrelated
          cases hw : view' w with
          | object keys' get' =>
              rw [hw] at hrelated
              cases hrelated with
              | object hkeys hget =>
                  have hmember : ∀ key, dumpMember (doDump view fuel) get key
                      = dumpMember (doDump view' fuel) get' key := by
                    intro key
                    have hvalue := hget key
                    rw [dumpMember, dumpMember]
                    generalize get key = value at hvalue
                    generalize get' key = value' at hvalue
                    cases hvalue with
                    | none => rfl
                    | some hvalue => rw [Option.bind_eq_bind, Option.bind_some, ih hvalue]; rfl
                  dsimp only
                  rw [hkeys, funext hmember]
          | _ => rw [hw] at hrelated; cases hrelated
      | array elements =>
          rw [hv] at hrelated
          cases hw : view' w with
          | array elements' =>
              rw [hw] at hrelated
              cases hrelated with
              | array helements =>
                  dsimp only
                  rw [dumpElements_congr (helements.imp fun _ _ => ih)]
          | _ => rw [hw] at hrelated; cases hrelated
      | _ =>
          rw [hv] at hrelated
          generalize view' w = seen at hrelated
          cases hrelated
          rfl

theorem dumps_related (hview : ∀ v w, R v w → View.Related R (view v) (view' w)) (fuel : Nat)
    {v : V} {w : W} (h : R v w) : dumps view fuel v = dumps view' fuel w := by
  have hrelated := hview v w h
  rw [dumps, dumps]
  cases hv : view v with
  | object =>
      rw [hv] at hrelated
      generalize hw : view' w = seen at hrelated
      cases hrelated
      exact doDump_related hview fuel h
  | array =>
      rw [hv] at hrelated
      generalize hw : view' w = seen at hrelated
      cases hrelated
      exact doDump_related hview fuel h
  | _ =>
      rw [hv] at hrelated
      generalize view' w = seen at hrelated
      cases hrelated
      rfl

end Related

end LibJansson

end IoTRepublic
