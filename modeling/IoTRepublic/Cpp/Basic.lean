import Mathlib.Tactic

/-!
# IoTRepublic.Cpp.Basic

The part of C++ the translated functions rest on: bytes, `std::string` and
`std::vector<char>` as byte lists, 32-bit `int`, and the exceptions the standard
library raises.

A function of the source that may throw returns `Except Fault`. Signed overflow
is undefined in C++ and is reported as a fault too, so a theorem that a call
returns `.ok` also says that none of its `int` sums overflows. Conversions from
`size_t` to `int` do not fault: they wrap (`toInt`), as they do on the compilers
the program is built with.

Loops over a vector use an `int` index nearly everywhere in the source, and compare it
with the size converted to `int`. Such a loop sees the whole of a vector below 2^31
elements and nothing of one between 2^31 and 2^32. The definitions `visible` and `toInt`
keep that difference, which several statements about the program depend on.
-/

namespace Cpp

/-- A `char`: eight bits, whose value is signed (`signedChar`) on the platforms the
program is built for. -/
abbrev Byte := UInt8

/-- The contents of a `std::string` or of a `std::vector<char>`. NULs inside are allowed;
where one ends the text, `cStr` says so. -/
abbrev Text := List Byte

/-- The bytes of an ASCII string literal. -/
def lit (s : String) : Text := s.toList.map Char.toUInt8

/-- A property of the bytes of a literal, checked one by one. -/
theorem forall_mem_of_all {p : Byte → Prop} [DecidablePred p] {text : Text}
    (h : text.all (fun b => decide (p b)) = true) : ∀ b ∈ text, p b := by
  simpa using h

/-- Why a call does not return: an exception of the standard library, or behaviour the C++
standard leaves undefined. No caller in the source catches any of them. -/
inductive Fault
  /-- `std::invalid_argument`, raised by `std::stoi`. -/
  | invalidArgument
  /-- `std::out_of_range`, raised by `vector::at` and `std::stoi`. -/
  | outOfRange
  /-- `std::length_error`, raised by `vector::reserve`. -/
  | lengthError
  /-- `std::logic_error`, raised by `std::string(NULL)`. -/
  | logicError
  /-- Overflow of a signed `int`. -/
  | signedOverflow
  /-- An iterator outside its container, or a value no constructor ever set. -/
  | undefinedBehaviour
  deriving DecidableEq, Repr

section Returns

universe u

variable {α β : Type u}

/-- A sequence of calls returns when each of them does. -/
theorem bind_ok_iff {x : Except Fault α} {f : α → Except Fault β} {b : β} :
    x >>= f = .ok b ↔ ∃ a, x = .ok a ∧ f a = .ok b := by
  cases x with
  | error e => simp [bind, Except.bind]
  | ok a => simp [bind, Except.bind]

theorem bind_error_iff {x : Except Fault α} {f : α → Except Fault β} {fault : Fault} :
    (x >>= f) = .error fault ↔ x = .error fault ∨ ∃ a, x = .ok a ∧ f a = .error fault := by
  cases x with
  | error e => simp [bind, Except.bind]
  | ok a => simp [bind, Except.bind]

/-- The call returns, with whatever result: no exception, and nothing undefined on the
way. -/
def Returns (x : Except Fault α) : Prop := ∃ a, x = .ok a

theorem returns_bind_iff {x : Except Fault α} {f : α → Except Fault β} :
    Returns (x >>= f) ↔ ∃ a, x = .ok a ∧ Returns (f a) := by
  constructor
  · rintro ⟨b, h⟩
    obtain ⟨a, ha, hb⟩ := bind_ok_iff.mp h
    exact ⟨a, ha, b, hb⟩
  · rintro ⟨a, ha, b, hb⟩
    exact ⟨b, bind_ok_iff.mpr ⟨a, ha, hb⟩⟩

/-- What follows the first call does not matter where it always returns. -/
theorem returns_bind_iff_left {x : Except Fault α} {f : α → Except Fault β}
    (h : ∀ a, x = .ok a → Returns (f a)) : Returns (x >>= f) ↔ Returns x := by
  rw [returns_bind_iff]
  constructor
  · rintro ⟨a, ha, -⟩
    exact ⟨a, ha⟩
  · intro hx
    obtain ⟨a, ha⟩ := hx
    exact ⟨a, ha, h a ha⟩

@[simp] theorem returns_ok (a : α) : Returns (.ok a : Except Fault α) := ⟨a, rfl⟩

@[simp] theorem not_returns_error (fault : Fault) : ¬ Returns (.error fault : Except Fault α) := by
  rintro ⟨a, h⟩
  cases h

theorem not_returns_of_eq {x : Except Fault α} {fault : Fault} (h : x = .error fault) :
    ¬ Returns x := by
  rw [h]
  exact not_returns_error fault

instance : (x : Except Fault α) → Decidable (Returns x)
  | .ok a => .isTrue (returns_ok a)
  | .error fault => .isFalse (not_returns_error fault)

@[simp] theorem ok_bind (a : α) (f : α → Except Fault β) :
    ((.ok a : Except Fault α) >>= f) = f a := rfl

@[simp] theorem error_bind (e : Fault) (f : α → Except Fault β) :
    ((.error e : Except Fault α) >>= f) = .error e := rfl

@[simp] theorem pure_eq_ok (a : α) : (pure a : Except Fault α) = .ok a := rfl

end Returns

/-! ### `int` -/

/-- The values an `int` can hold: 32 bits, in two's complement. -/
def InInt (n : Int) : Prop := -2 ^ 31 ≤ n ∧ n < 2 ^ 31

/-- Decided on naturals: the kernel compares those in one step, while an `Int`
comparison against `2 ^ 31` makes it count down from it. -/
instance (n : Int) : Decidable (InInt n) :=
  decidable_of_iff (0 ≤ n + 2 ^ 31 ∧ (n + 2 ^ 31).toNat < 2 ^ 32) (by
    simp only [InInt]
    omega)

/-- Reduction to 32 bits, the result read as a signed number. -/
def wrapInt (x : Int) : Int :=
  if (x % 2 ^ 32).toNat < 2 ^ 31 then x % 2 ^ 32 else x % 2 ^ 32 - 2 ^ 32

/-- The conversion of a `size_t` to `int`, which keeps the lower 32 bits. -/
def toInt (n : Nat) : Int := wrapInt n

/-- `a += n` for an `int` `a` and a `size_t` `n`: the sum is taken in `size_t`
and converted back. -/
def addSize (a : Int) (n : Nat) : Int := wrapInt (a + n)

/-- The sum of two `int`s. Overflow is undefined, and reported as a fault. -/
def addInt (a b : Int) : Except Fault Int :=
  if InInt (a + b) then .ok (a + b) else .error .signedOverflow

/-- What comes of a sum of two `int`s that overflows. -/
inductive Overflow
  /-- Undefined behaviour, reported as a fault. -/
  | undefined
  /-- The sum is reduced to 32 bits. -/
  | wraps
  deriving DecidableEq, Repr

/-- The sum of two `int`s, for either. -/
def Overflow.add : Overflow → Int → Int → Except Fault Int
  | undefined, a, b => addInt a b
  | wraps, a, b => .ok (wrapInt (a + b))

theorem inInt_toInt (n : Nat) : InInt (toInt n) := by
  simp only [InInt, toInt, wrapInt]
  split <;> omega

theorem toInt_of_lt {n : Nat} (h : n < 2 ^ 31) : toInt n = n := by
  simp only [toInt, wrapInt]
  split <;> omega

theorem toInt_le (n : Nat) : toInt n ≤ n := by
  simp only [toInt, wrapInt]
  split <;> omega

theorem addSize_zero (n : Nat) : addSize 0 n = toInt n := by
  rw [addSize, toInt, Int.zero_add]

theorem addSize_addSize (a : Int) (m n : Nat) :
    addSize (addSize a m) n = addSize a (m + n) := by
  simp only [addSize, wrapInt]
  split <;> split <;> split <;> omega

theorem addInt_ok_iff {a b c : Int} : addInt a b = .ok c ↔ InInt (a + b) ∧ c = a + b := by
  unfold addInt
  split
  · rename_i h
    simp [h, eq_comm]
  · rename_i h
    simp [h]

theorem addInt_of_inInt {a b : Int} (h : InInt (a + b)) : addInt a b = .ok (a + b) :=
  if_pos h

theorem InInt.add_one {n : Int} (h : InInt n) (h₂ : InInt (n + 2)) : InInt (n + 1) := by
  simp only [InInt] at h h₂ ⊢
  omega

theorem wrapInt_of_inInt {n : Int} (h : InInt n) : wrapInt n = n := by
  obtain ⟨hlow, hhigh⟩ := h
  simp only [wrapInt]
  split <;> omega

/-- Where a sum has a value at all, it is the sum reduced to 32 bits. -/
theorem Overflow.add_ok {o : Overflow} {a b c : Int} (h : o.add a b = .ok c) :
    c = wrapInt (a + b) := by
  cases o with
  | undefined =>
      obtain ⟨hin, rfl⟩ := addInt_ok_iff.mp h
      exact (wrapInt_of_inInt hin).symm
  | wraps => exact (Except.ok.inj h).symm

/-- A sum that fits is exact, for either outcome of one that does not. -/
theorem Overflow.add_of_inInt {o : Overflow} {a b : Int} (h : InInt (a + b)) :
    o.add a b = .ok (a + b) := by
  cases o with
  | undefined => exact addInt_of_inInt h
  | wraps => rw [Overflow.add, wrapInt_of_inInt h]

/-! ### `char` -/

/-- The value of a `char` promoted to `int`: `char` is signed. -/
def signedChar (b : Byte) : Int := b.toInt8.toInt

theorem signedChar_eq (b : Byte) :
    signedChar b = if b.toNat < 0x80 then (b.toNat : Int) else b.toNat - 256 := by
  have h := b.toNat_lt
  rw [signedChar, Int8.toInt, UInt8.toBitVec_toInt8, BitVec.toInt_eq_toNat_cond]
  simp only [UInt8.toNat_toBitVec]
  split <;> split <;> omega

/-- The characters of a C string, up to its terminator. -/
def cStr (s : Text) : Text := s.takeWhile (· ≠ 0)

/-! ### `std::vector` -/

section Vector

variable {α : Type*}

/-- The elements a loop `for (int i = 0; i < (int)v.size(); i++)` visits. -/
def visible (v : List α) : List α := v.take (toInt v.length).toNat

/-- `v.at(i)` for an `int` index: a negative one becomes a `size_t` past every end, so it
throws as well. -/
def vectorAt (v : List α) (i : Int) : Except Fault α :=
  if i < 0 then .error .outOfRange
  else match v[i.toNat]? with
    | some a => .ok a
    | none => .error .outOfRange

/-- The elements read by `for (int i = start; i < stop; i++) … v.at(i) …`. -/
def atRange (v : List α) (start stop : Int) : Except Fault (List α) :=
  if stop ≤ start then .ok []
  else if start < 0 ∨ (v.length : Int) < stop then .error .outOfRange
  else .ok ((v.drop start.toNat).take (stop - start).toNat)

/-- `v.reserve(n)` for an `int` `n`: a negative `n` becomes a `size_t` above
`max_size()`. -/
def reserve (n : Int) : Except Fault Unit :=
  if n < 0 then .error .lengthError else .ok ()

/-- The two halves of `v` at the iterator `v.begin() + n`. -/
def splitAtIter (v : List α) (n : Int) : Except Fault (List α × List α) :=
  if 0 ≤ n ∧ n ≤ v.length then .ok (v.take n.toNat, v.drop n.toNat)
  else .error .undefinedBehaviour

/-- Erasing the first element with a key erases every element with it, when keys
are distinct. -/
theorem eraseP_eq_filter {κ : Type*} [DecidableEq κ] {key : α → κ} {k : κ} :
    ∀ {v : List α}, (v.map key).Nodup → v.eraseP (key · = k) = v.filter (key · ≠ k)
  | [], _ => rfl
  | a :: v, h => by
    obtain ⟨ha, hv⟩ := List.nodup_cons.mp h
    by_cases hk : key a = k
    · rw [List.eraseP_cons_of_pos (by simpa using hk), List.filter_cons_of_neg (by simpa using hk)]
      refine (List.filter_eq_self.mpr fun b hb => ?_).symm
      rw [decide_eq_true_eq]
      rintro rfl
      exact ha (hk ▸ List.mem_map_of_mem hb)
    · rw [List.eraseP_cons_of_neg (by simpa using hk), List.filter_cons_of_pos (by simpa using hk),
        eraseP_eq_filter hv]

theorem nodup_map_concat_iff {κ : Type*} {key : α → κ} {v : List α} {a : α} :
    ((v ++ [a]).map key).Nodup ↔ (v.map key).Nodup ∧ ∀ b ∈ v, key b ≠ key a := by
  rw [List.map_append, List.nodup_append, List.map_singleton]
  simp

/-- Replacing what has the key of `a` by `a` keeps keys distinct. -/
theorem nodup_map_replace {κ : Type*} [DecidableEq κ] {key : α → κ} {v : List α}
    (h : (v.map key).Nodup) (a : α) : ((v.eraseP (key · = key a) ++ [a]).map key).Nodup := by
  rw [eraseP_eq_filter h, nodup_map_concat_iff]
  refine ⟨(List.filter_sublist.map _).nodup h, fun b hb => ?_⟩
  exact of_decide_eq_true (List.mem_filter.mp hb).2

theorem visible_isPrefix (v : List α) : visible v <+: v := List.take_prefix _ _

theorem visible_length (v : List α) : (visible v).length = (toInt v.length).toNat := by
  have h := toInt_le v.length
  simp only [visible, List.length_take]
  omega

theorem visible_of_lt {v : List α} (h : v.length < 2 ^ 31) : visible v = v := by
  rw [visible, toInt_of_lt h, Int.toNat_natCast, List.take_length]

/-- From `2 ^ 31` elements on the bound of the loop is negative. -/
theorem visible_eq_nil {v : List α} (hlow : 2 ^ 31 ≤ v.length) (hhigh : v.length < 2 ^ 32) :
    visible v = [] := by
  have hneg : toInt v.length ≤ 0 := by
    simp only [toInt, wrapInt]
    split <;> omega
  rw [visible, Int.toNat_of_nonpos hneg, List.take_zero]

theorem visible_length_lt (v : List α) : (visible v).length < 2 ^ 31 := by
  have h := (inInt_toInt v.length).2
  rw [visible_length]
  omega

theorem vectorAt_ok_iff {v : List α} {i : Int} {a : α} :
    vectorAt v i = .ok a ↔ 0 ≤ i ∧ v[i.toNat]? = some a := by
  unfold vectorAt
  split
  · simp; omega
  · rename_i h
    split
    · rename_i b hb
      simp [hb]; omega
    · rename_i hb
      simp [hb]

theorem returns_vectorAt_iff {v : List α} {i : Nat} : Returns (vectorAt v i) ↔ i < v.length := by
  constructor
  · rintro ⟨a, h⟩
    obtain ⟨-, ha⟩ := vectorAt_ok_iff.mp h
    simpa using (List.getElem?_eq_some_iff.mp ha).1
  · intro h
    exact ⟨v[i], vectorAt_ok_iff.mpr ⟨by simp, by simp⟩⟩

theorem vectorAt_nat_ok_iff {v : List α} {i : Nat} {a : α} :
    vectorAt v i = .ok a ↔ v[i]? = some a := by
  rw [vectorAt_ok_iff]
  simp

theorem vectorAt_of_lt {v : List α} {i : Nat} (h : i < v.length) : vectorAt v i = .ok v[i] :=
  vectorAt_nat_ok_iff.mpr (List.getElem?_eq_getElem h)

theorem vectorAt_of_le {v : List α} {i : Nat} (h : v.length ≤ i) :
    vectorAt v i = .error .outOfRange := by
  rw [vectorAt, if_neg (by omega), Int.toNat_natCast, List.getElem?_eq_none h]

theorem atRange_zero {v : List α} {n : Int} (h0 : 0 ≤ n) (hn : n ≤ v.length) :
    atRange v 0 n = .ok (v.take n.toNat) := by
  unfold atRange
  split
  · obtain rfl : n = 0 := by omega
    simp
  · rw [if_neg (by omega)]
    simp

theorem atRange_toInt (v : List α) :
    atRange v 0 (toInt v.length) = .ok (v.take (toInt v.length).toNat) := by
  have hle := toInt_le v.length
  unfold atRange
  split
  · rw [Int.toNat_of_nonpos ‹_›, List.take_zero]
  · rw [if_neg (by omega)]
    simp

@[simp] theorem reserve_ok_iff {n : Int} {u : Unit} : reserve n = .ok u ↔ 0 ≤ n := by
  unfold reserve
  split <;> simp <;> omega

theorem splitAtIter_of_le {v : List α} {n : Int} (h0 : 0 ≤ n) (hn : n ≤ v.length) :
    splitAtIter v n = .ok (v.take n.toNat, v.drop n.toNat) :=
  if_pos ⟨h0, hn⟩

end Vector

end Cpp
