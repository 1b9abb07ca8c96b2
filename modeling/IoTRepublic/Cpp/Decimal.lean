import IoTRepublic.Cpp.Basic
import Mathlib.Data.List.TakeWhile

/-!
# IoTRepublic.Cpp.Decimal

Decimal numerals: what `operator<<(int)` and `std::to_string` write, and what
`std::stoi` and `std::atoi` read. Reading is lenient (leading white space, a
sign, trailing characters), writing is canonical, and reading undoes writing
(`stoi_showInt`).

The header of a package, the addresses handed out and the numbers in JSON texts are all
decimal numerals, and the lengths in a header come back from the other side as whatever
that wrote. So both directions are needed: that our own numerals are read back, and that
what is read of others is known up to the numeral's spelling.
-/

namespace Cpp

/-! ### Writing -/

/-- The decimal digits of a natural number, without zeros in front; zero is a single
digit. -/
def showNat (n : Nat) : Text := (Nat.toDigits 10 n).map Char.toUInt8

/-- The decimal numeral of an `int`. -/
def showInt : Int → Text
  | .ofNat n => showNat n
  | .negSucc n => '-'.toUInt8 :: showNat (n + 1)

/-- Is `b` an ASCII digit? -/
def isDigit (b : Byte) : Bool := 48 ≤ b.toNat && b.toNat ≤ 57

theorem toNat_toUInt8_of_isDigit {c : Char} (h : c.isDigit) : c.toUInt8.toNat = c.toNat := by
  have hc : c.toNat ≤ 57 := by
    have := (Char.isDigit_iff_toNat.mp h).2
    simpa using this
  simp only [Char.toUInt8, UInt32.toNat_toUInt8]
  exact Nat.mod_eq_of_lt (by simpa using (show c.toNat < 256 by omega))

theorem isDigit_toUInt8 {c : Char} (h : c.isDigit) : isDigit c.toUInt8 = true := by
  have hc := Char.isDigit_iff_toNat.mp h
  simp only [isDigit, toNat_toUInt8_of_isDigit h, Bool.and_eq_true, decide_eq_true_eq]
  simpa using hc

theorem showInt_of_nonneg {n : Int} (h : 0 ≤ n) : showInt n = showNat n.toNat := by
  obtain ⟨m, rfl⟩ := Int.eq_ofNat_of_zero_le h
  rfl

theorem showNat_ne_nil (n : Nat) : showNat n ≠ [] := by
  simp [showNat, Nat.toDigits_ne_nil]

theorem isDigit_of_mem_showNat {n : Nat} {b : Byte} (h : b ∈ showNat n) : isDigit b = true := by
  obtain ⟨c, hc, rfl⟩ := List.mem_map.mp h
  exact isDigit_toUInt8 (Nat.isDigit_of_mem_toDigits (by norm_num) (by norm_num) hc)

theorem showNat_length_le_iff {n k : Nat} (hk : 0 < k) :
    (showNat n).length ≤ k ↔ n < 10 ^ k := by
  rw [showNat, List.length_map]
  exact Nat.length_toDigits_le_iff (by norm_num) hk

theorem showInt_ne_nil (n : Int) : showInt n ≠ [] := by
  cases n <;> simp [showInt, showNat_ne_nil]

theorem showInt_length_pos (n : Int) : 0 < (showInt n).length :=
  List.length_pos_of_ne_nil (showInt_ne_nil n)

/-- A numeral of an `int` has at most eleven characters. -/
theorem showInt_length_le {n : Int} (h : InInt n) : (showInt n).length ≤ 11 := by
  obtain ⟨h1, h2⟩ := h
  cases n with
  | ofNat n =>
      refine (showNat_length_le_iff (by norm_num)).mpr ?_
      simp only [Int.ofNat_eq_natCast] at h2
      omega
  | negSucc n =>
      have : (showNat (n + 1)).length ≤ 10 := (showNat_length_le_iff (by norm_num)).mpr (by omega)
      simp only [showInt, List.length_cons]
      omega

theorem ne_zero_of_isDigit {b : Byte} (h : isDigit b = true) : b ≠ 0 := by
  rintro rfl
  simp [isDigit] at h

theorem ne_zero_of_mem_showInt {n : Int} {b : Byte} (h : b ∈ showInt n) : b ≠ 0 := by
  cases n with
  | ofNat n => exact ne_zero_of_isDigit (isDigit_of_mem_showNat h)
  | negSucc n =>
      rcases List.mem_cons.mp h with rfl | h
      · decide
      · exact ne_zero_of_isDigit (isDigit_of_mem_showNat h)

theorem ascii_of_isDigit {b : Byte} (h : isDigit b = true) : b.toNat < 0x80 := by
  simp only [isDigit, Bool.and_eq_true, decide_eq_true_eq] at h
  omega

theorem ascii_of_mem_showInt {n : Int} {b : Byte} (h : b ∈ showInt n) : b.toNat < 0x80 := by
  cases n with
  | ofNat n => exact ascii_of_isDigit (isDigit_of_mem_showNat h)
  | negSucc n =>
      rcases List.mem_cons.mp h with rfl | h
      · decide
      · exact ascii_of_isDigit (isDigit_of_mem_showNat h)

/-! ### Reading -/

/-- `isspace` in the C locale. -/
def isSpace (b : Byte) : Bool := b = 32 || (9 ≤ b.toNat && b.toNat ≤ 13)

/-- The value of a string of digits. -/
def digitsValue (ds : Text) : Nat := ds.foldl (fun acc b => 10 * acc + (b.toNat - 48)) 0

/-- The number `strtol` reads after the sign, `none` when no digit follows. What stands
behind the digits is ignored. -/
def readDigits (s : Text) : Option Nat :=
  match s.takeWhile isDigit with
  | [] => none
  | ds => some (digitsValue ds)

/-- The number `strtol` reads in base ten, before any range check. -/
def strtol (s : Text) : Option Int :=
  match s.dropWhile isSpace with
  | 43 :: r => (readDigits r).map Int.ofNat
  | 45 :: r => (readDigits r).map (fun n => -(n : Int))
  | r => (readDigits r).map Int.ofNat

/-- `std::stoi(s)`: no digits raise `invalid_argument`, a value no `int` holds
`out_of_range`. -/
def stoi (s : Text) : Except Fault Int :=
  match strtol s with
  | none => .error .invalidArgument
  | some n => if InInt n then .ok n else .error .outOfRange

/-- `std::atoi(s)`: no digits read as zero, and a value no `int` holds is
undefined. -/
def atoi (s : Text) : Except Fault Int :=
  match strtol s with
  | none => .ok 0
  | some n => if InInt n then .ok n else .error .undefinedBehaviour

theorem returns_atoi_iff {s : Text} : Returns (atoi s) ↔ ∀ n, strtol s = some n → InInt n := by
  unfold atoi
  cases strtol s with
  | none => simp
  | some n => by_cases h : InInt n <;> simp [h]

theorem stoi_ok_iff {s : Text} {n : Int} : stoi s = .ok n ↔ strtol s = some n ∧ InInt n := by
  unfold stoi
  split
  · rename_i h
    simp [h]
  · rename_i m h
    by_cases hm : InInt m
    · simp only [hm, if_true, Except.ok.injEq, h, Option.some.injEq]
      constructor
      · rintro rfl
        exact ⟨rfl, hm⟩
      · exact fun h => h.1
    · simp only [hm, if_false, h, Option.some.injEq, reduceCtorEq, false_iff, not_and]
      rintro rfl
      exact hm

theorem digitsValue_showNat (n : Nat) : digitsValue (showNat n) = n := by
  have key : ∀ (cs : List Char) (acc : Nat), (∀ c ∈ cs, c.isDigit = true) →
      (cs.map Char.toUInt8).foldl (fun acc b => 10 * acc + (b.toNat - 48)) acc
        = Nat.ofDigitChars 10 cs acc := by
    intro cs
    induction cs with
    | nil => intro acc _; simp
    | cons c cs ih =>
        intro acc hd
        rw [List.map_cons, List.foldl_cons, Nat.ofDigitChars_cons,
          ih _ (fun x hx => hd x (List.mem_cons_of_mem _ hx)),
          toNat_toUInt8_of_isDigit (hd c List.mem_cons_self)]
        rfl
  rw [digitsValue, showNat,
    key _ 0 (fun c hc => Nat.isDigit_of_mem_toDigits (by norm_num) (by norm_num) hc)]
  exact Nat.ofDigitChars_ten_toDigits

theorem showInt_natCast_injective : Function.Injective fun n : Nat => showInt n :=
  Function.LeftInverse.injective digitsValue_showNat

theorem readDigits_showNat (n : Nat) : readDigits (showNat n) = some n := by
  have htw : (showNat n).takeWhile isDigit = showNat n := by
    exact List.takeWhile_eq_self_iff.mpr fun _ hb => isDigit_of_mem_showNat hb
  unfold readDigits
  rw [htw]
  split
  · rename_i h
    exact absurd h (showNat_ne_nil n)
  · rw [digitsValue_showNat]

/-- A numeral starts with a digit, so no white space or sign is skipped. -/
theorem strtol_showNat (n : Nat) : strtol (showNat n) = some n := by
  obtain ⟨b, bs, hb⟩ := List.exists_cons_of_ne_nil (showNat_ne_nil n)
  have hd : isDigit b = true := isDigit_of_mem_showNat (by rw [hb]; exact List.mem_cons_self)
  simp only [isDigit, Bool.and_eq_true, decide_eq_true_eq] at hd
  have hdrop : (showNat n).dropWhile isSpace = showNat n := by
    rw [hb, List.dropWhile_cons_of_neg]
    have : b ≠ 32 := by rintro rfl; simp at hd
    simp only [isSpace, Bool.or_eq_true, Bool.and_eq_true, decide_eq_true_eq, this, false_or]
    omega
  unfold strtol
  rw [hdrop]
  split
  · rename_i r h
    rw [hb] at h
    obtain ⟨rfl, -⟩ := List.cons.inj h
    simp at hd
  · rename_i r h
    rw [hb] at h
    obtain ⟨rfl, -⟩ := List.cons.inj h
    simp at hd
  · rw [readDigits_showNat]
    rfl

theorem strtol_showInt (n : Int) : strtol (showInt n) = some n := by
  cases n with
  | ofNat n => exact strtol_showNat n
  | negSucc n =>
      have hdrop : (showInt (.negSucc n)).dropWhile isSpace = 45 :: showNat (n + 1) := by
        rw [showInt, List.dropWhile_cons_of_neg (by decide)]
        rfl
      unfold strtol
      rw [hdrop]
      simp only [readDigits_showNat]
      rfl

/-- Reading back what was written. -/
theorem stoi_showInt {n : Int} (h : InInt n) : stoi (showInt n) = .ok n :=
  stoi_ok_iff.mpr ⟨strtol_showInt n, h⟩

theorem atoi_showInt {n : Int} (h : InInt n) : atoi (showInt n) = .ok n := by
  rw [atoi, strtol_showInt]
  exact if_pos h

example : stoi (lit " \t+0042 apples") = .ok 42 := by decide
example : stoi (lit "-") = .error .invalidArgument := by decide
example : stoi (lit "2147483648") = .error .outOfRange := by decide

end Cpp
