import Mathlib.Tactic
import Mathlib.Data.Nat.ModEq

/-!
# IoTRepublic.Lib.EndAroundCarry

Folding an accumulator to `w` bits by adding the carries back in, as the
Internet checksum does. The loop keeps the residue modulo `2 ^ w - 1` and
ends on the representative in `1 … 2 ^ w - 1`, except that zero stays zero
(`foldCarry_eq`). Two accumulators therefore fold alike exactly when they are
both zero, or both positive and congruent (`foldCarry_eq_iff`).
-/

namespace EndAroundCarry

variable (w : Nat) [NeZero w]

omit [NeZero w] in
theorem low_add_high (s : Nat) :
    (s &&& (2 ^ w - 1)) + (s >>> w) = s % 2 ^ w + s / 2 ^ w := by
  rw [Nat.and_two_pow_sub_one_eq_mod, Nat.shiftRight_eq_div_pow]

theorem two_le_two_pow : 2 ≤ 2 ^ w := by
  calc 2 = 2 ^ 1 := by norm_num
    _ ≤ 2 ^ w := Nat.pow_le_pow_right (by norm_num) (Nat.pos_of_ne_zero (NeZero.ne w))

/-- One round shrinks an accumulator wider than `w` bits. -/
theorem low_add_high_lt {s : Nat} (h : 0 < s >>> w) :
    (s &&& (2 ^ w - 1)) + (s >>> w) < s := by
  have hw := two_le_two_pow w
  rw [Nat.shiftRight_eq_div_pow] at h
  rw [low_add_high]
  have hdiv := Nat.div_add_mod s (2 ^ w)
  have hmul : 2 * (s / 2 ^ w) ≤ 2 ^ w * (s / 2 ^ w) := Nat.mul_le_mul_right _ hw
  omega

/-- `while (s >> w > 0) s = (s & mask) + (s >> w)`. -/
def foldCarry (w : Nat) [NeZero w] (s : Nat) : Nat :=
  if 0 < s >>> w then foldCarry w ((s &&& (2 ^ w - 1)) + (s >>> w)) else s
termination_by s
decreasing_by exact low_add_high_lt w ‹_›

/-- What one round keeps: the residue, and being positive. -/
theorem low_add_high_modEq (s : Nat) :
    (s &&& (2 ^ w - 1)) + (s >>> w) ≡ s [MOD 2 ^ w - 1] := by
  have hw := two_le_two_pow w
  have hone : 2 ^ w ≡ 1 [MOD 2 ^ w - 1] := by
    have h : 2 ^ w - 1 + 1 ≡ 0 + 1 [MOD 2 ^ w - 1] :=
      Nat.ModEq.add_right 1 (by simp [Nat.ModEq])
    rwa [Nat.sub_add_cancel (by omega)] at h
  rw [low_add_high]
  calc s % 2 ^ w + s / 2 ^ w
      = s % 2 ^ w + 1 * (s / 2 ^ w) := by rw [one_mul]
    _ ≡ s % 2 ^ w + 2 ^ w * (s / 2 ^ w) [MOD 2 ^ w - 1] :=
        Nat.ModEq.add_left _ (hone.symm.mul_right _)
    _ = s := Nat.mod_add_div s (2 ^ w)

theorem foldCarry_modEq (s : Nat) : foldCarry w s ≡ s [MOD 2 ^ w - 1] := by
  fun_induction foldCarry w s with
  | case1 s h ih => exact ih.trans (low_add_high_modEq w s)
  | case2 s h => exact Nat.ModEq.refl s

theorem foldCarry_lt (s : Nat) : foldCarry w s < 2 ^ w := by
  fun_induction foldCarry w s with
  | case1 s h ih => exact ih
  | case2 s h =>
      have hdiv : s / 2 ^ w = 0 := by
        rw [Nat.shiftRight_eq_div_pow] at h
        exact Nat.eq_zero_of_not_pos h
      exact (Nat.div_eq_zero_iff_lt (by positivity)).mp hdiv

theorem foldCarry_pos_iff (s : Nat) : 0 < foldCarry w s ↔ 0 < s := by
  fun_induction foldCarry w s with
  | case1 s h ih =>
      have hs : 0 < s := by
        have := low_add_high_lt w h
        omega
      rw [ih]
      exact ⟨fun _ => hs, fun _ => by omega⟩
  | case2 s h => exact Iff.rfl

/-- The folded value is the representative of `s` in `1 … 2 ^ w - 1`. -/
theorem foldCarry_eq {s : Nat} (hs : 0 < s) :
    foldCarry w s = (s - 1) % (2 ^ w - 1) + 1 := by
  have hw := two_le_two_pow w
  have hlt := foldCarry_lt w s
  have hpos := (foldCarry_pos_iff w s).mpr hs
  have hmod := foldCarry_modEq w s
  have hpred : foldCarry w s - 1 ≡ s - 1 [MOD 2 ^ w - 1] := by
    refine Nat.ModEq.add_right_cancel' 1 ?_
    rwa [Nat.sub_add_cancel hpos, Nat.sub_add_cancel hs]
  have hself : (foldCarry w s - 1) % (2 ^ w - 1) = foldCarry w s - 1 :=
    Nat.mod_eq_of_lt (by omega)
  have := hself.symm.trans hpred
  omega

/-- When two accumulators fold to the same value. -/
theorem foldCarry_eq_iff (s t : Nat) :
    foldCarry w s = foldCarry w t ↔ (s = 0 ↔ t = 0) ∧ s ≡ t [MOD 2 ^ w - 1] := by
  constructor
  · intro h
    have hs := foldCarry_pos_iff w s
    have ht := foldCarry_pos_iff w t
    refine ⟨by omega, ?_⟩
    calc s ≡ foldCarry w s [MOD 2 ^ w - 1] := (foldCarry_modEq w s).symm
      _ = foldCarry w t := h
      _ ≡ t [MOD 2 ^ w - 1] := foldCarry_modEq w t
  · rintro ⟨hz, hmod⟩
    rcases Nat.eq_zero_or_pos s with rfl | hs
    · rw [hz.mp rfl]
    · have ht : 0 < t := by omega
      rw [foldCarry_eq w hs, foldCarry_eq w ht]
      have hpred : s - 1 ≡ t - 1 [MOD 2 ^ w - 1] := by
        refine Nat.ModEq.add_right_cancel' 1 ?_
        rwa [Nat.sub_add_cancel hs, Nat.sub_add_cancel ht]
      rw [hpred]

end EndAroundCarry
