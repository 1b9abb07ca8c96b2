import Mathlib.Tactic

/-!
# IoTRepublic.Lib.Countdown

A countdown that is looked at before it is counted down. At every tick it fires and
starts again if there is nothing left of it, and is counted down otherwise; so the
tick at which it has run out is not yet the tick at which it fires. `Counted` is
what the ticks so far say about it, `Counted.tick` one more tick.
-/

namespace Countdown

/-- How many ticks it takes to count down from `start`. -/
def ticks (start step : ℤ) : ℕ := ⌈(start : ℚ) / step⌉₊

/-- Every firing is followed by the next one exactly `gap` ticks later, as far as
there were ticks. -/
def Periodic (fired : List Bool) (gap : ℕ) : Prop :=
  ∀ i, fired[i]? = some true →
    (∀ k, i < k → k < i + gap → fired[k]? ≠ some true) ∧
      (i + gap < fired.length → fired[i + gap]? = some true)

section Ticks

variable {start step : ℤ}

theorem ticks_le_iff (hstep : 0 < step) {n : ℕ} : ticks start step ≤ n ↔ start ≤ n * step := by
  have hpos : (0 : ℚ) < step := by exact_mod_cast hstep
  rw [ticks, Nat.ceil_le, div_le_iff₀ hpos]
  exact_mod_cast Iff.rfl

theorem ticks_pos (hstart : 0 < start) (hstep : 0 < step) : 0 < ticks start step := by
  have h : ¬ ticks start step ≤ 0 := by
    rw [ticks_le_iff hstep]
    simpa using hstart
  omega

/-- A whole number of steps takes that many ticks. -/
theorem ticks_mul (hstep : 0 < step) (n : ℕ) : ticks (n * step) step = n := by
  have hpos : (0 : ℚ) < step := by exact_mod_cast hstep
  rw [ticks]
  push_cast
  rw [mul_div_assoc, div_self hpos.ne', mul_one, Nat.ceil_natCast]

end Ticks

section Periodic

variable {fired : List Bool} {gap : ℕ}

theorem getElem?_concat_eq_true {b : Bool} {i : ℕ} :
    (fired ++ [b])[i]? = some true ↔ fired[i]? = some true ∨ i = fired.length ∧ b = true := by
  rcases lt_trichotomy i fired.length with hlt | rfl | hlt
  · rw [List.getElem?_append_left hlt]
    simp [hlt.ne]
  · simp
  · rw [List.getElem?_eq_none (by simp; omega), List.getElem?_eq_none hlt.le]
    simp [hlt.ne']

theorem lt_length_of_fired {i : ℕ} (h : fired[i]? = some true) : i < fired.length :=
  (List.getElem?_eq_some_iff.mp h).1

/-- One more tick: it fires if the last firing is a whole gap ago, and not before. -/
theorem Periodic.concat (h : Periodic fired gap) (hgap : 0 < gap) {b : Bool}
    (hearly : ∀ i, fired[i]? = some true → fired.length < i + gap → b = false)
    (hdue : ∀ i, fired[i]? = some true → i + gap = fired.length → b = true) :
    Periodic (fired ++ [b]) gap := by
  intro i hi
  rw [List.length_append, List.length_singleton]
  rcases getElem?_concat_eq_true.mp hi with hi | ⟨rfl, -⟩
  · obtain ⟨hbetween, hnext⟩ := h i hi
    refine ⟨fun k hik hk hfired => ?_, fun hlt => getElem?_concat_eq_true.mpr ?_⟩
    · rcases getElem?_concat_eq_true.mp hfired with hfired | ⟨rfl, hb⟩
      · exact hbetween k hik hk hfired
      · exact absurd hb (by simp [hearly i hi hk])
    · rcases Nat.lt_succ_iff_lt_or_eq.mp hlt with hlt | heq
      · exact .inl (hnext hlt)
      · exact .inr ⟨heq, hdue i hi heq⟩
  · refine ⟨fun k hik _ hfired => ?_, fun hlt => ?_⟩
    · have := lt_length_of_fired hfired
      rw [List.length_append, List.length_singleton] at this
      omega
    · omega

/-- What fires every `gap + 1` ticks fires every `gap` ticks only as long as it
cannot be told. -/
theorem Periodic.periodic_pred_iff (h : Periodic fired (gap + 1)) (hgap : 0 < gap) :
    Periodic fired gap ↔ ∀ i, fired[i]? = some true → fired.length ≤ i + gap := by
  constructor
  · intro hpred i hi
    by_contra hlt
    exact (h i hi).1 (i + gap) (by omega) (by omega) ((hpred i hi).2 (by omega))
  · intro hshort i hi
    have hlen := hshort i hi
    exact ⟨fun k hik hk => (h i hi).1 k hik (by omega), fun hlt => by omega⟩

end Periodic

/-! ### The countdown -/

/-- The countdown from `start` by `step` after some ticks, with `left` still to
count. -/
inductive Counted (start step left : ℤ) (fired : List Bool) : Prop
  /-- It has not fired, and will at the next tick. -/
  | fresh (hnever : true ∉ fired) (hleft : left ≤ 0)
  /-- It last fired `since` ticks before the last one. -/
  | since (before : List Bool) (since : ℕ)
      (hfired : fired = before ++ true :: List.replicate since false)
      (hleft : left = start - since * step) (hsince : since ≤ ticks start step)

variable {start step left : ℤ} {fired : List Bool}

/-- Nothing has fired after the last firing. -/
theorem le_length_of_fired {before : List Bool} {since i : ℕ}
    (h : (before ++ true :: List.replicate since false)[i]? = some true) : i ≤ before.length := by
  by_contra hlt
  rw [List.getElem?_append_right (by omega),
    show i - before.length = i - before.length - 1 + 1 by omega, List.getElem?_cons_succ,
    List.getElem?_replicate] at h
  split at h <;> simp at h

/-- **One more tick** of a countdown: it fires when nothing is left and starts over, and
so fires periodically. -/
theorem Counted.tick (hstep : 0 < step) (h : Counted start step left fired)
    (hperiodic : Periodic fired (ticks start step + 1)) :
    Counted start step (if left ≤ 0 then start else left - step) (fired ++ [decide (left ≤ 0)]) ∧
      Periodic (fired ++ [decide (left ≤ 0)]) (ticks start step + 1) := by
  cases h with
  | fresh hnever hleft =>
      refine ⟨.since fired 0 (by simp [hleft]) (by simp [hleft]) (Nat.zero_le _), ?_⟩
      refine hperiodic.concat (Nat.succ_pos _) ?_ ?_
      · intro i hi
        exact absurd (List.mem_of_getElem? hi) hnever
      · intro i hi
        exact absurd (List.mem_of_getElem? hi) hnever
  | since before since hfired hleft hsince =>
      -- Nothing is left exactly when all the ticks have passed.
      have hout : left ≤ 0 ↔ since = ticks start step := by
        rw [hleft, sub_nonpos, ← ticks_le_iff hstep]
        omega
      have hlen : fired.length = before.length + since + 1 := by
        rw [hfired, List.length_append, List.length_cons, List.length_replicate]
        omega
      have hlast : fired[before.length]? = some true := by simp [hfired]
      -- The last firing is the one that decides about this tick.
      have hlater : ∀ i, fired[i]? = some true → i ≠ before.length →
          i + (ticks start step + 1) < fired.length := by
        intro i hi hne
        have hbefore : i ≤ before.length := le_length_of_fired (hfired ▸ hi)
        by_contra hge
        exact (hperiodic i hi).1 before.length (by omega) (by omega) hlast
      refine ⟨?_, hperiodic.concat (Nat.succ_pos _) ?_ ?_⟩
      · by_cases hdue : left ≤ 0
        · simp only [hdue, if_true, decide_true]
          exact .since fired 0 rfl (by simp) (Nat.zero_le _)
        · simp only [hdue, if_false, decide_false]
          refine .since before (since + 1) ?_ ?_ ?_
          · rw [hfired, List.append_assoc, List.cons_append, ← List.replicate_succ']
          · rw [hleft]
            push_cast
            ring
          · have hne : since ≠ ticks start step := fun heq => hdue (hout.mpr heq)
            omega
      · intro i hi hearly
        by_cases hi' : i = before.length
        · subst hi'
          exact decide_eq_false fun hdue => by
            have := hout.mp hdue
            omega
        · have := hlater i hi hi'
          omega
      · intro i hi hdue
        by_cases hi' : i = before.length
        · subst hi'
          exact decide_eq_true (hout.mpr (by omega))
        · have := hlater i hi hi'
          omega

end Countdown
