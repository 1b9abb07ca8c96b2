import Mathlib.Logic.Function.Basic
import Mathlib.Tactic.Common

/-!
# IoTRepublic.Lib.Allotment

Numbers handed out one after the other, to whoever asks.

A `Ledger` has the next number, and who of those it knows has been given which one.
That no number is given twice is part of it. Numbers may go to others too: then the
ledger only skips them.
-/

namespace Allotment

universe u

/-- Who has been given which number. The numbers are below the next one and distinct, so
an invalid ledger cannot be written down. -/
structure Ledger (κ : Type u) where
  next : Nat
  given : κ → Option Nat
  below {k : κ} {n : Nat} : given k = some n → n < next
  distinct {k l : κ} {n : Nat} : given k = some n → given l = some n → k = l

namespace Ledger

variable {κ : Type u}

/-- Nobody has a number. -/
def empty : Ledger κ where
  next := 0
  given := fun _ => none
  below := nofun
  distinct := nofun

/-- The numbers up to `n` have gone to others. -/
def skip (ledger : Ledger κ) (n : Nat) (h : ledger.next ≤ n) : Ledger κ :=
  { ledger with next := n, below := fun hk => Nat.lt_of_lt_of_le (ledger.below hk) h }

@[simp] theorem skip_next (ledger : Ledger κ) {n : Nat} (h : ledger.next ≤ n) :
    (ledger.skip n h).next = n := rfl

@[simp] theorem skip_given (ledger : Ledger κ) {n : Nat} (h : ledger.next ≤ n) :
    (ledger.skip n h).given = ledger.given := rfl

variable [DecidableEq κ]

/-- The next number goes to `k`; one that `k` had before is forgotten. -/
def grant (ledger : Ledger κ) (k : κ) : Ledger κ where
  next := ledger.next + 1
  given := Function.update ledger.given k (some ledger.next)
  below {l n} hl := by
    by_cases hlk : l = k
    · subst hlk
      rw [Function.update_self] at hl
      obtain rfl := Option.some.inj hl
      exact Nat.lt_succ_self _
    · rw [Function.update_of_ne hlk] at hl
      exact Nat.lt_succ_of_lt (ledger.below hl)
  distinct {l l' n} hl hl' := by
    by_cases hlk : l = k
    · by_cases hlk' : l' = k
      · exact hlk.trans hlk'.symm
      · -- The other one's number was given earlier.
        rw [hlk, Function.update_self] at hl
        rw [Function.update_of_ne hlk'] at hl'
        exact absurd (ledger.below hl') (by rw [Option.some.inj hl]; exact Nat.lt_irrefl _)
    · rw [Function.update_of_ne hlk] at hl
      by_cases hlk' : l' = k
      · rw [hlk', Function.update_self] at hl'
        exact absurd (ledger.below hl) (by rw [Option.some.inj hl']; exact Nat.lt_irrefl _)
      · rw [Function.update_of_ne hlk'] at hl'
        exact ledger.distinct hl hl'

@[simp] theorem grant_next (ledger : Ledger κ) (k : κ) : (ledger.grant k).next = ledger.next + 1 :=
  rfl

@[simp] theorem grant_self (ledger : Ledger κ) (k : κ) :
    (ledger.grant k).given k = some ledger.next := Function.update_self ..

theorem grant_of_ne (ledger : Ledger κ) {k l : κ} (h : l ≠ k) :
    (ledger.grant k).given l = ledger.given l := Function.update_of_ne h ..

end Ledger

end Allotment
