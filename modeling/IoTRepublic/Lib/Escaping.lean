import Mathlib.Tactic

/-!
# IoTRepublic.Lib.Escaping

Byte stuffing: symbols with a meaning of their own are written as an escape symbol
followed by their image under an involution.
-/

/-- Which symbols are escaped, and how: by an escape symbol in front of a flipped one that
is not special. -/
structure Escaping (α : Type*) where
  special : α → Bool
  esc : α
  flip : α → α
  special_esc : special esc = true
  flip_flip : ∀ a, flip (flip a) = a
  special_flip : ∀ a, special a = true → special (flip a) = false

namespace Escaping

variable {α : Type*} [DecidableEq α] (E : Escaping α)

/-- One symbol, escaped if need be. -/
def escapeOne (a : α) : List α := if E.special a then [E.esc, E.flip a] else [a]

def escape (as : List α) : List α := as.flatMap E.escapeOne

/-- Undoing it; `none` where a special symbol stands by itself. -/
def unescape : List α → Option (List α)
  | [] => some []
  | [a] => if E.special a then none else some [a]
  | a :: b :: as =>
    if a = E.esc then
      if E.special b then none else (unescape as).map (E.flip b :: ·)
    else if E.special a then none
    else (unescape (b :: as)).map (a :: ·)

theorem unescape_cons {a : α} (h : E.special a = false) (as : List α) :
    E.unescape (a :: as) = (E.unescape as).map (a :: ·) := by
  have hne : a ≠ E.esc := by
    intro heq
    rw [heq, E.special_esc] at h
    cases h
  cases as with
  | nil => simp [unescape, h]
  | cons b as => rw [unescape, if_neg hne, h, if_neg (by decide)]

theorem unescape_escapeOne_append (a : α) (as : List α) :
    E.unescape (E.escapeOne a ++ as) = (E.unescape as).map (a :: ·) := by
  rw [escapeOne]
  split
  · rename_i h
    rw [List.cons_append, List.singleton_append, unescape, if_pos rfl, E.special_flip a h,
      if_neg (by decide), E.flip_flip]
  · rename_i h
    exact E.unescape_cons (by simpa using h) as

theorem unescape_escape (as : List α) : E.unescape (E.escape as) = some as := by
  induction as with
  | nil => rfl
  | cons a as ih =>
      rw [escape, List.flatMap_cons, E.unescape_escapeOne_append, ← escape, ih]
      rfl

end Escaping
