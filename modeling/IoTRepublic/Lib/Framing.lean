import Mathlib.Tactic

/-!
# IoTRepublic.Lib.Framing

A stream of frames that arrives in pieces. At any moment the bytes that have
arrived are some whole frames followed by the front of the next one; `Pending`
says what such a front is, and `split_front` that every front of the stream has
this shape. A receiver that takes out whole frames keeps `Pending` and, when the
stream has arrived completely, has nothing left (`Pending.eq_nil_of_flatten`).
-/

namespace Framing

variable {α : Type*}

/-- `b` is the front of the first of the frames still to come, but not all of it. -/
def Pending : List (List α) → List α → Prop
  | [], b => b = []
  | f :: _, b => b <+: f ∧ b.length < f.length

/-- Any front of a stream of frames is some frames and a front of the next. -/
theorem split_front {frames : List (List α)} (hne : ∀ f ∈ frames, f ≠ []) :
    ∀ {b : List α}, b <+: frames.flatten →
      ∃ done rest front, frames = done ++ rest ∧ b = done.flatten ++ front ∧
        Pending rest front := by
  induction frames with
  | nil =>
      intro b h
      rw [List.flatten_nil, List.prefix_nil] at h
      exact ⟨[], [], [], rfl, by simp [h], rfl⟩
  | cons f fs ih =>
      intro b h
      rw [List.flatten_cons] at h
      by_cases hlen : b.length < f.length
      · have hb : b <+: f := List.prefix_of_prefix_length_le h (List.prefix_append _ _) (by omega)
        exact ⟨[], f :: fs, b, rfl, rfl, hb, hlen⟩
      · obtain ⟨b', rfl⟩ : f <+: b :=
          List.prefix_of_prefix_length_le (List.prefix_append _ _) h (by omega)
        have hb' : b' <+: fs.flatten := (List.prefix_append_right_inj f).mp h
        obtain ⟨done, rest, front, rfl, rfl, hp⟩ :=
          ih (fun g hg => hne g (List.mem_cons_of_mem _ hg)) hb'
        exact ⟨f :: done, rest, front, rfl, by rw [List.flatten_cons, List.append_assoc], hp⟩

/-- Before anything has arrived, nothing is pending. -/
theorem pending_nil {frames : List (List α)} (hne : ∀ f ∈ frames, f ≠ []) : Pending frames [] := by
  cases frames with
  | nil => rfl
  | cons f fs =>
      exact ⟨List.nil_prefix, List.length_pos_of_ne_nil (hne f (List.mem_cons_self ..))⟩

namespace Pending

variable {frames : List (List α)} {b : List α}

/-- When the pending bytes are all that was to come, nothing was to come. -/
theorem eq_nil_of_flatten (hne : ∀ f ∈ frames, f ≠ []) (h : Pending frames b)
    (hall : b = frames.flatten) : frames = [] ∧ b = [] := by
  cases frames with
  | nil => exact ⟨rfl, h⟩
  | cons f fs =>
      have hlen := h.2
      rw [hall, List.flatten_cons, List.length_append] at hlen
      omega

end Pending

end Framing
