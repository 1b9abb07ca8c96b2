import Mathlib.Data.List.TakeWhile
import Mathlib.Tactic

/-!
# IoTRepublic.Lib.Contiguous

Lists in which the elements of one class stand next to each other.

A class keeps together when elements go, when one comes in front of the first of its
class, and when one of a new class comes to the end. Where it does, the list is what is
in front of the class, the class, and what is behind it (`Contiguous.split`).
-/

/-- Between two elements of a class are only elements of it. -/
def Contiguous {α ι : Type*} (cls : α → ι) (l : List α) : Prop :=
  ∀ a b c, List.Sublist [a, b, c] l → cls a = cls c → cls b = cls a

namespace Contiguous

variable {α ι : Type*} {cls : α → ι} {l before after : List α} {a b : α}

theorem nil : Contiguous cls [] := by
  intro a b c h
  cases h

theorem sublist {l' : List α} (h : Contiguous cls l) (hl : List.Sublist l' l) :
    Contiguous cls l' := fun a b c hsub => h a b c (hsub.trans hl)

theorem map {β : Type*} {f : β → α} {l : List β} (h : Contiguous (cls ∘ f) l) :
    Contiguous cls (l.map f) := by
  intro a b c hsub heq
  obtain ⟨l', hl', hmap⟩ := List.sublist_map_iff.mp hsub
  match l' with
  | [x, y, z] =>
      obtain ⟨rfl, rfl, rfl⟩ : a = f x ∧ b = f y ∧ c = f z := by simpa using hmap
      exact h x y z hl' heq

theorem concat (h : Contiguous cls l) (ha : ∀ b ∈ l, cls b ≠ cls a) :
    Contiguous cls (l ++ [a]) := by
  intro x y z hsub heq
  obtain ⟨l₁, l₂, hl, hleft, hright⟩ := List.sublist_append_iff.mp hsub
  cases l₂ with
  | nil => exact h x y z (by rwa [hl, List.append_nil]) heq
  | cons c l₂ =>
      obtain rfl : l₂ = [] := by
        have hlength := hright.length_le
        simp only [List.length_cons, List.length_nil] at hlength
        exact List.length_eq_zero_iff.mp (by omega)
      obtain ⟨rfl, rfl⟩ : [x, y] = l₁ ∧ z = c := by
        have hconcat := List.append_inj' (show [x, y] ++ [z] = l₁ ++ [c] from hl) rfl
        simpa using hconcat
      have hz : z = a := by simpa using hright
      have hx : x ∈ l := hleft.subset List.mem_cons_self
      exact absurd (heq.trans (congrArg cls hz)) (ha x hx)

theorem insert (h : Contiguous cls (before ++ b :: after)) (ha : cls a = cls b)
    (hbefore : ∀ c ∈ before, cls c ≠ cls b) : Contiguous cls (before ++ a :: b :: after) := by
  intro x y z hsub heq
  obtain ⟨l₁, l₂, hl, hleft, hright⟩ := List.sublist_append_iff.mp hsub
  cases List.sublist_cons_iff.mp hright with
  | inl hright => exact h x y z (hl ▸ hleft.append hright) heq
  | inr hright =>
      -- The new element is one of the three.
      obtain ⟨r, rfl, hr⟩ := hright
      match l₁ with
      | [] =>
          obtain ⟨rfl, rfl⟩ : x = a ∧ [y, z] = r := by simpa using hl
          cases List.sublist_cons_iff.mp hr with
          | inl hafter =>
              have hsub : List.Sublist [b, y, z] (before ++ b :: after) :=
                (hafter.cons_cons b).trans (List.sublist_append_right before _)
              exact (h b y z hsub (ha.symm.trans heq)).trans ha.symm
          | inr hfirst =>
              obtain ⟨r, hyr, -⟩ := hfirst
              rw [(List.cons.inj hyr).1, ha]
      | [w] =>
          obtain ⟨rfl, rfl, rfl⟩ : x = w ∧ y = a ∧ [z] = r := by simpa using hl
          have hx : x ∈ before := by simpa using hleft
          cases List.sublist_cons_iff.mp hr with
          | inl hafter =>
              rw [ha]
              exact h x b z (hleft.append (hafter.cons_cons b)) heq
          | inr hfirst =>
              obtain ⟨r, hzr, -⟩ := hfirst
              exact absurd (heq.trans (congrArg cls (List.cons.inj hzr).1)) (hbefore x hx)
      | w :: w' :: l₁ =>
          obtain ⟨rfl, rfl, hz⟩ : x = w ∧ y = w' ∧ [z] = l₁ ++ a :: r := by simpa using hl
          have hx : x ∈ before := hleft.subset List.mem_cons_self
          have hza : z = a := by
            cases l₁ with
            | nil => exact (List.cons.inj hz).1
            | cons => simp at hz
          exact absurd (heq.trans ((congrArg cls hza).trans ha)) (hbefore x hx)

/-- The class in its place: its elements in a row, and none of them in front of it or
behind it. -/
theorem split [DecidableEq ι] (h : Contiguous cls l) (i : ι) :
    ∃ before after, l = before ++ l.filter (cls · = i) ++ after ∧ (∀ b ∈ before, cls b ≠ i)
      ∧ ∀ b ∈ after, cls b ≠ i := by
  have hbefore : ∀ b ∈ l.takeWhile (cls · ≠ i), cls b ≠ i := by
    intro b hb
    simpa using List.mem_takeWhile_imp hb
  have hdrop := List.takeWhile_append_dropWhile (p := (cls · ≠ i)) (l := l)
  cases hrest : l.dropWhile (cls · ≠ i) with
  | nil =>
      rw [hrest, List.append_nil] at hdrop
      rw [hdrop] at hbefore
      refine ⟨l, [], ?_, hbefore, by simp⟩
      simpa using hbefore
  | cons f rest =>
      rw [hrest] at hdrop
      have hf : cls f = i := by
        have hhead := List.head_dropWhile_not (cls · ≠ i) (l := l)
          (by rw [hrest]; exact List.cons_ne_nil f rest)
        simpa only [hrest, List.head_cons, decide_eq_false_iff_not, Classical.not_not] using hhead
      have hafter : ∀ b ∈ (f :: rest).dropWhile (cls · = i), cls b ≠ i := by
        intro b hb heq
        obtain ⟨g, after, hg⟩ := List.exists_cons_of_ne_nil (List.ne_nil_of_mem hb)
        have hne : cls g ≠ i := by
          have hhead := List.head_dropWhile_not (cls · = i) (l := f :: rest)
            (by rw [hg]; exact List.cons_ne_nil g after)
          simpa only [hg, List.head_cons, decide_eq_false_iff_not] using hhead
        rw [List.dropWhile_cons_of_pos (by simpa using hf)] at hb hg
        have hbg : b ≠ g := fun hbg => hne (hbg ▸ heq)
        have hgb : List.Sublist [g, b] rest := by
          refine List.Sublist.trans ?_ (List.dropWhile_sublist (cls · = i))
          rw [hg] at hb ⊢
          simpa [hbg] using hb
        have hsub : List.Sublist [f, g, b] l :=
          hdrop ▸ (hgb.cons_cons f).trans (List.sublist_append_right _ _)
        exact hne ((h f g b hsub (hf.trans heq.symm)).trans hf)
      refine ⟨l.takeWhile (cls · ≠ i), (f :: rest).dropWhile (cls · = i), ?_, hbefore, hafter⟩
      have hbehind : ((f :: rest).dropWhile (cls · = i)).filter (cls · = i) = [] :=
        List.filter_eq_nil_iff.mpr (by simpa using hafter)
      have hrun : l.filter (cls · = i) = (f :: rest).takeWhile (cls · = i) :=
        calc l.filter (cls · = i)
            = (l.takeWhile (cls · ≠ i)).filter (cls · = i) ++ (f :: rest).filter (cls · = i) := by
              rw [← List.filter_append, hdrop]
          _ = (f :: rest).filter (cls · = i) := by
              rw [List.filter_eq_nil_iff.mpr (by simpa using hbefore), List.nil_append]
          _ = ((f :: rest).takeWhile (cls · = i)).filter (cls · = i)
              ++ ((f :: rest).dropWhile (cls · = i)).filter (cls · = i) := by
              rw [← List.filter_append, List.takeWhile_append_dropWhile]
          _ = (f :: rest).takeWhile (cls · = i) := by
              rw [hbehind, List.append_nil, List.filter_eq_self]
              intro b hb
              exact List.mem_takeWhile_imp (p := (cls · = i)) hb
      rw [hrun, List.append_assoc, List.takeWhile_append_dropWhile, hdrop]

end Contiguous
