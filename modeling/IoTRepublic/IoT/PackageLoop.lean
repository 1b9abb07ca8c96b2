import IoTRepublic.IoT.UtilitySpec

/-!
# IoTRepublic.IoT.PackageLoop

The loop every receiver of the program is built around:

    do { package = GetCompletedPackage(&buffer, &error); if (package) … }
    while (package)

The body between the braces is the parameter `handle`; it never touches the
buffer. A package is at least two bytes long, so the loop ends. Where the source
tests `error == NoError` instead of the pointer the loop is the same one
(`getCompletedPackage_some`).
-/

namespace IoTRepublic

open Cpp

namespace IoTUtility

universe u

variable {σ : Type u}

/-- The loop: the handler's state, the error code that ended it and the buffer it
leaves. -/
def packageLoop (handle : IoTPackage → σ → Except Fault σ) (s : σ) (buffer : List Byte) :
    Except Fault (σ × GetPackageError × List Byte) :=
  match _h : getCompletedPackage buffer with
  | .error fault => .error fault
  | .ok ⟨none, error, rest⟩ => .ok (s, error, rest)
  | .ok ⟨some package, _, rest⟩ =>
    match handle package s with
    | .error fault => .error fault
    | .ok s => packageLoop handle s rest
termination_by buffer.length
decreasing_by exact length_lt_of_some _h

variable {handle : IoTPackage → σ → Except Fault σ}

theorem packageLoop_of_error {s : σ} {buffer : List Byte} {fault : Fault}
    (h : getCompletedPackage buffer = .error fault) :
    packageLoop handle s buffer = .error fault := by
  unfold packageLoop
  split <;> simp_all

theorem packageLoop_of_none {s : σ} {buffer rest : List Byte} {error : GetPackageError}
    (h : getCompletedPackage buffer = .ok ⟨none, error, rest⟩) :
    packageLoop handle s buffer = .ok (s, error, rest) := by
  unfold packageLoop
  split <;> simp_all

theorem packageLoop_of_some {s : σ} {buffer rest : List Byte} {package : IoTPackage}
    {error : GetPackageError} (h : getCompletedPackage buffer = .ok ⟨some package, error, rest⟩) :
    packageLoop handle s buffer
      = (handle package s >>= fun s => packageLoop handle s rest) := by
  conv_lhs => unfold packageLoop
  split
  · simp_all
  · simp_all
  · rename_i p e r heq
    rw [h] at heq
    simp only [Except.ok.injEq, Extraction.mk.injEq, Option.some.injEq] at heq
    obtain ⟨rfl, -, rfl⟩ := heq
    cases handle package s <;> rfl

/-- Induction over the rounds of a loop that returns, from the last one back. -/
theorem packageLoop_rec {motive : σ → List Byte → Prop} {s' : σ} {error : GetPackageError}
    {rest : List Byte}
    (hnone : ∀ buffer, getCompletedPackage buffer = .ok ⟨none, error, rest⟩ → motive s' buffer)
    (hsome : ∀ s s₁ buffer package e left,
      getCompletedPackage buffer = .ok ⟨some package, e, left⟩ → handle package s = .ok s₁ →
      motive s₁ left → motive s buffer)
    {s : σ} {buffer : List Byte} (h : packageLoop handle s buffer = .ok (s', error, rest)) :
    motive s buffer := by
  induction hn : buffer.length using Nat.strong_induction_on generalizing s buffer with
  | _ n ih =>
    subst hn
    cases hget : getCompletedPackage buffer with
    | error fault =>
        rw [packageLoop_of_error hget] at h
        simp at h
    | ok x =>
        obtain ⟨package, e, left⟩ := x
        cases package with
        | none =>
            rw [packageLoop_of_none hget] at h
            simp only [Except.ok.injEq, Prod.mk.injEq] at h
            obtain ⟨rfl, rfl, rfl⟩ := h
            exact hnone buffer hget
        | some package =>
            rw [packageLoop_of_some hget] at h
            obtain ⟨s₁, hs₁, h⟩ := bind_ok_iff.mp h
            exact hsome _ _ _ _ _ _ hget hs₁ (ih _ (length_lt_of_some hget) h rfl)

/-- The induction rule of the loop: a relation between the handler's state and the
buffer that every handled package keeps relates what the loop leaves to the
buffer it last rejected. -/
theorem packageLoop_induction {I : σ → List Byte → Prop}
    (hsome : ∀ s s' buffer package error rest,
      I s buffer → getCompletedPackage buffer = .ok ⟨some package, error, rest⟩ →
      handle package s = .ok s' → I s' rest)
    {s s' : σ} {buffer rest : List Byte} {error : GetPackageError}
    (h₀ : I s buffer) (h : packageLoop handle s buffer = .ok (s', error, rest)) :
    ∃ last, I s' last ∧ getCompletedPackage last = .ok ⟨none, error, rest⟩ := by
  refine packageLoop_rec (motive := fun s buffer => I s buffer →
    ∃ last, I s' last ∧ getCompletedPackage last = .ok ⟨none, error, rest⟩) ?_ ?_ h h₀
  · intro buffer hget hI
    exact ⟨buffer, hI, hget⟩
  · intro s s₁ buffer package e left hget hs₁ ih hI
    exact ih (hsome _ _ _ _ _ _ hI hget hs₁)

/-- An invariant of the handler is an invariant of the loop. -/
theorem packageLoop_invariant {I : σ → Prop}
    (hhandle : ∀ package s s', I s → handle package s = .ok s' → I s')
    {s s' : σ} {buffer rest : List Byte} {error : GetPackageError} (h₀ : I s)
    (h : packageLoop handle s buffer = .ok (s', error, rest)) : I s' := by
  obtain ⟨_, hI, -⟩ := packageLoop_induction (I := fun s _ => I s)
    (fun _ _ _ _ _ _ hs _ hh => hhandle _ _ _ hs hh) h₀ h
  exact hI

/-- A handler that `f` maps onto another takes the loop onto the other's loop: how
the buffer is cut does not depend on what is done with the packages. -/
theorem packageLoop_map {τ : Type*} {handle' : IoTPackage → τ → Except Fault τ} {f : σ → τ}
    (hf : ∀ package s s', handle package s = .ok s' → handle' package (f s) = .ok (f s'))
    {s s' : σ} {buffer rest : List Byte} {error : GetPackageError}
    (h : packageLoop handle s buffer = .ok (s', error, rest)) :
    packageLoop handle' (f s) buffer = .ok (f s', error, rest) := by
  refine packageLoop_rec (motive := fun s buffer =>
    packageLoop handle' (f s) buffer = .ok (f s', error, rest)) ?_ ?_ h
  · intro buffer hget
    exact packageLoop_of_none hget
  · intro s s₁ buffer package e left hget hs₁ ih
    rw [packageLoop_of_some hget, hf _ _ _ hs₁, ok_bind]
    exact ih

/-- The loop, run from `s` on `buffer`, comes to handle `package` in the state
`s'`. -/
inductive Handles (handle : IoTPackage → σ → Except Fault σ) :
    σ → List Byte → IoTPackage → σ → Prop
  | here {s : σ} {buffer rest : List Byte} {package : IoTPackage} {error : GetPackageError}
      (hget : getCompletedPackage buffer = .ok ⟨some package, error, rest⟩) :
      Handles handle s buffer package s
  | later {s s₁ s' : σ} {buffer rest : List Byte} {package package' : IoTPackage}
      {error : GetPackageError}
      (hget : getCompletedPackage buffer = .ok ⟨some package, error, rest⟩)
      (hs : handle package s = .ok s₁) (hrest : Handles handle s₁ rest package' s') :
      Handles handle s buffer package' s'

end IoTUtility

end IoTRepublic
