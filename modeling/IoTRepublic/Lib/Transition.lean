import Mathlib.Tactic

/-!
# IoTRepublic.Lib.Transition

Labelled runs. A `Run` records the events that led from the first state to the
last, newest event last, so that a statement about a run can speak about its
history. `Run.invariant` is the one induction over runs; `Run.iff_of_invariant`
compares two step relations; `run_iff_foldlM` computes the runs of a step
function. `AtEach` is for states that keep their history themselves: a property of
every entry of a time line, at the moment it was made.
-/

namespace Transition

universe u

variable {σ : Type u} {ε φ : Type*}

/-- `Run step s₀ es s`: the events `es` lead from `s₀` to `s`. -/
inductive Run (step : σ → ε → σ → Prop) (s₀ : σ) : List ε → σ → Prop
  | nil : Run step s₀ [] s₀
  | snoc {es : List ε} {s s' : σ} {e : ε} (run : Run step s₀ es s) (last : step s e s') :
      Run step s₀ (es ++ [e]) s'

namespace Run

variable {step : σ → ε → σ → Prop} {s₀ s s' : σ} {es : List ε}

/-- An invariant of every step is an invariant of every run. -/
theorem invariant {I : σ → Prop} (h₀ : I s₀) (hstep : ∀ s e s', I s → step s e s' → I s')
    (h : Run step s₀ es s) : I s := by
  induction h with
  | nil => exact h₀
  | snoc _ last ih => exact hstep _ _ _ ih last

/-- An invariant that speaks about the history too. -/
theorem invariant_history {I : List ε → σ → Prop} (h₀ : I [] s₀)
    (hstep : ∀ es s e s', I es s → step s e s' → I (es ++ [e]) s') (h : Run step s₀ es s) :
    I es s := by
  induction h with
  | nil => exact h₀
  | snoc _ last ih => exact hstep _ _ _ _ ih last

/-- Fewer steps are allowed, fewer runs exist. -/
theorem mono {step' : σ → ε → σ → Prop} (hle : ∀ s e s', step s e s' → step' s e s')
    (h : Run step s₀ es s) : Run step' s₀ es s := by
  induction h with
  | nil => exact .nil
  | snoc _ last ih => exact .snoc ih (hle _ _ _ last)

/-- What holds before every step and at the end holds after every step. -/
theorem after_each {P : σ → Prop} (h : Run (fun s e s' => P s ∧ step s e s') s₀ es s)
    (hlast : P s) : Run (fun s e s' => step s e s' ∧ P s') s₀ es s := by
  induction h with
  | nil => exact .nil
  | snoc _ last ih => exact .snoc (ih last.1) ⟨last.2, hlast⟩

theorem trans {es' : List ε} (h : Run step s₀ es s) (h' : Run step s es' s') :
    Run step s₀ (es ++ es') s' := by
  induction h' with
  | nil => simpa using h
  | snoc _ last ih =>
      rw [← List.append_assoc]
      exact .snoc ih last

/-- Two step relations that agree where an invariant holds have the same runs. -/
theorem iff_of_invariant {step' : σ → ε → σ → Prop} {I : σ → Prop} (h₀ : I s₀)
    (hstep : ∀ s e s', I s → step s e s' → step' s e s' ∧ I s')
    (hstep' : ∀ s e s', I s → step' s e s' → step s e s' ∧ I s') :
    Run step s₀ es s ↔ Run step' s₀ es s := by
  constructor
  · intro h
    refine (h.invariant_history (I := fun es s => Run step' s₀ es s ∧ I s) ⟨.nil, h₀⟩ ?_).1
    intro es s e s' hs hlast
    obtain ⟨hlast', hI⟩ := hstep s e s' hs.2 hlast
    exact ⟨.snoc hs.1 hlast', hI⟩
  · intro h
    refine (h.invariant_history (I := fun es s => Run step s₀ es s ∧ I s) ⟨.nil, h₀⟩ ?_).1
    intro es s e s' hs hlast
    obtain ⟨hlast', hI⟩ := hstep' s e s' hs.2 hlast
    exact ⟨.snoc hs.1 hlast', hI⟩

end Run

theorem foldlM_concat (f : σ → ε → Except φ σ) (s₀ : σ) (es : List ε) (e : ε) :
    (es ++ [e]).foldlM f s₀ = es.foldlM f s₀ >>= fun s => f s e := by
  simp [List.foldlM_append]

/-- The runs of a step function are its monadic folds. -/
theorem run_iff_foldlM {f : σ → ε → Except φ σ} {s₀ s : σ} {es : List ε} :
    Run (fun s e s' => f s e = .ok s') s₀ es s ↔ es.foldlM f s₀ = .ok s := by
  constructor
  · intro h
    induction h with
    | nil => rfl
    | snoc _ last ih =>
        rw [foldlM_concat, ih]
        exact last
  · induction es using List.reverseRecOn generalizing s with
    | nil =>
        intro h
        obtain rfl := Except.ok.inj h
        exact .nil
    | append_singleton es e ih =>
        intro h
        rw [foldlM_concat] at h
        cases hes : es.foldlM f s₀ with
        | error x =>
            rw [hes] at h
            cases h
        | ok s₁ =>
            rw [hes] at h
            exact .snoc (ih hes) h

/-- Runs the events from `s₀`, as long as each is possible where it happens. -/
def execute (possible : σ → ε → Prop) [∀ s e, Decidable (possible s e)] (f : σ → ε → Except φ σ)
    (s₀ : σ) (es : List ε) : Option σ :=
  es.foldlM (fun s e => if possible s e then (f s e).toOption else none) s₀

/-- Executed events are a run. -/
theorem run_of_execute {possible : σ → ε → Prop} [∀ s e, Decidable (possible s e)]
    {f : σ → ε → Except φ σ} {s₀ s : σ} {es : List ε} (h : execute possible f s₀ es = some s) :
    Run (fun s e s' => possible s e ∧ f s e = .ok s') s₀ es s := by
  induction es using List.reverseRecOn generalizing s with
  | nil =>
      obtain rfl := Option.some.inj h
      exact .nil
  | append_singleton es e ih =>
      rw [execute, List.foldlM_append] at h
      obtain ⟨s₁, hes, hlast⟩ := Option.bind_eq_some_iff.mp h
      refine .snoc (ih hes) ?_
      simp only [List.foldlM_cons, List.foldlM_nil] at hlast
      split at hlast
      · rename_i hposs
        refine ⟨hposs, ?_⟩
        cases hf : f s₁ e with
        | error x => simp [hf, Except.toOption] at hlast
        | ok s₂ => simpa [hf, Except.toOption] using hlast
      · simp at hlast

/-! ### Time lines -/

section TimeLine

variable {α : Type*} {P : List α → α → Prop} {log tail : List α}

/-- Every entry of the time line stands in the relation to what came before it. -/
def AtEach (P : List α → α → Prop) (log : List α) : Prop :=
  ∀ (n : Nat) (a : α), log[n]? = some a → P (log.take n) a

theorem atEach_nil : AtEach P [] := fun _ _ h => absurd h (by simp)

theorem atEach_concat_iff {a : α} : AtEach P (log ++ [a]) ↔ AtEach P log ∧ P log a := by
  constructor
  · intro h
    refine ⟨fun n b hn => ?_, ?_⟩
    · obtain ⟨hlt, -⟩ := List.getElem?_eq_some_iff.mp hn
      have hb := h n b (by rwa [List.getElem?_append_left hlt])
      rwa [List.take_append_of_le_length hlt.le] at hb
    · simpa using h log.length a (by simp)
  · rintro ⟨hlog, ha⟩ n b hn
    by_cases hlt : n < log.length
    · rw [List.getElem?_append_left hlt] at hn
      rw [List.take_append_of_le_length hlt.le]
      exact hlog n b hn
    · obtain ⟨hlt', -⟩ := List.getElem?_eq_some_iff.mp hn
      obtain rfl : n = log.length := by
        rw [List.length_append, List.length_singleton] at hlt'
        omega
      obtain rfl : a = b := by simpa using hn
      simpa using ha

/-- Entries that stand in the relation to every past. -/
theorem AtEach.append (h : AtEach P log) (htail : ∀ a ∈ tail, ∀ past, P past a) :
    AtEach P (log ++ tail) := by
  induction tail using List.reverseRecOn with
  | nil => simpa using h
  | append_singleton tail a ih =>
      rw [← List.append_assoc, atEach_concat_iff]
      exact ⟨ih fun b hb => htail b (List.mem_append_left _ hb), htail a (by simp) _⟩

end TimeLine

end Transition
