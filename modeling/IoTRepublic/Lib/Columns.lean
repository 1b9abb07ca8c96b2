import Mathlib.Tactic

/-!
# IoTRepublic.Lib.Columns

Sequences of columns, each closed by a separator. `column sep k l` is what a scan
finds between the `k`-th separator and the next one, and `columnStart sep k l` is
the position it starts at; both are total, and on an unterminated column the scan
runs to the end of the list.

Three facts carry the users of this file: a column that is terminated does not
depend on what follows (`column_append`), looking a column up undoes joining
(`column_joinColumns`), and so does a scan that collects one column after the other
(`foldlM_scanStep_joinColumns`).
-/

namespace Columns

variable {α : Type*} [DecidableEq α] (sep : α)

/-- The elements up to the first separator. -/
def firstColumn (l : List α) : List α := l.takeWhile (· ≠ sep)

/-- The elements after the first separator. -/
def afterColumn (l : List α) : List α := l.drop ((firstColumn sep l).length + 1)

/-- The column after `k` separators. -/
def column : Nat → List α → List α
  | 0, l => firstColumn sep l
  | k + 1, l => column k (afterColumn sep l)

/-- The position at which column `k` starts. -/
def columnStart : Nat → List α → Nat
  | 0, _ => 0
  | k + 1, l => (firstColumn sep l).length + 1 + columnStart k (afterColumn sep l)

/-- Columns written one after the other, each closed by the separator. -/
def joinColumns (cols : List (List α)) : List α := cols.flatMap (· ++ [sep])

omit [DecidableEq α] in
@[simp] theorem joinColumns_nil : joinColumns sep [] = [] := rfl

omit [DecidableEq α] in
@[simp] theorem joinColumns_cons (c : List α) (cols : List (List α)) :
    joinColumns sep (c :: cols) = c ++ sep :: joinColumns sep cols := by
  simp [joinColumns]

omit [DecidableEq α] in
theorem joinColumns_length (cols : List (List α)) :
    (joinColumns sep cols).length = (cols.map (fun c => c.length + 1)).sum := by
  induction cols with
  | nil => rfl
  | cons c cols ih =>
      simp only [joinColumns_cons, List.length_append, List.length_cons, ih, List.map_cons,
        List.sum_cons]
      omega

/-! ### One column -/

theorem sep_notMem_firstColumn (l : List α) : sep ∉ firstColumn sep l := by
  intro h
  have hall := List.all_takeWhile (l := l) (p := (· ≠ sep))
  simpa using List.all_eq_true.mp hall sep h

theorem firstColumn_append_sep {c : List α} (hc : sep ∉ c) (r : List α) :
    firstColumn sep (c ++ sep :: r) = c := by
  have hne : ∀ a ∈ c, decide (a ≠ sep) = true := by
    intro a ha
    simp only [decide_eq_true_eq]
    rintro rfl
    exact hc ha
  rw [firstColumn, List.takeWhile_append_of_pos hne]
  simp

theorem afterColumn_append_sep {c : List α} (hc : sep ∉ c) (r : List α) :
    afterColumn sep (c ++ sep :: r) = r := by
  rw [afterColumn, firstColumn_append_sep sep hc, List.drop_append,
    List.drop_of_length_le (by omega)]
  simp

/-- A list with a separator splits at the first one. -/
theorem eq_firstColumn_append {l : List α} (h : sep ∈ l) :
    l = firstColumn sep l ++ sep :: afterColumn sep l := by
  induction l with
  | nil => simp at h
  | cons a l ih =>
      by_cases ha : a = sep
      · subst ha
        simp [firstColumn, afterColumn]
      · have hl : sep ∈ l := by
          rcases List.mem_cons.mp h with h | h
          · exact absurd h.symm ha
          · exact h
        have hf : firstColumn sep (a :: l) = a :: firstColumn sep l := by
          simp [firstColumn, ha]
        have hg : afterColumn sep (a :: l) = afterColumn sep l := by
          simp [afterColumn, hf]
        rw [hf, hg, List.cons_append, ← ih hl]

theorem count_eq_afterColumn {l : List α} (h : sep ∈ l) :
    l.count sep = (afterColumn sep l).count sep + 1 := by
  have hl := eq_firstColumn_append sep h
  have hz : (firstColumn sep l).count sep = 0 :=
    List.count_eq_zero.mpr (sep_notMem_firstColumn sep l)
  calc l.count sep = (firstColumn sep l ++ sep :: afterColumn sep l).count sep := by rw [← hl]
    _ = (afterColumn sep l).count sep + 1 := by
        rw [List.count_append, hz, List.count_cons_self, Nat.zero_add]

theorem mem_of_lt_count {l : List α} {k : Nat} (h : k < l.count sep) : sep ∈ l :=
  List.count_pos_iff.mp (by omega)

/-! ### Many columns -/

theorem sep_notMem_column : ∀ (k : Nat) (l : List α), sep ∉ column sep k l
  | 0, l => sep_notMem_firstColumn sep l
  | k + 1, l => sep_notMem_column k (afterColumn sep l)

/-- Scanning from where column `k` starts finds column `k`. -/
theorem firstColumn_drop_columnStart :
    ∀ (k : Nat) (l : List α), firstColumn sep (l.drop (columnStart sep k l)) = column sep k l
  | 0, l => by simp [columnStart, column]
  | k + 1, l => by
      rw [columnStart, ← List.drop_drop]
      exact firstColumn_drop_columnStart k (afterColumn sep l)

theorem columnStart_succ :
    ∀ (k : Nat) (l : List α),
      columnStart sep (k + 1) l = columnStart sep k l + (column sep k l).length + 1
  | 0, l => by simp [columnStart, column]
  | k + 1, l => by
      rw [columnStart, columnStart_succ k (afterColumn sep l), columnStart, column]
      omega

/-- The first `k` columns, when they are all terminated, are a prefix of the list. -/
theorem eq_joinColumns_append {l : List α} :
    ∀ {k : Nat}, k ≤ l.count sep →
      l = joinColumns sep ((List.range k).map (column sep · l))
        ++ l.drop (columnStart sep k l) := by
  intro k
  induction k generalizing l with
  | zero => intro _; simp [columnStart]
  | succ k ih =>
      intro h
      have hmem : sep ∈ l := mem_of_lt_count sep h
      have hcount := count_eq_afterColumn sep hmem
      have hrec := ih (l := afterColumn sep l) (by omega)
      have hdrop : (afterColumn sep l).drop (columnStart sep k (afterColumn sep l))
          = l.drop (columnStart sep (k + 1) l) := by
        rw [columnStart, ← List.drop_drop]
        rfl
      rw [List.range_succ_eq_map, List.map_cons, List.map_map, joinColumns_cons, ← hdrop]
      calc l = firstColumn sep l ++ sep :: afterColumn sep l := eq_firstColumn_append sep hmem
        _ = firstColumn sep l ++ sep ::
              (joinColumns sep ((List.range k).map (column sep · (afterColumn sep l)))
                ++ (afterColumn sep l).drop (columnStart sep k (afterColumn sep l))) := by
            rw [← hrec]
        _ = _ := by
            rw [List.append_assoc, List.cons_append]
            rfl

/-- A terminated column does not depend on what follows. -/
theorem column_append {l : List α} (r : List α) {k : Nat} (h : k < l.count sep) :
    column sep k (l ++ r) = column sep k l := by
  induction k generalizing l with
  | zero =>
      have hl := eq_firstColumn_append sep (mem_of_lt_count sep h)
      rw [column, column]
      conv_lhs => rw [hl, List.append_assoc, List.cons_append]
      exact firstColumn_append_sep sep (sep_notMem_firstColumn sep l) _
  | succ k ih =>
      have hmem : sep ∈ l := mem_of_lt_count sep h
      have hcount := count_eq_afterColumn sep hmem
      have hafter : afterColumn sep (l ++ r) = afterColumn sep l ++ r := by
        conv_lhs => rw [eq_firstColumn_append sep hmem, List.append_assoc, List.cons_append]
        exact afterColumn_append_sep sep (sep_notMem_firstColumn sep l) _
      rw [column, column, hafter]
      exact ih (by omega)

/-- Scanning undoes joining. -/
theorem column_joinColumns {cols : List (List α)} (hsep : ∀ c ∈ cols, sep ∉ c) (r : List α) :
    ∀ {k : Nat} (hk : k < cols.length),
      column sep k (joinColumns sep cols ++ r) = cols[k] := by
  intro k
  induction k generalizing cols with
  | zero =>
      intro hk
      obtain ⟨c, cs, rfl⟩ := List.exists_cons_of_length_pos hk
      rw [joinColumns_cons, List.append_assoc, List.cons_append, column,
        firstColumn_append_sep sep (hsep c List.mem_cons_self)]
      rfl
  | succ k ih =>
      intro hk
      obtain ⟨c, cs, rfl⟩ := List.exists_cons_of_length_pos (by omega : 0 < cols.length)
      rw [joinColumns_cons, List.append_assoc, List.cons_append, column,
        afterColumn_append_sep sep (hsep c List.mem_cons_self),
        ih (fun x hx => hsep x (List.mem_cons_of_mem _ hx)) (by simpa using hk)]
      rfl

theorem count_joinColumns {cols : List (List α)} (hsep : ∀ c ∈ cols, sep ∉ c) :
    (joinColumns sep cols).count sep = cols.length := by
  induction cols with
  | nil => rfl
  | cons c cs ih =>
      have hz : c.count sep = 0 := List.count_eq_zero.mpr (hsep c List.mem_cons_self)
      rw [joinColumns_cons, List.count_append, hz, List.count_cons_self,
        ih (fun x hx => hsep x (List.mem_cons_of_mem _ hx)), List.length_cons]
      omega

/-! ### Scanning column by column -/

section Scan

universe u v

variable {m : Type u → Type v} [Monad m] {α σ : Type u} [DecidableEq α] (sep : α)
  {act : σ → List α → m σ}

/-- One step of a scan that collects a column, and hands it over at the separator. -/
def scanStep (act : σ → List α → m σ) (s : σ × List α) (a : α) : m (σ × List α) :=
  if a = sep then (do return (← act s.1 s.2, [])) else pure (s.1, s.2 ++ [a])

variable [LawfulMonad m]

theorem foldlM_scanStep_column {c : List α} (hc : sep ∉ c) (s : σ) (collected : List α) :
    c.foldlM (scanStep sep act) (s, collected) = pure (s, collected ++ c) := by
  induction c generalizing collected with
  | nil => simp
  | cons a c ih =>
      rw [List.mem_cons, not_or] at hc
      obtain ⟨ha, hc⟩ := hc
      rw [List.foldlM_cons, scanStep, if_neg (Ne.symm ha), pure_bind, ih hc, List.append_assoc]
      rfl

/-- A scan of joined columns hands them over one after the other. -/
theorem foldlM_scanStep_joinColumns {cols : List (List α)} (hcols : ∀ c ∈ cols, sep ∉ c) (s : σ) :
    (joinColumns sep cols).foldlM (scanStep sep act) (s, [])
      = (do return (← cols.foldlM act s, [])) := by
  induction cols generalizing s with
  | nil => simp
  | cons c cols ih =>
      obtain ⟨hc, hcols⟩ := List.forall_mem_cons.mp hcols
      rw [joinColumns_cons, List.foldlM_append, foldlM_scanStep_column sep hc, pure_bind,
        List.nil_append, List.foldlM_cons, scanStep, if_pos rfl, List.foldlM_cons, bind_assoc,
        bind_assoc]
      refine bind_congr fun s' => ?_
      rw [pure_bind, ih hcols]

end Scan

end Columns
