import Mathlib.Tactic

/-!
# IoTRepublic.Lib.KeyedTable

A list of entries with a key. `put` writes an entry over the first with its key, in
its place, or behind the others where there is none.

After any row of such writes the table holds, for each key, the entry written last
(`mem_putAll_iff`), once (`nodup_putAll`) and where the key first went
(`getElem?_put_iff`). A search by another attribute that tells the entries apart
finds exactly the entries still in the table (`findIdx?_putAll`).
-/

namespace KeyedTable

variable {α κ β : Type*} {key : α → κ} {table : List α} {a b : α}

/-- Writes an entry over the first one with its key, or appends it. -/
def put [DecidableEq κ] (key : α → κ) (table : List α) (a : α) : List α :=
  match table.findIdx? (key · = key a) with
  | some i => table.set i a
  | none => table ++ [a]

/-- The table after a row of writes. -/
def putAll [DecidableEq κ] (key : α → κ) (entries : List α) : List α := entries.foldl (put key) []

/-- The entry is written, and nothing with its key after it. -/
def Latest (key : α → κ) (entries : List α) (a : α) : Prop :=
  ∃ before after, entries = before ++ a :: after ∧ ∀ b ∈ after, key b ≠ key a

/-! ### Entries -/

theorem latest_concat_iff {entries : List α} :
    Latest key (entries ++ [a]) b ↔ b = a ∨ (Latest key entries b ∧ key b ≠ key a) := by
  constructor
  · intro h
    obtain ⟨before, after, heq, hafter⟩ := h
    rcases List.eq_nil_or_concat after with rfl | ⟨after, c, rfl⟩
    · exact .inl (List.append_inj_right' heq rfl |> List.singleton_inj.mp).symm
    · rw [List.concat_eq_append, ← List.cons_append, ← List.append_assoc] at heq
      rw [List.concat_eq_append] at hafter
      obtain ⟨rfl, hc⟩ := List.append_inj' heq rfl
      obtain rfl := List.singleton_inj.mp hc
      refine .inr ⟨⟨before, after, rfl, fun d hd => hafter d (List.mem_append_left _ hd)⟩, ?_⟩
      exact (hafter a (List.mem_append_right _ List.mem_cons_self)).symm
  · intro h
    rcases h with rfl | ⟨⟨before, after, rfl, hafter⟩, hne⟩
    · exact ⟨entries, [], rfl, by simp⟩
    · refine ⟨before, after ++ [a], by simp, fun c hc => ?_⟩
      rcases List.mem_append.mp hc with hc | hc
      · exact hafter c hc
      · rw [List.mem_singleton.mp hc]
        exact hne.symm

theorem Latest.mem {entries : List α} (h : Latest key entries a) : a ∈ entries := by
  obtain ⟨before, after, rfl, -⟩ := h
  simp

/-- Every key that was written has a latest entry. -/
theorem exists_latest {entries : List α} (h : a ∈ entries) :
    ∃ b, Latest key entries b ∧ key b = key a := by
  induction entries using List.reverseRecOn with
  | nil => cases h
  | append_singleton entries c ih =>
      by_cases hkey : key a = key c
      · exact ⟨c, latest_concat_iff.mpr (.inl rfl), hkey.symm⟩
      · rcases List.mem_append.mp h with h | h
        · obtain ⟨b, hb, hb'⟩ := ih h
          exact ⟨b, latest_concat_iff.mpr (.inr ⟨hb, by rw [hb']; exact hkey⟩), hb'⟩
        · rw [List.mem_singleton.mp h] at hkey
          exact absurd rfl hkey

/-- A write over an entry leaves the keys as they are. -/
theorem map_set_of_key {i : Nat} {old : α} (hi : table[i]? = some old) (hkey : key old = key a) :
    (table.set i a).map key = table.map key := by
  have hmap : (table.map key)[i]? = some (key a) := by simp [hi, hkey]
  obtain ⟨hlt, hget⟩ := List.getElem?_eq_some_iff.mp hmap
  rw [List.map_set, ← hget, List.set_getElem_self]

variable [DecidableEq κ]

/-! ### One write -/

theorem put_cases (key : α → κ) (table : List α) (a : α) :
    (∃ (i : Nat) (old : α), table[i]? = some old ∧ key old = key a ∧
        put key table a = table.set i a) ∨
      (∀ b ∈ table, key b ≠ key a) ∧ put key table a = table ++ [a] := by
  unfold put
  cases hfind : table.findIdx? (key · = key a) with
  | some i =>
      obtain ⟨hlt, hkey, -⟩ := List.findIdx?_eq_some_iff_getElem.mp hfind
      exact .inl ⟨i, table[i], List.getElem?_eq_getElem hlt, of_decide_eq_true hkey, rfl⟩
  | none =>
      refine .inr ⟨fun b hb => ?_, rfl⟩
      simpa using List.findIdx?_eq_none_iff.mp hfind b hb

/-- A write over the entry with the key, as a write over every entry with it. -/
theorem put_eq_map (h : (table.map key).Nodup) (hmem : key a ∈ table.map key) :
    put key table a = table.map fun b => if key b = key a then a else b := by
  rcases put_cases key table a with ⟨i, old, hi, hkey, hput⟩ | ⟨hnew, -⟩
  · obtain ⟨hlt, hold⟩ := List.getElem?_eq_some_iff.mp hi
    rw [hput]
    refine List.ext_getElem (by simp) fun j hj hj' => ?_
    rw [List.length_set] at hj
    rw [List.getElem_set, List.getElem_map]
    by_cases hij : i = j
    · subst hij
      rw [if_pos rfl, if_pos (by rw [hold, hkey])]
    · have hne : key table[j] ≠ key a := by
        intro heq
        have hlt' : i < (table.map key).length := by rwa [List.length_map]
        have hj'' : j < (table.map key).length := by rwa [List.length_map]
        have hget : (table.map key)[i] = (table.map key)[j] := by
          rw [List.getElem_map, List.getElem_map, hold, hkey, heq]
        exact hij (h.getElem_inj_iff.mp hget)
      rw [if_neg hij, if_neg hne]
  · obtain ⟨b, hb, hkey⟩ := List.mem_map.mp hmem
    exact absurd hkey (hnew b hb)

theorem put_eq_append (hnew : key a ∉ table.map key) : put key table a = table ++ [a] := by
  rcases put_cases key table a with ⟨i, old, hi, hkey, -⟩ | ⟨-, hput⟩
  · exact absurd (hkey ▸ List.mem_map_of_mem (List.mem_of_getElem? hi)) hnew
  · exact hput

theorem map_put_cases (key : α → κ) (table : List α) (a : α) :
    (key a ∈ table.map key ∧ (put key table a).map key = table.map key) ∨
      (key a ∉ table.map key ∧ (put key table a).map key = table.map key ++ [key a]) := by
  rcases put_cases key table a with ⟨i, old, hi, hkey, hput⟩ | ⟨hnew, hput⟩
  · refine .inl ⟨?_, hput ▸ map_set_of_key hi hkey⟩
    exact hkey ▸ List.mem_map_of_mem (List.mem_of_getElem? hi)
  · refine .inr ⟨fun hmem => ?_, by rw [hput, List.map_append]; rfl⟩
    obtain ⟨b, hb, hkey⟩ := List.mem_map.mp hmem
    exact hnew b hb hkey

theorem nodup_put (h : (table.map key).Nodup) (a : α) : ((put key table a).map key).Nodup := by
  rcases map_put_cases key table a with ⟨-, hmap⟩ | ⟨hnew, hmap⟩
  · rw [hmap]
    exact h
  · rw [hmap, List.nodup_append]
    refine ⟨h, List.nodup_singleton _, fun k hk k' hk' => ?_⟩
    obtain rfl := List.mem_singleton.mp hk'
    rintro rfl
    exact hnew hk

/-- The entries with other keys stay, and where they are. -/
theorem getElem?_put_iff (hne : key b ≠ key a) (i : Nat) :
    (put key table a)[i]? = some b ↔ table[i]? = some b := by
  have hba : a ≠ b := by
    rintro rfl
    exact hne rfl
  rcases put_cases key table a with ⟨j, old, hj, hkey, hput⟩ | ⟨-, hput⟩
  · rw [hput, List.getElem?_set]
    by_cases hij : j = i
    · subst hij
      rw [if_pos rfl, hj]
      have hold : old ≠ b := by
        rintro rfl
        exact hne hkey
      split
      · simp [hba, hold]
      · simp [hold]
    · rw [if_neg hij]
  · rw [hput, List.getElem?_append]
    split
    · rfl
    · rename_i hlen
      rw [List.getElem?_eq_none (Nat.not_lt.mp hlen), List.getElem?_singleton]
      split <;> simp [hba]

theorem mem_put_self (key : α → κ) (table : List α) (a : α) : a ∈ put key table a := by
  rcases put_cases key table a with ⟨i, old, hi, -, hput⟩ | ⟨-, hput⟩
  · rw [hput]
    obtain ⟨hlt, -⟩ := List.getElem?_eq_some_iff.mp hi
    exact List.mem_set hlt a
  · rw [hput]
    exact List.mem_append_right _ List.mem_cons_self

/-- The entry written, and the entries with other keys. -/
theorem mem_put_iff (h : (table.map key).Nodup) (a b : α) :
    b ∈ put key table a ↔ b = a ∨ (b ∈ table ∧ key b ≠ key a) := by
  by_cases hkey : key b = key a
  · constructor
    · intro hb
      exact .inl (List.inj_on_of_nodup_map (nodup_put h a) hb (mem_put_self key table a) hkey)
    · intro hb
      rcases hb with rfl | ⟨-, hne⟩
      · exact mem_put_self key table b
      · exact absurd hkey hne
  · have hne : b ≠ a := by
      rintro rfl
      exact hkey rfl
    simp only [hne, hkey, not_false_eq_true, and_true, false_or, ne_eq]
    rw [List.mem_iff_getElem?, List.mem_iff_getElem?]
    exact exists_congr fun i => getElem?_put_iff hkey i

/-! ### A row of writes -/

theorem putAll_concat (key : α → κ) (entries : List α) (a : α) :
    putAll key (entries ++ [a]) = put key (putAll key entries) a := by
  rw [putAll, List.foldl_append]
  rfl

theorem nodup_putAll (key : α → κ) (entries : List α) : ((putAll key entries).map key).Nodup := by
  induction entries using List.reverseRecOn with
  | nil => exact List.nodup_nil
  | append_singleton entries a ih =>
      rw [putAll_concat]
      exact nodup_put ih a

/-- The table holds the latest entries, one for each key, and no others. -/
theorem mem_putAll_iff {entries : List α} : a ∈ putAll key entries ↔ Latest key entries a := by
  induction entries using List.reverseRecOn with
  | nil =>
      refine iff_of_false (by simp [putAll]) fun h => ?_
      obtain ⟨before, after, heq, -⟩ := h
      simp at heq
  | append_singleton entries b ih =>
      rw [putAll_concat, mem_put_iff (nodup_putAll key entries), ih, latest_concat_iff]

/-- There is one entry for each key. -/
theorem length_putAll (key : α → κ) (entries : List α) :
    (putAll key entries).length = (entries.map key).toFinset.card := by
  rw [← List.length_map key, ← List.toFinset_card_of_nodup (nodup_putAll key entries)]
  congr 1
  ext k
  simp only [List.mem_toFinset, List.mem_map, mem_putAll_iff]
  constructor
  · rintro ⟨b, hb, rfl⟩
    exact ⟨b, hb.mem, rfl⟩
  · rintro ⟨b, hb, rfl⟩
    exact exists_latest hb

/-- A search by an attribute no two writes share. -/
theorem findIdx?_putAll [DecidableEq β] {f : α → β} {entries : List α}
    (hf : (entries.map f).Nodup) (ha : a ∈ entries) :
    (Latest key entries a →
        ∃ i, (putAll key entries).findIdx? (f · = f a) = some i ∧
          (putAll key entries)[i]? = some a) ∧
      (¬ Latest key entries a → (putAll key entries).findIdx? (f · = f a) = none) := by
  have hsame : ∀ b ∈ putAll key entries, f b = f a → b = a := fun b hb hfb =>
    List.inj_on_of_nodup_map hf (mem_putAll_iff.mp hb).mem ha hfb
  constructor
  · intro hlatest
    cases hfind : (putAll key entries).findIdx? (f · = f a) with
    | none =>
        have hne := List.findIdx?_eq_none_iff.mp hfind a (mem_putAll_iff.mpr hlatest)
        simp at hne
    | some i =>
        obtain ⟨hlt, hi, -⟩ := List.findIdx?_eq_some_iff_getElem.mp hfind
        have ha' := hsame _ (List.getElem_mem hlt) (of_decide_eq_true hi)
        exact ⟨i, rfl, by rw [List.getElem?_eq_getElem hlt, ha']⟩
  · intro hnot
    refine List.findIdx?_eq_none_iff.mpr fun b hb => decide_eq_false fun hfb => ?_
    exact hnot (hsame b hb hfb ▸ mem_putAll_iff.mp hb)

end KeyedTable
