import IoTRepublic.Jansson.Value
import IoTRepublic.Jansson.HashtableSound
import IoTRepublic.Lib.KeyedTable

/-!
# IoTRepublic.Jansson.ObjectSound

An object is a list of members in the order in which their keys came to it, whatever
the hash table does with them: iteration visits them in some order, and sorting by
serials restores the one of addition.

Main result: `Object.run_observed`, over all rows of operations.

An object counts the calls that add to it, and gives the count to the pair that is added.
The hash table may put the pair anywhere; the counts are distinct and go up, so sorting by
them is all that is needed to undo it (`Holds.sort_map`). A member that is replaced keeps
its serial, as it keeps its place in the list of members.
-/

namespace IoTRepublic

open Cpp

namespace LibJansson

variable {α : Type} {hashStr : Text → Nat}

/-- The members a list of pairs stands for. -/
def entries (pairs : List (Pair α)) : List (Text × α) := pairs.map fun p => (p.key, p.value)

/-- What a member is under a key. -/
def lookup (members : List (Text × α)) (key : Text) : Option α :=
  (members.find? (·.1 = key)).map (·.2)

theorem lookup_entries (pairs : List (Pair α)) (key : Text) :
    lookup (entries pairs) key = (pairs.find? (·.key = key)).map (·.value) := by
  rw [lookup, entries, List.find?_map, Option.map_map]
  rfl

theorem lookup_of_mem {members : List (Text × α)} (hnodup : (members.map (·.1)).Nodup)
    {m : Text × α} (hm : m ∈ members) : lookup members m.1 = some m.2 := by
  rw [lookup]
  cases hfind : members.find? (·.1 = m.1) with
  | none => simpa using List.find?_eq_none.mp hfind m hm
  | some m' =>
      have hkey : m'.1 = m.1 := by simpa using List.find?_some hfind
      rw [List.inj_on_of_nodup_map hnodup (List.mem_of_find?_eq_some hfind) hm hkey]
      rfl

@[simp] theorem map_fst_entries (pairs : List (Pair α)) :
    (entries pairs).map (·.1) = pairs.map (·.key) := by
  rw [entries, List.map_map]
  rfl

/-- The order does not matter where no key comes twice. -/
theorem find?_key_perm {list list' : List (Pair α)} (hperm : list.Perm list')
    (hnodup : (list.map (·.key)).Nodup) (key : Text) :
    list.find? (·.key = key) = list'.find? (·.key = key) := by
  cases hfind : list'.find? (·.key = key) with
  | none =>
      rw [Hashtable.find?_key_eq_none_iff] at hfind ⊢
      exact fun hmem => hfind ((hperm.map _).mem_iff.mp hmem)
  | some p =>
      have hp := hperm.mem_iff.mpr (List.mem_of_find?_eq_some hfind)
      have hkey : p.key = key := by simpa using List.find?_some hfind
      cases hother : list.find? (·.key = key) with
      | none =>
          rw [Hashtable.find?_key_eq_none_iff] at hother
          exact absurd (hkey ▸ List.mem_map_of_mem hp) hother
      | some q =>
          have hq : q.key = key := by simpa using List.find?_some hother
          rw [List.inj_on_of_nodup_map hnodup (List.mem_of_find?_eq_some hother) hp
            (hq.trans hkey.symm)]

/-! ### The operations -/

namespace Object

/-- The pairs of an object, in the order in which they have been added. -/
structure Holds (hashStr : Text → Nat) (object : Object α) (pairs : List (Pair α)) : Prop where
  valid : object.hashtable.Valid hashStr
  perm : pairs.Perm object.hashtable.list
  sorted : pairs.Pairwise (·.serial < ·.serial)
  below : ∀ p ∈ pairs, p.serial < object.serial

/-- A member is replaced where it is, or added behind the others. -/
def addPair (hashStr : Text → Nat) (pairs : List (Pair α)) (key : Text) (serial : Nat) (value : α) :
    List (Pair α) :=
  if key ∈ pairs.map (·.key) then Hashtable.replace pairs key value
  else pairs ++ [{ hash := hashStr key, key, value, serial }]

variable {object : Object α} {pairs : List (Pair α)}

theorem Holds.nodup (h : object.Holds hashStr pairs) : (pairs.map (·.key)).Nodup :=
  (h.perm.map _).nodup_iff.mpr h.valid.nodup

theorem holds_create : (create : Object α).Holds hashStr [] where
  valid := Hashtable.valid_init
  perm := .refl _
  sorted := .nil
  below := by simp

theorem holds_clear (object : Object α) : object.clear.Holds hashStr [] where
  valid := Hashtable.valid_clear _
  perm := .refl _
  sorted := .nil
  below := by simp

theorem map_serial_replace (pairs : List (Pair α)) (key : Text) (value : α) :
    (Hashtable.replace pairs key value).map (·.serial) = pairs.map (·.serial) := by
  rw [Hashtable.replace, List.map_map]
  refine List.map_congr_left fun p _ => ?_
  simp only [Function.comp_apply]
  split <;> rfl

theorem Holds.setNocheck (h : object.Holds hashStr pairs) (key : Text) (value : α) :
    (object.setNocheck hashStr key value).Holds hashStr
      (addPair hashStr pairs key object.serial value) := by
  obtain ⟨hvalid, hlist⟩ := h.valid.set key object.serial value
  have hmem : key ∈ pairs.map (·.key) ↔ key ∈ object.hashtable.list.map (·.key) :=
    (h.perm.map _).mem_iff
  rw [addPair]
  split
  · rename_i hkey
    rw [if_pos (hmem.mp hkey)] at hlist
    have hserials := map_serial_replace pairs key value
    refine ⟨hvalid, (h.perm.map _).trans hlist.symm, ?_, fun p hp => ?_⟩
    · rw [← List.pairwise_map (f := Pair.serial), hserials, List.pairwise_map]
      exact h.sorted
    · have hserial : p.serial ∈ pairs.map (·.serial) := hserials ▸ List.mem_map_of_mem hp
      obtain ⟨q, hq, heq⟩ := List.mem_map.mp hserial
      rw [← heq]
      exact (h.below q hq).trans (Nat.lt_succ_self _)
  · rename_i hkey
    rw [if_neg (mt hmem.mpr hkey)] at hlist
    refine ⟨hvalid, ?_, ?_, fun p hp => ?_⟩
    · exact (List.perm_append_singleton _ _).trans ((h.perm.cons _).trans hlist.symm)
    · rw [List.pairwise_append]
      refine ⟨h.sorted, List.pairwise_singleton _ _, fun p hp q hq => ?_⟩
      rw [List.mem_singleton.mp hq]
      exact h.below p hp
    · cases List.mem_append.mp hp with
      | inl hp => exact (h.below p hp).trans (Nat.lt_succ_self _)
      | inr hp =>
          rw [List.mem_singleton.mp hp]
          exact Nat.lt_succ_self _

theorem Holds.del (h : object.Holds hashStr pairs) (key : Text) :
    match object.del hashStr key with
    | none => key ∉ pairs.map (·.key)
    | some object' => key ∈ pairs.map (·.key)
        ∧ object'.Holds hashStr (pairs.filter (·.key ≠ key)) := by
  have hdel := h.valid.doDel key
  have hmem : key ∈ pairs.map (·.key) ↔ key ∈ object.hashtable.list.map (·.key) :=
    (h.perm.map _).mem_iff
  rw [Object.del]
  cases htable : object.hashtable.doDel hashStr key with
  | none =>
      rw [htable] at hdel
      exact mt hmem.mp hdel
  | some hashtable =>
      rw [htable] at hdel
      obtain ⟨hkey, hvalid, hlist⟩ := hdel
      refine ⟨hmem.mpr hkey, hvalid, ?_, h.sorted.filter _, fun p hp => ?_⟩
      · dsimp only
        rw [hlist]
        exact h.perm.filter _
      · exact h.below p (List.mem_filter.mp hp).1

/-! ### What can be observed -/

theorem Holds.get_eq (h : object.Holds hashStr pairs) (key : Text) :
    object.get hashStr key = lookup (entries pairs) key := by
  rw [get, h.valid.get_eq, lookup_entries, find?_key_perm h.perm h.nodup]

theorem Holds.size_eq (h : object.Holds hashStr pairs) : object.size = pairs.length := by
  rw [size, h.valid.size, h.perm.length_eq]

/-- Sorting by the serials restores the order of addition, whatever is kept of the pairs. -/
theorem Holds.sort_map {β : Type} (h : object.Holds hashStr pairs) (g : Pair α → β) :
    (object.hashtable.list.map fun p => (p.serial, g p)).mergeSort (fun a b => a.1 ≤ b.1)
      = pairs.map fun p => (p.serial, g p) := by
  let keyed : List (Nat × β) := object.hashtable.list.map fun p => (p.serial, g p)
  have hperm : (keyed.mergeSort (fun a b => a.1 ≤ b.1)).Perm
      (pairs.map fun p => (p.serial, g p)) :=
    (List.mergeSort_perm _ _).trans (h.perm.map _).symm
  have hserials : ((pairs.map fun p => (p.serial, g p)).map (·.1)).Pairwise (· < ·) := by
    rw [List.map_map, List.pairwise_map]
    exact h.sorted
  have hsorted : (keyed.mergeSort fun a b => a.1 ≤ b.1).Pairwise (·.1 ≤ ·.1) := by
    have hsort := @List.pairwise_mergeSort _ (fun a b : Nat × β => decide (a.1 ≤ b.1))
      (fun a b c hab hbc => by simp only [decide_eq_true_eq] at *; exact hab.trans hbc)
      (fun a b => by simpa using Nat.le_total a.1 b.1) keyed
    simpa using hsort
  have hadded : (pairs.map fun p => (p.serial, g p)).Pairwise (·.1 ≤ ·.1) :=
    (List.pairwise_map.mp hserials).imp Nat.le_of_lt
  refine hperm.eq_of_pairwise (fun a b ha hb hle hge => ?_) hsorted hadded
  exact List.inj_on_of_nodup_map hserials.nodup (hperm.mem_iff.mp ha) hb (Nat.le_antisymm hle hge)

theorem Holds.sort_iter (h : object.Holds hashStr pairs) :
    object.iter.mergeSort (fun a b => a.1 ≤ b.1) = pairs.map fun p => (p.serial, p.key) :=
  h.sort_map (·.key)

/-! ### Rows of operations -/

/-- What is done to an object: a member is set or deleted, or all of them go. -/
inductive Op (α : Type)
  | set (key : Text) (value : α)
  | del (key : Text)
  | clear

/-- An operation that fails changes nothing. -/
def apply (hashStr : Text → Nat) (object : Object α) : Op α → Object α
  | .set key value => (object.set hashStr key value).getD object
  | .del key => (object.del hashStr key).getD object
  | .clear => object.clear

/-- The operations on the members: what they are for, without hash table and serials. A
key that is no UTF-8 is not set. -/
def applyMembers (members : List (Text × α)) : Op α → List (Text × α)
  | .set key value =>
    if utf8CheckString key then KeyedTable.put Prod.fst members (key, value) else members
  | .del key => members.filter (·.1 ≠ key)
  | .clear => []

theorem entries_addPair (hnodup : (pairs.map (·.key)).Nodup) (key : Text) (serial : Nat)
    (value : α) :
    entries (addPair hashStr pairs key serial value)
      = KeyedTable.put Prod.fst (entries pairs) (key, value) := by
  rw [← map_fst_entries] at hnodup
  rw [addPair]
  split
  · rename_i hmem
    rw [KeyedTable.put_eq_map hnodup (by rwa [map_fst_entries]), entries, entries,
      Hashtable.replace, List.map_map, List.map_map]
    refine List.map_congr_left fun p _ => ?_
    simp only [Function.comp_apply]
    by_cases hkey : p.key = key
    · rw [if_pos hkey, if_pos hkey, hkey]
    · rw [if_neg hkey, if_neg hkey]
  · rename_i hnew
    rw [KeyedTable.put_eq_append (by rwa [map_fst_entries])]
    simp [entries]

theorem entries_filter (pairs : List (Pair α)) (key : Text) :
    entries (pairs.filter (·.key ≠ key)) = (entries pairs).filter (·.1 ≠ key) := by
  rw [entries, entries, List.filter_map]
  rfl

theorem Holds.apply (h : object.Holds hashStr pairs) (op : Op α) :
    ∃ pairs', (object.apply hashStr op).Holds hashStr pairs'
      ∧ entries pairs' = applyMembers (entries pairs) op := by
  cases op with
  | set key value =>
      rw [Object.apply, Object.set, applyMembers]
      split
      · exact ⟨_, h.setNocheck key value, entries_addPair h.nodup _ _ _⟩
      · exact ⟨pairs, h, rfl⟩
  | del key =>
      have hdel := h.del key
      rw [Object.apply, applyMembers, ← entries_filter]
      cases hresult : object.del hashStr key with
      | none =>
          rw [hresult] at hdel
          have hkeep : pairs.filter (·.key ≠ key) = pairs := by
            refine List.filter_eq_self.mpr fun p hp => ?_
            have hne : p.key ≠ key := fun heq => hdel (heq ▸ List.mem_map_of_mem hp)
            simpa using hne
          exact ⟨pairs, h, by rw [hkeep]⟩
      | some object' =>
          rw [hresult] at hdel
          exact ⟨_, hdel.2, rfl⟩
  | clear => exact ⟨[], holds_clear object, rfl⟩

theorem Holds.foldl_apply (h : object.Holds hashStr pairs) (ops : List (Op α)) :
    ∃ pairs', (ops.foldl (Object.apply hashStr) object).Holds hashStr pairs'
      ∧ entries pairs' = ops.foldl applyMembers (entries pairs) := by
  induction ops generalizing object pairs with
  | nil => exact ⟨pairs, h, rfl⟩
  | cons op ops ih =>
      obtain ⟨next, hnext, hentries⟩ := h.apply op
      obtain ⟨last, hlast, hrest⟩ := ih hnext
      exact ⟨last, hlast, by rw [hrest, hentries, List.foldl_cons]⟩

/-- What the accessors tell about an object with the members. -/
structure Observed (hashStr : Text → Nat) (object : Object α) (members : List (Text × α)) :
    Prop where
  size : object.size = members.length
  get (key : Text) : object.get hashStr key = lookup members key
  /-- Every key is visited once. -/
  iter : (object.iter.map (·.2)).Perm (members.map (·.1)) ∧ (object.iter.map (·.2)).Nodup
  /-- The members as they are printed. -/
  sorted : (object.iter.mergeSort fun a b => a.1 ≤ b.1).map (fun k => (k.2, object.get hashStr k.2))
    = members.map fun m => (m.1, some m.2)

theorem Holds.observed (h : object.Holds hashStr pairs) :
    object.Observed hashStr (entries pairs) where
  size := by rw [h.size_eq, entries, List.length_map]
  get := h.get_eq
  iter := by
    have hkeys : object.iter.map (·.2) = object.hashtable.list.map (·.key) := by
      rw [iter, List.map_map]
      rfl
    rw [hkeys, map_fst_entries]
    exact ⟨(h.perm.map _).symm, h.valid.nodup⟩
  sorted := by
    have hnodup : ((entries pairs).map (·.1)).Nodup := by
      rw [map_fst_entries]
      exact h.nodup
    rw [h.sort_iter, List.map_map, entries, List.map_map]
    refine List.map_congr_left fun p hp => ?_
    have hmem : (p.key, p.value) ∈ entries pairs := List.mem_map.mpr ⟨p, hp, rfl⟩
    simp only [Function.comp_apply, h.get_eq]
    exact congrArg (p.key, ·) (lookup_of_mem hnodup hmem)

/-- Whatever has been done to an object, and whatever the hash function: it is the list of
its members, in the order of addition. -/
theorem run_observed (hashStr : Text → Nat) (ops : List (Op α)) :
    (ops.foldl (Object.apply hashStr) create).Observed hashStr (ops.foldl applyMembers []) := by
  have hcreate : (create : Object α).Holds hashStr [] := holds_create
  obtain ⟨pairs, hholds, hentries⟩ := hcreate.foldl_apply ops
  rw [← show entries pairs = ops.foldl applyMembers [] from hentries]
  exact hholds.observed

end Object

end LibJansson

end IoTRepublic
