import IoTRepublic.Jansson.Hashtable
import IoTRepublic.Lib.Contiguous
import IoTRepublic.Lib.KeyedTable

/-!
# IoTRepublic.Jansson.HashtableSound

What the hash table is for: whatever the hash function, it is the list of its pairs,
and sorted by their serials these are the members in the order of addition.

The table is one doubly linked list in which the pairs of a bucket stand in a row, with
two pointers into it for each bucket. `Linked` says just that, and it is what inserting,
erasing and rehashing have to keep; that searching a bucket is searching the list then
follows (`Valid.findPair_eq`). A rehash, which may happen at any insertion, moves the rows
and leaves the pairs.

So the order of iteration depends on the hash function and on the whole history of the
table, and nothing about it is promised here but that the same pairs come.
-/

namespace IoTRepublic

open Cpp

namespace LibJansson

variable {α : Type}

/-- The index of the bucket a pair belongs to. -/
def Pair.cls (order : Nat) (pair : Pair α) : Nat := pair.hash % hashsize order

/-- The pairs of a bucket. -/
def run (order : Nat) (list : List (Pair α)) (i : Nat) : List (Pair α) :=
  list.filter (·.cls order = i)

/-- The pointers to the first and to the last of them. -/
def ends (run : List (Pair α)) : Bucket :=
  { first := run.head?.map (·.key), last := run.getLast?.map (·.key) }

namespace Hashtable

/-- The pairs of a bucket stand in a row, and the bucket points to both ends of it. -/
structure Linked (table : Hashtable α) : Prop where
  nodup : (table.list.map (·.key)).Nodup
  contiguous : Contiguous (Pair.cls table.order) table.list
  bucket : ∀ i, table.buckets i = ends (run table.order table.list i)

/-- What every operation keeps: the list and its buckets are linked, the size is right,
and every pair has the hash of its key. -/
structure Valid (hashStr : Text → Nat) (table : Hashtable α) : Prop extends Linked table where
  size : table.size = table.list.length
  hash : ∀ pair ∈ table.list, pair.hash = hashStr pair.key

variable {table : Hashtable α} {pair : Pair α} {list before after : List (Pair α)} {i : Nat}

theorem bucketIsEmpty_ends : bucketIsEmpty (ends list) = list.isEmpty := by
  cases list with
  | nil => rfl
  | cons pair list => simp [bucketIsEmpty, ends]

theorem key_ne_of_nodup {f : Pair α} (h : ((before ++ f :: after).map (·.key)).Nodup) :
    (∀ p ∈ before, p.key ≠ f.key) ∧ ∀ p ∈ after, p.key ≠ f.key := by
  rw [List.map_append, List.map_cons] at h
  have hnot := (List.nodup_middle.mp h).notMem
  simp only [List.mem_append, List.mem_map, not_or, not_exists, not_and] at hnot
  exact ⟨hnot.1, hnot.2⟩

theorem takeWhile_key {f : Pair α} (h : ∀ p ∈ before, p.key ≠ f.key) :
    (before ++ f :: after).takeWhile (some ·.key ≠ some f.key) = before
      ∧ (before ++ f :: after).dropWhile (some ·.key ≠ some f.key) = f :: after := by
  have hall : ∀ p ∈ before, decide (some p.key ≠ some f.key) = true := by simpa using h
  rw [List.takeWhile_append_of_pos hall, List.dropWhile_append_of_pos hall]
  simp

theorem listInsert_none : listInsert list none pair = list ++ [pair] := by
  have hall : ∀ p ∈ list, decide (some p.key ≠ none) = true := by simp
  rw [listInsert, List.takeWhile_eq_self_iff.mpr hall, List.dropWhile_eq_nil_iff.mpr hall]

theorem listInsert_key {f : Pair α} (h : ∀ p ∈ before, p.key ≠ f.key) :
    listInsert (before ++ f :: after) (some f.key) pair = before ++ pair :: f :: after := by
  rw [listInsert, (takeWhile_key h).1, (takeWhile_key h).2]

/-- The row of a bucket, and what is in front of it and behind it. -/
theorem Linked.split (h : table.Linked) (i : Nat) :
    ∃ before after, table.list = before ++ run table.order table.list i ++ after
      ∧ (∀ p ∈ before, p.cls table.order ≠ i) ∧ ∀ p ∈ after, p.cls table.order ≠ i :=
  h.contiguous.split i

theorem run_concat (order : Nat) (list : List (Pair α)) (pair : Pair α) (i : Nat) :
    run order (list ++ [pair]) i
      = run order list i ++ if pair.cls order = i then [pair] else [] := by
  rw [run, run, List.filter_append, List.filter_singleton]
  simp

theorem run_insert {order : Nat} (h : ∀ p ∈ before, p.cls order ≠ pair.cls order) (i : Nat) :
    run order (before ++ pair :: after) i
      = (if pair.cls order = i then [pair] else []) ++ run order (before ++ after) i := by
  simp only [run, List.filter_append, List.filter_cons]
  by_cases hi : pair.cls order = i
  · have hnone : before.filter (·.cls order = i) = [] :=
      List.filter_eq_nil_iff.mpr (by simpa [← hi] using h)
    simp [hi, hnone]
  · simp [hi]

/-- A pair with a new key comes to the front of its bucket. -/
theorem Linked.insertToBucket (h : table.Linked) (hkey : ∀ p ∈ table.list, p.key ≠ pair.key) :
    (table.insertToBucket (pair.cls table.order) pair).Linked
      ∧ (table.insertToBucket (pair.cls table.order) pair).list.Perm (pair :: table.list) := by
  have hbucket := h.bucket (pair.cls table.order)
  have hnodup : ((pair :: table.list).map (·.key)).Nodup := by
    rw [List.map_cons, List.nodup_cons]
    exact ⟨by simpa using hkey, h.nodup⟩
  cases hrun : run table.order table.list (pair.cls table.order) with
  | nil =>
      have hempty : bucketIsEmpty (table.buckets (pair.cls table.order)) = true := by
        rw [hbucket, bucketIsEmpty_ends, hrun]
        rfl
      have hperm : (table.list ++ [pair]).Perm (pair :: table.list) := List.perm_append_singleton ..
      rw [Hashtable.insertToBucket, if_pos hempty, listInsert_none]
      refine ⟨⟨((hperm.map _).nodup_iff).mpr hnodup, ?_, ?_⟩, hperm⟩
      · refine h.contiguous.concat fun p hp hcls => ?_
        have hmem : p ∈ run table.order table.list (pair.cls table.order) :=
          List.mem_filter.mpr ⟨hp, by simpa using hcls⟩
        rw [hrun] at hmem
        cases hmem
      · intro i
        dsimp only
        rw [run_concat]
        by_cases hi : pair.cls table.order = i
        · subst hi
          rw [Function.update_self, hrun, if_pos rfl]
          rfl
        · rw [Function.update_of_ne (Ne.symm hi), h.bucket, if_neg hi, List.append_nil]
  | cons f row =>
      obtain ⟨before, after, hlist, hbefore, -⟩ := h.split (pair.cls table.order)
      have hf : f.cls table.order = pair.cls table.order := by
        have hmem : f ∈ run table.order table.list (pair.cls table.order) := by simp [hrun]
        simpa [run] using (List.mem_filter.mp hmem).2
      have hfull : ¬ bucketIsEmpty (table.buckets (pair.cls table.order)) = true := by
        rw [hbucket, bucketIsEmpty_ends, hrun]
        simp
      have hlist : table.list = before ++ f :: (row ++ after) := by
        rw [hlist, hrun]
        simp
      have hne := (key_ne_of_nodup (hlist ▸ h.nodup)).1
      have hinsert : listInsert table.list (table.buckets (pair.cls table.order)).first pair
          = before ++ pair :: f :: (row ++ after) := by
        rw [hbucket, hrun, hlist]
        exact listInsert_key hne
      have hperm : (before ++ pair :: f :: (row ++ after)).Perm (pair :: table.list) := by
        rw [hlist]
        exact List.perm_middle
      rw [Hashtable.insertToBucket, if_neg hfull, hinsert]
      refine ⟨⟨((hperm.map _).nodup_iff).mpr hnodup, ?_, ?_⟩, hperm⟩
      · exact (hlist ▸ h.contiguous).insert hf.symm fun p hp => hf ▸ hbefore p hp
      · intro i
        dsimp only
        rw [run_insert hbefore, ← hlist]
        by_cases hi : pair.cls table.order = i
        · subst hi
          rw [Function.update_self, if_pos rfl, hrun, hbucket, hrun]
          simp [ends]
        · rw [Function.update_of_ne (Ne.symm hi), h.bucket, if_neg hi, List.nil_append]

@[simp] theorem order_insertToBucket (i : Nat) :
    (table.insertToBucket i pair).order = table.order := by
  rw [insertToBucket]
  split <;> rfl

@[simp] theorem size_insertToBucket (i : Nat) :
    (table.insertToBucket i pair).size = table.size := by
  rw [insertToBucket]
  split <;> rfl

/-! ### Rehashing -/

/-- The loop of the rehash: the pairs, in the order in which they stand, are put into
empty buckets. -/
def relink (pairs : List (Pair α)) (table : Hashtable α) : Hashtable α :=
  pairs.foldl (fun table pair => table.insertToBucket (pair.cls table.order) pair) table

theorem relink_order_size (pairs : List (Pair α)) (table : Hashtable α) :
    (relink pairs table).order = table.order ∧ (relink pairs table).size = table.size := by
  induction pairs generalizing table with
  | nil => exact ⟨rfl, rfl⟩
  | cons pair pairs ih =>
      have hnext := ih (table.insertToBucket (pair.cls table.order) pair)
      rwa [order_insertToBucket, size_insertToBucket] at hnext

theorem linked_relink {pairs : List (Pair α)} (h : table.Linked)
    (hnodup : ((table.list ++ pairs).map (·.key)).Nodup) :
    (relink pairs table).Linked ∧ (relink pairs table).list.Perm (table.list ++ pairs) := by
  induction pairs generalizing table with
  | nil => exact ⟨h, by rw [List.append_nil]; exact .refl _⟩
  | cons pair pairs ih =>
      have hkey : ∀ p ∈ table.list, p.key ≠ pair.key := (key_ne_of_nodup hnodup).1
      obtain ⟨hlinked, hperm⟩ := h.insertToBucket hkey
      have hmiddle : ((table.insertToBucket (pair.cls table.order) pair).list ++ pairs).Perm
          (table.list ++ pair :: pairs) :=
        (hperm.append_right pairs).trans List.perm_middle.symm
      obtain ⟨hlinked', hperm'⟩ := ih hlinked (((hmiddle.map _).nodup_iff).mpr hnodup)
      exact ⟨hlinked', hperm'.trans hmiddle⟩

theorem doRehash_eq (table : Hashtable α) :
    table.doRehash
      = relink table.list
          { table with order := table.order + 1, buckets := fun _ => .empty, list := [] } := by
  rw [doRehash, relink]
  suffices h : ∀ (pairs : List (Pair α)) (acc : Hashtable α), acc.order = table.order + 1 →
      pairs.foldl
          (fun t pair => t.insertToBucket (pair.hash % hashsize (table.order + 1)) pair) acc
        = pairs.foldl (fun t pair => t.insertToBucket (pair.cls t.order) pair) acc from
    h _ _ rfl
  intro pairs
  induction pairs with
  | nil => intro acc _; rfl
  | cons pair pairs ih =>
      intro acc hacc
      rw [List.foldl_cons, List.foldl_cons, Pair.cls, hacc]
      exact ih _ (by rw [order_insertToBucket, hacc])

theorem linked_empty (size order : Nat) :
    ({ size, buckets := fun _ => .empty, order, list := [] } : Hashtable α).Linked where
  nodup := List.nodup_nil
  contiguous := .nil
  bucket _ := rfl

variable {hashStr : Text → Nat}

/-- A rehash leaves the pairs, up to their order. -/
theorem Valid.doRehash (h : table.Valid hashStr) :
    table.doRehash.Valid hashStr ∧ table.doRehash.list.Perm table.list := by
  rw [doRehash_eq]
  obtain ⟨hlinked, hperm⟩ := linked_relink (linked_empty table.size (table.order + 1)) h.nodup
  have hsize := (relink_order_size table.list
    { table with order := table.order + 1, buckets := fun _ => .empty, list := [] }).2
  refine ⟨⟨hlinked, hsize.trans (h.size.trans hperm.length_eq.symm), fun pair hpair => ?_⟩, hperm⟩
  exact h.hash pair (hperm.mem_iff.mp hpair)

/-! ### Finding -/

theorem index_eq (hashStr : Text → Nat) (table : Hashtable α) (key : Text) :
    index hashStr table key = hashStr key % hashsize table.order := by
  rw [index, hashmask, hashsize, Nat.one_shiftLeft, Nat.and_two_pow_sub_one_eq_mod]

theorem findFrom_eq {row : List (Pair α)} {key : Text} {hash : Nat} (hrow : row ≠ [])
    (hnodup : (row.map (·.key)).Nodup) (hhash : ∀ p ∈ row, p.key = key → p.hash = hash) :
    findFrom (row.getLast?.map (·.key)) key hash (row ++ after) = row.find? (·.key = key) := by
  induction row with
  | nil => exact absurd rfl hrow
  | cons p row ih =>
      have hp := hhash p List.mem_cons_self
      rw [List.cons_append, findFrom, List.find?_cons]
      by_cases hkey : p.key = key
      · simp [hkey, hp hkey]
      · rw [if_neg fun h => hkey h.2]
        cases row with
        | nil => simp [hkey]
        | cons q row =>
            rw [List.map_cons, List.nodup_cons] at hnodup
            have hlast : some p.key ≠ ((p :: q :: row).getLast?).map (·.key) := by
              rw [List.getLast?_cons_cons]
              intro hlast
              obtain ⟨last, hmem, heq⟩ := Option.map_eq_some_iff.mp hlast.symm
              exact hnodup.1 (heq ▸ List.mem_map_of_mem (List.mem_of_getLast? hmem))
            rw [if_neg hlast, List.getLast?_cons_cons]
            simpa [hkey] using ih (List.cons_ne_nil _ _) hnodup.2
              fun p hp => hhash p (List.mem_cons_of_mem _ hp)

/-- The search in the bucket is a search in the list. -/
theorem Valid.findPair_eq (h : table.Valid hashStr) (key : Text) :
    findPair table (table.buckets (index hashStr table key)) key (hashStr key)
      = table.list.find? (·.key = key) := by
  have hcls : ∀ p ∈ table.list, p.key = key →
      p.cls table.order = index hashStr table key := by
    intro p hp hkey
    rw [index_eq, Pair.cls, h.hash p hp, hkey]
  obtain ⟨before, after, hlist, hbefore, hafter⟩ := h.split (index hashStr table key)
  have hnone : ∀ l : List (Pair α), (∀ p ∈ l, p ∈ table.list) →
      (∀ p ∈ l, p.cls table.order ≠ index hashStr table key) →
      l.find? (·.key = key) = none := by
    intro l hsub hne
    rw [List.find?_eq_none]
    exact fun p hp hkey => hne p hp (hcls p (hsub p hp) (by simpa using hkey))
  have hnone_before := hnone before (fun p hp => by rw [hlist]; simp [hp]) hbefore
  have hnone_after := hnone after (fun p hp => by rw [hlist]; simp [hp]) hafter
  have hfind : table.list.find? (·.key = key)
      = (run table.order table.list (index hashStr table key)).find? (·.key = key) := by
    rw [hlist, List.find?_append, List.find?_append, hnone_before, hnone_after, ← hlist]
    simp
  rw [hfind, findPair, h.bucket, bucketIsEmpty_ends]
  cases hrun : run table.order table.list (index hashStr table key) with
  | nil => rfl
  | cons f row =>
      rw [hrun, List.append_assoc, List.cons_append] at hlist
      have hne := (key_ne_of_nodup (hlist ▸ h.nodup)).1
      have hdrop : table.list.dropWhile (some ·.key ≠ (ends (f :: row)).first)
          = (f :: row) ++ after := by
        rw [hlist]
        exact (takeWhile_key hne).2
      have hrow : ∀ p ∈ f :: row, p ∈ table.list := fun p hp => by
        rw [← hrun] at hp
        exact (List.mem_filter.mp hp).1
      have hnodup : ((f :: row).map (·.key)).Nodup := by
        rw [← hrun]
        exact (List.filter_sublist.map _).nodup h.nodup
      rw [if_neg (by simp), hdrop]
      exact findFrom_eq (List.cons_ne_nil f row) hnodup
        fun p hp hkey => hkey ▸ h.hash p (hrow p hp)

theorem Valid.get_eq (h : table.Valid hashStr) (key : Text) :
    table.get hashStr key = (table.list.find? (·.key = key)).map (·.value) := by
  rw [get, h.findPair_eq]

/-! ### The operations -/

theorem valid_init : (init : Hashtable α).Valid hashStr where
  toLinked := linked_empty 0 3
  size := rfl
  hash := by simp [init]

theorem valid_clear (table : Hashtable α) : table.clear.Valid hashStr where
  toLinked := linked_empty 0 table.order
  size := rfl
  hash := by simp [clear]

/-- The pair with the key gets the value and keeps its place and its serial. -/
def replace (list : List (Pair α)) (key : Text) (value : α) : List (Pair α) :=
  list.map fun p => if p.key = key then { p with value } else p

theorem map_key_replace (list : List (Pair α)) (key : Text) (value : α) :
    (replace list key value).map (·.key) = list.map (·.key) := by
  rw [replace, List.map_map]
  refine List.map_congr_left fun p _ => ?_
  simp only [Function.comp_apply]
  split <;> rfl

theorem Valid.replace (h : table.Valid hashStr) (key : Text) (value : α) :
    ({ table with list := replace table.list key value } : Hashtable α).Valid hashStr := by
  have hcls : Pair.cls table.order ∘ (fun p : Pair α => if p.key = key then { p with value } else p)
      = Pair.cls table.order := by
    funext p
    simp only [Function.comp_apply]
    split <;> rfl
  have hrun : ∀ i, run table.order (Hashtable.replace table.list key value) i
      = Hashtable.replace (run table.order table.list i) key value := by
    intro i
    rw [run, Hashtable.replace, List.filter_map]
    congr 1
    refine List.filter_congr fun p _ => ?_
    exact congrArg (fun cls : Pair α → Nat => decide (cls p = i)) hcls
  refine ⟨⟨?_, ?_, fun i => ?_⟩, ?_, ?_⟩
  · rw [map_key_replace]
    exact h.nodup
  · refine Contiguous.map ?_
    rw [hcls]
    exact h.contiguous
  · rw [hrun, h.bucket, ends, ends, ← List.head?_map, ← List.getLast?_map, ← List.head?_map,
      ← List.getLast?_map, map_key_replace]
  · exact h.size.trans (List.length_map _).symm
  · intro p hp
    obtain ⟨q, hq, rfl⟩ := List.mem_map.mp hp
    have hhash := h.hash q hq
    split <;> exact hhash

theorem find?_key_eq_none_iff {list : List (Pair α)} {key : Text} :
    list.find? (·.key = key) = none ↔ key ∉ list.map (·.key) := by
  simp

/-- What is set is the value of the key: of the pair that has it, or of a new one. -/
theorem Valid.set (h : table.Valid hashStr) (key : Text) (serial : Nat) (value : α) :
    (table.set hashStr key serial value).Valid hashStr
      ∧ (table.set hashStr key serial value).list.Perm
          (if key ∈ table.list.map (·.key) then Hashtable.replace table.list key value
          else { hash := hashStr key, key, value, serial } :: table.list) := by
  obtain ⟨hvalid, hperm⟩ : (if hashsize table.order ≤ table.size then table.doRehash
        else table).Valid hashStr
      ∧ (if hashsize table.order ≤ table.size then table.doRehash else table).list.Perm
          table.list := by
    split
    · exact h.doRehash
    · exact ⟨h, .refl _⟩
  rw [Hashtable.set]
  generalize (if hashsize table.order ≤ table.size then table.doRehash else table) = t at *
  have hmem : key ∈ table.list.map (·.key) ↔ key ∈ t.list.map (·.key) :=
    ((hperm.map _).mem_iff).symm
  dsimp only
  rw [hvalid.findPair_eq]
  cases hfind : t.list.find? (·.key = key) with
  | none =>
      have hkey := find?_key_eq_none_iff.mp hfind
      rw [if_neg (mt hmem.mp hkey)]
      have hindex : index hashStr t key
          = ({ hash := hashStr key, key, value, serial } : Pair α).cls t.order := index_eq _ _ _
      have hnew : ∀ p ∈ t.list,
          p.key ≠ ({ hash := hashStr key, key, value, serial } : Pair α).key := by
        intro p hp heq
        exact hkey ((show p.key = key from heq) ▸ List.mem_map_of_mem hp)
      obtain ⟨hlinked, hlist⟩ := hvalid.insertToBucket hnew
      rw [← hindex] at hlinked hlist
      refine ⟨⟨⟨hlinked.nodup, hlinked.contiguous, hlinked.bucket⟩, ?_, ?_⟩,
        hlist.trans (hperm.cons _)⟩
      · dsimp only
        rw [size_insertToBucket, hvalid.size, hlist.length_eq]
        rfl
      · intro p hp
        cases List.mem_cons.mp (hlist.mem_iff.mp hp) with
        | inl heq => rw [heq]
        | inr hmem => exact hvalid.hash p hmem
  | some pair =>
      obtain rfl : pair.key = key := by simpa using List.find?_some hfind
      have hkey : pair.key ∈ t.list.map (·.key) :=
        List.mem_map_of_mem (List.mem_of_find?_eq_some hfind)
      rw [if_pos (hmem.mpr hkey)]
      exact ⟨hvalid.replace pair.key value, hperm.map _⟩

theorem next_eq {f : Pair α} (h : ∀ p ∈ before, p.key ≠ f.key) :
    next (before ++ f :: after) f.key = after.head?.map (·.key) := by
  have hall : ∀ p ∈ before, decide (p.key ≠ f.key) = true := by simpa using h
  rw [next, List.dropWhile_append_of_pos hall]
  simp

theorem prev_eq {f : Pair α} (h : ∀ p ∈ before, p.key ≠ f.key) :
    prev (before ++ f :: after) f.key = before.getLast?.map (·.key) := by
  have hall : ∀ p ∈ before, decide (p.key ≠ f.key) = true := by simpa using h
  rw [prev, List.takeWhile_append_of_pos hall]
  simp

theorem filter_key {f : Pair α} (h : ((before ++ f :: after).map (·.key)).Nodup) :
    (before ++ f :: after).filter (·.key ≠ f.key) = before ++ after := by
  obtain ⟨hbefore, hafter⟩ := key_ne_of_nodup h
  rw [List.filter_append, List.filter_cons_of_neg (by simp),
    List.filter_eq_self.mpr (by simpa using hbefore),
    List.filter_eq_self.mpr (by simpa using hafter)]

/-- The pointers of a bucket that a pair leaves. -/
theorem ends_erase {row row' : List (Pair α)} {f : Pair α} {list : List (Pair α)}
    (hnext : row' ≠ [] → next list f.key = row'.head?.map (·.key))
    (hprev : row ≠ [] → prev list f.key = row.getLast?.map (·.key))
    (hnodup : ((row ++ f :: row').map (·.key)).Nodup) :
    (if some f.key = (ends (row ++ f :: row')).first ∧ some f.key = (ends (row ++ f :: row')).last
      then Bucket.empty
      else if some f.key = (ends (row ++ f :: row')).first then
        { ends (row ++ f :: row') with first := next list f.key }
      else if some f.key = (ends (row ++ f :: row')).last then
        { ends (row ++ f :: row') with last := prev list f.key }
      else ends (row ++ f :: row')) = ends (row ++ row') := by
  obtain ⟨hrow, hrow'⟩ := key_ne_of_nodup hnodup
  have hlast : ∀ q r, row' = q :: r →
      ∃ last, (row ++ f :: row').getLast? = some last ∧ f.key ≠ last.key
        ∧ row'.getLast? = some last := by
    intro q r heq
    obtain ⟨last, hlast⟩ := Option.isSome_iff_exists.mp
      (show row'.getLast?.isSome = true by simp [heq])
    refine ⟨last, ?_, fun hkey => hrow' last (List.mem_of_getLast? hlast) hkey.symm, hlast⟩
    rw [List.getLast?_append, List.getLast?_cons, hlast]
    rfl
  cases row with
  | nil =>
      cases row' with
      | nil => simp [ends, Bucket.empty]
      | cons q r =>
          obtain ⟨last, hget, hne, hget'⟩ := hlast q r rfl
          have hfirst := hnext (List.cons_ne_nil q r)
          simp only [List.nil_append] at hget ⊢
          simp [ends, hget, hget', hne, hfirst]
  | cons p r =>
      have hp : f.key ≠ p.key := fun hkey => hrow p List.mem_cons_self hkey.symm
      cases row' with
      | nil =>
          have hback := hprev (List.cons_ne_nil p r)
          have hget : (p :: (r ++ [f])).getLast? = some f := by
            rw [← List.cons_append, List.getLast?_concat]
          simp [ends, hp, hback, hget]
      | cons q r' =>
          obtain ⟨last, hget, hne, hget'⟩ := hlast q r' rfl
          have hgone : (p :: (r ++ q :: r')).getLast? = some last := by
            rw [← List.cons_append, List.getLast?_append, hget']
            rfl
          rw [List.cons_append] at hget
          simp [ends, hp, hne, hget, hgone]

/-- The pair with the key goes, if there is one. -/
theorem Valid.doDel (h : table.Valid hashStr) (key : Text) :
    match table.doDel hashStr key with
    | none => key ∉ table.list.map (·.key)
    | some table' => key ∈ table.list.map (·.key) ∧ table'.Valid hashStr
        ∧ table'.list = table.list.filter (·.key ≠ key) := by
  rw [Hashtable.doDel]
  dsimp only
  rw [h.findPair_eq]
  cases hfind : table.list.find? (·.key = key) with
  | none => exact find?_key_eq_none_iff.mp hfind
  | some pair =>
      obtain rfl : pair.key = key := by simpa using List.find?_some hfind
      have hpair := List.mem_of_find?_eq_some hfind
      have hsub := List.filter_sublist (p := fun p : Pair α => decide (p.key ≠ pair.key))
        (l := table.list)
      have hcls : pair.cls table.order = index hashStr table pair.key := by
        rw [index_eq, Pair.cls, h.hash pair hpair]
      refine ⟨List.mem_map_of_mem hpair, ⟨⟨?_, ?_, fun i => ?_⟩, ?_, ?_⟩, rfl⟩
      · exact (hsub.map _).nodup h.nodup
      · exact h.contiguous.sublist hsub
      · have hrun : run table.order (table.list.filter (·.key ≠ pair.key)) i
            = (run table.order table.list i).filter (·.key ≠ pair.key) := List.filter_comm _ _ _
        have hnodup : ((run table.order table.list i).map (·.key)).Nodup :=
          (List.filter_sublist.map _).nodup h.nodup
        dsimp only
        rw [hrun]
        by_cases hi : i = index hashStr table pair.key
        · subst hi
          obtain ⟨before, after, hlist, -, -⟩ := h.split (index hashStr table pair.key)
          have hmem : pair ∈ run table.order table.list (index hashStr table pair.key) :=
            List.mem_filter.mpr ⟨hpair, by simpa using hcls⟩
          obtain ⟨row, row', hrow⟩ := List.append_of_mem hmem
          have hwhole : table.list = (before ++ row) ++ pair :: (row' ++ after) := by
            rw [hlist, hrow]
            simp
          have hbefore := (key_ne_of_nodup (hwhole ▸ h.nodup)).1
          rw [hrow] at hnodup ⊢
          rw [Function.update_self, h.bucket, hrow, filter_key hnodup]
          refine ends_erase ?_ ?_ hnodup
          · intro hne
            rw [hwhole, next_eq hbefore, List.head?_append_of_ne_nil _ hne]
          · intro hne
            rw [hwhole, prev_eq hbefore, List.getLast?_append_of_ne_nil _ hne]
        · have hkeep : (run table.order table.list i).filter (·.key ≠ pair.key)
              = run table.order table.list i := by
            refine List.filter_eq_self.mpr fun p hp => ?_
            obtain ⟨hp, hpi⟩ := List.mem_filter.mp hp
            have hkey : p.key ≠ pair.key := by
              intro hkey
              refine hi ?_
              rw [index_eq, ← hkey, ← h.hash p hp]
              exact (of_decide_eq_true hpi).symm
            simpa using hkey
          rw [Function.update_of_ne hi, h.bucket, hkeep]
      · obtain ⟨front, back, hlist⟩ := List.append_of_mem hpair
        dsimp only
        rw [h.size, hlist, filter_key (hlist ▸ h.nodup)]
        simp
      · exact fun p hp => h.hash p (hsub.subset hp)

end Hashtable

end LibJansson

end IoTRepublic
