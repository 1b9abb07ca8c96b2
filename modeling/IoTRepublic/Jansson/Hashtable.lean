import IoTRepublic.Cpp.Basic

/-!
# IoTRepublic.Jansson.Hashtable

`jansson2.7/hashtable.c`. All pairs are on one linked list; a bucket knows the first
and the last of its pairs, which stand in a row. `hash_str` is a parameter: nothing
here depends on it or on its seed.

A pointer to a pair is the pair's key, and `none` is the pointer to the list itself.

The buckets have pointers into the list and no pairs of their own. So a pair is found by
walking from the first pair of its bucket to the last, and a new pair goes next to those
of its bucket, or to the end of the whole list if it has none. That is why the order of
iteration depends on the hash function, while the set of pairs does not.
-/

namespace IoTRepublic

open Cpp

namespace LibJansson

/-- `pair_t`: a key, its hash, the value and the serial, as they stand on the list. -/
structure Pair (α : Type) where
  hash : Nat
  key : Text
  value : α
  serial : Nat

/-- `bucket_t`: where its pairs begin and end on the list. -/
structure Bucket where
  first : Option Text
  last : Option Text

/-- `hashtable_t`. The number of buckets is a power of two, whose exponent is `order`. -/
structure Hashtable (α : Type) where
  size : Nat
  buckets : Nat → Bucket
  order : Nat
  /-- From `list.next` on, up to the list itself. -/
  list : List (Pair α)

/-- `hashsize`: how many buckets there are. -/
def hashsize (order : Nat) : Nat := 1 <<< order

/-- `hashmask`: what of a hash tells the bucket. -/
def hashmask (order : Nat) : Nat := hashsize order - 1

/-- The pointers of an empty bucket. -/
def Bucket.empty : Bucket := { first := none, last := none }

namespace Hashtable

variable {α : Type}

/-- `bucket_is_empty`. -/
def bucketIsEmpty (bucket : Bucket) : Bool := bucket.first = none && bucket.first = bucket.last

/-- `list_insert` in front of the pair a pointer points to. -/
def listInsert (list : List (Pair α)) (place : Option Text) (pair : Pair α) : List (Pair α) :=
  list.takeWhile (some ·.key ≠ place) ++ pair :: list.dropWhile (some ·.key ≠ place)

/-- `insert_to_bucket`: the pair goes in front of the first of its bucket, or to the end
of the list if there is none. -/
def insertToBucket (table : Hashtable α) (index : Nat) (pair : Pair α) : Hashtable α :=
  let bucket := table.buckets index
  if bucketIsEmpty bucket then
    { table with
      list := listInsert table.list none pair
      buckets := Function.update table.buckets index { first := pair.key, last := pair.key } }
  else
    { table with
      list := listInsert table.list bucket.first pair
      buckets := Function.update table.buckets index { bucket with first := pair.key } }

/-- The loop of `hashtable_find_pair`, from a pair up to the last of the bucket. -/
def findFrom (last : Option Text) (key : Text) (hash : Nat) : List (Pair α) → Option (Pair α)
  | [] => none
  | pair :: list =>
    if pair.hash = hash ∧ pair.key = key then some pair
    else if some pair.key = last then none
    else findFrom last key hash list

/-- `hashtable_find_pair`: the pair with the key, if the bucket has one. -/
def findPair (table : Hashtable α) (bucket : Bucket) (key : Text) (hash : Nat) :
    Option (Pair α) :=
  if bucketIsEmpty bucket then none
  else findFrom bucket.last key hash (table.list.dropWhile (some ·.key ≠ bucket.first))

/-- `hashtable_init`. -/
def init : Hashtable α := { size := 0, buckets := fun _ => .empty, order := 3, list := [] }

/-- `hashtable_do_rehash`: twice as many buckets, into which the pairs are inserted again
from the first to the last. -/
def doRehash (table : Hashtable α) : Hashtable α :=
  let order := table.order + 1
  table.list.foldl (fun table pair => table.insertToBucket (pair.hash % hashsize order) pair)
    { table with order, buckets := fun _ => .empty, list := [] }

/-- `pair->list.next`. -/
def next (list : List (Pair α)) (key : Text) : Option Text :=
  (list.dropWhile (·.key ≠ key)).tail.head?.map (·.key)

/-- `pair->list.prev`. -/
def prev (list : List (Pair α)) (key : Text) : Option Text :=
  (list.takeWhile (·.key ≠ key)).getLast?.map (·.key)

section Hash

variable (hashStr : Text → Nat)

/-- The bucket of a key. -/
def index (table : Hashtable α) (key : Text) : Nat := hashStr key &&& hashmask table.order

/-- `hashtable_set`: the table grows when it has as many pairs as buckets; a pair that is
there gets the value and keeps its serial. -/
def set (table : Hashtable α) (key : Text) (serial : Nat) (value : α) : Hashtable α :=
  let table := if hashsize table.order ≤ table.size then table.doRehash else table
  let hash := hashStr key
  let index := index hashStr table key
  match findPair table (table.buckets index) key hash with
  | some pair =>
    { table with list := table.list.map fun p => if p.key = pair.key then { p with value } else p }
  | none =>
    let table := table.insertToBucket index { hash, key, value, serial }
    { table with size := table.size + 1 }

/-- `hashtable_get`: the value under the key, `none` for NULL. -/
def get (table : Hashtable α) (key : Text) : Option α :=
  (findPair table (table.buckets (index hashStr table key)) key (hashStr key)).map (·.value)

/-- `hashtable_do_del`: the pair goes off the list, and the bucket points past it; `none`
is -1. -/
def doDel (table : Hashtable α) (key : Text) : Option (Hashtable α) :=
  let index := index hashStr table key
  let bucket := table.buckets index
  match findPair table bucket key (hashStr key) with
  | none => none
  | some pair =>
    let bucket :=
      if some pair.key = bucket.first ∧ some pair.key = bucket.last then .empty
      else if some pair.key = bucket.first then
        { bucket with first := next table.list pair.key }
      else if some pair.key = bucket.last then { bucket with last := prev table.list pair.key }
      else bucket
    some { table with
      size := table.size - 1
      buckets := Function.update table.buckets index bucket
      list := table.list.filter (·.key ≠ pair.key) }

/-- `hashtable_clear`. -/
def clear (table : Hashtable α) : Hashtable α :=
  { table with size := 0, buckets := fun _ => .empty, list := [] }

end Hash

end Hashtable

end LibJansson

end IoTRepublic
