import Comsg.Ccmalloc.Buckets

/-!
# `Comsg.Ccmalloc.Heap`: allocations and frees, one at a time

The bucket table with the allocations that its clients hold.

* `ccmallocInit`: `ccmalloc_init` with the memory that it gets from `calloc`
  (`ccmalloc.c:120-179`).
* `Heap.cocallMalloc`, `Heap.cocallFree`: `cocall_malloc` and `cocall_free`
  (`ccmalloc.c:292-352`).
* `Heap.step`: a call, or a turn of one of the two threads for one bucket or one batch
  (`ccmalloc.c:212-290`). A client frees what it holds, and once.

`calloc` is not part of the repository. Its memory is apart from what is in use, and its bounds are
aligned for the size that was asked for (`Fresh`).
-/

set_option autoImplicit false

namespace Comsg.Ccmalloc

open Comsg.Lib

/-- An allocation: the batch that it is from, its capability, and what was added to `allocated`. -/
structure Alloc where
  bucket : Nat
  batch : Nat
  cap : Cap
  charged : Nat
  deriving DecidableEq, Repr

/-- `bucket_table`, and what the clients hold. -/
structure Heap where
  buckets : List Bucket
  held : List Alloc
  deriving DecidableEq, Repr

/-! ### `calloc` -/

/-- The batch has none of the memory of the region. -/
def Region.Apart (r : Region) (b : Batch) : Prop :=
  r.base + r.size ≤ b.base ∨ b.base + b.size ≤ r.base

instance (r : Region) (b : Batch) : Decidable (r.Apart b) := inferInstanceAs (Decidable (_ ∨ _))

/-- What `calloc` can return for a request of `n` bytes. -/
structure Fresh (f : CapFormat) (buckets : List Bucket) (n : Nat) (r : Region) : Prop where
  le : n ≤ r.size
  base : f.align n ∣ r.base
  size : f.align n ∣ r.size
  apart : ∀ b ∈ buckets, ∀ batch ∈ b.batches ++ b.spare.toList,
    batch.status ≠ .freed → r.Apart batch

theorem fresh_iff (f : CapFormat) (buckets : List Bucket) (n : Nat) (r : Region) :
    Fresh f buckets n r ↔ n ≤ r.size ∧ f.align n ∣ r.base ∧ f.align n ∣ r.size ∧
      ∀ b ∈ buckets, ∀ batch ∈ b.batches ++ b.spare.toList,
        batch.status ≠ .freed → r.Apart batch :=
  ⟨fun h => ⟨h.le, h.base, h.size, h.apart⟩, fun h => ⟨h.1, h.2.1, h.2.2.1, h.2.2.2⟩⟩

instance (f : CapFormat) (buckets : List Bucket) (n : Nat) (r : Region) :
    Decidable (Fresh f buckets n r) :=
  decidable_of_iff _ (fresh_iff f buckets n r).symm

/-! ### `ccmalloc_init` -/

/-- The batches of `init_bucket`, for one bucket after the other. -/
def initBatches (f : CapFormat) : List BucketInfo → List Region → List Bucket →
    Option (List Bucket)
  | [], _, buckets => some buckets
  | info :: infos, first :: second :: regions, buckets =>
    let bucket : Bucket := ⟨info, [newBatch first], none⟩
    if Fresh f buckets info.firstAllocSize first ∧
        Fresh f (buckets ++ [bucket]) info.firstAllocSize second then
      initBatches f infos regions (buckets ++ [{ bucket with spare := some (newBatch second) }])
    else none
  | _ :: _, _, _ => none

/-- `ccmalloc_init`, when `calloc` returns the regions in turn. Without any size the first one is
read out of bounds. -/
def ccmallocInit (f : CapFormat) (sizes : List Nat) (regions : List Region) : Option Heap :=
  if sizes = [] then none
  else (initBatches f (bucketTable f sizes) regions []).map fun buckets => ⟨buckets, []⟩

/-! ### The calls -/

namespace Heap

/-- The fields that `get_bucket` reads. -/
def table (s : Heap) : List BucketInfo := s.buckets.map (·.info)

/-- `cocall_malloc`. The second component is the allocation, or `none` for `NULL`. It is `none` as
a whole when the assertion of `get_bucket` fails. -/
def cocallMalloc (f : CapFormat) (s : Heap) (len : Nat) : Option (Heap × Option Alloc) := do
  let i ← getBucket s.table len
  let bucket ← s.buckets[i]?
  let first ← bucket.batches.getLast?
  let chosen :=
    if first.memRemaining < len ∨ first.status = .freed then bucket.getSpare else some bucket
  match chosen with
  | none => some (s, none)
  | some bucket =>
    let j := bucket.batches.length - 1
    let batch ← bucket.batches[j]?
    let (batch, cap) := batch.malloc f bucket.info len
    let alloc : Alloc := ⟨i, j, cap, cap.length⟩
    some ({
      buckets := s.buckets.set i { bucket with batches := bucket.batches.set j batch }
      held := s.held ++ [alloc] }, some alloc)

/-- `cocall_free`. It is `none` when no batch is found or the assertion of `get_bucket` fails. -/
def cocallFree (s : Heap) (cap : Cap) : Option Heap := do
  let i ← getBucket s.table cap.length
  let bucket ← s.buckets[i]?
  let j ← findBatch bucket.batches cap.base
  let batch ← bucket.batches[j]?
  let batch := { batch with freed := batch.freed + cap.length }
  some { s with buckets := s.buckets.set i { bucket with batches := bucket.batches.set j batch } }

end Heap

/-- A call, or what one of the threads does. -/
inductive HeapAct
  | malloc (len : Nat)
  | free (k : Nat)
  | refill (i : Nat) (r : Region)
  | empty (i j : Nat)
  deriving DecidableEq, Repr

namespace Heap

/-- `refill_buckets`, for one bucket. -/
def refillBucket (f : CapFormat) (s : Heap) (i : Nat) (r : Region) : Option Heap := do
  let bucket ← s.buckets[i]?
  if bucket.spare = none ∧ Fresh f s.buckets bucket.info.allocSize r then
    some { s with buckets := s.buckets.set i { bucket with spare := some (newBatch r) } }
  else none

/-- `empty_buckets`, for one batch. The first batch of the list is passed over. -/
def emptyBatch (s : Heap) (i j : Nat) : Option Heap := do
  let bucket ← s.buckets[i]?
  let batch ← bucket.batches[j]?
  if j + 1 < bucket.batches.length ∧ batch.status ≠ .freed ∧ batch.allocated ≠ 0 ∧
      batch.allocated = batch.freed then
    let batch := { batch with status := .freed }
    some { s with buckets := s.buckets.set i { bucket with batches := bucket.batches.set j batch } }
  else none

/-- One step. A client that frees an allocation does not hold it any more. -/
def step (f : CapFormat) (s : Heap) : HeapAct → Option Heap
  | .malloc len => (s.cocallMalloc f len).map (·.1)
  | .free k => do
    let alloc ← s.held[k]?
    let s ← s.cocallFree alloc.cap
    some { s with held := s.held.eraseIdx k }
  | .refill i r => s.refillBucket f i r
  | .empty i j => s.emptyBatch i j

end Heap

end Comsg.Ccmalloc
