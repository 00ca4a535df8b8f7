import Comsg.Lib.Compression
import Mathlib.Algebra.Group.Int.Defs
import Mathlib.Data.List.Sort

/-!
# `Comsg.Ccmalloc.Buckets`: the buckets of `ccmalloc`

A bucket has a list of batches, which memory is taken from in order, and a spare batch.

* `Batch`, `Bucket`: the structures (`ccmalloc.c:53-76`). The fields that `ccmalloc_init` sets are
  in `BucketInfo`.
* `bucketTable`: the table that `ccmalloc_init` makes of a list of sizes (`ccmalloc.c:120-179`).
* `getBucket`: `get_bucket` (`ccmalloc.c:196-210`).
* `Batch.malloc`, `findBatch`: the ends of `cocall_malloc` and of `cocall_free`
  (`ccmalloc.c:292-352`).

How lengths are rounded is a parameter, a `CapFormat`. Addresses are numbers of any size. The
arithmetic of `size_t` is modulo `2 ^ 64` where the sizes of the batches are computed and where
the offset is subtracted.
-/

set_option autoImplicit false

namespace Comsg.Ccmalloc

open Comsg.Lib

/-- `alloc_size`. -/
def allocSize : Nat := 1024 * 1024

/-- `extra_alloc_multiplier`. -/
def extraAllocMultiplier : Nat := 32

/-- `batch_status_t`. -/
inductive BatchStatus
  | freed
  | mapped
  | inuse
  deriving DecidableEq, Repr

/-- `struct batch`. The capability `mem` is `base`, `size` and `addr`. -/
structure Batch where
  base : Nat
  size : Nat
  addr : Nat
  status : BatchStatus
  freed : Nat
  allocated : Nat
  deriving DecidableEq, Repr

/-- The fields of `struct bucket` that do not change after `ccmalloc_init`. `firstAllocSize` is
`alloc_size` as it was when the first two batches were made. -/
structure BucketInfo where
  size : Nat
  cherisize : Nat
  alignment : Nat
  firstAllocSize : Nat
  allocSize : Nat
  deriving DecidableEq, Repr

/-- `struct bucket`. The batches are in the order they were inserted in, so the first one of
`batch_list` is the last one here. -/
structure Bucket where
  info : BucketInfo
  batches : List Batch
  spare : Option Batch
  deriving DecidableEq, Repr

/-! ### The table -/

/-- `bucket_alloc_size` in `init_bucket`. -/
def bucketAllocSize (len : Nat) (extraAlloc : Bool) : Nat :=
  let size := if len ≤ allocSize then allocSize else alignUp len allocSize % 2 ^ 64
  if extraAlloc then size * extraAllocMultiplier % 2 ^ 64 else size

section Table
variable (f : CapFormat)

/-- `init_bucket`, without the batches. -/
def initBucket (len : Nat) (extraAlloc : Bool) : BucketInfo where
  size := len
  cherisize := f.rounded len
  alignment := f.align len
  firstAllocSize := bucketAllocSize len extraAlloc
  allocSize := bucketAllocSize len extraAlloc

/-- The loop of `ccmalloc_init`. The last one of the sizes gets more memory, unless it is there
twice. -/
def initLoop : BucketInfo → List Nat → List BucketInfo
  | last, []           => [last]
  | last, size :: rest =>
    if last.size = size then
      initLoop { last with allocSize := (last.allocSize + allocSize) % 2 ^ 64 } rest
    else last :: initLoop (initBucket f size rest.isEmpty) rest

/-- The table of `ccmalloc_init`. -/
def bucketTable (sizes : List Nat) : List BucketInfo :=
  match sizes.insertionSort (· ≤ ·) with
  | []           => []
  | size :: rest => initLoop f (initBucket f size rest.isEmpty) rest

end Table

/-- The test in the loop of `get_bucket`. -/
def BucketInfo.fits (b : BucketInfo) (size : Nat) : Bool := size = b.size || size = b.cherisize

/-- `get_bucket`. `none` is a failed assertion. -/
def getBucket (table : List BucketInfo) (size : Nat) : Option Nat :=
  match table.findIdx? fun b => b.fits size with
  | some i => some i
  | none   =>
    match table.getLast? with
    | some last => if size < last.size then some (table.length - 1) else none
    | none      => none

/-! ### Batches -/

/-- Memory from `calloc`. -/
structure Region where
  base : Nat
  size : Nat
  deriving DecidableEq, Repr

/-- `new_batch`. -/
def newBatch (r : Region) : Batch := ⟨r.base, r.size, r.base, .mapped, 0, 0⟩

/-- `mem_remaining`. The difference is one of `size_t`. -/
def Batch.memRemaining (b : Batch) : Nat :=
  (((b.size : Int) - ((b.addr : Int) - b.base)) % 2 ^ 64).toNat

/-- The address is within the bounds of `mem`: `cheri_is_address_inbounds`. -/
def Batch.inBounds (b : Batch) (addr : Nat) : Bool := b.base ≤ addr && addr < b.base + b.size

/-- The bounds of a capability. -/
structure Cap where
  base : Nat
  length : Nat
  deriving DecidableEq, Repr

/-- `cheri_setbounds` at an address that is aligned for the length. -/
def cheriSetbounds (f : CapFormat) (addr len : Nat) : Cap := ⟨addr, f.rounded len⟩

/-- `new_cap` in `cocall_malloc`, after `result`. -/
def nextAddr (b : BucketInfo) (result : Cap) : Nat :=
  alignUp (result.base + result.length) b.alignment

/-- The status after `cocall_malloc` has chosen the batch. -/
def BatchStatus.use : BatchStatus → BatchStatus
  | .mapped => .inuse
  | status  => status

/-- The end of `cocall_malloc`, on the batch that it has chosen. -/
def Batch.malloc (f : CapFormat) (info : BucketInfo) (b : Batch) (len : Nat) : Batch × Cap :=
  let result := cheriSetbounds f b.addr len
  ({ b with
      status := b.status.use
      addr := nextAddr info result
      allocated := b.allocated + result.length }, result)

/-- `get_spare`. `none` is `NULL`. -/
def Bucket.getSpare (b : Bucket) : Option Bucket :=
  b.spare.map fun spare => { b with batches := b.batches ++ [spare], spare := none }

/-- The number of the batch that the loop of `cocall_free` finds. The newest ones come first. -/
def findBatch (batches : List Batch) (addr : Nat) : Option Nat :=
  (List.range batches.length).reverse.find? fun j => batches[j]?.any fun b => b.inBounds addr

end Comsg.Ccmalloc
