import Comsg.Ccmalloc.Heap
import Comsg.Lib.Threads

/-!
# `Comsg.Ccmalloc.Threads`: `cocall_malloc` in many threads

The threads of one bucket. Each of them goes from one access of shared data to the next one
(`ccmalloc.c:292-324`, and `ccmalloc.c:181-194` for `get_spare`). The bucket may get a new spare
batch at any time. The memory of a batch is aligned for the bucket.

`mem_remaining` is called once, before `get_spare`. The loop around the compare-exchange goes on
with what `mem` is then.
-/

set_option autoImplicit false

namespace Comsg.Ccmalloc

open Comsg.Lib

/-- Where a thread in `cocall_malloc` is. Batches are given by their numbers, and `addr` is the
address of the capability that was loaded from `mem`. -/
inductive MallocPc
  | first
  | firstStatus (j : Nat)
  | remaining (j : Nat) (status : BatchStatus)
  | loadSpare
  | takeSpare (spare : Batch)
  | insert (spare : Batch)
  | spareStatus (j : Nat)
  | setStatus (j : Nat)
  | loadMem (j : Nat)
  | exchange (j addr : Nat)
  | charge (j : Nat) (result : Cap)
  | null
  | done (j : Nat) (result : Cap)
  deriving DecidableEq, Repr

/-- Where `cocall_malloc` goes on with a status. -/
def MallocPc.withStatus (j : Nat) (status : BatchStatus) : MallocPc :=
  if status = .mapped then .setStatus j else .loadMem j

/-- Where `get_spare` goes on with what it has read. -/
def MallocPc.withSpare : Option Batch → MallocPc
  | none       => .null
  | some spare => .takeSpare spare

namespace Bucket

/-- The bucket with another batch in place of one. -/
def setBatch (b : Bucket) (j : Nat) (x : Batch) : Bucket := { b with batches := b.batches.set j x }

/-- One step of `cocall_malloc`. -/
def mallocStep (f : CapFormat) (b : Bucket) (len : Nat) : MallocPc → Option (Bucket × MallocPc)
  | .first => some (b, .firstStatus (b.batches.length - 1))
  | .firstStatus j => do
    let x ← b.batches[j]?
    some (b, .remaining j x.status)
  | .remaining j status => do
    let x ← b.batches[j]?
    some (b, if x.memRemaining < len ∨ status = .freed then .loadSpare else .withStatus j status)
  | .loadSpare => some (b, .withSpare b.spare)
  | .takeSpare spare =>
    if b.spare = some spare then some ({ b with spare := none }, .insert spare)
    else some (b, .withSpare b.spare)
  | .insert spare =>
    some ({ b with batches := b.batches ++ [spare] }, .spareStatus b.batches.length)
  | .spareStatus j => do
    let x ← b.batches[j]?
    some (b, .withStatus j x.status)
  | .setStatus j => do
    let x ← b.batches[j]?
    some (b.setBatch j { x with status := .inuse }, .loadMem j)
  | .loadMem j => do
    let x ← b.batches[j]?
    some (b, .exchange j x.addr)
  | .exchange j addr => do
    let x ← b.batches[j]?
    let result := cheriSetbounds f addr len
    if x.addr = addr then
      some (b.setBatch j { x with addr := nextAddr b.info result }, .charge j result)
    else some (b, .exchange j x.addr)
  | .charge j result => do
    let x ← b.batches[j]?
    some (b.setBatch j { x with allocated := x.allocated + result.length }, .done j result)
  | .null => none
  | .done _ _ => none

end Bucket

/-- A step of the threads, or a new spare batch. -/
inductive BucketAct
  | pool (act : PoolAct Nat)
  | refill (r : Region)
  deriving DecidableEq

/-- The memory is aligned for the bucket. -/
def Region.AlignedFor (r : Region) (info : BucketInfo) : Prop :=
  info.alignment ∣ r.base ∧ info.alignment ∣ r.size

instance (r : Region) (info : BucketInfo) : Decidable (r.AlignedFor info) :=
  inferInstanceAs (Decidable (_ ∧ _))

/-- One step. A thread has a length that selects the bucket `i` of the table. -/
def bucketStep (f : CapFormat) (table : List BucketInfo) (i : Nat)
    (s : Pool Bucket Nat MallocPc) : BucketAct → Option (Pool Bucket Nat MallocPc)
  | .pool (.arrive len) =>
    if getBucket table len = some i then poolStep .first (Bucket.mallocStep f) s (.arrive len)
    else none
  | .pool (.advance r) => poolStep .first (Bucket.mallocStep f) s (.advance r)
  | .refill r =>
    if s.shared.spare = none ∧ s.shared.info.allocSize ≤ r.size ∧ r.AlignedFor s.shared.info then
      some { s with shared := { s.shared with spare := some (newBatch r) } }
    else none

/-- A bucket after `init_bucket`, and no thread. -/
def initPool (info : BucketInfo) (first second : Region) : Pool Bucket Nat MallocPc :=
  ⟨⟨info, [newBatch first], some (newBatch second)⟩, []⟩

end Comsg.Ccmalloc
