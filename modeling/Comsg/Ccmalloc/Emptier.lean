import Comsg.Ccmalloc.Threads

/-!
# `Comsg.Ccmalloc.Emptier`: the thread that empties batches

The threads of one bucket, which also free what they got, and `empty_buckets` beside them.

* `ClientPc`: a thread in `cocall_malloc`, with an allocation, or in `cocall_free`
  (`ccmalloc.c:336-352`). `getBucket` has to give this bucket for the length of the capability.
  The batch is found in one step, since batches only join the list before the first one.
* `EmptierPc`: `empty_buckets` in this bucket (`ccmalloc.c:256-290`). `LIST_FIRST` is the batch with
  the highest number, and `LIST_NEXT` goes down by one.
* `released`: the batches whose memory was freed, in order.
-/

set_option autoImplicit false

namespace Comsg.Ccmalloc

open Comsg.Lib

/-- Where a client is. `find` and `add` have given up the capability, which is from batch `j`, and
`k` is the batch that was found for it. -/
inductive ClientPc
  | malloc (pc : MallocPc)
  | find (j : Nat) (cap : Cap)
  | add (j k : Nat) (cap : Cap)
  | freed
  deriving DecidableEq, Repr

/-- Where `empty_buckets` is. -/
inductive EmptierPc
  | first
  | next (j : Nat)
  | status (j : Nat)
  | allocated (j : Nat)
  | freed (j allocated : Nat)
  | free (j : Nat)
  | mark (j : Nat)
  deriving DecidableEq, Repr

namespace Bucket

/-- One step of a client. -/
def clientStep (f : CapFormat) (table : List BucketInfo) (i : Nat) (b : Bucket) (len : Nat) :
    ClientPc → Option (Bucket × ClientPc)
  | .malloc (.done j cap) => some (b, .find j cap)
  | .malloc pc            => (b.mallocStep f len pc).map fun q => (q.1, .malloc q.2)
  | .find j cap =>
    if getBucket table cap.length = some i then
      (findBatch b.batches cap.base).map fun k => (b, .add j k cap)
    else none
  | .add _ k cap => do
    let x ← b.batches[k]?
    some (b.setBatch k { x with freed := x.freed + cap.length }, .freed)
  | .freed => none

/-- One step of `empty_buckets`, with the batch whose memory it frees in this step. -/
def emptierStep (b : Bucket) : EmptierPc → Option (Bucket × EmptierPc × Option Nat)
  | .first      => some (b, .next (b.batches.length - 1), none)
  | .next 0     => some (b, .first, none)
  | .next (j + 1) => some (b, .status j, none)
  | .status j => do
    let x ← b.batches[j]?
    some (b, if x.status = .freed then .next j else .allocated j, none)
  | .allocated j => do
    let x ← b.batches[j]?
    some (b, if x.allocated = 0 then .next j else .freed j x.allocated, none)
  | .freed j allocated => do
    let x ← b.batches[j]?
    some (b, if allocated ≠ x.freed then .next j else .free j, none)
  | .free j => some (b, .mark j, some j)
  | .mark j => do
    let x ← b.batches[j]?
    some (b.setBatch j { x with status := .freed }, .next j, none)

end Bucket

/-- The clients of a bucket and `empty_buckets`. -/
structure Emptying where
  pool : Pool Bucket Nat ClientPc
  emptier : EmptierPc
  released : List Nat
  deriving DecidableEq

inductive EmptyingAct
  | client (act : PoolAct Nat)
  | refill (r : Region)
  | emptier
  deriving DecidableEq

/-- One step. -/
def emptyingStep (f : CapFormat) (table : List BucketInfo) (i : Nat) (s : Emptying) :
    EmptyingAct → Option Emptying
  | .client act =>
    (poolStep (.malloc .first) (Bucket.clientStep f table i) s.pool act).map fun pool =>
      { s with pool := pool }
  | .refill r =>
    if s.pool.shared.spare = none then
      some { s with pool := { s.pool with shared :=
        { s.pool.shared with spare := some (newBatch r) } } }
    else none
  | .emptier => do
    let (b, pc, freed) ← s.pool.shared.emptierStep s.emptier
    some ⟨{ s.pool with shared := b }, pc, s.released ++ freed.toList⟩

/-- A bucket after `init_bucket`, without clients, and `empty_buckets` at its start. -/
def initEmptying (info : BucketInfo) (first second : Region) : Emptying :=
  ⟨⟨⟨info, [newBatch first], some (newBatch second)⟩, []⟩, .first, []⟩

end Comsg.Ccmalloc
