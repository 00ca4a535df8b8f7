import Comsg.Ccmalloc.Buckets

/-!
# `Comsg.Proofs.Ccmalloc.Buckets`: which bucket, and how much of a batch

`cocall_malloc` looks for the bucket of a length, and `cocall_free` for that of the rounded length.
`getBucket_rounded_iff` says when they find the same one: no bucket that comes before may have the
rounded length as its rounded size.

An allocation stays within a batch that has enough memory left (`BatchAligned.nextAddr_le`), since
the memory of a batch is taken in multiples of the bucket's alignment.
-/

set_option autoImplicit false

namespace Comsg.Proofs.Ccmalloc

open Comsg.Ccmalloc Comsg.Lib

variable {f : CapFormat}

/-! ### The table -/

/-- The fields of a bucket that come from its size. -/
structure InfoOk (f : CapFormat) (b : BucketInfo) : Prop where
  cherisize : b.cherisize = f.rounded b.size
  alignment : b.alignment = f.align b.size

theorem initBucket_ok (len : Nat) (extra : Bool) : InfoOk f (initBucket f len extra) := ⟨rfl, rfl⟩

theorem initLoop_ok (last : BucketInfo) (sizes : List Nat) (hlast : InfoOk f last) :
    ∀ b ∈ initLoop f last sizes, InfoOk f b := by
  induction sizes generalizing last with
  | nil =>
    intro b hb
    rw [List.mem_singleton.mp hb]
    exact hlast
  | cons size rest ih =>
    intro b hb
    rw [initLoop] at hb
    split at hb
    · refine ih _ ?_ b hb
      exact ⟨hlast.cherisize, hlast.alignment⟩
    · rcases List.mem_cons.mp hb with rfl | hb
      · exact hlast
      · exact ih _ (initBucket_ok _ _) b hb

theorem bucketTable_ok (f : CapFormat) (sizes : List Nat) :
    ∀ b ∈ bucketTable f sizes, InfoOk f b := by
  unfold bucketTable
  split
  · intro b hb
    cases hb
  · exact initLoop_ok _ _ (initBucket_ok _ _)

/-! ### The bucket of a length -/

section Buckets
variable {table : List BucketInfo} {len i : Nat}

/-- The bucket that is picked fits, or none fits and it is the last one. -/
theorem getBucket_eq_some (h : getBucket table len = some i) :
    ∃ b, table[i]? = some b ∧ (∀ j < i, ∀ c, table[j]? = some c → c.fits len = false) ∧
      (b.fits len = true ∨ i = table.length - 1 ∧ len < b.size ∧
        ∀ c ∈ table, c.fits len = false) := by
  unfold getBucket at h
  cases hfind : table.findIdx? (fun b => b.fits len) with
  | some k =>
    rw [hfind] at h
    cases h
    obtain ⟨hlt, hfit, hbefore⟩ := List.findIdx?_eq_some_iff_getElem.mp hfind
    refine ⟨table[i], List.getElem?_eq_getElem hlt, fun j hj c hc => ?_, .inl hfit⟩
    obtain ⟨hjlt, rfl⟩ := List.getElem?_eq_some_iff.mp hc
    simpa using hbefore j hj
  | none =>
    rw [hfind] at h
    have hnone : ∀ c ∈ table, c.fits len = false := List.findIdx?_eq_none_iff.mp hfind
    cases hlast : table.getLast? with
    | none => simp [hlast] at h
    | some last =>
      simp only [hlast, Option.ite_none_right_eq_some, Option.some.injEq] at h
      obtain ⟨hlt, rfl⟩ := h
      rw [List.getLast?_eq_getElem?] at hlast
      exact ⟨last, hlast, fun j _ c hc => hnone c (List.mem_of_getElem? hc),
        .inr ⟨rfl, hlt, hnone⟩⟩

theorem getBucket_of_fits {b : BucketInfo} (hb : table[i]? = some b) (hfit : b.fits len = true)
    (hbefore : ∀ j < i, ∀ c, table[j]? = some c → c.fits len = false) :
    getBucket table len = some i := by
  obtain ⟨hlt, rfl⟩ := List.getElem?_eq_some_iff.mp hb
  have hfind : table.findIdx? (fun b => b.fits len) = some i := by
    refine List.findIdx?_eq_some_iff_getElem.mpr ⟨hlt, hfit, fun j hj => ?_⟩
    simp [hbefore j hj _ (List.getElem?_eq_getElem (Nat.lt_trans hj hlt))]
  simp [getBucket, hfind]

theorem getBucket_of_none {b : BucketInfo} (hb : table[table.length - 1]? = some b)
    (hlt : len < b.size) (hnone : ∀ c ∈ table, c.fits len = false) :
    getBucket table len = some (table.length - 1) := by
  have hfind : table.findIdx? (fun b => b.fits len) = none := List.findIdx?_eq_none_iff.mpr hnone
  have hlast : table.getLast? = some b := by rw [List.getLast?_eq_getElem?, hb]
  simp [getBucket, hfind, hlast, hlt]

/-- A bucket fits a rounded length if and only if it is the bucket's rounded size. -/
theorem fits_rounded_iff {b : BucketInfo} (hb : InfoOk f b) :
    b.fits (f.rounded len) = true ↔ b.cherisize = f.rounded len := by
  simp only [BucketInfo.fits, Bool.or_eq_true, decide_eq_true_eq]
  refine ⟨fun h => ?_, fun h => .inr h.symm⟩
  rcases h with h | h
  · rw [hb.cherisize, ← h, f.rounded_rounded]
  · exact h.symm

/-- The bucket of a length is that of the rounded length too, unless a bucket that comes before has
the same rounded size. -/
theorem getBucket_rounded_iff (htable : ∀ b ∈ table, InfoOk f b)
    (h : getBucket table len = some i) :
    getBucket table (f.rounded len) = some i ↔
      ∀ j < i, ∀ b, table[j]? = some b → b.cherisize ≠ f.rounded len := by
  obtain ⟨b, hb, hbefore, hpick⟩ := getBucket_eq_some h
  have hok := htable b (List.mem_of_getElem? hb)
  have hfits (j : Nat) (c : BucketInfo) (hc : table[j]? = some c) :
      c.fits (f.rounded len) = false ↔ c.cherisize ≠ f.rounded len := by
    rw [← Bool.not_eq_true, fits_rounded_iff (htable c (List.mem_of_getElem? hc))]
  constructor
  · intro hround j hj c hc
    obtain ⟨_, _, hbefore', -⟩ := getBucket_eq_some hround
    exact (hfits j c hc).mp (hbefore' j hj c hc)
  · intro hapart
    have hnone : ∀ j < i, ∀ c, table[j]? = some c → c.fits (f.rounded len) = false :=
      fun j hj c hc => (hfits j c hc).mpr (hapart j hj c hc)
    rcases hpick with hfit | ⟨rfl, hlt, -⟩
    · -- The rounded length is the rounded size of the bucket.
      refine getBucket_of_fits hb ((fits_rounded_iff hok).mpr ?_) hnone
      simp only [BucketInfo.fits, Bool.or_eq_true, decide_eq_true_eq] at hfit
      rcases hfit with rfl | rfl
      · exact hok.cherisize
      · rw [hok.cherisize, f.rounded_rounded]
    · -- The last bucket was picked since the length is less than its size.
      by_cases hsame : b.cherisize = f.rounded len
      · exact getBucket_of_fits hb ((fits_rounded_iff hok).mpr hsame) hnone
      · have hless : f.rounded len < b.size := by
          refine Nat.lt_of_not_le fun hle => hsame ?_
          rw [hok.cherisize]
          exact f.rounded_eq_of_le (Nat.le_of_lt hlt) hle
        refine getBucket_of_none hb hless fun c hc => ?_
        obtain ⟨j, hj⟩ := List.mem_iff_getElem?.mp hc
        have hjlt := (List.getElem?_eq_some_iff.mp hj).1
        by_cases heq : j = table.length - 1
        · subst heq
          rw [hb] at hj
          cases hj
          exact (hfits _ b hb).mpr hsame
        · exact hnone j (by omega) c hj

/-- A length is not greater than the rounded size of its bucket, and its alignment divides that of
the bucket. -/
theorem getBucket_le {b : BucketInfo} (hok : InfoOk f b) (h : getBucket table len = some i)
    (hb : table[i]? = some b) : len ≤ b.cherisize ∧ f.align len ∣ b.alignment := by
  obtain ⟨c, hc, -, hpick⟩ := getBucket_eq_some h
  rw [hb] at hc
  cases hc
  have hle : len ≤ b.cherisize := by
    simp only [BucketInfo.fits, Bool.or_eq_true, decide_eq_true_eq] at hpick
    have hround := f.le_rounded b.size
    rw [← hok.cherisize] at hround
    rcases hpick with (rfl | rfl) | ⟨-, hlt, -⟩
    · exact hround
    · exact Nat.le_refl _
    · omega
  refine ⟨hle, ?_⟩
  rw [hok.cherisize] at hle
  rw [hok.alignment, ← f.align_rounded b.size]
  exact f.align_dvd_align hle

end Buckets

/-! ### Batches -/

/-- The memory of a batch is in multiples of the bucket's alignment. -/
structure BatchAligned (info : BucketInfo) (b : Batch) : Prop where
  base : info.alignment ∣ b.base
  size : info.alignment ∣ b.size
  addr : info.alignment ∣ b.addr
  base_le : b.base ≤ b.addr

/-- There was enough of it for an allocation of the bucket's size, and no more was taken than there
was. -/
structure BatchOk (info : BucketInfo) (b : Batch) : Prop extends BatchAligned info b where
  le_size : info.size ≤ b.size
  addr_le : b.addr ≤ b.base + b.size

section Batches
variable {info : BucketInfo} {b : Batch} {len : Nat}

theorem InfoOk.alignment_pos (h : InfoOk f info) : 0 < info.alignment := by
  rw [h.alignment]
  exact f.align_pos _

/-- `mem_remaining` is not more than what is left. -/
theorem memRemaining_le (hle : b.addr ≤ b.base + b.size) :
    b.addr + b.memRemaining ≤ b.base + b.size := by
  obtain ⟨left, hleft⟩ : ∃ left : Nat, b.base + b.size = b.addr + left :=
    ⟨b.base + b.size - b.addr, by omega⟩
  have hint : (b.size : Int) - ((b.addr : Int) - b.base) = (left : Int) := by omega
  have hmod : b.memRemaining = left % 2 ^ 64 := by
    rw [Batch.memRemaining, hint]
    rfl
  have := Nat.mod_le left (2 ^ 64)
  omega

/-- The next address is after the allocation. -/
theorem le_nextAddr (hinfo : InfoOk f info) (addr len : Nat) :
    addr + f.rounded len ≤ nextAddr info (cheriSetbounds f addr len) :=
  le_alignUp hinfo.alignment_pos _

theorem BatchAligned.advance (hinfo : InfoOk f info) (h : BatchAligned info b) (len : Nat) :
    BatchAligned info { b with addr := nextAddr info (cheriSetbounds f b.addr len) } := by
  have hle := le_nextAddr hinfo b.addr len
  have hbase := h.base_le
  refine ⟨h.base, h.size, dvd_alignUp _ _, ?_⟩
  show b.base ≤ nextAddr info (cheriSetbounds f b.addr len)
  omega

/-- What is left is a multiple of the alignment, so it has room for the rounded length too. -/
theorem BatchAligned.nextAddr_le (hinfo : InfoOk f info) (h : BatchAligned info b)
    (hdvd : f.align len ∣ info.alignment) (hleft : b.addr + len ≤ b.base + b.size) :
    nextAddr info (cheriSetbounds f b.addr len) ≤ b.base + b.size := by
  have hend : info.alignment ∣ b.base + b.size := Nat.dvd_add h.base h.size
  obtain ⟨left, hsub⟩ : ∃ left, b.base + b.size = b.addr + left :=
    ⟨b.base + b.size - b.addr, by omega⟩
  have hdvdleft : info.alignment ∣ left := by
    rw [hsub] at hend
    exact (Nat.dvd_add_right h.addr).mp hend
  have hround : f.rounded len ≤ left :=
    alignUp_le (f.align_pos len) (Nat.dvd_trans hdvd hdvdleft) (by omega)
  refine alignUp_le hinfo.alignment_pos hend ?_
  show b.addr + f.rounded len ≤ b.base + b.size
  omega

/-- An allocation of a length stays within the memory. -/
theorem BatchOk.malloc (hinfo : InfoOk f info) (h : BatchOk info b)
    (hdvd : f.align len ∣ info.alignment) (hleft : b.addr + len ≤ b.base + b.size) :
    BatchOk info (b.malloc f info len).1 := by
  have hadvance := h.toBatchAligned.advance hinfo len
  exact ⟨⟨hadvance.base, hadvance.size, hadvance.addr, hadvance.base_le⟩, h.le_size,
    h.toBatchAligned.nextAddr_le hinfo hdvd hleft⟩

/-- A new batch has room for each length of its bucket. -/
theorem BatchOk.le_of_new (hinfo : InfoOk f info) (h : BatchOk info b) (hnew : b.addr = b.base)
    (hle : len ≤ info.cherisize) : b.addr + len ≤ b.base + b.size := by
  have hround : f.rounded info.size ≤ b.size :=
    alignUp_le (f.align_pos _) (hinfo.alignment ▸ h.size) h.le_size
  rw [hinfo.cherisize] at hle
  omega

theorem newBatch_ok {r : Region} {n : Nat} (hinfo : InfoOk f info) (hroom : info.size ≤ n)
    (hle : n ≤ r.size) (hbase : f.align n ∣ r.base) (hsize : f.align n ∣ r.size) :
    BatchOk info (newBatch r) := by
  have hdvd : info.alignment ∣ f.align n := by
    rw [hinfo.alignment]
    exact f.align_dvd_align hroom
  have hbase' := Nat.dvd_trans hdvd hbase
  exact ⟨⟨hbase', Nat.dvd_trans hdvd hsize, hbase', Nat.le_refl _⟩, Nat.le_trans hroom hle,
    Nat.le_add_right _ _⟩

end Batches

/-! ### The batch of an address -/

section Find
variable {batches : List Batch} {addr j : Nat}

/-- The newest batch with the address is found. -/
theorem findBatch_eq {b : Batch} (hb : batches[j]? = some b) (hin : b.inBounds addr = true)
    (hnewer : ∀ k c, j < k → batches[k]? = some c → c.inBounds addr = false) :
    findBatch batches addr = some j := by
  have hjlt := (List.getElem?_eq_some_iff.mp hb).1
  obtain ⟨n, hn⟩ : ∃ n, batches.length = j + 1 + n := ⟨batches.length - (j + 1), by omega⟩
  have hsplit : (List.range batches.length).reverse =
      ((List.range n).map (j + 1 + ·)).reverse ++ j :: (List.range j).reverse := by
    rw [hn, List.range_add, List.range_succ, List.reverse_append, List.reverse_append]
    rfl
  have hfirst : ((List.range n).map (j + 1 + ·)).reverse.find? (fun k =>
      batches[k]?.any fun b => b.inBounds addr) = none := by
    rw [List.find?_eq_none]
    intro k hk
    obtain ⟨m, -, rfl⟩ := List.mem_map.mp (List.mem_reverse.mp hk)
    cases hc : batches[j + 1 + m]? with
    | none => simp
    | some c => simp [hnewer _ c (by omega) hc]
  rw [findBatch, hsplit, List.find?_append, hfirst, Option.none_or, List.find?_cons_of_pos]
  simp [hb, hin]

end Find

end Comsg.Proofs.Ccmalloc
