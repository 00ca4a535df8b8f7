import Comsg.Ccmalloc.Emptier
import Comsg.Proofs.Ccmalloc.Threads

/-!
# `Comsg.Proofs.Ccmalloc.Emptier`: when the emptier is safe

`empty_buckets` compares the two counters of a batch and frees its memory when they are equal.
`cocall_malloc` moves `mem` first and adds to `allocated` afterwards. So the memory may be freed
below an allocation that is about to be returned (`emptier_frees_held`).

This takes a call of `cocall_malloc` that is in the batch while `empty_buckets` reads `allocated`.
The batch is not the first one of the list by then, so calls that begin later go to another one:
what is `Idle` stays so. In an idle batch the difference of the counters is what clients hold of it
(`Balanced`), so nobody holds any of a batch that is freed (`emptier_spares_held`).
-/

set_option autoImplicit false

namespace Comsg.Proofs.Ccmalloc

open Comsg.Ccmalloc Comsg.Lib

/-! ### Sums over threads -/

section Sums
variable {α : Type} {xs : List α} {r : Nat} {x y : α} (g : α → Nat)

/-- One element is replaced. -/
theorem sum_set_add (h : xs[r]? = some x) :
    ((xs.set r y).map g).sum + g x = (xs.map g).sum + g y := by
  induction xs generalizing r with
  | nil => simp at h
  | cons z zs ih =>
    cases r with
    | zero =>
      cases h
      simp only [List.set_cons_zero, List.map_cons, List.sum_cons]
      omega
    | succ r =>
      have hrest := ih (r := r) h
      simp only [List.set_cons_succ, List.map_cons, List.sum_cons]
      omega

theorem le_sum_of_mem (h : x ∈ xs) : g x ≤ (xs.map g).sum := by
  induction xs with
  | nil => cases h
  | cons z zs ih =>
    simp only [List.map_cons, List.sum_cons]
    cases List.mem_cons.mp h with
    | inl heq =>
      subst heq
      omega
    | inr hmem =>
      have := ih hmem
      omega

theorem sum_eq_zero (h : ∀ z ∈ xs, g z = 0) : (xs.map g).sum = 0 := by
  induction xs with
  | nil => rfl
  | cons z zs ih =>
    simp only [List.map_cons, List.sum_cons, h z List.mem_cons_self,
      ih fun z' hz' => h z' (List.mem_cons_of_mem z hz')]

end Sums

/-! ### One step of a client -/

/-- The batch that a call of `cocall_malloc` is in. -/
def inBatch : ClientPc → Option Nat
  | .malloc (.firstStatus j)   => some j
  | .malloc (.remaining j _)   => some j
  | .malloc (.spareStatus j)   => some j
  | .malloc (.setStatus j)     => some j
  | .malloc (.loadMem j)       => some j
  | .malloc (.exchange j _)    => some j
  | .malloc (.charge j _)      => some j
  | _                          => none

/-- The allocation that was added to `allocated` and not to `freed` yet. -/
def charged : ClientPc → Option (Nat × Cap)
  | .malloc (.done j cap) => some (j, cap)
  | .find j cap           => some (j, cap)
  | .add j _ cap          => some (j, cap)
  | _                     => none

/-- The bytes of batch `j` in it. -/
def owed (j : Nat) (pc : ClientPc) : Nat :=
  match charged pc with
  | some (k, cap) => if k = j then cap.length else 0
  | none          => 0

/-- The spare batch that a client has taken. -/
def takenSpare : ClientPc → Option Batch
  | .malloc pc => takenBatch pc
  | _          => none

/-- Nothing was allocated in the batch. -/
def Untouched (x : Batch) : Prop := x.allocated = 0 ∧ x.freed = 0

/-- What a step of a client from `pc` to `pc'` does to the bucket. -/
structure ClientEffect (b b' : Bucket) (pc pc' : ClientPc) : Prop where
  length_le : b.batches.length ≤ b'.batches.length
  old : ∀ (j : Nat) (x : Batch), b.batches[j]? = some x → ∃ y, b'.batches[j]? = some y ∧
    y.allocated + x.freed + owed j pc = x.allocated + y.freed + owed j pc' ∧
    (inBatch pc ≠ some j → y.allocated = x.allocated ∧ y.status = x.status)
  new : ∀ (j : Nat) (y : Batch), b'.batches[j]? = some y → b.batches.length ≤ j →
    takenSpare pc = some y
  batch : ∀ j, inBatch pc' = some j → inBatch pc = some j ∨ j + 1 = b'.batches.length
  owes : ∀ j, inBatch pc ≠ some j → owed j pc' ≤ owed j pc
  charged : ∀ j cap, charged pc' = some (j, cap) → inBatch pc = some j ∨ charged pc = some (j, cap)
  spare : ∀ x, b'.spare = some x → b.spare = some x
  taken : ∀ x, takenSpare pc' = some x → b.spare = some x ∨ takenSpare pc = some x

section Client
variable {f : CapFormat} {table : List BucketInfo} {i len j : Nat} {b b' : Bucket}
  {pc pc' : ClientPc} {x y : Batch}

/-- A step that leaves the bucket alone and gets nothing. -/
theorem ClientEffect.of_idle (howed : ∀ j, owed j pc' = owed j pc)
    (hbatch : ∀ j, inBatch pc' = some j → inBatch pc = some j ∨ j + 1 = b.batches.length)
    (hcharged : ∀ j cap, Ccmalloc.charged pc' = some (j, cap) →
      Ccmalloc.charged pc = some (j, cap))
    (htaken : ∀ x, takenSpare pc' = some x → b.spare = some x ∨ takenSpare pc = some x) :
    ClientEffect b b pc pc' where
  length_le := Nat.le_refl _
  old j x hx := ⟨x, hx, by rw [howed j], fun _ => ⟨rfl, rfl⟩⟩
  new j y hy hj := absurd (List.getElem?_eq_some_iff.mp hy).1 (Nat.not_lt.mpr hj)
  batch := hbatch
  owes j _ := Nat.le_of_eq (howed j)
  charged j cap h := .inr (hcharged j cap h)
  spare _ h := h
  taken := htaken

/-- A store to the batch `j`. -/
theorem ClientEffect.of_set (hx : b.batches[j]? = some x)
    (hbalance : y.allocated + x.freed + owed j pc = x.allocated + y.freed + owed j pc')
    (hkeeps : inBatch pc ≠ some j → y.allocated = x.allocated ∧ y.status = x.status)
    (howed : ∀ k, k ≠ j → owed k pc' = owed k pc)
    (howes : inBatch pc ≠ some j → owed j pc' ≤ owed j pc)
    (hbatch : ∀ k, inBatch pc' = some k → inBatch pc = some k)
    (hcharged : ∀ k cap, Ccmalloc.charged pc' = some (k, cap) →
      inBatch pc = some k ∨ Ccmalloc.charged pc = some (k, cap))
    (htaken : takenSpare pc' = none) : ClientEffect b (b.setBatch j y) pc pc' where
  length_le := Nat.le_of_eq (List.length_set ..).symm
  old k z hz := by
    by_cases hk : j = k
    · subst hk
      rw [hx] at hz
      cases hz
      exact ⟨y, setBatch_getElem? hx y, hbalance, hkeeps⟩
    · exact ⟨z, (List.getElem?_set_ne hk).trans hz, by rw [howed k (Ne.symm hk)],
        fun _ => ⟨rfl, rfl⟩⟩
  new k z hz hk := by
    have hlt := (List.getElem?_eq_some_iff.mp hz).1
    rw [Bucket.setBatch, List.length_set] at hlt
    exact absurd hlt (Nat.not_lt.mpr hk)
  batch k hk := .inl (hbatch k hk)
  owes k hk := by
    by_cases heq : k = j
    · subst heq
      exact howes hk
    · exact Nat.le_of_eq (howed k heq)
  charged := hcharged
  spare _ h := h
  taken z hz := by
    rw [htaken] at hz
    cases hz

theorem inBatch_withStatus (j : Nat) (status : BatchStatus) :
    inBatch (.malloc (.withStatus j status)) = some j := by
  unfold MallocPc.withStatus
  split <;> rfl

theorem charged_withStatus (j : Nat) (status : BatchStatus) :
    charged (.malloc (.withStatus j status)) = none := by
  unfold MallocPc.withStatus
  split <;> rfl

theorem owed_eq_zero (h : charged pc = none) (j : Nat) : owed j pc = 0 := by
  rw [owed, h]

theorem inBatch_withSpare (spare : Option Batch) :
    inBatch (.malloc (.withSpare spare)) = none := by
  cases spare <;> rfl

theorem charged_withSpare (spare : Option Batch) :
    charged (.malloc (.withSpare spare)) = none := by
  cases spare <;> rfl

theorem takenSpare_withSpare (spare : Option Batch) :
    takenSpare (.malloc (.withSpare spare)) = spare := by
  cases spare <;> rfl

/-- A step of `cocall_malloc` to a place without an allocation, in the same batch if in any. -/
theorem ClientEffect.of_move (hfrom : Ccmalloc.charged pc = none)
    (hto : Ccmalloc.charged pc' = none)
    (hbatch : ∀ j, inBatch pc' = some j → inBatch pc = some j ∨ j + 1 = b.batches.length)
    (htaken : ∀ x, takenSpare pc' = some x → b.spare = some x ∨ takenSpare pc = some x) :
    ClientEffect b b pc pc' := by
  refine .of_idle (fun j => ?_) hbatch (fun j cap h => ?_) htaken
  · rw [owed_eq_zero hfrom, owed_eq_zero hto]
  · rw [hto] at h
    cases h

theorem mallocStep_effect {mpc mpc' : MallocPc} (hne : 0 < b.batches.length)
    (hdone : ∀ j cap, mpc ≠ .done j cap) (h : b.mallocStep f len mpc = some (b', mpc')) :
    ClientEffect b b' (.malloc mpc) (.malloc mpc') := by
  cases mpc with
  | first =>
    cases h
    refine .of_move rfl rfl (fun j hj => .inr ?_) (fun x hx => (by cases hx))
    cases hj
    exact Nat.sub_add_cancel hne
  | firstStatus j =>
    obtain ⟨x, _, h⟩ := Option.bind_eq_some_iff.mp h
    cases h
    exact .of_move rfl rfl (fun k hk => .inl hk) (fun x hx => (by cases hx))
  | remaining j status =>
    obtain ⟨x, _, h⟩ := Option.bind_eq_some_iff.mp h
    cases h
    split
    · exact .of_move rfl rfl (fun k hk => (by cases hk)) (fun x hx => (by cases hx))
    · refine .of_move rfl (charged_withStatus j status) (fun k hk => .inl ?_) (fun y hy => ?_)
      · rwa [inBatch_withStatus] at hk
      · rw [takenSpare, takenBatch_withStatus] at hy
        cases hy
  | loadSpare =>
    cases h
    refine .of_move rfl (charged_withSpare _) (fun k hk => ?_) (fun x hx => .inl ?_)
    · rw [inBatch_withSpare] at hk
      cases hk
    · rwa [takenSpare_withSpare] at hx
  | takeSpare spare =>
    rw [Bucket.mallocStep] at h
    split_ifs at h
    · cases h
      have hmove : ClientEffect b b (.malloc (.takeSpare spare)) (.malloc (.insert spare)) :=
        .of_move rfl rfl (fun k hk => (by cases hk)) (fun x hx => .inr hx)
      exact { hmove with spare := fun x hx => (by cases hx) }
    · cases h
      refine .of_move rfl (charged_withSpare _) (fun k hk => ?_) (fun x hx => .inl ?_)
      · rw [inBatch_withSpare] at hk
        cases hk
      · rwa [takenSpare_withSpare] at hx
  | insert spare =>
    cases h
    refine ⟨?_, fun j x hx => ⟨x, ?_, rfl, fun _ => ⟨rfl, rfl⟩⟩, fun j y hy hj => ?_,
      fun j hj => .inr ?_, fun _ _ => Nat.le_refl _, fun j cap hj => (by cases hj), fun _ hx => hx,
      fun x hx => (by cases hx)⟩
    · rw [List.length_append]
      exact Nat.le_add_right _ _
    · rw [List.getElem?_append_left (List.getElem?_eq_some_iff.mp hx).1, hx]
    · rw [List.getElem?_append_right hj] at hy
      have hlt := (List.getElem?_eq_some_iff.mp hy).1
      rw [List.length_singleton, Nat.lt_one_iff] at hlt
      rw [hlt] at hy
      exact hy
    · cases hj
      show b.batches.length + 1 = (b.batches ++ [spare]).length
      rw [List.length_append, List.length_singleton]
  | spareStatus j =>
    obtain ⟨x, _, h⟩ := Option.bind_eq_some_iff.mp h
    cases h
    refine .of_move rfl (charged_withStatus j _) (fun k hk => .inl ?_) (fun y hy => ?_)
    · rwa [inBatch_withStatus] at hk
    · rw [takenSpare, takenBatch_withStatus] at hy
      cases hy
  | setStatus j =>
    obtain ⟨x, hx, h⟩ := Option.bind_eq_some_iff.mp h
    cases h
    exact .of_set hx rfl (fun hj => absurd rfl hj) (fun _ _ => rfl) (fun _ => Nat.le_refl _)
      (fun k hk => hk) (fun k cap hk => (by cases hk)) rfl
  | loadMem j =>
    obtain ⟨x, _, h⟩ := Option.bind_eq_some_iff.mp h
    cases h
    exact .of_move rfl rfl (fun k hk => .inl hk) (fun x hx => (by cases hx))
  | exchange j addr =>
    obtain ⟨x, hx, h⟩ := Option.bind_eq_some_iff.mp h
    split_ifs at h
    · cases h
      exact .of_set hx rfl (fun hj => absurd rfl hj) (fun _ _ => rfl) (fun _ => Nat.le_refl _)
        (fun k hk => hk) (fun k cap hk => (by cases hk)) rfl
    · cases h
      exact .of_move rfl rfl (fun k hk => .inl hk) (fun x hx => (by cases hx))
  | charge j cap =>
    obtain ⟨x, hx, h⟩ := Option.bind_eq_some_iff.mp h
    cases h
    refine .of_set hx ?_ (fun hj => absurd rfl hj) (fun k hk => ?_) (fun hj => absurd rfl hj)
      (fun k hk => (by cases hk)) (fun k c hk => ?_) rfl
    · simp only [owed, charged, if_true]
      omega
    · simp only [owed, charged, if_neg (Ne.symm hk)]
    · cases hk
      exact .inl rfl
  | null => cases h
  | done j cap => exact absurd rfl (hdone j cap)

theorem clientStep_malloc {mpc : MallocPc} (hdone : ∀ j cap, mpc ≠ .done j cap) :
    b.clientStep f table i len (.malloc mpc)
      = (b.mallocStep f len mpc).map fun q => (q.1, .malloc q.2) := by
  cases mpc with
  | done j cap => exact absurd rfl (hdone j cap)
  | _ => rfl

/-- What one step of a client does. `cocall_free` adds to the batch of its allocation. -/
theorem clientStep_effect (hne : 0 < b.batches.length)
    (hfind : ∀ j k cap, pc = .add j k cap → k = j)
    (h : b.clientStep f table i len pc = some (b', pc')) : ClientEffect b b' pc pc' := by
  cases pc with
  | malloc mpc =>
    by_cases hdone : ∃ j cap, mpc = .done j cap
    · obtain ⟨j, cap, hmpc⟩ := hdone
      subst hmpc
      cases h
      exact .of_idle (fun _ => rfl) (fun k hk => (by cases hk)) (fun k c hk => hk)
        (fun x hx => (by cases hx))
    · have hdone' (j : Nat) (cap : Cap) : mpc ≠ .done j cap := fun heq => hdone ⟨j, cap, heq⟩
      rw [clientStep_malloc hdone'] at h
      obtain ⟨q, hq, heq⟩ := Option.map_eq_some_iff.mp h
      cases heq
      exact mallocStep_effect hne hdone' hq
  | find j cap =>
    rw [Bucket.clientStep] at h
    split_ifs at h
    obtain ⟨k, _, heq⟩ := Option.map_eq_some_iff.mp h
    cases heq
    exact .of_idle (fun _ => rfl) (fun k hk => (by cases hk)) (fun k c hk => hk)
      (fun x hx => (by cases hx))
  | add j k cap =>
    have hkj := hfind j k cap rfl
    subst hkj
    obtain ⟨x, hx, h⟩ := Option.bind_eq_some_iff.mp h
    cases h
    refine .of_set hx ?_ (fun _ => ⟨rfl, rfl⟩) (fun l hl => ?_) (fun _ => Nat.zero_le _)
      (fun l hl => (by cases hl)) (fun l c hl => (by cases hl)) rfl
    · simp only [owed, charged, if_true]
      omega
    · simp only [owed, charged, if_neg (Ne.symm hl)]
  | freed => cases h

end Client

/-! ### Every run -/

/-- No call of `cocall_malloc` is in the batch. -/
def Quiet (threads : List (Nat × ClientPc)) (j : Nat) : Prop :=
  ∀ t ∈ threads, inBatch t.2 ≠ some j

/-- A batch that was left. -/
structure Idle (b : Bucket) (threads : List (Nat × ClientPc)) (j : Nat) : Prop where
  notFirst : j + 1 < b.batches.length
  quiet : Quiet threads j

/-- A batch that was left, and nothing of it is held. -/
structure Unused (b : Bucket) (threads : List (Nat × ClientPc)) (j : Nat) : Prop
    extends Idle b threads j where
  owed : ∀ t ∈ threads, owed j t.2 = 0

/-- The steps that the safety of `empty_buckets` depends on. A free finds the batch of its
allocation, and `allocated` is read while no call of `cocall_malloc` is in the batch. -/
def Careful (s : Emptying) : EmptyingAct → Prop
  | .client (.advance r) =>
    ∀ len j k cap, s.pool.threads[r]? = some (len, .add j k cap) → k = j
  | .emptier => ∀ j, s.emptier = .allocated j → Quiet s.pool.threads j
  | _ => True

/-- What `empty_buckets` knows of the batch that it looks at. -/
def EmptierOk (b : Bucket) (threads : List (Nat × ClientPc)) (released : List Nat) :
    EmptierPc → Prop
  | .first       => True
  | .next j      => j < b.batches.length
  | .status j    => j + 1 < b.batches.length
  | .allocated j => j + 1 < b.batches.length ∧ j ∉ released
  | .freed j n   => Idle b threads j ∧ j ∉ released ∧
    ∃ x, b.batches[j]? = some x ∧ x.allocated = n
  | .free j      => Unused b threads j ∧ j ∉ released
  | .mark j      => j + 1 < b.batches.length

/-- The difference of the counters is what clients hold. -/
def Balanced (b : Bucket) (threads : List (Nat × ClientPc)) : Prop :=
  ∀ j x, b.batches[j]? = some x → x.allocated = x.freed + (threads.map fun t => owed j t.2).sum

/-- What holds of the clients and the bucket. -/
structure ClientsOk (b : Bucket) (threads : List (Nat × ClientPc)) : Prop where
  nonempty : 0 < b.batches.length
  spare : ∀ x, b.spare = some x → Untouched x
  taken : ∀ t ∈ threads, ∀ x, takenSpare t.2 = some x → Untouched x
  inRange : ∀ t ∈ threads, ∀ j, inBatch t.2 = some j → j < b.batches.length
  chargedRange : ∀ t ∈ threads, ∀ j cap, charged t.2 = some (j, cap) → j < b.batches.length
  balanced : Balanced b threads

section Clients
variable {b b' : Bucket} {threads : List (Nat × ClientPc)} {r len j : Nat} {pc pc' : ClientPc}

theorem Idle.advance (h : Idle b threads j) (hr : threads[r]? = some (len, pc))
    (heffect : ClientEffect b b' pc pc') : Idle b' (threads.set r (len, pc')) j := by
  have hnotFirst := h.notFirst
  have hlength := heffect.length_le
  refine ⟨by omega, fun t ht hin => ?_⟩
  cases List.mem_or_eq_of_mem_set ht with
  | inl hold => exact h.quiet t hold hin
  | inr hnew =>
    subst hnew
    cases heffect.batch j hin with
    | inl hbefore => exact h.quiet _ (List.mem_of_getElem? hr) hbefore
    | inr hlast => omega

theorem Unused.advance (h : Unused b threads j) (hr : threads[r]? = some (len, pc))
    (heffect : ClientEffect b b' pc pc') : Unused b' (threads.set r (len, pc')) j := by
  refine ⟨h.toIdle.advance hr heffect, fun t ht => ?_⟩
  cases List.mem_or_eq_of_mem_set ht with
  | inl hold => exact h.owed t hold
  | inr hnew =>
    subst hnew
    have hbefore := h.owed _ (List.mem_of_getElem? hr)
    exact Nat.le_zero.mp (hbefore ▸ heffect.owes j (h.quiet _ (List.mem_of_getElem? hr)))

theorem ClientsOk.advance (h : ClientsOk b threads) (hr : threads[r]? = some (len, pc))
    (heffect : ClientEffect b b' pc pc') : ClientsOk b' (threads.set r (len, pc')) := by
  have hmem := List.mem_of_getElem? hr
  have hlength := heffect.length_le
  refine ⟨Nat.lt_of_lt_of_le h.nonempty hlength, fun x hx => h.spare x (heffect.spare x hx),
    fun t ht x hx => ?_, fun t ht j hj => ?_, fun t ht j cap hj => ?_, fun j y hy => ?_⟩
  · cases List.mem_or_eq_of_mem_set ht with
    | inl hold => exact h.taken t hold x hx
    | inr hnew =>
      subst hnew
      cases heffect.taken x hx with
      | inl hspare => exact h.spare x hspare
      | inr htaken => exact h.taken _ hmem x htaken
  · cases List.mem_or_eq_of_mem_set ht with
    | inl hold => exact Nat.lt_of_lt_of_le (h.inRange t hold j hj) hlength
    | inr hnew =>
      subst hnew
      cases heffect.batch j hj with
      | inl hbefore => exact Nat.lt_of_lt_of_le (h.inRange _ hmem j hbefore) hlength
      | inr hlast => omega
  · cases List.mem_or_eq_of_mem_set ht with
    | inl hold => exact Nat.lt_of_lt_of_le (h.chargedRange t hold j cap hj) hlength
    | inr hnew =>
      subst hnew
      cases heffect.charged j cap hj with
      | inl hbefore => exact Nat.lt_of_lt_of_le (h.inRange _ hmem j hbefore) hlength
      | inr hbefore => exact Nat.lt_of_lt_of_le (h.chargedRange _ hmem j cap hbefore) hlength
  · have hsum : ((threads.set r (len, pc')).map fun t => owed j t.2).sum + owed j pc
        = (threads.map fun t => owed j t.2).sum + owed j pc' :=
      sum_set_add (fun t : Nat × ClientPc => owed j t.2) hr
    by_cases hj : j < b.batches.length
    · have hx := List.getElem?_eq_getElem hj
      obtain ⟨y', hy', hbalance, _⟩ := heffect.old j _ hx
      rw [hy] at hy'
      cases hy'
      have hold := h.balanced j _ hx
      omega
    · -- a batch that has just joined the list
      have hnew := h.taken _ hmem y (heffect.new j y hy (Nat.le_of_not_lt hj))
      have hnone (t : Nat × ClientPc) (ht : t ∈ threads) : owed j t.2 = 0 := by
        cases hcharged : charged t.2 with
        | none => exact owed_eq_zero hcharged j
        | some q =>
          have hq : q.1 < b.batches.length := h.chargedRange t ht q.1 q.2 hcharged
          have hne : q.1 ≠ j := fun heq => hj (heq ▸ hq)
          simp only [owed, hcharged, if_neg hne]
      have hzero := sum_eq_zero (fun t : Nat × ClientPc => owed j t.2) hnone
      have hafter : owed j pc' ≤ owed j pc :=
        heffect.owes j fun hin => hj (h.inRange _ hmem j hin)
      have hbefore : owed j pc = 0 := hnone _ hmem
      have hallocated := hnew.1
      have hfreed := hnew.2
      omega

/-- What a call does not touch, when it is not in the batch. -/
theorem ClientEffect.keeps (heffect : ClientEffect b b' pc pc') {x : Batch}
    (hx : b.batches[j]? = some x) (hnot : inBatch pc ≠ some j) :
    ∃ y, b'.batches[j]? = some y ∧ y.allocated = x.allocated ∧ y.status = x.status := by
  obtain ⟨y, hy, _, hkeeps⟩ := heffect.old j x hx
  exact ⟨y, hy, hkeeps hnot⟩

theorem EmptierOk.advance {released : List Nat} {epc : EmptierPc}
    (h : EmptierOk b threads released epc) (hr : threads[r]? = some (len, pc))
    (heffect : ClientEffect b b' pc pc') :
    EmptierOk b' (threads.set r (len, pc')) released epc := by
  have hlength := heffect.length_le
  cases epc with
  | first => trivial
  | next j => exact Nat.lt_of_lt_of_le h hlength
  | status j => exact Nat.lt_of_lt_of_le h hlength
  | allocated j => exact ⟨Nat.lt_of_lt_of_le h.1 hlength, h.2⟩
  | freed j n =>
    obtain ⟨hidle, hnot, x, hx, hn⟩ := h
    obtain ⟨y, hy, hallocated, _⟩ := heffect.keeps hx (hidle.quiet _ (List.mem_of_getElem? hr))
    exact ⟨hidle.advance hr heffect, hnot, y, hy, hallocated.trans hn⟩
  | free j => exact ⟨h.1.advance hr heffect, h.2⟩
  | mark j => exact Nat.lt_of_lt_of_le h hlength

/-- `empty_buckets` is in a batch that is not the first one from the second batch on. -/
structure EmptyingOk (s : Emptying) : Prop where
  clients : ClientsOk s.pool.shared s.pool.threads
  emptier : EmptierOk s.pool.shared s.pool.threads s.released s.emptier
  released : ∀ j ∈ s.released, Unused s.pool.shared s.pool.threads j ∧
    (s.emptier = .mark j ∨ ∃ x, s.pool.shared.batches[j]? = some x ∧ x.status = .freed)
  nodup : s.released.Nodup

theorem emptyingOk_advance {s : Emptying} (h : EmptyingOk s)
    (hr : s.pool.threads[r]? = some (len, pc)) (heffect : ClientEffect s.pool.shared b' pc pc') :
    EmptyingOk { s with pool := ⟨b', s.pool.threads.set r (len, pc')⟩ } := by
  refine ⟨h.clients.advance hr heffect, h.emptier.advance hr heffect, fun j hj => ?_, h.nodup⟩
  obtain ⟨hunused, hmarked⟩ := h.released j hj
  refine ⟨hunused.advance hr heffect, ?_⟩
  cases hmarked with
  | inl hmark => exact .inl hmark
  | inr hfreed =>
    obtain ⟨x, hx, hstatus⟩ := hfreed
    obtain ⟨y, hy, _, hsame⟩ := heffect.keeps hx (hunused.quiet _ (List.mem_of_getElem? hr))
    exact .inr ⟨y, hy, hsame.trans hstatus⟩

/-- A new client is in no batch and owes nothing. -/
theorem emptyingOk_arrive {s : Emptying} (h : EmptyingOk s) (len : Nat) :
    EmptyingOk { s with
      pool := { s.pool with threads := s.pool.threads ++ [(len, .malloc .first)] } } := by
  have hmem {t : Nat × ClientPc} (ht : t ∈ s.pool.threads ++ [(len, ClientPc.malloc .first)]) :
      t ∈ s.pool.threads ∨ t = (len, ClientPc.malloc .first) := by
    simpa using ht
  have hidle {j : Nat} (hj : Idle s.pool.shared s.pool.threads j) :
      Idle s.pool.shared (s.pool.threads ++ [(len, ClientPc.malloc .first)]) j := by
    refine ⟨hj.notFirst, fun t ht hin => ?_⟩
    cases hmem ht with
    | inl hold => exact hj.quiet t hold hin
    | inr hnew =>
      subst hnew
      cases hin
  have hunused {j : Nat} (hj : Unused s.pool.shared s.pool.threads j) :
      Unused s.pool.shared (s.pool.threads ++ [(len, ClientPc.malloc .first)]) j := by
    refine ⟨hidle hj.toIdle, fun t ht => ?_⟩
    cases hmem ht with
    | inl hold => exact hj.owed t hold
    | inr hnew =>
      subst hnew
      rfl
  refine ⟨⟨h.clients.nonempty, h.clients.spare, fun t ht x hx => ?_, fun t ht j hj => ?_,
    fun t ht j cap hj => ?_, fun j x hx => ?_⟩, ?_, fun j hj => ?_, h.nodup⟩
  · cases hmem ht with
    | inl hold => exact h.clients.taken t hold x hx
    | inr hnew =>
      subst hnew
      cases hx
  · cases hmem ht with
    | inl hold => exact h.clients.inRange t hold j hj
    | inr hnew =>
      subst hnew
      cases hj
  · cases hmem ht with
    | inl hold => exact h.clients.chargedRange t hold j cap hj
    | inr hnew =>
      subst hnew
      cases hj
  · show x.allocated
      = x.freed + ((s.pool.threads ++ [(len, ClientPc.malloc .first)]).map
          fun t => owed j t.2).sum
    rw [List.map_append, List.sum_append]
    exact h.clients.balanced j x hx
  · have hemptier := h.emptier
    show EmptierOk s.pool.shared _ s.released s.emptier
    cases hpc : s.emptier with
    | freed j n =>
      rw [hpc] at hemptier
      exact ⟨hidle hemptier.1, hemptier.2⟩
    | free j =>
      rw [hpc] at hemptier
      exact ⟨hunused hemptier.1, hemptier.2⟩
    | _ =>
      rw [hpc] at hemptier
      exact hemptier
  · obtain ⟨hj', hmarked⟩ := h.released j hj
    exact ⟨hunused hj', hmarked⟩

theorem emptyingOk_refill {s : Emptying} (h : EmptyingOk s) (region : Region) :
    EmptyingOk { s with pool := { s.pool with shared :=
      { s.pool.shared with spare := some (newBatch region) } } } := by
  have hidle {j : Nat} (hj : Idle s.pool.shared s.pool.threads j) :
      Idle { s.pool.shared with spare := some (newBatch region) } s.pool.threads j :=
    ⟨hj.notFirst, hj.quiet⟩
  refine ⟨⟨h.clients.nonempty, fun x hx => ?_, h.clients.taken, h.clients.inRange,
    h.clients.chargedRange, h.clients.balanced⟩, ?_, fun j hj => ?_, h.nodup⟩
  · cases hx
    exact ⟨rfl, rfl⟩
  · have hemptier := h.emptier
    show EmptierOk _ s.pool.threads s.released s.emptier
    cases hpc : s.emptier with
    | freed j n =>
      rw [hpc] at hemptier
      exact ⟨hidle hemptier.1, hemptier.2⟩
    | free j =>
      rw [hpc] at hemptier
      exact ⟨⟨hidle hemptier.1.toIdle, hemptier.1.owed⟩, hemptier.2⟩
    | _ =>
      rw [hpc] at hemptier
      exact hemptier
  · obtain ⟨hj', hmarked⟩ := h.released j hj
    exact ⟨⟨hidle hj'.toIdle, hj'.owed⟩, hmarked⟩

end Clients

section Emptier
variable {s s' : Emptying} {j : Nat}

/-- A step of `empty_buckets` that only reads. -/
theorem emptyingOk_read (h : EmptyingOk s) (hmark : ∀ j, s.emptier ≠ .mark j) {pc : EmptierPc}
    (hpc : EmptierOk s.pool.shared s.pool.threads s.released pc) :
    EmptyingOk { s with emptier := pc } := by
  refine ⟨h.clients, hpc, fun j hj => ?_, h.nodup⟩
  obtain ⟨hunused, hmarked⟩ := h.released j hj
  cases hmarked with
  | inl heq => exact absurd heq (hmark j)
  | inr hfreed => exact ⟨hunused, .inr hfreed⟩

/-- Equal counters of an idle batch: nothing of it is held. -/
theorem unused_of_equal {b : Bucket} {threads : List (Nat × ClientPc)} {x : Batch}
    (hbalanced : Balanced b threads) (hidle : Idle b threads j) (hx : b.batches[j]? = some x)
    (heq : x.allocated = x.freed) : Unused b threads j := by
  refine ⟨hidle, fun t ht => ?_⟩
  have hle := le_sum_of_mem (fun t : Nat × ClientPc => owed j t.2) ht
  have hsum := hbalanced j x hx
  omega

theorem emptyingOk_mark (h : EmptyingOk s) {x : Batch} (hpc : s.emptier = .mark j)
    (hx : s.pool.shared.batches[j]? = some x) :
    EmptyingOk { s with
      pool := { s.pool with
        shared := s.pool.shared.setBatch j { x with status := .freed } }
      emptier := .next j } := by
  have hlength : (s.pool.shared.setBatch j { x with status := .freed }).batches.length
      = s.pool.shared.batches.length := List.length_set ..
  have hlt := (List.getElem?_eq_some_iff.mp hx).1
  refine ⟨⟨hlength ▸ h.clients.nonempty, h.clients.spare, h.clients.taken,
    fun t ht k hk => hlength ▸ h.clients.inRange t ht k hk,
    fun t ht k cap hk => hlength ▸ h.clients.chargedRange t ht k cap hk, fun k y hy => ?_⟩,
    Nat.lt_of_lt_of_eq hlt hlength.symm, fun k hk => ?_, h.nodup⟩
  · by_cases hk : j = k
    · subst hk
      rw [setBatch_getElem? hx] at hy
      cases hy
      exact h.clients.balanced j x hx
    · rw [Bucket.setBatch, List.getElem?_set_ne hk] at hy
      exact h.clients.balanced k y hy
  · obtain ⟨hunused, hmarked⟩ := h.released k hk
    refine ⟨⟨⟨hlength ▸ hunused.notFirst, hunused.quiet⟩, hunused.owed⟩, .inr ?_⟩
    by_cases hkj : j = k
    · subst hkj
      exact ⟨_, setBatch_getElem? hx _, rfl⟩
    · cases hmarked with
      | inl hmark =>
        rw [hpc] at hmark
        cases hmark
        exact absurd rfl hkj
      | inr hfreed =>
        obtain ⟨y, hy, hstatus⟩ := hfreed
        exact ⟨y, (List.getElem?_set_ne hkj).trans hy, hstatus⟩

theorem emptyingOk_emptier {b : Bucket} {pc : EmptierPc} {freed : Option Nat} (h : EmptyingOk s)
    (hquiet : ∀ j, s.emptier = .allocated j → Quiet s.pool.threads j)
    (hs : s.pool.shared.emptierStep s.emptier = some (b, pc, freed)) :
    EmptyingOk ⟨{ s.pool with shared := b }, pc, s.released ++ freed.toList⟩ := by
  have hemptier := h.emptier
  have hread {pc' : EmptierPc} (hmark : ∀ j, s.emptier ≠ .mark j)
      (hpc' : EmptierOk s.pool.shared s.pool.threads s.released pc') :
      EmptyingOk ⟨s.pool, pc', s.released ++ []⟩ := by
    rw [List.append_nil]
    exact emptyingOk_read h hmark hpc'
  cases hpc : s.emptier with
  | first =>
    rw [hpc] at hs
    cases hs
    refine hread (fun j => by simp [hpc]) ?_
    exact Nat.sub_lt h.clients.nonempty Nat.one_pos
  | next j =>
    rw [hpc] at hs hemptier
    cases j with
    | zero =>
      cases hs
      exact hread (fun j => by simp [hpc]) trivial
    | succ j =>
      cases hs
      exact hread (fun j => by simp [hpc]) hemptier
  | status j =>
    rw [hpc] at hs hemptier
    obtain ⟨x, hx, hs⟩ := Option.bind_eq_some_iff.mp hs
    cases hs
    refine hread (fun j => by simp [hpc]) ?_
    split
    · exact Nat.lt_of_succ_lt hemptier
    · rename_i hstatus
      refine ⟨hemptier, fun hj => ?_⟩
      cases (h.released j hj).2 with
      | inl hmark =>
        rw [hpc] at hmark
        cases hmark
      | inr hfreed =>
        obtain ⟨y, hy, hfreed⟩ := hfreed
        rw [hx] at hy
        cases hy
        exact hstatus hfreed
  | allocated j =>
    rw [hpc] at hs hemptier
    obtain ⟨x, hx, hs⟩ := Option.bind_eq_some_iff.mp hs
    cases hs
    refine hread (fun j => by simp [hpc]) ?_
    split
    · exact Nat.lt_of_succ_lt hemptier.1
    · exact ⟨⟨hemptier.1, hquiet j hpc⟩, hemptier.2, x, hx, rfl⟩
  | freed j n =>
    rw [hpc] at hs hemptier
    obtain ⟨hidle, hnot, y, hy, hn⟩ := hemptier
    obtain ⟨x, hx, hs⟩ := Option.bind_eq_some_iff.mp hs
    cases hs
    refine hread (fun j => by simp [hpc]) ?_
    split
    · exact Nat.lt_of_succ_lt hidle.notFirst
    · rename_i heq
      rw [hx] at hy
      cases hy
      have hequal : y.allocated = y.freed := hn.trans (not_not.mp heq)
      exact ⟨unused_of_equal h.clients.balanced hidle hx hequal, hnot⟩
  | free j =>
    rw [hpc] at hs hemptier
    cases hs
    obtain ⟨hunused, hnot⟩ := hemptier
    refine ⟨h.clients, hunused.notFirst, fun k hk => ?_, ?_⟩
    · cases List.mem_append.mp hk with
      | inl hold =>
        obtain ⟨hk', hmarked⟩ := h.released k hold
        refine ⟨hk', .inr ?_⟩
        cases hmarked with
        | inl hmark =>
          rw [hpc] at hmark
          cases hmark
        | inr hfreed => exact hfreed
      | inr hnew =>
        have hkj : k = j := List.mem_singleton.mp hnew
        subst hkj
        exact ⟨hunused, .inl rfl⟩
    · exact List.nodup_append.mpr ⟨h.nodup, List.nodup_singleton j, fun k hk l hl hkl =>
        hnot (List.mem_singleton.mp hl ▸ hkl ▸ hk)⟩
  | mark j =>
    rw [hpc] at hs
    obtain ⟨x, hx, hs⟩ := Option.bind_eq_some_iff.mp hs
    cases hs
    show EmptyingOk ⟨_, _, s.released ++ []⟩
    rw [List.append_nil]
    exact emptyingOk_mark h hpc hx

variable {f : CapFormat} {table : List BucketInfo} {i : Nat} {info : BucketInfo}
  {first second : Region}

theorem emptyingOk_init (info : BucketInfo) (first second : Region) :
    EmptyingOk (initEmptying info first second) := by
  refine ⟨⟨Nat.one_pos, fun x hx => ?_, fun t ht => (by cases ht), fun t ht => (by cases ht),
    fun t ht => (by cases ht), fun j x hx => ?_⟩, trivial, fun j hj => (by cases hj), List.nodup_nil⟩
  · cases hx
    exact ⟨rfl, rfl⟩
  · have hmem := List.mem_of_getElem? hx
    cases List.mem_singleton.mp hmem
    rfl

theorem emptyingOk_step {act : EmptyingAct} (h : EmptyingOk s) (hok : Careful s act)
    (hs : emptyingStep f table i s act = some s') : EmptyingOk s' := by
  cases act with
  | client act =>
    obtain ⟨pool, hpool, heq⟩ := Option.map_eq_some_iff.mp hs
    cases heq
    cases act with
    | arrive len =>
      cases hpool
      exact emptyingOk_arrive h len
    | advance r =>
      obtain ⟨t, hr, hpool⟩ := Option.bind_eq_some_iff.mp hpool
      obtain ⟨q, hq, heq⟩ := Option.bind_eq_some_iff.mp hpool
      cases heq
      exact emptyingOk_advance h hr
        (clientStep_effect h.clients.nonempty (fun j k cap hpc => hok t.1 j k cap (hpc ▸ hr)) hq)
  | refill region =>
    rw [emptyingStep] at hs
    split_ifs at hs
    cases hs
    exact emptyingOk_refill h region
  | emptier =>
    obtain ⟨q, hq, heq⟩ := Option.bind_eq_some_iff.mp hs
    cases heq
    exact emptyingOk_emptier h hok hq

/-- The memory of a batch is freed at most once, and then no client holds an allocation of it, and
no call of `cocall_malloc` is in it, as long as frees find their batches and no call of
`cocall_malloc` is in a batch whose `allocated` is read. -/
theorem emptier_spares_held
    (h : Reach (emptyingStep f table i) Careful (initEmptying info first second) s) :
    s.released.Nodup ∧ ∀ j ∈ s.released, ∀ t ∈ s.pool.threads,
      inBatch t.2 ≠ some j ∧ ∀ cap, charged t.2 = some (j, cap) → cap.length = 0 := by
  have hinv : EmptyingOk s := by
    refine Reach.invariant (emptyingOk_init info first second) ?_ h
    intro t act t' _ ht hok hstep
    exact emptyingOk_step ht hok hstep
  refine ⟨hinv.nodup, fun j hj t ht => ?_⟩
  obtain ⟨hunused, _⟩ := hinv.released j hj
  refine ⟨hunused.quiet t ht, fun cap hcap => ?_⟩
  have howed := hunused.owed t ht
  simpa only [owed, hcap, if_true] using howed

end Emptier

/-! ### Three clients -/

/-- `Careful`, as a test. -/
def checkCareful (s : Emptying) : EmptyingAct → Bool
  | .client (.advance r) =>
    match s.pool.threads[r]? with
    | some (_, .add j k _) => k = j
    | _                    => true
  | .emptier =>
    match s.emptier with
    | .allocated j => s.pool.threads.all fun t => inBatch t.2 ≠ some j
    | _            => true
  | _ => true

theorem careful_of_check (s : Emptying) (act : EmptyingAct) (h : checkCareful s act = true) :
    Careful s act := by
  match act with
  | .client (.arrive _) => trivial
  | .refill _ => trivial
  | .client (.advance r) =>
    intro len j k cap hr
    simpa [checkCareful, hr] using h
  | .emptier =>
    intro j hpc t ht hin
    simp only [checkCareful, hpc, List.all_eq_true, decide_eq_true_eq] at h
    exact h t ht hin

/-- Client `r` takes `n` steps. -/
def clientSteps (r n : Nat) : List EmptyingAct := List.replicate n (.client (.advance r))

/-- Half a batch for each of the three clients. The second one takes `n` steps before the third one
begins, and the first one frees what it got. Then `empty_buckets` looks at the first batch. -/
def fillTwo (n : Nat) : List EmptyingAct :=
  List.replicate 3 (.client (.arrive (2 ^ 19))) ++ clientSteps 0 7 ++ clientSteps 1 n ++
    clientSteps 2 11 ++ clientSteps 0 3

/-- A bucket for half a megabyte. -/
def emptying128 : Emptying :=
  initEmptying (initBucket format128 (2 ^ 19) false) ⟨2 ^ 26, 2 ^ 20⟩ ⟨2 ^ 26 + 2 ^ 20, 2 ^ 20⟩

/-- The second client has freed its half, too. -/
theorem emptier_spares_held_two :
    ∃ s, Reach (emptyingStep format128 (bucketTable format128 [2 ^ 19, 2 ^ 21]) 0) Careful
        emptying128 s ∧
      s.released = [0] ∧ s.released.Nodup ∧ ∀ j ∈ s.released, ∀ t ∈ s.pool.threads,
        inBatch t.2 ≠ some j ∧ ∀ cap, charged t.2 = some (j, cap) → cap.length = 0 := by
  let acts := fillTwo 6 ++ clientSteps 1 3 ++ List.replicate 7 EmptyingAct.emptier
  obtain ⟨s, hs⟩ : ∃ s, runFrom (emptyingStep format128
      (bucketTable format128 [2 ^ 19, 2 ^ 21]) 0) emptying128 acts = some s :=
    Option.isSome_iff_exists.mp (by decide)
  have hreach : Reach (emptyingStep format128 (bucketTable format128 [2 ^ 19, 2 ^ 21]) 0) Careful
      emptying128 s := reach_of_checkAll careful_of_check _ _ _ (by decide) hs
  have hreleased : s.released = [0] := eq_of_map_runFrom (fun s => s.released) hs (by decide)
  exact ⟨s, hreach, hreleased, emptier_spares_held hreach⟩

/-- The second client has moved `mem`, and it adds to `allocated` when the memory has been freed.
It returns an allocation of freed memory. -/
theorem emptier_frees_held :
    ∃ s, Reach (emptyingStep format128 (bucketTable format128 [2 ^ 19, 2 ^ 21]) 0) anyAct
        emptying128 s ∧
      s.released = [0] ∧
      s.pool.threads[1]? = some (2 ^ 19, .malloc (.done 0 ⟨2 ^ 26 + 2 ^ 19, 2 ^ 19⟩)) := by
  let acts := fillTwo 5 ++ List.replicate 6 EmptyingAct.emptier ++ clientSteps 1 1
  obtain ⟨s, hs⟩ : ∃ s, runFrom (emptyingStep format128
      (bucketTable format128 [2 ^ 19, 2 ^ 21]) 0) emptying128 acts = some s :=
    Option.isSome_iff_exists.mp (by decide)
  have hreleased : s.released = [0] := eq_of_map_runFrom (fun s => s.released) hs (by decide)
  have hthread : s.pool.threads[1]?
      = some (2 ^ 19, ClientPc.malloc (.done 0 ⟨2 ^ 26 + 2 ^ 19, 2 ^ 19⟩)) :=
    eq_of_map_runFrom (fun s => s.pool.threads[1]?) hs (by decide)
  exact ⟨s, reach_of_runFrom _ _ _ hs, hreleased, hthread⟩

end Comsg.Proofs.Ccmalloc
