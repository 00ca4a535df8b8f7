import Comsg.Coserviced.Table

/-!
# `Comsg.Proofs.Coserviced.Table`: no entry is handed out twice

`next` counts the entries that are reserved, and the calls on a full table that have not taken
back their addition (`AllocInv.next_eq`). A call fails only when all entries are reserved
(`AllocInv.full`), and no entry is ever given back. So the counter does not fall below the number
of entries again, and the index that a call reads below it is new (`entries_distinct`).
-/

set_option autoImplicit false

namespace Comsg.Proofs.Coserviced

open Comsg.Lib
open Comsg.Coserviced

/-- The entry that a call has reserved. -/
def index : AllocPc → Option Nat
  | .reserved i => some i
  | .returned i => i
  | _           => none

/-- The call has found a full table. -/
def Failed (pc : AllocPc) : Prop := pc = .undo ∨ pc = .returned none

/-- The addition of the call to a full table is still in the counter. -/
def extra : Allocator → AllocPc → Bool
  | _, .undo                  => true
  | .endpoint, .returned none => true
  | _, _                      => false

def isEntry (pc : AllocPc) : Bool := pc = .entry

def isReserved : AllocPc → Bool
  | .reserved _ => true
  | _           => false

/-- The call has returned an entry. -/
def isGiven : AllocPc → Bool
  | .returned (some _) => true
  | _                  => false

/-- The calls with their allocators. -/
abbrev AllocCalls := List (Allocator × AllocPc)

/-- The calls of an allocator whose place meets a test. -/
def count (calls : AllocCalls) (a : Allocator) (test : AllocPc → Bool) : Nat :=
  calls.countP fun x => decide (x.1 = a) && test x.2

/-- The entries that are reserved. -/
def reservedCount (calls : AllocCalls) (a : Allocator) : Nat :=
  count calls a isReserved + count calls a isGiven

/-- What holds of one allocator and its counters in every state. -/
structure AllocInv (a : Allocator) (c : Counters) (calls : AllocCalls) : Prop where
  next_eq : c.next = reservedCount calls a + count calls a (extra a)
  active_eq : c.active = count calls a isGiven
  calls_le : reservedCount calls a + count calls a (extra a) + count calls a isEntry ≤ calls.length
  le_max : reservedCount calls a ≤ maxServices
  index_lt : ∀ (r : Nat) pc i, calls[r]? = some (a, pc) → index pc = some i →
    i < reservedCount calls a
  index_inj : ∀ (r r' : Nat) pc pc' i, calls[r]? = some (a, pc) → calls[r']? = some (a, pc') →
    index pc = some i → index pc' = some i → r = r'
  full : ∀ (r : Nat) pc, calls[r]? = some (a, pc) → Failed pc →
    reservedCount calls a = maxServices

section Steps
variable {a b : Allocator} {c c' : Counters} {calls : AllocCalls} {r : Nat} {pc pc' : AllocPc}

theorem count_arrive (test : AllocPc → Bool) :
    count (calls ++ [(b, AllocPc.entry)]) a test =
      count calls a test + (decide (b = a) && test .entry).toNat := by
  rw [count, List.countP_append, List.countP_singleton, count]
  cases decide (b = a) && test .entry <;> rfl

/-- A call goes from `pc` to `pc'`. -/
theorem count_advance (test : AllocPc → Bool) (hr : calls[r]? = some (a, pc)) (pc' : AllocPc) :
    count (calls.set r (a, pc')) a test + (test pc).toNat =
      count calls a test + (test pc').toNat := by
  have hcount := countP_set_add (y := (a, pc')) (fun x => decide (x.1 = a) && test x.2) hr
  simpa [count] using hcount

/-- A call of the other allocator. -/
theorem count_other (test : AllocPc → Bool) (hne : b ≠ a) (hr : calls[r]? = some (b, pc)) :
    count (calls.set r (b, pc')) a test = count calls a test := by
  have hcount := countP_set_add (y := (b, pc')) (fun x => decide (x.1 = a) && test x.2) hr
  simpa [count, hne] using hcount

theorem extra_entry : extra a .entry = false := by
  cases a <;> rfl

theorem extra_reserved {i : Nat} : extra a (.reserved i) = false := by
  cases a <;> rfl

theorem extra_given {i : Nat} : extra a (.returned (some i)) = false := by
  cases a <;> rfl

theorem failed_of_extra (h : extra a pc = true) : Failed pc := by
  cases pc with
  | undo => exact .inl rfl
  | returned i =>
    cases i with
    | none => exact .inr rfl
    | some i => simp [extra_given] at h
  | entry => simp [extra_entry] at h
  | reserved i => simp [extra_reserved] at h

theorem inv_arrive (h : AllocInv a c calls) : AllocInv a c (calls ++ [(b, AllocPc.entry)]) := by
  have hextra : count (calls ++ [(b, AllocPc.entry)]) a (extra a) = _ := count_arrive (extra a)
  have hentry : count (calls ++ [(b, AllocPc.entry)]) a isEntry = _ := count_arrive isEntry
  have hgiven : count (calls ++ [(b, AllocPc.entry)]) a isGiven = count calls a isGiven := by
    rw [count_arrive]
    simp [isGiven]
  have hreserved : reservedCount (calls ++ [(b, AllocPc.entry)]) a = reservedCount calls a := by
    rw [reservedCount, hgiven, count_arrive]
    simp [isReserved, reservedCount]
  rw [extra_entry, Bool.and_false, Bool.toNat_false, Nat.add_zero] at hextra
  constructor
  · rw [hreserved, hextra]
    exact h.next_eq
  · rw [hgiven]
    exact h.active_eq
  · have hcalls := h.calls_le
    have hle : (decide (b = a) && isEntry .entry).toNat ≤ 1 := Bool.toNat_le _
    rw [hreserved, hextra, hentry, List.length_append, List.length_singleton]
    omega
  · rw [hreserved]
    exact h.le_max
  · intro r pc i hr hi
    rw [hreserved]
    rcases getElem?_concat_cases hr with hr | heq
    · exact h.index_lt r pc i hr hi
    · cases heq
      cases hi
  · intro r r' pc pc' i hr hr' hi hi'
    rcases getElem?_concat_cases hr with hr | heq
    · rcases getElem?_concat_cases hr' with hr' | heq
      · exact h.index_inj r r' pc pc' i hr hr' hi hi'
      · cases heq
        cases hi'
    · cases heq
      cases hi
  · intro r pc hr hfailed
    rw [hreserved]
    rcases getElem?_concat_cases hr with hr | heq
    · exact h.full r pc hr hfailed
    · cases heq
      rcases hfailed with heq | heq <;> cases heq

/-- A step of the other allocator. -/
theorem inv_other (h : AllocInv a c calls) (hne : b ≠ a) (hr : calls[r]? = some (b, pc)) :
    AllocInv a c (calls.set r (b, pc')) := by
  have hcount (test : AllocPc → Bool) :
      count (calls.set r (b, pc')) a test = count calls a test := count_other test hne hr
  have hreserved : reservedCount (calls.set r (b, pc')) a = reservedCount calls a := by
    rw [reservedCount, hcount, hcount, reservedCount]
  -- The calls of `a` are where they were.
  have hold {q : Nat} {pc₁ : AllocPc} (hq : (calls.set r (b, pc'))[q]? = some (a, pc₁)) :
      calls[q]? = some (a, pc₁) := by
    rcases getElem?_set_cases hq with ⟨-, heq⟩ | ⟨-, hq⟩
    · cases heq
      exact absurd rfl hne
    · exact hq
  constructor
  · rw [hreserved, hcount]
    exact h.next_eq
  · rw [hcount]
    exact h.active_eq
  · rw [hreserved, hcount, hcount, List.length_set]
    exact h.calls_le
  · rw [hreserved]
    exact h.le_max
  · intro q pc₁ i hq hi
    rw [hreserved]
    exact h.index_lt q pc₁ i (hold hq) hi
  · intro q q' pc₁ pc₂ i hq hq' hi hi'
    exact h.index_inj q q' pc₁ pc₂ i (hold hq) (hold hq') hi hi'
  · intro q pc₁ hq hfailed
    rw [hreserved]
    exact h.full q pc₁ (hold hq) hfailed

/-- A step of the allocator that reserves no entry. -/
theorem inv_keep (h : AllocInv a c calls) (hr : calls[r]? = some (a, pc))
    (hindex : index pc' = index pc)
    (hreserved : reservedCount (calls.set r (a, pc')) a = reservedCount calls a)
    (hnext : c'.next = reservedCount calls a + count (calls.set r (a, pc')) a (extra a))
    (hactive : c'.active = count (calls.set r (a, pc')) a isGiven)
    (hcalls : reservedCount calls a + count (calls.set r (a, pc')) a (extra a) +
      count (calls.set r (a, pc')) a isEntry ≤ calls.length)
    (hfull : Failed pc' → reservedCount calls a = maxServices) :
    AllocInv a c' (calls.set r (a, pc')) := by
  -- Each call has the entry that it had before.
  have hold {q : Nat} {pc₁ : AllocPc} (hq : (calls.set r (a, pc'))[q]? = some (a, pc₁)) :
      ∃ pc₀, calls[q]? = some (a, pc₀) ∧ index pc₁ = index pc₀ := by
    rcases getElem?_set_cases hq with ⟨rfl, heq⟩ | ⟨-, hq⟩
    · cases heq
      exact ⟨pc, hr, hindex⟩
    · exact ⟨pc₁, hq, rfl⟩
  constructor
  · rw [hreserved]
    exact hnext
  · exact hactive
  · rw [hreserved, List.length_set]
    exact hcalls
  · rw [hreserved]
    exact h.le_max
  · intro q pc₁ i hq hi
    obtain ⟨pc₀, hq₀, heq⟩ := hold hq
    rw [hreserved]
    exact h.index_lt q pc₀ i hq₀ (heq ▸ hi)
  · intro q q' pc₁ pc₂ i hq hq' hi hi'
    obtain ⟨pc₀, hq₀, heq⟩ := hold hq
    obtain ⟨pc₀', hq₀', heq'⟩ := hold hq'
    exact h.index_inj q q' pc₀ pc₀' i hq₀ hq₀' (heq ▸ hi) (heq' ▸ hi')
  · intro q pc₁ hq hfailed
    rw [hreserved]
    rcases getElem?_set_cases hq with ⟨-, heq⟩ | ⟨-, hq⟩
    · cases heq
      exact hfull hfailed
    · exact h.full q pc₁ hq hfailed

/-- While an entry is left, the counter is the number of entries that are reserved. -/
theorem next_eq_of_lt (h : AllocInv a c calls) (hlt : reservedCount calls a < maxServices) :
    count calls a (extra a) = 0 := by
  rw [count, List.countP_eq_zero]
  rintro ⟨b, pc⟩ hmem htest
  obtain ⟨q, hq⟩ := List.mem_iff_getElem?.mp hmem
  obtain ⟨rfl, hpc⟩ : b = a ∧ extra a pc = true := by simpa using htest
  have hfull := h.full q pc hq (failed_of_extra hpc)
  omega

/-- A call that reads an index below the number of entries. The entry is the next one. -/
theorem inv_reserve (h : AllocInv a c calls) (hr : calls[r]? = some (a, .entry))
    (hlt : c.next < maxServices) :
    AllocInv a { c with next := sizeSucc c.next } (calls.set r (a, .reserved c.next)) := by
  have hnext := h.next_eq
  have hcalls := h.calls_le
  have hextra := next_eq_of_lt h (by omega)
  have hsucc : sizeSucc c.next = c.next + 1 := by
    refine Nat.mod_eq_of_lt ?_
    rw [maxServices] at hlt
    omega
  have hentry' := count_advance isEntry hr (.reserved c.next)
  have hres' := count_advance isReserved hr (.reserved c.next)
  have hgiven' := count_advance isGiven hr (.reserved c.next)
  have hextra' := count_advance (extra a) hr (.reserved c.next)
  rw [extra_entry, extra_reserved] at hextra'
  simp only [isEntry, isReserved, isGiven, decide_true, reduceCtorEq, decide_false,
    Bool.toNat_true, Bool.toNat_false, Nat.add_zero] at hentry' hres' hgiven' hextra'
  have hreserved : reservedCount (calls.set r (a, .reserved c.next)) a =
      reservedCount calls a + 1 := by
    rw [reservedCount, hres', hgiven', reservedCount]
    omega
  -- The index of every other call is one of an earlier entry.
  have hother {q : Nat} {pc₁ : AllocPc} {i : Nat} (hq : calls[q]? = some (a, pc₁))
      (hi : index pc₁ = some i) : i ≠ c.next := by
    have hlt' := h.index_lt q pc₁ i hq hi
    omega
  constructor
  · show sizeSucc c.next = _
    rw [hreserved, hextra', hsucc]
    omega
  · rw [hgiven']
    exact h.active_eq
  · rw [hreserved, hextra', List.length_set]
    omega
  · rw [hreserved]
    omega
  · intro q pc₁ i hq hi
    rw [hreserved]
    rcases getElem?_set_cases hq with ⟨-, heq⟩ | ⟨-, hq⟩
    · cases heq
      cases hi
      omega
    · have hlt' := h.index_lt q pc₁ i hq hi
      omega
  · intro q q' pc₁ pc₂ i hq hq' hi hi'
    rcases getElem?_set_cases hq with ⟨rfl, heq⟩ | ⟨-, hq⟩
    · cases heq
      cases hi
      rcases getElem?_set_cases hq' with ⟨rfl, -⟩ | ⟨-, hq'⟩
      · rfl
      · exact absurd rfl (hother hq' hi')
    · rcases getElem?_set_cases hq' with ⟨-, heq⟩ | ⟨-, hq'⟩
      · cases heq
        cases hi'
        exact absurd rfl (hother hq hi)
      · exact h.index_inj q q' pc₁ pc₂ i hq hq' hi hi'
  · intro q pc₁ hq hfailed
    rcases getElem?_set_cases hq with ⟨-, heq⟩ | ⟨-, hq⟩
    · cases heq
      rcases hfailed with heq | heq <;> cases heq
    · have hfull := h.full q pc₁ hq hfailed
      omega

/-- A call that reads an index behind the last entry: `allocate_coservice` is to take its addition
back, and `allocate_endpoint` returns `NULL`. -/
theorem inv_overflow (h : AllocInv a c calls) (hr : calls[r]? = some (a, .entry))
    (hlen : calls.length < 2 ^ 64) (hge : maxServices ≤ c.next) (hfailed : Failed pc')
    (hextra : extra a pc' = true) :
    AllocInv a { c with next := sizeSucc c.next } (calls.set r (a, pc')) := by
  have hnext := h.next_eq
  have hcalls := h.calls_le
  have hnone : isEntry pc' = false ∧ isReserved pc' = false ∧ isGiven pc' = false ∧
      index pc' = none := by
    rcases hfailed with rfl | rfl <;> exact ⟨rfl, rfl, rfl, rfl⟩
  have hentry' := count_advance isEntry hr pc'
  have hres' := count_advance isReserved hr pc'
  have hgiven' := count_advance isGiven hr pc'
  have hextra' := count_advance (extra a) hr pc'
  rw [hextra, extra_entry] at hextra'
  rw [hnone.1] at hentry'
  rw [hnone.2.1] at hres'
  rw [hnone.2.2.1] at hgiven'
  simp only [isEntry, isReserved, isGiven, decide_true, Bool.toNat_true, Bool.toNat_false,
    Nat.add_zero] at hentry' hres' hgiven' hextra'
  have hfull : reservedCount calls a = maxServices := by
    have hle := h.le_max
    by_contra hne
    have hzero := next_eq_of_lt h (by omega)
    omega
  -- The counter does not wrap, since this call has not been counted yet.
  have hsucc : sizeSucc c.next = c.next + 1 := Nat.mod_eq_of_lt (by omega)
  refine inv_keep h hr hnone.2.2.2 ?_ ?_ ?_ ?_ fun _ => hfull
  · rw [reservedCount, hres', hgiven', reservedCount]
  · show sizeSucc c.next = _
    rw [hsucc]
    omega
  · rw [hgiven']
    exact h.active_eq
  · omega

/-- `allocate_coservice` takes its addition back. -/
theorem inv_undo {c : Counters} (h : AllocInv .coservice c calls)
    (hr : calls[r]? = some (.coservice, .undo)) (hlen : calls.length < 2 ^ 64) :
    AllocInv .coservice { c with next := sizePred c.next }
      (calls.set r (.coservice, .returned none)) := by
  have hnext := h.next_eq
  have hcalls := h.calls_le
  have hentry' := count_advance isEntry hr (.returned none)
  have hres' := count_advance isReserved hr (.returned none)
  have hgiven' := count_advance isGiven hr (.returned none)
  have hextra' := count_advance (extra .coservice) hr (.returned none)
  simp only [isEntry, isReserved, isGiven, extra, reduceCtorEq, decide_false, Bool.toNat_true,
    Bool.toNat_false, Nat.add_zero] at hentry' hres' hgiven' hextra'
  have hpred : sizePred c.next = c.next - 1 := by
    rw [sizePred]
    omega
  refine inv_keep h hr rfl ?_ ?_ ?_ ?_ fun _ => h.full r .undo hr (.inl rfl)
  · rw [reservedCount, hres', hgiven', reservedCount]
  · show sizePred c.next = _
    rw [hpred]
    omega
  · rw [hgiven']
    exact h.active_eq
  · omega

/-- A call returns the entry that it has reserved. -/
theorem inv_give {i : Nat} (h : AllocInv a c calls) (hr : calls[r]? = some (a, .reserved i))
    (hlen : calls.length < 2 ^ 64) :
    AllocInv a { c with active := sizeSucc c.active } (calls.set r (a, .returned (some i))) := by
  have hactive := h.active_eq
  have hnext := h.next_eq
  have hcalls := h.calls_le
  have hentry' := count_advance isEntry hr (.returned (some i))
  have hres' := count_advance isReserved hr (.returned (some i))
  have hgiven' := count_advance isGiven hr (.returned (some i))
  have hextra' := count_advance (extra a) hr (.returned (some i))
  rw [extra_reserved, extra_given] at hextra'
  simp only [isEntry, isReserved, isGiven, reduceCtorEq, decide_false, Bool.toNat_true,
    Bool.toNat_false, Nat.add_zero] at hentry' hres' hgiven' hextra'
  have hsucc : sizeSucc c.active = c.active + 1 := by
    refine Nat.mod_eq_of_lt ?_
    rw [reservedCount] at hcalls
    omega
  refine inv_keep h hr rfl ?_ ?_ ?_ ?_ fun hfailed => ?_
  · rw [reservedCount, hgiven', reservedCount]
    omega
  · show c.next = _
    rw [hextra']
    exact hnext
  · show sizeSucc c.active = _
    rw [hsucc, hgiven', hactive]
  · rw [hextra', hentry']
    exact hcalls
  · rcases hfailed with heq | heq <;> cases heq

end Steps

section Runs
variable {s s' : Pool Tables Allocator AllocPc}

/-- A call writes the counters of its own allocator only. -/
theorem advance_other {t t' : Tables} {a b : Allocator} {pc pc' : AllocPc}
    (h : t.advance b pc = some (t', pc')) (hne : a ≠ b) : t' a = t a := by
  cases pc with
  | entry =>
    simp only [Tables.advance] at h
    split at h
    · cases b <;> cases h <;> exact Function.update_of_ne hne ..
    · cases h
      exact Function.update_of_ne hne ..
  | undo =>
    cases h
    exact Function.update_of_ne hne ..
  | reserved i =>
    cases h
    exact Function.update_of_ne hne ..
  | returned i => cases h

/-- A step of one call keeps the invariant of its allocator. -/
theorem inv_advance {t t' : Tables} {a : Allocator} {calls : AllocCalls} {r : Nat}
    {pc pc' : AllocPc} (h : AllocInv a (t a) calls) (hr : calls[r]? = some (a, pc))
    (hundo : pc = .undo → a = .coservice) (hlen : calls.length < 2 ^ 64)
    (hadv : t.advance a pc = some (t', pc')) : AllocInv a (t' a) (calls.set r (a, pc')) := by
  cases pc with
  | entry =>
    simp only [Tables.advance] at hadv
    split at hadv
    · rename_i hge
      cases a with
      | coservice =>
        cases hadv
        rw [Function.update_self]
        exact inv_overflow h hr hlen hge (.inl rfl) rfl
      | endpoint =>
        cases hadv
        rw [Function.update_self]
        exact inv_overflow h hr hlen hge (.inr rfl) rfl
    · rename_i hlt
      cases hadv
      rw [Function.update_self]
      exact inv_reserve h hr (Nat.not_le.mp hlt)
  | undo =>
    obtain rfl := hundo rfl
    cases hadv
    rw [Function.update_self]
    exact inv_undo h hr hlen
  | reserved i =>
    cases hadv
    rw [Function.update_self]
    exact inv_give h hr hlen
  | returned i => cases hadv

/-- Every allocator keeps its invariant, and `allocate_endpoint` takes nothing back. -/
structure TablesInv (s : Pool Tables Allocator AllocPc) : Prop where
  inv : ∀ a, AllocInv a (s.shared a) s.threads
  undo : ∀ (r : Nat) a, s.threads[r]? = some (a, .undo) → a = .coservice

theorem undo_of_advance {t t' : Tables} {a : Allocator} {pc : AllocPc}
    (h : t.advance a pc = some (t', .undo)) : a = .coservice := by
  cases pc with
  | entry =>
    simp only [Tables.advance] at h
    split at h
    · cases a
      · rfl
      · cases h
    · cases h
  | _ => cases h

theorem tablesInv_step {act : PoolAct Allocator} (h : TablesInv s)
    (hs : allocStep s act = some s') (hlen : s'.threads.length < 2 ^ 64) : TablesInv s' := by
  rcases poolStep_cases hs with ⟨b, rfl, rfl⟩ | ⟨r, b, pc, shared, pc', rfl, hr, hadv, rfl⟩
  · refine ⟨fun a => inv_arrive (h.inv a), fun q a hq => ?_⟩
    rcases getElem?_concat_cases hq with hq | heq
    · exact h.undo q a hq
    · cases heq
  · rw [List.length_set] at hlen
    refine ⟨fun a => ?_, fun q a hq => ?_⟩
    · by_cases hba : b = a
      · subst hba
        exact inv_advance (h.inv b) hr (fun hpc => h.undo r b (hpc ▸ hr)) hlen hadv
      · show AllocInv a (shared a) _
        rw [advance_other hadv (Ne.symm hba)]
        exact inv_other (h.inv a) hba hr
    · rcases getElem?_set_cases hq with ⟨-, heq⟩ | ⟨-, hq⟩
      · cases heq
        exact undo_of_advance hadv
      · exact h.undo q a hq

theorem tablesInv_init : TablesInv ⟨initCounters, []⟩ := by
  refine ⟨fun a => ?_, by simp⟩
  constructor <;> simp [initCounters, reservedCount, count]

theorem length_le_of_step {act : PoolAct Allocator} (hs : allocStep s act = some s') :
    s.threads.length ≤ s'.threads.length := by
  rcases poolStep_cases hs with ⟨b, -, rfl⟩ | ⟨r, b, pc, shared, pc', -, -, -, rfl⟩
  · simp
  · simp

theorem tablesInv_reach (h : Reach allocStep anyAct ⟨initCounters, []⟩ s)
    (hlen : s.threads.length < 2 ^ 64) : TablesInv s := by
  induction h with
  | init => exact tablesInv_init
  | next act hreach _ hs ih =>
    exact tablesInv_step (ih (Nat.lt_of_le_of_lt (length_le_of_step hs) hlen)) hs hlen

/-- In every run of fewer than 2^64 calls, the entries that an allocator returns are distinct and
within the table. `NULL` is returned when all entries have been reserved. When no call is in
progress, the entries that were returned are counted. -/
theorem entries_distinct (h : Reach allocStep anyAct ⟨initCounters, []⟩ s)
    (hlen : s.threads.length < 2 ^ 64) (a : Allocator) :
    (∀ (r : Nat) i, s.threads[r]? = some (a, .returned (some i)) → i < maxServices) ∧
    (∀ (r r' : Nat) i, s.threads[r]? = some (a, .returned (some i)) →
      s.threads[r']? = some (a, .returned (some i)) → r = r') ∧
    (∀ r : Nat, s.threads[r]? = some (a, .returned none) →
      reservedCount s.threads a = maxServices) ∧
    ((∀ x ∈ s.threads, ∃ i, x.2 = .returned i) →
      (s.shared a).active = count s.threads a isGiven) := by
  have hinv := (tablesInv_reach h hlen).inv a
  refine ⟨fun r i hr => ?_, fun r r' i hr hr' => ?_, fun r hr => ?_, fun _ => hinv.active_eq⟩
  · exact Nat.lt_of_lt_of_le (hinv.index_lt r _ i hr rfl) hinv.le_max
  · exact hinv.index_inj r r' _ _ i hr hr' rfl rfl
  · exact hinv.full r _ hr (.inr rfl)

end Runs

/-- Two calls of `allocate_coservice` that take turns. -/
def twoAllocations : List (PoolAct Allocator) :=
  [.arrive .coservice, .arrive .coservice, .advance 1, .advance 0, .advance 0, .advance 1]

/-- The second call has taken entry 0, and the first one entry 1. -/
theorem entries_distinct_two :
    ∃ s, Reach allocStep anyAct ⟨initCounters, []⟩ s ∧
      s.threads = [(.coservice, .returned (some 1)), (.coservice, .returned (some 0))] ∧
      (s.shared .coservice).active = 2 := by
  obtain ⟨s, hrun, hreach⟩ := exists_reach_of_isSome allocStep twoAllocations ⟨initCounters, []⟩
    (by decide)
  have hthreads : s.threads =
      [(.coservice, .returned (some 1)), (.coservice, .returned (some 0))] :=
    eq_of_map_runFrom Pool.threads hrun (by decide)
  have hall : ∀ x ∈ s.threads, ∃ i, x.2 = .returned i := by simp [hthreads]
  have hcount : count s.threads .coservice isGiven = 2 := by
    rw [hthreads]
    rfl
  have hactive := (entries_distinct hreach (by simp [hthreads]) .coservice).2.2.2 hall
  exact ⟨s, hreach, hthreads, hactive.trans hcount⟩

end Comsg.Proofs.Coserviced
