import Comsg.Libcomsg.Coservice
import Mathlib.Data.List.Nodup

/-!
# `Comsg.Proofs.Libcomsg.Coservice`: fairness and range of the choice of a worker

The call that finds `next_worker` behind the last worker resets it to 0 and returns 0. The call
after it returns 0 once more. So the workers are handed out fairly only where there is one of
them (`round_robin_iff`): a window of calls is fair if it begins at worker 0 or 1
(`fairWindow_iff`).

Calls that run at the same time can make each other's compare-exchange fail, again and again.
`next_worker` grows meanwhile. The index is in range in every run in which the addition does not
wrap (`scb_in_range`), and two calls are enough to make it wrap (`scb_index_negative`).
-/

set_option autoImplicit false

namespace Comsg.Proofs.Libcomsg

open Comsg.Lib
open Comsg.Libcomsg
open Comsg.Libcomsg.Endpoint

section Sequential
variable {σ : Type} {e e' : Endpoint σ} {index : Int}

/-- The endpoint with another value of `next_worker`. -/
def atWorker (e : Endpoint σ) (c : Nat) : Endpoint σ := { e with nextWorker := c }

/-- What a call does that nobody interrupts: the loop ends in its first round. -/
def afterCall (e : Endpoint σ) : Endpoint σ × Int :=
  if e.nworkers = 1 then (e, 0)
  else if e.nworkers ≤ e.nextWorker then ({ e with nextWorker := 0 }, 0)
  else ({ e with nextWorker := int32Succ e.nextWorker }, e.nextWorker)

theorem finish_three (e : Endpoint σ) (fuel : Nat) :
    finish (fuel + 3) e .entry = some (afterCall e) := by
  by_cases hone : e.nworkers = 1
  · simp [finish, advance, afterCall, hone]
  · by_cases hle : e.nworkers ≤ e.nextWorker
    · simp [finish, advance, afterCall, hone, hle]
    · simp [finish, advance, afterCall, hone, hle]

/-- More fuel does not change the result. -/
theorem finish_succ {fuel : Nat} {pc : ScbPc} {q : Endpoint σ × Int}
    (h : finish fuel e pc = some q) : finish (fuel + 1) e pc = some q := by
  induction fuel generalizing e pc with
  | zero =>
    cases pc with
    | returned index => exact h
    | _ => cases h
  | succ fuel ih =>
    cases pc with
    | returned index => exact h
    | _ =>
      obtain ⟨⟨e₁, pc₁⟩, hadv, hrest⟩ := Option.bind_eq_some_iff.mp h
      simp only [finish, hadv, Option.bind_some]
      exact ih hrest

theorem getScbIndex_iff : e.GetScbIndex index e' ↔ afterCall e = (e', index) := by
  constructor
  · rintro ⟨fuel, h⟩
    have hmore : finish (fuel + 3) e .entry = some (e', index) :=
      finish_succ (finish_succ (finish_succ h))
    exact Option.some.inj ((finish_three e fuel).symm.trans hmore)
  · intro h
    exact ⟨3, by rw [finish_three e 0, h]⟩

/-- The indices that a number of calls return are determined. -/
theorem calls_unique {xs ys : List Int} {e₁ e₂ : Endpoint σ} (h : Calls e xs e₁)
    (h' : Calls e ys e₂) (hlen : xs.length = ys.length) : xs = ys := by
  induction h generalizing ys e₂ with
  | nil e => exact (List.eq_nil_of_length_eq_zero hlen.symm).symm
  | cons hcall hrest ih =>
    cases h' with
    | nil => cases hlen
    | cons hcall' hrest' =>
      have heq := (getScbIndex_iff.mp hcall).symm.trans (getScbIndex_iff.mp hcall')
      cases heq
      rw [ih hrest' (by simpa using hlen)]

theorem calls_append {xs ys : List Int} {e₁ e₂ : Endpoint σ} (h : Calls e xs e₁)
    (h' : Calls e₁ ys e₂) : Calls e (xs ++ ys) e₂ := by
  induction h with
  | nil e => exact h'
  | cons hcall hrest ih => exact .cons hcall (ih h')

/-- `get_scb_index` leaves the number of workers alone. -/
theorem nworkers_of_calls {xs : List Int} {e₁ : Endpoint σ} (h : Calls e xs e₁) :
    e₁.nworkers = e.nworkers := by
  induction h with
  | nil e => rfl
  | @cons e₀ e₁ e' index xs hcall hrest ih =>
    rw [ih]
    have heq := getScbIndex_iff.mp hcall
    unfold afterCall at heq
    split at heq
    · cases heq
      rfl
    · split at heq
      · cases heq
        rfl
      · cases heq
        rfl

end Sequential
/-! ### Windows -/

section Windows
variable {σ : Type} {e e' : Endpoint σ} {c : Nat}

/-- The next calls, as many as there are workers, return each index once. -/
def FairWindow (e : Endpoint σ) : Prop :=
  ∃ window e', Calls e window e' ∧ window.length = e.nworkers ∧
    ∀ i : Int, 0 ≤ i → i < e.nworkers → window.count i = 1

/-- Every window of calls is fair, from the first call on. -/
def RoundRobin (e : Endpoint σ) : Prop :=
  ∀ before e', Calls e before e' → FairWindow e'

theorem afterCall_lt (hone : e.nworkers ≠ 1) (hmax : e.nworkers ≤ intMax)
    (hlt : (c : Int) < e.nworkers) :
    afterCall (atWorker e c) = (atWorker e (c + 1), (c : Int)) := by
  have hsucc : int32Succ c = (c + 1 : Nat) := by
    rw [int32Succ, if_neg (by omega)]
    rfl
  simp only [afterCall, atWorker, if_neg hone, if_neg (Int.not_le.mpr hlt), hsucc]

theorem afterCall_reset (hone : e.nworkers ≠ 1) (hle : e.nworkers ≤ c) :
    afterCall (atWorker e c) = (atWorker e 0, 0) := by
  simp [afterCall, atWorker, hone, hle]

/-- The calls before a reset return the indices in turn. -/
theorem calls_range (hone : e.nworkers ≠ 1) (hmax : e.nworkers ≤ intMax) (k : Nat)
    (hle : (c + k : Int) ≤ e.nworkers) :
    Calls (atWorker e c) ((List.range' c k).map Nat.cast) (atWorker e (c + k)) := by
  induction k generalizing c with
  | zero => exact .nil _
  | succ k ih =>
    have hcall := getScbIndex_iff.mpr (afterCall_lt hone hmax (c := c) (by omega))
    have hrest := ih (c := c + 1) (by push_cast at hle ⊢; omega)
    rw [show c + 1 + k = c + (k + 1) by omega] at hrest
    exact .cons hcall hrest

theorem calls_reset (hone : e.nworkers ≠ 1) (hle : e.nworkers ≤ c) :
    Calls (atWorker e c) [0] (atWorker e 0) :=
  .cons (getScbIndex_iff.mpr (afterCall_reset hone hle)) (.nil _)

/-- A list of distinct indices that has each of them has each of them once. -/
theorem fairWindow_of_nodup {window : List Nat} {n : Nat} (h : Calls e (window.map Nat.cast) e')
    (hn : e.nworkers = n) (hlen : window.length = n) (hnodup : window.Nodup)
    (hmem : ∀ i < n, i ∈ window) : FairWindow e := by
  refine ⟨_, e', h, by rw [List.length_map, hlen, hn], fun i hi hlt => ?_⟩
  obtain ⟨j, rfl⟩ := Int.eq_ofNat_of_zero_le hi
  refine List.count_eq_one_of_mem (hnodup.map fun _ _ h => Int.ofNat_inj.mp h) ?_
  exact List.mem_map_of_mem (hmem j (by omega))

/-- A window that begins at worker 0 or 1 is fair. -/
theorem fairWindow_of_le {n : Nat} (hn : e.nworkers = n) (htwo : 2 ≤ n) (hmax : e.nworkers ≤ intMax)
    (hc : c ≤ 1) : FairWindow (atWorker e c) := by
  have hone : e.nworkers ≠ 1 := by omega
  rcases Nat.le_one_iff_eq_zero_or_eq_one.mp hc with rfl | rfl
  · have hcalls := calls_range (c := 0) hone hmax n (by omega)
    refine fairWindow_of_nodup hcalls hn (by simp) List.nodup_range' fun i hi => ?_
    exact List.mem_range'_1.mpr ⟨Nat.zero_le i, by omega⟩
  · -- The last call of the window is the one that resets.
    have hcalls := calls_range (c := 1) hone hmax (n - 1) (by omega)
    have hreset := calls_reset (c := 1 + (n - 1)) hone (by omega)
    have hwindow := calls_append hcalls hreset
    rw [show [(0 : Int)] = [0].map Nat.cast by rfl, ← List.map_append] at hwindow
    refine fairWindow_of_nodup hwindow hn (by simp; omega) ?_ fun i hi => ?_
    · refine List.nodup_append.mpr ⟨List.nodup_range', List.nodup_singleton 0, ?_⟩
      intro a ha b hb
      have hge := (List.mem_range'_1.mp ha).1
      have hzero := List.mem_singleton.mp hb
      omega
    · rw [List.mem_append, List.mem_range'_1, List.mem_singleton]
      omega

/-- A window with the reset and the call after it is not fair: both return 0. -/
theorem not_fairWindow_of_two_le {n : Nat} (hn : e.nworkers = n) (hmax : e.nworkers ≤ intMax)
    (htwo : 2 ≤ c) (hle : c ≤ n) : ¬FairWindow (atWorker e c) := by
  rintro ⟨window, e', hwindow, hlen, hcount⟩
  have hone : e.nworkers ≠ 1 := by omega
  have hcalls := calls_range (c := c) hone hmax (n - c) (by omega)
  have hreset := calls_reset (c := c + (n - c)) hone (by omega)
  have hzero := calls_range (c := 0) hone hmax 1 (by omega)
  have hrest := calls_range (c := 0 + 1) hone hmax (c - 2) (by omega)
  have hcalls' := calls_append (calls_append (calls_append hcalls hreset) hzero) hrest
  have hlen' : (window.length : Int) = n := hlen.trans hn
  have heq := calls_unique hwindow hcalls' (by simp; omega)
  have hfair := hcount 0 (Int.le_refl 0) (show 0 < e.nworkers by omega)
  rw [heq] at hfair
  simp only [List.count_append] at hfair
  simp at hfair
  omega

/-- When a window is fair. -/
theorem fairWindow_iff {n : Nat} (hn : e.nworkers = n) (htwo : 2 ≤ n) (hmax : e.nworkers ≤ intMax)
    (hle : c ≤ n) : FairWindow (atWorker e c) ↔ c ≤ 1 := by
  constructor
  · intro hfair
    by_contra hc
    exact not_fairWindow_of_two_le hn hmax (by omega) hle hfair
  · exact fairWindow_of_le hn htwo hmax

/-- The only worker is handed out each time. -/
theorem fairWindow_one (hone : e.nworkers = 1) : FairWindow e := by
  have hcall : e.GetScbIndex 0 e := getScbIndex_iff.mpr (if_pos hone)
  refine ⟨[0], e, .cons hcall (.nil e), by simp [hone], fun i hi hlt => ?_⟩
  obtain rfl : i = 0 := by omega
  rfl

/-- For every endpoint, the calls of every run hand out the workers fairly if and only if there is
one worker. -/
theorem round_robin_iff (hpos : 1 ≤ e.nworkers) (hmax : e.nworkers ≤ intMax)
    (hzero : 0 ≤ e.nextWorker) (hlt : e.nextWorker < e.nworkers) :
    RoundRobin e ↔ e.nworkers = 1 := by
  constructor
  · intro hfair
    by_contra hone
    obtain ⟨n, hn⟩ := Int.eq_ofNat_of_zero_le (show 0 ≤ e.nworkers by omega)
    obtain ⟨c, hc⟩ := Int.eq_ofNat_of_zero_le hzero
    have hstart : e = atWorker e c := by rw [atWorker, ← hc]
    have hcalls := calls_range (c := c) hone hmax (n - c) (by omega)
    rw [← hstart] at hcalls
    exact not_fairWindow_of_two_le hn hmax (by omega) (by omega) (hfair _ _ hcalls)
  · intro hone before e' hcalls
    exact fairWindow_one ((nworkers_of_calls hcalls).trans hone)

end Windows

/-- An endpoint with workers `0 .. n - 1`, as `coprovide` sets it up. -/
def freshEndpoint (n : Nat) : Endpoint Nat := ⟨List.range n, n, 0⟩

/-- The endpoint with one worker. -/
theorem round_robin_iff_one : RoundRobin (freshEndpoint 1) :=
  (round_robin_iff (by decide) (by decide) (by decide) (by decide)).mpr rfl

/-- With two workers the calls return 0, 1, 0, 0. -/
theorem two_workers_unfair :
    Calls (freshEndpoint 2) [0, 1] (atWorker (freshEndpoint 2) 2) ∧
    Calls (atWorker (freshEndpoint 2) 2) [0, 0] (atWorker (freshEndpoint 2) 1) ∧
    ¬RoundRobin (freshEndpoint 2) := by
  have hfirst : Calls (freshEndpoint 2) [0, 1] (atWorker (freshEndpoint 2) 2) :=
    calls_range (e := freshEndpoint 2) (c := 0) (by decide) (by decide) 2 (by decide)
  have hreset : Calls (atWorker (freshEndpoint 2) 2) [0] (atWorker (freshEndpoint 2) 0) :=
    calls_reset (by decide) (by decide)
  have hnext : Calls (atWorker (freshEndpoint 2) 0) [0] (atWorker (freshEndpoint 2) 1) :=
    calls_range (e := freshEndpoint 2) (c := 0) (by decide) (by decide) 1 (by decide)
  refine ⟨hfirst, calls_append hreset hnext, fun hfair => ?_⟩
  exact not_fairWindow_of_two_le (n := 2) rfl (by decide) (by decide) (by decide)
    (hfair _ _ hfirst)

/-! ### Calls at the same time -/

section Concurrent
variable {σ : Type} {e : Endpoint σ} {s s' : Pool (Endpoint σ) Unit ScbPc}

/-- The step is no addition to `INT_MAX`. -/
def NoWrap (s : Pool (Endpoint σ) Unit ScbPc) : PoolAct Unit → Prop
  | .arrive _  => True
  | .advance r => s.threads[r]? = some ((), .loop) → s.shared.nextWorker ≠ intMax

/-- What holds while the addition does not wrap. -/
structure InRange (e : Endpoint σ) (s : Pool (Endpoint σ) Unit ScbPc) : Prop where
  scbs : s.shared.workerScbs = e.workerScbs
  nworkers : s.shared.nworkers = e.nworkers
  next_nonneg : 0 ≤ s.shared.nextWorker
  index : ∀ (r : Nat) i, s.threads[r]? = some ((), .returned i) → 0 ≤ i ∧ i < e.nworkers

/-- A step of one call. -/
theorem inRange_advance {e' : Endpoint σ} {pc pc' : ScbPc} (hpos : 1 ≤ e.nworkers)
    (hn : e'.nworkers = e.nworkers) (hnext : 0 ≤ e'.nextWorker)
    (hwrap : pc = .loop → e'.nextWorker ≠ intMax) {e'' : Endpoint σ}
    (h : e'.advance pc = some (e'', pc')) :
    e''.workerScbs = e'.workerScbs ∧ e''.nworkers = e'.nworkers ∧ 0 ≤ e''.nextWorker ∧
      ∀ i, pc' = .returned i → 0 ≤ i ∧ i < e.nworkers := by
  cases pc with
  | entry =>
    cases h
    refine ⟨rfl, rfl, hnext, fun i hi => ?_⟩
    split at hi
    · cases hi
      omega
    · cases hi
  | loop =>
    cases h
    refine ⟨rfl, rfl, ?_, fun i hi => ?_⟩
    · show 0 ≤ int32Succ e'.nextWorker
      rw [int32Succ, if_neg (hwrap rfl)]
      omega
    · split at hi
      · cases hi
      · cases hi
        omega
  | reset idx =>
    simp only [advance] at h
    split at h
    · cases h
      refine ⟨rfl, rfl, Int.le_refl 0, fun i hi => ?_⟩
      cases hi
      omega
    · -- Another call has changed the counter in between.
      cases h
      exact ⟨rfl, rfl, hnext, fun i hi => by cases hi⟩
  | returned i => cases h

theorem inRange_step (hpos : 1 ≤ e.nworkers) {act : PoolAct Unit} (h : InRange e s)
    (hok : NoWrap s act) (hs : scbStep s act = some s') : InRange e s' := by
  rcases poolStep_cases hs with ⟨task, rfl, rfl⟩ | ⟨r, task, pc, e', pc', rfl, hr, hadv, rfl⟩
  · refine ⟨h.scbs, h.nworkers, h.next_nonneg, fun q i hq => ?_⟩
    rcases getElem?_concat_cases hq with hq | heq
    · exact h.index q i hq
    · cases heq
  · obtain ⟨hscbs, hn, hnext, hindex⟩ := inRange_advance hpos h.nworkers h.next_nonneg
      (fun hpc => hok (by rw [hr, hpc])) hadv
    refine ⟨hscbs.trans h.scbs, hn.trans h.nworkers, hnext, fun q i hq => ?_⟩
    rcases getElem?_set_cases hq with ⟨-, heq⟩ | ⟨-, hq⟩
    · cases heq
      exact hindex i rfl
    · exact h.index q i hq

theorem inRange_reach (hpos : 1 ≤ e.nworkers) (hnext : 0 ≤ e.nextWorker)
    (h : Reach scbStep NoWrap ⟨e, []⟩ s) : InRange e s :=
  h.invariant ⟨rfl, rfl, hnext, by simp⟩ fun _ _ _ _ hinv hok hs => inRange_step hpos hinv hok hs

/-- On every endpoint that coserviced sets up, and in every run of any number of calls in which
the addition does not wrap, every index that is returned is in range, and the worker is one of
those that were provided. -/
theorem scb_in_range (he : e.ProvideCoservice ∨ e.InitService)
    (h : Reach scbStep NoWrap ⟨e, []⟩ s) {index : Int}
    (hret : ((), .returned index) ∈ s.threads) :
    0 ≤ index ∧ index < e.nworkers ∧
      ∃ scb ∈ e.workerScbs, s.shared.getCoserviceScb index = some scb := by
  have hpos : 1 ≤ e.nworkers := he.elim (·.nworkers_pos) (·.nworkers_pos)
  have hlen : (e.workerScbs.length : Int) = e.nworkers := he.elim (·.length_eq) (·.length_eq)
  have hnext : 0 ≤ e.nextWorker := by
    rcases he with hprovide | hinit
    · exact Int.le_of_eq hprovide.next_eq.symm
    · rw [hinit.next_eq]
      decide
  have hinv := inRange_reach hpos hnext h
  obtain ⟨r, hr⟩ := List.mem_iff_getElem?.mp hret
  obtain ⟨hge, hlt⟩ := hinv.index r index hr
  have hbound : index.toNat < e.workerScbs.length := by omega
  refine ⟨hge, hlt, e.workerScbs[index.toNat], List.getElem_mem hbound, ?_⟩
  rw [getCoserviceScb, if_pos hge, hinv.scbs, List.getElem?_eq_getElem hbound]

end Concurrent

/-- The first of two workers is handed out. -/
theorem scb_in_range_two :
    ∃ s : Pool (Endpoint Nat) Unit ScbPc, Reach scbStep NoWrap ⟨freshEndpoint 2, []⟩ s ∧
      ((), .returned 0) ∈ s.threads ∧
      ∃ scb ∈ [0, 1], s.shared.getCoserviceScb 0 = some scb := by
  have hprovide : (freshEndpoint 2).ProvideCoservice :=
    ⟨by decide, by decide, by decide, by decide⟩
  have harrived : Reach scbStep NoWrap ⟨freshEndpoint 2, []⟩ ⟨freshEndpoint 2, [((), .entry)]⟩ :=
    .next (.arrive ()) .init trivial rfl
  have hloop : Reach scbStep NoWrap ⟨freshEndpoint 2, []⟩ ⟨freshEndpoint 2, [((), .loop)]⟩ :=
    .next (.advance 0) harrived (fun h => by simp at h) rfl
  have hreturned : Reach scbStep NoWrap ⟨freshEndpoint 2, []⟩
      ⟨atWorker (freshEndpoint 2) 1, [((), .returned 0)]⟩ :=
    .next (.advance 0) hloop (fun _ => by decide) rfl
  have hmem : ((), ScbPc.returned 0) ∈ [((), ScbPc.returned 0)] := List.mem_singleton_self _
  obtain ⟨-, -, hscb⟩ := scb_in_range (.inl hprovide) hreturned hmem
  exact ⟨_, hreturned, by simp, hscb⟩

/-- Two calls have returned. Two more have read `m` and `m + 1`, and are before their
compare-exchange. -/
def racing (m : Nat) : Pool (Endpoint Nat) Unit ScbPc :=
  ⟨atWorker (freshEndpoint 2) (m + 2),
    [((), .returned 0), ((), .returned 1), ((), .reset m), ((), .reset (m + 1 : Nat))]⟩

/-- The call that has read `m` finds a counter that has moved on, and adds once more. -/
theorem loses_race {m c : Nat} (hm : 2 ≤ c) (hne : c ≠ m + 1) (hlt : c < intMax) {r : Nat}
    {threads : List (Unit × ScbPc)} (hr : threads[r]? = some ((), .reset m))
    {s₀ : Pool (Endpoint Nat) Unit ScbPc} (hmax : m < intMax)
    (h : Reach scbStep anyAct s₀ ⟨atWorker (freshEndpoint 2) c, threads⟩) :
    Reach scbStep anyAct s₀
      ⟨atWorker (freshEndpoint 2) (c + 1), threads.set r ((), .reset c)⟩ := by
  have hlen := (List.getElem?_eq_some_iff.mp hr).1
  have hsucc : int32Succ m = (m + 1 : Nat) := if_neg (by omega)
  have hsucc' : int32Succ c = (c + 1 : Nat) := if_neg (by omega)
  have hfailed : scbStep ⟨atWorker (freshEndpoint 2) c, threads⟩ (.advance r) =
      some ⟨atWorker (freshEndpoint 2) c, threads.set r ((), .loop)⟩ := by
    have hneq : (atWorker (freshEndpoint 2) c).nextWorker ≠ int32Succ m := by
      rw [hsucc]
      exact fun heq => hne (Int.ofNat_inj.mp heq)
    simp [scbStep, poolStep, hr, advance, hneq]
  have hadded : scbStep ⟨atWorker (freshEndpoint 2) c, threads.set r ((), .loop)⟩ (.advance r) =
      some ⟨atWorker (freshEndpoint 2) (c + 1), threads.set r ((), .reset c)⟩ := by
    have hover : (2 : Int) ≤ c := by omega
    simp [scbStep, poolStep, hlen, advance, atWorker, freshEndpoint, hsucc', hover]
  exact .next _ (.next _ h trivial hfailed) trivial hadded

/-- The two calls make each other's compare-exchange fail. -/
theorem racing_reach (k : Nat) (hk : 2 * k + 5 ≤ intMax) :
    Reach scbStep anyAct ⟨freshEndpoint 2, []⟩ (racing (2 * k + 2)) := by
  induction k with
  | zero =>
    refine reach_of_runFrom [.arrive (), .advance 0, .advance 0, .arrive (), .advance 1,
      .advance 1, .arrive (), .advance 2, .advance 2, .arrive (), .advance 3, .advance 3] _ _ ?_
    decide
  | succ k ih =>
    have hk' : (2 * k + 7 : Int) ≤ intMax := by
      push_cast at hk
      omega
    have hfirst := loses_race (r := 2) (m := 2 * k + 2) (c := 2 * k + 2 + 2) (by omega) (by omega)
      (by push_cast; omega) rfl (by push_cast; omega) (ih (by omega))
    have hsecond := loses_race (r := 3) (m := 2 * k + 2 + 1) (c := 2 * k + 2 + 2 + 1) (by omega)
      (by omega) (by push_cast; omega) rfl (by push_cast; omega) hfirst
    exact hsecond

/-- Two calls on an endpoint with two workers drive `next_worker` to `INT_MAX` and over it, and
one of them returns `INT_MIN`. -/
theorem scb_index_negative :
    (freshEndpoint 2).ProvideCoservice ∧
    ∃ s, Reach scbStep anyAct ⟨freshEndpoint 2, []⟩ s ∧ ((), .returned intMin) ∈ s.threads ∧
      ¬0 ≤ intMin ∧ s.shared.getCoserviceScb intMin = none := by
  refine ⟨⟨by decide, by decide, by decide, by decide⟩, ?_⟩
  have hrace := racing_reach (2 ^ 30 - 3) (by decide)
  have hfirst := loses_race (r := 2) (m := 2 ^ 31 - 4) (c := 2 ^ 31 - 2) (by decide) (by decide)
    (by decide) rfl (by decide) hrace
  -- The second call reads `INT_MAX`, and the first one, whose compare-exchange fails again, what
  -- comes after it.
  have hlast : runFrom scbStep
      ⟨atWorker (freshEndpoint 2) (2 ^ 31 - 2 + 1), [((), .returned 0), ((), .returned 1),
        ((), .reset (2 ^ 31 - 2 : Nat)), ((), .reset (2 ^ 31 - 4 + 1 : Nat))]⟩
      [.advance 3, .advance 3, .advance 2, .advance 2] =
      some ⟨{ freshEndpoint 2 with nextWorker := intMin + 1 }, [((), .returned 0),
        ((), .returned 1), ((), .returned intMin), ((), .reset intMax)]⟩ := by decide
  exact ⟨_, hfirst.trans (reach_of_runFrom _ _ _ hlast), by simp, by decide, rfl⟩

end Comsg.Proofs.Libcomsg
