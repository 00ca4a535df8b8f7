import Mathlib.Data.List.Nodup
import Mathlib.Logic.Function.Basic

/-!
# `Comsg.Lib.RefCount`: counters of the references in a family of queues

`Counted queue n` says that `n x` is the number of times that `x` occurs in all the queues
together. All but finitely many of them are empty. The counters are kept when a reference joins a
queue and its counter goes up (`Counted.push`), and when one leaves and its counter goes down
(`Counted.pop`). Both are the case of one queue that changes (`Counted.update`).
-/

set_option autoImplicit false

namespace Comsg.Lib

variable {ι β : Type} [DecidableEq β]

/-- `n x` is the number of references to `x` in the queues. -/
def Counted (queue : ι → List β) (n : β → Int) : Prop :=
  ∃ ids : List ι, ids.Nodup ∧ (∀ i ∉ ids, queue i = []) ∧
    ∀ x, n x = (ids.flatMap queue).count x

namespace Counted

variable {queue : ι → List β} {n : β → Int} {i : ι} {x : β} {l : List β}

theorem nil : Counted (fun _ : ι => ([] : List β)) fun _ => 0 :=
  ⟨[], List.nodup_nil, fun _ _ => rfl, fun _ => rfl⟩

/-- The queues that are looked at can begin with any one of them. -/
theorem exists_cons [DecidableEq ι] (h : Counted queue n) (i : ι) :
    ∃ ids : List ι, (i :: ids).Nodup ∧ (∀ j ∉ i :: ids, queue j = []) ∧
      ∀ x, n x = ((queue i).count x + (ids.flatMap queue).count x : Nat) := by
  obtain ⟨ids, hnodup, hnil, hcount⟩ := h
  by_cases hi : i ∈ ids
  · have hperm : ids.Perm (i :: ids.erase i) := List.perm_cons_erase hi
    refine ⟨ids.erase i, hperm.nodup_iff.mp hnodup, fun j hj => ?_, fun x => ?_⟩
    · exact hnil j fun hmem => hj (hperm.mem_iff.mp hmem)
    · rw [hcount x, (hperm.flatMap_right queue).count_eq, List.flatMap_cons, List.count_append]
  · refine ⟨ids, List.nodup_cons.mpr ⟨hi, hnodup⟩, fun j hj => ?_, fun x => ?_⟩
    · exact hnil j fun hmem => hj (List.mem_cons_of_mem i hmem)
    · rw [hcount x, hnil i hi, List.count_nil, Nat.zero_add]

/-- One queue changes, and the counters change with it. -/
theorem update [DecidableEq ι] (h : Counted queue n) (i : ι) (l : List β) :
    Counted (Function.update queue i l) fun x => n x + l.count x - (queue i).count x := by
  obtain ⟨ids, hnodup, hnil, hcount⟩ := h.exists_cons i
  have hi : i ∉ ids := (List.nodup_cons.mp hnodup).1
  refine ⟨i :: ids, hnodup, fun j hj => ?_, fun x => ?_⟩
  · have hne : j ≠ i := fun heq => hj (by simp [heq])
    rw [Function.update_of_ne hne]
    exact hnil j hj
  · have hrest : ids.flatMap (Function.update queue i l) = ids.flatMap queue := by
      refine List.flatMap_congr fun j hj => ?_
      have hne : j ≠ i := fun heq => hi (heq ▸ hj)
      rw [Function.update_of_ne hne]
    rw [List.flatMap_cons, Function.update_self, hrest, List.count_append]
    show n x + l.count x - (queue i).count x = _
    rw [hcount x]
    omega

/-- Counters that are equal. -/
theorem congr {n' : β → Int} (h : Counted queue n) (heq : ∀ x, n' x = n x) :
    Counted queue n' := by
  obtain ⟨ids, hnodup, hnil, hcount⟩ := h
  exact ⟨ids, hnodup, hnil, fun x => (heq x).trans (hcount x)⟩

/-- A reference joins a queue. -/
theorem push [DecidableEq ι] (h : Counted queue n) (i : ι) (x : β) :
    Counted (Function.update queue i (queue i ++ [x])) (Function.update n x (n x + 1)) := by
  refine (h.update i (queue i ++ [x])).congr fun y => ?_
  rw [List.count_append]
  by_cases hy : y = x
  · subst hy
    rw [Function.update_self, List.count_singleton_self]
    omega
  · rw [Function.update_of_ne hy, List.count_singleton, if_neg (by simpa using Ne.symm hy)]
    omega

/-- The first reference leaves a queue. -/
theorem pop [DecidableEq ι] (h : Counted queue n) (hqueue : queue i = x :: l) :
    Counted (Function.update queue i l) (Function.update n x (n x - 1)) := by
  refine (h.update i l).congr fun y => ?_
  rw [hqueue]
  by_cases hy : y = x
  · subst hy
    rw [Function.update_self, List.count_cons_self]
    omega
  · rw [Function.update_of_ne hy, List.count_cons_of_ne (Ne.symm hy)]
    omega

/-- What is not referred to has the counter zero. -/
theorem eq_zero (h : Counted queue n) (hx : ∀ i, x ∉ queue i) : n x = 0 := by
  obtain ⟨ids, -, -, hcount⟩ := h
  have hnot : x ∉ ids.flatMap queue := by
    intro hmem
    obtain ⟨i, -, hi⟩ := List.mem_flatMap.mp hmem
    exact hx i hi
  rw [hcount x, List.count_eq_zero.mpr hnot]
  rfl

/-- A counter of what is not referred to may be set to zero. -/
theorem reset (h : Counted queue n) (hx : ∀ i, x ∉ queue i) :
    Counted queue (Function.update n x 0) := by
  refine h.congr fun y => ?_
  by_cases hy : y = x
  · rw [hy, Function.update_self, h.eq_zero hx]
  · rw [Function.update_of_ne hy]

end Counted

end Comsg.Lib
