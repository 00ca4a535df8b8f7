import Mathlib.Data.List.Basic
import Mathlib.Data.List.Nodup

/-!
# `Comsg.Lib.Queue`: a queue whose elements are served once

Elements join a queue at its end and are taken from its head. `Served added done queue` says that
`done` and then `queue` are what was added, in that order, with no element added twice. Joining
and taking keep it (`Served.push`, `Served.pop`). What was added is then done exactly once, or
still waits (`Served.once`).
-/

set_option autoImplicit false

namespace Comsg.Lib

variable {α : Type}

/-- What was added has been taken in order, up to what the queue still holds. -/
structure Served (added done queue : List α) : Prop where
  split : added = done ++ queue
  nodup : added.Nodup

namespace Served

variable {added done queue : List α} {x : α}

theorem nil : Served ([] : List α) [] [] := ⟨rfl, List.nodup_nil⟩

theorem push (h : Served added done queue) (hx : x ∉ added) :
    Served (added ++ [x]) done (queue ++ [x]) where
  split := by rw [h.split, List.append_assoc]
  nodup := by
    refine List.nodup_append.mpr ⟨h.nodup, List.nodup_singleton x, fun a ha b hb => ?_⟩
    rw [List.mem_singleton.mp hb]
    rintro rfl
    exact hx ha

theorem pop (h : Served added done (x :: queue)) : Served added (done ++ [x]) queue where
  split := by rw [h.split, List.append_assoc, List.singleton_append]
  nodup := h.nodup

/-- What was added is done exactly once, or it still waits. -/
theorem once [DecidableEq α] (h : Served added done queue) (hx : x ∈ added) :
    (done.count x = 1 ∧ x ∉ queue) ∨ (done.count x = 0 ∧ x ∈ queue) := by
  have hnodup := h.nodup
  rw [h.split] at hnodup hx
  obtain ⟨hdone, -, hdisjoint⟩ := List.nodup_append.mp hnodup
  rcases List.mem_append.mp hx with hmem | hmem
  · exact .inl ⟨List.count_eq_one_of_mem hdone hmem, fun hq => hdisjoint x hmem x hq rfl⟩
  · exact .inr ⟨List.count_eq_zero.mpr fun hd => hdisjoint x hd x hmem rfl, hmem⟩

end Served

end Comsg.Lib
