import Mathlib.Data.List.Basic
import Mathlib.Data.Nat.ModEq
import Mathlib.Logic.Function.Basic

/-!
# `Comsg.Lib.Ring`: the contents of a circular buffer

A ring of capacity `n` is a cell function `cells : Nat → α`, a start index and a length. Its
contents are the cells `start, start + 1, …, start + len - 1`, taken modulo `n`, oldest
first (`ringList`). The facts are the ones a queue over a ring needs. Writing the cell after
the last appends (`ringList_push`). Advancing the start drops the head (`ringList_pop`). A
write outside the window changes nothing (`ringList_update_of_ne`). Two offsets below `n`
never share a cell (`ringIndex_inj`). When `total` entries were written in all, entry `k` is in the
cell `k % n` until `n` more were written (`ringSlot_inj`, `exists_ringSlot`).

`RingHolds` relates the three indices and the cells of a ring to the queue it stands for. It
is the invariant of a bounded queue over a ring. `RingHolds.push` and `RingHolds.pop` are its
two operations, `RingHolds.append` and `RingHolds.drop` the same for several entries at a time,
and `RingHolds.length_eq` reads the fill level off the queue.
-/

set_option autoImplicit false

namespace Comsg.Lib

variable {α : Type}

/-- The cells of the window, oldest first. -/
def ringList (n start len : Nat) (cells : Nat → α) : List α :=
  (List.range len).map fun i => cells ((start + i) % n)

@[simp] theorem length_ringList (n start len : Nat) (cells : Nat → α) :
    (ringList n start len cells).length = len := by
  simp [ringList]

/-- Two offsets below the capacity name the same cell only when they are equal. -/
theorem ringIndex_inj {n start i j : Nat} (hi : i < n) (hj : j < n)
    (h : (start + i) % n = (start + j) % n) : i = j := by
  have hmod : Nat.ModEq n i j := Nat.ModEq.add_left_cancel' start h
  rwa [Nat.ModEq, Nat.mod_eq_of_lt hi, Nat.mod_eq_of_lt hj] at hmod

/-- The start cell is not in the window that begins one cell later, unless that window is
full. -/
theorem ringIndex_succ_ne {n start i : Nat} (hs : start < n) (hi : i + 1 < n) :
    ((start + 1) % n + i) % n ≠ start := by
  intro h
  have heq : (start + (i + 1)) % n = (start + 0) % n := by
    calc (start + (i + 1)) % n
        = ((start + 1) % n + i) % n := by rw [Nat.mod_add_mod]; congr 1; omega
      _ = start := h
      _ = (start + 0) % n := (Nat.mod_eq_of_lt hs).symm
  exact absurd (ringIndex_inj hi (Nat.zero_lt_of_lt hs) heq) (Nat.succ_ne_zero i)

/-- Of all entries that were ever written, one cell after the other, the last `n` are in cells of
their own. -/
theorem ringSlot_inj {n total k k' : Nat} (hk : k < total) (hk' : k' < total)
    (hlive : total ≤ k + n) (hlive' : total ≤ k' + n) (h : k % n = k' % n) : k = k' := by
  -- Both are offsets below `n` from the first of the last `n`.
  have hoff : ((total - n) + (k - (total - n))) % n = ((total - n) + (k' - (total - n))) % n := by
    rw [Nat.add_sub_cancel' (by omega), Nat.add_sub_cancel' (by omega), h]
  have heq := ringIndex_inj (by omega) (by omega) hoff
  omega

/-- A cell that was written holds one of the last `n` entries. -/
theorem exists_ringSlot {n total i : Nat} (hi : i < n) (htotal : i < total) :
    ∃ k, k < total ∧ total ≤ k + n ∧ k % n = i := by
  refine ⟨total - 1 - (total - 1 - i) % n, by omega, ?_, ?_⟩
  · have := Nat.mod_lt (total - 1 - i) (Nat.zero_lt_of_lt hi)
    omega
  · -- What is left of the distance to the last entry is a multiple of `n`.
    have hdiv := Nat.div_add_mod (total - 1 - i) n
    have heq : total - 1 - (total - 1 - i) % n = i + n * ((total - 1 - i) / n) := by omega
    rw [heq, Nat.add_mul_mod_self_left, Nat.mod_eq_of_lt hi]

/-- A write to a cell that no offset of the window names leaves the contents alone. -/
theorem ringList_update_of_ne {n start len k : Nat} {cells : Nat → α} {x : α}
    (h : ∀ i < len, (start + i) % n ≠ k) :
    ringList n start len (Function.update cells k x) = ringList n start len cells := by
  refine List.map_congr_left fun i hi => ?_
  exact Function.update_of_ne (h i (List.mem_range.mp hi)) _ _

/-- Two cell functions that agree on the window have the same contents. -/
theorem ringList_congr {n start len : Nat} {cells cells' : Nat → α}
    (h : ∀ i < len, cells ((start + i) % n) = cells' ((start + i) % n)) :
    ringList n start len cells = ringList n start len cells' :=
  List.map_congr_left fun i hi => h i (List.mem_range.mp hi)

/-- Writing the first free cell appends. -/
theorem ringList_push {n start len : Nat} {cells : Nat → α} {x : α} (hlen : len < n) :
    ringList n start (len + 1) (Function.update cells ((start + len) % n) x)
      = ringList n start len cells ++ [x] := by
  have hkeep : ringList n start len (Function.update cells ((start + len) % n) x)
      = ringList n start len cells := by
    refine ringList_update_of_ne fun i hi heq => ?_
    exact absurd (ringIndex_inj (Nat.lt_trans hi hlen) hlen heq) (Nat.ne_of_lt hi)
  have hsnoc : ringList n start (len + 1) (Function.update cells ((start + len) % n) x)
      = ringList n start len (Function.update cells ((start + len) % n) x) ++ [x] := by
    simp [ringList, List.range_succ]
  rw [hsnoc, hkeep]

/-- Advancing the start drops the head. -/
theorem ringList_pop (n start len : Nat) (cells : Nat → α) :
    ringList n start (len + 1) cells
      = cells (start % n) :: ringList n ((start + 1) % n) len cells := by
  simp only [ringList, List.range_succ_eq_map, List.map_cons, List.map_map, Nat.add_zero]
  congr 1
  refine List.map_congr_left fun i _ => ?_
  simp only [Function.comp_apply, Nat.mod_add_mod]
  congr 2
  omega

/-- A window of `a + b` cells is one of `a` cells and the next `b`. -/
theorem ringList_add (n start a b : Nat) (cells : Nat → α) :
    ringList n start (a + b) cells
      = ringList n start a cells ++ ringList n (start + a) b cells := by
  simp [ringList, List.range_add, Function.comp_def, Nat.add_assoc]

/-- The start of a window counts modulo the capacity. -/
theorem ringList_mod (n start len : Nat) (cells : Nat → α) :
    ringList n (start % n) len cells = ringList n start len cells := by
  simp [ringList]

/-- The cell of an offset of the window, read off the contents. -/
theorem getElem?_ringList {n start len i : Nat} {cells : Nat → α} (hi : i < len) :
    (ringList n start len cells)[i]? = some (cells ((start + i) % n)) := by
  simp [ringList, hi]

/-- Mapping the contents maps the cells. -/
theorem map_ringList {β : Type} (f : α → β) (n start len : Nat) (cells : Nat → α) :
    (ringList n start len cells).map f = ringList n start len (fun i => f (cells i)) := by
  simp [ringList, Function.comp_def]

/-- The ring with the window `start`, `len` and the next free index `stop` holds `queue`. -/
structure RingHolds (n start len stop : Nat) (cells : Nat → α) (queue : List α) : Prop where
  start_lt : start < n
  len_le : len ≤ n
  stop_eq : stop = (start + len) % n
  contents : ringList n start len cells = queue

namespace RingHolds

variable {n start len stop : Nat} {cells cells' : Nat → α} {queue : List α} {x : α}

/-- The empty ring. -/
theorem empty (hn : 0 < n) (cells : Nat → α) : RingHolds n 0 0 0 cells [] :=
  ⟨hn, Nat.zero_le n, by simp, rfl⟩

/-- The length of the window is the length of the queue. -/
theorem length_eq (h : RingHolds n start len stop cells queue) : queue.length = len := by
  rw [← h.contents, length_ringList]

/-- Writing the cell `stop` of a ring that is not full appends. -/
theorem push (h : RingHolds n start len stop cells queue) (hlen : len < n) :
    RingHolds n start (len + 1) ((stop + 1) % n) (Function.update cells stop x)
      (queue ++ [x]) where
  start_lt := h.start_lt
  len_le := hlen
  stop_eq := by rw [h.stop_eq, Nat.mod_add_mod, Nat.add_assoc]
  contents := by rw [h.stop_eq, ringList_push hlen, h.contents]

/-- The cell `start` holds the head, and advancing `start` drops it. -/
theorem pop (h : RingHolds n start len stop cells (x :: queue)) :
    cells start = x ∧ RingHolds n ((start + 1) % n) (len - 1) stop cells queue := by
  have hlen : len = queue.length + 1 := by
    rw [← h.length_eq, List.length_cons]
  subst hlen
  have hcons := h.contents
  rw [ringList_pop, Nat.mod_eq_of_lt h.start_lt] at hcons
  obtain ⟨hhead, htail⟩ := List.cons.inj hcons
  refine ⟨hhead, Nat.mod_lt _ (Nat.zero_lt_of_lt h.start_lt), ?_, ?_, htail⟩
  · exact Nat.le_of_succ_le h.len_le
  · rw [h.stop_eq, Nat.mod_add_mod]
    congr 1
    omega

/-- Writing the cells from `stop` on appends what is written, when there is room for it. -/
theorem append (h : RingHolds n start len stop cells queue) (xs : List α) (cells' : Nat → α)
    (hfit : len + xs.length ≤ n)
    (hnew : ∀ j, (hj : j < xs.length) → cells' ((stop + j) % n) = xs[j])
    (hold : ∀ i < n, (∀ j < xs.length, i ≠ (stop + j) % n) → cells' i = cells i) :
    RingHolds n start (len + xs.length) ((stop + xs.length) % n) cells' (queue ++ xs) := by
  have hpos : 0 < n := Nat.zero_lt_of_lt h.start_lt
  have hstop (j : Nat) : (stop + j) % n = (start + (len + j)) % n := by
    rw [h.stop_eq, Nat.mod_add_mod, Nat.add_assoc]
  refine ⟨h.start_lt, hfit, hstop xs.length, ?_⟩
  -- The old window does not meet the cells that are written.
  have hkeep : ringList n start len cells' = queue := by
    rw [← h.contents]
    refine ringList_congr fun i hi => hold _ (Nat.mod_lt _ hpos) fun j hj heq => ?_
    rw [hstop] at heq
    have := ringIndex_inj (by omega) (by omega) heq
    omega
  have hwritten : ringList n (start + len) xs.length cells' = xs := by
    refine List.ext_getElem (by simp) fun j hj hj' => ?_
    rw [← hnew j hj', hstop]
    simp [ringList, Nat.add_assoc]
  rw [ringList_add, hkeep, hwritten]

/-- The first `k` entries are in the first `k` cells, and advancing the start by `k` drops
them. -/
theorem drop (h : RingHolds n start len stop cells queue) {k : Nat} (hk : k ≤ len) :
    ringList n start k cells = queue.take k ∧
      RingHolds n ((start + k) % n) (len - k) stop cells (queue.drop k) := by
  have hsplit : ringList n start k cells ++ ringList n (start + k) (len - k) cells = queue := by
    rw [← ringList_add, Nat.add_sub_cancel' hk]
    exact h.contents
  constructor
  · simp [← hsplit]
  · refine ⟨Nat.mod_lt _ (Nat.zero_lt_of_lt h.start_lt), ?_, ?_, ?_⟩
    · exact Nat.le_trans (Nat.sub_le len k) h.len_le
    · rw [h.stop_eq, Nat.mod_add_mod]
      congr 1
      omega
    · rw [ringList_mod, ← hsplit]
      simp

/-- Cells that agree on the window hold the same queue. -/
theorem congr (h : RingHolds n start len stop cells queue)
    (hcells : ∀ i < len, cells' ((start + i) % n) = cells ((start + i) % n)) :
    RingHolds n start len stop cells' queue :=
  ⟨h.start_lt, h.len_le, h.stop_eq, (ringList_congr hcells).trans h.contents⟩

/-- A cell of the window is an entry of the queue. -/
theorem getElem? (h : RingHolds n start len stop cells queue) {i : Nat} (hi : i < len) :
    queue[i]? = some (cells ((start + i) % n)) := by
  rw [← h.contents]
  exact getElem?_ringList hi

end RingHolds

end Comsg.Lib
