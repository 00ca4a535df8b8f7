import Mathlib.Data.List.TakeDrop

/-!
# `Comsg.Lib.Memcpy`: copies between bounded buffers

A buffer is the list of the bytes that a capability gives access to, so its length is the
length of the capability. `memcpy` faults (`none`) when it would read or write outside the
bounds of its buffers. `exists_memcpy` says when it does not, `length_of_memcpy` that it leaves
the bounds alone, and `getElem?_of_memcpy` which bytes it leaves where.
-/

set_option autoImplicit false

namespace Comsg.Lib

variable {α : Type}

/-- `memcpy(&dst[d], &src[s], n)`. -/
def memcpy (dst : List α) (d : Nat) (src : List α) (s n : Nat) : Option (List α) :=
  if d + n ≤ dst.length ∧ s + n ≤ src.length then
    some (dst.take d ++ (src.drop s).take n ++ dst.drop (d + n))
  else none

/-- A copy keeps the length of its destination. -/
theorem length_of_memcpy {dst src dst' : List α} {d s n : Nat}
    (h : memcpy dst d src s n = some dst') : dst'.length = dst.length := by
  unfold memcpy at h
  split at h
  · cases h
    simp only [List.length_append, List.length_take, List.length_drop]
    omega
  · cases h

/-- The bytes after a copy. -/
theorem getElem?_of_memcpy {dst src dst' : List α} {d s n : Nat}
    (h : memcpy dst d src s n = some dst') (i : Nat) :
    dst'[i]? = if d ≤ i ∧ i < d + n then src[s + (i - d)]? else dst[i]? := by
  unfold memcpy at h
  split at h
  · rename_i hbounds
    cases h
    by_cases hlow : i < d
    · have hout : ¬(d ≤ i ∧ i < d + n) := by omega
      rw [if_neg hout, List.append_assoc, List.getElem?_append_left (by simp; omega)]
      exact List.getElem?_take_of_lt hlow
    · by_cases hin : i < d + n
      · rw [if_pos ⟨by omega, hin⟩, List.getElem?_append_left (by simp; omega),
          List.getElem?_append_right (by simp; omega), List.getElem?_take_of_lt (by simp; omega),
          List.getElem?_drop]
        congr 1
        simp
        omega
      · have hout : ¬(d ≤ i ∧ i < d + n) := by omega
        rw [if_neg hout, List.getElem?_append_right (by simp; omega), List.getElem?_drop]
        congr 1
        simp
        omega
  · cases h

/-- A copy inside the bounds does not fault. -/
theorem exists_memcpy {dst src : List α} {d s n : Nat} (hd : d + n ≤ dst.length)
    (hs : s + n ≤ src.length) :
    ∃ dst', memcpy dst d src s n = some dst' ∧ dst'.length = dst.length := by
  have h : memcpy dst d src s n = some _ := if_pos ⟨hd, hs⟩
  exact ⟨_, h, length_of_memcpy h⟩

end Comsg.Lib
