import Mathlib.Data.List.TakeWhile

/-!
# `Comsg.Lib.Cstring`: bounded strings in byte arrays

A string in an array of `n` bytes ends at its first NUL or at the end of the array
(`cstr`). `strncmpEq` and `strncpy` are the C functions on such arrays. A byte behind the end
of a list reads as NUL. `strncmpEq_iff` says that two arrays compare as equal just when they
hold the same string, and `cstr_strncpy` that a copy holds the string of its source.
-/

set_option autoImplicit false

namespace Comsg.Lib

/-- The string in an array of `n` bytes. -/
def cstr (n : Nat) (buf : List UInt8) : List UInt8 := (buf.take n).takeWhile (· ≠ 0)

/-- `strncmp(a, b, n) == 0`. -/
def strncmpEq : Nat → List UInt8 → List UInt8 → Bool
  | 0, _, _ => true
  | n + 1, a, b =>
    if a.headD 0 ≠ b.headD 0 then false
    else if a.headD 0 = 0 then true
    else strncmpEq n a.tail b.tail

/-- The array that `strncpy` leaves in a destination of `n` bytes: the string, padded with
NULs. -/
def strncpy (n : Nat) (src : List UInt8) : List UInt8 :=
  cstr n src ++ List.replicate (n - (cstr n src).length) 0

@[simp] theorem cstr_nil (n : Nat) : cstr n [] = [] := by
  simp [cstr]

theorem cstr_cons (n : Nat) (c : UInt8) (buf : List UInt8) :
    cstr (n + 1) (c :: buf) = if c = 0 then [] else c :: cstr n buf := by
  by_cases hc : c = 0 <;> simp [cstr, hc]

theorem length_cstr_le (n : Nat) (buf : List UInt8) : (cstr n buf).length ≤ n := by
  have htake : (cstr n buf).length ≤ (buf.take n).length :=
    (List.takeWhile_prefix _).length_le
  rw [List.length_take] at htake
  omega

/-- Arrays compare as equal when they hold the same string. -/
theorem strncmpEq_iff (n : Nat) (a b : List UInt8) :
    strncmpEq n a b = true ↔ cstr n a = cstr n b := by
  induction n generalizing a b with
  | zero => simp [strncmpEq, cstr]
  | succ n ih =>
    cases a with
    | nil =>
      cases b with
      | nil => simp [strncmpEq]
      | cons d b =>
        by_cases hd : d = 0
        · simp [strncmpEq, cstr_cons, hd]
        · simp [strncmpEq, cstr_cons, hd, Ne.symm hd]
    | cons c a =>
      cases b with
      | nil => by_cases hc : c = 0 <;> simp [strncmpEq, cstr_cons, hc]
      | cons d b =>
        by_cases hcd : c = d
        · subst hcd
          by_cases hc : c = 0 <;> simp [strncmpEq, cstr_cons, hc, ih]
        · by_cases hc : c = 0
          · subst hc
            simp [strncmpEq, cstr_cons, hcd, Ne.symm hcd]
          · by_cases hd : d = 0 <;> simp [strncmpEq, cstr_cons, hcd, hc, hd]

/-- There is no NUL in a string. -/
theorem ne_zero_of_mem_cstr {n : Nat} {buf : List UInt8} {c : UInt8} (h : c ∈ cstr n buf) :
    c ≠ 0 := by
  simpa using List.mem_takeWhile_imp h

/-- The copy holds the string of its source. -/
@[simp] theorem cstr_strncpy (n : Nat) (src : List UInt8) :
    cstr n (strncpy n src) = cstr n src := by
  have hlen : (strncpy n src).length = n := by
    have := length_cstr_le n src
    simp only [strncpy, List.length_append, List.length_replicate]
    omega
  have hzeros : (List.replicate (n - (cstr n src).length) (0 : UInt8)).takeWhile (· ≠ 0) = [] := by
    cases n - (cstr n src).length <;> simp [List.replicate_succ]
  calc cstr n (strncpy n src)
      = (strncpy n src).takeWhile (· ≠ 0) := by rw [cstr, List.take_of_length_le hlen.le]
    _ = cstr n src ++ (List.replicate (n - (cstr n src).length) (0 : UInt8)).takeWhile (· ≠ 0) :=
        List.takeWhile_append_of_pos fun c hc => by simpa using ne_zero_of_mem_cstr hc
    _ = cstr n src := by rw [hzeros, List.append_nil]

end Comsg.Lib
