import Mathlib.Algebra.Order.Group.Nat
import Mathlib.Algebra.GroupWithZero.Divisibility

/-!
# `Comsg.Lib.Compression`: lengths that a compressed capability can have

A compressed capability keeps its bounds as a mantissa with an exponent. A length below `2 ^ w` is
exact. A larger one is a multiple of a power of two that grows with it (`granule`).
`representableLength` is what becomes of a length when it is rounded up. It is representable
(`representable_representableLength`), and a representable length stays as it is
(`representableLength_eq`).

A `CapFormat` is what does not depend on the mantissa: every length has an alignment, a power of
two that grows with it. The length is rounded up to a multiple of the alignment, and the rounded
length has the same one. `CapFormat.ofMantissa` is the format with granules.
-/

set_option autoImplicit false

namespace Comsg.Lib

variable {w n : Nat}

/-- The power of two that divides a length of this size. The exponent leaves `w - 3` bits after the
first. -/
def granule (w n : Nat) : Nat := if n < 2 ^ w then 1 else 2 ^ (n.log2 + 3 - w)

/-- A capability can have the length `n`. -/
def Representable (w n : Nat) : Prop := granule w n ∣ n

instance (w n : Nat) : Decidable (Representable w n) := inferInstanceAs (Decidable (_ ∣ _))

/-- The length that `n` is rounded up to. -/
def representableLength (w n : Nat) : Nat := (n + granule w n - 1) / granule w n * granule w n

/-! ### Rounding up to a multiple -/

/-- The least multiple of `a` that is not less than `n`. -/
def alignUp (n a : Nat) : Nat := (n + a - 1) / a * a

section AlignUp
variable {a : Nat}

theorem dvd_alignUp (n a : Nat) : a ∣ alignUp n a := Dvd.intro_left _ rfl

theorem le_alignUp (ha : 0 < a) (n : Nat) : n ≤ alignUp n a := by
  have hlt := Nat.lt_div_mul_add ha (a := n + a - 1)
  unfold alignUp
  omega

theorem alignUp_le {m : Nat} (ha : 0 < a) (hdvd : a ∣ m) (hle : n ≤ m) : alignUp n a ≤ m := by
  obtain ⟨q, rfl⟩ := hdvd
  unfold alignUp
  rw [Nat.mul_comm a q]
  refine Nat.mul_le_mul_right _ ?_
  rw [← Nat.lt_succ_iff, Nat.div_lt_iff_lt_mul ha, Nat.succ_mul, Nat.mul_comm q]
  omega

theorem alignUp_eq (ha : 0 < a) (hdvd : a ∣ n) : alignUp n a = n :=
  Nat.le_antisymm (alignUp_le ha hdvd (Nat.le_refl n)) (le_alignUp ha n)

/-- A multiple that is added is not rounded. -/
theorem alignUp_add {m : Nat} (ha : 0 < a) (hdvd : a ∣ m) :
    alignUp (m + n) a = m + alignUp n a := by
  have hle := le_alignUp ha n
  have hle' := le_alignUp ha (m + n)
  refine Nat.le_antisymm ?_ ?_
  · exact alignUp_le ha (Nat.dvd_add hdvd (dvd_alignUp n a)) (by omega)
  · have hsub : alignUp n a ≤ alignUp (m + n) a - m :=
      alignUp_le ha (Nat.dvd_sub (dvd_alignUp _ a) hdvd) (by omega)
    omega

end AlignUp

/-! ### Granules -/

/-- The granule is a power of two. -/
theorem exists_granule_eq (w n : Nat) : ∃ e, granule w n = 2 ^ e := by
  unfold granule
  split
  · exact ⟨0, rfl⟩
  · exact ⟨_, rfl⟩

theorem granule_pos (w n : Nat) : 0 < granule w n := by
  unfold granule
  split
  · exact Nat.one_pos
  · exact Nat.two_pow_pos _

theorem le_representableLength (w n : Nat) : n ≤ representableLength w n :=
  le_alignUp (granule_pos w n) n

/-- A multiple of the granule that is not less is not less than the length rounded up. -/
theorem representableLength_le {m : Nat} (hdvd : granule w n ∣ m) (hle : n ≤ m) :
    representableLength w n ≤ m :=
  alignUp_le (granule_pos w n) hdvd hle

/-- The granule grows with the length. -/
theorem granule_dvd_granule {m : Nat} (h : n ≤ m) : granule w n ∣ granule w m := by
  by_cases hn : n < 2 ^ w
  · simp [granule, hn]
  · have hm : ¬m < 2 ^ w := by omega
    have hpos := Nat.two_pow_pos w
    have hlog : n.log2 ≤ m.log2 :=
      (Nat.le_log2 (by omega)).mpr (Nat.le_trans (Nat.log2_self_le (by omega)) h)
    rw [granule, granule, if_neg hn, if_neg hm]
    exact Nat.pow_dvd_pow 2 (by omega)

/-- A representable length that is not less is not less than the length rounded up. -/
theorem representableLength_le_of_representable {m : Nat} (hm : Representable w m) (h : n ≤ m) :
    representableLength w n ≤ m :=
  representableLength_le (Nat.dvd_trans (granule_dvd_granule h) hm) h

theorem representableLength_eq (h : Representable w n) : representableLength w n = n :=
  Nat.le_antisymm (representableLength_le h (Nat.le_refl n)) (le_representableLength w n)

/-- A power of two that divides a length divides what it is rounded up to. -/
theorem pow_dvd_representableLength {k : Nat} (h : 2 ^ k ∣ n) :
    2 ^ k ∣ representableLength w n := by
  obtain ⟨e, he⟩ := exists_granule_eq w n
  rcases Nat.le_total e k with hle | hle
  · -- The length is a multiple of the granule, and so it is not rounded.
    have hrep : Representable w n := by
      rw [Representable, he]
      exact Nat.dvd_trans (Nat.pow_dvd_pow 2 hle) h
    rwa [representableLength_eq hrep]
  · refine Nat.dvd_trans (Nat.pow_dvd_pow 2 hle) ?_
    rw [← he]
    exact Dvd.intro_left _ rfl

/-- Rounding up gives a representable length. -/
theorem representable_representableLength (hw : 3 ≤ w) (n : Nat) :
    Representable w (representableLength w n) := by
  have hle := le_representableLength w n
  have hdvd : granule w n ∣ representableLength w n := Dvd.intro_left _ rfl
  by_cases hsmall : n < 2 ^ w
  · have heq : representableLength w n = n :=
      representableLength_eq (by simp [Representable, granule, hsmall])
    simp [heq, Representable, granule, hsmall]
  · have hn : n ≠ 0 := by
      have := Nat.two_pow_pos w
      omega
    have hlog : w ≤ n.log2 := (Nat.le_log2 hn).mpr (Nat.not_lt.mp hsmall)
    have hgranule : granule w n = 2 ^ (n.log2 + 3 - w) := by simp [granule, hsmall]
    -- The next power of two bounds it.
    have htop : representableLength w n ≤ 2 ^ (n.log2 + 1) := by
      refine representableLength_le ?_ (Nat.le_of_lt Nat.lt_log2_self)
      rw [hgranule]
      exact Nat.pow_dvd_pow 2 (by omega)
    have hbig : ¬representableLength w n < 2 ^ w := by omega
    rcases Nat.lt_or_eq_of_le htop with hlt | heq
    · -- It has as many bits as `n`, and so the same granule.
      have hsame : (representableLength w n).log2 = n.log2 :=
        (Nat.log2_eq_iff (by omega)).mpr
          ⟨Nat.le_trans (Nat.log2_self_le hn) hle, hlt⟩
      rw [Representable, granule, if_neg hbig, hsame, ← hgranule]
      exact hdvd
    · rw [Representable, granule, if_neg hbig, heq, Nat.log2_two_pow]
      exact Nat.pow_dvd_pow 2 (by omega)

/-! ### Formats -/

/-- A format of capabilities, by the exponents of its alignments. The rounded length of a length
has the same alignment. -/
structure CapFormat where
  exponent : Nat → Nat
  mono : ∀ n m, n ≤ m → exponent n ≤ exponent m
  exponent_rounded : ∀ n, exponent (alignUp n (2 ^ exponent n)) = exponent n

namespace CapFormat
variable (f : CapFormat)

/-- `CHERI_REPRESENTABLE_ALIGNMENT`. -/
def align (n : Nat) : Nat := 2 ^ f.exponent n

/-- `CHERI_REPRESENTABLE_LENGTH`. -/
def rounded (n : Nat) : Nat := alignUp n (f.align n)

theorem align_pos (n : Nat) : 0 < f.align n := Nat.two_pow_pos _

variable {m : Nat}

theorem align_dvd_align (h : n ≤ m) : f.align n ∣ f.align m := Nat.pow_dvd_pow 2 (f.mono n m h)

theorem align_rounded (n : Nat) : f.align (f.rounded n) = f.align n :=
  congrArg (2 ^ ·) (f.exponent_rounded n)

theorem le_rounded (n : Nat) : n ≤ f.rounded n := le_alignUp (f.align_pos n) n

theorem align_dvd_rounded (n : Nat) : f.align n ∣ f.rounded n := dvd_alignUp n _

/-- A length that is its own rounded length is not less than the rounded length of a shorter one. -/
theorem rounded_le (h : n ≤ m) (hm : f.align m ∣ m) : f.rounded n ≤ m :=
  alignUp_le (f.align_pos n) (Nat.dvd_trans (f.align_dvd_align h) hm) h

theorem rounded_rounded (n : Nat) : f.rounded (f.rounded n) = f.rounded n := by
  rw [rounded, align_rounded, alignUp_eq (f.align_pos n) (f.align_dvd_rounded n)]

theorem rounded_mono (h : n ≤ m) : f.rounded n ≤ f.rounded m := by
  refine f.rounded_le (Nat.le_trans h (f.le_rounded m)) ?_
  rw [align_rounded]
  exact f.align_dvd_rounded m

/-- Lengths between a length and its rounded length are rounded to the same one. -/
theorem rounded_eq_of_le (h : n ≤ m) (hm : m ≤ f.rounded n) : f.rounded m = f.rounded n :=
  Nat.le_antisymm (f.rounded_rounded n ▸ f.rounded_mono hm) (f.rounded_mono h)

end CapFormat

/-- The exponent of the granule of a length that was rounded up. -/
def granuleExponent (w n : Nat) : Nat :=
  if representableLength w n < 2 ^ w then 0 else (representableLength w n).log2 + 3 - w

theorem two_pow_granuleExponent (w n : Nat) :
    2 ^ granuleExponent w n = granule w (representableLength w n) := by
  unfold granuleExponent granule
  split <;> rfl

/-- Rounding up to the granule of the rounded length makes no difference. -/
theorem alignUp_granuleExponent (hw : 3 ≤ w) (n : Nat) :
    alignUp n (2 ^ granuleExponent w n) = representableLength w n := by
  have hpos := granule_pos w (representableLength w n)
  have hle := le_representableLength w n
  rw [two_pow_granuleExponent]
  refine Nat.le_antisymm ?_ ?_
  · exact alignUp_le hpos (representable_representableLength hw n) hle
  · refine representableLength_le ?_ (le_alignUp hpos n)
    exact Nat.dvd_trans (granule_dvd_granule hle) (dvd_alignUp n _)

/-- The format with granules. -/
def CapFormat.ofMantissa (w : Nat) (hw : 3 ≤ w) : CapFormat where
  exponent := granuleExponent w
  mono n m h := by
    have hle : representableLength w n ≤ representableLength w m :=
      representableLength_le_of_representable (representable_representableLength hw m)
        (Nat.le_trans h (le_representableLength w m))
    have hdvd : 2 ^ granuleExponent w n ∣ 2 ^ granuleExponent w m := by
      rw [two_pow_granuleExponent, two_pow_granuleExponent]
      exact granule_dvd_granule hle
    exact (Nat.pow_dvd_pow_iff_le_right (by decide)).mp hdvd
  exponent_rounded n := by
    have hround := representableLength_eq (representable_representableLength hw n)
    rw [alignUp_granuleExponent hw, granuleExponent, hround, ← granuleExponent]

end Comsg.Lib
