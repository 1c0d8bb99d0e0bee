import Mathlib.Data.Nat.Dist
import Mathlib.Tactic.Ring
import TemplateTree.Numeral

/-! Rounding to magnitudes, in whole numbers. A number of units `n / d` is compared with the units
of a magnitude by cross-multiplication, so that all distances are whole numbers. Between two powers
of two the magnitudes are the multiples of a power of two, and every magnitude beyond is a multiple
of it as well, so the nearest multiple is the nearest magnitude. -/
namespace TemplateTree

/-! ### The nearest multiple -/

section Multiples

variable {n d : Nat}

theorem two_mul_dist_divHalfEven_le (pos : 0 < d) (n : Nat) :
    2 * Nat.dist n (divHalfEven n d * d) ≤ d := by
  have whole := Nat.div_add_mod' n d
  have rest := Nat.mod_lt n pos
  have next := Nat.succ_mul (n / d) d
  unfold divHalfEven Nat.dist
  grind

theorem even_divHalfEven (pos : 0 < d) (tie : 2 * Nat.dist n (divHalfEven n d * d) = d) :
    divHalfEven n d % 2 = 0 := by
  have whole := Nat.div_add_mod' n d
  have rest := Nat.mod_lt n pos
  have next := Nat.succ_mul (n / d) d
  unfold divHalfEven Nat.dist at *
  grind

theorem le_dist_divHalfEven {j : Nat} (differ : j ≠ divHalfEven n d) :
    d ≤ Nat.dist n (divHalfEven n d * d) + Nat.dist n (j * d) := by
  have apart : d ≤ Nat.dist (divHalfEven n d * d) (j * d) := by
    rw [Nat.dist_mul_right]
    exact Nat.le_mul_of_pos_left d (Nat.dist_pos_of_ne differ.symm)
  have around := Nat.dist.triangle_inequality (divHalfEven n d * d) n (j * d)
  rw [Nat.dist_comm (divHalfEven n d * d) n] at around
  omega

/-- No multiple is nearer than the one that is rounded to. -/
theorem dist_divHalfEven_le (pos : 0 < d) (n j : Nat) :
    Nat.dist n (divHalfEven n d * d) ≤ Nat.dist n (j * d) := by
  by_cases same : j = divHalfEven n d
  · rw [same]
  · have near := two_mul_dist_divHalfEven_le pos n
    have far := le_dist_divHalfEven same
    omega

/-- If another is as near, the one that is rounded to is an even multiple. -/
theorem even_divHalfEven_of_dist_eq (pos : 0 < d) {j : Nat} (differ : j ≠ divHalfEven n d)
    (tie : Nat.dist n (j * d) = Nat.dist n (divHalfEven n d * d)) : divHalfEven n d % 2 = 0 := by
  have near := two_mul_dist_divHalfEven_le pos n
  have far := le_dist_divHalfEven differ
  exact even_divHalfEven pos (by omega)

theorem divHalfEven_le {k : Nat} (h : n < k * d) : divHalfEven n d ≤ k := by
  have floor : n / d < k := Nat.div_lt_of_lt_mul (by rwa [Nat.mul_comm])
  unfold divHalfEven
  grind

theorem le_divHalfEven {k : Nat} (pos : 0 < d) (h : k * d ≤ n) : k ≤ divHalfEven n d := by
  have floor : k ≤ n / d := (Nat.le_div_iff_mul_le pos).2 h
  unfold divHalfEven
  grind

end Multiples

namespace Binary64

/-! ### The units of a magnitude -/

theorem unitsOf_eq (m : Nat) :
    unitsOf m = (m - (m / 2 ^ 52 - 1) * 2 ^ 52) * 2 ^ (m / 2 ^ 52 - 1) := by
  simp only [unitsOf, Nat.pow_eq]

/-- The magnitudes from a power of two to the next are multiples of one number of units. -/
theorem unitsOf_grid {s k : Nat} (normal : s = 0 ∨ 2 ^ 52 ≤ k) (le : k ≤ 2 ^ 53) :
    unitsOf (s * 2 ^ 52 + k) = k * 2 ^ s := by
  rw [unitsOf_eq]
  rcases Nat.lt_or_ge k (2 ^ 52) with small | large
  · obtain rfl : s = 0 := by omega
    have shift : (0 * 2 ^ 52 + k) / 2 ^ 52 - 1 = 0 := by omega
    rw [shift]
    simp
  rcases Nat.lt_or_eq_of_le le with below | top
  · have shift : (s * 2 ^ 52 + k) / 2 ^ 52 - 1 = s := by omega
    rw [shift, Nat.add_sub_cancel_left]
  · have shift : (s * 2 ^ 52 + k) / 2 ^ 52 - 1 = s + 1 := by omega
    have carry : s * 2 ^ 52 + k - (s + 1) * 2 ^ 52 = 2 ^ 52 := by omega
    rw [shift, carry, top]
    ring

/-- Behind a power of two all magnitudes are multiples of what they are between it and the next. -/
theorem dvd_unitsOf {s m : Nat} (h : s = 0 ∨ (s + 1) * 2 ^ 52 ≤ m) : 2 ^ s ∣ unitsOf m := by
  rw [unitsOf_eq]
  have shift : s ≤ m / 2 ^ 52 - 1 := by omega
  exact Dvd.dvd.mul_left (pow_dvd_pow 2 shift) _

theorem unitsOf_lt {s m : Nat} (some : 0 < s) (h : m < (s + 1) * 2 ^ 52) :
    unitsOf m < 2 ^ 52 * 2 ^ s := by
  rw [unitsOf_eq]
  have multiple : m - (m / 2 ^ 52 - 1) * 2 ^ 52 < 2 ^ 53 := by omega
  have shift : m / 2 ^ 52 - 1 ≤ s - 1 := by omega
  calc (m - (m / 2 ^ 52 - 1) * 2 ^ 52) * 2 ^ (m / 2 ^ 52 - 1)
      < 2 ^ 53 * 2 ^ (m / 2 ^ 52 - 1) := Nat.mul_lt_mul_of_pos_right multiple (Nat.two_pow_pos _)
    _ ≤ 2 ^ 53 * 2 ^ (s - 1) :=
      Nat.mul_le_mul_left _ (Nat.pow_le_pow_right (by decide) shift)
    _ = 2 ^ 52 * 2 ^ s := by
      obtain ⟨t, rfl⟩ : ∃ t, s = t + 1 := ⟨s - 1, by omega⟩
      rw [Nat.add_sub_cancel]
      ring

/-- The units of each magnitude are more than those of the one before it. -/
theorem unitsOf_lt_succ (m : Nat) : unitsOf m < unitsOf (m + 1) := by
  obtain ⟨s, k, rfl, normal, below⟩ :
      ∃ s k, m = s * 2 ^ 52 + k ∧ (s = 0 ∨ 2 ^ 52 ≤ k) ∧ k < 2 ^ 53 :=
    ⟨m / 2 ^ 52 - 1, m - (m / 2 ^ 52 - 1) * 2 ^ 52, by omega, by omega, by omega⟩
  rw [Nat.add_assoc, unitsOf_grid normal below.le, unitsOf_grid (by omega) below, Nat.succ_mul]
  exact Nat.lt_add_of_pos_right (Nat.two_pow_pos s)

theorem unitsOf_strictMono : StrictMono unitsOf := strictMono_nat_of_lt_succ unitsOf_lt_succ

/-! ### The nearest magnitude -/

/-- The magnitude nearest to the number of units `n / d`, as if there were no largest one. -/
def nearest (n d : Nat) : Nat :=
  let shift := (n / d).log2 - 52
  shift * 2 ^ 52 + divHalfEven n (d * 2 ^ shift)

/-- The units of one. -/
@[irreducible]
def unitsOfOne : Nat := Nat.pow 2 1074

theorem unitsOfOne_eq : unitsOfOne = 2 ^ 1074 := by
  unfold unitsOfOne
  -- Any exponent will do, and the power of this one is not to be computed.
  generalize 1074 = k
  rfl

theorem unitsOfOne_pos : 0 < unitsOfOne := by
  rw [unitsOfOne_eq]
  generalize 1074 = k
  exact Nat.two_pow_pos k

theorem two_pow_mul_unitsOfOne (k a b : Nat) (h : k + 1074 = a + b) :
    2 ^ k * unitsOfOne = 2 ^ a * 2 ^ b := by
  rw [unitsOfOne_eq, ← pow_add, ← pow_add, h]

theorem roundRatio_eq (n d : Nat) :
    roundRatio n d = min infinityBits (nearest (n * unitsOfOne) d) := by
  unfold roundRatio nearest unitsOfOne
  generalize 1074 = k
  rfl

/-- A number and the power of two that it lies at. The multiple of `2 ^ shift` that is rounded to
has at most fifty-three bits, and unless the number is small, it has all of them. -/
structure Octave (n d shift : Nat) : Prop where
  below : n < 2 ^ 53 * (d * 2 ^ shift)
  above : shift = 0 ∨ 2 ^ 52 * (d * 2 ^ shift) ≤ n

theorem octave {d : Nat} (pos : 0 < d) (n : Nat) : Octave n d ((n / d).log2 - 52) := by
  have large : n / d < 2 ^ ((n / d).log2 + 1) := Nat.lt_log2_self
  constructor
  · have bound : 2 ^ ((n / d).log2 + 1) ≤ 2 ^ 53 * 2 ^ ((n / d).log2 - 52) := by
      rw [← pow_add]
      exact Nat.pow_le_pow_right (by decide) (by omega)
    have := (Nat.div_lt_iff_lt_mul pos).1 (large.trans_le bound)
    calc n < 2 ^ 53 * 2 ^ ((n / d).log2 - 52) * d := this
      _ = 2 ^ 53 * (d * 2 ^ ((n / d).log2 - 52)) := by ring
  · by_cases small : (n / d).log2 - 52 = 0
    · exact .inl small
    · right
      have some : n / d ≠ 0 := by
        intro zero
        simp [zero] at small
      have bound : 2 ^ 52 * 2 ^ ((n / d).log2 - 52) ≤ n / d := by
        rw [← pow_add, Nat.add_sub_cancel' (by omega)]
        exact Nat.log2_self_le some
      have := (Nat.le_div_iff_mul_le pos).1 bound
      calc 2 ^ 52 * (d * 2 ^ ((n / d).log2 - 52)) = 2 ^ 52 * 2 ^ ((n / d).log2 - 52) * d := by ring
        _ ≤ n := this

variable {n d : Nat}

theorem exists_nearest (pos : 0 < d) (n : Nat) : ∃ s k, nearest n d = s * 2 ^ 52 + k ∧
    k = divHalfEven n (d * 2 ^ s) ∧ Octave n d s ∧ (s = 0 ∨ 2 ^ 52 ≤ k) ∧ k ≤ 2 ^ 53 := by
  have oct := octave pos n
  have scale : 0 < d * 2 ^ ((n / d).log2 - 52) := Nat.mul_pos pos (Nat.two_pow_pos _)
  refine ⟨_, _, rfl, rfl, oct, ?_, divHalfEven_le oct.below⟩
  exact oct.above.imp id fun above => le_divHalfEven scale above

/-- No magnitude is nearer to `n / d` units, and if one with other units is as near, the last bit is
zero. -/
theorem nearest_spec (pos : 0 < d) (n m : Nat) :
    Nat.dist n (unitsOf (nearest n d) * d) ≤ Nat.dist n (unitsOf m * d) ∧
      (unitsOf m ≠ unitsOf (nearest n d) →
        Nat.dist n (unitsOf m * d) = Nat.dist n (unitsOf (nearest n d) * d) →
        nearest n d % 2 = 0) := by
  obtain ⟨s, k, read, rounds, oct, normal, le⟩ := exists_nearest pos n
  have scale : 0 < d * 2 ^ s := Nat.mul_pos pos (Nat.two_pow_pos s)
  have units (j : Nat) : j * 2 ^ s * d = j * (d * 2 ^ s) := by ring
  have parity : nearest n d % 2 = k % 2 := by omega
  rw [parity, read, unitsOf_grid normal le, units]
  by_cases coarse : s = 0 ∨ (s + 1) * 2 ^ 52 ≤ m
  · obtain ⟨j, hj⟩ := dvd_unitsOf coarse
    rw [hj, Nat.mul_comm _ j, units, rounds]
    refine ⟨dist_divHalfEven_le scale n j, fun differ tie => ?_⟩
    refine even_divHalfEven_of_dist_eq scale ?_ tie
    rintro rfl
    exact differ rfl
  · -- A finer magnitude lies below the first multiple, and the number does not.
    have above := oct.above.resolve_left (by omega)
    have finer : unitsOf m * d < 2 ^ 52 * (d * 2 ^ s) := by
      rw [← units]
      exact Nat.mul_lt_mul_of_pos_right (unitsOf_lt (by omega) (by omega)) pos
    have first := dist_divHalfEven_le scale n (2 ^ 52)
    rw [← rounds] at first
    have farther : Nat.dist n (k * (d * 2 ^ s)) < Nat.dist n (unitsOf m * d) := by
      unfold Nat.dist at *
      omega
    exact ⟨farther.le, fun _ tie => absurd tie farther.ne'⟩

/-- A number is rounded to below a power of two if it is below the middle between it and the last
magnitude before it. That is an odd multiple, so the middle is rounded up. -/
theorem nearest_lt_iff (pos : 0 < d) (n t : Nat) :
    nearest n d < (t + 3) * 2 ^ 52 ↔ n < (2 ^ 54 - 1) * (d * 2 ^ t) := by
  obtain ⟨s, k, read, rounds, oct, normal, le⟩ := exists_nearest pos n
  have below := oct.below
  have above := oct.above
  rw [read]
  rcases Nat.lt_trichotomy s (t + 1) with small | rfl | large
  · have finer : d * 2 ^ s ≤ d * 2 ^ t :=
      Nat.mul_le_mul_left d (Nat.pow_le_pow_right (by decide) (by omega))
    constructor <;> intro <;> omega
  · have half : d * 2 ^ (t + 1) = 2 * (d * 2 ^ t) := by ring
    have scale : 0 < d * 2 ^ (t + 1) := Nat.mul_pos pos (Nat.two_pow_pos _)
    have near := two_mul_dist_divHalfEven_le scale n
    have even := @even_divHalfEven n _ scale
    rw [← rounds, half] at near even
    unfold Nat.dist at near even
    have unit : 0 < d * 2 ^ t := Nat.mul_pos pos (Nat.two_pow_pos t)
    obtain top | last | before : k = 2 ^ 53 ∨ k = 2 ^ 53 - 1 ∨ k ≤ 2 ^ 53 - 2 := by omega
    · rw [top] at near ⊢
      constructor <;> intro <;> omega
    · -- The middle is as near to the power of two, which is the even multiple.
      rw [last] at near even ⊢
      constructor <;> intro <;> omega
    · have far : k * (2 * (d * 2 ^ t)) ≤ (2 ^ 53 - 2) * (2 * (d * 2 ^ t)) :=
        Nat.mul_le_mul_right _ before
      constructor <;> intro <;> omega
  · have coarser : 4 * (d * 2 ^ t) ≤ d * 2 ^ s := by
      have : d * 2 ^ (t + 2) ≤ d * 2 ^ s :=
        Nat.mul_le_mul_left d (Nat.pow_le_pow_right (by decide) large)
      calc 4 * (d * 2 ^ t) = d * 2 ^ (t + 2) := by ring
        _ ≤ d * 2 ^ s := this
    constructor <;> intro <;> omega

/-! ### Powers of ten -/

theorem roundRatio_lt_iff (pos : 0 < d) (n : Nat) : roundRatio n d < infinityBits ↔
    n * unitsOfOne < (2 ^ 54 - 1) * (d * 2 ^ 2044) := by
  have top : infinityBits = (2044 + 3) * 2 ^ 52 := rfl
  rw [roundRatio_eq, ← nearest_lt_iff pos, ← top]
  omega

theorem roundRatio_eq_zero (small : 2 * (n * unitsOfOne) < d) : roundRatio n d = 0 := by
  have floor : n * unitsOfOne / d = 0 := Nat.div_eq_of_lt (by omega)
  have rest : n * unitsOfOne % d = n * unitsOfOne := Nat.mod_eq_of_lt (by omega)
  simp [roundRatio_eq, nearest, divHalfEven, floor, rest, small]

theorem two_pow_le_mul_ten_pow {digits e k : Nat} (some : digits ≠ 0)
    (h : k ≤ digits.log2 + 3 * e) : 2 ^ k ≤ digits * 10 ^ e :=
  calc 2 ^ k ≤ 2 ^ (digits.log2 + 3 * e) := Nat.pow_le_pow_right (by decide) h
    _ = 2 ^ digits.log2 * 8 ^ e := by rw [pow_add, pow_mul]; rfl
    _ ≤ digits * 10 ^ e :=
      Nat.mul_le_mul (Nat.log2_self_le some) (Nat.pow_le_pow_left (by decide) e)

theorem roundMagnitude_ofNat (digits e : Nat) :
    roundMagnitude digits (.ofNat e) = roundRatio (digits * 10 ^ e) 1 := by
  simp only [roundMagnitude, Nat.pow_eq]
  split
  next none => rw [none, roundRatio_eq_zero (by simp)]
  split
  next some large =>
    have beyond : ¬ roundRatio (digits * 10 ^ e) 1 < infinityBits := by
      rw [roundRatio_lt_iff Nat.one_pos, Nat.not_lt, Nat.one_mul]
      calc (2 ^ 54 - 1) * 2 ^ 2044 ≤ 2 ^ 54 * 2 ^ 2044 := Nat.mul_le_mul_right _ (by decide)
        _ = 2 ^ 1024 * unitsOfOne := by rw [two_pow_mul_unitsOfOne 1024 54 2044 rfl]
        _ ≤ digits * 10 ^ e * unitsOfOne :=
          Nat.mul_le_mul_right _ (two_pow_le_mul_ten_pow some large)
    rw [roundRatio_eq] at beyond ⊢
    omega
  next => rfl

theorem roundMagnitude_negSucc (digits e : Nat) :
    roundMagnitude digits (.negSucc e) = roundRatio digits (10 ^ (e + 1)) := by
  simp only [roundMagnitude, Nat.pow_eq]
  split
  next small =>
    have below : digits < 2 ^ (digits.log2 + 1) := Nat.lt_log2_self
    refine (roundRatio_eq_zero ?_).symm
    calc 2 * (digits * unitsOfOne) < 2 * (2 ^ (digits.log2 + 1) * unitsOfOne) :=
          Nat.mul_lt_mul_of_pos_left (Nat.mul_lt_mul_of_pos_right below unitsOfOne_pos) (by decide)
      _ = 2 ^ (digits.log2 + 1076) := by
        rw [two_pow_mul_unitsOfOne _ _ _ (Nat.add_assoc _ 1 1074), ← pow_add, ← pow_succ']
      _ ≤ 2 ^ (3 * (e + 1)) := Nat.pow_le_pow_right (by decide) small
      _ ≤ 10 ^ (e + 1) := by
        rw [pow_mul]
        exact Nat.pow_le_pow_left (by decide) (e + 1)
  next => rfl

end Binary64

end TemplateTree
