import Mathlib.Algebra.Order.Field.Basic
import Mathlib.Algebra.Order.Field.Rat
import Mathlib.Tactic.FieldSimp
import Mathlib.Tactic.Linarith
import TemplateTree.Proofs.Numeral.Rounding

/-! The numbers that doubles stand for, and the double that is nearest to a number. -/
namespace TemplateTree

/-! ### Signs -/

def signed (negative : Bool) (q : ℚ) : ℚ := if negative then -q else q

theorem signed_signed (s : Bool) (q : ℚ) : signed s (signed s q) = q := by
  cases s <;> simp [signed]

theorem signed_not (s : Bool) (q : ℚ) : signed (!s) q = -signed s q := by
  cases s <;> simp [signed]

theorem signed_zero (s : Bool) : signed s 0 = 0 := by
  cases s <;> simp [signed]

theorem signed_inj {s : Bool} {p q : ℚ} : signed s p = signed s q ↔ p = q := by
  cases s <;> simp [signed]

theorem abs_signed (s : Bool) (q : ℚ) : |signed s q| = |q| := by
  cases s <;> simp [signed]

theorem abs_signed_sub (s : Bool) (p q : ℚ) : |signed s p - q| = |p - signed s q| := by
  cases s
  · rfl
  · simp only [signed, if_true, ← neg_add', abs_neg, sub_neg_eq_add]

namespace Binary64

/-! ### Values -/

/-- The eleven bits behind the sign. -/
def exponentBits (x : Binary64) : Nat := x.bits.toNat / 2 ^ 52 % 2 ^ 11

def fractionBits (x : Binary64) : Nat := x.bits.toNat % 2 ^ 52

/-- The number that a finite double stands for. The subnormal ones, which have no bits of exponent,
have no leading one either. -/
def value (x : Binary64) : ℚ :=
  signed x.isNegative <|
    if x.exponentBits = 0 then x.fractionBits / 2 ^ 52 * 2 ^ (-1022 : ℤ)
    else (1 + x.fractionBits / 2 ^ 52) * 2 ^ ((x.exponentBits : ℤ) - 1023)

theorem magnitude_eq (x : Binary64) : x.magnitude = x.exponentBits * 2 ^ 52 + x.fractionBits := by
  have := x.bits.toNat_lt
  unfold magnitude exponentBits fractionBits
  simp only [Nat.pow_eq]
  omega

theorem two_zpow_eq : (2 : ℚ) ^ (-1022 : ℤ) = 2 ^ 52 / unitsOfOne := by
  have some : (unitsOfOne : ℚ) ≠ 0 := Nat.cast_ne_zero.2 unitsOfOne_pos.ne'
  rw [eq_div_iff some, unitsOfOne_eq, Nat.cast_pow, Nat.cast_ofNat, ← zpow_natCast,
    ← zpow_add₀ two_ne_zero]
  rfl

/-- The number that the units of a magnitude make up. -/
def amount (m : Nat) : ℚ := unitsOf m / unitsOfOne

theorem value_eq (x : Binary64) : x.value = signed x.isNegative (amount x.magnitude) := by
  have fraction : x.fractionBits < 2 ^ 52 := Nat.mod_lt _ (by decide)
  rw [value, magnitude_eq, amount]
  congr 1
  split
  next none =>
    rw [none, unitsOf_grid (.inl rfl) (by omega), two_zpow_eq]
    field_simp
    simp
  next some =>
    obtain ⟨s, hs⟩ : ∃ s, x.exponentBits = s + 1 := ⟨x.exponentBits - 1, by omega⟩
    have shift : ((s + 1 : ℕ) : ℤ) - 1023 = s + -1022 := by omega
    rw [hs, Nat.succ_mul, Nat.add_assoc, unitsOf_grid (by omega) (by omega), shift,
      zpow_add₀ two_ne_zero, two_zpow_eq, zpow_natCast]
    simp only [Nat.cast_mul, Nat.cast_add, Nat.cast_pow, Nat.cast_ofNat]
    field_simp

theorem bits_eq (x : Binary64) :
    x.bits.toNat = (if x.isNegative then 2 ^ 63 else 0) + x.magnitude := by
  have := x.bits.toNat_lt
  unfold magnitude isNegative
  simp only [Nat.pow_eq, decide_eq_true_eq]
  split <;> omega

/-- A double has no other parts than its sign and its magnitude. -/
theorem eq_of_magnitude_eq {x y : Binary64} (sign : x.isNegative = y.isNegative)
    (same : x.magnitude = y.magnitude) : x = y := by
  have bits : x.bits.toNat = y.bits.toNat := by rw [bits_eq, bits_eq, sign, same]
  cases x
  cases y
  exact congrArg mk (UInt64.toNat.inj bits)

theorem bits_ofSign (s : Bool) {m : Nat} (h : m < 2 ^ 63) :
    (ofSign s m).bits.toNat = (if s then 2 ^ 63 else 0) + m := by
  unfold ofSign
  simp only [Nat.pow_eq, UInt64.toNat_ofNat']
  cases s <;> simp <;> omega

theorem magnitude_ofSign (s : Bool) {m : Nat} (h : m < 2 ^ 63) : (ofSign s m).magnitude = m := by
  rw [magnitude, bits_ofSign s h, Nat.pow_eq]
  cases s <;> simp <;> omega

theorem isNegative_ofSign (s : Bool) {m : Nat} (h : m < 2 ^ 63) : (ofSign s m).isNegative = s := by
  rw [isNegative, bits_ofSign s h, Nat.pow_eq]
  cases s
  · simp
    omega
  · simp

theorem isFinite_ofSign (s : Bool) {m : Nat} (h : m < 2 ^ 63) :
    (ofSign s m).isFinite = true ↔ m < infinityBits := by
  rw [isFinite, magnitude_ofSign s h, decide_eq_true_iff]

theorem value_ofSign (s : Bool) {m : Nat} (h : m < 2 ^ 63) :
    (ofSign s m).value = signed s (amount m) := by
  rw [value_eq, isNegative_ofSign s h, magnitude_ofSign s h]

theorem infinityBits_lt : infinityBits < 2 ^ 63 := by decide

theorem roundRatio_lt (n d : Nat) : roundRatio n d < 2 ^ 63 := by
  have := infinityBits_lt
  rw [roundRatio_eq]
  omega

/-! ### The nearest double -/

/-- No finite double is nearer to a number than this one, and if another is as near, the last bit of
this one is zero. -/
structure IsNearest (x : Binary64) (q : ℚ) : Prop where
  finite : x.isFinite = true
  le (y : Binary64) (finite : y.isFinite = true) : |x.value - q| ≤ |y.value - q|
  even (y : Binary64) (finite : y.isFinite = true) (differ : y.value ≠ x.value)
    (tie : |y.value - q| = |x.value - q|) : x.fractionBits % 2 = 0

theorem amount_zero : amount 0 = 0 := by
  simp [amount, unitsOf]

theorem amount_nonneg (m : Nat) : 0 ≤ amount m :=
  div_nonneg (Nat.cast_nonneg _) (Nat.cast_nonneg _)

theorem amount_strictMono : StrictMono amount := fun _ _ h =>
  div_lt_div_of_pos_right (Nat.cast_lt.2 (unitsOf_strictMono h)) (Nat.cast_pos.2 unitsOfOne_pos)

theorem magnitude_mod_two (x : Binary64) : x.magnitude % 2 = x.fractionBits % 2 := by
  rw [magnitude_eq]
  omega

section Ratio

variable {n d : Nat}

theorem cast_dist (a b : Nat) : (Nat.dist a b : ℚ) = |(b : ℚ) - a| := by
  rcases Nat.le_total a b with h | h
  · rw [Nat.dist_eq_sub_of_le h, Nat.cast_sub h, abs_of_nonneg (sub_nonneg.2 (Nat.cast_le.2 h))]
  · rw [Nat.dist_eq_sub_of_le_right h, Nat.cast_sub h, abs_sub_comm,
      abs_of_nonneg (sub_nonneg.2 (Nat.cast_le.2 h))]

theorem scale_pos (pos : 0 < d) : (0 : ℚ) < d * unitsOfOne :=
  mul_pos (Nat.cast_pos.2 pos) (Nat.cast_pos.2 unitsOfOne_pos)

theorem abs_amount_sub (pos : 0 < d) (n m : Nat) : |amount m - n / d| =
    Nat.dist (n * unitsOfOne) (unitsOf m * d) / (d * unitsOfOne) := by
  have some := unitsOfOne_pos
  have common : amount m - n / d =
      ((unitsOf m * d : ℕ) - (n * unitsOfOne : ℕ)) / (d * unitsOfOne) := by
    rw [amount]
    push_cast
    field_simp
  rw [common, abs_div, abs_of_pos (scale_pos pos), cast_dist]

/-- No magnitude makes up a number that is nearer, and if another number is as near, the last bit is
zero. -/
theorem amount_nearest (pos : 0 < d) (n m : Nat) :
    |amount (nearest (n * unitsOfOne) d) - n / d| ≤ |amount m - n / d| ∧
      (amount m ≠ amount (nearest (n * unitsOfOne) d) →
        |amount m - n / d| = |amount (nearest (n * unitsOfOne) d) - n / d| →
        nearest (n * unitsOfOne) d % 2 = 0) := by
  obtain ⟨le, even⟩ := nearest_spec pos (n * unitsOfOne) m
  rw [abs_amount_sub pos, abs_amount_sub pos, div_left_inj' (scale_pos pos).ne', Nat.cast_inj]
  refine ⟨div_le_div_of_nonneg_right (Nat.cast_le.2 le) (scale_pos pos).le, fun differ => even ?_⟩
  intro same
  exact differ (congrArg (fun k : Nat => (k : ℚ) / unitsOfOne) same)

/-- Above the last magnitude that is finite would come `2 ^ 1024`, and the middle between them is
rounded up. -/
theorem roundRatio_finite_iff (pos : 0 < d) (n : Nat) :
    roundRatio n d < infinityBits ↔ (n : ℚ) / d < 2 ^ 1024 - 2 ^ 970 := by
  have middle (k : Nat) : (n : ℚ) / d < 2 ^ (54 + k) - 2 ^ k ↔ n < (2 ^ 54 - 1) * (d * 2 ^ k) := by
    have whole : (2 ^ (54 + k) - 2 ^ k : ℚ) = ((2 ^ 54 - 1) * 2 ^ k : ℕ) := by
      push_cast
      ring
    rw [div_lt_iff₀ (Nat.cast_pos.2 pos), whole, ← Nat.cast_mul, Nat.cast_lt]
    ring_nf
  have scale : 2 ^ 2044 = 2 ^ 970 * unitsOfOne := by
    rw [two_pow_mul_unitsOfOne 970 0 2044 rfl, Nat.pow_zero, Nat.one_mul]
  rw [roundRatio_lt_iff pos, scale, ← Nat.mul_assoc d, ← Nat.mul_assoc,
    Nat.mul_lt_mul_right unitsOfOne_pos]
  exact (middle 970).symm

end Ratio

/-- A double is as far from a number as its magnitude is, or farther than the magnitude zero is:
then it stands for a number on the other side of zero. -/
theorem exists_magnitude_near (y : Binary64) (s : Bool) {q : ℚ} (nonneg : 0 ≤ q) :
    ∃ m, |amount m - q| ≤ |y.value - signed s q| ∧
      (|y.value - signed s q| = |amount m - q| → y.value = signed s (amount m)) := by
  rw [value_eq, abs_signed_sub]
  rcases Bool.eq_or_eq_not y.isNegative s with same | other
  · refine ⟨y.magnitude, ?_, fun _ => ?_⟩
    · rw [same, signed_signed]
    · rw [same]
  · have := amount_nonneg y.magnitude
    have across : |amount y.magnitude - signed y.isNegative (signed s q)| =
        amount y.magnitude + q := by
      rw [other, signed_not, signed_signed, sub_neg_eq_add, abs_of_nonneg (by linarith)]
    have zero : |amount 0 - q| = q := by
      rw [amount_zero, zero_sub, abs_neg, abs_of_nonneg nonneg]
    refine ⟨0, by rw [across, zero]; linarith, fun tie => ?_⟩
    have none : amount y.magnitude = 0 := by linarith
    rw [other, signed_not, none, amount_zero, signed_zero, neg_zero]

theorem isNearest_ofSign {n d : Nat} (pos : 0 < d) (s : Bool)
    (finite : roundRatio n d < infinityBits) :
    IsNearest (ofSign s (roundRatio n d)) (signed s (n / d)) := by
  have bound := roundRatio_lt n d
  have rounded : roundRatio n d = nearest (n * unitsOfOne) d := by
    rw [roundRatio_eq] at finite ⊢
    omega
  have nonneg : (0 : ℚ) ≤ n / d := div_nonneg (Nat.cast_nonneg n) (Nat.cast_nonneg d)
  have apart : |(ofSign s (roundRatio n d)).value - signed s (n / d)| =
      |amount (roundRatio n d) - n / d| := by
    rw [value_ofSign s bound, abs_signed_sub, signed_signed]
  refine ⟨(isFinite_ofSign s bound).2 finite, fun y _ => ?_, fun y _ differ tie => ?_⟩
  · obtain ⟨m, near, -⟩ := exists_magnitude_near y s nonneg
    rw [apart, rounded]
    exact (amount_nearest pos n m).1.trans near
  · obtain ⟨m, near, eq⟩ := exists_magnitude_near y s nonneg
    obtain ⟨le, even⟩ := amount_nearest pos n m
    rw [← rounded] at le even
    have same : |y.value - signed s (n / d)| = |amount m - n / d| := by
      rw [tie, apart] at near ⊢
      exact le.antisymm near
    rw [eq same, value_ofSign s bound] at differ
    rw [← magnitude_mod_two, magnitude_ofSign s bound]
    refine even (fun equal => differ (by rw [equal])) ?_
    rw [← same, tie, apart]

theorem abs_sub_lt_of_between {a b c p : ℚ} (first : a < c) (second : c < b)
    (tie : |b - p| = |a - p|) : |c - p| < |a - p| := by
  rcases abs_eq_abs.1 tie with same | opposite
  · linarith
  · have left : 0 ≤ p - a := by linarith
    rw [abs_sub_comm a, abs_of_nonneg left, abs_lt]
    constructor <;> linarith

/-- Of two doubles with one sign that are both nearest to a number, neither comes after the other. A
double between them would be nearer, and without one, one of them has an odd last bit. -/
theorem IsNearest.magnitude_le {x y : Binary64} {q : ℚ} (hx : x.IsNearest q) (hy : y.IsNearest q)
    (sign : x.isNegative = y.isNegative) : y.magnitude ≤ x.magnitude := by
  by_contra after
  rw [Nat.not_le] at after
  have tie : |y.value - q| = |x.value - q| := (hy.le x hx.finite).antisymm (hx.le y hy.finite)
  have differ : y.value ≠ x.value := by
    rw [value_eq, value_eq, sign]
    exact fun same => (amount_strictMono after).ne' (signed_inj.1 same)
  have evenX := hx.even y hy.finite differ tie
  have evenY := hy.even x hx.finite differ.symm tie.symm
  rw [← magnitude_mod_two] at evenX evenY
  have first : amount x.magnitude < amount (x.magnitude + 1) := amount_strictMono (by omega)
  have second : amount (x.magnitude + 1) < amount y.magnitude := amount_strictMono (by omega)
  have finite : y.magnitude < infinityBits := of_decide_eq_true hy.finite
  have bound := infinityBits_lt
  have between := hx.le (ofSign x.isNegative (x.magnitude + 1))
    ((isFinite_ofSign _ (by omega)).2 (by omega))
  rw [value_ofSign _ (by omega), value_eq, abs_signed_sub, abs_signed_sub] at between
  rw [value_eq, value_eq, ← sign, abs_signed_sub, abs_signed_sub] at tie
  exact between.not_gt (abs_sub_lt_of_between first second tie)

/-- There is at most one nearest double of each sign. -/
theorem IsNearest.unique {x y : Binary64} {q : ℚ} (hx : x.IsNearest q) (hy : y.IsNearest q)
    (sign : x.isNegative = y.isNegative) : x = y :=
  eq_of_magnitude_eq sign ((hy.magnitude_le hx sign.symm).antisymm (hx.magnitude_le hy sign))

/-! ### Decimal numbers -/

theorem exists_ratio (digits : Nat) (e : ℤ) : ∃ n d : Nat, 0 < d ∧
    (n : ℚ) / d = digits * 10 ^ e ∧ roundMagnitude digits e = roundRatio n d := by
  cases e with
  | ofNat e => exact ⟨digits * 10 ^ e, 1, Nat.one_pos, by simp, roundMagnitude_ofNat digits e⟩
  | negSucc e =>
    refine ⟨digits, 10 ^ (e + 1), Nat.pow_pos (by decide), ?_, roundMagnitude_negSucc digits e⟩
    rw [zpow_negSucc, div_eq_mul_inv]
    simp

end Binary64

/-- The number that a decimal number stands for. -/
def Decimal.value (x : Decimal) : ℚ := signed x.negative (x.digits * 10 ^ x.exponent)

namespace Binary64

theorem ofDecimal_finite_iff (x : Decimal) :
    (ofDecimal x).isFinite = true ↔ |x.value| < 2 ^ 1024 - 2 ^ 970 := by
  obtain ⟨n, d, pos, ratio, rounds⟩ := exists_ratio x.digits x.exponent
  have nonneg : (0 : ℚ) ≤ n / d := div_nonneg (Nat.cast_nonneg n) (Nat.cast_nonneg d)
  rw [Decimal.value, abs_signed, ← ratio, abs_of_nonneg nonneg, ← roundRatio_finite_iff pos,
    ofDecimal, rounds, isFinite_ofSign _ (roundRatio_lt n d)]

/-- A decimal number in the range of doubles is rounded to the nearest one. Its sign is kept, also
where it is rounded to zero. -/
theorem ofDecimal_nearest {x : Decimal} (finite : (ofDecimal x).isFinite = true) :
    (ofDecimal x).IsNearest x.value ∧ (ofDecimal x).isNegative = x.negative := by
  obtain ⟨n, d, pos, ratio, rounds⟩ := exists_ratio x.digits x.exponent
  rw [ofDecimal, rounds] at finite
  rw [Decimal.value, ← ratio, ofDecimal, rounds]
  exact ⟨isNearest_ofSign pos x.negative ((isFinite_ofSign _ (roundRatio_lt n d)).1 finite),
    isNegative_ofSign _ (roundRatio_lt n d)⟩

end Binary64

end TemplateTree
