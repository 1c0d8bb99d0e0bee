import TemplateTree.Builder
import TemplateTree.Proofs.Block.Faults
import TemplateTree.Proofs.Numeral.Grammar

/-! Number literals. A text is read if it is a numeral and the number that it denotes is in the
range of doubles, and then as the double that is nearest to that number. -/
namespace TemplateTree

/-- The double nearest to the number that a numeral denotes. Its sign is the one that is written,
also if the double is zero. -/
structure Numeral.RoundsTo (n : Numeral) (x : Binary64) : Prop where
  nearest : x.IsNearest n.value
  sign : x.isNegative = n.sign.isNegative

theorem Numeral.RoundsTo.unique {n : Numeral} {x y : Binary64} (hx : n.RoundsTo x)
    (hy : n.RoundsTo y) : x = y :=
  hx.nearest.unique hy.nearest (hx.sign.trans hy.sign.symm)

/-- The number that a numeral denotes is nearer to zero than the middle between the largest double
and `2 ^ 1024`, which would be the next one. -/
def Numeral.InRange (n : Numeral) : Prop := |n.value| < 2 ^ 1024 - 2 ^ 970

namespace Binary64

theorem finite_iff_inRange (n : Numeral) : (ofDecimal n.decimal).isFinite = true ↔ n.InRange := by
  rw [ofDecimal_finite_iff, n.value_decimal, Numeral.InRange]

theorem roundsTo_ofDecimal {n : Numeral} (range : n.InRange) :
    n.RoundsTo (ofDecimal n.decimal) := by
  obtain ⟨nearest, sign⟩ := ofDecimal_nearest ((finite_iff_inRange n).2 range)
  rw [n.value_decimal] at nearest
  exact ⟨nearest, sign⟩

theorem ofText?_eq_some_iff {text : String} {x : Binary64} :
    ofText? text = some x ↔ ∃ n : Numeral, n.text = text ∧ n.InRange ∧ n.RoundsTo x := by
  simp only [ofText?, Option.filter_eq_some_iff, Option.map_eq_some_iff,
    Numeral.ofText?_eq_some_iff]
  constructor
  · rintro ⟨⟨_, ⟨n, written, rfl⟩, rfl⟩, finite⟩
    have range := (finite_iff_inRange n).1 finite
    exact ⟨n, written, range, roundsTo_ofDecimal range⟩
  · rintro ⟨n, written, range, rounds⟩
    obtain rfl := rounds.unique (roundsTo_ofDecimal range)
    exact ⟨⟨n.decimal, ⟨n, written, rfl⟩, rfl⟩, (finite_iff_inRange n).2 range⟩

theorem ofText?_eq_none_iff {text : String} :
    ofText? text = none ↔ ¬ ∃ n : Numeral, n.text = text ∧ n.InRange := by
  rw [Option.eq_none_iff_forall_ne_some]
  constructor
  · rintro unread ⟨n, written, range⟩
    exact unread _ (ofText?_eq_some_iff.2 ⟨n, written, range, roundsTo_ofDecimal range⟩)
  · intro none x read
    obtain ⟨n, written, range, -⟩ := ofText?_eq_some_iff.1 read
    exact none ⟨n, written, range⟩

end Binary64

namespace Builder

theorem number_eq_ok_iff {b : Builder} {text : String} {span : Span} {e : Expr} :
    b.number text span = .ok e ↔
      ∃ x, Binary64.ofText? text = some x ∧ e = .number x text (b.locate span) := by
  unfold number
  cases Binary64.ofText? text <;> simp [eq_comm]

theorem number_eq_error_iff {b : Builder} {text : String} {span : Span} {e : BuildError} :
    b.number text span = .error e ↔
      Binary64.ofText? text = none ∧ e = .invalidNumber text (b.locate span) := by
  unfold number
  cases Binary64.ofText? text <;> simp [eq_comm]

/-- A number literal is a numeral in range. It stands for the nearest double and keeps its text. All
other texts are rejected, among them those without a digit and those with other characters than a
numeral has. -/
theorem number_read (b : Builder) (text : String) (span : Span) :
    (∀ e, b.number text span = .ok e ↔ ∃ (n : Numeral) (x : Binary64),
      n.text = text ∧ n.InRange ∧ n.RoundsTo x ∧ e = .number x text (b.locate span)) ∧
    FailsWith (b.number text span) (fun e =>
      (¬ ∃ n : Numeral, n.text = text ∧ n.InRange) ∧ e = .invalidNumber text (b.locate span)) ∧
    (Numeral.Excluded text →
      b.number text span = .error (.invalidNumber text (b.locate span))) := by
  refine ⟨fun e => ?_, FailsWith.of_error_iff fun e => ?_, fun excluded => ?_⟩
  · rw [number_eq_ok_iff]
    constructor
    · rintro ⟨x, read, rfl⟩
      obtain ⟨n, written, range, rounds⟩ := Binary64.ofText?_eq_some_iff.1 read
      exact ⟨n, x, written, range, rounds, rfl⟩
    · rintro ⟨n, x, written, range, rounds, rfl⟩
      exact ⟨x, Binary64.ofText?_eq_some_iff.2 ⟨n, written, range, rounds⟩, rfl⟩
  · rw [number_eq_error_iff, Binary64.ofText?_eq_none_iff]
  · rw [number_eq_error_iff, Binary64.ofText?_eq_none_iff]
    refine ⟨?_, rfl⟩
    rintro ⟨n, rfl, -⟩
    exact n.not_excluded_text excluded

theorem number_read_infinity :
    let span : Span := ⟨⟨1, 0⟩, ⟨1, 9⟩⟩
    Numeral.Excluded "-Infinity" ∧
      (ofOptions {}).number "-Infinity" span =
        .error (.invalidNumber "-Infinity" (.ofSpan none span)) := by
  intro span
  have excluded : Numeral.Excluded "-Infinity" := .inl (by simp)
  exact ⟨excluded, (number_read (ofOptions {}) "-Infinity" span).2.2 excluded⟩

/-- The border of the range lies between these two. The first is read as the largest double. -/
example : Binary64.ofText? "1.7976931348623158e308" = some ⟨0x7fefffffffffffff⟩ ∧
    Binary64.ofText? "1.7976931348623159e308" = none := by decide +kernel

end Builder

end TemplateTree
