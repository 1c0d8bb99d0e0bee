import Mathlib.Data.List.Induction
import Mathlib.Data.Nat.Digits.Defs
import Mathlib.Data.Set.List
import TemplateTree.Proofs.Numeral.Nearest

/-! Decimal numerals as they are written, and the numbers that they denote. These texts are read as
these numbers, and no other text is read. -/
namespace TemplateTree

namespace Numeral

/-- A sign in front of a number, or none. -/
inductive Sign
  | absent
  | plus
  | minus

def Sign.text : Sign → List Char
  | absent => []
  | plus => ['+']
  | minus => ['-']

def Sign.isNegative : Sign → Bool
  | minus => true
  | _ => false

def digitsText (ds : List (Fin 10)) : List Char := ds.map fun d => d.val.digitChar

/-- The number that digits denote. The last one counts ones. -/
def number (ds : List (Fin 10)) : Nat := Nat.ofDigits 10 (ds.map Fin.val).reverse

structure Exponent where
  capital : Bool
  sign : Sign
  digits : List (Fin 10)
  hasDigit : digits ≠ []

def Exponent.text (e : Exponent) : List Char :=
  (if e.capital then 'E' else 'e') :: (e.sign.text ++ digitsText e.digits)

def Exponent.value (e : Exponent) : ℤ :=
  if e.sign.isNegative then -number e.digits else number e.digits

end Numeral

/-- An optional sign, digits with an optional point and at least one digit on one side of it, and an
optional exponent. -/
structure Numeral where
  sign : Numeral.Sign
  whole : List (Fin 10)
  fraction : Option (List (Fin 10))
  exponent : Option Numeral.Exponent
  hasDigit : whole ≠ [] ∨ fraction.getD [] ≠ []

namespace Numeral

def fractionText : Option (List (Fin 10)) → List Char
  | none => []
  | some ds => '.' :: digitsText ds

def exponentText : Option Exponent → List Char
  | none => []
  | some e => e.text

def text (n : Numeral) : String :=
  .ofList (n.sign.text ++
    (digitsText n.whole ++ (fractionText n.fraction ++ exponentText n.exponent)))

theorem toList_text (n : Numeral) : n.text.toList = n.sign.text ++
    (digitsText n.whole ++ (fractionText n.fraction ++ exponentText n.exponent)) :=
  String.toList_ofList

/-- The digits behind the point. -/
def behind (n : Numeral) : List (Fin 10) := n.fraction.getD []

/-- The exponent of the power of ten behind the digits. -/
def power (n : Numeral) : ℤ := n.exponent.elim 0 Exponent.value

/-- The exact number that a numeral denotes. -/
def value (n : Numeral) : ℚ :=
  signed n.sign.isNegative
    ((number n.whole + number n.behind / 10 ^ n.behind.length) * 10 ^ n.power)

/-- The same number with one whole number for the digits on both sides of the point. -/
def decimal (n : Numeral) : Decimal :=
  ⟨n.sign.isNegative, number (n.whole ++ n.behind), n.power - n.behind.length⟩

theorem number_append (w f : List (Fin 10)) :
    number (w ++ f) = number w * 10 ^ f.length + number f := by
  simp only [number, List.map_append, List.reverse_append, Nat.ofDigits_append, List.length_reverse,
    List.length_map]
  ring

theorem value_decimal (n : Numeral) : n.decimal.value = n.value := by
  have ten : (10 : ℚ) ≠ 0 := by norm_num
  rw [Decimal.value, value, decimal, number_append, zpow_sub₀ ten, zpow_natCast]
  push_cast
  congr 1
  field_simp

/-! ### Digits -/

theorem isDigit_iff {c : Char} : c.isDigit = true ↔ ∃ d : Fin 10, d.val.digitChar = c := by
  constructor
  · intro isDigit
    have range : 48 ≤ c.toNat ∧ c.toNat ≤ 57 := Char.isDigit_iff_toNat.1 isDigit
    have small : c.toNat - 48 < 10 := by omega
    refine ⟨⟨c.toNat - 48, small⟩, Char.toNat_inj.1 ?_⟩
    rw [Nat.toNat_digitChar_of_lt_ten small]
    omega
  · rintro ⟨d, rfl⟩
    rw [Nat.isDigit_digitChar]
    exact decide_eq_true d.isLt

theorem isDigit_of_mem {ds : List (Fin 10)} {c : Char} (h : c ∈ digitsText ds) :
    c.isDigit = true := by
  obtain ⟨d, -, rfl⟩ := List.mem_map.1 h
  exact isDigit_iff.2 ⟨d, rfl⟩

theorem exists_digits {cs : List Char} (h : ∀ c ∈ cs, c.isDigit = true) :
    ∃ ds, digitsText ds = cs := by
  have : cs ∈ Set.range (List.map fun d : Fin 10 => d.val.digitChar) := by
    rw [Set.range_list_map]
    exact fun c mem => isDigit_iff.1 (h c mem)
  exact this

theorem digitsText_eq_nil_iff {ds : List (Fin 10)} : digitsText ds = [] ↔ ds = [] :=
  List.map_eq_nil_iff

theorem digitsValue_digitsText (ds : List (Fin 10)) :
    Decimal.digitsValue (digitsText ds) = number ds := by
  induction ds using List.reverseRecOn with
  | nil => rfl
  | append_singleton ds d ih =>
    have last : d.val.digitChar.toNat - '0'.toNat = d := Nat.toNat_digitChar_sub_48_of_lt_ten d.isLt
    rw [number_append, ← ih, digitsText, List.map_append, Decimal.digitsValue, List.foldl_append]
    simp only [List.map_cons, List.map_nil, List.foldl_cons, List.foldl_nil, last]
    simp [number, digitsText, Decimal.digitsValue, Nat.mul_comm]

theorem isDigit_or_mem_head? {ds : List (Fin 10)} {rest : List Char} {c : Char}
    (h : c ∈ (digitsText ds ++ rest).head?) : c.isDigit = true ∨ c ∈ rest.head? := by
  cases ds with
  | nil => exact .inr h
  | cons d ds => exact .inl (isDigit_iff.2 ⟨d, Option.some.inj h⟩)

/-- Digits end where another character follows or nothing does. -/
theorem span_digitsText (ds : List (Fin 10)) {rest : List Char}
    (ends : ∀ c ∈ rest.head?, c.isDigit = false) :
    (digitsText ds ++ rest).takeWhile Char.isDigit = digitsText ds ∧
      (digitsText ds ++ rest).dropWhile Char.isDigit = rest := by
  rw [List.takeWhile_append_of_pos fun c => isDigit_of_mem,
    List.dropWhile_append_of_pos fun c => isDigit_of_mem]
  cases rest with
  | nil => simp
  | cons c rest => simp [ends c rfl]

theorem exists_span (cs : List Char) : ∃ ds, cs.takeWhile Char.isDigit = digitsText ds ∧
    cs = digitsText ds ++ cs.dropWhile Char.isDigit := by
  obtain ⟨ds, read⟩ := exists_digits (List.all_eq_true.1 (List.all_takeWhile (l := cs)))
  exact ⟨ds, read.symm, by rw [read, List.takeWhile_append_dropWhile]⟩

/-! ### Signs, fractions and exponents -/

theorem takeSign_text (s : Sign) {rest : List Char}
    (unsigned : ∀ c ∈ rest.head?, c ≠ '-' ∧ c ≠ '+') :
    Decimal.takeSign (s.text ++ rest) = (s.isNegative, rest) := by
  cases s with
  | absent =>
    show Decimal.takeSign rest = (false, rest)
    unfold Decimal.takeSign
    split <;> simp_all
  | plus => rfl
  | minus => rfl

theorem exists_sign (cs : List Char) : ∃ (s : Sign) (rest : List Char),
    Decimal.takeSign cs = (s.isNegative, rest) ∧ s.text ++ rest = cs := by
  unfold Decimal.takeSign
  split
  next rest => exact ⟨.minus, rest, rfl, rfl⟩
  next rest => exact ⟨.plus, rest, rfl, rfl⟩
  next => exact ⟨.absent, cs, rfl, rfl⟩

theorem takeFraction_text (f : Option (List (Fin 10))) {rest : List Char}
    (ends : ∀ c ∈ rest.head?, c ≠ '.' ∧ c.isDigit = false) :
    Decimal.takeFraction (fractionText f ++ rest) = (digitsText (f.getD []), rest) := by
  cases f with
  | none =>
    show Decimal.takeFraction rest = ([], rest)
    unfold Decimal.takeFraction
    split <;> simp_all
  | some ds =>
    obtain ⟨taken, left⟩ := span_digitsText ds fun c head => (ends c head).2
    show ((digitsText ds ++ rest).takeWhile _, (digitsText ds ++ rest).dropWhile _) = _
    rw [taken, left]
    rfl

theorem exists_fraction (cs : List Char) : ∃ (f : Option (List (Fin 10))) (rest : List Char),
    Decimal.takeFraction cs = (digitsText (f.getD []), rest) ∧ fractionText f ++ rest = cs := by
  unfold Decimal.takeFraction
  split
  next rest =>
    obtain ⟨ds, taken, read⟩ := exists_span rest
    exact ⟨some ds, _, by rw [taken]; rfl, congrArg ('.' :: ·) read.symm⟩
  next => exact ⟨none, cs, rfl, rfl⟩

theorem exponent?_eq_some_iff {cs : List Char} {e : ℤ} : Decimal.exponent? cs = some e ↔
    ∃ x : Option Exponent, exponentText x = cs ∧ x.elim 0 Exponent.value = e := by
  constructor
  · intro read
    cases cs with
    | nil => exact ⟨none, rfl, Option.some.inj read⟩
    | cons c rest =>
      obtain ⟨s, unsigned, sign, rfl⟩ := exists_sign rest
      simp only [Decimal.exponent?, sign, Option.ite_none_right_eq_some, Option.some.injEq] at read
      obtain ⟨⟨letter, any, digits⟩, rfl⟩ := read
      obtain ⟨ds, rfl⟩ := exists_digits (List.all_eq_true.1 digits)
      refine ⟨some ⟨decide (c = 'E'), s, ds, mt digitsText_eq_nil_iff.2 any⟩, ?_, ?_⟩
      · rcases letter with rfl | rfl <;> rfl
      · simp only [Option.elim_some, Exponent.value, digitsValue_digitsText]
  · rintro ⟨_ | ⟨capital, s, ds, any⟩, rfl, rfl⟩
    · rfl
    · have unsigned (c) (head : c ∈ (digitsText ds).head?) : c ≠ '-' ∧ c ≠ '+' := by
        have digit := isDigit_of_mem (List.mem_of_mem_head? head)
        constructor <;> rintro rfl <;> contradiction
      have letter : (if capital then 'E' else 'e') = 'e' ∨ (if capital then 'E' else 'e') = 'E' := by
        cases capital <;> decide
      have digits : (digitsText ds).all Char.isDigit = true :=
        List.all_eq_true.2 fun c => isDigit_of_mem
      simp only [exponentText, Exponent.text, Decimal.exponent?, takeSign_text s unsigned]
      rw [if_pos ⟨letter, mt digitsText_eq_nil_iff.1 any, digits⟩, digitsValue_digitsText]
      rfl

/-! ### Numerals -/

theorem head?_exponentText {x : Option Exponent} {c : Char} (h : c ∈ (exponentText x).head?) :
    c = 'e' ∨ c = 'E' := by
  obtain _ | ⟨capital, s, ds, any⟩ := x
  · contradiction
  · cases capital
    · exact .inl (Option.some.inj h).symm
    · exact .inr (Option.some.inj h).symm

theorem head?_fractionText {f : Option (List (Fin 10))} {x : Option Exponent} {c : Char}
    (h : c ∈ (fractionText f ++ exponentText x).head?) : c = '.' ∨ c = 'e' ∨ c = 'E' := by
  cases f with
  | none => exact .inr (head?_exponentText h)
  | some ds => exact .inl (Option.some.inj h).symm

theorem ofText?_text (n : Numeral) : Decimal.ofText? n.text = some n.decimal := by
  have ends (c) (head : c ∈ (exponentText n.exponent).head?) : c ≠ '.' ∧ c.isDigit = false := by
    rcases head?_exponentText head with rfl | rfl <;> decide
  have point (c) (head : c ∈ (fractionText n.fraction ++ exponentText n.exponent).head?) :
      c.isDigit = false := by
    rcases head?_fractionText head with rfl | rfl | rfl <;> decide
  have unsigned (c) (head : c ∈ (digitsText n.whole ++
      (fractionText n.fraction ++ exponentText n.exponent)).head?) : c ≠ '-' ∧ c ≠ '+' := by
    rcases isDigit_or_mem_head? head with digit | head
    · constructor <;> rintro rfl <;> contradiction
    · rcases head?_fractionText head with rfl | rfl | rfl <;> decide
  obtain ⟨whole, tail⟩ := span_digitsText n.whole point
  have fraction : Decimal.takeFraction (fractionText n.fraction ++ exponentText n.exponent) =
    (digitsText n.behind, exponentText n.exponent) := takeFraction_text n.fraction ends
  have power : Decimal.exponent? (exponentText n.exponent) = some n.power :=
    exponent?_eq_some_iff.2 ⟨n.exponent, rfl, rfl⟩
  have digit : ¬ (digitsText n.whole = [] ∧ digitsText n.behind = []) := by
    rw [digitsText_eq_nil_iff, digitsText_eq_nil_iff, not_and_or]
    exact n.hasDigit
  have joined : digitsText n.whole ++ digitsText n.behind = digitsText (n.whole ++ n.behind) :=
    List.map_append.symm
  have length : (digitsText n.behind).length = n.behind.length := List.length_map _
  simp only [Decimal.ofText?, toList_text, takeSign_text n.sign unsigned, whole, tail, fraction,
    power, Option.map_some]
  rw [if_neg digit, joined, digitsValue_digitsText, length]
  rfl

/-- The texts that are read are those of numerals, and each is read as the number that it denotes.
-/
theorem ofText?_eq_some_iff {text : String} {x : Decimal} :
    Decimal.ofText? text = some x ↔ ∃ n : Numeral, n.text = text ∧ n.decimal = x := by
  constructor
  · intro read
    obtain ⟨s, unsigned, sign, start⟩ := exists_sign text.toList
    obtain ⟨w, whole, middle⟩ := exists_span unsigned
    obtain ⟨f, tail, fraction, ending⟩ := exists_fraction (unsigned.dropWhile Char.isDigit)
    have found := read
    simp only [Decimal.ofText?, sign, whole, fraction, Option.ite_none_left_eq_some,
      Option.map_eq_some_iff] at found
    obtain ⟨digit, e, power, -⟩ := found
    obtain ⟨x, rfl, -⟩ := exponent?_eq_some_iff.1 power
    rw [digitsText_eq_nil_iff, digitsText_eq_nil_iff, not_and_or] at digit
    let n : Numeral := ⟨s, w, f, x, digit⟩
    have written : n.text = text := by
      rw [← String.ofList_toList (s := text), ← start, middle, ← ending]
      rfl
    refine ⟨n, written, ?_⟩
    rw [← written, ofText?_text] at read
    exact Option.some.inj read
  · rintro ⟨n, rfl, rfl⟩
    exact ofText?_text n

/-! ### Other texts -/

/-- The characters of numerals. -/
def Allowed (c : Char) : Prop := c.isDigit = true ∨ c ∈ ['+', '-', '.', 'e', 'E']

/-- The text has no digit, or a character that no numeral has. -/
def Excluded (text : String) : Prop :=
  (∀ c ∈ text.toList, c.isDigit = false) ∨ ∃ c ∈ text.toList, ¬ Allowed c

theorem allowed_sign {s : Sign} : ∀ c ∈ s.text, Allowed c := by
  cases s <;> simp [Sign.text, Allowed]

theorem allowed_digitsText {ds : List (Fin 10)} : ∀ c ∈ digitsText ds, Allowed c :=
  fun _ mem => .inl (isDigit_of_mem mem)

theorem allowed_fractionText {f : Option (List (Fin 10))} : ∀ c ∈ fractionText f, Allowed c := by
  cases f with
  | none => simp [fractionText]
  | some ds => exact List.forall_mem_cons.2 ⟨by simp [Allowed], allowed_digitsText⟩

theorem allowed_exponentText {x : Option Exponent} : ∀ c ∈ exponentText x, Allowed c := by
  cases x with
  | none => simp [exponentText]
  | some e =>
    refine List.forall_mem_cons.2 ⟨?_, List.forall_mem_append.2 ⟨allowed_sign, allowed_digitsText⟩⟩
    cases e.capital <;> simp [Allowed]

theorem digitsText_subset_fractionText (f : Option (List (Fin 10))) :
    digitsText (f.getD []) ⊆ fractionText f := by
  cases f with
  | none => exact List.nil_subset _
  | some ds => exact List.subset_cons_self _ _

theorem exists_digit (n : Numeral) : ∃ c ∈ n.text.toList, c.isDigit = true := by
  rw [toList_text]
  rcases n.hasDigit with whole | fraction
  · obtain ⟨c, mem⟩ := List.exists_mem_of_ne_nil _ (mt digitsText_eq_nil_iff.1 whole)
    exact ⟨c, by simp [mem], isDigit_of_mem mem⟩
  · obtain ⟨c, mem⟩ := List.exists_mem_of_ne_nil _ (mt digitsText_eq_nil_iff.1 fraction)
    exact ⟨c, by simp [digitsText_subset_fractionText _ mem], isDigit_of_mem mem⟩

theorem not_excluded_text (n : Numeral) : ¬ Excluded n.text := by
  rintro (none | ⟨c, mem, foreign⟩)
  · obtain ⟨c, mem, digit⟩ := exists_digit n
    exact Bool.noConfusion (digit.symm.trans (none c mem))
  · refine foreign ?_
    simp only [toList_text, List.mem_append] at mem
    rcases mem with mem | mem | mem | mem
    · exact allowed_sign c mem
    · exact allowed_digitsText c mem
    · exact allowed_fractionText c mem
    · exact allowed_exponentText c mem

end Numeral

end TemplateTree
