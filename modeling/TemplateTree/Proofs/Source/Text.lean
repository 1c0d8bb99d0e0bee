import TemplateTree.Source

/-! What the text of a location says. Nothing is escaped in it, and the name of a template may look
like a location itself. But numbers are printed without marks, so that the last mark of each kind is
the one that was printed as a mark, and a text is taken apart from its end: first at the last `@`,
then at the last hyphen, then at the colons. -/
namespace TemplateTree

/-! ### The last mark -/

theorem eq_of_last {mark : Char} {xs xs' ys ys' : List Char} (h : mark ∉ ys) (h' : mark ∉ ys')
    (same : xs ++ mark :: ys = xs' ++ mark :: ys') : xs = xs' ∧ ys = ys' := by
  induction xs generalizing xs' with
  | nil =>
    cases xs' with
    | nil => exact ⟨rfl, (List.cons.inj same).2⟩
    | cons c rest =>
      have longer : ys = rest ++ mark :: ys' := (List.cons.inj same).2
      exact absurd (by simp [longer]) h
  | cons c rest ih =>
    cases xs' with
    | nil =>
      have longer : rest ++ mark :: ys = ys' := (List.cons.inj same).2
      exact absurd (by simp [← longer]) h'
    | cons d rest' =>
      obtain ⟨rfl, tails⟩ := List.cons.inj same
      obtain ⟨rfl, rfl⟩ := ih tails
      exact ⟨rfl, rfl⟩

/-- Two texts that were joined by a mark are found again at its last place. The one in front may
have more of these marks. -/
theorem eq_of_joined {sep x x' y y' : String} {mark : Char} (single : sep.toList = [mark])
    (h : mark ∉ y.toList) (h' : mark ∉ y'.toList) (same : x ++ sep ++ y = x' ++ sep ++ y') :
    x = x' ∧ y = y' := by
  have lists : x.toList ++ mark :: y.toList = x'.toList ++ mark :: y'.toList := by
    simpa [single] using congrArg String.toList same
  obtain ⟨front, back⟩ := eq_of_last h h' lists
  exact ⟨String.toList_inj.1 front, String.toList_inj.1 back⟩

/-! ### Numbers and points -/

theorem not_mem_number {mark : Char} (h : mark.isDigit = false) (n : UInt64) :
    mark ∉ (toString n.toNat).toList := by
  intro hmem
  rw [Nat.toString_eq_repr, Nat.toList_repr] at hmem
  have digit := Nat.isDigit_of_mem_toDigits (by omega) (by omega) hmem
  rw [h] at digit
  cases digit

theorem eq_of_number {m n : UInt64} (same : toString m.toNat = toString n.toNat) : m = n := by
  have digits : Nat.toDigits 10 m.toNat = Nat.toDigits 10 n.toNat := by
    rw [← Nat.toList_repr, ← Nat.toList_repr, ← Nat.toString_eq_repr, same, Nat.toString_eq_repr]
  have numbers := congrArg (Nat.ofDigitChars 10 · 0) digits
  simp only [Nat.ofDigitChars_toDigits (by omega : 1 < 10) (by omega : 10 ≤ 10)] at numbers
  exact UInt64.toNat_inj.1 numbers

namespace Position

variable {p q : Position}

/-- The only mark in the text of a point is its colon. -/
theorem not_mem_text {mark : Char} (digit : mark.isDigit = false) (colon : mark ≠ ':')
    (p : Position) : mark ∉ p.text.toList := by
  intro hmem
  simp only [text, String.toList_append, List.mem_append] at hmem
  rcases hmem with (line | between) | column
  · exact not_mem_number digit p.line line
  · exact colon (by simpa using between)
  · exact not_mem_number digit p.column column

theorem eq_of_text (same : p.text = q.text) : p = q := by
  have colon : ":".toList = [':'] := rfl
  obtain ⟨lines, columns⟩ :=
    eq_of_joined colon (not_mem_number rfl p.column) (not_mem_number rfl q.column) same
  cases p
  cases q
  rw [mk.injEq]
  exact ⟨eq_of_number lines, eq_of_number columns⟩

end Position

namespace Location

variable {l m : Location}

/-- The text of the two points, without the name. -/
def range (l : Location) : String := l.start.text ++ "-" ++ l.stop.text

theorem not_mem_range (l : Location) : '@' ∉ l.range.toList := by
  have unmarked (p : Position) : '@' ∉ p.text.toList := p.not_mem_text rfl (by decide)
  simp [range, unmarked]

theorem eq_of_range (same : l.range = m.range) : l.start = m.start ∧ l.stop = m.stop := by
  have hyphen : "-".toList = ['-'] := rfl
  have unmarked (p : Position) : '-' ∉ p.text.toList := p.not_mem_text rfl (by decide)
  obtain ⟨starts, stops⟩ := eq_of_joined hyphen (unmarked l.stop) (unmarked m.stop) same
  exact ⟨Position.eq_of_text starts, Position.eq_of_text stops⟩

theorem text_of_none (h : l.source = none) : l.text = l.range := by
  rw [text, h, range]

theorem text_of_some {name : String} (h : l.source = some name) :
    l.text = name ++ "@" ++ l.range := by
  rw [text, h, range]

/-- The text shows if there is a name, even an empty one. -/
theorem mem_text_iff : '@' ∈ l.text.toList ↔ l.source ≠ none := by
  cases h : l.source with
  | none => simp [text_of_none h, not_mem_range]
  | some name => simp [text_of_some h]

theorem source_eq_and_range_eq (same : l.text = m.text) :
    l.source = m.source ∧ l.range = m.range := by
  have named : l.source ≠ none ↔ m.source ≠ none := by
    rw [← mem_text_iff, same, mem_text_iff]
  cases hl : l.source with
  | none =>
    have unnamed : m.source = none := by simpa [hl] using named
    rw [text_of_none hl, text_of_none unnamed] at same
    exact ⟨unnamed.symm, same⟩
  | some name =>
    obtain ⟨name', hm⟩ : ∃ name', m.source = some name' := by
      apply Option.ne_none_iff_exists'.1
      apply named.1
      simp [hl]
    have sign : "@".toList = ['@'] := rfl
    rw [text_of_some hl, text_of_some hm] at same
    obtain ⟨rfl, ranges⟩ := eq_of_joined sign l.not_mem_range m.not_mem_range same
    exact ⟨hm.symm, ranges⟩

/-- Locations that are printed alike are the same, whatever their templates are called. -/
theorem text_inj : l.text = m.text ↔ l = m := by
  constructor
  · intro same
    obtain ⟨sources, ranges⟩ := source_eq_and_range_eq same
    obtain ⟨starts, stops⟩ := eq_of_range ranges
    cases l
    cases m
    rw [mk.injEq]
    exact ⟨sources, starts, stops⟩
  · intro same
    rw [same]

/-- The name of a template can itself be read as a location. -/
example : (⟨some "a@1:2-3:4", ⟨5, 6⟩, ⟨7, 8⟩⟩ : Location).text = "a@1:2-3:4@5:6-7:8" := by decide

end Location

end TemplateTree
