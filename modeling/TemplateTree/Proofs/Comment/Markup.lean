import Mathlib.Logic.Basic
import TemplateTree.Builder

/-! Comments are read as they are written. The markup around a comment is told by two patterns of
characters, some of which may be missing. A pattern is matched as a search does that goes from left
to right, takes what may be missing wherever it can, and only then tries without it; the opening is
matched at the start of the text alone, and the closing at its end alone. -/
namespace TemplateTree.Comment

/-! ### Patterns -/

/-- One character of a pattern, which may be missing if it is optional. -/
structure Mark where
  char : Char
  optional : Bool

/-- The matches of a pattern at the start of a text in the order in which they are tried, each given
by the text behind it. -/
def rests : List Mark → List Char → List (List Char)
  | [], text => [text]
  | m :: pattern, text =>
    (match text with
      | c :: rest => if c = m.char then rests pattern rest else []
      | [] => []) ++ if m.optional then rests pattern text else []

/-- The text before the leftmost match of a pattern that reaches the end. -/
def beforeLast? (pattern : List Mark) : List Char → Option (List Char)
  | [] => if [] ∈ rests pattern [] then some [] else none
  | c :: text =>
    if [] ∈ rests pattern (c :: text) then some []
    else (beforeLast? pattern text).map (c :: ·)

/-- Two braces, `~?!` and two optional hyphens. -/
def opening : List Mark :=
  [⟨'{', false⟩, ⟨'{', false⟩, ⟨'~', true⟩, ⟨'!', false⟩, ⟨'-', true⟩, ⟨'-', true⟩]

/-- Two optional hyphens, `~?` and two braces. -/
def closing : List Mark :=
  [⟨'-', true⟩, ⟨'-', true⟩, ⟨'~', true⟩, ⟨'}', false⟩, ⟨'}', false⟩]

/-- The text without the first match of the opening at its start, and what is left of that without
the leftmost match of the closing at its end. -/
def unmarked (raw : String) : String :=
  let inner := (rests opening raw.toList).head?.getD raw.toList
  String.ofList ((beforeLast? closing inner).getD inner)

/-- The texts that a pattern stands for. -/
def words : List Mark → List (List Char)
  | [] => [[]]
  | m :: pattern =>
    (words pattern).map (m.char :: ·) ++ if m.optional then words pattern else []

theorem mem_rests_iff {pattern : List Mark} {text rest : List Char} :
    rest ∈ rests pattern text ↔ ∃ word ∈ words pattern, text = word ++ rest := by
  induction pattern generalizing text with
  | nil => simp [rests, words, eq_comm]
  | cons m pattern ih =>
    have taken : (rest ∈ match text with
        | c :: text => if c = m.char then rests pattern text else []
        | [] => []) ↔ ∃ word ∈ words pattern, text = m.char :: (word ++ rest) := by
      cases text with
      | nil => simp
      | cons c text => by_cases same : c = m.char <;> simp [same, ih]
    have missing : (rest ∈ if m.optional then rests pattern text else []) ↔
        ∃ word ∈ (if m.optional then words pattern else []), text = word ++ rest := by
      cases m.optional <;> simp [ih]
    simp only [rests, words, List.mem_append, taken, missing, or_and_right, exists_or,
      List.mem_map, exists_exists_and_eq_and, List.cons_append]

theorem nil_mem_rests_iff {pattern : List Mark} {text : List Char} :
    [] ∈ rests pattern text ↔ text ∈ words pattern := by
  simp [mem_rests_iff]

/-- A pattern that is matched at the end of a text is matched as far to the left as it can be. -/
theorem beforeLast?_eq_some_iff {pattern : List Mark} {text before : List Char} :
    beforeLast? pattern text = some before ↔
      (∃ word ∈ words pattern, text = before ++ word) ∧
        ∀ before', ∀ word ∈ words pattern, text = before' ++ word →
          before.length ≤ before'.length := by
  induction text generalizing before with
  | nil =>
    simp only [beforeLast?, nil_mem_rests_iff]
    by_cases found : [] ∈ words pattern
    · simp only [found]
      constructor
      · rintro ⟨⟩
        exact ⟨⟨[], found, rfl⟩, by simp⟩
      · rintro ⟨⟨word, -, split⟩, -⟩
        simp_all
    · simp [found]
  | cons c text ih =>
    simp only [beforeLast?, nil_mem_rests_iff]
    by_cases found : c :: text ∈ words pattern
    · simp only [found, if_true]
      constructor
      · rintro ⟨⟩
        exact ⟨⟨_, found, rfl⟩, by simp⟩
      · rintro ⟨-, leftmost⟩
        have empty := leftmost [] _ found rfl
        rw [List.eq_nil_of_length_eq_zero (Nat.le_zero.1 empty)]
    · simp only [found, if_false, Option.map_eq_some_iff, ih]
      constructor
      · rintro ⟨before, ⟨⟨word, hword, split⟩, leftmost⟩, rfl⟩
        refine ⟨⟨word, hword, by rw [split]; rfl⟩, ?_⟩
        intro before' word' hword' split'
        cases before' with
        | nil => exact absurd (split' ▸ hword') found
        | cons d before' =>
          obtain ⟨-, split'⟩ := List.cons.inj split'
          exact Nat.succ_le_succ (leftmost before' word' hword' split')
      · rintro ⟨⟨word, hword, split⟩, leftmost⟩
        cases before with
        | nil => exact absurd (split ▸ hword) found
        | cons d before =>
          obtain ⟨rfl, behind⟩ := List.cons.inj split
          refine ⟨before, ⟨⟨word, hword, behind⟩, ?_⟩, rfl⟩
          intro before' word' hword' split'
          have farther := leftmost (c :: before') word' hword' (by rw [split']; rfl)
          exact Nat.le_of_succ_le_succ farther

/-! ### The markup of a comment -/

theorem dropMark_cons (c d : Char) (rest : List Char) :
    dropMark c (d :: rest) = if d = c then rest else d :: rest := by rfl

theorem length_dropMark_le (c : Char) (text : List Char) :
    (dropMark c text).length ≤ text.length := by
  cases text with
  | nil => simp [dropMark]
  | cons d rest =>
    simp only [dropMark]
    split <;> simp

theorem exists_mark (c : Char) (text : List Char) :
    ∃ mark rest, (mark = [] ∨ mark = [c]) ∧ text = mark ++ rest ∧ dropMark c text = rest := by
  cases text with
  | nil => exact ⟨[], [], .inl rfl, rfl, rfl⟩
  | cons d rest =>
    by_cases same : d = c
    · exact ⟨[c], rest, .inr rfl, by simp [same], by simp [dropMark, same]⟩
    · exact ⟨[], d :: rest, .inl rfl, rfl, by simp [dropMark, same]⟩

theorem rests_required (c : Char) (pattern : List Mark) (text : List Char) :
    rests (⟨c, false⟩ :: pattern) (c :: text) = rests pattern text := by
  simp [rests]

/-- An optional mark is taken where it can be, if the pattern behind it can then be matched. -/
theorem head?_rests_optional {c : Char} {pattern : List Mark}
    (matched : ∀ text, rests pattern text ≠ []) (text : List Char) :
    (rests (⟨c, true⟩ :: pattern) text).head? = (rests pattern (dropMark c text)).head? := by
  cases text with
  | nil => simp [rests, dropMark]
  | cons d text =>
    by_cases same : d = c
    · obtain ⟨rest, others, some⟩ := List.exists_cons_of_ne_nil (matched text)
      simp [rests, dropMark, same, some]
    · simp [rests, dropMark, same]

/-- An optional mark is taken where it can be, if the next mark is another and has to stand there.
-/
theorem rests_optional_required {c d : Char} (differ : c ≠ d) (pattern : List Mark)
    (text : List Char) :
    rests (⟨c, true⟩ :: ⟨d, false⟩ :: pattern) text =
      rests (⟨d, false⟩ :: pattern) (dropMark c text) := by
  cases text with
  | nil => simp [rests, dropMark]
  | cons e text =>
    by_cases same : e = c
    · simp [rests, dropMark, same, differ]
    · simp [rests, dropMark, same]

theorem rests_eq_nil {c : Char} {text : List Char} (h : ∀ rest, text ≠ c :: rest)
    (pattern : List Mark) : rests (⟨c, false⟩ :: pattern) text = [] := by
  cases text with
  | nil => rfl
  | cons d rest =>
    have differ : d ≠ c := by
      rintro rfl
      exact h rest rfl
    simp [rests, differ]

theorem afterOpening?_eq (text : List Char) : afterOpening? text = (rests opening text).head? := by
  have hyphens (text : List Char) : (rests [⟨'-', true⟩, ⟨'-', true⟩] text).head? =
      some (dropMark '-' (dropMark '-' text)) := by
    rw [head?_rests_optional (by simp [rests]), head?_rests_optional (by simp [rests])]
    rfl
  unfold afterOpening? opening
  split
  next rest =>
    rw [rests_required, rests_required, rests_optional_required (by decide)]
    split
    next body starts => rw [starts, rests_required, hyphens]
    next other =>
      rw [rests_eq_nil fun body starts => other body starts]
      rfl
  next other =>
    by_cases brace : ∃ rest, text = '{' :: rest
    · obtain ⟨rest, rfl⟩ := brace
      rw [rests_required, rests_eq_nil fun behind second => other behind (by rw [second])]
      rfl
    · rw [rests_eq_nil (not_exists.1 brace)]
      rfl

theorem exists_word_of_beforeClosing? {text before : List Char}
    (h : beforeClosing? text = some before) : ∃ word ∈ words closing, text = before ++ word := by
  unfold beforeClosing? at h
  split at h
  next rest ends =>
    have whole : text = rest.reverse ++ ['}', '}'] := by
      rw [← List.reverse_reverse text, ends]
      simp
    obtain ⟨tilde, behind, htilde, rfl, drops⟩ := exists_mark '~' rest
    obtain ⟨second, behind', hsecond, rfl, drops'⟩ := exists_mark '-' behind
    obtain ⟨first, kept, hfirst, rfl, drops''⟩ := exists_mark '-' behind'
    obtain rfl : kept.reverse = before := by simpa [drops, drops', drops''] using h
    refine ⟨first ++ second ++ tilde ++ ['}', '}'], ?_, ?_⟩
    · rcases htilde with rfl | rfl <;> rcases hsecond with rfl | rfl <;>
        rcases hfirst with rfl | rfl <;> decide
    · rw [whole]
      rcases htilde with rfl | rfl <;> rcases hsecond with rfl | rfl <;>
        rcases hfirst with rfl | rfl <;> simp
  next => simp at h

theorem beforeClosing?_append {word : List Char} (hword : word ∈ words closing)
    (before : List Char) :
    ∃ kept, beforeClosing? (before ++ word) = some kept ∧ kept.length ≤ before.length := by
  have shorter₁ := length_dropMark_le '-' before.reverse
  have shorter₂ := length_dropMark_le '-' (dropMark '-' before.reverse)
  have shorter₃ := length_dropMark_le '~' before.reverse
  have shorter₄ := length_dropMark_le '-' (dropMark '~' before.reverse)
  have shorter₅ := length_dropMark_le '-' (dropMark '-' (dropMark '~' before.reverse))
  rw [List.length_reverse] at shorter₁ shorter₃
  have spelled : word ∈ ["--~\x7d\x7d", "--\x7d\x7d", "-~\x7d\x7d", "-\x7d\x7d", "~\x7d\x7d",
      "\x7d\x7d"].map String.toList := by
    revert word
    decide
  simp at spelled
  rcases spelled with rfl | rfl | rfl | rfl | rfl | rfl <;>
    simp [beforeClosing?, dropMark_cons] <;> omega

theorem beforeClosing?_eq (text : List Char) : beforeClosing? text = beforeLast? closing text := by
  cases found : beforeClosing? text with
  | some before =>
    refine (beforeLast?_eq_some_iff.2 ⟨exists_word_of_beforeClosing? found, ?_⟩).symm
    rintro before' word hword rfl
    obtain ⟨kept, hkept, shorter⟩ := beforeClosing?_append hword before'
    obtain rfl : before = kept := Option.some.inj (found.symm.trans hkept)
    exact shorter
  | none =>
    cases matched : beforeLast? closing text with
    | none => rfl
    | some before =>
      obtain ⟨⟨word, hword, rfl⟩, -⟩ := beforeLast?_eq_some_iff.1 matched
      obtain ⟨kept, hkept, -⟩ := beforeClosing?_append hword before
      rw [found] at hkept
      cases hkept

/-- What is read of a comment is what is left by the two searches, whatever its text. -/
theorem body_eq_unmarked (raw : String) : body raw = unmarked raw := by
  simp only [body, unmarked, afterOpening?_eq, beforeClosing?_eq]

/-! ### Written comments -/

/-- The trim mark of a side, if it has one. -/
def trim (marked : Bool) : List Char := if marked then ['~'] else []

@[simp] theorem trim_true : trim true = ['~'] := by rfl

@[simp] theorem trim_false : trim false = [] := by rfl

/-- A comment in the markup that holds any text. -/
def long (opened : Bool) (text : String) (closed : Bool) : String :=
  .ofList (['{', '{'] ++ trim opened ++ ['!', '-', '-'] ++ text.toList ++ ['-', '-'] ++
    trim closed ++ ['}', '}'])

/-- A comment in the markup without hyphens. -/
def short (opened : Bool) (text : String) (closed : Bool) : String :=
  .ofList (['{', '{'] ++ trim opened ++ ['!'] ++ text.toList ++ trim closed ++ ['}', '}'])

/-- The text cannot be mixed up with what stands beside it in the markup without hyphens. -/
structure Apart (text : String) : Prop where
  start : text.toList.head? ≠ some '-'
  stop : text.toList.getLast? ≠ some '-'
  unmarked : text.toList.getLast? ≠ some '~'

theorem dropMark_eq_self {c : Char} {text : List Char} (h : text.head? ≠ some c) :
    dropMark c text = text := by
  cases text with
  | nil => rfl
  | cons d rest =>
    have differ : d ≠ c := by simpa using h
    simp [dropMark_cons, differ]

theorem body_long (opened closed : Bool) (text : String) :
    body (long opened text closed) = text := by
  have inner : afterOpening? (long opened text closed).toList =
      some (text.toList ++ '-' :: '-' :: (trim closed ++ ['}', '}'])) := by
    cases opened <;> simp [long, afterOpening?, dropMark_cons]
  have value : beforeClosing? (text.toList ++ '-' :: '-' :: (trim closed ++ ['}', '}'])) =
      some text.toList := by
    cases closed <;> simp [beforeClosing?, dropMark_cons]
  simp [body, inner, value]

theorem body_short {text : String} (apart : Apart text) (opened closed : Bool) :
    body (short opened text closed) = text := by
  have start : (text.toList ++ (trim closed ++ ['}', '}'])).head? ≠ some '-' := by
    have first := apart.start
    cases h : text.toList with
    | nil => cases closed <;> simp
    | cons c rest => simpa [h] using first
  have stop : text.toList.reverse.head? ≠ some '-' := by
    rw [List.head?_reverse]
    exact apart.stop
  have unmarked : text.toList.reverse.head? ≠ some '~' := by
    rw [List.head?_reverse]
    exact apart.unmarked
  have inner : afterOpening? (short opened text closed).toList =
      some (text.toList ++ (trim closed ++ ['}', '}'])) := by
    cases opened <;> simp [short, afterOpening?, dropMark_cons, dropMark_eq_self start]
  have value : beforeClosing? (text.toList ++ (trim closed ++ ['}', '}'])) =
      some text.toList := by
    cases closed <;>
      simp [beforeClosing?, dropMark_cons, dropMark_eq_self stop, dropMark_eq_self unmarked]
  simp [body, inner, value]

theorem ofTags_long (opened closed : Bool) (text : String) :
    Strip.ofTags (long opened text closed) (long opened text closed) = ⟨opened, closed⟩ := by
  cases opened <;> cases closed <;> simp [Strip.ofTags, long]

theorem ofTags_short {text : String} (apart : Apart text) (opened closed : Bool) :
    Strip.ofTags (short opened text closed) (short opened text closed) = ⟨opened, closed⟩ := by
  cases h : text.toList.reverse with
  | nil => cases opened <;> cases closed <;> simp [Strip.ofTags, short, h]
  | cons c rest =>
    have differs : c ≠ '~' := by simpa [← List.head?_reverse, h] using apart.unmarked
    cases opened <;> cases closed <;> simp [Strip.ofTags, short, h, differs]

end TemplateTree.Comment

namespace TemplateTree.Builder

open Comment

/-- A comment is read as the text that is left when its markup is searched for, first at the start
and then at the end. So any text can be written between the markup with hyphens, and between the one
without them any that does not look like a part of it; and the trim marks are read off either. -/
theorem comment_written (b : Builder) (span : Span) :
    (∀ raw, b.comment raw span = .comment (unmarked raw) (.ofTags raw raw) (b.locate span)) ∧
    ∀ opened closed text,
      b.comment (long opened text closed) span =
          .comment text ⟨opened, closed⟩ (b.locate span) ∧
        (Apart text → b.comment (short opened text closed) span =
          .comment text ⟨opened, closed⟩ (b.locate span)) := by
  refine ⟨fun raw => by rw [comment, body_eq_unmarked], fun opened closed text => ⟨?_, ?_⟩⟩
  · rw [comment, body_long, ofTags_long]
  · intro apart
    rw [comment, body_short apart, ofTags_short apart]

/-- The comment `{{~! a--b}~}}`, whose text ends in a brace. -/
theorem comment_written_brace :
    let span : Span := ⟨⟨1, 0⟩, ⟨1, 14⟩⟩
    let text := " a--b\x7d"
    let raw := "\x7b\x7b~! a--b\x7d~\x7d\x7d"
    Apart text ∧ short true text true = raw ∧
      (ofOptions {}).comment raw span = .comment text ⟨true, true⟩ (.ofSpan none span) := by
  intro span text raw
  have apart : Apart text := ⟨by decide, by decide, by decide⟩
  have spelled : short true text true = raw := by decide
  refine ⟨apart, spelled, ?_⟩
  rw [← spelled]
  exact ((comment_written (ofOptions {}) span).2 true true text).2 apart

/-- A hyphen at the start of a text is taken for a part of the markup. -/
example : Comment.body "\x7b\x7b!-rows\x7d\x7d" = "rows" := by decide

end TemplateTree.Builder
