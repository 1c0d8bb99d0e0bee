import TemplateTree.Proofs.Path.Canonical

/-! What a normal text says of a path. It does not depend on how the path was written, and when the
names have no marks in them, it can be read in one way only: words that were joined by a mark are
found again by cutting at the mark, first at the slashes and then at the points. A climb and the
names cannot be mixed up, because a point stands in the one where none can stand in the other. -/
namespace TemplateTree

/-! ### Joined words -/

/-- A text that can be joined to others by a mark and found again: there is something in it, but not
that mark. -/
structure Word (mark : Char) (text : String) : Prop where
  nonempty : text ≠ ""
  unmarked : mark ∉ text.toList

theorem splitOn_intercalate {mark : Char} {words : List String} (some : words ≠ [])
    (h : ∀ word ∈ words, Word mark word) :
    ((String.singleton mark).intercalate words).toList.splitOn mark = words.map String.toList := by
  rw [String.toList_intercalate, String.toList_singleton]
  refine List.splitOn_intercalate mark ?_ (by simpa using some)
  intro cs hcs
  obtain ⟨word, hword, rfl⟩ := List.mem_map.1 hcs
  exact (h word hword).unmarked

theorem head?_intercalate (mark : String) {first : String} (nonempty : first ≠ "")
    (rest : List String) :
    (mark.intercalate (first :: rest)).toList.head? = first.toList.head? := by
  rw [Path.intercalate_cons, String.toList_append, List.head?_append]
  cases h : first.toList with
  | nil => exact absurd (String.toList_eq_nil_iff.1 h) nonempty
  | cons c cs => rfl

theorem intercalate_eq_empty_iff {mark : String} {words : List String}
    (nonempty : ∀ word ∈ words, word ≠ "") : mark.intercalate words = "" ↔ words = [] := by
  constructor
  · intro empty
    cases words with
    | nil => rfl
    | cons first rest =>
      have hfirst := nonempty first (by simp)
      have head := head?_intercalate mark hfirst rest
      rw [empty] at head
      exact absurd (String.toList_eq_nil_iff.1 (List.head?_eq_none_iff.1 head.symm)) hfirst
  · rintro rfl
    simp

theorem mem_intercalate {mark : String} {words : List String} {c : Char}
    (h : c ∈ (mark.intercalate words).toList) :
    c ∈ mark.toList ∨ ∃ word ∈ words, c ∈ word.toList := by
  cases words with
  | nil => simp at h
  | cons first rest =>
    rw [Path.intercalate_cons, String.toList_append, List.mem_append, String.toList_join,
      List.mem_flatMap] at h
    rcases h with h | ⟨text, htext, h⟩
    · exact .inr ⟨first, by simp, h⟩
    · obtain ⟨word, hword, rfl⟩ := List.mem_map.1 htext
      rw [String.toList_append, List.mem_append] at h
      exact h.imp_right fun hc => ⟨word, List.mem_cons_of_mem _ hword, hc⟩

theorem intercalate_inj {mark : Char} {xs ys : List String} (hx : ∀ x ∈ xs, Word mark x)
    (hy : ∀ y ∈ ys, Word mark y)
    (same : (String.singleton mark).intercalate xs = (String.singleton mark).intercalate ys) :
    xs = ys := by
  have emptyX : (String.singleton mark).intercalate xs = "" ↔ xs = [] :=
    intercalate_eq_empty_iff fun x h => (hx x h).nonempty
  have emptyY : (String.singleton mark).intercalate ys = "" ↔ ys = [] :=
    intercalate_eq_empty_iff fun y h => (hy y h).nonempty
  by_cases none : xs = []
  · rw [none, emptyY.1 (same ▸ emptyX.2 none)]
  · have some : ys ≠ [] := fun h => none (emptyX.1 (same ▸ emptyY.2 h))
    have lists : xs.map String.toList = ys.map String.toList := by
      rw [← splitOn_intercalate none hx, same, splitOn_intercalate some hy]
    exact (List.map_inj_right fun _ _ => String.toList_inj.1).1 lists

namespace Path

/-- No name of the path is empty, and none has a mark of the normal text in it. -/
structure Legible (p : Path) : Prop where
  nonempty : ∀ part ∈ p.parts, part ≠ ""
  pointless : ∀ part ∈ p.parts, '.' ∉ part.toList
  slashless : ∀ part ∈ p.parts, '/' ∉ part.toList
  unsigned : ∀ part ∈ p.parts.head?, part.toList.head? ≠ some '@'

variable {p q : Path}

/-! ### The names -/

/-- The part of the normal text that has the names does not start with a mark. -/
theorem Legible.head?_names (h : p.Legible) (some : p.parts ≠ []) :
    ∃ c, (".".intercalate p.parts).toList.head? = .some c ∧ c ≠ '.' ∧ c ≠ '@' := by
  cases hparts : p.parts with
  | nil => exact absurd hparts some
  | cons first rest =>
    have member : first ∈ p.parts := by simp [hparts]
    have nonempty := h.nonempty first member
    cases hfirst : first.toList with
    | nil => exact absurd (String.toList_eq_nil_iff.1 hfirst) nonempty
    | cons c cs =>
      refine ⟨c, by rw [head?_intercalate "." nonempty, hfirst]; rfl, ?_, ?_⟩
      · rintro rfl
        exact h.pointless first member (by simp [hfirst])
      · rintro rfl
        exact h.unsigned first (by simp [hparts]) (by simp [hfirst])

theorem Legible.names_ne_climb (h : p.Legible) (some : p.parts ≠ []) :
    ".".intercalate p.parts ≠ ".." := by
  obtain ⟨c, head, point, -⟩ := h.head?_names some
  intro climb
  rw [climb] at head
  exact point (Option.some.inj head).symm

theorem Legible.word_of_mem_parts (h : p.Legible) : ∀ part ∈ p.parts, Word '.' part :=
  fun part hpart => ⟨h.nonempty part hpart, h.pointless part hpart⟩

theorem Legible.word_of_mem_steps (h : p.Legible) : ∀ step ∈ p.steps, Word '/' step := by
  intro step hstep
  rcases List.mem_append.1 hstep with hclimb | hnames
  · obtain ⟨-, rfl⟩ := List.mem_replicate.1 hclimb
    exact ⟨by decide, by decide⟩
  · by_cases none : p.parts = []
    · simp [none] at hnames
    · obtain rfl : step = ".".intercalate p.parts := by simpa [none] using hnames
      refine ⟨fun empty => none ((intercalate_eq_empty_iff h.nonempty).1 empty), fun slash => ?_⟩
      rcases mem_intercalate slash with hpoint | ⟨part, hpart, hslash⟩
      · exact absurd hpoint (by decide)
      · exact h.slashless part hpart hslash

/-- The depth is the number of steps that climb. -/
theorem Legible.count_steps (h : p.Legible) : p.steps.count ".." = p.depth := by
  by_cases none : p.parts = []
  · simp [steps, none]
  · simp [steps, none, List.count_append, h.names_ne_climb none]

/-- Without the mark of data no normal text starts like one. -/
theorem Legible.head?_steps (h : p.Legible) :
    ("/".intercalate p.steps).toList.head? ≠ some '@' := by
  cases hdepth : p.depth with
  | succ n =>
    have climbs : p.steps = ".." :: (List.replicate n ".." ++
        if p.parts = [] then [] else [".".intercalate p.parts]) := by
      simp [steps, hdepth, List.replicate_succ]
    rw [climbs, head?_intercalate "/" (by decide)]
    decide
  | zero =>
    by_cases none : p.parts = []
    · simp [steps, hdepth, none]
    · obtain ⟨c, head, -, unsigned⟩ := h.head?_names none
      have names : "/".intercalate p.steps = ".".intercalate p.parts := by
        simp [steps, hdepth, none]
      rw [names, head]
      exact fun sign => unsigned (Option.some.inj sign)

/-- The mark of data can be told from what stands behind it. -/
theorem sign_inj {data data' : Bool} {text text' : String} (h : text.toList.head? ≠ some '@')
    (h' : text'.toList.head? ≠ some '@')
    (same : (if data then "@" else "") ++ text = (if data' then "@" else "") ++ text') :
    data = data' ∧ text = text' := by
  cases data with
  | false =>
    cases data' with
    | false => exact ⟨rfl, by simpa using same⟩
    | true =>
      have signed : text = "@" ++ text' := by simpa using same
      exact absurd (by simp [signed]) h
  | true =>
    cases data' with
    | false =>
      have signed : text' = "@" ++ text := by simpa using same.symm
      exact absurd (by simp [signed]) h'
    | true => exact ⟨rfl, by simpa using same⟩

theorem Legible.steps_inj (hp : p.Legible) (hq : q.Legible) (same : p.steps = q.steps) :
    p.depth = q.depth ∧ p.parts = q.parts := by
  have depth : p.depth = q.depth := by rw [← hp.count_steps, same, hq.count_steps]
  refine ⟨depth, ?_⟩
  unfold steps at same
  rw [depth] at same
  have names := List.append_cancel_left same
  by_cases noneP : p.parts = []
  · by_cases noneQ : q.parts = []
    · rw [noneP, noneQ]
    · simp [noneP, noneQ] at names
  · by_cases noneQ : q.parts = []
    · simp [noneP, noneQ] at names
    · have joined : ".".intercalate p.parts = ".".intercalate q.parts := by
        simpa [noneP, noneQ] using names
      exact intercalate_inj hp.word_of_mem_parts hq.word_of_mem_parts joined

/-- Two paths with names that can be read have the same normal text only if they are the same but
for the way they were written, and for where. -/
theorem canonical_eq_iff (hp : p.Legible) (hq : q.Legible) :
    p.canonical = q.canonical ↔ p.data = q.data ∧ p.depth = q.depth ∧ p.parts = q.parts := by
  constructor
  · intro same
    rw [canonical_eq_intercalate, canonical_eq_intercalate] at same
    obtain ⟨data, joined⟩ := sign_inj hp.head?_steps hq.head?_steps same
    have steps := intercalate_inj hp.word_of_mem_steps hq.word_of_mem_steps joined
    exact ⟨data, hp.steps_inj hq steps⟩
  · rintro ⟨data, depth, parts⟩
    rw [canonical, canonical, data, depth, parts]

/-- The paths `./../rows/cell` and `../rows.cell`. -/
theorem canonical_eq_rows_cell :
    let p : Path := ⟨false, 1, ["rows", "cell"], "./../rows/cell", ⟨none, ⟨1, 2⟩, ⟨1, 16⟩⟩⟩
    let q : Path := ⟨false, 1, ["rows", "cell"], "../rows.cell", ⟨none, ⟨2, 2⟩, ⟨2, 14⟩⟩⟩
    p.Legible ∧ q.Legible ∧ p.canonical = "../rows.cell" ∧ p.canonical = q.canonical ∧
      p.data = q.data ∧ p.depth = q.depth ∧ p.parts = q.parts := by
  intro p q
  have hp : p.Legible := ⟨by decide, by decide, by decide, by decide⟩
  have hq : q.Legible := ⟨by decide, by decide, by decide, by decide⟩
  have same : p.canonical = q.canonical := by decide
  exact ⟨hp, hq, by decide, same, (canonical_eq_iff hp hq).1 same⟩

/-- A name with a point in it can be taken for two. -/
example :
    let loc : Location := ⟨none, ⟨1, 2⟩, ⟨1, 7⟩⟩
    (⟨false, 0, ["a.b"], "[a.b]", loc⟩ : Path).canonical =
      (⟨false, 0, ["a", "b"], "a.b", loc⟩ : Path).canonical := by decide

end Path

end TemplateTree
