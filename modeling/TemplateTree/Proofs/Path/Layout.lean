import TemplateTree.Proofs.Path.Canonical
import TemplateTree.Proofs.Path.References

/-! The segments that a normal text is written with: the climb with slashes between, and behind it
the names with points between. They are resolved to the depth and the names that they were laid out
from, and their text is the normal text of the path. So every path can be written again in normal
form. -/
namespace TemplateTree

namespace Segment

/-- The segments in a row, the first of them behind `lead` and all others behind `mark`. -/
def separate (lead : Option String) (mark : String) : List Segment → List Segment
  | [] => []
  | s :: rest => { s with separator := lead } :: rest.map fun t => { t with separator := some mark }

variable {lead : Option String} {mark : String} {segments : List Segment} {t : Segment}

theorem length_separate : (separate lead mark segments).length = segments.length := by
  cases segments <;> simp [separate]

theorem map_part_separate :
    (separate lead mark segments).map (·.part) = segments.map (·.part) := by
  cases segments <;> simp [separate]

/-- Separators have no say in what a segment is. -/
theorem exists_of_mem_separate (h : t ∈ separate lead mark segments) :
    ∃ s ∈ segments, t.part = s.part ∧ (t.Refers ↔ s.Refers) := by
  cases segments with
  | nil => cases h
  | cons s rest =>
    rcases List.mem_cons.1 h with rfl | hrest
    · exact ⟨s, by simp, rfl, .rfl⟩
    · obtain ⟨u, hu, rfl⟩ := List.mem_map.1 hrest
      exact ⟨u, List.mem_cons_of_mem _ hu, rfl, .rfl⟩

theorem join_separate (unled : segments = [] → lead = none) :
    String.join ((separate lead mark segments).map text) =
      lead.getD "" ++ mark.intercalate (segments.map (·.part)) := by
  cases segments with
  | nil => simp [separate, unled rfl]
  | cons s rest =>
    simp [separate, text, Path.intercalate_cons, String.append_assoc, Function.comp_def]

/-- References followed by names are in order. -/
theorem referencesFirst_append {references names : List Segment}
    (refer : ∀ s ∈ references, s.Refers) (kept : ∀ s ∈ names, ¬ s.Refers) :
    ReferencesFirst (references ++ names) := by
  refine List.pairwise_append.2 ⟨?_, ?_, ?_⟩
  · exact List.pairwise_of_forall_mem_list fun s hs _ _ _ => refer s hs
  · exact List.pairwise_of_forall_mem_list fun _ _ t ht reference => absurd reference (kept t ht)
  · exact fun s hs _ _ _ => refer s hs

end Segment

namespace Path

open Segment

/-- The segments of a normal text that climbs to a depth and goes on with names: a slash stands in
front of the first name if there is a climb. -/
def layout (depth : Nat) (names : List Segment) : List Segment :=
  separate none "/" (List.replicate depth (.ofToken none "..")) ++
    separate (if depth = 0 then none else some "/") "." names

/-- Segments that all climb, and names behind them, come to the climb and the names. -/
theorem Progress.ofSegments_append {data : Bool} {climb names : List Segment}
    (climbs : ∀ s ∈ climb, s.Refers ∧ s.part = "..") (kept : ∀ s ∈ names, ¬ s.Refers) :
    Progress.ofSegments data (climb ++ names) =
      ⟨textOf data (climb ++ names), climb.length, names.map (·.part)⟩ := by
  have depth : (climb ++ names).countP (fun s => s.Refers ∧ s.part = "..") = climb.length := by
    rw [List.countP_append, List.countP_eq_length.2 (by simpa using climbs),
      List.countP_eq_zero.2 (by simpa using fun s hs h => absurd h (kept s hs)), Nat.add_zero]
  have parts : (climb ++ names).filter (fun s => ¬ s.Refers) = names := by
    rw [List.filter_append, List.filter_eq_nil_iff.2 (by simpa using fun s hs => (climbs s hs).1),
      List.filter_eq_self.2 (by simpa using kept), List.nil_append]
  rw [Progress.ofSegments, depth, parts]

theorem part_climb : (ofToken none "..").part = ".." := by rfl

theorem refers_climb : (ofToken none "..").Refers := refers_ofToken_iff.2 (.inl rfl)

theorem textOf_layout (p : Path) {names : List Segment} (parts : names.map (·.part) = p.parts) :
    textOf p.data (layout p.depth names) = p.canonical := by
  rw [canonical_eq_intercalate, textOf, layout, List.map_append, String.join_append, steps,
    join_separate fun _ => rfl, List.map_replicate, part_climb]
  by_cases none : names = []
  · simp [none, ← parts, separate]
  · have some : p.parts ≠ [] := by simpa [← parts] using none
    rw [join_separate fun h => absurd h none, parts, if_neg some]
    cases p.depth with
    | zero => simp
    | succ n =>
      rw [String.intercalate_append_of_ne_nil (by simp) (by simp)]
      simp [String.append_assoc]

/-- What is laid out is resolved again, to a path whose text is its normal text. -/
theorem resolve_layout (p : Path) {names : List Segment} (kept : ∀ s ∈ names, ¬ s.Refers)
    (parts : names.map (·.part) = p.parts) (loc : Location) :
    resolve p.data (layout p.depth names) loc =
      .ok { p with written := p.canonical, loc := loc } := by
  have climbs : ∀ s ∈ separate none "/" (List.replicate p.depth (.ofToken none "..")),
      s.Refers ∧ s.part = ".." := by
    intro s hs
    obtain ⟨t, ht, part, refers⟩ := exists_of_mem_separate hs
    obtain ⟨-, rfl⟩ := List.mem_replicate.1 ht
    exact ⟨refers.2 refers_climb, part.trans part_climb⟩
  have keeps : ∀ s ∈ separate (if p.depth = 0 then none else some "/") "." names,
      ¬ s.Refers := by
    intro s hs
    obtain ⟨t, ht, -, refers⟩ := exists_of_mem_separate hs
    rw [refers]
    exact kept t ht
  have read : Progress.ofSegments p.data (layout p.depth names) =
      ⟨p.canonical, p.depth, p.parts⟩ := by
    rw [layout, Progress.ofSegments_append climbs keeps, ← layout, textOf_layout p parts,
      length_separate, List.length_replicate, map_part_separate, parts]
  refine resolve_eq_ok_iff.2 ⟨_, Progress.foldlM_eq_ok_iff.2 ⟨?_, rfl⟩, ?_⟩
  · exact referencesFirst_append (fun s hs => (climbs s hs).1) keeps
  · rw [read]

end Path

namespace Builder

open Segment

/-- However far a path climbs and whatever names it has, its normal text is what its layout is read
as: with any segments that are kept as names, and so for each path there is, whichever way it was
written, with its names in brackets. -/
theorem path_layout (b : Builder) (span : Span) :
    (∀ data depth names, (∀ s ∈ names, ¬ s.Refers) →
      ∃ p, b.path data (Path.layout depth names) span = .ok p ∧ p.data = data ∧ p.depth = depth ∧
        p.parts = names.map (·.part) ∧ p.canonical = p.written) ∧
    ∀ p : Path, b.path p.data
        (Path.layout p.depth (p.parts.map fun part => .ofToken none ("[" ++ part ++ "]"))) span =
      .ok { p with written := p.canonical, loc := b.locate span } := by
  constructor
  · intro data depth names kept
    exact ⟨_, Path.resolve_layout ⟨data, depth, names.map (·.part), "", b.locate span⟩ kept rfl _,
      rfl, rfl, rfl, rfl⟩
  · intro p
    refine Path.resolve_layout p ?_ ?_ _
    · intro s hs
      obtain ⟨part, -, rfl⟩ := List.mem_map.1 hs
      exact (ofToken_bracketed part).2
    · simp [Function.comp_def, ofToken_bracketed]

/-- The path `../../[..].rows`, whose first name is spelled like a reference. -/
theorem path_layout_rows :
    let names : List Segment := [.ofToken none "[..]", .ofToken none "rows"]
    let segments : List Segment := [.ofToken none "..", .ofToken (some "/") "..",
      .ofToken (some "/") "[..]", .ofToken (some ".") "rows"]
    (∀ s ∈ names, ¬ s.Refers) ∧ Path.layout 2 names = segments ∧
      ∃ p, (ofOptions {}).path false segments ⟨⟨1, 2⟩, ⟨1, 17⟩⟩ = .ok p ∧ p.depth = 2 ∧
        p.parts = ["..", "rows"] ∧ p.canonical = p.written ∧ p.written = "../../...rows" := by
  intro names segments
  have kept : ∀ s ∈ names, ¬ s.Refers := by decide
  have laid : Path.layout 2 names = segments := by rfl
  obtain ⟨p, built, data, depth, parts, same⟩ :=
    (path_layout (ofOptions {}) ⟨⟨1, 2⟩, ⟨1, 17⟩⟩).1 false 2 names kept
  have text : p.canonical = "../../...rows" := by
    rw [Path.canonical, data, depth, parts]
    decide
  exact ⟨kept, laid, p, by rw [← laid, built], depth, parts, same, same ▸ text⟩

end Builder

end TemplateTree
