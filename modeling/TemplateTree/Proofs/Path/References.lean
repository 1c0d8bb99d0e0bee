import Mathlib.Data.List.Induction
import TemplateTree.Builder
import TemplateTree.Proofs.Path.Resolution

/-! Which segments make a path, and which path they make. Both are said here of the list of segments
as a whole: its references have to stand before its names, and the path has what the segments come
to together. Reading them one after the other is then shown to give just that, and to stop at the
first reference that is out of place. -/
namespace TemplateTree

theorem unbracket_bracketed (name : String) : unbracket ("[" ++ name ++ "]") = name := by
  simp [unbracket]

namespace Segment

/-- The segment is a word for a context, and it was written without brackets. -/
def Refers (s : Segment) : Prop := s.part = s.written ∧ ReferenceWord s.part

theorem isReference_iff {s : Segment} : s.isReference = true ↔ s.Refers := by
  have written : s.written = s.part ↔ s.part = s.written := eq_comm
  simp [isReference, isLiteral, Refers, ReferenceWord, or_assoc, written]

instance : DecidablePred Refers := fun _ => decidable_of_iff _ isReference_iff

/-- No reference stands behind a name. -/
def ReferencesFirst (segments : List Segment) : Prop :=
  segments.Pairwise fun s t => t.Refers → s.Refers

/-- The text of a list of segments, behind the mark of data. -/
def textOf (data : Bool) (segments : List Segment) : String :=
  (if data then "@" else "") ++ String.join (segments.map text)

variable {before segments : List Segment} {s : Segment} {separator : Option String}

theorem textOf_concat (data : Bool) :
    textOf data (before ++ [s]) = textOf data before ++ s.text := by
  simp [textOf, String.append_assoc]

/-! ### Segments of tokens -/

/-- Brackets make a name of whatever stands in them. -/
theorem ofToken_bracketed (name : String) :
    (ofToken separator ("[" ++ name ++ "]")).part = name ∧
      ¬ (ofToken separator ("[" ++ name ++ "]")).Refers := by
  have part : (ofToken separator ("[" ++ name ++ "]")).part = name := unbracket_bracketed name
  refine ⟨part, ?_⟩
  rintro ⟨same, -⟩
  have length : name.length = ("[" ++ name ++ "]").length :=
    congrArg String.length (part.symm.trans same)
  simp only [String.length_append] at length
  have bracket : "[".length = 1 := rfl
  omega

theorem refers_ofToken_iff {token : String} :
    (ofToken separator token).Refers ↔ ReferenceWord token := by
  by_cases bracketed : Bracketed token
  · obtain ⟨name, rfl⟩ := bracketed
    have word : ¬ ReferenceWord ("[" ++ name ++ "]") := by
      rintro (h | h | h) <;> simpa using congrArg String.toList h
    exact iff_of_false (ofToken_bracketed name).2 word
  · rw [← isReference_iff, isReference_ofToken bracketed]

/-! ### References in front -/

theorem referencesFirst_nil : ReferencesFirst [] := .nil

theorem referencesFirst_concat_iff : ReferencesFirst (before ++ [s]) ↔
    ReferencesFirst before ∧ (s.Refers → ∀ t ∈ before, t.Refers) := by
  have swap : (∀ t ∈ before, s.Refers → t.Refers) ↔ (s.Refers → ∀ t ∈ before, t.Refers) :=
    ⟨fun h hs t ht => h t ht hs, fun h t ht hs => h hs t ht⟩
  simp [ReferencesFirst, List.pairwise_append, swap]

/-- Where the order is wrong, there is a first place at which it is. -/
theorem exists_misplaced (h : ¬ ReferencesFirst segments) :
    ∃ before s after, segments = before ++ s :: after ∧ ReferencesFirst before ∧ s.Refers ∧
      ∃ t ∈ before, ¬ t.Refers := by
  induction segments using List.reverseRecOn with
  | nil => exact absurd referencesFirst_nil h
  | append_singleton before s ih =>
    by_cases first : ReferencesFirst before
    · refine ⟨before, s, [], rfl, first, ?_⟩
      simpa [referencesFirst_concat_iff, first] using h
    · obtain ⟨before', s', after, rfl, misplaced⟩ := ih first
      exact ⟨before', s', after ++ [s], by simp, misplaced⟩

end Segment

namespace Path

open Segment

namespace Progress

variable {data : Bool} {before segments after : List Segment} {s : Segment} {q : Progress}

/-- What has been read when all segments of a list have. -/
def ofSegments (data : Bool) (segments : List Segment) : Progress where
  text := textOf data segments
  depth := segments.countP fun s => s.Refers ∧ s.part = ".."
  parts := (segments.filter fun s => ¬ s.Refers).map (·.part)

theorem ofSegments_nil : ofSegments data [] = start data := by
  simp [ofSegments, start, textOf]

theorem ofSegments_name (name : ¬ s.Refers) : ofSegments data (before ++ [s]) =
    ⟨(ofSegments data before).text ++ s.text, (ofSegments data before).depth,
      (ofSegments data before).parts ++ [s.part]⟩ := by
  simp [ofSegments, textOf_concat, name]

theorem ofSegments_reference (reference : s.Refers) : ofSegments data (before ++ [s]) =
    ⟨(ofSegments data before).text ++ s.text,
      (ofSegments data before).depth + if s.part = ".." then 1 else 0,
      (ofSegments data before).parts⟩ := by
  simp [ofSegments, textOf_concat, reference, List.countP_singleton]

theorem parts_ofSegments_eq_nil_iff :
    (ofSegments data segments).parts = [] ↔ ∀ s ∈ segments, s.Refers := by
  simp [ofSegments]

/-- One more segment is read unless it is a reference behind a name. -/
theorem step_ofSegments_eq_ok_iff : (ofSegments data before).step s = .ok q ↔
    (s.Refers → ∀ t ∈ before, t.Refers) ∧ q = ofSegments data (before ++ [s]) := by
  have none_iff : (ofSegments data before).parts = [] ↔ ∀ t ∈ before, t.Refers :=
    parts_ofSegments_eq_nil_iff
  by_cases reference : s.Refers
  · rw [step_reference_eq_ok_iff (isReference_iff.2 reference), ofSegments_reference reference,
      ← none_iff]
    constructor
    · rintro ⟨none, rfl⟩
      exact ⟨fun _ => none, by rw [none]⟩
    · rintro ⟨none, rfl⟩
      exact ⟨none reference, by rw [none reference]⟩
  · have name : s.isReference = false := by
      rwa [← Bool.not_eq_true, isReference_iff]
    rw [step_name name, ofSegments_name reference]
    simp [reference, eq_comm]

theorem step_ofSegments_eq_error (reference : s.Refers) (behind : ∃ t ∈ before, ¬ t.Refers) :
    (ofSegments data before).step s = .error (textOf data (before ++ [s])) := by
  have some : (ofSegments data before).parts ≠ [] := by
    rw [ne_eq, parts_ofSegments_eq_nil_iff]
    simpa using behind
  simp only [step, isReference_iff.2 reference, if_true, if_neg some, textOf_concat]
  rfl

theorem foldlM_eq_ok_iff : segments.foldlM step (start data) = .ok q ↔
    ReferencesFirst segments ∧ q = ofSegments data segments := by
  induction segments using List.reverseRecOn generalizing q with
  | nil => simp [referencesFirst_nil, ofSegments_nil, pure, Except.pure, eq_comm]
  | append_singleton before s ih =>
    rw [referencesFirst_concat_iff, and_assoc, ← step_ofSegments_eq_ok_iff, List.foldlM_append]
    cases hbefore : before.foldlM step (start data) with
    | error text =>
      have misplaced : ¬ ReferencesFirst before := fun first => by
        simpa [hbefore] using ih.2 ⟨first, rfl⟩
      simp [misplaced, bind, Except.bind]
    | ok r =>
      obtain ⟨first, rfl⟩ := ih.1 hbefore
      simp only [first, true_and, List.foldlM_cons, List.foldlM_nil, bind_pure]
      rfl

/-- Reading stops at a reference behind a name, whatever stands behind the reference. -/
theorem foldlM_eq_error (first : ReferencesFirst before) (reference : s.Refers)
    (behind : ∃ t ∈ before, ¬ t.Refers) :
    (before ++ s :: after).foldlM step (start data) = .error (textOf data (before ++ [s])) := by
  rw [List.foldlM_append, foldlM_eq_ok_iff.2 ⟨first, rfl⟩]
  show (s :: after).foldlM step (ofSegments data before) = _
  rw [List.foldlM_cons, step_ofSegments_eq_error reference behind]
  rfl

theorem foldlM_eq_error_iff {text : String} : segments.foldlM step (start data) = .error text ↔
    ∃ before s after, segments = before ++ s :: after ∧ ReferencesFirst before ∧ s.Refers ∧
      (∃ t ∈ before, ¬ t.Refers) ∧ text = textOf data (before ++ [s]) := by
  constructor
  · intro h
    have misplaced : ¬ ReferencesFirst segments := by
      intro first
      have read : segments.foldlM step (start data) = .ok _ := foldlM_eq_ok_iff.2 ⟨first, rfl⟩
      rw [h] at read
      cases read
    obtain ⟨before, s, after, rfl, first, reference, behind⟩ := exists_misplaced misplaced
    rw [foldlM_eq_error first reference behind] at h
    exact ⟨before, s, after, rfl, first, reference, behind, (Except.error.inj h).symm⟩
  · rintro ⟨before, s, after, rfl, first, reference, behind, rfl⟩
    exact foldlM_eq_error first reference behind

end Progress

/-- The text of a path is the mark of data and the texts of its segments. -/
theorem written_of_resolve {data : Bool} {segments : List Segment} {loc : Location} {p : Path}
    (h : resolve data segments loc = .ok p) : p.written = textOf data segments := by
  obtain ⟨q, hq, rfl⟩ := resolve_eq_ok_iff.1 h
  obtain ⟨-, rfl⟩ := Progress.foldlM_eq_ok_iff.1 hq
  rfl

end Path

namespace Builder

open Segment

/-- Segments make a path if no reference stands behind a name, and there is one path that they make.
If they make none, the fault is the first reference that is out of place: the text of the error ends
with it, so that what stands behind it does not matter. What is a reference is a matter of the part,
except that brackets make a name of whatever stands in them. -/
theorem path_of_segments (b : Builder) (data : Bool) (segments : List Segment) (span : Span) :
    (∀ p, b.path data segments span = .ok p ↔ ReferencesFirst segments ∧
      p = ⟨data, segments.countP fun s => s.Refers ∧ s.part = "..",
        (segments.filter fun s => ¬ s.Refers).map (·.part), textOf data segments,
        b.locate span⟩) ∧
    (∀ e, b.path data segments span = .error e ↔ ∃ before s after,
      segments = before ++ s :: after ∧ ReferencesFirst before ∧ s.Refers ∧
        (∃ t ∈ before, ¬ t.Refers) ∧
        e = .invalidPath (textOf data (before ++ [s])) (b.locate span)) ∧
    (∀ separator name, (ofToken separator ("[" ++ name ++ "]")).part = name ∧
      ¬ (ofToken separator ("[" ++ name ++ "]")).Refers) ∧
    ∀ separator token, ((ofToken separator token).Refers ↔ ReferenceWord token) ∧
      (Bracketed token ∨ (ofToken separator token).part = token) := by
  refine ⟨?_, ?_, fun _ => ofToken_bracketed, ?_⟩
  · intro p
    simp only [path, Path.resolve_eq_ok_iff, Path.Progress.foldlM_eq_ok_iff, and_assoc,
      exists_and_left, exists_eq_left]
    rfl
  · intro e
    constructor
    · intro h
      obtain ⟨text, stopped, rfl⟩ := Path.resolve_eq_error_iff.1 h
      obtain ⟨before, s, after, whole, first, reference, behind, rfl⟩ :=
        Path.Progress.foldlM_eq_error_iff.1 stopped
      exact ⟨before, s, after, whole, first, reference, behind, rfl⟩
    · rintro ⟨before, s, after, whole, first, reference, behind, rfl⟩
      refine Path.resolve_eq_error_iff.2 ⟨_, ?_, rfl⟩
      exact Path.Progress.foldlM_eq_error_iff.2
        ⟨before, s, after, whole, first, reference, behind, rfl⟩
  · intro separator token
    refine ⟨refers_ofToken_iff, ?_⟩
    by_cases bracketed : Bracketed token
    · exact .inl bracketed
    · exact .inr (part_ofToken bracketed)

/-- In `a/[..]/../b` the first `..` is a name, and the second stands behind names. -/
example :
    let loc : Location := ⟨none, ⟨1, 2⟩, ⟨1, 13⟩⟩
    (ofOptions {}).path false [.ofToken none "a", .ofToken (some "/") "[..]",
      .ofToken (some "/") "..", .ofToken (some "/") "b"] ⟨loc.start, loc.stop⟩ =
      .error (.invalidPath "a/../.." loc) := by rfl

end Builder

end TemplateTree
