import TemplateTree.Path

/-! What the segments of a path come to, one after the other: what a token stands for, and what one
more segment adds to what has been read. -/
namespace TemplateTree

/-- The token is a name in brackets. -/
def Bracketed (token : String) : Prop := ∃ name, token = "[" ++ name ++ "]"

theorem not_bracketed {token : String} (h : token.toList.getLast? ≠ some ']') :
    ¬ Bracketed token := by
  rintro ⟨name, rfl⟩
  exact h (by simp [List.getLast?_cons])

theorem unbracket_eq_self {token : String} (h : ¬ Bracketed token) : unbracket token = token := by
  unfold unbracket
  split
  next rest heq =>
    have notClosed : rest.getLast? ≠ some ']' := by
      intro hlast
      obtain ⟨name, rfl⟩ := List.getLast?_eq_some_iff.1 hlast
      exact h ⟨String.ofList name, String.toList_inj.1 (by simp [heq])⟩
    rw [if_neg notClosed]
  next => rfl

theorem mem_of_mem_unbracket {token : String} {c : Char} (h : c ∈ (unbracket token).toList) :
    c ∈ token.toList := by
  unfold unbracket at h
  split at h
  next rest heq =>
    rw [heq]
    split at h
    · have hc : c ∈ rest.dropLast := by simpa using h
      exact List.mem_cons_of_mem _ (List.dropLast_subset rest hc)
    · rwa [heq] at h
  next => exact h

/-- The token is one of the words that name a context. -/
def ReferenceWord (token : String) : Prop := token = ".." ∨ token = "." ∨ token = "this"

namespace Segment

variable {separator : Option String} {token : String}

theorem part_ofToken (h : ¬ Bracketed token) : (ofToken separator token).part = token :=
  unbracket_eq_self h

theorem text_ofToken (h : ¬ Bracketed token) :
    (ofToken separator token).text = separator.getD "" ++ token := by
  rw [text, part_ofToken h]
  rfl

theorem isReference_ofToken (h : ¬ Bracketed token) :
    (ofToken separator token).isReference = true ↔ ReferenceWord token := by
  simp [isReference, isLiteral, ofToken, unbracket_eq_self h, ReferenceWord, or_assoc]

end Segment

namespace Path

namespace Progress

variable {p q : Progress} {s : Segment}

theorem step_name (h : s.isReference = false) :
    p.step s = .ok ⟨p.text ++ s.text, p.depth, p.parts ++ [s.part]⟩ := by
  simp [step, h]

/-- A reference is read only while no name has been. -/
theorem step_reference_eq_ok_iff (h : s.isReference = true) : p.step s = .ok q ↔
    p.parts = [] ∧
      q = ⟨p.text ++ s.text, p.depth + if s.part = ".." then 1 else 0, []⟩ := by
  by_cases none : p.parts = []
  · by_cases climbs : s.part = ".." <;> simp [step, h, none, climbs, eq_comm]
  · simp [step, h, none]

theorem text_of_step (h : p.step s = .ok q) : q.text = p.text ++ s.text := by
  cases reference : s.isReference with
  | true =>
    obtain ⟨-, rfl⟩ := (step_reference_eq_ok_iff reference).1 h
    rfl
  | false =>
    rw [step_name reference] at h
    cases h
    rfl

end Progress

variable {data : Bool} {segments before : List Segment} {s : Segment} {loc : Location} {p : Path}

theorem resolve_eq_ok_iff : resolve data segments loc = .ok p ↔ ∃ q,
    segments.foldlM Progress.step (.start data) = .ok q ∧
      p = ⟨data, q.depth, q.parts, q.text, loc⟩ := by
  unfold resolve
  cases segments.foldlM Progress.step (.start data) <;> simp [eq_comm]

theorem resolve_eq_error_iff {e : BuildError} : resolve data segments loc = .error e ↔ ∃ text,
    segments.foldlM Progress.step (.start data) = .error text ∧ e = .invalidPath text loc := by
  unfold resolve
  cases segments.foldlM Progress.step (.start data) <;> simp [eq_comm]

theorem resolve_concat_eq_ok_iff : resolve data (before ++ [s]) loc = .ok p ↔ ∃ q r,
    before.foldlM Progress.step (.start data) = .ok q ∧ q.step s = .ok r ∧
      p = ⟨data, r.depth, r.parts, r.text, loc⟩ := by
  rw [resolve_eq_ok_iff, List.foldlM_append]
  cases before.foldlM Progress.step (.start data) with
  | error text => simp [bind, Except.bind]
  | ok q =>
    cases hstep : q.step s <;> simp [bind, Except.bind, hstep, pure, Except.pure]

end Path

end TemplateTree
