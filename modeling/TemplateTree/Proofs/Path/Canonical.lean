import TemplateTree.Path
import TemplateTree.Proofs.Slot.Suffix

/-! The normal text of a path, taken apart at its slashes and at its last name: what stands before
that name, and where separators can stand in it. -/
namespace TemplateTree

namespace SlotSuffix

/-- A text behind another one decides how both end, unless it is empty. -/
theorem apart_append {x y : String} (hx : x.toList.getLast? ≠ some ':')
    (hy : y.toList.getLast? ≠ some ':') : (x ++ y).toList.getLast? ≠ some ':' := by
  rw [String.toList_append, List.getLast?_append]
  cases h : y.toList.getLast? with
  | none => exact hx
  | some c =>
    rw [h] at hy
    exact hy

section Joined

variable {mark : String} (nonempty : mark ≠ "") (free : ':' ∉ mark.toList)
include nonempty free

/-- A name with a mark behind it does not end in half a separator. -/
theorem marked_apart (name : String) : (name ++ mark).toList.getLast? ≠ some ':' := by
  rw [String.toList_append, List.getLast?_append]
  cases h : mark.toList.getLast? with
  | none => exact absurd (by simpa using h) nonempty
  | some c =>
    rintro ⟨⟩
    exact free (List.mem_of_getLast? h)

theorem joined_apart (names : List String) :
    (String.join (names.map (· ++ mark))).toList.getLast? ≠ some ':' := by
  induction names with
  | nil => simp
  | cons name rest ih =>
    rw [List.map_cons, String.join_cons]
    exact apart_append (marked_apart nonempty free name) ih

/-- Marks make no separators: what is joined has one where a name has one. -/
theorem occurs_joined_iff (names : List String) :
    Occurs (String.join (names.map (· ++ mark))) ↔ ∃ name ∈ names, Occurs name := by
  induction names with
  | nil => simp [Occurs]
  | cons name rest ih =>
    have noHead : mark.toList.head? ≠ some ':' := fun hhead => free (List.mem_of_head? hhead)
    have marked : Occurs (name ++ mark) ↔ Occurs name := by
      have unmarked : ¬ Occurs mark := fun occurs => free occurs.mem
      unfold Occurs at unmarked ⊢
      rw [String.toList_append, separator_append_iff]
      simp [unmarked, noHead]
    rw [List.map_cons, String.join_cons, occurs_append_iff (marked_apart nonempty free name),
      marked, ih]
    simp

end Joined

end SlotSuffix

namespace Path

/-- The normal text up to the last name: the mark of data, the climb, and the names before it. -/
def lead (data : Bool) (depth : Nat) (init : List String) : String :=
  (if data then "@" else "") ++ String.join ((List.replicate depth "..").map (· ++ "/")) ++
    String.join (init.map (· ++ "."))

theorem intercalate_concat (mark : String) (init : List String) (last : String) :
    mark.intercalate (init ++ [last]) = String.join (init.map (· ++ mark)) ++ last := by
  induction init with
  | nil => simp
  | cons name rest ih =>
    rw [List.cons_append, String.intercalate_cons_of_ne_nil (by simp), ih]
    simp [String.append_assoc]

theorem intercalate_cons (mark first : String) (rest : List String) :
    mark.intercalate (first :: rest) = first ++ String.join (rest.map (mark ++ ·)) := by
  induction rest generalizing first with
  | nil => simp
  | cons name rest ih => simp [ih, String.append_assoc]

/-- What stands between the slashes of a normal text: a `..` for each context that is climbed, and
behind them the names, joined by points, if there are any. -/
def steps (p : Path) : List String :=
  List.replicate p.depth ".." ++ if p.parts = [] then [] else [".".intercalate p.parts]

theorem canonical_eq_intercalate (p : Path) :
    p.canonical = (if p.data then "@" else "") ++ "/".intercalate p.steps := by
  by_cases none : p.parts = []
  · simp [canonical, steps, none]
  · simp [canonical, steps, none, intercalate_concat, String.append_assoc]

theorem canonical_eq_lead {p : Path} {init : List String} {last : String}
    (parts : p.parts = init ++ [last]) : p.canonical = lead p.data p.depth init ++ last := by
  simp [canonical, lead, parts, intercalate_concat, String.append_assoc]

variable (data : Bool) (depth : Nat) (init : List String)

theorem sigil_apart : (if data then "@" else "").toList.getLast? ≠ some ':' := by
  cases data <;> decide

theorem climb_apart :
    (String.join ((List.replicate depth "..").map (· ++ "/"))).toList.getLast? ≠ some ':' :=
  SlotSuffix.joined_apart (by decide) (by decide) _

theorem lead_apart : (lead data depth init).toList.getLast? ≠ some ':' := by
  have front := SlotSuffix.apart_append (sigil_apart data) (climb_apart depth)
  have names := SlotSuffix.joined_apart (by decide : "." ≠ "") (by decide) init
  exact SlotSuffix.apart_append front names

theorem occurs_lead_iff :
    SlotSuffix.Occurs (lead data depth init) ↔ ∃ name ∈ init, SlotSuffix.Occurs name := by
  have noSigil : ¬ SlotSuffix.Occurs (if data then "@" else "") := by
    cases data <;> decide
  have noClimb : ¬ ∃ name ∈ List.replicate depth "..", SlotSuffix.Occurs name := by
    rintro ⟨name, hname, occurs⟩
    obtain ⟨-, rfl⟩ := List.mem_replicate.1 hname
    exact absurd occurs (by decide)
  unfold lead
  rw [SlotSuffix.occurs_append_iff (SlotSuffix.apart_append (sigil_apart data) (climb_apart depth)),
    SlotSuffix.occurs_append_iff (sigil_apart data),
    SlotSuffix.occurs_joined_iff (by decide) (by decide),
    SlotSuffix.occurs_joined_iff (by decide) (by decide)]
  simp only [noSigil, noClimb, false_or]

/-- A path without names has no separator in its normal text. -/
theorem not_occurs_canonical {p : Path} (none : p.parts = []) :
    ¬ SlotSuffix.Occurs p.canonical := by
  cases h : p.depth with
  | zero =>
    have sigil : p.canonical = if p.data then "@" else "" := by simp [canonical, none, h]
    rw [sigil]
    cases p.data <;> decide
  | succ n =>
    have climb : p.canonical = lead p.data n [] ++ ".." := by
      simp [canonical, none, h, List.replicate_succ', intercalate_concat, lead, String.append_assoc]
    rw [climb, SlotSuffix.occurs_append_iff (lead_apart p.data n []), occurs_lead_iff]
    rintro (⟨name, hname, -⟩ | occurs)
    · cases hname
    · exact absurd occurs (by decide)

end Path

end TemplateTree
