import TemplateTree.Proofs.Block.Classification

/-! When blocks cannot be built, and why. A block and the declaration of a slot's content have two
faults, which are looked for in this order: an else branch behind a decorator, and a closing tag
with another name, where the name is that of the path without its slot. A link of an else chain can
only have the first. Raw blocks and partial blocks have no else branch to be wrong, and their names
are compared as they are written. -/
namespace TemplateTree

/-- The call fails with the errors of `F`, and where there are none it has a result. -/
structure FailsWith {α : Type} (call : Except BuildError α) (F : BuildError → Prop) : Prop where
  error_iff : ∀ e, call = .error e ↔ F e
  ok_iff : (∃ a, call = .ok a) ↔ ∀ e, ¬ F e

/-- The path is closed by another name than its own, and the error says so at the path. -/
def Path.Misclosed (opened : Path) (closed : String) (e : BuildError) : Prop :=
  opened.written ≠ closed ∧ e = .tagMismatch opened.written closed opened.loc

namespace FailsWith

variable {α β : Type} {call : Except BuildError α} {F G : BuildError → Prop}

theorem of_error_iff (h : ∀ e, call = .error e ↔ F e) : FailsWith call F where
  error_iff := h
  ok_iff := by
    cases call with
    | error e => simpa using ⟨e, (h e).1 rfl⟩
    | ok a => simpa using fun e hF => nomatch (h e).2 hF

theorem unlessFault {fault : Option BuildError} {node : α} (h : ∀ e, fault = some e ↔ F e) :
    FailsWith (unlessFault fault node) F := by
  refine of_error_iff fun e => ?_
  rw [← h e]
  cases fault <;> simp [TemplateTree.unlessFault]

/-- What is done with a result adds no errors if it cannot fail. -/
theorem bind_ok (h : FailsWith call F) (f : α → β) :
    FailsWith (call >>= fun a => .ok (f a)) F := by
  refine of_error_iff fun e => ?_
  rw [← h.error_iff e]
  cases call <;> simp [bind, Except.bind]

theorem congr (h : FailsWith call F) (same : ∀ e, F e ↔ G e) : FailsWith call G :=
  of_error_iff fun e => (h.error_iff e).trans (same e)

end FailsWith

theorem Path.closingFault?_eq_some_iff {opened : Path} {closed : String} {e : BuildError} :
    opened.closingFault? closed = some e ↔ opened.Misclosed closed e := by
  unfold closingFault? Misclosed
  split
  next same => simp [same]
  next differs => simp [differs, eq_comm]

theorem OpenTag.isDecorator_iff {tag : OpenTag} :
    tag.isDecorator = true ↔ '*' ∈ tag.opening.toList := by
  simp [isDecorator, Delimiter.isDecorator]

namespace Builder

/-- The name that closes what a tag opens: the text of its path, or what is left of that when a slot
is split off. -/
inductive ClosingName (b : Builder) (tag : OpenTag) : String → Prop where
  | split {name : String} {slot : SlotName} (splits : b.Splits tag name slot) :
      ClosingName b tag name
  | whole (unsplit : ∀ name slot, ¬ b.Splits tag name slot) : ClosingName b tag tag.path.written

/-- What is wrong with a block. The closing tag does not matter to a decorator that has an else
branch. -/
inductive Faulty (b : Builder) (w : WrittenBlock) : BuildError → Prop where
  | inverse {i : Inverse} (decorator : '*' ∈ w.opening.opening.toList)
      (branch : w.inverse = some i) :
      Faulty b w (.inverseOnDecorator (i.program.loc.getD (b.locate w.span)))
  | mismatch {tag : CloseTag} {closed : Path} {name : String}
      (branches : '*' ∈ w.opening.opening.toList → w.inverse = none)
      (closing : w.closing = some tag) (named : tag.path = some closed)
      (closes : b.ClosingName w.opening name) (differs : name ≠ closed.written) :
      Faulty b w (.tagMismatch name closed.written w.opening.path.loc)

variable {b : Builder} {w : WrittenBlock} {tag : OpenTag} {e : BuildError}

/-! ### The fault of a block -/

theorem closingName_iff {name : String} :
    b.ClosingName tag name ↔ (b.target tag).1.written = name := by
  constructor
  · rintro (⟨splits⟩ | ⟨unsplit⟩)
    · rw [target_of_splits splits]
    · rw [target_of_not_splits unsplit]
  · rintro rfl
    rcases target_cases b tag with ⟨name, slot, splits, target⟩ | ⟨unsplit, target⟩
    · rw [target]
      exact .split splits
    · rw [target]
      exact .whole unsplit

/-- Splitting a slot off moves no path. -/
theorem target_loc : (b.target tag).1.loc = tag.path.loc := by
  rcases target_cases b tag with ⟨name, slot, -, target⟩ | ⟨-, target⟩
  · rw [target]
  · rw [target]

theorem blockFault?_of_branch {i : Inverse} (decorator : w.opening.isDecorator = true)
    (branch : w.inverse = some i) :
    b.blockFault? w = some (.inverseOnDecorator (i.program.loc.getD (b.locate w.span))) := by
  simp [blockFault?, decorator, branch]

/-- Unless it is a decorator with an else branch, a block can only be closed by a wrong name. -/
theorem blockFault?_of_branches (branches : w.opening.isDecorator = true → w.inverse = none) :
    b.blockFault? w = some e ↔ ∃ closing ∈ w.closing, ∃ closed ∈ closing.path,
      (b.target w.opening).1.Misclosed closed.written e := by
  have fault : b.blockFault? w = w.closing.bind fun closing => closing.path.bind fun closed =>
      (b.target w.opening).1.closingFault? closed.written := by
    cases decorator : w.opening.isDecorator with
    | false =>
      simp only [blockFault?, decorator, bind, CloseTag.name?, Option.bind_map]
      rfl
    | true =>
      have alone := branches decorator
      simp only [blockFault?, decorator, alone, bind, CloseTag.name?, Option.bind_map]
      rfl
  simp [fault, Option.bind_eq_some_iff, Path.closingFault?_eq_some_iff]

theorem blockFault?_eq_some_iff : b.blockFault? w = some e ↔ b.Faulty w e := by
  constructor
  · intro h
    by_cases branches : w.opening.isDecorator = true → w.inverse = none
    · obtain ⟨closing, hclosing, closed, hclosed, differs, rfl⟩ :=
        (blockFault?_of_branches branches).1 h
      rw [target_loc]
      exact .mismatch (fun star => branches (OpenTag.isDecorator_iff.2 star)) hclosing hclosed
        (closingName_iff.2 rfl) differs
    · obtain ⟨decorator, branch⟩ := Classical.not_imp.1 branches
      obtain ⟨i, hi⟩ := Option.ne_none_iff_exists'.1 branch
      rw [blockFault?_of_branch decorator hi] at h
      obtain rfl := Option.some.inj h
      exact .inverse (OpenTag.isDecorator_iff.1 decorator) hi
  · rintro (⟨star, branch⟩ | ⟨branches, hclosing, hclosed, closes, differs⟩)
    · exact blockFault?_of_branch (OpenTag.isDecorator_iff.2 star) branch
    · obtain rfl := closingName_iff.1 closes
      have branches : w.opening.isDecorator = true → w.inverse = none :=
        fun decorator => branches (OpenTag.isDecorator_iff.1 decorator)
      refine (blockFault?_of_branches branches).2 ⟨_, hclosing, _, hclosed, differs, ?_⟩
      rw [target_loc]

/-- A link is closed by the tag behind it, which has no name to compare. -/
theorem faulty_writtenLink_iff {opening : OpenTag} {body : Program} {next : Option Inverse}
    {span : Span} : b.Faulty (writtenLink opening body next span) e ↔
      '*' ∈ opening.opening.toList ∧ ∃ i ∈ next,
        e = .inverseOnDecorator (i.program.loc.getD (b.locate span)) := by
  constructor
  · rintro (⟨star, branch⟩ | ⟨-, hclosing, hclosed, -, -⟩)
    · exact ⟨star, _, branch, rfl⟩
    · obtain ⟨i, -, rfl⟩ := Option.map_eq_some_iff.1 hclosing
      cases hclosed
  · rintro ⟨star, i, hi, rfl⟩
    exact .inverse star hi

/-! ### The calls that assemble blocks -/

/-- A block and the declaration of a slot's content have the same faults. -/
theorem failsWith_assembled (named : Bool) :
    FailsWith (if named then b.namedBlockSlot w else b.block w) (b.Faulty w) := by
  cases named with
  | false => exact .unlessFault fun _ => blockFault?_eq_some_iff
  | true => exact .unlessFault fun _ => blockFault?_eq_some_iff

theorem failsWith_chainLink (named : Bool) (opening : OpenTag) (body : Program)
    (next : Option Inverse) (span : Span) :
    FailsWith (b.chainLink named opening body next span) fun e =>
      '*' ∈ opening.opening.toList ∧ ∃ i ∈ next,
        e = .inverseOnDecorator (i.program.loc.getD (b.locate span)) := by
  rw [chainLink_eq_bind]
  exact ((failsWith_assembled named).bind_ok _).congr fun _ => faulty_writtenLink_iff

/-- Each way to assemble a block fails with the faults named here, and whenever there are none it
gives a result. Links never have a wrong name. A partial block whose closing tag has no name is
closed by the empty one. -/
theorem blocks_failWith (b : Builder) :
    (∀ w, FailsWith (b.block w) (b.Faulty w) ∧ FailsWith (b.namedBlockSlot w) (b.Faulty w)) ∧
    (∀ named opening body next span,
      FailsWith (b.chainLink named opening body next span) fun e =>
        '*' ∈ opening.opening.toList ∧ ∃ i ∈ next,
          e = .inverseOnDecorator (i.program.loc.getD (b.locate span))) ∧
    (∀ opening contents closed span,
      FailsWith (b.rawBlock opening contents closed span) (opening.path.Misclosed closed)) ∧
    ∀ opening body closing span, FailsWith (b.partialBlock opening body closing span)
      (opening.path.Misclosed ((closing.path.map (·.written)).getD "")) := by
  refine ⟨?_, failsWith_chainLink, ?_, ?_⟩
  · intro w
    exact ⟨failsWith_assembled false, failsWith_assembled true⟩
  · intro opening contents closed span
    exact .unlessFault fun _ => Path.closingFault?_eq_some_iff
  · intro opening body closing span
    exact .unlessFault fun _ => Path.closingFault?_eq_some_iff

/-- The block `{{#list::rows}}{{/list::rows}}` has to be closed without its slot. -/
example :
    let loc : Location := ⟨none, ⟨1, 3⟩, ⟨1, 13⟩⟩
    let path : Path := ⟨false, 0, ["list::rows"], "list::rows", loc⟩
    (ofOptions {}).block ⟨⟨path, ⟨[], none⟩, none, {}, "\x7b\x7b#"⟩, .ofBody [] none, none,
      some ⟨some path, {}⟩, false, ⟨⟨1, 0⟩, ⟨1, 30⟩⟩⟩ =
      .error (.tagMismatch "list" "list::rows" loc) := by rfl

end Builder

end TemplateTree
