import TemplateTree.Builder

/-! What block assembly gives, one statement for each way to assemble a block: when it succeeds,
and the node that it then gives. -/
namespace TemplateTree

theorem unlessFault_eq_ok_iff {α : Type} {fault : Option BuildError} {node a : α} :
    unlessFault fault node = .ok a ↔ fault = none ∧ node = a := by
  cases fault <;> simp [unlessFault]

/-- The body as the block around it has it, with the names of the opening tag. -/
def WrittenBlock.ownBody (w : WrittenBlock) : Program :=
  { w.body with blockParams := w.opening.blockParams }

namespace Builder

variable {b : Builder} {w : WrittenBlock}

/-- A block that is no decorator has no fault if its closing tag, should it name anything, names
the path of the block. -/
theorem blockFault?_eq_none (plain : w.opening.isDecorator = false)
    (closes : ∀ name ∈ w.closing.bind (·.name?), (b.target w.opening).1.written = name) :
    b.blockFault? w = none := by
  have fault : b.blockFault? w =
      (w.closing.bind (·.name?)).bind (b.target w.opening).1.closingFault? := by
    cases h : w.closing <;> simp [blockFault?, plain, h]
  rw [fault]
  cases h : w.closing.bind (·.name?) with
  | none => rfl
  | some name =>
    have same := closes name h
    simp [Path.closingFault?, same]

/-- A decorator that has no fault has no else branch. -/
theorem inverse_eq_none_of_decorator (noFault : b.blockFault? w = none)
    (decorator : w.opening.isDecorator = true) : w.inverse = none := by
  cases h : w.inverse with
  | none => rfl
  | some i => simp [blockFault?, decorator, h] at noFault

theorem block_eq_ok_iff {s : Statement} :
    b.block w = .ok s ↔ b.blockFault? w = none ∧
      .block (if w.opening.isDecorator then .decorator else .plain) (b.blockNode w) = s :=
  unlessFault_eq_ok_iff

/-- A block that is no decorator is assembled if its closing tag does not name something else. -/
theorem block_eq_plain (plain : w.opening.isDecorator = false)
    (closes : ∀ name ∈ w.closing.bind (·.name?), (b.target w.opening).1.written = name) :
    b.block w = .ok (.block .plain (b.blockNode w)) := by
  refine block_eq_ok_iff.2 ⟨blockFault?_eq_none plain closes, ?_⟩
  rw [plain]
  rfl

theorem namedBlockSlot_eq_ok_iff {s : Statement} :
    b.namedBlockSlot w = .ok s ↔ b.blockFault? w = none ∧
      .block .namedSlot { b.blockNode w with
        slot := ⟨(b.blockNode w).path.written⟩, args := ⟨[], none⟩ } = s :=
  unlessFault_eq_ok_iff

/-- The block that a link is written as. -/
def writtenLink (opening : OpenTag) (body : Program) (next : Option Inverse) (span : Span) :
    WrittenBlock :=
  ⟨opening, body, next, next.map fun inverse => ⟨none, inverse.strip⟩, false, span⟩

/-- A link is built as the block that it is written as, and then wrapped up. -/
theorem chainLink_eq_bind (named : Bool) (opening : OpenTag) (body : Program)
    (next : Option Inverse) (span : Span) :
    b.chainLink named opening body next span =
      (if named then b.namedBlockSlot (writtenLink opening body next span)
        else b.block (writtenLink opening body next span)) >>= fun link =>
          .ok ⟨{ Program.ofBody [link] body.loc with chained := true }, opening.strip, true⟩ := by
  cases named <;> rfl

theorem chainLink_eq_ok_iff {named : Bool} {opening : OpenTag} {body : Program}
    {next : Option Inverse} {span : Span} {i : Inverse} :
    b.chainLink named opening body next span = .ok i ↔
      ∃ link, (if named then b.namedBlockSlot (writtenLink opening body next span)
          else b.block (writtenLink opening body next span)) = .ok link ∧
        ⟨{ Program.ofBody [link] body.loc with chained := true }, opening.strip, true⟩ = i := by
  simp only [chainLink, writtenLink]
  split
  · cases b.namedBlockSlot _ <;> simp [bind, Except.bind, pure, Except.pure]
  · cases b.block _ <;> simp [bind, Except.bind, pure, Except.pure]

end Builder

end TemplateTree
