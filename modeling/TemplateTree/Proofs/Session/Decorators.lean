import TemplateTree.Proofs.Session.Blocks

/-! Decorators in sessions. A decorator has no else branch: one that is written with it is not built.
But a decorator that is opened with a caret has its only branch, the body, in the place of the
inverse branch, as every inverted block has. -/
namespace TemplateTree

namespace Builder

variable {b : Builder} {w : WrittenBlock}

/-- Every decorator in every tree that a session builds was built by one call of the session, but for
the marks at its end, and that call was given no else branch. The body that it was given is the
decorator's program, and there is no inverse branch, unless the call was for an inverted block: then
the body is the inverse branch. -/
theorem results_decorator {calls : List Call} {piece : Piece}
    (hpiece : .ok piece ∈ b.results [] calls) :
    piece.BlocksHave fun kind node => kind = .decorator →
      ∃ w, .written false w ∈ b.blockParts [] calls ∧
        (BlockParts.written false w).Becomes b .decorator node ∧
        w.opening.isDecorator = true ∧ w.inverse = none ∧ node.inverseStrip = none ∧
        (w.inverted = false → node.program = some w.ownBody ∧ node.inverse = none) ∧
        (w.inverted = true → node.program = none ∧ node.inverse = some w.ownBody) := by
  refine (results_blocks hpiece).mono ?_
  rintro kind node ⟨parts, given, becomes⟩ rfl
  rcases parts with ⟨named, w⟩ | ⟨opening, contents, closed, span⟩
  · cases named with
    | true =>
      obtain ⟨-, kind, -⟩ := becomes.of_named
      cases kind
    | false =>
      have made := becomes
      obtain ⟨noFault, kind, strip, rfl⟩ := becomes.of_written
      have decorator : w.opening.isDecorator = true := by
        cases decorator : w.opening.isDecorator
        · simp [decorator] at kind
        · rfl
      have alone := inverse_eq_none_of_decorator noFault decorator
      refine ⟨w, given, made, decorator, alone, ?_, ?_, ?_⟩
      · simp [blockNode, alone]
      · intro inverted
        simp [blockNode, alone, inverted, WrittenBlock.ownBody]
      · intro inverted
        simp [blockNode, alone, inverted, WrittenBlock.ownBody]
  · obtain ⟨kind, -⟩ := becomes.of_raw
    cases kind

/-- The decorator `{{#*layout}}{{/layout}}` around nothing. -/
theorem results_decorator_layout :
    let span : Span := ⟨⟨1, 0⟩, ⟨1, 23⟩⟩
    let calls : List Call := [.path false [.ofToken none "layout"] span,
      .openTag 0 "\x7b\x7b#*" ⟨[], none⟩ {} none, .program [] none, .closeTag (some 0) {},
      .block ⟨1, 2, none, some 3, false, span⟩]
    ∃ node, .ok (.statement (.block .decorator node)) ∈ (ofOptions {}).results [] calls ∧
      ∃ w, .written false w ∈ (ofOptions {}).blockParts [] calls ∧
        (BlockParts.written false w).Becomes (ofOptions {}) .decorator node ∧
        w.opening.isDecorator = true ∧ w.inverse = none ∧ node.inverseStrip = none ∧
        (w.inverted = false → node.program = some w.ownBody ∧ node.inverse = none) ∧
        (w.inverted = true → node.program = none ∧ node.inverse = some w.ownBody) := by
  intro span calls
  have found : ((ofOptions {}).results [] calls).any
      (·.toOption.any (·.isBlock .decorator fun _ => true)) = true := by decide
  obtain ⟨node, hpiece, -⟩ := exists_block found
  exact ⟨node, hpiece, (results_decorator hpiece).root rfl⟩

/-- The decorator `{{^*layout}}{{/layout}}`, whose body is no program but an inverse branch. -/
theorem inverted_decorator_layout :
    let calls : List Call := [.path false [.ofToken none "layout"] ⟨⟨1, 3⟩, ⟨1, 9⟩⟩,
      .openTag 0 "\x7b\x7b^*" ⟨[], none⟩ {} none, .program [] none,
      .block ⟨1, 2, none, none, true, ⟨⟨1, 0⟩, ⟨1, 22⟩⟩⟩]
    ¬ ∀ piece, .ok piece ∈ (ofOptions {}).results [] calls →
      piece.BlocksHave fun kind node => kind = .decorator →
        node.inverse = none ∧ node.program.isSome := by
  intro calls never
  have found : ((ofOptions {}).results [] calls).any
      (·.toOption.any (·.isBlock .decorator fun node => node.inverse.isSome)) = true := by decide
  obtain ⟨node, hpiece, present⟩ := exists_block found
  obtain ⟨absent, -⟩ := (never _ hpiece).root rfl
  simp [absent] at present

end Builder

end TemplateTree
