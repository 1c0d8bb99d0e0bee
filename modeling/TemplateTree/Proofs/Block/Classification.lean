import TemplateTree.Proofs.Block.Assembly
import TemplateTree.Proofs.Slot.Suffix

/-! What the opening tag and the else chain make of a block: its kind, its path and the slot that it
fills. A path may name the slot, which is then split off. Where it names none, or the empty one, an
else chain that goes on with the content of a slot gives the block the anonymous slot. -/
namespace TemplateTree

/-- `q` is the path `p` to a block without the slot behind it: the text is cut to the name, and the
last part to its stem. -/
structure Path.StripsTo (p : Path) (name : String) (q : Path) : Prop where
  written : q.written = name
  data : q.data = p.data
  depth : q.depth = p.depth
  loc : q.loc = p.loc
  length : q.parts.length = p.parts.length
  init : q.parts.dropLast = p.parts.dropLast
  last : ∀ part ∈ p.parts.getLast?, ∃ stem ∈ q.parts.getLast?, SlotSuffix.IsStem part stem

namespace WrittenBlock

/-- The else chain behind the body goes on with the content of a slot. -/
def ChainDeclaresSlot (w : WrittenBlock) : Prop :=
  ∃ i ∈ w.inverse, i.chain = true ∧ ∃ node rest, i.program.body = .block .namedSlot node :: rest

/-- The slot that a block fills, from the one that its path names; the empty slot stands for none.
-/
inductive Fills (w : WrittenBlock) (named : SlotName) : SlotName → Prop where
  | named (some : named ≠ .empty) : Fills w named named
  | inferred (none : named = .empty) (chain : w.ChainDeclaresSlot) : Fills w named .anonymous
  | nothing (none : named = .empty) (chain : ¬ w.ChainDeclaresSlot) : Fills w named .empty

end WrittenBlock

/-! ### Taking the slot off a path -/

namespace Path

@[simp] theorem stemLast_nil : stemLast [] = [] := rfl

@[simp] theorem stemLast_concat (init : List String) (last : String) :
    stemLast (init ++ [last]) = init ++ [SlotSuffix.stem last] := by
  simp [stemLast]

theorem stripsTo (p : Path) (name : String) :
    p.StripsTo name { p with written := name, parts := stemLast p.parts } := by
  rcases List.eq_nil_or_concat p.parts with hnil | ⟨init, last, hparts⟩
  · exact ⟨rfl, rfl, rfl, rfl, by simp [hnil], by simp [hnil], by simp [hnil]⟩
  · rw [List.concat_eq_append] at hparts
    refine ⟨rfl, rfl, rfl, rfl, by simp [hparts], by simp [hparts], ?_⟩
    have stem := SlotSuffix.stem_eq_iff.1 (rfl : SlotSuffix.stem last = _)
    simpa [hparts] using stem

end Path

namespace Builder

/-- A slot is split off the path of the tag. -/
structure Splits (b : Builder) (tag : OpenTag) (name : String) (slot : SlotName) : Prop where
  plain : tag.isDecorator = false
  enabled : b.options.namedBlockSlots = true
  names : SlotSuffix.Names tag.path.written name slot

variable {b : Builder} {w : WrittenBlock} {tag : OpenTag} {name : String} {slot : SlotName}

theorem target_of_splits (h : b.Splits tag name slot) : b.target tag =
    ({ tag.path with written := name, parts := Path.stemLast tag.path.parts }, slot) := by
  simp [target, h.plain, h.enabled, Path.splitSlot?, SlotSuffix.split?_eq_some_iff.2 h.names]

theorem target_of_not_splits (h : ∀ name slot, ¬ b.Splits tag name slot) :
    b.target tag = (tag.path, .empty) := by
  unfold target
  split
  next applies =>
    obtain ⟨plain, enabled⟩ : tag.isDecorator = false ∧ b.options.namedBlockSlots = true := by
      simpa using applies
    have unnamed : SlotSuffix.split? tag.path.written = none :=
      SlotSuffix.split?_eq_none_iff.2 fun name slot names => h name slot ⟨plain, enabled, names⟩
    simp [Path.splitSlot?, unnamed]
  next => rfl

/-- Either a slot is split off the path of a tag, or the tag keeps its path and names no slot. -/
theorem target_cases (b : Builder) (tag : OpenTag) :
    (∃ name slot, b.Splits tag name slot ∧ b.target tag =
      ({ tag.path with written := name, parts := Path.stemLast tag.path.parts }, slot)) ∨
    (∀ name slot, ¬ b.Splits tag name slot) ∧ b.target tag = (tag.path, .empty) := by
  by_cases splits : ∃ name slot, b.Splits tag name slot
  · obtain ⟨name, slot, hsplits⟩ := splits
    exact .inl ⟨name, slot, hsplits, target_of_splits hsplits⟩
  · simp only [not_exists] at splits
    exact .inr ⟨splits, target_of_not_splits splits⟩

/-- The slot of a tag, unless it is the empty one, is the slot that is split off its path. -/
theorem target_slot_iff (some : slot ≠ .empty) :
    (b.target tag).2 = slot ↔ ∃ name, b.Splits tag name slot := by
  constructor
  · intro h
    rcases target_cases b tag with ⟨name, slot', splits, target⟩ | ⟨-, target⟩
    · rw [target] at h
      exact ⟨name, h ▸ splits⟩
    · rw [target] at h
      exact absurd h.symm some
  · rintro ⟨name, splits⟩
    rw [target_of_splits splits]

/-! ### The slot of a block -/

theorem declaresSlot_iff : w.inverse.any (·.declaresSlot) = true ↔ w.ChainDeclaresSlot := by
  have starts (p : Program) : p.startsWithNamedSlot = true ↔
      ∃ node rest, p.body = .block .namedSlot node :: rest := by
    unfold Program.startsWithNamedSlot Program.first?
    rcases hbody : p.body with _ | ⟨s, rest⟩
    · simp
    · cases s <;> simp [Statement.nodeKind]
  simp [WrittenBlock.ChainDeclaresSlot, Option.any_eq_true, Inverse.declaresSlot, starts]

theorem slot_fills (enabled : b.options.namedBlockSlots = true) (named : SlotName) :
    w.Fills named (b.slot named w.inverse) := by
  unfold slot
  by_cases empty : named = .empty
  · by_cases chain : w.ChainDeclaresSlot
    · rw [if_pos (by simp [SlotName.isEmpty, empty, enabled, declaresSlot_iff.2 chain])]
      exact .inferred empty chain
    · have undeclared : w.inverse.any (·.declaresSlot) = false := by
        rw [← Bool.not_eq_true, declaresSlot_iff]
        exact chain
      rw [if_neg (by simp [undeclared]), empty]
      exact .nothing rfl chain
  · rw [if_neg (by simp [SlotName.isEmpty, empty])]
    exact .named empty

/-- There is no slot to infer without the option, or without an else branch. -/
theorem slot_eq_named {named : SlotName}
    (h : b.options.namedBlockSlots = false ∨ w.inverse = none) :
    b.slot named w.inverse = named := by
  rcases h with disabled | alone
  · simp [slot, disabled]
  · simp [slot, alone]

theorem slot_eq_of_some (some : slot ≠ .empty) : b.slot slot w.inverse = slot := by
  simp [Builder.slot, SlotName.isEmpty, some]

theorem blockNode_path : (b.blockNode w).path = (b.target w.opening).1 := by rfl

theorem blockNode_slot_eq :
    (b.blockNode w).slot = b.slot (b.target w.opening).2 w.inverse := by rfl

/-- The path and the slot of an assembled block. Where no slot can be named, none is inferred. -/
theorem exists_block_of_ok {s : Statement} (built : b.block w = .ok s) :
    ∃ node, s = .block (if w.opening.isDecorator then .decorator else .plain) node ∧
      node.path = (b.target w.opening).1 ∧
      (w.opening.isDecorator = true ∨ b.options.namedBlockSlots = false → node.slot = .empty) ∧
      (w.opening.isDecorator = false → b.options.namedBlockSlots = true →
        w.Fills (b.target w.opening).2 node.slot) := by
  obtain ⟨noFault, rfl⟩ := block_eq_ok_iff.1 built
  refine ⟨_, rfl, rfl, ?_, fun _ enabled => slot_fills enabled _⟩
  intro whole
  have target : b.target w.opening = (w.opening.path, .empty) := by
    refine target_of_not_splits fun _ _ splits => ?_
    simp [splits.plain, splits.enabled] at whole
  have uninferred : b.options.namedBlockSlots = false ∨ w.inverse = none := by
    rcases whole with decorator | disabled
    · exact .inr (inverse_eq_none_of_decorator noFault decorator)
    · exact .inl disabled
  rw [blockNode_slot_eq, target]
  exact slot_eq_named uninferred

/-! ### Kind, path and slot -/

/-- Whenever a block is assembled, whatever its parts: a star anywhere in the opening text makes it
a decorator, and nothing else does. Decorators, and all blocks without the option, have the path of
their tag and no slot. The path of any other block loses the slot that it names, and the rules of
`WrittenBlock.Fills` say which slot the block has. -/
theorem block_classified {s : Statement} (built : b.block w = .ok s) :
    ∃ kind node, s = .block kind node ∧
      kind = (if '*' ∈ w.opening.opening.toList then .decorator else .plain) ∧
      (kind = .decorator ∨ b.options.namedBlockSlots = false →
        node.path = w.opening.path ∧ node.slot = .empty) ∧
      (kind = .plain ∧ b.options.namedBlockSlots = true →
        (∀ name slot, SlotSuffix.Names w.opening.path.written name slot →
          w.opening.path.StripsTo name node.path ∧ w.Fills slot node.slot) ∧
        ((∀ name slot, ¬ SlotSuffix.Names w.opening.path.written name slot) →
          node.path = w.opening.path ∧ w.Fills .empty node.slot)) := by
  obtain ⟨node, rfl, path, unslotted, fills⟩ := exists_block_of_ok built
  have star : w.opening.isDecorator = true ↔ '*' ∈ w.opening.opening.toList := by
    simp [OpenTag.isDecorator, Delimiter.isDecorator]
  refine ⟨_, node, rfl, by simp only [star], ?_, ?_⟩
  · intro whole
    have whole : w.opening.isDecorator = true ∨ b.options.namedBlockSlots = false := by
      simpa using whole
    refine ⟨?_, unslotted whole⟩
    rw [path, target_of_not_splits fun _ _ splits => by
      simp [splits.plain, splits.enabled] at whole]
  · rintro ⟨hkind, enabled⟩
    have plain : w.opening.isDecorator = false := by simpa using hkind
    have fills := fills plain enabled
    rw [path]
    constructor
    · intro name slot names
      rw [target_of_splits ⟨plain, enabled, names⟩] at fills ⊢
      exact ⟨w.opening.path.stripsTo name, fills⟩
    · intro unnamed
      rw [target_of_not_splits fun name slot splits => unnamed name slot splits.names] at fills ⊢
      exact ⟨rfl, fills⟩

/-- In `{{#ui.card:::rows::x}}{{else header}}{{/ui.card}}` the first separator overlaps with
another, the slot ends at a third, and the else chain has no slot to give. -/
theorem block_classified_card :
    let loc : Location := ⟨none, ⟨1, 0⟩, ⟨1, 55⟩⟩
    let empty : Program := .ofBody [] none
    let tag (path : Path) : OpenTag := ⟨path, ⟨[], none⟩, none, {}, "\x7b\x7b#"⟩
    let path : Path := ⟨false, 0, ["ui", "card:::rows::x"], "ui.card:::rows::x", loc⟩
    let header : Path := ⟨false, 0, ["header"], "header", loc⟩
    let span : Span := ⟨loc.start, loc.stop⟩
    let declared := (ofOptions {}).blockNode ⟨tag header, empty, none, none, false, span⟩
    let link : Inverse := ⟨.ofBody [.block .namedSlot declared] none, {}, true⟩
    let w : WrittenBlock := ⟨tag path, empty, some link, none, false, span⟩
    ∃ node, (ofOptions {}).block w = .ok (.block .plain node) ∧
      SlotSuffix.Names path.written "ui.card" ⟨":rows"⟩ ∧ w.ChainDeclaresSlot ∧
      path.StripsTo "ui.card" node.path ∧ w.Fills ⟨":rows"⟩ node.slot := by
  intro loc empty tag path header span declared link w
  have plain : w.opening.isDecorator = false := by decide
  have built : (ofOptions {}).block w = .ok (.block .plain ((ofOptions {}).blockNode w)) :=
    block_eq_plain plain (by decide)
  have names : SlotSuffix.Names path.written "ui.card" ⟨":rows"⟩ :=
    SlotSuffix.split?_eq_some_iff.1 (by decide)
  obtain ⟨kind, node, heq, -, -, rules⟩ := block_classified built
  obtain ⟨rfl, rfl⟩ : .plain = kind ∧ (ofOptions {}).blockNode w = node := by simpa using heq
  obtain ⟨strips, fills⟩ := (rules ⟨rfl, rfl⟩).1 _ _ names
  exact ⟨_, built, names, ⟨link, rfl, rfl, _, _, rfl⟩, strips, fills⟩

end Builder

end TemplateTree
