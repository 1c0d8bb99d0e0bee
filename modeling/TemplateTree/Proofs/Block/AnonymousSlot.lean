import TemplateTree.Proofs.Block.Classification
import TemplateTree.Proofs.Path.References

/-! The anonymous slot. A block is meant to have it only from its else chain, and tokens without
bars bear that out. But a name in brackets may have any characters in it, those of the anonymous
slot as well, and nothing keeps a path from spelling that slot out. -/
namespace TemplateTree

theorem WrittenBlock.Fills.eq_anonymous_iff {w : WrittenBlock} {named slot : SlotName}
    (h : w.Fills named slot) :
    slot = .anonymous ↔ named = .anonymous ∨ named = .empty ∧ w.ChainDeclaresSlot := by
  cases h with
  | named some => simp [some]
  | inferred none chain => simp [none, chain]
  | nothing none chain => simp [none, chain]

namespace Builder

variable {b : Builder} {w : WrittenBlock} {tag : OpenTag}

/-- The block has its slot from its else chain. -/
structure Infers (b : Builder) (w : WrittenBlock) : Prop where
  plain : w.opening.isDecorator = false
  enabled : b.options.namedBlockSlots = true
  unnamed : ∀ name slot, SlotSuffix.Names w.opening.path.written name slot → slot = .empty
  chain : w.ChainDeclaresSlot

/-- The path of the opening tag spells the anonymous slot out: as the slot that a block fills, or as
the name of the slot whose content it declares. -/
def SpellsAnonymous (b : Builder) (w : WrittenBlock) : Bool → Prop
  | false => ∃ name, b.Splits w.opening name .anonymous
  | true => w.opening.path.written = SlotName.anonymous.text ∨
      ∃ slot, b.Splits w.opening SlotName.anonymous.text slot

/-- What is left of a path is a text without a separator if it is that text from the start, or if
that text is the name in front of a slot. -/
theorem target_written_iff {text : String} (free : ¬ SlotSuffix.Occurs text) :
    (b.target tag).1.written = text ↔
      tag.path.written = text ∨ ∃ slot, b.Splits tag text slot := by
  rcases target_cases b tag with ⟨name, slot, splits, target⟩ | ⟨unsplit, target⟩
  · have different : tag.path.written ≠ text := by
      rintro rfl
      exact free splits.names.occurs
    rw [target]
    constructor
    · rintro rfl
      exact .inr ⟨slot, splits⟩
    · rintro (same | ⟨slot', splits'⟩)
      · exact absurd same different
      · exact congrArg (·.1.written) (target.symm.trans (target_of_splits splits'))
  · rw [target]
    simp [unsplit]

theorem infers_iff : b.Infers w ↔ w.opening.isDecorator = false ∧
    b.options.namedBlockSlots = true ∧ (b.target w.opening).2 = .empty ∧ w.ChainDeclaresSlot := by
  constructor
  · rintro ⟨plain, enabled, unnamed, chain⟩
    refine ⟨plain, enabled, ?_, chain⟩
    by_cases empty : (b.target w.opening).2 = .empty
    · exact empty
    · obtain ⟨name, splits⟩ := (target_slot_iff empty).1 rfl
      exact unnamed name _ splits.names
  · rintro ⟨plain, enabled, empty, chain⟩
    refine ⟨plain, enabled, ?_, chain⟩
    intro name slot names
    rwa [target_of_splits ⟨plain, enabled, names⟩] at empty

/-- A path that spells the anonymous slot out has a bar in it. -/
theorem bar_of_spellsAnonymous {named : Bool} (h : b.SpellsAnonymous w named) :
    '|' ∈ w.opening.path.written.toList := by
  have bar : '|' ∈ SlotName.anonymous.text.toList := by decide
  cases named with
  | false =>
    obtain ⟨name, splits⟩ := h
    exact splits.names.slot_isInfix.subset bar
  | true =>
    rcases h with whole | ⟨slot, splits⟩
    · rwa [whole]
    · exact splits.names.name_isPrefix.subset bar

/-- The bar is in one of the tokens, or in the separator before it. -/
theorem bar_of_resolve {data : Bool} {tokens : List (Option String × String)} {loc : Location}
    {p : Path} (resolved : Path.resolve data (tokens.map fun t => .ofToken t.1 t.2) loc = .ok p)
    (bar : '|' ∈ p.written.toList) :
    ∃ t ∈ tokens, '|' ∈ (t.1.getD "").toList ∨ '|' ∈ t.2.toList := by
  have mark : '|' ∉ (if data then "@" else "").toList := by
    cases data <;> decide
  rw [Path.written_of_resolve resolved, Segment.textOf, String.toList_append,
    List.mem_append] at bar
  have bar := bar.resolve_left mark
  rw [String.toList_join] at bar
  obtain ⟨text, htext, hbar⟩ := List.mem_flatMap.1 bar
  obtain ⟨segment, hsegment, rfl⟩ := List.mem_map.1 htext
  obtain ⟨t, ht, rfl⟩ := List.mem_map.1 hsegment
  refine ⟨t, ht, ?_⟩
  have hbar : '|' ∈ (t.1.getD "").toList ∨ '|' ∈ (unbracket t.2).toList := by
    simpa [Segment.text, Segment.ofToken] using hbar
  exact hbar.imp_right mem_of_mem_unbracket

/-- A block opened with a path of any tokens has the anonymous slot when it has its slot from its
else chain, and when the path spells that slot out. The latter takes a token with a bar in it:
without one only else chains give the anonymous slot, and no declaration has it. -/
theorem slot_isAnonymous_iff {data : Bool} {tokens : List (Option String × String)} {loc : Location}
    {named : Bool} {s : Statement}
    (resolved : Path.resolve data (tokens.map fun t => .ofToken t.1 t.2) loc = .ok w.opening.path)
    (built : (if named then b.namedBlockSlot w else b.block w) = .ok s) :
    ∃ kind node, s = .block kind node ∧
      (node.slot.isAnonymous = true ↔ named = false ∧ b.Infers w ∨ b.SpellsAnonymous w named) ∧
      (b.SpellsAnonymous w named →
        ∃ t ∈ tokens, '|' ∈ (t.1.getD "").toList ∨ '|' ∈ t.2.toList) := by
  have bar : b.SpellsAnonymous w named →
      ∃ t ∈ tokens, '|' ∈ (t.1.getD "").toList ∨ '|' ∈ t.2.toList :=
    fun spells => bar_of_resolve resolved (bar_of_spellsAnonymous spells)
  have isAnonymous (slot : SlotName) : slot.isAnonymous = true ↔ slot = .anonymous := by
    simp [SlotName.isAnonymous]
  cases named with
  | false =>
    obtain ⟨node, rfl, -, unslotted, fills⟩ := exists_block_of_ok built
    refine ⟨_, node, rfl, ?_, bar⟩
    have spells : b.SpellsAnonymous w false ↔ (b.target w.opening).2 = .anonymous :=
      (target_slot_iff (by decide)).symm
    rw [isAnonymous, infers_iff, spells]
    by_cases applies : w.opening.isDecorator = false ∧ b.options.namedBlockSlots = true
    · obtain ⟨plain, enabled⟩ := applies
      rw [(fills plain enabled).eq_anonymous_iff]
      simp [plain, enabled, or_comm]
    · -- Neither the path nor the else chain is asked for a slot.
      have whole : w.opening.isDecorator = true ∨ b.options.namedBlockSlots = false := by
        simpa [Decidable.imp_iff_not_or] using applies
      rw [unslotted whole, target_of_not_splits fun _ _ splits =>
        applies ⟨splits.plain, splits.enabled⟩]
      constructor
      · exact .inr
      · rintro (⟨-, plain, enabled, -⟩ | same)
        · exact absurd ⟨plain, enabled⟩ applies
        · exact same
  | true =>
    obtain ⟨-, rfl⟩ := namedBlockSlot_eq_ok_iff.1 built
    refine ⟨_, _, rfl, ?_, bar⟩
    have free : ¬ SlotSuffix.Occurs SlotName.anonymous.text :=
      fun occurs => absurd occurs.mem (by decide)
    have written : (b.target w.opening).1.written = SlotName.anonymous.text ↔
        b.SpellsAnonymous w true := target_written_iff free
    rw [isAnonymous, ← written, blockNode_path]
    simp [SlotName.anonymous]

/-- The block `{{#list}}{{else header}}`, which has its slot from its else chain. -/
theorem slot_isAnonymous_list :
    let b := ofOptions {}
    let loc : Location := ⟨none, ⟨1, 0⟩, ⟨1, 24⟩⟩
    let span : Span := ⟨loc.start, loc.stop⟩
    let empty : Program := .ofBody [] none
    let tag (name : String) : OpenTag :=
      ⟨⟨false, 0, [name], name, loc⟩, ⟨[], none⟩, none, {}, "\x7b\x7b#"⟩
    let declared := b.blockNode ⟨tag "header", empty, none, none, false, span⟩
    let link : Inverse := ⟨.ofBody [.block .namedSlot declared] none, {}, true⟩
    let w : WrittenBlock := ⟨tag "list", empty, some link, none, false, span⟩
    Path.resolve false [.ofToken none "list"] loc = .ok w.opening.path ∧ b.Infers w ∧
      ∃ node, b.block w = .ok (.block .plain node) ∧ node.slot.isAnonymous = true := by
  intro b loc span empty tag declared link w
  have resolved : Path.resolve false [.ofToken none "list"] loc = .ok w.opening.path := by rfl
  have plain : w.opening.isDecorator = false := by decide
  have built : b.block w = .ok (.block .plain (b.blockNode w)) :=
    block_eq_plain plain (by decide)
  have infers : b.Infers w := by
    refine ⟨plain, rfl, ?_, link, rfl, rfl, _, _, rfl⟩
    intro name slot names
    exact absurd names.occurs.mem (by decide)
  obtain ⟨kind, node, heq, anonymous, -⟩ :=
    @slot_isAnonymous_iff b w false [(none, "list")] loc false _ resolved built
  obtain ⟨rfl, rfl⟩ : .plain = kind ∧ b.blockNode w = node := by simpa using heq
  exact ⟨resolved, infers, _, built, anonymous.2 (.inl ⟨rfl, infers⟩)⟩

/-- The block `{{#[card::|anonymous|]}}` has the anonymous slot without any else chain. -/
theorem spelled_anonymous_card :
    let b := ofOptions {}
    let loc : Location := ⟨none, ⟨1, 3⟩, ⟨1, 22⟩⟩
    let path : Path := ⟨false, 0, ["card::|anonymous|"], "card::|anonymous|", loc⟩
    let w : WrittenBlock := ⟨⟨path, ⟨[], none⟩, none, {}, "\x7b\x7b#"⟩, .ofBody [] none, none, none,
      false, ⟨⟨1, 0⟩, ⟨1, 33⟩⟩⟩
    Path.resolve false [.ofToken none "[card::|anonymous|]"] loc = .ok path ∧
      ¬ ∀ named s, (if named then b.namedBlockSlot w else b.block w) = .ok s →
        ∃ kind node, s = .block kind node ∧
          (node.slot.isAnonymous = true ↔ named = false ∧ b.Infers w) := by
  intro b loc path w
  refine ⟨by rfl, fun inferred => ?_⟩
  have plain : w.opening.isDecorator = false := by decide
  have built : b.block w = .ok (.block .plain (b.blockNode w)) :=
    block_eq_plain plain (by decide)
  obtain ⟨kind, node, heq, anonymous⟩ := inferred false _ built
  obtain ⟨rfl, rfl⟩ : .plain = kind ∧ b.blockNode w = node := by simpa using heq
  obtain ⟨-, infers⟩ := anonymous.1 (by decide)
  obtain ⟨i, hi, -⟩ := infers.chain
  cases hi

end Builder

end TemplateTree
